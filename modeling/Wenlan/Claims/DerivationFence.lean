import Wenlan.Claims.Derivation
import Wenlan.Support.Transition

/-!
# The fence around a derivation run

A run is what a lease gives a worker: the job with the generation that was burned for it,
and the worker's name.  A worker may use what it was given at any later time and in any
order, so a turn is one of the orders, and a worker that wakes up late is another.  While
the row of the job is leased to the run, the run is live.  Once it is not, no step makes it
live again, and nothing that the worker still does in its name is written.
-/

namespace Wenlan.Claims

open Support.Transition List Nat

variable {Score : Type}

/-- What a worker does with a job it was given. -/
inductive RunAct (Score : Type) where
  | derive
  | record (candidates : List SupportLocator)
  | judge (candidates : List SupportLocator) (misses : List (CacheMiss Score))
  | defer (candidates : List SupportLocator)
  | write (call : SupportCall Score)
  | finalize (pageId : String) (pageVersion : Int) (outcome : SupportOutcome)
  | finish
  | release (error : String)
  | park (reason : String)

/-- What else happens to the tables: page edits, sweeps, demotions, another judge, reviews
by a person, and any change of the evidence. -/
inductive Change (Score : Type) where
  | burn
  | parkExhausted
  | putPage (pageId : String) (page : PageText)
  | dropPage (pageId : String)
  | demote (pages : List String) (reason : String)
  | sweep (batch : List (String × Int)) (drifted : List String)
  | activate (threshold : Score) (supported : List String)
  | retune (judges : List (JudgeRow Score)) (advance : Nat)
  | requeueParked (errors : String → Bool)
  | review (truth : String → Option TruthRow)
  | evidence (support : Database Score)

abbrev LeasedRun := DerivationJob × String

inductive DerivationEvent (Score : Type) where
  | lease (owner : String) (now : Int)
  | act (run : LeasedRun) (act : RunAct Score) (now : Int)
  | change (change : Change Score) (now : Int)

/-- The tables, and every lease that was ever given out, newest first. -/
structure Workers (Score : Type) where
  data : Derivation Score
  issued : List LeasedRun

variable (rt : Runtime Score) (extract : Derivation Score → DerivationJob → List DerivedClaim)
  (evaluate : Derivation Score → String → Int → SupportOutcome)

def Derivation.act (d : Derivation Score) (run : LeasedRun) (act : RunAct Score) (now : Int) :
    Derivation Score :=
  match act with
  | .derive => (deriveLeasedPageClaims rt extract d run.1 run.2).2
  | .record candidates => (recordRunCandidateInventory d run.1 run.2 candidates now).2
  | .judge candidates misses => (persistRunJudgments d run.1 run.2 candidates misses now).2
  | .defer candidates => (persistDeferredAttempts d run.1 run.2 candidates now).2
  | .write call => { d with support := (writeSupportEdge rt d.support call).2 }
  | .finalize pageId pageVersion outcome =>
    (finalizePageSupport evaluate d pageId pageVersion run.1 run.2 outcome now).2
  | .finish => (finishDerivationJob d run.1 run.2 now).2
  | .release error => (releaseDerivationJob d run.1 run.2 error now).2
  | .park reason => (parkLeasedDerivationJob d run.1 run.2 reason now).2

def Derivation.change (d : Derivation Score) (change : Change Score) (now : Int) :
    Derivation Score :=
  match change with
  | .burn => allocateRunGeneration (reapExhausted d now)
  | .parkExhausted => parkExhaustedDerivationJobs d now
  | .putPage pageId page => Claims.putPage d pageId page now
  | .dropPage pageId => Claims.dropPage d pageId now
  | .demote pages reason => demoteSupport d pages reason now
  | .sweep batch drifted => sweepStaleDerivationJobs d batch drifted now
  | .activate threshold supported => activateJudge d threshold supported now
  | .retune judges advance =>
    { d with judges := judges, lastEligibility := d.lastEligibility + advance }
  | .requeueParked errors => Claims.requeueParked d errors now
  | .review truth => { d with truth := truth }
  | .evidence support => { d with support := support }

def Workers.next (s : Workers Score) : DerivationEvent Score → Workers Score
  | .lease owner now =>
    match leaseNextDerivationJob s.data owner now with
    | (some job, data) => ⟨data, (job, owner) :: s.issued⟩
    | (none, data) => ⟨data, s.issued⟩
  | .act run act now => { s with data := s.data.act rt extract evaluate run act now }
  | .change change now => { s with data := s.data.change change now }

/-- A worker acts only for a lease that was given out. -/
def DerivationStep (s : Workers Score) (event : DerivationEvent Score) (t : Workers Score) : Prop :=
  (∀ run act now, event = .act run act now → run ∈ s.issued) ∧ t = s.next rt extract evaluate event

def Workers.Live (s : Workers Score) (run : LeasedRun) : Prop :=
  s.data.holdsRun run.1 run.2 = true

/-! ## What a statement does to the queue -/

/-- No row becomes leased, no generation is given back, ids stay distinct and no row counts
past the maximum. -/
structure Keeps (d e : Derivation Score) : Prop where
  leased : ∀ row ∈ e.jobs, row.status = .leased → row ∈ d.jobs
  generation : d.lastGeneration ≤ e.lastGeneration
  ids : (d.jobs.map Job.jobId).Nodup → (e.jobs.map Job.jobId).Nodup
  attempts : (∀ row ∈ d.jobs, row.attempts ≤ maxAttempts) →
    ∀ row ∈ e.jobs, row.attempts ≤ maxAttempts

variable {rt extract evaluate} {d e : Derivation Score}

theorem Keeps.of_jobs (hjobs : e.jobs = d.jobs) (hgen : d.lastGeneration ≤ e.lastGeneration) :
    Keeps d e := by
  constructor
  · intro row hrow _
    rw [← hjobs]
    exact hrow
  · exact hgen
  · intro hnodup
    rw [hjobs]
    exact hnodup
  · intro hle
    rw [hjobs]
    exact hle

theorem Keeps.refl (d : Derivation Score) : Keeps d d :=
  .of_jobs rfl (le_refl _)

theorem Keeps.trans {f : Derivation Score} (h : Keeps d e) (h' : Keeps e f) : Keeps d f := by
  constructor
  · intro row hrow hleas
    exact h.leased row (h'.leased row hrow hleas) hleas
  · exact le_trans h.generation h'.generation
  · intro hnodup
    exact h'.ids (h.ids hnodup)
  · intro hle
    exact h'.attempts (h.attempts hle)

theorem map_jobId (jobs : List Job) {set : Job → Job} (h : ∀ row, (set row).jobId = row.jobId) :
    (jobs.map set).map Job.jobId = jobs.map Job.jobId := by
  rw [map_map]
  exact map_congr_left fun row _ => h row

theorem Keeps.of_map {set : Job → Job} (hjobs : e.jobs = d.jobs.map set)
    (hgen : d.lastGeneration ≤ e.lastGeneration) (hid : ∀ row, (set row).jobId = row.jobId)
    (hleas : ∀ row, (set row).status = .leased → set row = row)
    (hatt : ∀ row, (set row).attempts ≤ row.attempts) : Keeps d e := by
  constructor
  · intro row hrow hstat
    rw [hjobs] at hrow
    obtain ⟨old, hold, rfl⟩ := mem_map.mp hrow
    rw [hleas old hstat]
    exact hold
  · exact hgen
  · intro hnodup
    rw [hjobs, map_jobId d.jobs hid]
    exact hnodup
  · intro hle row hrow
    rw [hjobs] at hrow
    obtain ⟨old, hold, rfl⟩ := mem_map.mp hrow
    exact le_trans (hatt old) (hle old hold)

theorem Keeps.of_filter {keep : Job → Bool} (hjobs : e.jobs = d.jobs.filter keep)
    (hgen : d.lastGeneration ≤ e.lastGeneration) : Keeps d e := by
  have hmem : ∀ row ∈ e.jobs, row ∈ d.jobs := by
    intro row hrow
    rw [hjobs] at hrow
    exact mem_of_mem_filter hrow
  constructor
  · intro row hrow _
    exact hmem row hrow
  · exact hgen
  · intro hnodup
    rw [hjobs]
    exact hnodup.sublist (filter_sublist.map Job.jobId)
  · intro hle row hrow
    exact hle row (hmem row hrow)

theorem Keeps.updateJobs (d : Derivation Score) (where_ : Job → Bool) {set : Job → Job}
    (hid : ∀ row, (set row).jobId = row.jobId) (hended : ∀ row, (set row).status ≠ .leased)
    (hatt : ∀ row, (set row).attempts ≤ row.attempts) : Keeps d (d.updateJobs where_ set) := by
  refine .of_map rfl (le_refl _) ?_ ?_ ?_
  · intro row
    split
    · exact hid row
    · rfl
  · intro row
    split
    · intro hleas
      exact absurd hleas (hended row)
    · intro _
      rfl
  · intro row
    split
    · exact hatt row
    · exact le_refl _

variable {status : JobStatus}

theorem Keeps.ended (d : Derivation Score) (where_ : Job → Bool)
    (hstat : status ≠ .leased) (lastError : Job → Option String) (now : Int) :
    Keeps d (d.updateJobs where_ fun row => row.ended status (lastError row) now) :=
  .updateJobs d where_ (fun _ => rfl) (fun _ => hstat) fun _ => le_refl _

/-- Queueing a page adds a row only under a new id. -/
theorem Keeps.enqueue {resets : List JobStatus} (now : Int) (page : String × Int)
    (hjobs : e.jobs = enqueueJob resets now d.jobs page)
    (hgen : d.lastGeneration ≤ e.lastGeneration) : Keeps d e := by
  unfold enqueueJob at hjobs
  dsimp only at hjobs
  split at hjobs
  · refine .of_map hjobs hgen ?_ ?_ ?_
    · intro row
      split <;> rfl
    · intro row
      split
      · intro hleas
        cases hleas
      · intro _
        rfl
    · intro row
      split
      · exact zero_le _
      · exact le_refl _
  · rename_i hfresh
    constructor
    · intro row hrow hleas
      rw [hjobs] at hrow
      rcases mem_append.mp hrow with hold | hnew
      · exact hold
      · rw [mem_singleton.mp hnew] at hleas
        cases hleas
    · exact hgen
    · intro hnodup
      rw [hjobs, map_append]
      refine List.Nodup.append hnodup (nodup_singleton _) ?_
      intro id hid hnew
      rw [mem_singleton.mp hnew] at hid
      obtain ⟨row, hrow, hsame⟩ := mem_map.mp hid
      exact hfresh (any_eq_true.mpr ⟨row, hrow, beq_iff_eq.mpr hsame⟩)
    · intro hle row hrow
      rw [hjobs] at hrow
      rcases mem_append.mp hrow with hold | hnew
      · exact hle row hold
      · rw [mem_singleton.mp hnew]
        exact zero_le _

theorem Keeps.enqueueAll {resets : List JobStatus} (now : Int) (pages : List (String × Int))
    (hjobs : e.jobs = pages.foldl (enqueueJob resets now) d.jobs)
    (hgen : d.lastGeneration ≤ e.lastGeneration) : Keeps d e := by
  induction pages generalizing d with
  | nil => exact .of_jobs hjobs hgen
  | cons page pages ih =>
    have hfirst : Keeps d { d with jobs := enqueueJob resets now d.jobs page } :=
      .enqueue now page rfl (le_refl _)
    exact hfirst.trans (ih hjobs hgen)

theorem reapExhausted_keeps (d : Derivation Score) (now : Int) : Keeps d (reapExhausted d now) :=
  .ended d _ (by decide) _ now

theorem allocateRunGeneration_keeps (d : Derivation Score) : Keeps d (allocateRunGeneration d) :=
  .of_jobs rfl (le_succ _)

theorem attempts_jobs (job : DerivationJob) (outcome : AttemptOutcome) (now : Int)
    (candidates : List SupportLocator) (d : Derivation Score) :
    (candidates.foldl (fun d locator => d.attempt job outcome now locator) d).jobs = d.jobs ∧
      (candidates.foldl (fun d locator => d.attempt job outcome now locator) d).lastGeneration =
        d.lastGeneration := by
  induction candidates generalizing d with
  | nil => exact ⟨rfl, rfl⟩
  | cons locator candidates ih => exact ih (d.attempt job outcome now locator)

theorem endRun_keeps (d : Derivation Score) (where_ : Job → Bool)
    (hstat : status ≠ .leased) (lastError : Option String) (now : Int) :
    Keeps d (endRun d where_ status lastError now).2 :=
  .ended d where_ hstat (fun _ => lastError) now

variable (rt extract evaluate) in
theorem act_keeps (d : Derivation Score) (run : LeasedRun) (act : RunAct Score) (now : Int) :
    Keeps d (d.act rt extract evaluate run act now) := by
  cases act with
  | derive =>
    change Keeps d (deriveLeasedPageClaims rt extract d run.1 run.2).2
    unfold deriveLeasedPageClaims
    split
    · exact .refl d
    · split
      · exact .refl d
      · dsimp only
        split
        · exact .refl d
        · split
          · exact .refl d
          · exact .of_jobs rfl (le_refl _)
  | record candidates =>
    change Keeps d (recordRunCandidateInventory d run.1 run.2 candidates now).2
    unfold recordRunCandidateInventory
    split
    · exact .refl d
    · exact .of_jobs rfl (le_refl _)
  | judge candidates misses =>
    change Keeps d (persistRunJudgments d run.1 run.2 candidates misses now).2
    unfold persistRunJudgments
    split
    · exact .refl d
    · have hsame := attempts_jobs run.1 .concluded now candidates d
      exact .of_jobs hsame.1 (le_of_eq hsame.2.symm)
  | defer candidates =>
    change Keeps d (persistDeferredAttempts d run.1 run.2 candidates now).2
    unfold persistDeferredAttempts
    split
    · exact .refl d
    · have hsame := attempts_jobs run.1 .deferred now candidates d
      exact .of_jobs hsame.1 (le_of_eq hsame.2.symm)
  | write call => exact .of_jobs rfl (le_refl _)
  | finalize pageId pageVersion outcome =>
    change Keeps d (finalizePageSupport evaluate d pageId pageVersion run.1 run.2 outcome now).2
    unfold finalizePageSupport
    repeat' split
    all_goals exact .of_jobs rfl (le_refl _)
  | finish => exact endRun_keeps d _ (by decide) none now
  | release error => exact endRun_keeps d _ (by decide) (some error) now
  | park reason => exact endRun_keeps d _ (by decide) (some reason) now

theorem demoteSupport_keeps (d : Derivation Score) (pages : List String) (reason : String)
    (now : Int) : Keeps d (demoteSupport d pages reason now) :=
  .enqueueAll now (d.derivable pages) rfl (le_refl _)

theorem change_keeps (d : Derivation Score) (change : Change Score) (now : Int) :
    Keeps d (d.change change now) := by
  cases change with
  | burn => exact (reapExhausted_keeps d now).trans (allocateRunGeneration_keeps _)
  | parkExhausted => exact .ended d _ (by decide) Job.lastError now
  | putPage pageId page =>
    change Keeps d (Claims.putPage d pageId page now)
    unfold Claims.putPage
    split
    · refine Keeps.trans ?_ (demoteSupport_keeps _ _ _ now)
      exact .of_jobs rfl (le_refl _)
    · exact .of_jobs rfl (le_refl _)
  | dropPage pageId => exact .of_filter rfl (le_refl _)
  | demote pages reason => exact demoteSupport_keeps d pages reason now
  | sweep batch drifted =>
    have hdel : Keeps d { d with jobs := d.jobs.filter fun row =>
        !(row.status == .done_ && batch.contains (row.pageId, row.pageVersion)) } :=
      .of_filter rfl (le_refl _)
    exact hdel.trans (.enqueueAll now batch rfl (le_refl _))
  | activate threshold supported => exact .enqueueAll now _ rfl (le_refl _)
  | retune judges advance => exact .of_jobs rfl (le_refl _)
  | requeueParked errors =>
    refine .updateJobs d _ (fun _ => rfl) ?_ fun _ => zero_le _
    intro row hleas
    cases hleas
  | review truth => exact .of_jobs rfl (le_refl _)
  | evidence support => exact .of_jobs rfl (le_refl _)

variable {jobs : List Job}

theorem oldest_mem {next : Job} (h : oldest jobs = some next) : next ∈ jobs := by
  induction jobs generalizing next with
  | nil => cases h
  | cons row rest ih =>
    unfold oldest at h
    cases hrest : oldest rest with
    | none =>
      rw [hrest] at h
      cases h
      exact mem_cons_self
    | some other =>
      rw [hrest] at h
      dsimp only at h
      split at h
      · cases h
        exact mem_cons_of_mem row (ih hrest)
      · cases h
        exact mem_cons_self

def Job.leasedBy (row : Job) (d : Derivation Score) (owner : String) (now : Int) : Job :=
  { row with
    status := .leased, leaseOwner := some owner, leaseExpiresAt := some (now + leaseSecs),
    attempts := row.attempts + 1, runGeneration := d.lastGeneration,
    eligibilityGeneration := d.lastEligibility, updatedAt := now }

theorem lease_cases (d : Derivation Score) (owner : String) (now : Int) :
    ∃ burned, burned = allocateRunGeneration (reapExhausted d now) ∧
      (leaseNextDerivationJob d owner now = (none, burned) ∨
        ∃ next ∈ burned.jobs, next.attempts < maxAttempts ∧ leaseNextDerivationJob d owner now =
            (some ⟨next.jobId, next.pageId, next.pageVersion, burned.lastGeneration,
                burned.lastEligibility⟩,
              burned.updateJobs (fun row => row.jobId == next.jobId) fun row =>
                row.leasedBy burned owner now)) := by
  refine ⟨_, rfl, ?_⟩
  unfold leaseNextDerivationJob
  dsimp only
  split
  · exact .inl rfl
  · rename_i next hnext
    have hmem := mem_filter.mp (oldest_mem hnext)
    have hclaim := hmem.2
    unfold Job.claimable at hclaim
    rw [Bool.and_eq_true, decide_eq_true_eq] at hclaim
    exact .inr ⟨next, hmem.1, hclaim.1, rfl⟩

theorem burned_keeps (d : Derivation Score) (now : Int) :
    Keeps d (allocateRunGeneration (reapExhausted d now)) :=
  (reapExhausted_keeps d now).trans (allocateRunGeneration_keeps _)

structure Workers.Sound (s : Workers Score) : Prop where
  issued : ∀ run ∈ s.issued, run.1.runGeneration ≤ s.data.lastGeneration
  distinct : (s.issued.map fun run => run.1.runGeneration).Nodup
  ids : (s.data.jobs.map Job.jobId).Nodup
  attempts : ∀ row ∈ s.data.jobs, row.attempts ≤ maxAttempts

variable {s : Workers Score}

theorem Workers.Sound.keeps (h : s.Sound) (hk : Keeps s.data e) : Workers.Sound ⟨e, s.issued⟩ where
  issued run hrun := le_trans (h.issued run hrun) hk.generation
  distinct := h.distinct
  ids := hk.ids h.ids
  attempts := hk.attempts h.attempts

theorem eq_of_jobId (hnodup : (jobs.map Job.jobId).Nodup) {a b : Job}
    (ha : a ∈ jobs) (hb : b ∈ jobs) (h : a.jobId = b.jobId) : a = b :=
  inj_on_of_nodup_map hnodup ha hb h

theorem leased_sound (h : s.Sound) {owner : String} {now : Int} {next : Job}
    (hnext : next ∈ s.data.jobs) (hatt : next.attempts < maxAttempts)
    (hfresh : ∀ run ∈ s.issued, run.1.runGeneration < s.data.lastGeneration) : Workers.Sound
      ⟨s.data.updateJobs (fun row => row.jobId == next.jobId) fun row =>
          row.leasedBy s.data owner now,
        (⟨next.jobId, next.pageId, next.pageVersion, s.data.lastGeneration,
          s.data.lastEligibility⟩, owner) :: s.issued⟩ := by
  constructor
  · intro run hrun
    rcases mem_cons.mp hrun with rfl | hold
    · exact le_refl _
    · exact h.issued run hold
  · rw [map_cons, nodup_cons]
    refine ⟨?_, h.distinct⟩
    intro hmem
    obtain ⟨run, hrun, hsame⟩ := mem_map.mp hmem
    have hlt := hfresh run hrun
    dsimp only at hsame
    omega
  · have hid : ∀ row : Job, (if (row.jobId == next.jobId)
        then row.leasedBy s.data owner now else row).jobId = row.jobId := by
      intro row
      split <;> rfl
    have hsame := map_jobId s.data.jobs hid
    change ((s.data.jobs.map _).map Job.jobId).Nodup
    rw [hsame]
    exact h.ids
  · intro row hrow
    obtain ⟨old, hold, rfl⟩ := mem_map.mp hrow
    split
    · rename_i hsame
      have heq := eq_of_jobId h.ids hold hnext (beq_iff_eq.mp hsame)
      rw [heq]
      exact hatt
    · exact h.attempts old hold

/-- What one event does to the rows that are leased, and to the leases that were given. -/
structure Workers.Advances (s t : Workers Score) : Prop where
  sound : t.Sound
  issued : ∀ run ∈ s.issued, run ∈ t.issued
  leased : ∀ row ∈ t.data.jobs, row.status = .leased →
    row ∈ s.data.jobs ∨ s.data.lastGeneration < row.runGeneration

variable (rt extract evaluate) in
theorem next_advances {s : Workers Score} (h : s.Sound) (event : DerivationEvent Score) :
    s.Advances (s.next rt extract evaluate event) := by
  cases event with
  | act run act now =>
    have hk := act_keeps rt extract evaluate s.data run act now
    exact ⟨h.keeps hk, fun _ hrun => hrun, fun row hrow hl => .inl (hk.leased row hrow hl)⟩
  | change change now =>
    have hk := change_keeps s.data change now
    exact ⟨h.keeps hk, fun _ hrun => hrun, fun row hrow hl => .inl (hk.leased row hrow hl)⟩
  | lease owner now =>
    obtain ⟨burned, hburn, hlease⟩ := lease_cases s.data owner now
    have hk : Keeps s.data burned := by
      rw [hburn]
      exact burned_keeps s.data now
    have hgen : burned.lastGeneration = s.data.lastGeneration + 1 := by
      rw [hburn]
      rfl
    rcases hlease with hnone | ⟨next, hnext, hatt, hsome⟩
    · have hstate : s.next rt extract evaluate (.lease owner now) = ⟨burned, s.issued⟩ := by
        simp only [Workers.next, hnone]
      rw [hstate]
      exact ⟨h.keeps hk, fun _ hrun => hrun, fun row hrow hl => .inl (hk.leased row hrow hl)⟩
    · have hstate : s.next rt extract evaluate (.lease owner now) =
          ⟨burned.updateJobs (fun row => row.jobId == next.jobId) fun row =>
              row.leasedBy burned owner now,
            (⟨next.jobId, next.pageId, next.pageVersion, burned.lastGeneration,
              burned.lastEligibility⟩, owner) :: s.issued⟩ := by
        simp only [Workers.next, hsome]
      rw [hstate]
      have hsound : Workers.Sound ⟨burned, s.issued⟩ := h.keeps hk
      have hfresh : ∀ run ∈ s.issued, run.1.runGeneration < burned.lastGeneration := by
        intro run hrun
        have hle := h.issued run hrun
        omega
      refine ⟨leased_sound hsound hnext hatt hfresh, fun _ hrun => mem_cons_of_mem _ hrun, ?_⟩
      intro row hrow hl
      obtain ⟨old, hold, rfl⟩ := mem_map.mp hrow
      split at hl
      · rename_i htaken
        rw [if_pos htaken]
        refine .inr ?_
        change s.data.lastGeneration < burned.lastGeneration
        omega
      · rename_i hkept
        rw [if_neg hkept]
        exact .inl (hk.leased old hold hl)

/-- The page's truth, the queue, and every row that carries a generation. -/
structure Untouched (d e : Derivation Score) : Prop where
  truth : e.truth = d.truth
  jobs : e.jobs = d.jobs
  attempts : e.attempts = d.attempts
  seals : e.seals = d.seals
  candidates : e.support.runCandidates = d.support.runCandidates

theorem Untouched.refl (d : Derivation Score) : Untouched d d :=
  ⟨rfl, rfl, rfl, rfl, rfl⟩

theorem holdsLease_of_not_holdsRun {run : LeasedRun} (h : ¬ d.holdsRun run.1 run.2) :
    d.holdsLease run.1 run.2 = false := by
  rw [Bool.eq_false_iff]
  intro hlease
  obtain ⟨row, hrow, hheld⟩ := any_eq_true.mp hlease
  rw [Job.isLease, Bool.and_eq_true] at hheld
  exact h (any_eq_true.mpr ⟨row, hrow, hheld.1⟩)

theorem endRun_untouched {where_ : Job → Bool} (h : d.jobs.any where_ = false)
    (status : JobStatus) (lastError : Option String) (now : Int) :
    Untouched d (endRun d where_ status lastError now).2 := by
  rw [any_eq_false] at h
  have hjobs : (d.jobs.map fun row =>
      if where_ row then row.ended status lastError now else row) = d.jobs := by
    conv_rhs => rw [← map_id d.jobs]
    exact map_congr_left fun row hrow => if_neg (h row hrow)
  exact ⟨rfl, hjobs, rfl, rfl, rfl⟩

theorem writeSupportEdge_runCandidates (db : Database Score) (call : SupportCall Score) :
    (writeSupportEdge rt db call).2.runCandidates = db.runCandidates := by
  unfold writeSupportEdge
  cases verifySupport rt db call with
  | error error => rfl
  | ok space =>
    dsimp only
    split
    · repeat' split
      all_goals rfl
    · split <;> rfl

variable (rt extract evaluate) in
/-- Whatever is done in the name of a run that holds no row is refused. -/
theorem act_untouched {run : LeasedRun} (h : ¬ d.holdsRun run.1 run.2)
    (act : RunAct Score) (now : Int) : Untouched d (d.act rt extract evaluate run act now) := by
  have hrun : d.holdsRun run.1 run.2 = false := Bool.eq_false_iff.mpr h
  have hlease := holdsLease_of_not_holdsRun h
  cases act with
  | derive =>
    change Untouched d (deriveLeasedPageClaims rt extract d run.1 run.2).2
    rw [deriveLeasedPageClaims, hlease]
    exact .refl d
  | record candidates =>
    change Untouched d (recordRunCandidateInventory d run.1 run.2 candidates now).2
    rw [recordRunCandidateInventory, hrun]
    exact .refl d
  | judge candidates misses =>
    change Untouched d (persistRunJudgments d run.1 run.2 candidates misses now).2
    rw [persistRunJudgments, hlease]
    exact .refl d
  | defer candidates =>
    change Untouched d (persistDeferredAttempts d run.1 run.2 candidates now).2
    rw [persistDeferredAttempts, hlease]
    exact .refl d
  | write call => exact ⟨rfl, rfl, rfl, rfl, writeSupportEdge_runCandidates d.support call⟩
  | finalize pageId pageVersion outcome =>
    change Untouched d
      (finalizePageSupport evaluate d pageId pageVersion run.1 run.2 outcome now).2
    rw [finalizePageSupport, hlease]
    split
    · exact .refl d
    · exact .refl d
  | finish => exact endRun_untouched hrun .done_ none now
  | release error => exact endRun_untouched hrun .pending (some error) now
  | park reason => exact endRun_untouched hlease .parked (some reason) now

theorem not_live_next (h : s.Sound) {run : LeasedRun}
    (hrun : run ∈ s.issued) (hover : ¬ s.Live run) (event : DerivationEvent Score) :
    ¬ (s.next rt extract evaluate event).Live run := by
  have hadv := next_advances rt extract evaluate h event
  intro hlive
  obtain ⟨row, hrow, hheld⟩ := any_eq_true.mp hlive
  have hfield := hheld
  simp only [Job.isRun, Bool.and_eq_true, beq_iff_eq] at hfield
  rcases hadv.leased row hrow hfield.1.2 with hold | hnew
  · exact hover (any_eq_true.mpr ⟨row, hold, hheld⟩)
  · have hle := h.issued run hrun
    have hgen : row.runGeneration = run.1.runGeneration := hfield.1.1.2
    omega

variable {event : DerivationEvent Score}

variable {t : Workers Score}

theorem DerivationStep.sound
    (h : s.Sound) (hstep : DerivationStep rt extract evaluate s event t) : t.Sound := by
  rw [hstep.2]
  exact (next_advances rt extract evaluate h event).sound

theorem Workers.Sound.of_start (hjobs : s.data.jobs = []) (hissued : s.issued = []) : s.Sound := by
  constructor
  · rw [hissued]
    intro run hrun
    cases hrun
  · rw [hissued]
    exact nodup_nil
  · rw [hjobs]
    exact nodup_nil
  · rw [hjobs]
    intro row hrow
    cases hrow

theorem Workers.Sound.one_live (h : s.Sound) {run run' : LeasedRun}
    (hrun : run ∈ s.issued) (hrun' : run' ∈ s.issued) (hlive : s.Live run)
    (hlive' : s.Live run') (hjob : run.1.jobId = run'.1.jobId) : run = run' := by
  obtain ⟨row, hrow, hheld⟩ := any_eq_true.mp hlive
  obtain ⟨row', hrow', hheld'⟩ := any_eq_true.mp hlive'
  simp only [Job.isRun, Bool.and_eq_true, beq_iff_eq] at hheld hheld'
  have hid : row.jobId = row'.jobId := by
    rw [hheld.1.1.1.1.1, hheld'.1.1.1.1.1, hjob]
  have hsame := eq_of_jobId h.ids hrow hrow' hid
  have hgen : run.1.runGeneration = run'.1.runGeneration := by
    rw [← hheld.1.1.2, ← hheld'.1.1.2, hsame]
  exact inj_on_of_nodup_map h.distinct hrun hrun' hgen

structure RunOver (run : LeasedRun) (s : Workers Score) : Prop where
  sound : s.Sound
  issued : run ∈ s.issued
  ended : ¬ s.Live run

theorem RunOver.step {run : LeasedRun} (h : RunOver run s)
    (hstep : DerivationStep rt extract evaluate s event t) : RunOver run t := by
  have hadv := next_advances rt extract evaluate h.sound event
  rw [hstep.2]
  exact ⟨hadv.sound, hadv.issued run h.issued, not_live_next h.sound h.issued h.ended event⟩

/-- In every reachable state no generation was given out twice, a job has at most one live
run, and no job has more attempts than the maximum; and a run that is no longer live never
becomes live again, and whatever is done for it afterwards leaves the truth of every page,
every job and every row that carries a generation as they were. -/
theorem derivation_run_fence {start s : Workers Score} {events : List (DerivationEvent Score)}
    (hjobs : start.data.jobs = []) (hissued : start.issued = [])
    (hrun : Run (DerivationStep rt extract evaluate) start events s) :
    (s.issued.map fun run => run.1.runGeneration).Nodup ∧
    (∀ run ∈ s.issued, ∀ run' ∈ s.issued, s.Live run → s.Live run' →
      run.1.jobId = run'.1.jobId → run = run') ∧ (∀ row ∈ s.data.jobs, row.attempts ≤ maxAttempts) ∧
    ∀ run ∈ s.issued, ¬ s.Live run → ∀ later t, Run (DerivationStep rt extract evaluate) s later t →
        ¬ t.Live run ∧
          ∀ act now, Untouched t.data (t.data.act rt extract evaluate run act now) := by
  have hsound : s.Sound :=
    hrun.invariant (fun _ _ _ h hstep => hstep.sound h) (.of_start hjobs hissued)
  refine ⟨hsound.distinct, fun run hmem run' hmem' => hsound.one_live hmem hmem',
    hsound.attempts, ?_⟩
  intro run hmem hover later t hlater
  have hend : RunOver run t :=
    hlater.invariant (fun _ _ _ h hstep => h.step hstep) ⟨hsound, hmem, hover⟩
  exact ⟨hend.ended, fun act now => act_untouched rt extract evaluate hend.ended act now⟩

def emptyWorkers : Workers Nat where
  data :=
    { support := ⟨fun _ => none, fun _ => none, fun _ => none, [], fun _ => none, fun _ => none,
        [], [], fun _ => none⟩
      pages := fun _ => none, history := fun _ _ => none, jobs := [], lastGeneration := 0
      judges := [], lastEligibility := 0, truth := fun _ => none, markers := [], attempts := []
      seals := [] }
  issued := []

/-- One page; a worker takes its job and goes silent, and another reclaims it. -/
def reclaim : List (DerivationEvent Nat) :=
  [.change (.putPage "page-1" ⟨1, "Birds fly.", "active", "concept"⟩) 0, .lease "worker" 10,
    .lease "worker" 700]

def reclaimed : Workers Nat :=
  reclaim.foldl (Workers.next sumRuntime (fun _ _ => []) fun _ _ _ => .supported) emptyWorkers

def silentRun : LeasedRun :=
  (⟨"page-1:1", "page-1", 1, 1, 0⟩, "worker")

theorem reclaimed_run :
    Run (DerivationStep sumRuntime (fun _ _ => []) fun _ _ _ => .supported) emptyWorkers reclaim
      reclaimed := by
  refine .cons ⟨?_, rfl⟩ (.cons ⟨?_, rfl⟩ (.cons ⟨?_, rfl⟩ (.refl _))) <;>
    exact nofun

/-- The worker that went silent has lost the job for good, although the other one bears the
same name. -/
theorem derivation_run_fence_reclaimed : reclaimed.issued.length = 2 ∧
      ∀ later t, Run (DerivationStep sumRuntime (fun _ _ => []) fun _ _ _ => .supported) reclaimed
          later t →
        ¬ t.Live silentRun ∧ ∀ act now, Untouched t.data
          (t.data.act sumRuntime (fun _ _ => []) (fun _ _ _ => .supported) silentRun act now) :=
  ⟨by decide +kernel,
    (derivation_run_fence rfl rfl reclaimed_run).2.2.2 silentRun (by decide +kernel)
      (by unfold Workers.Live; decide +kernel)⟩

end Wenlan.Claims
