import Wenlan.Truth.Fence
import Wenlan.Support.Transition

/-!
# Cutover ceremonies

Begin, commit and abort of the truth cutover and the release of a stranded fence, cut
into the statements they run: any number of processes share the two metadata rows, and
between two statements of one of them any other may move.  A process can also be lost
between two statements, killed or with its next statement failed; its lease is lost with
it.  The release runs at daemon startup, which excludes a running ceremony.
-/

namespace Wenlan.Truth.Ceremony

open Support.Transition
open Truth.Fence

/-! ## One process -/

structure CutoverLease where
  fence : CutoverFence
  deriving DecidableEq

/-- How a call ended. -/
inductive Outcome where
  | committed (generation : Int)
  | aborted
  | released (found : Bool)
  | failed (error : CutoverError)
  | lost
  deriving DecidableEq

/-- Where a process stands between two statements, with what it holds in its locals. -/
inductive Task where
  | idle
  | beginning (observed : CutoverFence)
  | holding (lease : CutoverLease)
  | committing (lease : CutoverLease) (generation : Int)
  | publishing (lease : CutoverLease) (generation : Int)
  | aborting (lease : CutoverLease)
  | releasing (observed : CutoverFence)
  | finished (outcome : Outcome)
  deriving DecidableEq

inductive Statement where
  | beginRead
  | beginSwap
  | commitRead (generation : Int)
  | commitGeneration
  | commitSwap
  | abortRead
  | abortSwap
  | releaseRead
  | releaseSwap
  | stop
  deriving DecidableEq

namespace Task

def lease? : Task → Option CutoverLease
  | .holding lease => some lease
  | .committing lease _ => some lease
  | .publishing lease _ => some lease
  | .aborting lease => some lease
  | _ => none

/-- The process is between the first statement of begin and the end of commit or abort. -/
def ceremony : Task → Bool
  | .beginning _ => true
  | task => task.lease?.isSome

def release : Task → Bool
  | .releasing _ => true
  | _ => false

def beginRead (db : Metadata) : Task :=
  match db.cutoverFence with
  | .error error => .finished (.failed error)
  | .ok observed =>
    if observed.phase ≠ .off then .finished (.failed (.cannotBegin observed))
    else .beginning observed

def beginSwap (db : Metadata) (observed : CutoverFence) : Metadata × Task :=
  let next := observed.next .preparing
  let swap := db.swapCutoverFence observed next
  (swap.1, if swap.2 then .holding { fence := next } else .finished (.failed .beginMoved))

def commitRead (db : Metadata) (lease : CutoverLease) (generation : Int) : Task :=
  match db.cutoverFence with
  | .error error => .finished (.failed error)
  | .ok observed =>
    if observed ≠ lease.fence then .finished (.failed (.cannotCommit lease.fence observed))
    else .committing lease generation

def commitSwap (db : Metadata) (lease : CutoverLease) (generation : Int) : Metadata × Task :=
  let swap := db.swapCutoverFence lease.fence (lease.fence.next .committed)
  (swap.1, .finished (if swap.2 then .committed generation else .failed .notReleased))

def abortRead (db : Metadata) (lease : CutoverLease) : Task :=
  match db.cutoverFence with
  | .error error => .finished (.failed error)
  | .ok observed =>
    if observed ≠ lease.fence ∨ observed.phase ≠ .preparing then
      .finished (.failed (.cannotAbort lease.fence observed))
    else .aborting lease

def abortSwap (db : Metadata) (lease : CutoverLease) : Metadata × Task :=
  let swap := db.swapCutoverFence lease.fence (lease.fence.next .off)
  (swap.1, .finished (if swap.2 then .aborted else .failed .abortMoved))

def releaseRead (db : Metadata) : Task :=
  match db.cutoverFence with
  | .error error => .finished (.failed error)
  | .ok observed =>
    if observed.phase ≠ .preparing then .finished (.released false) else .releasing observed

def releaseSwap (db : Metadata) (observed : CutoverFence) : Metadata × Task :=
  let swap := db.swapCutoverFence observed (observed.next .off)
  (swap.1, .finished (.released swap.2))

/-- One statement of one process.  A finished process runs none. -/
def exec (db : Metadata) : Task → Statement → Option (Metadata × Task)
  | .idle, .beginRead => some (db, beginRead db)
  | .beginning observed, .beginSwap => some (beginSwap db observed)
  | .holding lease, .commitRead generation => some (db, commitRead db lease generation)
  | .committing lease generation, .commitGeneration =>
    some (db.setTruthCutoverGeneration generation, .publishing lease generation)
  | .publishing lease generation, .commitSwap => some (commitSwap db lease generation)
  | .holding lease, .abortRead => some (db, abortRead db lease)
  | .aborting lease, .abortSwap => some (abortSwap db lease)
  | .idle, .releaseRead => some (db, releaseRead db)
  | .releasing observed, .releaseSwap => some (releaseSwap db observed)
  | .finished _, .stop => none
  | _, .stop => some (db, .finished .lost)
  | _, _ => none

inductive Effect (db : Metadata) : Task → Statement → Metadata → Task → Prop
  | begun (observed : CutoverFence) (hread : db.cutoverFence = .ok observed)
      (hoff : observed.phase = .off) :
      Effect db .idle .beginRead db (.beginning observed)
  | minted (observed : CutoverFence) (hread : db.cutoverFence = .ok observed) :
      Effect db (.beginning observed) .beginSwap
        { db with truthCutoverFence := some (observed.next .preparing).encode }
        (.holding { fence := observed.next .preparing })
  | checked (lease : CutoverLease) (generation : Int) :
      Effect db (.holding lease) (.commitRead generation) db (.committing lease generation)
  | wrote (lease : CutoverLease) (generation : Int) :
      Effect db (.committing lease generation) .commitGeneration
        (db.setTruthCutoverGeneration generation) (.publishing lease generation)
  | committed (lease : CutoverLease) (generation : Int)
      (hread : db.cutoverFence = .ok lease.fence) :
      Effect db (.publishing lease generation) .commitSwap
        { db with truthCutoverFence := some (lease.fence.next .committed).encode }
        (.finished (.committed generation))
  | withdrawn (lease : CutoverLease) : Effect db (.holding lease) .abortRead db (.aborting lease)
  | aborted (lease : CutoverLease) (hread : db.cutoverFence = .ok lease.fence) :
      Effect db (.aborting lease) .abortSwap
        { db with truthCutoverFence := some (lease.fence.next .off).encode }
        (.finished .aborted)
  | stranded (observed : CutoverFence) (hread : db.cutoverFence = .ok observed)
      (hpreparing : observed.phase = .preparing) :
      Effect db .idle .releaseRead db (.releasing observed)
  | freed (observed : CutoverFence) (hread : db.cutoverFence = .ok observed) :
      Effect db (.releasing observed) .releaseSwap
        { db with truthCutoverFence := some (observed.next .off).encode }
        (.finished (.released true))
  | ended (task : Task) (statement : Statement) (outcome : Outcome)
      (hcommitted : ∀ generation, outcome ≠ .committed generation)
      (hlive : ∀ outcome', task ≠ .finished outcome')
      (hpublishing : ∀ lease generation, task = .publishing lease generation →
        db.truthCutoverFence = some lease.fence.encode → outcome = .lost) :
      Effect db task statement db (.finished outcome)

theorem exec_effect {db db' : Metadata} {task task' : Task} {statement : Statement}
    (h : exec db task statement = some (db', task')) : Effect db task statement db' task' := by
  cases statement with
  | beginRead =>
    cases task <;> simp [exec] at h
    obtain ⟨rfl, rfl⟩ := h
    rw [beginRead]
    split
    · exact .ended _ _ _ (by simp) (by simp) (by simp)
    · split
      · exact .ended _ _ _ (by simp) (by simp) (by simp)
      · rename_i hread hphase
        exact .begun _ hread (by simpa using hphase)
  | beginSwap =>
    cases task <;> simp [exec] at h
    rename_i observed
    rw [beginSwap] at h
    rcases db.swapCutoverFence_cases observed (observed.next .preparing) with
      ⟨hread, hswap⟩ | ⟨-, hswap⟩
    · simp only [hswap, if_true, Prod.mk.injEq] at h
      obtain ⟨rfl, rfl⟩ := h
      exact .minted observed hread
    · simp only [hswap, Bool.false_eq_true, if_false, Prod.mk.injEq] at h
      obtain ⟨rfl, rfl⟩ := h
      exact .ended _ _ _ (by simp) (by simp) (by simp)
  | commitRead generation =>
    cases task <;> simp [exec] at h
    obtain ⟨rfl, rfl⟩ := h
    rw [commitRead]
    split
    · exact .ended _ _ _ (by simp) (by simp) (by simp)
    · split
      · exact .ended _ _ _ (by simp) (by simp) (by simp)
      · exact .checked _ _
  | commitGeneration =>
    cases task <;> simp [exec] at h
    obtain ⟨rfl, rfl⟩ := h
    exact .wrote _ _
  | commitSwap =>
    cases task <;> simp [exec] at h
    rename_i lease generation
    rw [commitSwap] at h
    rcases db.swapCutoverFence_cases lease.fence (lease.fence.next .committed) with
      ⟨hread, hswap⟩ | ⟨hrow, hswap⟩
    · simp only [hswap, if_true, Prod.mk.injEq] at h
      obtain ⟨rfl, rfl⟩ := h
      exact .committed lease generation hread
    · simp only [hswap, Bool.false_eq_true, if_false, Prod.mk.injEq] at h
      obtain ⟨rfl, rfl⟩ := h
      refine .ended _ _ _ (by simp) (by simp) ?_
      rintro _ _ ⟨⟩ hrow'
      exact absurd hrow' hrow
  | abortRead =>
    cases task <;> simp [exec] at h
    obtain ⟨rfl, rfl⟩ := h
    rw [abortRead]
    split
    · exact .ended _ _ _ (by simp) (by simp) (by simp)
    · split
      · exact .ended _ _ _ (by simp) (by simp) (by simp)
      · exact .withdrawn _
  | abortSwap =>
    cases task <;> simp [exec] at h
    rename_i lease
    rw [abortSwap] at h
    rcases db.swapCutoverFence_cases lease.fence (lease.fence.next .off) with
      ⟨hread, hswap⟩ | ⟨-, hswap⟩
    · simp only [hswap, if_true, Prod.mk.injEq] at h
      obtain ⟨rfl, rfl⟩ := h
      exact .aborted lease hread
    · simp only [hswap, Bool.false_eq_true, if_false, Prod.mk.injEq] at h
      obtain ⟨rfl, rfl⟩ := h
      exact .ended _ _ _ (by simp) (by simp) (by simp)
  | releaseRead =>
    cases task <;> simp [exec] at h
    obtain ⟨rfl, rfl⟩ := h
    rw [releaseRead]
    split
    · exact .ended _ _ _ (by simp) (by simp) (by simp)
    · split
      · exact .ended _ _ _ (by simp) (by simp) (by simp)
      · rename_i hread hphase
        exact .stranded _ hread (by simpa using hphase)
  | releaseSwap =>
    cases task <;> simp [exec] at h
    rename_i observed
    rw [releaseSwap] at h
    rcases db.swapCutoverFence_cases observed (observed.next .off) with
      ⟨hread, hswap⟩ | ⟨-, hswap⟩
    · simp only [hswap, Prod.mk.injEq] at h
      obtain ⟨rfl, rfl⟩ := h
      exact .freed observed hread
    · simp only [hswap, Prod.mk.injEq] at h
      obtain ⟨rfl, rfl⟩ := h
      exact .ended _ _ _ (by simp) (by simp) (by simp)
  | stop =>
    cases task <;> simp [exec] at h <;>
      obtain ⟨rfl, rfl⟩ := h <;> exact .ended _ _ _ (by simp) (by simp) (by simp)

end Task

/-- The shared rows and every process.  `writes` and `commits` are the history: who wrote
the generation under which lease, and whose swap to `committed` took effect. -/
structure System (P : Type*) where
  db : Metadata
  task : P → Task
  writes : List (P × CutoverLease × Int)
  commits : List (P × CutoverLease × Int)

section System

variable {P : Type*} [DecidableEq P]

namespace System

def written (p : P) (before after : Task) : List (P × CutoverLease × Int) :=
  match before, after with
  | .committing lease generation, .publishing _ _ => [(p, lease, generation)]
  | _, _ => []

def committedBy (p : P) (before after : Task) : List (P × CutoverLease × Int) :=
  match before, after with
  | .publishing lease generation, .finished (.committed _) => [(p, lease, generation)]
  | _, _ => []

/-- `action.1` runs the statement `action.2`. -/
def next (s : System P) (action : P × Statement) : Option (System P) :=
  (Task.exec s.db (s.task action.1) action.2).map fun result =>
    { db := result.1
      task := Function.update s.task action.1 result.2
      writes := s.writes ++ written action.1 (s.task action.1) result.2
      commits := s.commits ++ committedBy action.1 (s.task action.1) result.2 }

/-- No process has run a statement yet.  The rows are whatever is in the database. -/
structure Quiet (s : System P) : Prop where
  idle : ∀ p, s.task p = .idle
  writes : s.writes = []
  commits : s.commits = []

end System

def Step (s : System P) (action : P × Statement) (t : System P) : Prop :=
  s.next action = some t

/-- The startup release runs only while no ceremony does: it starts with none under way, and
none starts before it is over. -/
def Supervised (s : System P) (action : P × Statement) : Prop :=
  (action.2 = .releaseRead → ∀ q, (s.task q).ceremony = false) ∧
    (action.2 = .beginRead → ∀ q, (s.task q).release = false)

variable {action : P × Statement}

theorem step_effect {s t : System P} (h : Step s action t) :
    ∃ db after, Task.Effect s.db (s.task action.1) action.2 db after ∧
      t = { db := db
            task := Function.update s.task action.1 after
            writes := s.writes ++ System.written action.1 (s.task action.1) after
            commits := s.commits ++ System.committedBy action.1 (s.task action.1) after } := by
  obtain ⟨⟨db, after⟩, hexec, rfl⟩ := Option.map_eq_some_iff.mp h
  exact ⟨db, after, Task.exec_effect hexec, rfl⟩

/-! ## The invariant -/

/-- What holds of the fence, the leases and the history in every reachable state. -/
structure Inv (s : System P) : Prop where
  apart : ∀ p q, (s.task p).ceremony = true → (s.task q).release = false
  beginning : ∀ p fence, s.task p = .beginning fence → fence.phase = .off
  releasing : ∀ p fence, s.task p = .releasing fence → fence.phase = .preparing
  lease : ∀ p lease, (s.task p).lease? = some lease →
    lease.fence.phase = .preparing ∧ s.db.truthCutoverFence = some lease.fence.encode
  sole : ∀ p q, (s.task p).lease?.isSome = true → (s.task q).lease?.isSome = true → p = q
  published : ∀ p lease generation, s.task p = .publishing lease generation →
    s.db.truthCutoverGenerationValue = generation
  done : ∀ p generation, s.task p = .finished (.committed generation) →
    (∃ fence, s.db.cutoverFence = .ok fence ∧ fence.phase = .committed) ∧
      s.db.truthCutoverGenerationValue = generation
  writes : ∀ p lease generation, (p, lease, generation) ∈ s.writes →
    s.task p = .publishing lease generation ∨ s.task p = .finished (.committed generation) ∨
      s.task p = .finished .lost
  commits : s.commits.length ≤ 1 ∧
    (s.commits ≠ [] → ∃ fence, s.db.cutoverFence = .ok fence ∧ fence.phase = .committed)

omit [DecidableEq P] in
theorem System.Quiet.inv {s : System P} (h : s.Quiet) : Inv s := by
  constructor <;> simp [h.idle, h.writes, h.commits, Task.lease?, Task.ceremony, Task.release]

section Step

variable {s : System P} {p : P} {statement : Statement} {db : Metadata} {after : Task}

omit [DecidableEq P] in
theorem Inv.fence_of_lease (hinv : Inv s)
    (heff : Task.Effect s.db (s.task p) statement db after) {q : P} (hne : q ≠ p)
    {lease : CutoverLease} (hlease : (s.task q).lease? = some lease) :
    db.truthCutoverFence = s.db.truthCutoverFence := by
  obtain ⟨hphase, hrow⟩ := hinv.lease q lease hlease
  have hread := Metadata.cutoverFence_of_encode hrow
  have hheld : (s.task q).lease?.isSome := by simp [hlease]
  have hcer : (s.task q).ceremony := by
    cases htask : s.task q <;> simp_all [Task.lease?, Task.ceremony]
  generalize htask : s.task p = before at heff
  cases heff with
  | minted observed hread' =>
    -- begin saw the fence off, and the lease says it is preparing
    have hoff := hinv.beginning p observed htask
    rw [hread, Except.ok.injEq] at hread'
    rw [hread', hoff] at hphase
    simp at hphase
  | committed =>
    exact absurd (hinv.sole q p hheld (by simp [htask, Task.lease?])) hne
  | aborted =>
    exact absurd (hinv.sole q p hheld (by simp [htask, Task.lease?])) hne
  | freed =>
    have hrel := hinv.apart q p hcer
    simp [htask, Task.release] at hrel
  | begun | checked | wrote | withdrawn | stranded | ended => rfl

omit [DecidableEq P] in
theorem Inv.fence_of_committed (hinv : Inv s)
    (heff : Task.Effect s.db (s.task p) statement db after) {fence : CutoverFence}
    (hfence : s.db.cutoverFence = .ok fence) (hphase : fence.phase = .committed) :
    db.truthCutoverFence = s.db.truthCutoverFence := by
  have hlease : ∀ lease, (s.task p).lease? = some lease → False := by
    intro lease hlease
    obtain ⟨hpreparing, hrow⟩ := hinv.lease p lease hlease
    have hread := Metadata.cutoverFence_of_encode hrow
    rw [hfence, Except.ok.injEq] at hread
    rw [← hread, hphase] at hpreparing
    simp at hpreparing
  generalize htask : s.task p = before at heff
  cases heff with
  | minted observed hread =>
    have hoff := hinv.beginning p observed htask
    rw [hfence, Except.ok.injEq] at hread
    rw [← hread, hphase] at hoff
    simp at hoff
  | freed observed hread =>
    have hpreparing := hinv.releasing p observed htask
    rw [hfence, Except.ok.injEq] at hread
    rw [← hread, hphase] at hpreparing
    simp at hpreparing
  | committed lease => exact (hlease lease (by simp [htask, Task.lease?])).elim
  | aborted lease => exact (hlease lease (by simp [htask, Task.lease?])).elim
  | begun | checked | wrote | withdrawn | stranded | ended => rfl

omit [DecidableEq P] in
theorem Task.Effect.generation (heff : Task.Effect s.db (s.task p) statement db after) :
    db.truthCutoverGeneration = s.db.truthCutoverGeneration ∨
      ∃ lease generation, s.task p = .committing lease generation ∧
        statement = .commitGeneration ∧ db = s.db.setTruthCutoverGeneration generation ∧
        after = .publishing lease generation := by
  generalize htask : s.task p = before at heff
  cases heff with
  | wrote lease generation => exact Or.inr ⟨lease, generation, rfl, rfl, rfl, rfl⟩
  | begun | minted | checked | committed | withdrawn | aborted | stranded | freed | ended =>
    exact Or.inl rfl

/-- The system after a statement of `p`. -/
def System.moved (s : System P) (p : P) (db : Metadata) (after : Task) : System P :=
  { db := db
    task := Function.update s.task p after
    writes := s.writes ++ System.written p (s.task p) after
    commits := s.commits ++ System.committedBy p (s.task p) after }

theorem System.moved_task_self : (s.moved p db after).task p = after := by
  simp [System.moved]

theorem System.moved_task_of_ne {q : P} (h : q ≠ p) : (s.moved p db after).task q = s.task q := by
  simp [System.moved, h]

theorem Inv.apart_moved (hinv : Inv s) (hsup : Supervised s (p, statement))
    (heff : Task.Effect s.db (s.task p) statement db after) (q r : P)
    (hq : ((s.moved p db after).task q).ceremony) :
    ((s.moved p db after).task r).release = false := by
  have hapart := hinv.apart
  generalize htask : s.task p = before at heff
  by_cases hqp : q = p <;> by_cases hrp : r = p
  · subst hqp hrp
    rw [System.moved_task_self] at hq ⊢
    cases after <;> simp_all [Task.ceremony, Task.release, Task.lease?]
  · subst hqp
    rw [System.moved_task_self] at hq
    rw [System.moved_task_of_ne hrp]
    cases heff <;> grind [Task.ceremony, Task.release, Task.lease?, Supervised]
  · subst hrp
    rw [System.moved_task_self]
    rw [System.moved_task_of_ne hqp] at hq
    cases heff <;> grind [Task.ceremony, Task.release, Task.lease?, Supervised]
  · rw [System.moved_task_of_ne hqp] at hq
    rw [System.moved_task_of_ne hrp]
    exact hapart q r hq

section

variable (hinv : Inv s) (heff : Task.Effect s.db (s.task p) statement db after)
include hinv heff

theorem Inv.lease_moved (q : P) (lease : CutoverLease)
    (hlease : ((s.moved p db after).task q).lease? = some lease) :
    lease.fence.phase = .preparing ∧ db.truthCutoverFence = some lease.fence.encode := by
  by_cases hq : q = p
  · subst hq
    rw [System.moved_task_self] at hlease
    have hheld := hinv.lease q
    generalize s.task q = before at heff hheld
    cases heff <;> grind [Task.lease?, CutoverFence.next_phase, Metadata.setTruthCutoverGeneration]
  · rw [System.moved_task_of_ne hq] at hlease
    rw [hinv.fence_of_lease heff hq hlease]
    exact hinv.lease q lease hlease

theorem Inv.sole_moved (q r : P) (hq : ((s.moved p db after).task q).lease?.isSome)
    (hr : ((s.moved p db after).task r).lease?.isSome) : q = r := by
  have honly : ∀ q ≠ p, (s.task q).lease?.isSome → after.lease?.isSome = false := by
    intro q hne hheld
    obtain ⟨lease, hlease⟩ := Option.isSome_iff_exists.mp hheld
    have hread := Metadata.cutoverFence_of_encode (hinv.lease q lease hlease).2
    have hphase := (hinv.lease q lease hlease).1
    have hp : (s.task p).lease?.isSome = false :=
      Bool.eq_false_of_not_eq_true fun hp => hne (hinv.sole q p hheld hp)
    have hoff := hinv.beginning p
    generalize s.task p = before at heff hp hoff
    cases heff <;> grind [Task.lease?]
  by_cases hqp : q = p <;> by_cases hrp : r = p
  · rw [hqp, hrp]
  · rw [System.moved_task_of_ne hrp] at hr
    rw [hqp, System.moved_task_self, honly r hrp hr] at hq
    simp at hq
  · rw [System.moved_task_of_ne hqp] at hq
    rw [hrp, System.moved_task_self, honly q hqp hq] at hr
    simp at hr
  · rw [System.moved_task_of_ne hqp] at hq
    rw [System.moved_task_of_ne hrp] at hr
    exact hinv.sole q r hq hr

theorem Inv.published_moved (q : P) (lease : CutoverLease)
    (generation : Int) (hq : (s.moved p db after).task q = .publishing lease generation) :
    db.truthCutoverGenerationValue = generation := by
  by_cases hqp : q = p
  · subst hqp
    rw [System.moved_task_self] at hq
    subst hq
    generalize s.task q = before at heff
    cases heff with
    | wrote => exact Metadata.setTruthCutoverGeneration_value _ _
  · rw [System.moved_task_of_ne hqp] at hq
    rcases heff.generation with hsame | ⟨lease', generation', hp, -⟩
    · rw [Metadata.truthCutoverGenerationValue, hsame]
      exact hinv.published q lease generation hq
    · -- the writer holds the only lease
      exact absurd (hinv.sole q p (by simp [hq, Task.lease?]) (by simp [hp, Task.lease?])) hqp

theorem Inv.done_moved (q : P) (generation : Int)
    (hq : (s.moved p db after).task q = .finished (.committed generation)) :
    (∃ fence, db.cutoverFence = .ok fence ∧ fence.phase = .committed) ∧
      db.truthCutoverGenerationValue = generation := by
  by_cases hqp : q = p
  · subst hqp
    rw [System.moved_task_self] at hq
    subst hq
    have hpubl := hinv.published q
    generalize s.task q = before at heff hpubl
    cases heff with
    | committed lease _ hread =>
      exact ⟨⟨_, Metadata.cutoverFence_of_encode rfl, rfl⟩, hpubl lease generation rfl⟩
    | ended _ _ _ hcommitted => exact absurd rfl (hcommitted generation)
  · rw [System.moved_task_of_ne hqp] at hq
    obtain ⟨⟨fence, hfence, hphase⟩, hvalue⟩ := hinv.done q generation hq
    have hkept := hinv.fence_of_committed heff hfence hphase
    constructor
    · exact ⟨fence, by rw [Metadata.cutoverFence_congr hkept, hfence], hphase⟩
    · rcases heff.generation with hsame | ⟨lease, generation', hp, -⟩
      · rw [Metadata.truthCutoverGenerationValue, hsame]
        exact hvalue
      · -- no lease is left once the fence is committed
        obtain ⟨hpreparing, hrow⟩ := hinv.lease p lease (by simp [hp, Task.lease?])
        rw [Metadata.cutoverFence_of_encode hrow, Except.ok.injEq] at hfence
        rw [hfence, hphase] at hpreparing
        simp at hpreparing

theorem Inv.writes_moved (q : P) (lease : CutoverLease)
    (generation : Int) (hq : (q, lease, generation) ∈ (s.moved p db after).writes) :
    (s.moved p db after).task q = .publishing lease generation ∨
      (s.moved p db after).task q = .finished (.committed generation) ∨
      (s.moved p db after).task q = .finished .lost := by
  rcases List.mem_append.mp hq with hold | hnew
  · have hbef := hinv.writes q lease generation hold
    by_cases hqp : q = p
    · subst hqp
      rw [System.moved_task_self]
      have hheld := hinv.lease q lease
      generalize s.task q = before at heff hbef hheld
      cases heff <;> grind [Task.lease?]
    · rw [System.moved_task_of_ne hqp]
      exact hbef
  · have hqp : q = p ∧ after = .publishing lease generation := by
      generalize s.task p = before at heff hnew
      cases heff <;> simp_all [System.written]
    rw [hqp.1, System.moved_task_self]
    exact Or.inl hqp.2

end

omit [DecidableEq P] in
theorem System.committedBy_ne_nil {before : Task} (h : System.committedBy p before after ≠ []) :
    ∃ lease generation, before = .publishing lease generation ∧
      System.committedBy p before after = [(p, lease, generation)] ∧
      ∃ generation', after = .finished (.committed generation') := by
  unfold System.committedBy at h ⊢
  split at h
  · rename_i lease generation generation'
    exact ⟨lease, generation, rfl, rfl, generation', rfl⟩
  · exact absurd rfl h

theorem Inv.commits_moved (hinv : Inv s)
    (heff : Task.Effect s.db (s.task p) statement db after) :
    (s.moved p db after).commits.length ≤ 1 ∧ ((s.moved p db after).commits ≠ [] →
        ∃ fence, db.cutoverFence = .ok fence ∧ fence.phase = .committed) := by
  obtain ⟨hlen, hcommitted⟩ := hinv.commits
  by_cases hnew : System.committedBy p (s.task p) after = []
  · have hcom : (s.moved p db after).commits = s.commits := by simp [System.moved, hnew]
    rw [hcom]
    refine ⟨hlen, fun hne => ?_⟩
    obtain ⟨fence, hfence, hphase⟩ := hcommitted hne
    have hkept := hinv.fence_of_committed heff hfence hphase
    exact ⟨fence, by rw [Metadata.cutoverFence_congr hkept, hfence], hphase⟩
  · obtain ⟨lease, generation, hbef, hone, generation', hafter⟩ := System.committedBy_ne_nil hnew
    -- a commit spends a lease, and no lease is left after an earlier commit
    have hnone : s.commits = [] := by
      by_contra hne
      obtain ⟨fence, hfence, hphase⟩ := hcommitted hne
      obtain ⟨hpreparing, hrow⟩ := hinv.lease p lease (by simp [hbef, Task.lease?])
      rw [Metadata.cutoverFence_of_encode hrow, Except.ok.injEq] at hfence
      rw [hfence, hphase] at hpreparing
      simp at hpreparing
    have hcom : (s.moved p db after).commits = [(p, lease, generation)] := by
      simp [System.moved, hone, hnone]
    rw [hcom]
    refine ⟨le_rfl, fun _ => ?_⟩
    rw [hbef, hafter] at heff
    cases heff with
    | committed => exact ⟨_, Metadata.cutoverFence_of_encode rfl, rfl⟩
    | ended _ _ _ hcommitted => exact absurd rfl (hcommitted generation')

theorem Inv.moved (hinv : Inv s) (hsup : Supervised s (p, statement))
    (heff : Task.Effect s.db (s.task p) statement db after) : Inv (s.moved p db after) where
  apart := hinv.apart_moved hsup heff
  beginning := by
    intro q fence hq
    by_cases hqp : q = p
    · rw [hqp, System.moved_task_self] at hq
      generalize s.task p = before at heff
      cases heff <;> simp_all
    · rw [System.moved_task_of_ne hqp] at hq
      exact hinv.beginning q fence hq
  releasing := by
    intro q fence hq
    by_cases hqp : q = p
    · rw [hqp, System.moved_task_self] at hq
      generalize s.task p = before at heff
      cases heff <;> simp_all
    · rw [System.moved_task_of_ne hqp] at hq
      exact hinv.releasing q fence hq
  lease := hinv.lease_moved heff
  sole := hinv.sole_moved heff
  published := hinv.published_moved heff
  done := hinv.done_moved heff
  writes := hinv.writes_moved heff
  commits := hinv.commits_moved heff

end Step

theorem Inv.of_run {start s : System P} {labels : List (P × Statement)} (hstart : start.Quiet)
    (h : Run (Restrict Step Supervised) start labels s) : Inv s := by
  refine h.invariant ?_ hstart.inv
  rintro s ⟨p, statement⟩ t hinv ⟨hsup, hstep⟩
  obtain ⟨db, after, heff, rfl⟩ := step_effect hstep
  exact hinv.moved hsup heff

structure StepSafe (s : System P) (action : P × Statement) (t : System P) : Prop where
  /-- A transition of the fence raises its epoch. -/
  epoch : t.db.truthCutoverFence ≠ s.db.truthCutoverFence →
    ∃ before after, s.db.cutoverFence = .ok before ∧ t.db.cutoverFence = .ok after ∧
      before.epoch < after.epoch
  terminal : ∀ fence, s.db.cutoverFence = .ok fence → fence.phase = .committed →
    t.db.cutoverFence = .ok fence
  /-- The generation is written by the holder of the fence's lease. -/
  generation : t.db.truthCutoverGeneration ≠ s.db.truthCutoverGeneration →
    ∃ lease generation, s.task action.1 = .committing lease generation ∧
      s.db.cutoverFence = .ok lease.fence ∧ t.task action.1 = .publishing lease generation ∧
      t.db.truthCutoverGenerationValue = generation

/-- The next statement of whoever wrote the generation commits it: nobody has touched
either row since. -/
def PublisherCommits (s : System P) : Prop :=
  ∀ p lease generation, s.task p = .publishing lease generation →
    s.db.cutoverFence = .ok lease.fence ∧ s.db.truthCutoverGenerationValue = generation ∧
      ∃ t, Step s (p, .commitSwap) t ∧ t.task p = .finished (.committed generation) ∧
        t.db.cutoverFence = .ok (lease.fence.next .committed) ∧
        t.db.truthCutoverGenerationValue = generation

def WriterCommits (s : System P) : Prop :=
  ∀ p lease generation, (p, lease, generation) ∈ s.writes →
    s.task p = .publishing lease generation ∨ s.task p = .finished (.committed generation)

def WriterCommitsUnlessLost (s : System P) : Prop :=
  ∀ p lease generation, (p, lease, generation) ∈ s.writes →
    s.task p = .publishing lease generation ∨ s.task p = .finished (.committed generation) ∨
      s.task p = .finished .lost

def SuccessRecorded (s : System P) : Prop :=
  ∀ p generation, s.task p = .finished (.committed generation) →
    s.db.truthCutoverGenerationValue = generation

theorem Inv.stepSafe {s t : System P} (hinv : Inv s)
    (h : Step s action t) : StepSafe s action t := by
  obtain ⟨p, statement⟩ := action
  obtain ⟨db, after, heff, rfl⟩ := step_effect h
  constructor
  · intro hne
    generalize s.task p = before at heff
    cases heff with
    | minted observed hread | freed observed hread =>
      exact ⟨observed, _, hread, Metadata.cutoverFence_of_encode rfl, by simp⟩
    | committed lease _ hread | aborted lease hread =>
      exact ⟨lease.fence, _, hread, Metadata.cutoverFence_of_encode rfl, by simp⟩
    | begun | checked | wrote | withdrawn | stranded | ended => exact absurd rfl hne
  · intro fence hfence hphase
    rw [Metadata.cutoverFence_congr (hinv.fence_of_committed heff hfence hphase), hfence]
  · intro hne
    rcases heff.generation with hsame | ⟨lease, generation, htask, rfl, rfl, rfl⟩
    · exact absurd hsame hne
    · obtain ⟨-, hrow⟩ := hinv.lease p lease (by simp [htask, Task.lease?])
      exact ⟨lease, generation, htask, Metadata.cutoverFence_of_encode hrow, by simp, by simp⟩

theorem Inv.publisherCommits {s : System P} (hinv : Inv s) : PublisherCommits s := by
  intro p lease generation htask
  obtain ⟨-, hrow⟩ := hinv.lease p lease (by simp [htask, Task.lease?])
  have hvalue := hinv.published p lease generation htask
  refine ⟨Metadata.cutoverFence_of_encode hrow, hvalue, ?_⟩
  have hswap : Task.commitSwap s.db lease generation =
      ({ s.db with truthCutoverFence := some (lease.fence.next .committed).encode },
        .finished (.committed generation)) := by
    rcases s.db.swapCutoverFence_cases lease.fence (lease.fence.next .committed) with
      ⟨-, hswap⟩ | ⟨hne, -⟩
    · simp [Task.commitSwap, hswap]
    · exact absurd hrow hne
  refine ⟨s.moved p { s.db with truthCutoverFence := some (lease.fence.next .committed).encode }
    (.finished (.committed generation)), ?_, System.moved_task_self,
    Metadata.cutoverFence_of_encode rfl, hvalue⟩
  rw [Step, System.next, htask, Task.exec, hswap, System.moved, htask]
  rfl

end System

/-- A database no ceremony has touched, and two processes. -/
def fresh : System (Fin 2) :=
  { db := { truthCutoverFence := none, truthCutoverGeneration := none }
    task := fun _ => .idle
    writes := []
    commits := [] }

theorem fresh_quiet : fresh.Quiet :=
  ⟨fun _ => rfl, rfl, rfl⟩

instance (s : System (Fin 2)) (action : Fin 2 × Statement) : Decidable (Supervised s action) :=
  inferInstanceAs (Decidable ((action.2 = .releaseRead → ∀ q, (s.task q).ceremony = false) ∧
    (action.2 = .beginRead → ∀ q, (s.task q).release = false)))

def supervisedNext (s : System (Fin 2)) (action : Fin 2 × Statement) : Option (System (Fin 2)) :=
  if Supervised s action then s.next action else none

theorem restrict_of_supervisedNext (s : System (Fin 2)) (action : Fin 2 × Statement)
    (t : System (Fin 2)) (h : supervisedNext s action = some t) :
    Restrict Step Supervised s action t := by
  rw [supervisedNext, Option.ite_none_right_eq_some] at h
  exact h

section Protocol

variable {P : Type*} [DecidableEq P]

/-- The fence protocol: every transition raises the epoch, `committed` is terminal, at most
one lease commits, the generation is written only by the holder of the current lease, whose
next statement then commits it (so nothing but the loss of that process keeps it from
committing), and a commit that reports success has its own generation on record. -/
theorem cutover_fence_protocol {start s : System P} {labels : List (P × Statement)}
    (hstart : start.Quiet) (h : Run (Restrict Step Supervised) start labels s) :
    (∀ action t, Restrict Step Supervised s action t → StepSafe s action t) ∧
      s.commits.length ≤ 1 ∧ PublisherCommits s ∧ WriterCommitsUnlessLost s ∧
      SuccessRecorded s := by
  have hinv := Inv.of_run hstart h
  refine ⟨fun action t hstep => hinv.stepSafe hstep.2, hinv.commits.1, hinv.publisherCommits,
    hinv.writes, fun p generation htask => (hinv.done p generation htask).2⟩

end Protocol

theorem cutover_fence_protocol_commits :
    ∃ s : System (Fin 2), s.task 0 = .finished (.committed 7) ∧ s.commits.length ≤ 1 ∧
      SuccessRecorded s := by
  have hcommi : ([(0, .beginRead), (0, .beginSwap), (0, .commitRead 7), (0, .commitGeneration),
      (0, .commitSwap)].foldlM supervisedNext fresh).any
      (fun s => s.task 0 = .finished (.committed 7)) = true := by decide +kernel
  obtain ⟨s, hs, htask⟩ := Run.of_foldlM_any restrict_of_supervisedNext hcommi
  have hsafe := cutover_fence_protocol fresh_quiet hs
  exact ⟨s, htask, hsafe.2.1, hsafe.2.2.2.2⟩

/-- A process that is lost right after it wrote the generation never commits it, and the
startup release then turns the fence off around the generation it left. -/
theorem lost_writer_never_commits :
    ¬ ∀ (start s : System (Fin 2)) (labels : List (Fin 2 × Statement)), start.Quiet →
      Run (Restrict Step Supervised) start labels s → WriterCommits s := by
  intro hall
  have hrun : ([(0, .beginRead), (0, .beginSwap), (0, .commitRead 7), (0, .commitGeneration),
      (0, .stop), (1, .releaseRead), (1, .releaseSwap)].foldlM supervisedNext fresh).any
      (fun s => s.task 0 = .finished .lost ∧
        (0, { fence := { epoch := 1, phase := .preparing } }, 7) ∈ s.writes) = true := by
    decide +kernel
  obtain ⟨s, hs, htask, hwrite⟩ := Run.of_foldlM_any restrict_of_supervisedNext hrun
  rcases hall fresh s _ fresh_quiet hs 0 _ 7 hwrite with hcon | hcon
  · simp [htask] at hcon
  · simp [htask] at hcon

end Wenlan.Truth.Ceremony
