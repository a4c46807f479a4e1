import Mathlib.Tactic.Cases
import Wenlan.Editor.PageAutosave

/-!
# Steps of the autosave

What the editor waits for, what it knows of its operations and when it wakes up, after every
step it can take.
-/

namespace Wenlan.Editor

open Support.Transition PageAutosave

variable {s s' : PageAutosave} {session : Nat} {unresolved : List Nat}

def Drain.writes (session : Nat) (drain : Drain) : Bool :=
  decide (session ≤ drain.generation) &&
    match drain.point with
    | .writing _ => true
    | _ => false

def UpdatePageInput.save (input : UpdatePageInput) : PendingPageSave where
  operationId := input.operationId
  content := input.content
  expectedVersion := input.expectedVersion

/-- The state that goes with what the current run waits for. -/
def Coherent (s : PageAutosave) : DrainPoint → Prop
  | .writing input => s.state = .pending input.save ∧ s.awaitingCanonical = none
  | .reconciling pageId pending =>
    s.state = .pending pending ∧ s.awaitingCanonical = some pending ∧
      ∃ baseline, s.baseline = some baseline ∧ baseline.pageId = pageId
  | .readingLatest _ _ =>
    s.awaitingCanonical = none ∧
      (s.state.isConflict = true ∨ ∃ pending failure, s.state = .failed pending failure)
  | .ended => True

def Known (s : PageAutosave) (unresolved : List Nat) : Prop :=
  unresolved = [] ∨ s.state.isConflict = true ∨ s.awaitingCanonical = none ∧ ∃ pending,
      (s.state = .pending pending ∨ ∃ failure, s.state = .retryable pending failure) ∧
        ∀ id ∈ unresolved, id = pending.operationId

/-- The runs that are over belong to earlier generations, and at most one of this session, left
behind by a deletion, still waits for a write. -/
structure Behind (session : Nat) (s : PageAutosave) : Prop where
  session_le : session ≤ s.generation
  generation : ∀ drain ∈ s.stale, drain.generation < s.generation
  one : (s.stale.filter (Drain.writes session)).length ≤ 1
  conflict : ∀ drain ∈ s.stale, drain.writes session = true → s.state.isConflict = true

structure Sound (session : Nat) (unresolved : List Nat) (s : PageAutosave) : Prop where
  behind : Behind session s
  generation : ∀ drain, s.running = some drain → drain.generation = s.generation
  coherent : ∀ drain, s.running = some drain → Coherent s drain.point
  awaiting : ∀ pending, s.awaitingCanonical = some pending →
    unresolved = [] ∧ (s.state = .pending pending ∨ ∃ failure, s.state = .retryable pending failure)
  known : Known s unresolved
  baselined : s.state ≠ .idle → s.baseline ≠ none
  waited : ∀ pending, s.state = .pending pending →
    ∃ drain, s.running = some drain ∧ drain.point ≠ .ended

/-- An editor with something to save has a timer or a run, unless a text is being composed. -/
def Wakes (s : PageAutosave) : Prop :=
  s.dirty = true → s.empty = false → s.state = .idle → s.composing = false →
    s.timer = true ∨ s.running.isSome = true

theorem Behind.congr (h : Behind session s) (hstate : s'.state = s.state)
    (hgen : s'.generation = s.generation) (hstale : s'.stale = s.stale) :
    Behind session s' where
  session_le := by
    rw [hgen]
    exact h.session_le
  generation := by
    rw [hstale, hgen]
    exact h.generation
  one := by
    rw [hstale]
    exact h.one
  conflict := by
    rw [hstale, hstate]
    exact h.conflict

theorem Coherent.congr {point : DrainPoint} (h : Coherent s point) (hstate : s'.state = s.state)
    (hawait : s'.awaitingCanonical = s.awaitingCanonical)
    (hbas : s'.baseline.map PageEditBaseline.pageId =
      s.baseline.map PageEditBaseline.pageId) : Coherent s' point := by
  cases point with
  | writing input =>
    unfold Coherent
    rw [hstate, hawait]
    exact h
  | reconciling pageId pending =>
    obtain ⟨hpend, hawai, baseline, hbase, hid⟩ := h
    rw [hbase] at hbas
    obtain ⟨baseline', hbase', hid'⟩ := Option.map_eq_some_iff.mp hbas
    exact ⟨hstate.trans hpend, hawait.trans hawai, baseline', hbase', hid'.trans hid⟩
  | readingLatest pageId operationId =>
    unfold Coherent
    rw [hstate, hawait]
    exact h
  | ended => trivial

theorem Sound.congr (h : Sound session unresolved s) (hstate : s'.state = s.state)
    (hawait : s'.awaitingCanonical = s.awaitingCanonical) (hrunni : s'.running = s.running)
    (hgen : s'.generation = s.generation) (hstale : s'.stale = s.stale)
    (hbas : s'.baseline.map PageEditBaseline.pageId =
      s.baseline.map PageEditBaseline.pageId) : Sound session unresolved s' where
  behind := h.behind.congr hstate hgen hstale
  generation := by
    rw [hrunni, hgen]
    exact h.generation
  coherent := by
    rw [hrunni]
    exact fun drain hdrain => (h.coherent drain hdrain).congr hstate hawait hbas
  awaiting := by
    rw [hawait, hstate]
    exact h.awaiting
  known := by
    unfold Known
    rw [hstate, hawait]
    exact h.known
  baselined := by
    rw [hstate]
    intro hidle hnone
    apply h.baselined hidle
    rw [hnone] at hbas
    exact Option.map_eq_none_iff.mp hbas.symm
  waited := by
    rw [hstate, hrunni]
    exact h.waited

/-- Without a conflict nothing of this session is left behind, whatever the state becomes. -/
theorem Behind.change (h : Behind session s) (hstate : s.state.isConflict = false)
    (hgen : s'.generation = s.generation) (hstale : s'.stale = s.stale) :
    Behind session s' where
  session_le := by
    rw [hgen]
    exact h.session_le
  generation := by
    rw [hstale, hgen]
    exact h.generation
  one := by
    rw [hstale]
    exact h.one
  conflict := by
    rw [hstale]
    intro drain hdrain hwrit
    have hconflict := h.conflict drain hdrain hwrit
    rw [hstate] at hconflict
    cases hconflict

theorem schedule_wakes (s : PageAutosave) : Wakes s.schedule := by
  unfold Wakes schedule
  split
  · rename_i h
    intro hdirty hempty hidle hcompo
    change s.dirty at hdirty
    change s.empty = false at hempty
    change s.state = .idle at hidle
    change s.composing = false at hcompo
    rw [hdirty, hempty, hidle, hcompo] at h
    have hrunni : s.running.isSome := by simpa using h
    exact .inr hrunni
  · intro _ _ _ _
    exact .inl rfl

theorem schedule_fields (s : PageAutosave) :
    s.schedule.state = s.state ∧ s.schedule.awaitingCanonical = s.awaitingCanonical ∧
      s.schedule.running = s.running ∧ s.schedule.generation = s.generation ∧
      s.schedule.stale = s.stale ∧ s.schedule.baseline = s.baseline := by
  unfold schedule
  split <;> exact ⟨rfl, rfl, rfl, rfl, rfl, rfl⟩

theorem Sound.schedule (h : Sound session unresolved s) : Sound session unresolved s.schedule := by
  obtain ⟨hstate, hawait, hrunni, hgen, hstale, hbas⟩ := schedule_fields s
  exact h.congr hstate hawait hrunni hgen hstale (by rw [hbas])

variable {baseline : PageEditBaseline}

section

variable (h : Behind session s)
  (hrunni : ∀ drain, s.running = some drain → drain.generation = s.generation ∧
    ∀ input, drain.point = .writing input → s.state.isConflict = false)
include h hrunni

theorem Behind.observeMissing
    (baseline : PageEditBaseline) : Behind session (s.observeMissing baseline) where
  session_le := by
    have hle := h.session_le
    change session ≤ s.generation + 1
    omega
  generation := by
    intro drain hdrain
    change drain.generation < s.generation + 1
    obtain hmem | hmem := List.mem_append.mp hdrain
    · have hcur := (Option.filter_eq_some_iff.mp (Option.mem_toList.mp hmem)).1
      rw [(hrunni drain hcur).1]
      omega
    · have hlt := h.generation drain hmem
      omega
  one := by
    change (List.filter _ (_ ++ s.stale)).length ≤ 1
    rw [List.filter_append, List.length_append]
    by_cases hstale : s.stale.filter (Drain.writes session) = []
    · rw [hstale]
      cases s.running.filter fun drain => drain.point != .ended with
      | none => simp
      | some drain =>
        have hle := List.length_filter_le (Drain.writes session) [drain]
        simpa using hle
    · obtain ⟨drain, hdrain⟩ := List.exists_mem_of_ne_nil _ hstale
      obtain ⟨hmem, hwrit⟩ := List.mem_filter.mp hdrain
      have hconflict := h.conflict drain hmem hwrit
      have hnone : ((s.running.filter fun drain => drain.point != .ended).toList.filter
          (Drain.writes session)) = [] := by
        rw [List.filter_eq_nil_iff]
        intro current hmem hcurrentWrites
        have hcur := (Option.filter_eq_some_iff.mp (Option.mem_toList.mp hmem)).1
        unfold Drain.writes at hcurrentWrites
        cases hpoint : current.point with
        | writing input =>
          rw [(hrunni current hcur).2 input hpoint] at hconflict
          cases hconflict
        | readingLatest pageId operationId => simp [hpoint] at hcurrentWrites
        | reconciling pageId pending => simp [hpoint] at hcurrentWrites
        | ended => simp [hpoint] at hcurrentWrites
      have hone := h.one
      rw [hnone]
      simpa using hone
  conflict := fun _ _ _ => rfl

theorem Sound.missing (hbas : s.baseline = some baseline) :
    Sound session unresolved (s.observeMissing baseline) where
  behind := h.observeMissing hrunni baseline
  generation := by
    intro drain hdrain
    cases hdrain
  coherent := by
    intro drain hdrain
    cases hdrain
  awaiting := by
    intro pending hpend
    cases hpend
  known := .inr (.inl rfl)
  baselined := by
    intro _ hnone
    rw [show (s.observeMissing baseline).baseline = s.baseline from rfl, hbas] at hnone
    cases hnone
  waited := by
    intro pending hpend
    cases hpend

end

theorem Sound.observeMissing (h : Sound session unresolved s)
    (hbas : s.baseline = some baseline) :
    Sound session unresolved (s.observeMissing baseline) := by
  refine Sound.missing h.behind (fun drain hdrain => ⟨h.generation drain hdrain, ?_⟩) hbas
  intro input hinput
  have hcoh := h.coherent drain hdrain
  rw [hinput] at hcoh
  rw [hcoh.1]
  rfl

theorem observeMissing_wakes (s : PageAutosave) (baseline : PageEditBaseline) :
    Wakes (s.observeMissing baseline) := by
  intro _ _ hidle
  cases hidle

theorem confirmMissing_sound (h : Sound session unresolved s) (hw : Wakes s) (generation : Nat)
    (pageId : String) (operationId : Nat) :
    Sound session unresolved (s.confirmMissing generation pageId operationId) ∧
      Wakes (s.confirmMissing generation pageId operationId) := by
  unfold confirmMissing
  cases hbas : s.baseline with
  | none => exact ⟨h, hw⟩
  | some baseline =>
    dsimp only
    split
    · exact ⟨h, hw⟩
    · exact ⟨h.observeMissing hbas, observeMissing_wakes s baseline⟩

theorem observeConflictLatest_fields (s : PageAutosave) (page : Option CanonicalPage)
    (operationId : Nat) : ∃ latest, s.observeConflictLatest page operationId =
      { s with latest } := by
  unfold observeConflictLatest
  split
  · split
    · exact ⟨_, rfl⟩
    · exact ⟨s.latest, rfl⟩
  · exact ⟨s.latest, rfl⟩

theorem observeConflictLatest_sound (h : Sound session unresolved s) (hw : Wakes s)
    (page : Option CanonicalPage) (operationId : Nat) :
    Sound session unresolved (s.observeConflictLatest page operationId) ∧
      Wakes (s.observeConflictLatest page operationId) := by
  obtain ⟨latest, heq⟩ := observeConflictLatest_fields s page operationId
  rw [heq]
  exact ⟨h.congr rfl rfl rfl rfl rfl rfl, hw⟩

/-! ## Runs that begin or go on -/

def unresolvedAt (unresolved : List Nat) : DrainPoint → List Nat
  | .writing input => input.operationId :: unresolved.filter fun id => id != input.operationId
  | _ => unresolved

def SentAlone (unresolved : List Nat) : DrainPoint → Prop
  | .writing input => ∀ id ∈ unresolved, id = input.operationId
  | _ => True

theorem Sound.waiting (hbeh : Behind session s) (hstale : s.state = .idle)
    (hawait : s.awaitingCanonical = none) (hbas : s.baseline ≠ none)
    {pending : PendingPageSave} {pageId : String} {operations : Nat}
    (hsent : ∀ id ∈ unresolved, id = pending.operationId) :
    Sound session (unresolvedAt unresolved (.writing (pending.input pageId)))
      { s with
        state := .pending pending, operations
        running := some { generation := s.generation, point := .writing (pending.input pageId) } }
    where
  behind :=
    { session_le := hbeh.session_le
      generation := hbeh.generation
      one := hbeh.one
      conflict := by
        intro drain hdrain hwrit
        have hconflict := hbeh.conflict drain hdrain hwrit
        rw [hstale] at hconflict
        cases hconflict }
  generation := by
    rintro drain ⟨⟩
    rfl
  coherent := by
    rintro drain ⟨⟩
    exact ⟨rfl, hawait⟩
  awaiting := by
    intro other hother
    cases hawait.symm.trans hother
  known := by
    refine .inr (.inr ⟨hawait, pending, .inl rfl, fun id hid => ?_⟩)
    obtain rfl | hid := List.mem_cons.mp hid
    · rfl
    · exact hsent id (List.mem_filter.mp hid).1
  baselined := fun _ => hbas
  waited := fun _ _ => ⟨_, rfl, by simp⟩

theorem Sound.returned (hbeh : Behind session s) (hstate : s.state = .idle)
    (hawait : s.awaitingCanonical = none) {empty : Bool} : Sound session []
      { s with empty, running := some { generation := s.generation, point := .ended } } where
  behind := hbeh.congr rfl rfl rfl
  generation := by
    rintro drain ⟨⟩
    rfl
  coherent := by
    rintro drain ⟨⟩
    trivial
  awaiting := by
    intro other hother
    cases hawait.symm.trans hother
  known := .inl rfl
  baselined := absurd hstate
  waited := by
    intro pending hpend
    cases hstate.symm.trans hpend

theorem running_wakes {drain : Drain} (h : s.running = some drain) : Wakes s := by
  intro _ _ _ _
  right
  rw [h]
  rfl

theorem beginPageSave_request {state : PageSaveCoordinatorState}
    {content : String} {operationId : Nat} {input : UpdatePageInput} {pending : PendingPageSave}
    (h : beginPageSave state baseline content operationId = .request input pending) :
    input = pending.input baseline.pageId := by
  unfold beginPageSave at h
  split at h
  · cases h
  · cases h
  · split at h
    · cases h
    · split at h
      · cases h
      · obtain ⟨hinput, hpend⟩ := BeginPageSaveResult.request.inj h
        rw [← hinput, hpend]

/-- What the top of the loop does: it returns, or it waits for a write, which is the replay when
there is one. -/
theorem drainLoop_cases (s : PageAutosave) (generation : Nat) (replay : Option PendingPageSave) :
    (∃ empty, s.drainLoop generation replay = ({ s with empty }, .ended) ∧
        ∀ pending, replay = some pending → s.baseline = none ∨ generation ≠ s.generation ∨
          s.composing ∨ s.state ≠ .idle) ∨
      ∃ pending baseline operations, s.baseline = some baseline ∧ s.drainLoop generation replay =
          ({ s with state := .pending pending, operations },
            .writing (pending.input baseline.pageId)) ∧
        ∀ other, replay = some other → pending = other := by
  unfold drainLoop
  split
  · rename_i hbas
    exact .inl ⟨s.empty, rfl, fun _ _ => .inl hbas⟩
  · rename_i baseline hbas
    split
    · rename_i hgen
      exact .inl ⟨s.empty, rfl, fun _ _ => .inr (.inl hgen)⟩
    split
    · rename_i hbusy
      exact .inl ⟨s.empty, rfl, fun _ _ => .inr (.inr hbusy)⟩
    split
    · rename_i pending
      exact .inr ⟨pending, baseline, s.operations, hbas, rfl, fun _ h => Option.some.inj h⟩
    split
    · exact .inl ⟨s.empty, rfl, fun _ h => by cases h⟩
    split
    · rename_i input pending hbegin
      rw [beginPageSave_request hbegin]
      exact .inr ⟨pending, baseline, s.operations + 1, hbas, rfl, fun _ h => by cases h⟩
    · exact .inl ⟨true, rfl, fun _ h => by cases h⟩
    · exact .inl ⟨s.empty, rfl, fun _ h => by cases h⟩

theorem drainLoop_sound (hbeh : Behind session s) (hstate : s.state = .idle)
    (hawait : s.awaitingCanonical = none) {replay : Option PendingPageSave}
    (hunr : unresolved = [] ∨ ∃ pending, replay = some pending ∧ s.composing = false ∧
      s.baseline ≠ none ∧ ∀ id ∈ unresolved, id = pending.operationId) :
    Sound session (unresolvedAt unresolved (s.drainLoop s.generation replay).2)
        { (s.drainLoop s.generation replay).1 with
          running := some
            { generation := s.generation, point := (s.drainLoop s.generation replay).2 } } ∧
      SentAlone unresolved (s.drainLoop s.generation replay).2 := by
  obtain ⟨empty, heq, hrepl⟩ | ⟨pending, baseline, operations, hbas, heq, hrepl⟩ :=
    drainLoop_cases s s.generation replay
  · rw [heq]
    obtain rfl | ⟨pending, rfl, hcompo, hbas, -⟩ := hunr
    · exact ⟨Sound.returned hbeh hstate hawait, trivial⟩
    · have hfalse := hrepl pending rfl
      rw [hcompo, hstate] at hfalse
      simp [hbas] at hfalse
  · rw [heq]
    have hne : s.baseline ≠ none := by
      rw [hbas]
      exact Option.some_ne_none baseline
    have hsent : ∀ id ∈ unresolved, id = pending.operationId := by
      obtain rfl | ⟨other, hother, -, -, hsent⟩ := hunr
      · simp
      · rw [hrepl other hother]
        exact hsent
    exact ⟨Sound.waiting hbeh hstate hawait hne hsent, hsent⟩

/-- What a step may do to the current run: leave it alone or end it, or make it wait at a new
point. -/
def Ran (session : Nat) (unresolved : List Nat) (before after : PageAutosave) : Prop :=
  (∃ point, after.running = some { generation := before.generation, point } ∧
      before.running ≠ after.running ∧ Sound session (unresolvedAt unresolved point) after ∧
      SentAlone unresolved point) ∨
    (∀ drain, after.running = some drain → before.running = some drain) ∧
      Sound session unresolved after

theorem start_ran {before : PageAutosave} (hrunni : before.running = none)
    (hgen : before.generation = s.generation) (hbeh : Behind session s)
    (hstate : s.state = .idle) {replay : Option PendingPageSave}
    (hawait : ∀ pending, s.awaitingCanonical = some pending → unresolved = [] ∧ s.baseline ≠ none)
    (hunr : s.awaitingCanonical = none → unresolved = [] ∨ ∃ pending,
      replay = some pending ∧ s.composing = false ∧ s.baseline ≠ none ∧
        ∀ id ∈ unresolved, id = pending.operationId) :
    Ran session unresolved before (s.start replay) := by
  left
  unfold start drain
  rw [hrunni, hgen]
  split
  rename_i next point hdrain
  split at hdrain
  · rename_i pending hpend
    obtain ⟨rfl, hbas⟩ := hawait pending hpend
    obtain ⟨baseline, hbase⟩ := Option.ne_none_iff_exists'.mp hbas
    obtain ⟨rfl, rfl⟩ := Prod.mk.inj hdrain
    have hpoint : s.reconcile pending = .reconciling baseline.pageId pending := by
      unfold reconcile
      rw [hbase]
    refine ⟨_, rfl, by simp, ?_, ?_⟩
    · rw [hpoint]
      exact
        { behind := hbeh.change (by rw [hstate]; rfl) rfl rfl
          generation := by
            rintro drain ⟨⟩
            rfl
          coherent := by
            rintro drain ⟨⟩
            exact ⟨rfl, hpend, baseline, hbase, rfl⟩
          awaiting := by
            intro other hother
            obtain rfl : pending = other := Option.mem_unique hpend hother
            exact ⟨rfl, .inl rfl⟩
          known := .inl rfl
          baselined := fun _ => hbas
          waited := fun _ _ => ⟨_, rfl, by simp⟩ }
    · rw [hpoint]
      trivial
  · rename_i hnone
    obtain ⟨hsound, hsent⟩ := drainLoop_sound hbeh hstate hnone (hunr hnone)
    obtain rfl : (s.drainLoop s.generation replay).1 = next := by rw [hdrain]
    obtain rfl : (s.drainLoop s.generation replay).2 = point := by rw [hdrain]
    exact ⟨_, rfl, by simp, hsound, hsent⟩

theorem Sound.unresolved_idle (h : Sound session unresolved s) (hstate : s.state = .idle) :
    unresolved = [] ∧ s.awaitingCanonical = none := by
  constructor
  · obtain hnil | hconflict | ⟨-, pending, hpend | ⟨failure, hretr⟩, -⟩ := h.known
    · exact hnil
    · rw [hstate] at hconflict
      cases hconflict
    · cases hstate.symm.trans hpend
    · cases hstate.symm.trans hretr
  · cases hawait : s.awaitingCanonical with
    | none => rfl
    | some pending =>
      obtain ⟨-, hpend | ⟨failure, hretr⟩⟩ := h.awaiting pending hawait
      · cases hstate.symm.trans hpend
      · cases hstate.symm.trans hretr

theorem Ran.still (h : Sound session unresolved s') (hrunni : s'.running = s.running) :
    Ran session unresolved s s' :=
  .inr ⟨fun _ hdrain => hrunni.symm.trans hdrain, h⟩

theorem start_running (s : PageAutosave) (replay : Option PendingPageSave) :
    (s.start replay).running =
      some { generation := s.generation, point := (s.drain s.generation replay).2 } :=
  rfl

theorem flush_ran (h : Sound session unresolved s) :
    Ran session unresolved s s.flush ∧ Wakes s.flush := by
  unfold flush
  dsimp only
  have hcanc : Sound session unresolved s.cancelTimer := h.congr rfl rfl rfl rfl rfl rfl
  split
  · rename_i hbusy
    refine ⟨.still hcanc rfl, fun _ _ hidle hcompo => ?_⟩
    obtain hcomp | hrun | hnot := hbusy
    · rw [hcompo] at hcomp
      cases hcomp
    · exact .inr hrun
    · exact absurd hidle hnot
  · rename_i hfree
    obtain ⟨-, hnorun, hidle⟩ : s.cancelTimer.composing = false ∧
        s.cancelTimer.running = none ∧ s.cancelTimer.state = .idle := by
      simpa [not_or] using hfree
    obtain ⟨hnil, hawait⟩ := hcanc.unresolved_idle hidle
    refine ⟨start_ran hnorun rfl hcanc.behind hidle ?_ (fun _ => .inl hnil),
      running_wakes (start_running _ _)⟩
    intro pending hpend
    cases hawait.symm.trans hpend

/-- A retry replays the operation whose outcome is not known, if there is one. -/
theorem retry_ran (h : Sound session unresolved s) :
    Ran session unresolved s s.retry ∧ Wakes s.retry := by
  unfold retry
  dsimp only
  have hcanc : Sound session unresolved s.cancelTimer := h.congr rfl rfl rfl rfl rfl rfl
  split
  · rename_i hbusy
    refine ⟨.still hcanc rfl, fun _ _ hidle hcompo => ?_⟩
    obtain hcomp | hconflict | hrun := hbusy
    · rw [hcompo] at hcomp
      cases hcomp
    · rw [hidle] at hconflict
      cases hconflict
    · exact .inr hrun
  · rename_i hfree
    obtain ⟨hcompo, hconflict, hnorun⟩ : s.composing = false ∧
        s.state.isConflict = false ∧ s.running = none := by
      simpa [cancelTimer, not_or] using hfree
    have hnone : ∀ pending, s.state ≠ .pending pending := by
      intro pending hpend
      obtain ⟨drain, hdrain, -⟩ := h.waited pending hpend
      cases hnorun.symm.trans hdrain
    refine ⟨?_, running_wakes (start_running _ _)⟩
    refine start_ran (s := { s.cancelTimer with state := .idle }) hnorun rfl
      (hcanc.behind.change hconflict rfl rfl) rfl ?_ ?_
    · intro pending hawait
      obtain ⟨hnil, hpend | ⟨failure, hretr⟩⟩ := h.awaiting pending hawait
      · exact absurd hpend (hnone pending)
      · refine ⟨hnil, h.baselined ?_⟩
        rw [hretr]
        simp
    · intro _
      obtain hnil | hbad | ⟨-, pending, hpend | ⟨failure, hretr⟩, hids⟩ := h.known
      · exact .inl hnil
      · rw [hconflict] at hbad
        cases hbad
      · exact absurd hpend (hnone pending)
      · refine .inr ⟨pending, ?_, hcompo, h.baselined ?_, hids⟩
        · dsimp only [cancelTimer]
          rw [hretr]
        · rw [hretr]
          simp

theorem timerFires_ran (h : Sound session unresolved s) (hw : Wakes s) :
    Ran session unresolved s s.timerFires ∧ Wakes s.timerFires := by
  unfold timerFires
  split
  · have hcanc : Sound session unresolved s.cancelTimer := h.congr rfl rfl rfl rfl rfl rfl
    have hflush := flush_ran hcanc
    exact ⟨hflush.1, hflush.2⟩
  · exact ⟨.still h rfl, hw⟩

/-! ## Edits and observations -/

theorem setSource_ran (h : Sound session unresolved s) (hw : Wakes s) (source : String) :
    Ran session unresolved s (s.setSource source) ∧ Wakes (s.setSource source) := by
  unfold setSource
  split
  · exact ⟨.still h rfl, hw⟩
  · have hset : Sound session unresolved { s with source, empty := false } :=
      h.congr rfl rfl rfl rfl rfl rfl
    exact ⟨.still hset.schedule (schedule_fields _).2.2.1, schedule_wakes _⟩

theorem setComposing_ran (h : Sound session unresolved s) (composing : Bool) :
    Ran session unresolved s (s.setComposing composing) ∧ Wakes (s.setComposing composing) := by
  have hset : Sound session unresolved { s with composing } := h.congr rfl rfl rfl rfl rfl rfl
  cases composing with
  | true =>
    have hcanc : Sound session unresolved { s with composing := true }.cancelTimer :=
      hset.congr rfl rfl rfl rfl rfl rfl
    refine ⟨.still hcanc rfl, ?_⟩
    intro _ _ _ hcompo
    cases hcompo
  | false => exact ⟨.still hset.schedule (schedule_fields _).2.2.1, schedule_wakes _⟩

theorem confirmMissing_running (s : PageAutosave) (generation : Nat) (pageId : String)
    (operationId : Nat) : (s.confirmMissing generation pageId operationId).running = s.running ∨
      (s.confirmMissing generation pageId operationId).running = none := by
  unfold confirmMissing
  split
  · exact .inl rfl
  · split
    · exact .inl rfl
    · exact .inr rfl

theorem observeConflictLatest_running (s : PageAutosave) (page : Option CanonicalPage)
    (operationId : Nat) : (s.observeConflictLatest page operationId).running = s.running := by
  obtain ⟨latest, heq⟩ := observeConflictLatest_fields s page operationId
  rw [heq]

theorem Ran.keeps (h : Sound session unresolved s')
    (hrunni : s'.running = s.running ∨ s'.running = none) : Ran session unresolved s s' := by
  refine .inr ⟨fun drain hdrain => ?_, h⟩
  obtain hsame | hnone := hrunni
  · exact hsame.symm.trans hdrain
  · cases hnone.symm.trans hdrain

section

variable (h : Sound session unresolved s)
include h

/-- What a read of the latest page does to the editor. -/
theorem afterLatest_sound (hw : Wakes s) (generation : Nat)
    (pageId : String) (operationId : Nat) (result : Option (Option CanonicalPage)) :
    Sound session unresolved (s.afterLatest generation pageId operationId result) ∧
      Wakes (s.afterLatest generation pageId operationId result) ∧
      ((s.afterLatest generation pageId operationId result).running = s.running ∨
        (s.afterLatest generation pageId operationId result).running = none) := by
  unfold afterLatest
  split
  · exact ⟨h, hw, .inl rfl⟩
  · match result with
    | none => exact ⟨h, hw, .inl rfl⟩
    | some none =>
      obtain ⟨hsound, hwakes⟩ := confirmMissing_sound h hw generation pageId operationId
      exact ⟨hsound, hwakes, confirmMissing_running s generation pageId operationId⟩
    | some (some page) =>
      obtain ⟨hsound, hwakes⟩ := observeConflictLatest_sound h hw (some page) operationId
      exact ⟨hsound, hwakes, .inl (observeConflictLatest_running s (some page) operationId)⟩

theorem latestRead_ran (hw : Wakes s) (read : LatestRead) (result : Option (Option CanonicalPage)) :
    Ran session unresolved s (s.latestRead read result) ∧ Wakes (s.latestRead read result) := by
  have herase : Sound session unresolved { s with latestReads := s.latestReads.erase read } :=
    h.congr rfl rfl rfl rfl rfl rfl
  obtain ⟨hsound, hwakes, hrunni⟩ :=
    afterLatest_sound herase hw read.generation read.pageId read.operationId result
  exact ⟨.keeps hsound hrunni, hwakes⟩

theorem readConflictLatest_ran (hw : Wakes s) (operationId : Nat) :
    Ran session unresolved s (s.readConflictLatest operationId) ∧
      Wakes (s.readConflictLatest operationId) := by
  unfold readConflictLatest
  split
  · split
    · exact ⟨.still (h.congr rfl rfl rfl rfl rfl rfl) rfl, hw⟩
    · exact ⟨.still h rfl, hw⟩
  · exact ⟨.still h rfl, hw⟩

theorem observeConflictLatest_ran (hw : Wakes s) (page : Option CanonicalPage) (operationId : Nat) :
    Ran session unresolved s (s.observeConflictLatest page operationId) ∧
      Wakes (s.observeConflictLatest page operationId) := by
  obtain ⟨hsound, hwakes⟩ := observeConflictLatest_sound h hw page operationId
  exact ⟨.still hsound (observeConflictLatest_running s page operationId), hwakes⟩

theorem Sound.changed (hidle : s.state = .idle)
    (hbas : s.baseline ≠ none) (pending : PendingPageSave) (message : String)
    (latest : Option CanonicalPage) : Sound session unresolved
      { s with
        timer := false, latest, operations := s.operations + 1
        state := .conflict pending message } where
  behind := h.behind.change (by rw [hidle]; rfl) rfl rfl
  generation := h.generation
  coherent := by
    intro drain hdrain
    have hcoh := h.coherent drain hdrain
    obtain ⟨-, hawait⟩ := h.unresolved_idle hidle
    cases hpoint : drain.point with
    | writing input =>
      rw [hpoint] at hcoh
      cases hidle.symm.trans hcoh.1
    | reconciling pageId save =>
      rw [hpoint] at hcoh
      cases hidle.symm.trans hcoh.1
    | readingLatest pageId operationId => exact ⟨hawait, .inl rfl⟩
    | ended => trivial
  awaiting := by
    intro save hsave
    cases (h.unresolved_idle hidle).2.symm.trans hsave
  known := .inr (.inl rfl)
  baselined := fun _ => hbas
  waited := by
    intro save hsave
    cases hsave

theorem observeCanonical_ran (hw : Wakes s) (page : Option CanonicalPage) :
    Ran session unresolved s (s.observeCanonical page) ∧ Wakes (s.observeCanonical page) := by
  unfold observeCanonical
  split
  · exact ⟨.still h rfl, hw⟩
  · rename_i baseline hbas
    exact ⟨.keeps (h.observeMissing hbas) (.inr rfl), observeMissing_wakes s baseline⟩
  · rename_i baseline page hbas
    split
    · exact ⟨.still h rfl, hw⟩
    split
    · exact observeConflictLatest_ran h hw (some page) _
    · rename_i hidle
      split
      · exact ⟨.still h rfl, hw⟩
      split
      · refine ⟨.still (h.congr rfl rfl rfl rfl rfl ?_) rfl, ?_⟩
        · rw [hbas]
          rfl
        · intro hdirty
          apply hw
          unfold dirty at hdirty ⊢
          rw [hbas]
          exact hdirty
      · refine ⟨.still (h.changed hidle ?_ _ _ _) rfl, ?_⟩
        · rw [hbas]
          exact Option.some_ne_none baseline
        · intro _ _ hstate
          cases hstate
    · exact ⟨.still h rfl, hw⟩

end

end Wenlan.Editor
