import Wenlan.Editor.AutosaveSteps

/-!
# Runs of `drain`

What a run does when what it waits for has come, and what is left of one that is over.
-/

namespace Wenlan.Editor

open Support.Transition PageAutosave

variable {s s' : PageAutosave} {session : Nat} {unresolved : List Nat}

theorem settled_ran (h : Sound session unresolved s) (hw : Wakes s) :
    Ran session unresolved s s.settled ∧ Wakes s.settled := by
  unfold settled
  split
  · rename_i generation hrunni
    have hgen : generation = s.generation := h.generation _ hrunni
    have hidle : Sound session unresolved { s with running := none } :=
      { behind := h.behind.congr rfl rfl rfl
        generation := by
          intro drain hdrain
          cases hdrain
        coherent := by
          intro drain hdrain
          cases hdrain
        awaiting := h.awaiting
        known := h.known
        baselined := h.baselined
        waited := by
          intro pending hpend
          obtain ⟨drain, hdrain, hended⟩ := h.waited pending hpend
          rw [hrunni] at hdrain
          cases hdrain
          exact absurd rfl hended }
    rw [if_pos hgen]
    exact ⟨.keeps hidle.schedule (.inr (schedule_fields _).2.2.1), schedule_wakes _⟩
  · exact ⟨.still h rfl, hw⟩

theorem not_writes {drain : Drain} (h : drain.generation < session) :
    drain.writes session = false := by
  unfold Drain.writes
  rw [decide_eq_false (by omega : ¬session ≤ drain.generation), Bool.false_and]

/-- After a reset nothing that is still under way belongs to the session. -/
theorem reset_sound (h : Sound session unresolved s) (page : Option CanonicalPage) :
    Sound (s.generation + 1) [] (s.reset page) ∧ Wakes (s.reset page) := by
  have hstale : ∀ drain ∈ (s.reset page).stale, drain.generation < s.generation + 1 := by
    intro drain hdrain
    obtain hmem | hmem := List.mem_append.mp hdrain
    · have hcur := (Option.filter_eq_some_iff.mp (Option.mem_toList.mp hmem)).1
      rw [h.generation drain hcur]
      omega
    · have hlt := h.behind.generation drain hmem
      omega
  constructor
  · exact
      { behind :=
          { session_le := Nat.le_refl _
            generation := hstale
            one := by
              have hnil : (s.reset page).stale.filter (Drain.writes (s.generation + 1)) = [] := by
                rw [List.filter_eq_nil_iff]
                intro drain hdrain hwrites
                rw [not_writes (hstale drain hdrain)] at hwrites
                cases hwrites
              rw [hnil]
              exact Nat.zero_le 1
            conflict := by
              intro drain hdrain hwrites
              rw [not_writes (hstale drain hdrain)] at hwrites
              cases hwrites }
        generation := by
          intro drain hdrain
          cases hdrain
        coherent := by
          intro drain hdrain
          cases hdrain
        awaiting := by
          intro pending hpend
          cases hpend
        known := .inl rfl
        baselined := absurd rfl
        waited := by
          intro pending hpend
          cases hpend }
  · intro hdirty
    cases page with
    | none => cases hdirty
    | some page => simp [dirty, reset] at hdirty

theorem resumeStale_eq (h : Sound session unresolved s) {drain : Drain} (hdrain : drain ∈ s.stale)
    (arrival : Arrival) :
    s.resumeStale drain arrival = { s with stale := s.stale.erase drain } := by
  have hne : drain.generation ≠ s.generation := by
    have hlt := h.behind.generation drain hdrain
    omega
  have hres : (s.resume drain arrival).1 = s := by
    unfold resume
    split
    · unfold afterWrite
      rw [if_pos hne]
    · unfold afterLatest
      rw [if_pos hne]
    · unfold afterReconcile
      rw [if_pos hne]
    · rfl
  unfold resumeStale
  dsimp only
  rw [hres]

theorem resumeStale_ran (h : Sound session unresolved s) (hw : Wakes s) {drain : Drain}
    (hdrain : drain ∈ s.stale) (arrival : Arrival) :
    Ran session unresolved s (s.resumeStale drain arrival) ∧
      Wakes (s.resumeStale drain arrival) := by
  rw [resumeStale_eq h hdrain arrival]
  have hbeh : Behind session { s with stale := s.stale.erase drain } :=
    { session_le := h.behind.session_le
      generation := fun other hother => h.behind.generation other (List.mem_of_mem_erase hother)
      one := by
        have hsub : List.Sublist ((s.stale.erase drain).filter (Drain.writes session))
            (s.stale.filter (Drain.writes session)) := List.erase_sublist.filter _
        have hone := h.behind.one
        have hle := hsub.length_le
        change (List.filter _ (s.stale.erase drain)).length ≤ 1
        omega
      conflict := fun other hother => h.behind.conflict other (List.mem_of_mem_erase hother) }
  exact ⟨.still { h with behind := hbeh } rfl, hw⟩

/-! ## The run that goes on -/

def heard (unresolved : List Nat) : DrainPoint → Arrival → List Nat
  | .writing input, .wrote outcome =>
    if outcome.isAmbiguous then unresolved
    else unresolved.filter fun id => id != input.operationId
  | _, _ => unresolved

variable {point : DrainPoint}

theorem Ran.pauses (hpoint : ∀ input, point ≠ .writing input)
    (hafter : s'.running = some { generation := s.generation, point })
    (hne : s.running ≠ s'.running) (h : Sound session unresolved s') :
    Ran session unresolved s s' := by
  refine .inl ⟨point, hafter, hne, ?_⟩
  cases point with
  | writing input => exact absurd rfl (hpoint input)
  | readingLatest pageId operationId => exact ⟨h, trivial⟩
  | reconciling pageId pending => exact ⟨h, trivial⟩
  | ended => exact ⟨h, trivial⟩

variable {arrival : Arrival}

theorem resumeRunning_eq {drain : Drain} {next : PageAutosave}
    (h : { s with running := some { drain with point := .ended } }.resume drain arrival =
      (next, point)) (hrunni : next.running ≠ none) :
    s.resumeRunning drain arrival = { next with running := some { drain with point } } := by
  unfold resumeRunning
  rw [h]
  dsimp only
  rw [if_neg hrunni]

theorem Sound.answered (h : Sound session unresolved s) (hconfl : s.state.isConflict = false)
    (hbas : s.baseline ≠ none) {state : PageSaveCoordinatorState}
    {heard : List Nat} (hpend : ∀ pending, state ≠ .pending pending)
    (hawait : ∀ pending, s.awaitingCanonical = some pending →
      heard = [] ∧ ∃ failure, state = .retryable pending failure)
    (hcoh : Coherent { s with state } point) (hknown : Known { s with state } heard) :
    Sound session heard
      { s with state, running := some { generation := s.generation, point } } where
  behind := h.behind.change hconfl rfl rfl
  generation := by
    rintro drain ⟨⟩
    rfl
  coherent := by
    rintro drain ⟨⟩
    exact hcoh.congr rfl rfl rfl
  awaiting := by
    intro pending hsome
    obtain ⟨hnil, failure, hretr⟩ := hawait pending hsome
    exact ⟨hnil, .inr ⟨failure, hretr⟩⟩
  known := hknown
  baselined := fun _ => hbas
  waited := fun pending hstate => absurd hstate (hpend pending)

theorem filter_nil {id : Nat} (h : ∀ other ∈ unresolved, other = id) :
    (unresolved.filter fun other => other != id) = [] := by
  rw [List.filter_eq_nil_iff]
  intro other hother
  rw [h other hother]
  simp

/-- The answer to the write that the run waits for. -/
theorem afterWrite_sound (h : Sound session unresolved s) {input : UpdatePageInput}
    (hstate : s.state = .pending input.save) (hnone : s.awaitingCanonical = none)
    (running : Option Drain) (outcome : PageSaveSettlement) : ∃ state awaitingCanonical point,
      { s with running }.afterWrite s.generation input outcome =
          ({ s with running, state, awaitingCanonical }, point) ∧
        (∀ other, point ≠ .writing other) ∧
        Sound session (heard unresolved (.writing input) (.wrote outcome))
          { s with
            state, awaitingCanonical
            running := some { generation := s.generation, point } } := by
  have hconfl : s.state.isConflict = false := by
    rw [hstate]
    rfl
  have hbas : s.baseline ≠ none := h.baselined (by rw [hstate]; simp)
  have hids : ∀ id ∈ unresolved, id = input.operationId := by
    obtain hnil | hbad | ⟨-, pending, hpend | ⟨failure, hretr⟩, hids⟩ := h.known
    · simp [hnil]
    · rw [hconfl] at hbad
      cases hbad
    · cases hstate.symm.trans hpend
      exact hids
    · cases hstate.symm.trans hretr
  have hnil := filter_nil hids
  have hnever : ∀ pending, s.awaitingCanonical ≠ some pending := by
    rw [hnone]
    simp
  unfold afterWrite
  rw [if_neg (fun hne => hne rfl)]
  rw [hstate]
  cases outcome with
  | saved =>
    obtain ⟨baseline, hbase⟩ := Option.ne_none_iff_exists'.mp hbas
    refine ⟨.pending input.save, some input.save, .reconciling baseline.pageId input.save, ?_,
      by simp, ?_⟩
    · simp only [reconcile, hbase, UpdatePageInput.save]
    · have hheard : heard unresolved (.writing input) (.wrote .saved) = [] := hnil
      rw [hheard]
      exact
        { behind := h.behind.change hconfl rfl rfl
          generation := by
            rintro drain ⟨⟩
            rfl
          coherent := by
            rintro drain ⟨⟩
            exact ⟨rfl, rfl, baseline, hbase, rfl⟩
          awaiting := by
            rintro pending ⟨⟩
            exact ⟨rfl, .inl rfl⟩
          known := .inl rfl
          baselined := fun _ => hbas
          waited := fun _ _ => ⟨_, rfl, by simp⟩ }
  | conflict message =>
    refine ⟨.conflict input.save message, none, .readingLatest input.id input.operationId, ?_,
      by simp, ?_⟩
    · rw [← hnone]
      rfl
    · rw [← hnone]
      exact h.answered hconfl hbas (by simp)
        (fun pending hsome => absurd hsome (hnever pending)) ⟨hnone, .inl rfl⟩
        (.inr (.inl rfl))
  | upgradeRequired reportedVersion requiredFloor =>
    refine ⟨.upgradeRequired input.save reportedVersion requiredFloor, none, .ended, ?_,
      by simp, ?_⟩
    · rw [← hnone]
      rfl
    · rw [← hnone]
      exact h.answered hconfl hbas (by simp)
        (fun pending hsome => absurd hsome (hnever pending)) trivial (.inl hnil)
  | transport =>
    refine ⟨.retryable input.save .transport, none, .ended, ?_, by simp, ?_⟩
    · rw [← hnone]
      rfl
    · rw [← hnone]
      exact h.answered hconfl hbas (by simp)
        (fun pending hsome => absurd hsome (hnever pending)) trivial
        (.inr (.inr ⟨hnone, input.save, .inr ⟨_, rfl⟩, hids⟩))
  | failure cause =>
    by_cases hretr : isRetryableUpdatePageFailure cause
    · have hkind : cause.kind ≠ .notFound := by
        intro hkind
        rw [isRetryableUpdatePageFailure, hkind] at hretr
        cases hretr
      refine ⟨.retryable input.save (.response cause), none, .ended, ?_, by simp, ?_⟩
      · rw [← hnone]
        simp only [settlePageSave, if_pos hretr, if_neg hkind]
      · have hheard : heard unresolved (.writing input) (.wrote (.failure cause)) =
            unresolved := if_pos hretr
        rw [← hnone, hheard]
        exact h.answered hconfl hbas (by simp)
          (fun pending hsome => absurd hsome (hnever pending)) trivial
          (.inr (.inr ⟨hnone, input.save, .inr ⟨_, rfl⟩, hids⟩))
    · have hheard : heard unresolved (.writing input) (.wrote (.failure cause)) = [] :=
        (if_neg hretr).trans hnil
      refine ⟨.failed input.save cause, none,
        if cause.kind = .notFound then .readingLatest input.id input.operationId else .ended,
        ?_, ?_, ?_⟩
      · rw [← hnone]
        simp only [settlePageSave, if_neg hretr]
      · intro other
        split <;> simp
      · rw [← hnone, hheard]
        refine h.answered hconfl hbas (by simp)
          (fun pending hsome => absurd hsome (hnever pending)) ?_ (.inl rfl)
        split
        · exact ⟨hnone, .inr ⟨_, _, rfl⟩⟩
        · trivial

theorem drainLoop_running (s : PageAutosave) (generation : Nat) (replay : Option PendingPageSave) :
    (s.drainLoop generation replay).1.running = s.running := by
  obtain ⟨empty, heq, -⟩ | ⟨pending, baseline, operations, -, heq, -⟩ :=
    drainLoop_cases s generation replay
  · rw [heq]
  · rw [heq]

/-- The run goes on at the top of the loop. -/
theorem loops_ran {next : PageAutosave} {drain : Drain}
    (hbeh : Behind session next) (hidle : next.state = .idle)
    (hawait : next.awaitingCanonical = none) (hdrain : drain.generation = next.generation)
    (hgen : s.generation = next.generation) (hrunni : next.running ≠ none)
    (hpoint : ∀ point, (∀ pageId save, point ≠ .reconciling pageId save) →
      s.running ≠ some { drain with point })
    (hres : { s with running := some { drain with point := .ended } }.resume drain arrival =
      next.drainLoop drain.generation none) :
    Ran session [] s (s.resumeRunning drain arrival) ∧ Wakes (s.resumeRunning drain arrival) := by
  have hloops : next.drainLoop drain.generation none = next.drainLoop next.generation none := by
    rw [hdrain]
  rw [hloops] at hres
  obtain ⟨hsound, hsent⟩ :
      Sound session (unresolvedAt [] (next.drainLoop next.generation none).2)
        { (next.drainLoop next.generation none).1 with
          running := some
            { generation := next.generation
              point := (next.drainLoop next.generation none).2 } } ∧
      SentAlone [] (next.drainLoop next.generation none).2 :=
    drainLoop_sound hbeh hidle hawait (.inl rfl)
  have hrun := drainLoop_running next next.generation none
  have hnot : ∀ pageId save,
      (next.drainLoop next.generation none).2 ≠ .reconciling pageId save := by
    intro pageId save
    obtain ⟨empty, heq, -⟩ | ⟨other, base, operations, -, heq, -⟩ :=
      drainLoop_cases next next.generation none
    · rw [heq]
      simp
    · rw [heq]
      simp
  rcases hloop : next.drainLoop next.generation none with ⟨after, point⟩
  rw [hloop] at hres hsound hsent hrun hnot
  rw [resumeRunning_eq hres (by rw [hrun]; exact hrunni)]
  rw [← hdrain] at hsound
  refine ⟨.inl ⟨point, ?_, hpoint point hnot, hsound, hsent⟩, running_wakes rfl⟩
  rw [hgen, ← hdrain]

section

variable (h : Sound session unresolved s) {drain : Drain}
include h

/-- The read that confirms a saved page has come. -/
theorem resumeReconciling_ran {pageId : String}
    {pending : PendingPageSave} (hrunni : s.running = some drain)
    (hpoint : drain.point = .reconciling pageId pending) (result : Option (Option CanonicalPage)) :
    Ran session unresolved s (s.resumeRunning drain (.read result)) ∧
      Wakes (s.resumeRunning drain (.read result)) := by
  have hgen := h.generation drain hrunni
  have hsame : ¬drain.generation ≠ s.generation := fun hother => hother hgen
  have hended : ∀ input, DrainPoint.ended ≠ .writing input := by simp
  have hcoh := h.coherent drain hrunni
  rw [hpoint] at hcoh
  obtain ⟨hstate, hawai, baseline, hbase, hid⟩ := hcoh
  obtain ⟨rfl, -⟩ := h.awaiting pending hawai
  have hconfl : s.state.isConflict = false := by
    rw [hstate]
    rfl
  have hbas : s.baseline ≠ none := by
    rw [hbase]
    exact Option.some_ne_none baseline
  have hne : ∀ {point : DrainPoint} {after : PageAutosave},
      after.running = some { generation := s.generation, point } →
      (∀ save, point ≠ .reconciling pageId save) → s.running ≠ after.running := by
    intro point after hafter hpoin heq
    rw [hrunni, hafter] at heq
    have hpoin' := hpoin pending
    rw [← hpoint, Option.some.inj heq] at hpoin'
    exact hpoin' rfl
  -- an answer that ends the run in another state
  have hends : ∀ (awaitingCanonical : Option PendingPageSave) (latest : Option CanonicalPage)
      (state : PageSaveCoordinatorState), (∀ save, state ≠ .pending save) →
      (∀ save, awaitingCanonical = some save → ∃ failure, state = .retryable save failure) →
      { s with running := some { drain with point := .ended } }.resume drain (.read result) =
        ({ s with
            running := some { drain with point := .ended }, awaitingCanonical, latest, state },
          .ended) →
      Ran session [] s (s.resumeRunning drain (.read result)) ∧
        Wakes (s.resumeRunning drain (.read result)) := by
    intro awaitingCanonical latest state hpend hawait hres
    rw [resumeRunning_eq hres (by simp)]
    refine ⟨.pauses hended (by rw [← hgen]) (hne (by rw [← hgen]) (by simp)) ?_, running_wakes rfl⟩
    exact
      { behind := h.behind.change hconfl rfl rfl
        generation := by
          rintro other ⟨⟩
          exact hgen
        coherent := by
          rintro other ⟨⟩
          trivial
        awaiting := fun save hsave => ⟨rfl, .inr (hawait save hsave)⟩
        known := .inl rfl
        baselined := fun _ => hbas
        waited := fun save hsave => absurd hsave (hpend save) }
  cases result with
  | none =>
    refine hends s.awaitingCanonical s.latest (.retryable pending .transport) (by simp) ?_ ?_
    · intro save hsave
      obtain rfl := Option.mem_unique hawai hsave
      exact ⟨_, rfl⟩
    · simp only [resume, hpoint, afterReconcile]
      rw [if_neg hsame]
  | some page =>
    cases page with
    | none =>
      have hmis : s.resumeRunning drain (.read (some none)) =
          { s with running := some { drain with point := .ended } }.observeMissing
            baseline := by
        have hnot : ¬(drain.generation ≠ s.generation ∨ baseline.pageId ≠ pageId ∨
            Option.map PendingPageSave.operationId s.state.pending? ≠
              some pending.operationId) := by
          rw [hstate, hid, hgen]
          simp [PageSaveCoordinatorState.pending?]
        unfold resumeRunning
        simp only [resume, hpoint, afterReconcile, confirmMissing, hbase]
        rw [if_neg hsame, if_neg hnot]
        rfl
      rw [hmis]
      have hbeh : Behind session
          { s with running := some { drain with point := .ended } } :=
        h.behind.congr rfl rfl rfl
      refine ⟨.keeps (Sound.missing hbeh ?_ hbase) (.inr rfl), observeMissing_wakes _ _⟩
      rintro other ⟨⟩
      exact ⟨hgen, fun input hinput => by cases hinput⟩
    | some canonical =>
      by_cases hother : canonical.id ≠ pageId
      · refine hends s.awaitingCanonical s.latest (.retryable pending .transport)
          (by simp) ?_ ?_
        · intro save hsave
          obtain rfl := Option.mem_unique hawai hsave
          exact ⟨_, rfl⟩
        · simp only [resume, hpoint, afterReconcile]
          rw [if_neg hsame, if_pos hother]
      by_cases hmatch : canonical.content ≠ pending.content ∨
          canonical.version ≤ pending.expectedVersion
      · refine hends none (some canonical) (.conflict pending
          "The canonical source does not match the saved snapshot.") (by simp) (by simp) ?_
        simp only [resume, hpoint, afterReconcile]
        rw [if_neg hsame, if_neg hother, if_pos hmatch]
      · let next : PageAutosave :=
          { s with
            running := some { drain with point := .ended }
            awaitingCanonical := none, state := .idle, empty := false
            baseline := some
              { pageId := canonical.id, content := canonical.content
                version := canonical.version } }
        have hres : { s with running := some { drain with point := .ended } }.resume drain
            (.read (some (some canonical))) = next.drainLoop drain.generation none := by
          simp only [resume, hpoint, afterReconcile]
          rw [if_neg hsame, if_neg hother, if_neg hmatch]
        have hbeh : Behind session next := h.behind.change hconfl rfl rfl
        refine loops_ran hbeh rfl rfl hgen rfl (Option.some_ne_none _) ?_ hres
        intro point hpoin hrun
        exact hpoin pageId pending (hpoint.symm.trans
          (congrArg Drain.point (Option.mem_unique hrunni hrun))).symm

theorem resumeWriting_ran {input : UpdatePageInput} (hrunni : s.running = some drain)
    (hpoint : drain.point = .writing input) (outcome : PageSaveSettlement) :
    Ran session (heard unresolved (.writing input) (.wrote outcome)) s
        (s.resumeRunning drain (.wrote outcome)) ∧
      Wakes (s.resumeRunning drain (.wrote outcome)) := by
  have hgen := h.generation drain hrunni
  have hcoh := h.coherent drain hrunni
  rw [hpoint] at hcoh
  obtain ⟨state, awaitingCanonical, point, hafter, hpoin, hsound⟩ :=
    afterWrite_sound h hcoh.1 hcoh.2 (some { drain with point := .ended }) outcome
  have hres : { s with running := some { drain with point := .ended } }.resume drain
      (.wrote outcome) = ({ s with
            running := some { drain with point := .ended }, state, awaitingCanonical }, point) := by
    simp only [resume, hpoint]
    rw [hgen]
    rw [hgen] at hafter
    exact hafter
  have hdrain : ({ drain with point } : Drain) = { generation := s.generation, point } := by
    rw [hgen]
  rw [resumeRunning_eq hres (by simp), hdrain]
  refine ⟨.pauses hpoin rfl ?_ hsound, running_wakes rfl⟩
  intro heq
  apply hpoin input
  rw [← hpoint]
  exact (congrArg Drain.point (Option.mem_unique hrunni heq)).symm

theorem resumeReadingLatest_ran
    {pageId : String} {operationId : Nat} (hrunni : s.running = some drain)
    (hpoint : drain.point = .readingLatest pageId operationId)
    (result : Option (Option CanonicalPage)) :
    Ran session unresolved s (s.resumeRunning drain (.read result)) ∧
      Wakes (s.resumeRunning drain (.read result)) := by
  have hgen := h.generation drain hrunni
  have hcoh := h.coherent drain hrunni
  rw [hpoint] at hcoh
  obtain ⟨hnone, hstate⟩ := hcoh
  have hpend : ∀ pending, s.state ≠ .pending pending := by
    intro pending hpend
    rw [hpend] at hstate
    obtain hconfl | ⟨save, failure, hfail⟩ := hstate
    · cases hconfl
    · cases hfail
  have hended : ∀ input, DrainPoint.ended ≠ .writing input := by simp
  have hret : Sound session unresolved
      { s with running := some { drain with point := .ended } } :=
    { behind := h.behind.congr rfl rfl rfl
      generation := by
        rintro other ⟨⟩
        exact hgen
      coherent := by
        rintro other ⟨⟩
        trivial
      awaiting := h.awaiting
      known := h.known
      baselined := h.baselined
      waited := fun pending hsave => absurd hsave (hpend pending) }
  obtain ⟨hsound, hwakes, hrun⟩ := afterLatest_sound hret (running_wakes rfl) drain.generation
    pageId operationId result
  have hres : { s with running := some { drain with point := .ended } }.resume drain
      (.read result) = ({ s with running := some { drain with point := .ended } }.afterLatest
        drain.generation pageId operationId result, .ended) := by
    simp only [resume, hpoint]
  generalize { s with running := some { drain with point := .ended } }.afterLatest
    drain.generation pageId operationId result = next at hsound hwakes hrun hres
  obtain hkept | hgone := hrun
  · have hnext : { next with running := some { drain with point := .ended } } = next := by
      cases next
      cases hkept
      rfl
    rw [resumeRunning_eq hres (by rw [hkept]; simp), hnext]
    refine ⟨.pauses hended ?_ ?_ hsound, hwakes⟩
    · rw [hkept, ← hgen]
    · rw [hrunni, hkept]
      intro heq
      have hsame := congrArg Drain.point (Option.some.inj heq)
      rw [hpoint] at hsame
      cases hsame
  · have heq : s.resumeRunning drain (.read result) = next := by
      unfold resumeRunning
      rw [hres]
      dsimp only
      rw [if_pos hgone]
    rw [heq]
    exact ⟨.keeps hsound (.inr hgone), hwakes⟩

theorem resumeRunning_ran (hrunni : s.running = some drain) {server : Server}
    (hbring : server.brings drain.point arrival) :
    Ran session (heard unresolved drain.point arrival) s (s.resumeRunning drain arrival) ∧
      Wakes (s.resumeRunning drain arrival) := by
  cases hpoint : drain.point with
  | writing input =>
    cases arrival with
    | wrote outcome => exact resumeWriting_ran h hrunni hpoint outcome
    | read result =>
      rw [hpoint] at hbring
      cases hbring
  | readingLatest pageId operationId =>
    cases arrival with
    | wrote outcome =>
      rw [hpoint] at hbring
      cases hbring
    | read result => exact resumeReadingLatest_ran h hrunni hpoint result
  | reconciling pageId pending =>
    cases arrival with
    | wrote outcome =>
      rw [hpoint] at hbring
      cases hbring
    | read result => exact resumeReconciling_ran h hrunni hpoint result
  | ended =>
    rw [hpoint] at hbring
    cases arrival with
    | wrote outcome => cases hbring
    | read result => cases hbring

end

end Wenlan.Editor
