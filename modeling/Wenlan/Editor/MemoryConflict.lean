import Wenlan.Editor.MemoryAutosave

/-!
# Conflicts of the memory autosave

A conflict that the user was shown ends with a reset only.  A run that waits with the phase
`saving` finds no conflict when it goes on; a retry waits with the phase `error`, and does not look
at the phase again.
-/

namespace Wenlan.Editor

open Support.Transition

namespace MemoryAutosave

variable {s t : MemoryAutosave} {run : Run} {arrival : Arrival} {event : Event}

/-- The step leaves a conflict as it is. -/
def Sticky (s : MemoryAutosave) (event : Event) (t : MemoryAutosave) : Prop :=
  s.phase = .conflict → (∀ record, event ≠ .reset record) →
    t.phase = .conflict ∧ t.writes = s.writes

/-- The read of a retry fails, or finds what the retry or its baseline has. -/
def Arrival.overrules (pending baseline : MemoryAutosaveBaseline) : Arrival → Prop
  | .read record => ∃ canonical, found pending.id record = some canonical ∧
      (canonical.content = pending.content ∨ canonical.content = baseline.content)
  | .wrote => False
  | .failed => True

/-- A retry goes on over a conflict that came up while it waited. -/
def Overruns (s : MemoryAutosave) (event : Event) : Prop :=
  s.phase = .conflict ∧ ∃ generation pending baseline arrival,
    s.running = some ⟨generation, .reconciling pending baseline⟩ ∧ event = .resume arrival ∧
      arrival.overrules pending baseline

def Point.waitsIn : Point → MemoryAutosavePhase → Prop
  | .checking _ _, phase | .writing _ _, phase | .readback _ _, phase => phase = .saving
  | .reconciling _ _, phase => phase = .error ∨ phase = .conflict
  | .ended, _ => True

structure Waiting (s : MemoryAutosave) : Prop where
  current : ∀ run, s.running = some run → run.generation = s.generation
  earlier : ∀ run ∈ s.stale, run.generation < s.generation
  phase : ∀ run, s.running = some run → run.point.waitsIn s.phase

structure SameRun (s t : MemoryAutosave) : Prop where
  running : t.running = s.running
  stale : t.stale = s.stale
  generation : t.generation = s.generation
  phase : t.phase = s.phase

theorem Waiting.same (hs : s.Waiting) (h : SameRun s t) : t.Waiting where
  current run hrun := by
    rw [h.generation]
    exact hs.current run (h.running ▸ hrun)
  earlier run hmem := by
    rw [h.generation]
    exact hs.earlier run (h.stale ▸ hmem)
  phase run hrun := by
    rw [h.phase]
    exact hs.phase run (h.running ▸ hrun)

theorem Waiting.next (hs : s.Waiting) : s.nextGeneration.Waiting where
  current run hrun := by cases hrun
  earlier run hmem := by
    show run.generation < s.generation + 1
    rcases List.mem_append.mp hmem with hrun | hstale
    · have hcur := hs.current run (Option.mem_toList.mp hrun)
      omega
    · have hover := hs.earlier run hstale
      omega
  phase run hrun := by cases hrun

theorem waiting_idle (hs : s.Waiting) : ({ s with running := none } : MemoryAutosave).Waiting where
  current run hrun := by cases hrun
  earlier := hs.earlier
  phase run hrun := by cases hrun

theorem sameRun_schedule (s : MemoryAutosave) : SameRun s s.schedule := by
  unfold schedule
  split_ifs
  all_goals exact ⟨rfl, rfl, rfl, rfl⟩

section

variable (hs : s.Waiting)
include hs

theorem waiting_reset (record : Option MemoryAutosaveRecord) : (s.reset record).Waiting :=
  ⟨hs.next.current, hs.next.earlier, fun run hrun => by cases hrun⟩

theorem waiting_dispose : s.dispose.Waiting :=
  ⟨hs.next.current, hs.next.earlier, fun run hrun => by cases hrun⟩

theorem waiting_setSource (source : String) : (s.setSource source).Waiting := by
  unfold setSource
  split_ifs
  · exact hs
  · apply Waiting.same _ (sameRun_schedule _)
    exact hs.same ⟨rfl, rfl, rfl, rfl⟩

theorem waiting_setComposing (composing : Bool) : (s.setComposing composing).Waiting := by
  unfold setComposing
  split_ifs
  · exact hs
  · exact hs.same ⟨rfl, rfl, rfl, rfl⟩
  · apply Waiting.same _ (sameRun_schedule _)
    exact hs.same ⟨rfl, rfl, rfl, rfl⟩

theorem waiting_markConflict (hphase : s.phase ≠ .saving)
    (record : Option MemoryAutosaveRecord) : (s.markConflict record).Waiting where
  current := hs.current
  earlier := hs.earlier
  phase run hrun := by
    have hwaits := hs.phase run hrun
    cases hpoint : run.point with
    | reconciling pending baseline => exact .inr rfl
    | ended => trivial
    | checking baseline submitted | writing baseline submitted | readback baseline submitted =>
      rw [hpoint] at hwaits
      exact absurd hwaits hphase

theorem waiting_observeCanonical (record : Option MemoryAutosaveRecord) :
    (s.observeCanonical record).Waiting := by
  unfold observeCanonical
  split
  · exact hs
  · exact hs
  · by_cases hsav : s.phase = .saving
    · rw [if_pos hsav]
      exact hs
    · rw [if_neg hsav]
      cases record with
      | none =>
        dsimp only
        split_ifs
        · exact waiting_reset hs none
        · exact waiting_markConflict hs hsav none
      | some record =>
        dsimp only
        split_ifs
        · exact hs
        · exact hs.same ⟨rfl, rfl, rfl, rfl⟩
        · exact hs
        · exact hs
        · exact hs.same ⟨rfl, rfl, rfl, rfl⟩
        · exact waiting_markConflict hs hsav _

end

/-! ## What a run does up to its next wait -/

/-- From `s` the run has gone to `resumed`: its next wait is one for the phase it leaves. -/
structure Goes (s : MemoryAutosave) (resumed : MemoryAutosave × Point) : Prop where
  stale : resumed.1.stale = s.stale
  generation : resumed.1.generation = s.generation
  waits : resumed.2.waitsIn resumed.1.phase

section

variable (s : MemoryAutosave) (generation : Nat)

theorem goes_drain : Goes s (s.drain generation) := by
  unfold drain
  split
  · exact ⟨rfl, rfl, trivial⟩
  · split_ifs
    · exact ⟨rfl, rfl, trivial⟩
    · exact ⟨rfl, rfl, trivial⟩
    · exact ⟨rfl, rfl, rfl⟩

theorem goes_drainReplay (submitted : String) : Goes s (s.drainReplay generation submitted) := by
  unfold drainReplay
  split
  · exact ⟨rfl, rfl, trivial⟩
  · split_ifs
    · exact ⟨rfl, rfl, trivial⟩
    · exact ⟨rfl, rfl, trivial⟩
    · exact ⟨rfl, rfl, rfl⟩

theorem goes_fail (id content : String) : Goes s (s.fail generation id content, .ended) := by
  unfold fail
  split_ifs
  all_goals exact ⟨rfl, rfl, trivial⟩

end

theorem Goes.after {u : MemoryAutosave} {resumed : MemoryAutosave × Point} (h : Goes u resumed)
    (hstale : u.stale = s.stale) (hgen : u.generation = s.generation) : Goes s resumed :=
  ⟨h.stale.trans hstale, h.generation.trans hgen, h.waits⟩

section

variable (hs : s.phase = .saving) (generation : Nat) (baseline : MemoryAutosaveBaseline)
  (submitted : String) (arrival : Arrival)
include hs

theorem goes_checked : Goes s (s.checked generation baseline submitted arrival) := by
  cases arrival with
  | wrote => exact goes_fail s _ _ _
  | failed => exact goes_fail s _ _ _
  | read record =>
    unfold checked
    dsimp only
    by_cases hover : generation ≠ s.generation
    · rw [if_pos hover]
      exact ⟨rfl, rfl, trivial⟩
    · rw [if_neg hover]
      cases found baseline.id record with
      | none => exact ⟨rfl, rfl, trivial⟩
      | some before =>
        dsimp only
        split_ifs
        · exact ⟨rfl, rfl, trivial⟩
        · exact ⟨rfl, rfl, trivial⟩
        · exact ⟨rfl, rfl, hs⟩

theorem goes_written : Goes s (s.written generation baseline submitted arrival) := by
  cases arrival with
  | read record => exact goes_fail s _ _ _
  | failed => exact goes_fail s _ _ _
  | wrote =>
    unfold written
    split_ifs
    · exact ⟨rfl, rfl, trivial⟩
    · exact ⟨rfl, rfl, hs⟩

end

theorem goes_readBack (generation : Nat) (baseline : MemoryAutosaveBaseline) (submitted : String)
    (arrival : Arrival) : Goes s (s.readBack generation baseline submitted arrival) := by
  cases arrival with
  | wrote => exact goes_fail s _ _ _
  | failed => exact goes_fail s _ _ _
  | read record =>
    unfold readBack
    dsimp only
    by_cases hover : generation ≠ s.generation
    · rw [if_pos hover]
      exact ⟨rfl, rfl, trivial⟩
    · rw [if_neg hover]
      cases found baseline.id record with
      | none => exact ⟨rfl, rfl, trivial⟩
      | some after =>
        dsimp only
        split_ifs
        · exact ⟨rfl, rfl, trivial⟩
        · exact (goes_drain _ _).after rfl rfl

theorem goes_reconciled (generation : Nat) (pending baseline : MemoryAutosaveBaseline)
    (arrival : Arrival) : Goes s (s.reconciled generation pending baseline arrival) := by
  cases arrival with
  | wrote => exact goes_fail s _ _ _
  | failed => exact goes_fail s _ _ _
  | read record =>
    unfold reconciled
    dsimp only
    by_cases hover : generation ≠ s.generation
    · rw [if_pos hover]
      exact ⟨rfl, rfl, trivial⟩
    · rw [if_neg hover]
      cases found pending.id record with
      | none => exact ⟨rfl, rfl, trivial⟩
      | some canonical =>
        dsimp only
        split_ifs
        · exact (goes_drain _ _).after rfl rfl
        · exact ⟨rfl, rfl, trivial⟩
        · exact ⟨rfl, rfl, trivial⟩
        · exact (goes_drainReplay _ _ _).after rfl rfl

theorem goes_resume (hs : run.point.waitsIn s.phase) : Goes s (s.resume run arrival) := by
  unfold resume
  cases hpoint : run.point with
  | checking baseline submitted =>
    rw [hpoint] at hs
    exact goes_checked hs _ _ _ _
  | writing baseline submitted =>
    rw [hpoint] at hs
    exact goes_written hs _ _ _ _
  | readback baseline submitted => exact goes_readBack _ _ _ _
  | reconciling pending baseline => exact goes_reconciled _ _ _ _
  | ended => exact ⟨rfl, rfl, trivial⟩

theorem resume_over (h : run.generation ≠ s.generation) : s.resume run arrival = (s, .ended) := by
  unfold resume
  cases hpoint : run.point with
  | ended => rfl
  | checking baseline submitted =>
    cases arrival <;> simp [checked, fail, h]
  | writing baseline submitted =>
    cases arrival <;> simp [written, fail, h]
  | readback baseline submitted =>
    cases arrival <;> simp [readBack, fail, h]
  | reconciling pending baseline =>
    cases arrival <;> simp [reconciled, fail, h]

theorem waiting_start {begun : MemoryAutosave × Point} (hs : s.Waiting) (h : Goes s begun) :
    (start begun).Waiting where
  current run hrun := by
    cases hrun
    rfl
  earlier run hmem := by
    show run.generation < begun.1.generation
    rw [h.generation]
    exact hs.earlier run (h.stale ▸ hmem)
  phase run hrun := by
    cases hrun
    exact h.waits

theorem waiting_flush (hs : s.Waiting) : s.flush.Waiting := by
  have hquiet : s.cancelTimer.Waiting := hs.same ⟨rfl, rfl, rfl, rfl⟩
  unfold flush
  dsimp only
  split_ifs
  · exact hquiet
  · exact waiting_start hquiet (goes_drain _ _)

theorem waiting_retry (hs : s.Waiting) : s.retry.Waiting := by
  have hquiet : s.cancelTimer.Waiting := hs.same ⟨rfl, rfl, rfl, rfl⟩
  unfold retry
  dsimp only
  split_ifs with hno
  · exact hquiet
  · apply waiting_start hquiet
    refine ⟨rfl, rfl, ?_⟩
    have herror : s.cancelTimer.phase = .error := by
      by_contra hne
      exact hno (.inr (.inr (.inl hne)))
    show Point.waitsIn _ s.cancelTimer.phase
    rw [herror]
    unfold retryUncertain
    split
    · split_ifs
      · exact .inl rfl
      · trivial
    · trivial

theorem waiting_step (hs : s.Waiting) (h : Step s event t) : t.Waiting := by
  unfold Step next at h
  cases event with
  | setSource source =>
    cases h
    exact waiting_setSource hs source
  | setComposing composing =>
    cases h
    exact waiting_setComposing hs composing
  | observeCanonical record =>
    cases h
    exact waiting_observeCanonical hs record
  | timer =>
    dsimp only at h
    split_ifs at h
    cases h
    apply waiting_flush
    exact hs.same ⟨rfl, rfl, rfl, rfl⟩
  | flush =>
    cases h
    exact waiting_flush hs
  | retry =>
    cases h
    exact waiting_retry hs
  | reset record =>
    cases h
    exact waiting_reset hs record
  | dispose =>
    cases h
    exact waiting_dispose hs
  | resume arrival =>
    dsimp only at h
    split at h
    · cases h
    · rename_i run hrun
      split_ifs at h with htakes
      cases h
      have hgoes := @goes_resume s run arrival (hs.phase run hrun)
      constructor
      · intro run' hrun'
        cases hrun'
        show run.generation = (s.resume run arrival).1.generation
        rw [hgoes.generation]
        exact hs.current run hrun
      · intro run' hmem
        show run'.generation < (s.resume run arrival).1.generation
        rw [hgoes.generation]
        exact hs.earlier run' (hgoes.stale ▸ hmem)
      · intro run' hrun'
        cases hrun'
        exact hgoes.waits
  | resumeStale run arrival =>
    dsimp only at h
    by_cases htakes : run ∈ s.stale ∧ run.point.takes arrival
    · rw [if_pos htakes] at h
      have hover := hs.earlier run htakes.1
      rw [resume_over (by omega), if_pos rfl] at h
      cases h
      refine ⟨hs.current, fun run' hmem => hs.earlier run' ?_, hs.phase⟩
      exact List.mem_of_mem_erase hmem
    · rw [if_neg htakes] at h
      cases h
  | settled =>
    dsimp only at h
    split at h
    · split_ifs at h
      cases h
      have hidle : ({ s with running := none } : MemoryAutosave).Waiting := waiting_idle hs
      unfold settled
      split_ifs
      · exact hidle.same (sameRun_schedule _)
      · exact hidle
    · cases h

theorem waiting_initial : initial.Waiting where
  current run hrun := by cases hrun
  earlier run hmem := by cases hmem
  phase run hrun := by cases hrun

theorem waiting_of_reaches (h : Reaches Step initial s) : s.Waiting :=
  h.invariant (fun _ _ _ hs hstep => waiting_step hs hstep) waiting_initial

/-! ## The conflict -/

/-- The phase and the writes are what they were. -/
def Untouched (s t : MemoryAutosave) : Prop :=
  t.phase = s.phase ∧ t.writes = s.writes

theorem untouched_schedule (s : MemoryAutosave) : Untouched s s.schedule := by
  unfold schedule
  split_ifs
  all_goals exact ⟨rfl, rfl⟩

theorem untouched_setSource (source : String) : Untouched s (s.setSource source) := by
  unfold setSource
  split_ifs
  · exact ⟨rfl, rfl⟩
  · exact untouched_schedule _

theorem untouched_setComposing (composing : Bool) : Untouched s (s.setComposing composing) := by
  unfold setComposing
  split_ifs
  · exact ⟨rfl, rfl⟩
  · exact ⟨rfl, rfl⟩
  · exact untouched_schedule _

theorem untouched_observeCanonical (hs : s.phase = .conflict)
    (record : Option MemoryAutosaveRecord) : Untouched s (s.observeCanonical record) := by
  unfold observeCanonical
  split
  · exact ⟨rfl, rfl⟩
  · exact ⟨rfl, rfl⟩
  · have hsav : s.phase ≠ .saving := by simp [hs]
    rw [if_neg hsav]
    cases record with
    | none =>
      have hclean : ∀ baseline, s.clean baseline = false := by simp [clean, hs]
      rw [hclean]
      exact ⟨hs.symm, rfl⟩
    | some record =>
      dsimp only
      rw [if_pos hs]
      split_ifs
      all_goals exact ⟨rfl, rfl⟩

theorem untouched_flush (hs : s.phase = .conflict) : Untouched s s.flush := by
  have hblock : s.cancelTimer.phase ≠ .idle := by
    show s.phase ≠ .idle
    simp [hs]
  unfold flush
  rw [if_pos (.inr (.inr (.inr hblock)))]
  exact ⟨rfl, rfl⟩

theorem untouched_retry (hs : s.phase = .conflict) : Untouched s s.retry := by
  have hblock : s.cancelTimer.phase ≠ .error := by
    show s.phase ≠ .error
    simp [hs]
  unfold retry
  rw [if_pos (.inr (.inr (.inl hblock)))]
  exact ⟨rfl, rfl⟩

theorem untouched_settled (run : Run) : Untouched s (s.settled run) := by
  unfold settled
  split_ifs
  · exact untouched_schedule _
  · exact ⟨rfl, rfl⟩

theorem phase_drain (hs : s.phase = .idle) (generation : Nat) :
    (s.drain generation).1.phase ≠ .conflict := by
  unfold drain
  split
  · simp [hs]
  · split_ifs
    · simp [hs]
    · simp [hs]
    · simp

theorem phase_drainReplay (hs : s.phase = .idle) (generation : Nat) (submitted : String) :
    (s.drainReplay generation submitted).1.phase ≠ .conflict := by
  unfold drainReplay
  split
  · simp [hs]
  · split_ifs
    · simp [hs]
    · simp
    · simp

/-- A retry leaves a conflict alone exactly when its read finds another conflict. -/
theorem reconciled_iff (pending baseline : MemoryAutosaveBaseline)
    (htakes : Point.takes (.reconciling pending baseline) arrival) :
    (s.reconciled s.generation pending baseline arrival).1.phase = .conflict ∧
        (s.reconciled s.generation pending baseline arrival).1.writes = s.writes ↔
      ¬ arrival.overrules pending baseline := by
  cases arrival with
  | wrote => cases htakes
  | failed => simp [reconciled, fail, Arrival.overrules]
  | read record =>
    unfold reconciled Arrival.overrules
    dsimp only
    rw [if_neg (not_not.mpr rfl)]
    cases hfound : found pending.id record with
    | none => simp [markConflict]
    | some canonical =>
      dsimp only
      by_cases hpending : canonical.content = pending.content
      · rw [if_pos hpending]
        refine iff_of_false ?_ ?_
        · rintro ⟨hphase, -⟩
          exact phase_drain rfl _ hphase
        · exact not_not.mpr ⟨canonical, rfl, .inl hpending⟩
      · rw [if_neg hpending]
        by_cases hbaseline : canonical.content = baseline.content
        · have hsame : ¬ canonical.content ≠ baseline.content := not_not.mpr hbaseline
          rw [if_neg hsame]
          refine iff_of_false ?_ ?_
          · rintro ⟨hphase, -⟩
            split_ifs at hphase
            exact phase_drainReplay rfl _ _ hphase
          · exact not_not.mpr ⟨canonical, rfl, .inr hbaseline⟩
        · rw [if_pos hbaseline]
          refine iff_of_true ⟨rfl, rfl⟩ ?_
          rintro ⟨other, hother, hcont⟩
          cases hother
          exact hcont.elim hpending hbaseline

theorem Waiting.retrying (hs : s.Waiting) (hconfl : s.phase = .conflict)
    (hrun : s.running = some run) (htakes : run.point.takes arrival) :
    ∃ pending baseline, run = ⟨s.generation, .reconciling pending baseline⟩ := by
  obtain ⟨generation, point⟩ := run
  have hgen : generation = s.generation := hs.current _ hrun
  have hwaits := hs.phase _ hrun
  subst hgen
  cases point with
  | reconciling pending baseline => exact ⟨pending, baseline, rfl⟩
  | ended => cases htakes
  | checking baseline submitted | writing baseline submitted | readback baseline submitted =>
    rw [hconfl] at hwaits
    cases hwaits

/-- The steps that are no arrival for the current run leave a conflict alone. -/
theorem sticky_of_not_resume (hs : s.Waiting) (h : Step s event t)
    (hevent : ∀ arrival, event ≠ .resume arrival) : Sticky s event t := by
  intro hconfl hreset
  have hto : Untouched s t → t.phase = .conflict ∧ t.writes = s.writes := fun hunt =>
    ⟨hunt.1.trans hconfl, hunt.2⟩
  apply hto
  unfold Step next at h
  cases event with
  | setSource source =>
    cases h
    exact untouched_setSource source
  | setComposing composing =>
    cases h
    exact untouched_setComposing composing
  | observeCanonical record =>
    cases h
    exact untouched_observeCanonical hconfl record
  | timer =>
    split_ifs at h
    cases h
    exact @untouched_flush { s with timer := false } hconfl
  | flush =>
    cases h
    exact untouched_flush hconfl
  | retry =>
    cases h
    exact untouched_retry hconfl
  | reset record => exact absurd rfl (hreset record)
  | dispose =>
    cases h
    exact ⟨rfl, rfl⟩
  | resume arrival => exact absurd rfl (hevent arrival)
  | resumeStale run arrival =>
    dsimp only at h
    by_cases htakes : run ∈ s.stale ∧ run.point.takes arrival
    · rw [if_pos htakes] at h
      have hover := hs.earlier run htakes.1
      rw [resume_over (by omega)] at h
      cases h
      exact ⟨rfl, rfl⟩
    · rw [if_neg htakes] at h
      cases h
  | settled =>
    dsimp only at h
    split at h
    · split_ifs at h
      cases h
      exact untouched_settled _
    · cases h

theorem sticky_resume_iff (hs : s.Waiting) (h : Step s (.resume arrival) t) :
    Sticky s (.resume arrival) t ↔ ¬ Overruns s (.resume arrival) := by
  by_cases hconfl : s.phase = .conflict
  · have hnor : ∀ record, Event.resume arrival ≠ .reset record := by simp
    unfold Step next at h
    dsimp only at h
    split at h
    · cases h
    · rename_i run hrun
      split_ifs at h with htakes
      cases h
      obtain ⟨pending, baseline, rfl⟩ := hs.retrying hconfl hrun htakes
      have hgoes := @reconciled_iff s arrival pending baseline htakes
      have hoverru : Overruns s (.resume arrival) ↔ arrival.overrules pending baseline := by
        constructor
        · rintro ⟨-, generation, pending', baseline', arrival', hrun', hevent, hoverrules⟩
          rw [hrun] at hrun'
          cases hrun'
          cases hevent
          exact hoverrules
        · intro hoverrules
          exact ⟨hconfl, _, pending, baseline, arrival, hrun, rfl, hoverrules⟩
      rw [hoverru, ← hgoes]
      constructor
      · intro hstick
        exact hstick hconfl hnor
      · intro hkept _ _
        exact hkept
  · apply iff_of_true
    · intro hconfl'
      exact absurd hconfl' hconfl
    · intro hoverru
      exact hconfl hoverru.1

theorem sticky_iff (hs : s.Waiting) (h : Step s event t) :
    Sticky s event t ↔ ¬ Overruns s event := by
  by_cases hresume : ∃ arrival, event = .resume arrival
  · obtain ⟨arrival, rfl⟩ := hresume
    exact sticky_resume_iff hs h
  · have hevent : ∀ arrival, event ≠ .resume arrival := fun arrival heq => hresume ⟨arrival, heq⟩
    apply iff_of_true (sticky_of_not_resume hs h hevent)
    rintro ⟨-, generation, pending, baseline, arrival, -, heq, -⟩
    exact hevent arrival heq

/-- Neither a reset nor a retry that overruns the conflict. -/
def Keeps (s : MemoryAutosave) (event : Event) : Prop :=
  (∀ record, event ≠ .reset record) ∧ ¬ Overruns s event

/-- In every state that can be reached, a step leaves a conflict as it is exactly when it is not a
retry that overruns it; along steps that do not, a conflict stays and nothing is written. -/
theorem conflict_sticky_iff {s : MemoryAutosave} (hreach : Reaches Step initial s) :
    (∀ event t, Step s event t → (Sticky s event t ↔ ¬ Overruns s event)) ∧
      ∀ t, s.phase = .conflict → Reaches (Restrict Step Keeps) s t →
        t.phase = .conflict ∧ t.writes = s.writes := by
  constructor
  · intro event t hstep
    exact sticky_iff (waiting_of_reaches hreach) hstep
  · intro t hconfl hrun
    have hkept : t.Waiting ∧ t.phase = .conflict ∧ t.writes = s.writes := by
      apply hrun.invariant _ ⟨waiting_of_reaches hreach, hconfl, rfl⟩
      rintro u event v ⟨hwait, hphase, hwrit⟩ ⟨hkeeps, hstep⟩
      have hstick := (sticky_iff hwait hstep).mpr hkeeps.2
      obtain ⟨hphase', hwrit'⟩ := hstick hphase hkeeps.1
      exact ⟨waiting_step hwait hstep, hphase', hwrit'.trans hwrit⟩
    exact hkept.2

/-- An edit is saved, and its write fails without an answer. -/
def failedSave : List Event :=
  [.reset (some ⟨"m", "a"⟩), .setSource "b", .flush, .resume (.read (some ⟨"m", "a"⟩)),
    .resume .failed, .settled]

def deletedMeanwhile : List Event := failedSave ++ [.observeCanonical none]

def deletedDuringRetry : List Event := failedSave ++ [.retry, .observeCanonical none]

theorem conflict_sticky_iff_edited : ∃ s t, Reaches Step initial s ∧ s.phase = .conflict ∧
    Step s (.setSource "c") t ∧ Sticky s (.setSource "c") t ∧ t.writes = s.writes := by
  have hrun : (deletedMeanwhile.foldlM next initial).any
      (fun s => decide (s.phase = .conflict ∧ s.disposed = false)) = true := by
    decide +kernel
  obtain ⟨s, hreach, hconfl, -⟩ := Run.of_foldlM_any (fun _ _ _ h => h) hrun
  have hstep : Step s (.setSource "c") (s.setSource "c") := rfl
  have hkeeps : Keeps s (.setSource "c") := by
    refine ⟨by simp, ?_⟩
    rintro ⟨-, generation, pending, baseline, arrival, -, hevent, -⟩
    cases hevent
  refine ⟨s, s.setSource "c", ⟨_, hreach⟩, hconfl, hstep, ?_, ?_⟩
  · exact ((conflict_sticky_iff ⟨_, hreach⟩).1 _ _ hstep).mpr hkeeps.2
  · exact ((conflict_sticky_iff ⟨_, hreach⟩).2 _ hconfl ⟨_, .single ⟨hkeeps, hstep⟩⟩).2

/-- The memory is deleted while the retry reads; the read was answered before, and the retry saves
over the deletion. -/
theorem retry_overruns_deletion : ¬ ∀ s event t, Reaches Step initial s → Step s event t →
    Sticky s event t := by
  intro hstick
  have hrun : (deletedDuringRetry.foldlM next initial).any
      (fun s => decide (s.phase = .conflict ∧ (s.next (.resume (.read (some ⟨"m", "a"⟩)))).any
        (fun t => decide (t.phase = .saving)) = true)) = true := by
    decide +kernel
  obtain ⟨s, hreach, hconfl, hres⟩ := Run.of_foldlM_any (fun _ _ _ h => h) hrun
  obtain ⟨t, hstep, hsav⟩ := (Option.any_eq_true _ _).mp hres
  have hkept := hstick s _ t ⟨_, hreach⟩ hstep hconfl (by simp)
  rw [of_decide_eq_true hsav] at hkept
  cases hkept.1

end MemoryAutosave

end Wenlan.Editor
