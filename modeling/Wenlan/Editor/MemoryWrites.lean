import Wenlan.Editor.MemoryConflict

/-!
# Writes of the memory autosave

A write answers a read of the current run that has found the baseline, and none is made while the
outcome of an earlier one is uncertain.
-/

namespace Wenlan.Editor

open Support.Transition

namespace MemoryAutosave

variable {s t u : MemoryAutosave} {run : Run} {arrival : Arrival} {event : Event}

/-- The outcome of every write is known. -/
def Certain (s : MemoryAutosave) : Prop :=
  s.phase = .idle ∨ s.phase = .saving → s.uncertain = none

/-- Nothing is written. -/
structure Calm (s t : MemoryAutosave) : Prop where
  writes : t.writes = s.writes
  certain : Certain s → Certain t

theorem Calm.after (h' : Calm t u) (h : Calm s t) : Calm s u :=
  ⟨h'.writes.trans h.writes, fun hs => h'.certain (h.certain hs)⟩

theorem calm_conflict (record : Option MemoryAutosaveRecord) : Calm s (s.markConflict record) := by
  refine ⟨rfl, fun _ => ?_⟩
  rintro (hphase | hphase) <;> cases hphase

theorem calm_schedule : Calm s s.schedule := by
  unfold schedule
  split <;> exact ⟨rfl, id⟩

theorem calm_drain (generation : Nat) : Calm s (s.drain generation).1 := by
  unfold drain
  split
  · exact ⟨rfl, id⟩
  · split_ifs with hstop
    · exact ⟨rfl, id⟩
    · exact ⟨rfl, id⟩
    · refine ⟨rfl, fun hs _ => hs (.inl ?_)⟩
      by_contra hne
      exact hstop (.inr (.inr (.inl hne)))

theorem calm_drainReplay (hs : s.uncertain = none) (generation : Nat) (submitted : String) :
    Calm s (s.drainReplay generation submitted).1 := by
  unfold drainReplay
  split
  · exact ⟨rfl, id⟩
  · split_ifs
    · exact ⟨rfl, id⟩
    · exact ⟨rfl, fun _ _ => hs⟩
    · exact ⟨rfl, fun _ _ => hs⟩

theorem calm_fail (generation : Nat) (id content : String) :
    Calm s (s.fail generation id content) := by
  unfold fail
  split
  · exact ⟨rfl, fun hs => hs⟩
  · refine ⟨rfl, fun _ => ?_⟩
    rintro (hphase | hphase) <;> cases hphase

theorem calm_observeCanonical (record : Option MemoryAutosaveRecord) :
    Calm s (s.observeCanonical record) := by
  unfold observeCanonical
  repeat' split
  all_goals first
    | exact ⟨rfl, id⟩
    | exact calm_conflict _
    | exact ⟨rfl, fun _ _ => rfl⟩

theorem calm_flush : Calm s s.flush := by
  unfold flush
  dsimp only
  split
  · exact ⟨rfl, id⟩
  · have hdrain := @calm_drain s.cancelTimer s.generation
    exact ⟨hdrain.writes, hdrain.certain⟩

theorem calm_retry : Calm s s.retry := by
  unfold retry
  dsimp only
  split <;> exact ⟨rfl, id⟩

/-- The run goes on from the read before its write, which has found the baseline. -/
structure Writes (s : MemoryAutosave) (event : Event) (t : MemoryAutosave)
    (baseline : MemoryAutosaveBaseline) (submitted : String) : Prop where
  waited : s.running = some ⟨s.generation, .checking baseline submitted⟩
  read : ∃ before, event = .resume (.read (some before)) ∧ before.sourceId = baseline.id ∧
    before.content = baseline.content
  composed : s.composing = false
  goes : t = { s with
    writes := ⟨baseline.id, submitted, baseline.content⟩ :: s.writes
    running := some ⟨s.generation, .writing baseline submitted⟩ }

theorem calm_or_checked (hwait : s.Waiting) {generation : Nat} {baseline : MemoryAutosaveBaseline}
    {submitted : String} (hrun : s.running = some ⟨generation, .checking baseline submitted⟩)
    (record : Option MemoryAutosaveRecord) {resumed : MemoryAutosave × Point}
    (hres : s.checked generation baseline submitted (.read record) = resumed) :
    Calm s resumed.1 ∨ Writes s (.resume (.read record))
      { resumed.1 with running := some ⟨generation, resumed.2⟩ } baseline submitted := by
  have hphase : s.phase = .saving := hwait.phase _ hrun
  obtain rfl : generation = s.generation := hwait.current _ hrun
  subst hres
  unfold checked
  dsimp only
  rw [if_neg (not_not.mpr rfl)]
  cases hfound : found baseline.id record with
  | none => exact .inl (calm_conflict none)
  | some before =>
    obtain ⟨rfl, hid⟩ := Option.filter_eq_some_iff.mp hfound
    dsimp only
    split_ifs with hcontent hcomposed
    · exact .inl (calm_conflict _)
    · exact .inl ⟨rfl, fun hs _ => hs (.inr hphase)⟩
    · exact .inr ⟨hrun, ⟨before, rfl, beq_iff_eq.mp hid, not_not.mp hcontent⟩,
        Bool.eq_false_iff.mpr hcomposed, rfl⟩

theorem calm_or_writes (hwait : s.Waiting) (hrun : s.running = some run) :
    Calm s (s.resume run arrival).1 ∨ ∃ baseline submitted, Writes s (.resume arrival)
      { (s.resume run arrival).1 with
        running := some { run with point := (s.resume run arrival).2 } } baseline submitted := by
  obtain ⟨generation, point⟩ := run
  unfold resume
  cases point with
  | ended => exact .inl ⟨rfl, id⟩
  | checking baseline submitted =>
    cases arrival with
    | wrote | failed => exact .inl (calm_fail _ _ _)
    | read record =>
      exact (calm_or_checked hwait hrun record rfl).imp_right fun h => ⟨baseline, submitted, h⟩
  | writing baseline submitted =>
    left
    cases arrival with
    | read | failed => exact calm_fail _ _ _
    | wrote =>
      dsimp only [written]
      split <;> exact ⟨rfl, id⟩
  | readback baseline submitted =>
    left
    cases arrival with
    | wrote | failed => exact calm_fail _ _ _
    | read record =>
      dsimp only [readBack]
      repeat' split
      all_goals first
        | exact ⟨rfl, id⟩
        | exact calm_conflict _
        | exact (calm_drain _).after ⟨rfl, fun _ _ => rfl⟩
  | reconciling pending baseline =>
    left
    cases arrival with
    | wrote | failed => exact calm_fail _ _ _
    | read record =>
      dsimp only [reconciled]
      repeat' split
      all_goals first
        | exact ⟨rfl, id⟩
        | exact calm_conflict _
        | exact ⟨rfl, fun _ _ => rfl⟩
        | exact (calm_drain _).after ⟨rfl, fun _ _ => rfl⟩
        | exact (calm_drainReplay rfl _ _).after ⟨rfl, fun _ _ => rfl⟩

theorem calm_or_writes_step (hwait : s.Waiting) (h : Step s event t) :
    Calm s t ∨ ∃ baseline submitted, Writes s event t baseline submitted := by
  unfold Step next at h
  cases event with
  | resume arrival =>
    dsimp only at h
    split at h
    · cases h
    · next run hrun =>
      split_ifs at h
      cases h
      exact (calm_or_writes hwait hrun).imp_left fun h => ⟨h.writes, h.certain⟩
  | resumeStale run arrival =>
    left
    dsimp only at h
    by_cases htakes : run ∈ s.stale ∧ run.point.takes arrival
    · have hover := hwait.earlier run htakes.1
      rw [if_pos htakes, resume_over (by omega)] at h
      cases h
      exact ⟨rfl, id⟩
    · rw [if_neg htakes] at h
      cases h
  | setSource source =>
    cases h
    unfold setSource
    split
    · exact .inl ⟨rfl, id⟩
    · exact .inl (calm_schedule.after ⟨rfl, id⟩)
  | setComposing composing =>
    cases h
    unfold setComposing
    split_ifs
    · exact .inl ⟨rfl, id⟩
    · exact .inl ⟨rfl, id⟩
    · exact .inl (calm_schedule.after ⟨rfl, id⟩)
  | observeCanonical record =>
    cases h
    exact .inl (calm_observeCanonical record)
  | timer =>
    dsimp only at h
    split_ifs at h
    cases h
    exact .inl (calm_flush.after ⟨rfl, id⟩)
  | flush =>
    cases h
    exact .inl calm_flush
  | retry =>
    cases h
    exact .inl calm_retry
  | reset record =>
    cases h
    exact .inl ⟨rfl, fun _ _ => rfl⟩
  | dispose =>
    cases h
    exact .inl ⟨rfl, id⟩
  | settled =>
    left
    dsimp only at h
    split at h
    · split_ifs at h
      cases h
      unfold settled
      split
      · exact calm_schedule.after ⟨rfl, id⟩
      · exact ⟨rfl, id⟩
    · cases h

theorem certain_of_reaches (h : Reaches Step initial s) : Certain s := by
  have hboth : s.Waiting ∧ Certain s := by
    apply h.invariant _ ⟨waiting_initial, fun _ => rfl⟩
    rintro s event t ⟨hwait, hs⟩ hstep
    refine ⟨waiting_step hwait hstep, ?_⟩
    rcases calm_or_writes_step hwait hstep with hcalm | ⟨baseline, submitted, hwrites⟩
    · exact hcalm.certain hs
    · rw [hwrites.goes]
      exact hs
  exact hboth.2

/-- The save that failed is tried again, over the text that it was to replace. -/
def retriedSave : List Event := failedSave ++ [.retry, .resume (.read (some ⟨"m", "a"⟩))]

end MemoryAutosave

end Wenlan.Editor
