import Mathlib.Order.Basic
import Mathlib.Logic.Relation

/-!
# Labelled transition systems and their runs

A step relation is indexed by labels; a run is a finite sequence of steps with
the labels it took.  Nothing here knows what the states are.  The rules at the
end are the ones safety proofs use: an invariant is established once for the
step and once for the start, a guarded invariant also looks at the label, and a
monotone quantity never goes down along a run.
-/

namespace Wenlan.Support.Transition

variable {State Label : Type*}

/-- `Run step s labels t`: taking `labels` in order leads from `s` to `t`. -/
inductive Run (step : State → Label → State → Prop) : State → List Label → State → Prop
  | refl (s : State) : Run step s [] s
  | cons {s m t : State} {label : Label} {labels : List Label} :
      step s label m → Run step m labels t → Run step s (label :: labels) t

/-- `t` can be reached from `s`. -/
def Reaches (step : State → Label → State → Prop) (s t : State) : Prop :=
  ∃ labels, Run step s labels t

/-- The steps of `step` whose source state and label meet `guard`. -/
def Restrict (step : State → Label → State → Prop) (guard : State → Label → Prop) :
    State → Label → State → Prop :=
  fun s label t => guard s label ∧ step s label t

namespace Run

variable {step : State → Label → State → Prop} {s m t : State}
  {labels rest : List Label} {label : Label}

theorem single (h : step s label t) : Run step s [label] t :=
  .cons h (.refl t)

theorem append (h : Run step s labels m) (h' : Run step m rest t) :
    Run step s (labels ++ rest) t := by
  induction h with
  | refl => exact h'
  | cons hstep _ ih => exact .cons hstep (ih h')

theorem snoc (h : Run step s labels m) (h' : step m label t) : Run step s (labels ++ [label]) t :=
  h.append (single h')

theorem cons_iff : Run step s (label :: labels) t ↔ ∃ m, step s label m ∧ Run step m labels t := by
  constructor
  · rintro (_ | ⟨hstep, hrest⟩)
    exact ⟨_, hstep, hrest⟩
  · rintro ⟨m, hstep, hrest⟩
    exact .cons hstep hrest

theorem mono {step' : State → Label → State → Prop}
    (himp : ∀ s label t, step s label t → step' s label t)
    (h : Run step s labels t) : Run step' s labels t := by
  induction h with
  | refl s => exact .refl s
  | cons hstep _ ih => exact .cons (himp _ _ _ hstep) ih

theorem invariant {Inv : State → Prop} (hstep : ∀ s label t, Inv s → step s label t → Inv t)
    (h : Run step s labels t) (hs : Inv s) : Inv t := by
  induction h with
  | refl => exact hs
  | cons hone _ ih => exact ih (hstep _ _ _ hs hone)

/-- The invariant rule relative to a second invariant that is already known. -/
theorem invariant_of {Known Inv : State → Prop}
    (hknown : ∀ s label t, Known s → step s label t → Known t)
    (hstep : ∀ s label t, Known s → Inv s → step s label t → Inv t)
    (h : Run step s labels t) (hk : Known s) (hs : Inv s) : Inv t := by
  have hboth : Known t ∧ Inv t := by
    have hstart : Known s ∧ Inv s := ⟨hk, hs⟩
    induction h with
    | refl => exact hstart
    | cons hone _ ih =>
      have hmid := hknown _ _ _ hstart.1 hone
      have hinv := hstep _ _ _ hstart.1 hstart.2 hone
      exact ih hmid hinv ⟨hmid, hinv⟩
  exact hboth.2

/-- The guarded invariant rule: only the labels of the run have to preserve it. -/
theorem invariant_on {Inv : State → Prop} {Allowed : Label → Prop}
    (hstep : ∀ s label t, Allowed label → Inv s → step s label t → Inv t)
    (h : Run step s labels t) (hlab : ∀ label ∈ labels, Allowed label) (hs : Inv s) : Inv t := by
  induction h with
  | refl => exact hs
  | cons hone _ ih =>
    exact ih (fun l hl => hlab l (List.mem_cons_of_mem _ hl))
      (hstep _ _ _ (hlab _ List.mem_cons_self) hs hone)

theorem le_of_step {R : State → State → Prop} (hrefl : ∀ s, R s s)
    (htrans : ∀ s m t, R s m → R m t → R s t)
    (hstep : ∀ s label t, step s label t → R s t) (h : Run step s labels t) : R s t := by
  induction h with
  | refl s => exact hrefl s
  | cons hone _ ih => exact htrans _ _ _ (hstep _ _ _ hone) ih

/-- A run of a step function, if it is one of the relation for the labels it takes. -/
theorem of_foldlM {next : State → Label → Option State} {Allowed : Label → Prop}
    (himp : ∀ s label t, Allowed label → next s label = some t → step s label t)
    {labels : List Label} {t : State} : ∀ {s : State}, (∀ label ∈ labels, Allowed label) →
      labels.foldlM next s = some t → Run step s labels t := by
  induction labels with
  | nil =>
    intro s _ h
    obtain rfl := Option.some.inj h
    exact .refl s
  | cons label labels ih =>
    intro s hlab h
    rw [List.forall_mem_cons] at hlab
    rw [List.foldlM_cons] at h
    obtain ⟨m, hone, hrest⟩ := Option.bind_eq_some_iff.mp h
    exact .cons (himp _ _ _ hlab.1 hone) (ih hlab.2 hrest)

/-- Running a step function and finding `P` at the end gives a run to a state with `P`. -/
theorem of_foldlM_any {next : State → Label → Option State}
    (himp : ∀ s label t, next s label = some t → step s label t) {P : State → Prop}
    [DecidablePred P] (h : (labels.foldlM next s).any (P)) :
    ∃ t, Run step s labels t ∧ P t := by
  obtain ⟨t, hfold, hholds⟩ := (Option.any_eq_true _ _).mp h
  have himp' : ∀ s label t, True → next s label = some t → step s label t :=
    fun s label t _ => himp s label t
  exact ⟨t, of_foldlM himp' (fun _ _ => trivial) hfold, of_decide_eq_true hholds⟩

theorem of_restrict {guard : State → Label → Prop}
    (h : Run (Restrict step guard) s labels t) : Run step s labels t :=
  h.mono fun _ _ _ hone => hone.2

end Run

namespace Reaches

variable {step : State → Label → State → Prop} {s m t : State}

theorem refl (s : State) : Reaches step s s :=
  ⟨[], .refl s⟩

theorem trans (h : Reaches step s m) (h' : Reaches step m t) : Reaches step s t := by
  obtain ⟨left, hleft⟩ := h
  obtain ⟨right, hright⟩ := h'
  exact ⟨left ++ right, hleft.append hright⟩

theorem invariant {Inv : State → Prop} (hstep : ∀ s label t, Inv s → step s label t → Inv t)
    (h : Reaches step s t) (hs : Inv s) : Inv t := by
  obtain ⟨labels, hrun⟩ := h
  exact hrun.invariant hstep hs

end Reaches

end Wenlan.Support.Transition
