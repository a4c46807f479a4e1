import Mathlib.Logic.Function.Basic

/-!
# Parent links

A partial map `up` from each node to its parent.  `Climbs` says that a node reaches a given
root through live nodes only; being inductive it also says that the way up has no cycle.
`meets` is the bounded walk that a program makes before it gives a node another parent.
-/

namespace Wenlan.Support.Spine

variable {α : Type*}

/-- `x` reaches `root` by parent links, through live nodes only. -/
inductive Climbs (up : α → Option α) (live : α → Prop) (root : α) : α → Prop
  | root : live root → up root = none → Climbs up live root root
  | step {x p : α} : live x → up x = some p → Climbs up live root p → Climbs up live root x

/-- The walk from `x` towards the root meets `target`, or is longer than `fuel`. -/
def meets [DecidableEq α] (up : α → Option α) (target : α) : Nat → α → Bool
  | 0, _ => true
  | fuel + 1, x =>
    if x = target then true
    else
      match up x with
      | some p => meets up target fuel p
      | none => false

variable {up up' : α → Option α} {live live' : α → Prop} {root x p target : α}

theorem Climbs.mono (h : Climbs up live root x) (hlive : ∀ y, live y → live' y)
    (hup : ∀ y, live y → up' y = up y) : Climbs up' live' root x := by
  induction h with
  | root hroot hnone => exact .root (hlive _ hroot) ((hup _ hroot).trans hnone)
  | step hx hpar _ ih => exact .step (hlive _ hx) ((hup _ hx).trans hpar) ih

/-- A node that is on nobody's way up can change freely. -/
theorem Climbs.of_childless (h : Climbs up live root x) (hne : x ≠ target)
    (hchild : ∀ y, live y → up y ≠ some target) (hlive : ∀ y ≠ target, live y → live' y)
    (hup : ∀ y ≠ target, up' y = up y) : Climbs up' live' root x := by
  induction h with
  | root hroot hnone => exact .root (hlive _ hne hroot) ((hup _ hne).trans hnone)
  | @step y p hy hpar _ ih =>
    have hp : p ≠ target := by
      rintro rfl
      exact hchild y hy hpar
    exact .step (hlive _ hne hy) ((hup _ hne).trans hpar) (ih hp)

section Reparent

variable [DecidableEq α]

variable {fuel : Nat}

theorem Climbs.of_meets (h : Climbs up live root x)
    (hmeets : meets up target fuel x = false) (hlive : ∀ y, live y → live' y)
    (hup : ∀ y ≠ target, up' y = up y) : Climbs up' live' root x := by
  induction h generalizing fuel with
  | root hroot hnone =>
    cases fuel with
    | zero => simp [meets] at hmeets
    | succ fuel =>
      have hne : root ≠ target := by
        rintro rfl
        simp [meets] at hmeets
      exact .root (hlive _ hroot) ((hup _ hne).trans hnone)
  | @step y p hy hpar _ ih =>
    cases fuel with
    | zero => simp [meets] at hmeets
    | succ fuel =>
      have hne : y ≠ target := by
        rintro rfl
        simp [meets] at hmeets
      rw [meets, if_neg hne, hpar] at hmeets
      exact .step (hlive _ hy) ((hup _ hne).trans hpar) (ih hmeets)

/-- A node gets another parent whose way up does not meet it: everybody still climbs. -/
theorem Climbs.reparent (h : Climbs up live root x) (hpar : Climbs up live root p)
    (hmeets : meets up target fuel p = false) (htarg : live' target)
    (hlive : ∀ y, live y → live' y) (hup : ∀ y ≠ target, up' y = up y)
    (hnew : up' target = some p) : Climbs up' live' root x := by
  have hclimb : Climbs up' live' root target :=
    .step htarg hnew (hpar.of_meets hmeets hlive hup)
  have hroot : ∀ y, live y → up y = none → y = root → y ≠ target →
      Climbs up' live' root y := by
    rintro y hy hnone rfl hne
    exact .root (hlive y hy) ((hup y hne).trans hnone)
  induction h with
  | root hlive' hnone =>
    by_cases hne : root = target
    · rw [← hne] at hclimb
      exact hclimb
    · exact hroot root hlive' hnone rfl hne
  | @step y q hy hq _ ih =>
    by_cases hne : y = target
    · rw [hne]
      exact hclimb
    · exact .step (hlive y hy) ((hup y hne).trans hq) ih

end Reparent

end Wenlan.Support.Spine
