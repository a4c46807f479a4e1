import Mathlib.Order.Preorder.Finite
import Mathlib.Logic.Relation

/-!
# Trails

Every place has at most one pointer to another place.  With finitely many places to point to, the
pointers from a place either come to an end or run in a circle.
-/

namespace Wenlan.Support.Pointers

open Relation

variable {α : Type*} {next : α → Option α} {place other : α} {trail : List α}

/-- The places from `place` to the end of its pointers, in order. -/
inductive Trail (next : α → Option α) : α → List α → Prop
  | last {place : α} : next place = none → Trail next place [place]
  | step {place other : α} {trail : List α} :
      next place = some other → Trail next other trail → Trail next place (place :: trail)

def Cyclic (next : α → Option α) (place : α) : Prop :=
  ∃ other, ReflTransGen (fun a b => next a = some b) place other ∧
    TransGen (fun a b => next a = some b) other other

theorem cyclic_of_step (h : next place = some other) (hcyclic : Cyclic next place) :
    Cyclic next other := by
  obtain ⟨first, hpath, hcircle⟩ := hcyclic
  cases ReflTransGen.cases_head hpath with
  | inl hsame =>
    subst hsame
    obtain ⟨second, hsecond, hback⟩ := TransGen.head'_iff.mp hcircle
    obtain rfl : second = other := Option.mem_unique hsecond h
    exact ⟨place, hback, hcircle⟩
  | inr hstep =>
    obtain ⟨second, hsecond, hrest⟩ := hstep
    obtain rfl : second = other := Option.mem_unique hsecond h
    exact ⟨first, hrest, hcircle⟩

/-- Pointers that come to an end run in no circle. -/
theorem Trail.not_cyclic (h : Trail next place trail) : ¬ Cyclic next place := by
  induction h with
  | last hnone =>
    rintro ⟨other, hpath, hcircle⟩
    have hpath' := TransGen.trans_right hpath hcircle
    obtain ⟨second, hsecond, -⟩ := TransGen.head'_iff.mp hpath'
    rw [hnone] at hsecond
    cases hsecond
  | step hnext _ ih => exact fun hcyclic => ih (cyclic_of_step hnext hcyclic)

/-- With finitely many places to point to, pointers that come to no end run in a circle. -/
theorem exists_trail (places : List α) (hplaces : ∀ a b, next a = some b → b ∈ places)
    (hcyclic : ¬ Cyclic next place) : ∃ trail, Trail next place trail := by
  by_contra hnone
  let after : α → α := fun a => (next a).getD a
  have hnext : ∀ n, next (after^[n] place) = some (after^[n + 1] place) ∧
      ¬ ∃ trail, Trail next (after^[n] place) trail := by
    have hstep : ∀ a, (¬ ∃ trail, Trail next a trail) → next a = some (after a) := by
      intro a ha
      cases hcase : next a with
      | none => exact absurd ⟨_, .last hcase⟩ ha
      | some b => simp [after, hcase]
    intro n
    induction n with
    | zero => exact ⟨hstep place hnone, hnone⟩
    | succ n ih =>
      have hlost : ¬ ∃ trail, Trail next (after^[n + 1] place) trail := by
        rintro ⟨trail, htrail⟩
        exact ih.2 ⟨_, .step ih.1 htrail⟩
      refine ⟨?_, hlost⟩
      rw [hstep _ hlost, ← Function.iterate_succ_apply' after]
  have hpath : ∀ n k, ReflTransGen (fun a b => next a = some b) (after^[n] place)
      (after^[n + k] place) := by
    intro n k
    induction k with
    | zero => exact .refl
    | succ k ih => exact ih.tail (hnext (n + k)).1
  obtain ⟨i, j, hlt, hback⟩ := Set.Finite.exists_lt_map_eq_of_forall_mem
    (f := fun n => after^[n + 1] place) (fun n => hplaces _ _ (hnext n).1) places.finite_toSet
  refine hcyclic ⟨after^[i + 1] place, by simpa using hpath 0 (i + 1), ?_⟩
  refine TransGen.head' (hnext (i + 1)).1 ?_
  have hrest := hpath (i + 2) (j - i - 1)
  rw [show i + 2 + (j - i - 1) = j + 1 by omega, ← hback] at hrest
  exact hrest

/-- The trail as far as `limit` places go. -/
def walk (next : α → Option α) : ℕ → α → Option (List α)
  | 0, _ => none
  | limit + 1, place =>
    match next place with
    | none => some [place]
    | some other => (walk next limit other).map (place :: ·)

theorem walk_eq_some {limit : ℕ} :
    walk next limit place = some trail ↔ Trail next place trail ∧ trail.length ≤ limit := by
  induction limit generalizing place trail with
  | zero =>
    simp only [walk, reduceCtorEq, false_iff, not_and]
    intro h
    cases h <;> simp
  | succ limit ih =>
    unfold walk
    constructor
    · intro h
      cases hcase : next place with
      | none =>
        rw [hcase] at h
        obtain rfl := Option.some.inj h
        exact ⟨.last hcase, by simp⟩
      | some other =>
        rw [hcase] at h
        obtain ⟨rest, hrest, rfl⟩ := Option.map_eq_some_iff.mp h
        obtain ⟨htrail, hlength⟩ := ih.mp hrest
        exact ⟨.step hcase htrail, by simpa using hlength⟩
    · rintro ⟨h, hlength⟩
      cases h with
      | last hnone => rw [hnone]
      | step hnext hrest =>
        rw [hnext]
        change Option.map _ (walk next limit _) = _
        rw [ih.mpr ⟨hrest, by simpa using hlength⟩]
        rfl

end Wenlan.Support.Pointers
