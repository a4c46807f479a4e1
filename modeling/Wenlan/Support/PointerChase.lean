import Mathlib.Logic.Relation

/-!
# Following pointers to a goal

Every place has at most one pointer to another place, and some places are goals with a value.  A
chain of pointers from a place leads to the value of the first goal on it, if there is one.
-/

namespace Support.PointerChase

open Relation.ReflTransGen

variable {α β : Type*} {next : α → Option α} {goal : α → Option β}

def Step (next : α → Option α) (goal : α → Option β) (place other : α) : Prop :=
  goal place = none ∧ next place = some other

def Leads (next : α → Option α) (goal : α → Option β) (place : α) (value : β) : Prop :=
  ∃ last, Relation.ReflTransGen (Step next goal) place last ∧ goal last = some value

theorem Step.unique {place first second : α} (h : Step next goal place first)
    (h' : Step next goal place second) : first = second :=
  Option.mem_unique h.2 h'.2

/-- A goal leads to its own value only. -/
theorem leads_goal {place : α} {value : β} (h : goal place = some value) (other : β) :
    Leads next goal place other ↔ other = value := by
  constructor
  · rintro ⟨last, hpath, hlast⟩
    cases cases_head hpath with
    | inl hsame =>
      rw [← hsame, h] at hlast
      exact (Option.some.inj hlast).symm
    | inr hstep =>
      obtain ⟨_, ⟨hnone, -⟩, -⟩ := hstep
      rw [h] at hnone
      cases hnone
  · rintro rfl
    exact ⟨place, .refl, h⟩

theorem leads_iff_of_step {place other : α} (h : Step next goal place other) (value : β) :
    Leads next goal place value ↔ Leads next goal other value := by
  constructor
  · rintro ⟨last, hpath, hlast⟩
    cases cases_head hpath with
    | inl hsame =>
      rw [← hsame, h.1] at hlast
      cases hlast
    | inr hstep =>
      obtain ⟨second, hfirst, hrest⟩ := hstep
      rw [hfirst.unique h] at hrest
      exact ⟨last, hrest, hlast⟩
  · rintro ⟨last, hpath, hlast⟩
    exact ⟨last, hpath.head h, hlast⟩

theorem leads_iff_of_path {place other : α}
    (h : Relation.ReflTransGen (Step next goal) place other) (value : β) :
    Leads next goal place value ↔ Leads next goal other value := by
  induction h with
  | refl => rfl
  | tail _ hstep ih => exact ih.trans (leads_iff_of_step hstep value)

/-- A place without a pointer that is no goal leads nowhere. -/
theorem not_leads_of_deadEnd {place : α} (hgoal : goal place = none) (hnext : next place = none)
    (value : β) : ¬ Leads next goal place value := by
  rintro ⟨last, hpath, hlast⟩
  cases cases_head hpath with
  | inl hsame =>
    rw [← hsame, hgoal] at hlast
    cases hlast
  | inr hstep =>
    obtain ⟨_, ⟨-, hpoint⟩, -⟩ := hstep
    rw [hnext] at hpoint
    cases hpoint

theorem returns_of_cycle {place other : α} (h : Relation.TransGen (Step next goal) place place)
    (hother : Relation.ReflTransGen (Step next goal) place other) :
    Relation.ReflTransGen (Step next goal) other place := by
  induction hother with
  | refl => exact .refl
  | tail _ hstep ih =>
    have hback : ∀ before, Relation.ReflTransGen (Step next goal) before place →
        ∃ third, Step next goal before third ∧
          Relation.ReflTransGen (Step next goal) third place := by
      intro before hpath
      cases cases_head hpath with
      | inl hsame =>
        rw [hsame]
        exact Relation.TransGen.head'_iff.mp h
      | inr hnext => exact hnext
    obtain ⟨third, hthird, hrest⟩ := hback _ ih
    exact hstep.unique hthird ▸ hrest

/-- A place on a cycle leads nowhere. -/
theorem not_leads_of_cycle {place : α}
    (h : Relation.TransGen (Step next goal) place place) (value : β) :
    ¬ Leads next goal place value := by
  rintro ⟨last, hpath, hlast⟩
  obtain ⟨third, hstep, -⟩ := Relation.TransGen.head'_iff.mp h
  have hgoal : goal last = none := by
    cases cases_head (returns_of_cycle h hpath) with
    | inl hsame => exact hsame ▸ hstep.1
    | inr hnext =>
      obtain ⟨_, ⟨hnone, -⟩, -⟩ := hnext
      exact hnone
  rw [hgoal] at hlast
  cases hlast

end Support.PointerChase
