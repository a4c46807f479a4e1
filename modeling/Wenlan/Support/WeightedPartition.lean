import Mathlib

/-!
# Weighted graphs and their partitions

A weighted undirected graph on a finite set of nodes is a symmetric matrix with an empty
diagonal, a partition is a labelling of the nodes.  The sums that modularity is made of are
defined here, with what changing one weight and moving one node does to each of them.
-/

namespace Wenlan.Support.WeightedPartition

open Finset Function

variable {ι κ R : Type*} [DecidableEq ι] [DecidableEq κ] [CommRing R]

/-- Symmetric, without loops, and empty outside the nodes. -/
structure Undirected (nodes : Finset ι) (A : ι → ι → R) : Prop where
  symm : ∀ i j, A i j = A j i
  loop : ∀ i, A i i = 0
  inside : ∀ i j, A i j ≠ 0 → i ∈ nodes ∧ j ∈ nodes

variable (nodes : Finset ι) (A : ι → ι → R) (m : ι → κ)

def degree (i : ι) : R := ∑ j ∈ nodes, A i j

/-- The weight from a node into a part. -/
def incident (i : ι) (c : κ) : R := ∑ j ∈ nodes with m j = c, A i j

def volume (c : κ) : R := ∑ i ∈ nodes with m i = c, degree nodes A i

/-- Every weight counted from both ends. -/
def total : R := ∑ i ∈ nodes, degree nodes A i

/-- The weights within the parts, counted from both ends. -/
def internal : R := ∑ i ∈ nodes, incident nodes A m i (m i)

/-- Add `δ` between `s` and `t`. -/
def bump (s t : ι) (δ : R) (i j : ι) : R :=
  A i j + if i = s ∧ j = t ∨ i = t ∧ j = s then δ else 0

section Bump

variable {nodes A m} {s t : ι} (δ : R)

theorem Undirected.bump (h : Undirected nodes A) (hs : s ∈ nodes) (ht : t ∈ nodes)
    (hst : s ≠ t) : Undirected nodes (bump A s t δ) where
  symm i j := by
    unfold WeightedPartition.bump
    rw [h.symm i j]
    congr 1
    exact if_congr (by tauto) rfl rfl
  loop i := by
    have hoff : ¬ (i = s ∧ i = t ∨ i = t ∧ i = s) := by
      rintro (⟨rfl, rfl⟩ | ⟨rfl, rfl⟩) <;> exact hst rfl
    unfold WeightedPartition.bump
    rw [h.loop, if_neg hoff, add_zero]
  inside i j hne := by
    unfold WeightedPartition.bump at hne
    split at hne
    · rename_i hpair
      rcases hpair with ⟨rfl, rfl⟩ | ⟨rfl, rfl⟩
      · exact ⟨hs, ht⟩
      · exact ⟨ht, hs⟩
    · rw [add_zero] at hne
      exact h.inside i j hne

theorem sum_bump (p : ι → Prop) [DecidablePred p] (hs : s ∈ nodes) (ht : t ∈ nodes)
    (hst : s ≠ t) (i : ι) : ∑ j ∈ nodes with p j, bump A s t δ i j =
      (∑ j ∈ nodes with p j, A i j) + ((if i = s ∧ p t then δ else 0) +
        if i = t ∧ p s then δ else 0) := by
  have hsplit : ∀ j, (if i = s ∧ j = t ∨ i = t ∧ j = s then δ else 0) =
      (if j = t then (if i = s then δ else 0) else 0) +
        if j = s then (if i = t then δ else 0) else 0 := by
    intro j
    by_cases hjt : j = t
    · subst hjt
      simp [hst.symm]
    · by_cases hjs : j = s
      · subst hjs
        simp [hst]
      · simp [hjt, hjs]
  unfold bump
  rw [sum_add_distrib]
  simp only [hsplit, sum_add_distrib, sum_ite_eq', mem_filter, hs, ht, true_and]
  congr 1
  congr 1
  all_goals
    rw [← ite_and]
    exact if_congr and_comm rfl rfl

section

variable (hs : s ∈ nodes) (ht : t ∈ nodes) (hst : s ≠ t)
include hs ht hst

theorem degree_bump (i : ι) : degree nodes (bump A s t δ) i =
      degree nodes A i + ((if i = s then δ else 0) + if i = t then δ else 0) := by
  have hsum := sum_bump (A := A) δ (fun _ => True) hs ht hst i
  simpa [degree] using hsum

theorem incident_bump (i : ι) (c : κ) :
    incident nodes (bump A s t δ) m i c = incident nodes A m i c +
      ((if i = s ∧ m t = c then δ else 0) + if i = t ∧ m s = c then δ else 0) :=
  sum_bump δ (fun j => m j = c) hs ht hst i

theorem total_bump : total nodes (bump A s t δ) = total nodes A + 2 * δ := by
  unfold total
  simp only [degree_bump δ hs ht hst, sum_add_distrib, sum_ite_eq', hs, ht, if_true]
  ring

theorem volume_bump (c : κ) : volume nodes (bump A s t δ) m c = volume nodes A m c +
      ((if m s = c then δ else 0) + if m t = c then δ else 0) := by
  unfold volume
  simp [degree_bump δ hs ht hst, sum_add_distrib, sum_ite_eq', mem_filter, hs, ht]

theorem internal_bump : internal nodes (bump A s t δ) m =
      internal nodes A m + if m s = m t then 2 * δ else 0 := by
  unfold internal
  simp only [incident_bump δ hs ht hst, sum_add_distrib]
  have hfirst : ∑ i ∈ nodes, (if i = s ∧ m t = m i then δ else 0) =
      if m s = m t then δ else 0 := by
    have hite : ∀ i, (if i = s ∧ m t = m i then δ else 0) =
        if i = s then (if m s = m t then δ else 0) else 0 := by
      intro i
      by_cases his : i = s
      · subst his
        simp [eq_comm]
      · simp [his]
    simp [hite, sum_ite_eq', hs]
  have hsec : ∑ i ∈ nodes, (if i = t ∧ m s = m i then δ else 0) =
      if m s = m t then δ else 0 := by
    have hite : ∀ i, (if i = t ∧ m s = m i then δ else 0) =
        if i = t then (if m s = m t then δ else 0) else 0 := by
      intro i
      by_cases hit : i = t
      · subst hit
        simp
      · simp [hit]
    simp [hite, sum_ite_eq', ht]
  rw [hfirst, hsec]
  split
  · ring
  · ring

end

end Bump

section Move

variable {nodes A m} {v : ι} {c : κ}

theorem incident_update_self (hloop : A v v = 0) (part : κ) :
    incident nodes A (update m v c) v part = incident nodes A m v part := by
  unfold incident
  rw [sum_filter, sum_filter]
  refine sum_congr rfl fun j _ => ?_
  by_cases hj : j = v
  · subst hj
    simp [hloop]
  · rw [update_of_ne hj]

theorem incident_update (hv : v ∈ nodes) (i : ι) (part : κ) :
    incident nodes A (update m v c) i part = incident nodes A m i part +
      ((if c = part then A i v else 0) - if m v = part then A i v else 0) := by
  unfold incident
  rw [sum_filter, sum_filter, ← add_sum_erase _ _ hv,
    ← add_sum_erase (a := v) _ (fun j => if m j = part then A i j else 0) hv,
    update_self]
  have hrest : ∑ j ∈ nodes.erase v, (if update m v c j = part then A i j else 0) =
      ∑ j ∈ nodes.erase v, if m j = part then A i j else 0 := by
    refine sum_congr rfl fun j hj => ?_
    rw [update_of_ne (ne_of_mem_erase hj)]
  rw [hrest]
  ring

theorem volume_update (hv : v ∈ nodes) (part : κ) :
    volume nodes A (update m v c) part = volume nodes A m part +
      ((if c = part then degree nodes A v else 0) -
        if m v = part then degree nodes A v else 0) := by
  unfold volume
  rw [sum_filter, sum_filter, ← add_sum_erase _ _ hv,
    ← add_sum_erase (a := v) _ (fun i => if m i = part then degree nodes A i else 0) hv,
    update_self]
  have hrest : ∑ i ∈ nodes.erase v,
      (if update m v c i = part then degree nodes A i else 0) =
      ∑ i ∈ nodes.erase v, if m i = part then degree nodes A i else 0 := by
    refine sum_congr rfl fun i hi => ?_
    rw [update_of_ne (ne_of_mem_erase hi)]
  rw [hrest]
  ring

/-- A move wins the weight into the new part and loses the weight into the old one, counted
from both ends. -/
theorem internal_update (h : Undirected nodes A) (hv : v ∈ nodes) :
    internal nodes A (update m v c) = internal nodes A m +
      2 * (incident nodes A m v c - incident nodes A m v (m v)) := by
  have hrow : ∀ part, ∑ i ∈ nodes.erase v, (if part = m i then A i v else 0) =
      incident nodes A m v part := by
    intro part
    unfold incident
    rw [sum_filter, ← add_sum_erase (a := v) _ (fun j => if m j = part then A v j else 0) hv,
      h.loop, ite_self, zero_add]
    refine sum_congr rfl fun i _ => ?_
    rw [h.symm i v]
    exact if_congr eq_comm rfl rfl
  have hoth : ∑ i ∈ nodes.erase v, incident nodes A (update m v c) i
        (update m v c i) =
      (∑ i ∈ nodes.erase v, incident nodes A m i (m i)) +
        (incident nodes A m v c - incident nodes A m v (m v)) := by
    rw [← hrow c, ← hrow (m v), ← sum_sub_distrib, ← sum_add_distrib]
    refine sum_congr rfl fun i hi => ?_
    rw [update_of_ne (ne_of_mem_erase hi), incident_update hv]
  unfold internal
  rw [← add_sum_erase _ _ hv, ← add_sum_erase (a := v) _ (fun i => incident nodes A m i (m i)) hv,
    hoth, update_self, incident_update_self (h.loop v)]
  ring

end Move

end Wenlan.Support.WeightedPartition
