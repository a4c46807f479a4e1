import Mathlib.Algebra.Order.BigOperators.Group.Finset
import Std.Data.ExtTreeSet.Lemmas

/-!
# Depth-first search

A search with a stack and a set of visited nodes.  It visits what can be reached, and all of it
when the fuel covers the entries that can still get onto the stack.
-/

namespace Support.DepthFirst

open Std

variable {α : Type*} [DecidableEq α] {cmp : α → α → Ordering} [TransCmp cmp] [LawfulEqCmp cmp]

def visit (next : α → List α) : Nat → ExtTreeSet α cmp → List α → ExtTreeSet α cmp
  | 0, visited, _ => visited
  | _ + 1, visited, [] => visited
  | fuel + 1, visited, node :: stack =>
    if node ∈ visited then visit next fuel visited stack
    else visit next fuel (visited.insert node) (next node ++ stack)

abbrev Reaches (next : α → List α) : α → α → Prop :=
  Relation.ReflTransGen fun node other => other ∈ next node

variable {next : α → List α} {visited : ExtTreeSet α cmp} {stack : List α}

omit [DecidableEq α] in
theorem mem_insert_iff {node other : α} :
    other ∈ visited.insert node ↔ other = node ∨ other ∈ visited := by
  rw [ExtTreeSet.mem_insert, LawfulEqCmp.compare_eq_iff_eq, eq_comm]

omit [DecidableEq α] in
theorem visit_sound {P : α → Prop} (hstep : ∀ node, P node → ∀ other ∈ next node, P other)
    (fuel : Nat) (hvis : ∀ node ∈ visited, P node) (hstack : ∀ node ∈ stack, P node) :
    ∀ node ∈ visit next fuel visited stack, P node := by
  induction fuel generalizing visited stack with
  | zero => exact hvis
  | succ fuel ih =>
    cases stack with
    | nil => exact hvis
    | cons node stack =>
      rw [List.forall_mem_cons] at hstack
      unfold visit
      split
      · exact ih hvis hstack.2
      · apply ih
        · intro other hother
          rcases mem_insert_iff.mp hother with rfl | hold
          · exact hstack.1
          · exact hvis other hold
        · intro other hother
          rcases List.mem_append.mp hother with hnext | hold
          · exact hstep node hstack.1 other hnext
          · exact hstack.2 other hold

/-- How many entries the search can still pop. -/
def remaining (next : α → List α) (nodes : Finset α) (visited : ExtTreeSet α cmp)
    (stack : List α) : Nat :=
  stack.length + ∑ node ∈ nodes with node ∉ visited, (next node).length

omit [DecidableEq α] [LawfulEqCmp cmp] in
theorem remaining_pop {nodes : Finset α} {node : α} :
    remaining next nodes visited (node :: stack) = remaining next nodes visited stack + 1 := by
  rw [remaining, remaining, List.length_cons]
  omega

theorem remaining_push {nodes : Finset α} {node : α} (hnode : node ∈ nodes)
    (hfresh : node ∉ visited) : remaining next nodes (visited.insert node) (next node ++ stack) =
      remaining next nodes visited stack := by
  have hrest : {other ∈ nodes | other ∉ visited.insert node} =
      {other ∈ nodes | other ∉ visited}.erase node := by
    ext other
    rw [Finset.mem_filter, Finset.mem_erase, Finset.mem_filter, mem_insert_iff]
    tauto
  have hmem : node ∈ {other ∈ nodes | other ∉ visited} := Finset.mem_filter.mpr ⟨hnode, hfresh⟩
  rw [remaining, remaining, hrest, List.length_append,
    ← Finset.add_sum_erase _ (fun other => (next other).length) hmem]
  omega

section

variable {nodes : Finset α} (hnodes : ∀ node ∈ nodes, ∀ other ∈ next node, other ∈ nodes)
include hnodes

/-- With enough fuel the search ends with an empty stack: the visited nodes hold the stack and are
closed. -/
theorem visit_complete (fuel : Nat)
    (hfuel : remaining next nodes visited stack ≤ fuel) (hstack : ∀ node ∈ stack, node ∈ nodes)
    (hclos : ∀ node ∈ visited, ∀ other ∈ next node, other ∈ visited ∨ other ∈ stack) :
    (∀ node, node ∈ visited ∨ node ∈ stack → node ∈ visit next fuel visited stack) ∧
      ∀ node ∈ visit next fuel visited stack, ∀ other ∈ next node,
        other ∈ visit next fuel visited stack := by
  induction fuel generalizing visited stack with
  | zero =>
    have hempty : stack = [] := by
      apply List.eq_nil_of_length_eq_zero
      rw [remaining] at hfuel
      omega
    subst hempty
    refine ⟨?_, ?_⟩
    · intro node hnode
      exact hnode.resolve_right List.not_mem_nil
    · intro node hnode other hother
      exact (hclos node hnode other hother).resolve_right List.not_mem_nil
  | succ fuel ih =>
    cases stack with
    | nil =>
      refine ⟨?_, ?_⟩
      · intro node hnode
        exact hnode.resolve_right List.not_mem_nil
      · intro node hnode other hother
        exact (hclos node hnode other hother).resolve_right List.not_mem_nil
    | cons node stack =>
      rw [List.forall_mem_cons] at hstack
      rw [remaining_pop] at hfuel
      unfold visit
      split
      · rename_i hold
        obtain ⟨hkept, hfinal⟩ := ih (Nat.le_of_succ_le_succ hfuel) hstack.2 (by
          intro other hother found hfound
          rcases hclos other hother found hfound with hmem | hmem
          · exact .inl hmem
          · rcases List.mem_cons.mp hmem with rfl | hmem
            · exact .inl hold
            · exact .inr hmem)
        refine ⟨?_, hfinal⟩
        rintro other (hmem | hmem)
        · exact hkept other (.inl hmem)
        · rcases List.mem_cons.mp hmem with rfl | hmem
          · exact hkept _ (.inl hold)
          · exact hkept _ (.inr hmem)
      · rename_i hfresh
        have hpush := @remaining_push _ _ _ _ _ next visited stack nodes node hstack.1 hfresh
        obtain ⟨hkept, hfinal⟩ := @ih (visited.insert node) (next node ++ stack)
          (by omega) (by
            intro other hother
            rcases List.mem_append.mp hother with hnext | hold
            · exact hnodes node hstack.1 other hnext
            · exact hstack.2 other hold) (by
            intro other hother found hfound
            rw [mem_insert_iff, List.mem_append]
            rcases mem_insert_iff.mp hother with rfl | hold
            · exact .inr (.inl hfound)
            · rcases hclos other hold found hfound with hmem | hmem
              · exact .inl (.inr hmem)
              · rcases List.mem_cons.mp hmem with rfl | hmem
                · exact .inl (.inl rfl)
                · exact .inr (.inr hmem))
        refine ⟨?_, hfinal⟩
        rintro other (hmem | hmem)
        · exact hkept other (.inl (mem_insert_iff.mpr (.inr hmem)))
        · rcases List.mem_cons.mp hmem with rfl | hmem
          · exact hkept _ (.inl (mem_insert_iff.mpr (.inl rfl)))
          · exact hkept _ (.inr (List.mem_append_right _ hmem))

/-- With fuel for every entry, the search from a node visits exactly what it reaches. -/
theorem mem_visit_iff {start : α} (hstart : start ∈ nodes) {fuel : Nat}
    (hfuel : 1 + ∑ node ∈ nodes, (next node).length ≤ fuel) (node : α) :
    node ∈ visit next fuel (∅ : ExtTreeSet α cmp) [start] ↔ Reaches next start node := by
  constructor
  · apply visit_sound (P := Reaches next start)
    · exact fun node hnode other hother => hnode.tail hother
    · exact fun node hnode => absurd hnode ExtTreeSet.not_mem_empty
    · intro node hnode
      rw [List.mem_singleton.mp hnode]
  · have hbound : remaining next nodes (∅ : ExtTreeSet α cmp) [start] ≤ fuel := by
      have hsum := Finset.sum_le_sum_of_subset (f := fun node => (next node).length)
        (Finset.filter_subset (fun node => node ∉ (∅ : ExtTreeSet α cmp)) nodes)
      rw [remaining, List.length_singleton]
      omega
    obtain ⟨hkept, hfinal⟩ := visit_complete hnodes fuel hbound
      (fun node hnode => (List.mem_singleton.mp hnode) ▸ hstart)
      (fun node hnode => absurd hnode ExtTreeSet.not_mem_empty)
    intro hreach
    induction hreach with
    | refl => exact hkept start (.inr (List.mem_singleton_self start))
    | tail hbefore hlast ih => exact hfinal _ ih _ hlast

end

end Support.DepthFirst
