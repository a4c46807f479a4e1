import Mathlib.Data.List.Nodup
import Mathlib.Data.List.Perm.Subperm
import Mathlib.Data.List.Range

/-!
# Unused names

A sequence of distinct names leaves every list of used names after at most as many steps as the
list is long.
-/

namespace Wenlan.Support.FreshNames

variable {α : Type*}

theorem exists_unused {name : ℕ → α} (hinj : Function.Injective name) (used : List α) :
    ∃ i ≤ used.length, name i ∉ used := by
  by_contra hall
  push Not at hall
  have hsubs : (List.range (used.length + 1)).map name ⊆ used := by
    intro a hmem
    obtain ⟨i, hi, rfl⟩ := List.mem_map.mp hmem
    rw [List.mem_range] at hi
    exact hall i (by omega)
  have hnodup : ((List.range (used.length + 1)).map name).Nodup := List.nodup_range.map hinj
  have hlen := (List.subperm_of_subset hnodup hsubs).length_le
  rw [List.length_map, List.length_range] at hlen
  omega

end Wenlan.Support.FreshNames
