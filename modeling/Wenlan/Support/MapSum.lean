import Mathlib

/-!
# Sums over sorted maps

The entries of a sorted map added up, as a sum over all keys where absent keys count for
nothing, and what inserting one entry does to it.
-/

namespace Wenlan.Support.MapSum

open Std Finset

variable {R : Type*} [CommRing R]

theorem foldl_add_eq {α : Type*} (f : α → R) (list : List α) (start : R) :
    list.foldl (fun sum value => sum + f value) start = start + (list.map f).sum := by
  induction list generalizing start with
  | nil => simp
  | cons value list ih =>
    rw [List.foldl_cons, ih, List.map_cons, List.sum_cons, add_assoc]

theorem exists_key_bound {V : Type*} (map : ExtTreeMap Nat V) :
    ∃ bound, ∀ key ∈ map, key < bound := by
  refine ⟨map.keys.toFinset.sup id + 1, ?_⟩
  intro key hkey
  have hmem : key ∈ map.keys.toFinset := List.mem_toFinset.mpr (ExtTreeMap.mem_keys.mpr hkey)
  exact Nat.lt_succ_of_le (le_sup (f := id) hmem)

theorem getD_insert (map : ExtTreeMap Nat R) (key other : Nat) (value : R) :
    (map.insert key value).getD other 0 = if key = other then value else map.getD other 0 := by
  rw [ExtTreeMap.getD_insert]
  exact if_congr Nat.compare_eq_eq rfl rfl

def entrySum (f : Nat → R → R) (map : ExtTreeMap Nat R) : R :=
  map.foldl (fun sum key value => sum + f key value) 0

section EntrySum

variable {f : Nat → R → R} {map other : ExtTreeMap Nat R}

/-- A fold over the entries of a map as a sum over all keys below a bound. -/
theorem entrySum_eq {bound : Nat} (hbound : ∀ key ∈ map, key < bound)
    (habs : ∀ key, key ∉ map → f key 0 = 0) :
    entrySum f map = ∑ key ∈ range bound, f key (map.getD key 0) := by
  have hents : map.toList.map (fun entry => f entry.1 entry.2) =
      map.keys.map fun key => f key (map.getD key 0) := by
    rw [← ExtTreeMap.map_fst_toList_eq_keys, List.map_map]
    refine List.map_congr_left fun entry hentry => ?_
    have hsome := ExtTreeMap.mem_toList_iff_getElem?_eq_some.mp hentry
    rw [Function.comp_apply, ExtTreeMap.getD_eq_getD_getElem?, hsome]
    rfl
  have hnodup : map.keys.Nodup := ExtTreeMap.nodup_keys
  unfold entrySum
  rw [ExtTreeMap.foldl_eq_foldl_toList, foldl_add_eq (fun entry : Nat × R => f entry.1 entry.2),
    zero_add, hents, ← List.sum_toFinset _ hnodup]
  refine sum_subset ?_ ?_
  · intro key hkey
    exact mem_range.mpr (hbound key (ExtTreeMap.mem_keys.mp (List.mem_toFinset.mp hkey)))
  · intro key _ hkey
    have hnone : key ∉ map := fun hmem =>
      hkey (List.mem_toFinset.mpr (ExtTreeMap.mem_keys.mpr hmem))
    rw [ExtTreeMap.getD_eq_fallback hnone]
    exact habs key hnone

theorem entrySum_insert (hzero : ∀ key, f key 0 = 0) (key : Nat) (value : R) :
    entrySum f (map.insert key value) = entrySum f map - f key (map.getD key 0) + f key value := by
  obtain ⟨bound, hbound⟩ := exists_key_bound map
  have hold : ∀ other ∈ map, other < max bound (key + 1) := by
    intro other hother
    have hlt := hbound other hother
    omega
  have hnew : ∀ other ∈ map.insert key value, other < max bound (key + 1) := by
    intro other hother
    rw [ExtTreeMap.mem_insert, Nat.compare_eq_eq] at hother
    rcases hother with rfl | hmem
    · omega
    · exact hold other hmem
  have hkey : key ∈ range (max bound (key + 1)) := mem_range.mpr (by omega)
  rw [entrySum_eq hold fun key _ => hzero key, entrySum_eq hnew fun key _ => hzero key,
    ← add_sum_erase _ _ hkey,
    ← add_sum_erase _ (fun other => f other (map.getD other 0)) hkey, getD_insert, if_pos rfl]
  have hrest : ∑ other ∈ (range (max bound (key + 1))).erase key,
      f other ((map.insert key value).getD other 0) =
      ∑ other ∈ (range (max bound (key + 1))).erase key, f other (map.getD other 0) := by
    refine sum_congr rfl fun other hother => ?_
    rw [getD_insert, if_neg (Ne.symm (ne_of_mem_erase hother))]
  rw [hrest]
  ring

/-- Maps that agree on all keys have the same sum. -/
theorem entrySum_congr (hzero : ∀ key, f key 0 = 0)
    (hsame : ∀ key, map.getD key 0 = other.getD key 0) : entrySum f map = entrySum f other := by
  obtain ⟨bound, hbound⟩ := exists_key_bound map
  obtain ⟨bound', hbound'⟩ := exists_key_bound other
  have hleft : ∀ key ∈ map, key < max bound bound' := by
    intro key hkey
    have hlt := hbound key hkey
    omega
  have hright : ∀ key ∈ other, key < max bound bound' := by
    intro key hkey
    have hlt := hbound' key hkey
    omega
  rw [entrySum_eq hleft fun key _ => hzero key, entrySum_eq hright fun key _ => hzero key]
  exact sum_congr rfl fun key _ => by rw [hsame]

end EntrySum

/-- Adding weights up by key. -/
theorem getD_foldl_insert {α : Type*} (key : α → Nat) (weight : α → R) (list : List α)
    (map : ExtTreeMap Nat R) (k : Nat) : (list.foldl (fun map value =>
      map.insert (key value) (map.getD (key value) 0 + weight value)) map).getD k 0 =
      map.getD k 0 + (list.map fun value => if key value = k then weight value else 0).sum := by
  induction list generalizing map with
  | nil => simp
  | cons value list ih =>
    rw [List.foldl_cons, ih, getD_insert, List.map_cons, List.sum_cons, ← add_assoc]
    congr 1
    by_cases hkey : key value = k
    · rw [if_pos hkey, if_pos hkey, hkey]
    · rw [if_neg hkey, if_neg hkey, add_zero]

end Wenlan.Support.MapSum
