import Mathlib.Data.List.Sort

/-!
# Keyset scans

A batch of a keyset pagination: the keys above a cursor that satisfy a predicate, in order
and at most `limit` of them.  A batch has no holes: it holds every such key up to its last
one, and every such key at all if it comes back short.  A page is a batch that may start without
a cursor; the keys after its last one are those that the page left out.
-/

namespace Wenlan.Support.KeysetScan

open List

variable {α : Type*} [LinearOrder α]

def above (p : α → Bool) (cursor : α) (keys : List α) : List α :=
  (keys.filter fun key => p key && decide (cursor < key)).insertionSort (· ≤ ·)

/-- One batch: `WHERE p AND key > cursor ORDER BY key LIMIT limit`. -/
def scan (p : α → Bool) (cursor : α) (limit : Nat) (keys : List α) : List α :=
  (above p cursor keys).take limit

variable {p : α → Bool} {cursor : α} {cursor' : Option α} {limit : Nat} {keys : List α}
  {key last : α}

theorem mem_above : key ∈ above p cursor keys ↔ key ∈ keys ∧ p key ∧ cursor < key := by
  simp [above, mem_insertionSort]

theorem of_mem_scan (h : key ∈ scan p cursor limit keys) :
    key ∈ keys ∧ p key ∧ cursor < key :=
  mem_above.mp (mem_of_mem_take h)

theorem mem_scan_of_short (hshort : (scan p cursor limit keys).length < limit)
    (h : key ∈ keys ∧ p key ∧ cursor < key) : key ∈ scan p cursor limit keys := by
  have hlen : (above p cursor keys).length ≤ limit := by
    rw [scan, length_take] at hshort
    omega
  rw [scan, take_of_length_le hlen]
  exact mem_above.mpr h

/-- A batch leaves out no key up to its last one. -/
theorem mem_scan_of_le_last (hlast : (scan p cursor limit keys).getLast? = some last)
    (hle : key ≤ last) (h : key ∈ keys ∧ p key ∧ cursor < key) :
    key ∈ scan p cursor limit keys := by
  have hmem := mem_above.mpr h
  have hsort : (above p cursor keys).Pairwise (· ≤ ·) := pairwise_insertionSort _ _
  have hlastm : last ∈ (above p cursor keys).take limit := mem_of_getLast? hlast
  rw [← take_append_drop limit (above p cursor keys)] at hmem hsort
  rcases mem_append.mp hmem with htaken | hdropped
  · exact htaken
  · have hge := (pairwise_append.mp hsort).2.2 last hlastm key hdropped
    rw [le_antisymm hle hge]
    exact hlastm

def after (cursor : Option α) (keys : List α) : List α :=
  (keys.filter fun key => cursor.all fun last => decide (last < key)).insertionSort (· ≤ ·)

/-- One page: `WHERE key > cursor ORDER BY key LIMIT limit`. -/
def page (cursor : Option α) (limit : Nat) (keys : List α) : List α :=
  (after cursor keys).take limit

theorem mem_after_none : key ∈ after none keys ↔ key ∈ keys := by
  simp [after, mem_insertionSort]

theorem after_perm (cursor : Option α) (keys : List α) :
    (after cursor keys).Perm (keys.filter fun key => cursor.all fun last => decide (last < key)) :=
  perm_insertionSort _ _

theorem after_sorted (cursor : Option α) (hdist : keys.Nodup) :
    (after cursor keys).Pairwise (· < ·) := by
  have hsort : (after cursor keys).Pairwise (· ≤ ·) := pairwise_insertionSort _ _
  have hnodup : (after cursor keys).Nodup :=
    (after_perm cursor keys).nodup_iff.mpr (hdist.filter _)
  exact (hsort.and hnodup).imp fun hle => lt_of_le_of_ne hle.1 hle.2

theorem filter_lt_last {sorted : List α} (hsort : sorted.Pairwise (· < ·))
    (hlast : (sorted.take limit).getLast? = some last) :
    (sorted.filter fun key => decide (last < key)) = sorted.drop limit := by
  have hmem : last ∈ sorted.take limit := mem_of_getLast? hlast
  have hparts := hsort
  rw [← take_append_drop limit sorted] at hparts
  have htaken : ((sorted.take limit).filter fun key => decide (last < key)) = [] := by
    obtain ⟨front, hfront⟩ := getLast?_eq_some_iff.mp hlast
    rw [filter_eq_nil_iff]
    intro key hkey
    rw [decide_eq_true_eq, not_lt]
    rw [hfront, mem_append, mem_singleton] at hkey
    rcases hkey with hkey | rfl
    · have hpage := (pairwise_append.mp hparts).1
      rw [hfront] at hpage
      exact ((pairwise_append.mp hpage).2.2 key hkey last (mem_singleton_self _)).le
    · exact le_refl _
  have hdropped : ((sorted.drop limit).filter fun key => decide (last < key)) =
      sorted.drop limit := by
    rw [filter_eq_self]
    intro key hkey
    exact decide_eq_true ((pairwise_append.mp hparts).2.2 last hmem key hkey)
  calc (sorted.filter fun key => decide (last < key))
      = ((sorted.take limit ++ sorted.drop limit).filter fun key => decide (last < key)) := by
        rw [take_append_drop]
    _ = sorted.drop limit := by
        rw [filter_append, htaken, hdropped, nil_append]

/-- The keys after the last one of a page are those that the page left out. -/
theorem after_last (hdist : keys.Nodup)
    (hlast : (page cursor' limit keys).getLast? = some last) :
    after (some last) keys = (after cursor' keys).drop limit := by
  have hsort := after_sorted cursor' hdist
  have habove : ∀ first, cursor' = some first → first < last := by
    intro first hfirst
    have hmem := (after_perm cursor' keys).mem_iff.mp
      (mem_of_mem_take (mem_of_getLast? hlast))
    rw [hfirst, mem_filter] at hmem
    exact of_decide_eq_true hmem.2
  rw [← filter_lt_last hsort hlast]
  have hperm : (after (some last) keys).Perm
      ((after cursor' keys).filter fun key => decide (last < key)) := by
    refine (after_perm _ _).trans (List.Perm.trans ?_ ((after_perm cursor' keys).filter _).symm)
    rw [filter_filter]
    refine List.Perm.of_eq (filter_congr fun key _ => ?_)
    cases cursor' with
    | none => simp
    | some first =>
      have hfirst := habove first rfl
      by_cases hkey : last < key
      · simp [hkey, hfirst.trans hkey]
      · simp [hkey]
  exact hperm.eq_of_pairwise' (after_sorted _ hdist |>.imp le_of_lt)
    ((hsort.filter _).imp le_of_lt)

/-! ## Sweeps

One page after another, each after the last key of the one before, over keys that may change in
between: what a page examines of a key and what it leaves ahead add up. -/

def ahead (cursor : Option α) (key : α) : ℕ :=
  if cursor.all fun last => decide (last < key) then 1 else 0

@[simp] theorem ahead_none : ahead none key = 1 := rfl

section

variable (hdist : keys.Nodup) (hkey : key ∈ keys)
include hdist hkey

theorem count_after :
    (after cursor' keys).count key = ahead cursor' key := by
  rw [(after_perm cursor' keys).count_eq, ahead]
  split
  · next habove =>
      exact count_eq_one_of_mem (hdist.filter _) (mem_filter.mpr ⟨hkey, habove⟩)
  · next hbelow =>
      rw [count_eq_zero]
      intro hmem
      exact hbelow (mem_filter.mp hmem).2

/-- A page and what comes after its last key. -/
theorem count_page_add_ahead
    (hlast : (page cursor' limit keys).getLast? = some last) :
    (page cursor' limit keys).count key + ahead (some last) key = ahead cursor' key := by
  calc (page cursor' limit keys).count key + ahead (some last) key
      = ((after cursor' keys).take limit).count key +
          ((after cursor' keys).drop limit).count key := by
        rw [← after_last hdist hlast, count_after hdist hkey, page]
    _ = ahead cursor' key := by
        rw [← count_append, take_append_drop, count_after hdist hkey]

theorem count_page_of_short
    (hshort : (page cursor' limit keys).length < limit) :
    (page cursor' limit keys).count key = ahead cursor' key := by
  have hall : (after cursor' keys).length ≤ limit := by
    rw [page, length_take] at hshort
    omega
  rw [page, take_of_length_le hall, count_after hdist hkey]

end

end Wenlan.Support.KeysetScan
