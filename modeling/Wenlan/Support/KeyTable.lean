import Mathlib.Data.List.AList

/-!
# Tables with a primary key and partial unique indexes

A table holds at most one row a key.  Statements that change or delete rows choose them by a
test, statements that insert meet the primary key and the indexes: an index gives each row an
entry or leaves it out, and no two rows of the table may have the same entry.
-/

namespace Wenlan.Support

abbrev KeyTable (κ ρ : Type*) := AList fun _ : κ => ρ

namespace KeyTable

variable {κ ρ ι : Type*}

theorem nodupKeys_map (change : κ → ρ → ρ) {entries : List (Σ _ : κ, ρ)} (h : entries.NodupKeys) :
    (entries.map fun row => (⟨row.1, change row.1 row.2⟩ : Σ _ : κ, ρ)).NodupKeys := by
  have hkeys : (entries.map fun row => (⟨row.1, change row.1 row.2⟩ : Σ _ : κ, ρ)).keys =
      entries.keys := by
    simp [List.keys, Function.comp_def]
  unfold List.NodupKeys
  rw [hkeys]
  exact h

/-- `DELETE … WHERE`. -/
def deleteWhere (doomed : κ → ρ → Bool) (table : KeyTable κ ρ) : KeyTable κ ρ :=
  ⟨table.entries.filter fun row => !doomed row.1 row.2, table.nodupKeys.sublist List.filter_sublist⟩

/-- `UPDATE`, with the `WHERE` in the change: a row it leaves out is its own change. -/
def update (change : κ → ρ → ρ) (table : KeyTable κ ρ) : KeyTable κ ρ :=
  ⟨table.entries.map fun row => ⟨row.1, change row.1 row.2⟩, nodupKeys_map change table.nodupKeys⟩

/-- The rows that a `WHERE` chooses. -/
def select (chosen : κ → ρ → Bool) (table : KeyTable κ ρ) : List (Σ _ : κ, ρ) :=
  table.entries.filter fun row => chosen row.1 row.2

section Lookup

variable [DecidableEq κ] {table : KeyTable κ ρ} {key : κ} {row : ρ}

/-- `INSERT … ON CONFLICT DO NOTHING`. -/
def insertIfAbsent (key : κ) (row : ρ) (table : KeyTable κ ρ) : KeyTable κ ρ :=
  if key ∈ table then table else table.insert key row

theorem mem_entries_iff : ⟨key, row⟩ ∈ table.entries ↔ table.lookup key = some row :=
  (List.mem_dlookup_iff table.nodupKeys).symm

theorem mem_iff : key ∈ table ↔ ∃ row, table.lookup key = some row := by
  rw [← AList.lookup_isSome, Option.isSome_iff_exists]

theorem mem_select {chosen : κ → ρ → Bool} :
    ⟨key, row⟩ ∈ select chosen table ↔ table.lookup key = some row ∧ chosen key row := by
  unfold select
  rw [List.mem_filter, mem_entries_iff]

/-- A `WHERE` that gives the primary key chooses one row or none. -/
theorem select_key (chosen : ρ → Bool) (hrow : table.lookup key = some row)
    (hchos : chosen row) :
    select (fun other row => other == key && chosen row) table = [⟨key, row⟩] := by
  rw [← List.perm_singleton]
  refine (List.perm_ext_iff_of_nodup (table.nodupKeys.nodup.filter _)
    (List.nodup_singleton _)).mpr ?_
  rintro ⟨other, row'⟩
  have hmem : ⟨other, row'⟩ ∈ select (fun other row => other == key && chosen row) table ↔ _ :=
    mem_select
  rw [select] at hmem
  rw [hmem, List.mem_singleton, Bool.and_eq_true, beq_iff_eq]
  constructor
  · rintro ⟨hrow', rfl, -⟩
    rw [hrow] at hrow'
    cases hrow'
    rfl
  · intro heq
    cases heq
    exact ⟨hrow, rfl, hchos⟩

@[simp] theorem lookup_deleteWhere (doomed : κ → ρ → Bool) (table : KeyTable κ ρ) (key : κ) :
    (deleteWhere doomed table).lookup key = (table.lookup key).filter fun row => !doomed key row := by
  ext row
  have hmem : ⟨key, row⟩ ∈ (deleteWhere doomed table).entries ↔
      ⟨key, row⟩ ∈ table.entries ∧ (!doomed key row) := List.mem_filter
  rw [mem_entries_iff, mem_entries_iff] at hmem
  rw [hmem, Option.filter_eq_some_iff]

@[simp] theorem lookup_update (change : κ → ρ → ρ) (table : KeyTable κ ρ) (key : κ) :
    (update change table).lookup key = (table.lookup key).map (change key) := by
  ext row
  have hmem : ⟨key, row⟩ ∈ (update change table).entries ↔
      ∃ old, ⟨key, old⟩ ∈ table.entries ∧ change key old = row := by
    constructor
    · intro h
      obtain ⟨⟨key', old⟩, hold, heq⟩ := List.mem_map.mp h
      cases heq
      exact ⟨old, hold, rfl⟩
    · rintro ⟨old, hold, rfl⟩
      exact List.mem_map.mpr ⟨⟨key, old⟩, hold, rfl⟩
  rw [mem_entries_iff] at hmem
  rw [hmem, Option.map_eq_some_iff]
  simp only [mem_entries_iff]

theorem lookup_insertIfAbsent (key : κ) (row : ρ) (table : KeyTable κ ρ) (other : κ) :
    (insertIfAbsent key row table).lookup other =
      if other = key then some ((table.lookup key).getD row) else table.lookup other := by
  unfold insertIfAbsent
  by_cases hsame : other = key
  · subst other
    rw [if_pos rfl]
    by_cases hmem : key ∈ table
    · obtain ⟨old, hold⟩ := mem_iff.mp hmem
      rw [if_pos hmem, hold, Option.getD_some]
    · rw [if_neg hmem, AList.lookup_insert, AList.lookup_eq_none.mpr hmem, Option.getD_none]
  · rw [if_neg hsame]
    split
    · rfl
    · exact AList.lookup_insert_ne hsame

variable {other : κ}

theorem mem_insertIfAbsent :
    other ∈ insertIfAbsent key row table ↔ other = key ∨ other ∈ table := by
  rw [mem_iff, mem_iff, lookup_insertIfAbsent]
  split_ifs with hsame
  · exact iff_of_true ⟨_, rfl⟩ (.inl hsame)
  · exact (or_iff_right hsame).symm

theorem lookup_insert_of_notMem {row' : ρ} (hnew : key ∉ table)
    (hrow : table.lookup other = some row') : (table.insert key row).lookup other = some row' := by
  rw [AList.lookup_insert_ne]
  · exact hrow
  · rintro rfl
    exact hnew (mem_iff.mpr ⟨row', hrow⟩)

theorem of_lookup_insert {row' : ρ}
    (hrow : (table.insert key row).lookup other = some row') :
    (other = key ∧ row' = row) ∨ table.lookup other = some row' := by
  by_cases hsame : other = key
  · subst hsame
    rw [AList.lookup_insert] at hrow
    exact .inl ⟨rfl, (Option.some.inj hrow).symm⟩
  · rw [AList.lookup_insert_ne hsame] at hrow
    exact .inr hrow

def Has (table : KeyTable κ ρ) (property : κ → ρ → Prop) : Prop :=
  ∃ key row, table.lookup key = some row ∧ property key row

variable {property : κ → ρ → Prop}

variable {property' : κ → ρ → Prop}

theorem Has.mono (h : Has table property)
    (himp : ∀ key row, property key row → property' key row) : Has table property' := by
  obtain ⟨key, row, hrow, hprop⟩ := h
  exact ⟨key, row, hrow, himp key row hprop⟩

theorem has_congr (h : ∀ key row, property key row ↔ property' key row) :
    Has table property ↔ Has table property' :=
  ⟨fun hhas => hhas.mono fun key row => (h key row).mp,
    fun hhas => hhas.mono fun key row => (h key row).mpr⟩

theorem has_empty : ¬ Has (∅ : KeyTable κ ρ) property := by
  rintro ⟨key, row, hrow, -⟩
  rw [AList.lookup_empty] at hrow
  cases hrow

theorem has_insert (hnew : key ∉ table) :
    Has (table.insert key row) property ↔ property key row ∨ Has table property := by
  constructor
  · rintro ⟨other, row', hrow', hprop⟩
    rcases of_lookup_insert hrow' with ⟨rfl, rfl⟩ | hold
    · exact .inl hprop
    · exact .inr ⟨other, row', hold, hprop⟩
  · rintro (hprop | ⟨other, row', hrow', hprop⟩)
    · exact ⟨key, row, AList.lookup_insert _, hprop⟩
    · exact ⟨other, row', lookup_insert_of_notMem hnew hrow', hprop⟩

theorem has_update {change : κ → ρ → ρ} : Has (update change table) property ↔
      Has table fun key row => property key (change key row) := by
  constructor
  · rintro ⟨key, row, hrow, hprop⟩
    rw [lookup_update, Option.map_eq_some_iff] at hrow
    obtain ⟨old, hold, rfl⟩ := hrow
    exact ⟨key, old, hold, hprop⟩
  · rintro ⟨key, row, hrow, hprop⟩
    exact ⟨key, change key row, by rw [lookup_update, hrow, Option.map_some], hprop⟩

def clashes [DecidableEq ι] (index : κ → ρ → Option ι) (key : κ) (row : ρ)
    (table : KeyTable κ ρ) : Bool :=
  (index key row).isSome &&
    table.entries.any fun other => other.1 ≠ key && index other.1 other.2 == index key row

theorem clashes_iff [DecidableEq ι] {index : κ → ρ → Option ι} :
    clashes index key row table ↔ ∃ other row' entry, other ≠ key ∧ table.lookup other = some row' ∧
        index key row = some entry ∧ index other row' = some entry := by
  unfold clashes
  rw [Bool.and_eq_true, Option.isSome_iff_exists, List.any_eq_true]
  constructor
  · rintro ⟨⟨entry, hentry⟩, ⟨other, row'⟩, hmem, hother⟩
    rw [Bool.and_eq_true, decide_eq_true_eq, beq_iff_eq] at hother
    exact ⟨other, row', entry, hother.1, mem_entries_iff.mp hmem, hentry, hother.2.trans hentry⟩
  · rintro ⟨other, row', entry, hne, hrow, hentry, hentry'⟩
    refine ⟨⟨entry, hentry⟩, ⟨other, row'⟩, mem_entries_iff.mpr hrow, ?_⟩
    rw [Bool.and_eq_true, decide_eq_true_eq, beq_iff_eq]
    exact ⟨hne, hentry'.trans hentry.symm⟩

namespace Indexed

variable {index : κ → ρ → Option ι}

end Indexed

end Lookup

end KeyTable

end Wenlan.Support
