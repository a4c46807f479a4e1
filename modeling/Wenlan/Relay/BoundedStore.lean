import Mathlib.Data.String.Basic
import Wenlan.Relay.Store
import Wenlan.Support.KeysetScan
import Wenlan.Support.KeyTable

/-!
# The bounded store

`bounded-store.ts`: transactions over the flat map of the Durable Object, with a counter of the
application records in a record of its own.  A transaction that throws rolls back its writes.
-/

namespace Wenlan.Relay

open List

open Support (KeyTable Json)
open Support.KeysetScan (after page)

class StoredValue (V : Type) where
  /-- `JSON.stringify` -/
  stringify : V → String
  /-- The value, if `Number.isSafeInteger` holds of it. -/
  safeInteger : V → Option Int
  number : ℕ → V
  safeInteger_number : ∀ n, n ≤ maxSafeInteger → safeInteger (number n) = some n

instance : StoredValue (Json ℕ) where
  stringify := Json.stringify
  safeInteger
    | .num n => if n ≤ maxSafeInteger then some n else none
    | _ => none
  number := .num
  safeInteger_number _ h := if_pos h

abbrev Records (V : Type) := KeyTable String V

namespace BoundedStore

open StoredValue (stringify safeInteger number)

def authorityRecordLimit : ℕ := 8192

def authorityValueBytes : ℕ := 32 * 1024

def capacityKey : String := "maintenance:capacity"

def cursorKey : String := "maintenance:cursor"

def counted (key : String) : Bool := key != capacityKey && key != cursorKey

/-- A limit that `boundedStore` accepts. -/
abbrev AuthorityLimit := { limit : ℕ // 1 ≤ limit ∧ limit ≤ authorityRecordLimit }

variable {V : Type} {α : Type}

def countedRecords (records : Records V) : ℕ := records.keys.countP counted

/-- The keys of `tx.list` from a start; an empty `startAfter` is none. -/
def listPage (start : Option String) (records : Records V) : List String :=
  page (start.filter (· != "")) 128 records.keys

section

variable {start : Option String} {records : Records V} {last : String}
  (hfull : ¬ (listPage start records).length < 128)
  (hlast : (listPage start records).getLast? = some last)
include hfull hlast

theorem filter_last_of_full : (some last).filter (· != "") = some last := by
  have hsort : (listPage start records).Pairwise (· < ·) :=
    (Support.KeysetScan.after_sorted _ records.keys_nodup).sublist (take_sublist _ _)
  have hne : last ≠ "" := by
    rintro rfl
    obtain ⟨front, hfront⟩ := getLast?_eq_some_iff.mp hlast
    rw [hfront] at hsort hfull
    cases front with
    | nil => exact hfull (by decide)
    | cons first front =>
      have hbelow := (pairwise_append.mp hsort).2.2 first mem_cons_self ""
        (mem_singleton_self _)
      exact not_lt_nil _ (String.lt_iff_toList_lt.mp hbelow)
  rw [Option.filter_some, if_pos (bne_iff_ne.mpr hne)]

theorem after_last_of_full : after ((some last).filter (· != "")) records.keys =
      (after (start.filter (· != "")) records.keys).drop 128 := by
  rw [filter_last_of_full hfull hlast]
  exact Support.KeysetScan.after_last records.keys_nodup hlast

end

def adopt (limit : ℕ) (records : Records V) (count : ℕ) (start : Option String) : Option ℕ :=
  let entries := listPage start records
  let count := count + entries.countP counted
  if limit < count then none
  else if hshort : entries.length < 128 then some count
  else
    match hlast : entries.getLast? with
    | none => some count
    | some last => adopt limit records count (some last)
termination_by (after (start.filter (· != "")) records.keys).length
decreasing_by
  have hfull : ¬ (listPage start records).length < 128 := hshort
  rw [after_last_of_full hshort hlast, List.length_drop]
  have hlength : (listPage start records).length ≤
      (after (start.filter (· != "")) records.keys).length := List.length_take_le' _ _
  omega

theorem adopt_eq (limit : ℕ) (records : Records V) (count : ℕ) (start : Option String) :
    adopt limit records count start =
      if limit < count + (after (start.filter (· != "")) records.keys).countP counted then none
      else some (count + (after (start.filter (· != "")) records.keys).countP counted) := by
  fun_induction adopt limit records count start with
  | case1 count start entries total hover =>
    have hpage : entries.countP counted ≤
        (after (start.filter (· != "")) records.keys).countP counted :=
      List.Sublist.countP_le (take_sublist _ _)
    rw [if_pos (by omega)]
  | case2 count start entries total hover hshort =>
    have hall : entries = after (start.filter (· != "")) records.keys := by
      refine take_of_length_le ?_
      have hlength : (listPage start records).length =
          min 128 (after (start.filter (· != "")) records.keys).length := length_take
      have hshort' : (listPage start records).length < 128 := hshort
      omega
    rw [← hall, if_neg hover]
  | case3 count start entries total hover hfull hlast =>
    rw [getLast?_eq_none_iff] at hlast
    rw [hlast] at hfull
    exact absurd (by decide) hfull
  | case4 count start entries total hover hfull last hlast ih =>
    have hsplit : (after (start.filter (· != "")) records.keys).countP counted =
        entries.countP counted +
          ((after (start.filter (· != "")) records.keys).drop 128).countP counted := by
      rw [← countP_append]
      exact congrArg _ (take_append_drop 128 _).symm
    rw [ih, after_last_of_full hfull hlast, hsplit, Nat.add_assoc]

theorem adopt_counts (limit : ℕ) (records : Records V) : adopt limit records 0 none =
      if limit < countedRecords records then none else some (countedRecords records) := by
  have hkeys : (after none records.keys).countP counted = countedRecords records := by
    refine (List.Perm.countP_eq counted (Support.KeysetScan.after_perm _ _)).trans ?_
    simp [countedRecords]
  rw [adopt_eq, Option.filter_none, hkeys, Nat.zero_add]

section Transaction

variable [StoredValue V]

/-- The counter that a transaction goes by, if its record holds a valid one. -/
def readCount (limit : ℕ) (value : V) : Option ℕ :=
  match safeInteger value with
  | some count => if 0 ≤ count ∧ count ≤ limit then some count.toNat else none
  | none => none

/-- The counter at the start of a transaction; the first one adopts the records it finds. -/
def openCount (limit : ℕ) (records : Records V) : Option (ℕ × Records V) :=
  match records.lookup capacityKey with
  | some value => (readCount limit value).map fun count => (count, records)
  | none => (adopt limit records 0 none).map fun count =>
    (count, records.insert capacityKey (number count))

/-- A transaction under way: the records, and whether each key that it has written was present
before. -/
structure Tx (V : Type) where
  records : Records V
  baseline : List (String × Bool)

namespace Tx

/-- `track`; the counter itself may not be written. -/
def track (key : String) (tx : Tx V) : Option (Tx V) :=
  if key = capacityKey then none
  else if counted key && !tx.baseline.any (·.1 == key) then
    some ⟨tx.records, tx.baseline ++ [(key, decide (key ∈ tx.records))]⟩
  else some tx

/-- `bounded.put`; `undefined` has no text. -/
def put (key : String) (value : Option V) (tx : Tx V) : Option (Tx V) :=
  match value with
  | none => none
  | some value =>
    if authorityValueBytes < (stringify value).utf8ByteSize then none
    else (track key tx).map fun tx => ⟨tx.records.insert key value, tx.baseline⟩

/-- `bounded.delete`, with whether the key was present. -/
def delete (key : String) (tx : Tx V) : Option (Bool × Tx V) :=
  (track key tx).map fun tx =>
    (decide (key ∈ tx.records), ⟨tx.records.erase key, tx.baseline⟩)

def list (keyPrefix : String) (start : Option String) (limit : ℕ) (tx : Tx V) : List (String × V) :=
  (page start limit (tx.records.keys.filter (·.startsWith keyPrefix))).filterMap fun key =>
    (tx.records.lookup key).map fun value => (key, value)

end Tx

/-- The body of a transaction: what it does next may depend on what it has read, and it may catch
a write that is refused. -/
inductive Body (V α : Type) where
  | done (result : α)
  | aborted
  | get (key : String) (rest : Option V → Body V α)
  | list (keyPrefix : String) (start : Option String) (limit : ℕ)
      (rest : List (String × V) → Body V α)
  | put (key : String) (value : Option V) (rest : Bool → Body V α)
  | delete (key : String) (rest : Option Bool → Body V α)

def Body.run : Body V α → Tx V → Option α × Tx V
  | done result, tx => (some result, tx)
  | aborted, tx => (none, tx)
  | get key rest, tx => (rest (tx.records.lookup key)).run tx
  | list keyPrefix start limit rest, tx => (rest (tx.list keyPrefix start limit)).run tx
  | put key value rest, tx =>
    match tx.put key value with
    | none => (rest false).run tx
    | some tx => (rest true).run tx
  | delete key rest, tx =>
    match tx.delete key with
    | none => (rest none).run tx
    | some (existed, tx) => (rest (some existed)).run tx

def presence (present : Bool) : Int := if present then 1 else 0

def netCount (count : ℕ) (tx : Tx V) : Int :=
  tx.baseline.foldl (fun next entry =>
    next + presence (decide (entry.1 ∈ tx.records)) - presence entry.2) count

/-- One transaction of `boundedStore`: a result, or none with the store as it was. -/
def transaction (limit : AuthorityLimit) (body : Body V α) (records : Records V) :
    Option α × Records V :=
  match openCount limit.val records with
  | none => (none, records)
  | some (count, opened) =>
    match body.run ⟨opened, []⟩ with
    | (none, _) => (none, records)
    | (some result, tx) =>
      let next := netCount count tx
      if 0 ≤ next ∧ next ≤ limit.val then
        (some result, if next ≠ count then tx.records.insert capacityKey (number next.toNat)
          else tx.records)
      else (none, records)

/-- The baseline holds every counted key that may have changed, once, as it was at the start. -/
structure Tracked (opened : Records V) (tx : Tx V) : Prop where
  once : (tx.baseline.map Prod.fst).Nodup
  isCounted : ∀ entry ∈ tx.baseline, counted entry.1 = true
  existed : ∀ entry ∈ tx.baseline, entry.2 = decide (entry.1 ∈ opened)
  others : ∀ key, counted key = true → key ∉ tx.baseline.map Prod.fst →
    (key ∈ tx.records ↔ key ∈ opened)
  counter : tx.records.lookup capacityKey = opened.lookup capacityKey

variable {opened : Records V} {tx tx' : Tx V} {key : String}

omit [StoredValue V] in
theorem Tracked.start (opened : Records V) : Tracked opened ⟨opened, []⟩ where
  once := nodup_nil
  isCounted _ h := absurd h not_mem_nil
  existed _ h := absurd h not_mem_nil
  others _ _ _ := Iff.rfl
  counter := rfl

omit [StoredValue V] in
theorem mem_baseline_keys :
    key ∈ tx.baseline.map Prod.fst ↔ tx.baseline.any (·.1 == key) = true := by
  simp [any_eq_true]

omit [StoredValue V] in
theorem Tracked.track (h : Tracked opened tx) (htrack : tx.track key = some tx') :
    Tracked opened tx' ∧ tx'.records = tx.records ∧ key ≠ capacityKey ∧
      (counted key = true → key ∈ tx'.baseline.map Prod.fst) := by
  unfold Tx.track at htrack
  by_cases hcap : key = capacityKey
  · rw [if_pos hcap] at htrack
    cases htrack
  · rw [if_neg hcap] at htrack
    by_cases hnew : (counted key && !tx.baseline.any (·.1 == key)) = true
    · rw [if_pos hnew] at htrack
      cases htrack
      rw [Bool.and_eq_true, Bool.not_eq_true', ← Bool.not_eq_true, ← mem_baseline_keys] at hnew
      refine ⟨⟨?_, ?_, ?_, ?_, h.counter⟩, rfl, hcap, ?_⟩
      · rw [map_append, nodup_append_comm]
        exact nodup_cons.mpr ⟨hnew.2, h.once⟩
      · intro entry hentry
        rcases mem_append.mp hentry with hold | hlast
        · exact h.isCounted entry hold
        · rw [mem_singleton.mp hlast]
          exact hnew.1
      · intro entry hentry
        rcases mem_append.mp hentry with hold | hlast
        · exact h.existed entry hold
        · rw [mem_singleton.mp hlast]
          exact decide_eq_decide.mpr (h.others key hnew.1 hnew.2)
      · intro other hcoun hout
        apply h.others other hcoun
        intro hold
        apply hout
        rw [map_append]
        exact mem_append_left _ hold
      · intro _
        rw [map_append]
        exact mem_append_right _ (mem_singleton_self _)
    · rw [if_neg hnew] at htrack
      cases htrack
      refine ⟨h, rfl, hcap, ?_⟩
      intro hcoun
      rw [mem_baseline_keys]
      by_contra habs
      rw [Bool.not_eq_true] at habs
      exact hnew (by rw [hcoun, habs]; rfl)

omit [StoredValue V] in
theorem Tracked.write (h : Tracked opened tx) (records : Records V)
    (htrac : counted key = true → key ∈ tx.baseline.map Prod.fst) (hkey : key ≠ capacityKey)
    (hoth : ∀ other, other ≠ key → records.lookup other = tx.records.lookup other) :
    Tracked opened ⟨records, tx.baseline⟩ where
  once := h.once
  isCounted := h.isCounted
  existed := h.existed
  others other hcoun hout := by
    have hne : other ≠ key := by
      rintro rfl
      exact hout (htrac hcoun)
    rw [← h.others other hcoun hout, KeyTable.mem_iff, KeyTable.mem_iff, hoth other hne]
  counter := (hoth capacityKey (Ne.symm hkey)).trans h.counter

theorem Tracked.put {value : Option V} (h : Tracked opened tx)
    (hput : tx.put key value = some tx') : Tracked opened tx' := by
  unfold Tx.put at hput
  cases value with
  | none => cases hput
  | some value =>
    dsimp only at hput
    split_ifs at hput
    obtain ⟨tracked, htrack, rfl⟩ := Option.map_eq_some_iff.mp hput
    obtain ⟨hkept, -, hkey, hin⟩ := h.track htrack
    exact hkept.write _ hin hkey fun other hne => AList.lookup_insert_ne hne

omit [StoredValue V] in
theorem Tracked.delete {existed : Bool} (h : Tracked opened tx)
    (hdel : tx.delete key = some (existed, tx')) : Tracked opened tx' := by
  obtain ⟨tracked, htrack, heq⟩ := Option.map_eq_some_iff.mp hdel
  cases heq
  obtain ⟨hkept, -, hkey, hin⟩ := h.track htrack
  exact hkept.write _ hin hkey fun other hne => AList.lookup_erase_ne hne

theorem Tracked.run {body : Body V α} (h : Tracked opened tx) : Tracked opened (body.run tx).2 := by
  induction body generalizing tx with
  | done result => exact h
  | aborted => exact h
  | get key rest ih => exact ih _ h
  | list keyPrefix start limit rest ih => exact ih _ h
  | put key value rest ih =>
    rw [Body.run]
    cases hput : tx.put key value with
    | none => exact ih _ h
    | some written => exact ih _ (h.put hput)
  | delete key rest ih =>
    rw [Body.run]
    cases hdel : tx.delete key with
    | none => exact ih _ h
    | some written => exact ih _ (h.delete hdel)

omit [StoredValue V] in
theorem countP_present {keys : List String} (hkeys : keys.Nodup) (records : Records V) :
    records.keys.countP (· ∈ keys) = keys.countP (· ∈ records) := by
  rw [countP_eq_length_filter, countP_eq_length_filter]
  apply List.Perm.length_eq
  rw [perm_ext_iff_of_nodup (records.keys_nodup.filter _) (hkeys.filter _)]
  intro key
  rw [mem_filter, mem_filter, decide_eq_true_eq, decide_eq_true_eq]
  exact And.comm

omit [StoredValue V] in
theorem countedRecords_split {keys : List String} (hkeys : keys.Nodup)
    (hcoun : ∀ key ∈ keys, counted key = true) (records : Records V) : countedRecords records =
      keys.countP (· ∈ records) +
        records.keys.countP fun key => counted key && decide (key ∉ keys) := by
  have hin : records.keys.countP (fun key => counted key && decide (key ∈ keys)) =
      records.keys.countP (· ∈ keys) := by
    apply countP_congr
    intro key _
    rw [Bool.and_eq_true, decide_eq_true_eq]
    exact and_iff_right_of_imp (hcoun key)
  rw [countedRecords, ← countP_present hkeys, ← hin]
  induction records.keys with
  | nil => rfl
  | cons key rest ih =>
    simp only [countP_cons, ih]
    by_cases hkey : counted key = true <;> by_cases hmem : key ∈ keys <;>
      simp [hkey, hmem] <;> omega

omit [StoredValue V] in
theorem netCount_eq (count : ℕ) (tx : Tx V) : netCount count tx =
      count + (tx.baseline.countP fun entry => decide (entry.1 ∈ tx.records)) -
        (tx.baseline.countP fun entry => entry.2) := by
  have hfold : ∀ (entries : List (String × Bool)) (start : Int),
      entries.foldl (fun next entry =>
          next + presence (decide (entry.1 ∈ tx.records)) - presence entry.2) start =
        start + (entries.countP fun entry => decide (entry.1 ∈ tx.records)) -
          (entries.countP fun entry => entry.2) := by
    intro entries
    induction entries with
    | nil =>
      intro start
      simp
    | cons entry rest ih =>
      intro start
      rw [foldl_cons, ih, countP_cons, countP_cons, presence, presence]
      by_cases hnow : decide (entry.1 ∈ tx.records) = true <;>
        by_cases hthen : entry.2 = true <;> simp [hnow, hthen] <;> omega
  exact hfold _ _

omit [StoredValue V] in
theorem Tracked.netCount (h : Tracked opened tx) :
    netCount (countedRecords opened) tx = countedRecords tx.records := by
  have hnow : (tx.baseline.countP fun entry => decide (entry.1 ∈ tx.records)) =
      (tx.baseline.map Prod.fst).countP (· ∈ tx.records) := by
    rw [countP_map]
    rfl
  have hthen : (tx.baseline.countP fun entry => entry.2) =
      (tx.baseline.map Prod.fst).countP (· ∈ opened) := by
    rw [countP_map]
    apply countP_congr
    intro entry hentry
    rw [h.existed entry hentry]
    rfl
  have hcoun : ∀ key ∈ tx.baseline.map Prod.fst, counted key = true := by
    intro key hkey
    obtain ⟨entry, hentry, rfl⟩ := mem_map.mp hkey
    exact h.isCounted entry hentry
  have hoth : (tx.records.keys.countP fun key =>
        counted key && decide (key ∉ tx.baseline.map Prod.fst)) =
      opened.keys.countP fun key => counted key && decide (key ∉ tx.baseline.map Prod.fst) := by
    rw [countP_eq_length_filter, countP_eq_length_filter]
    apply List.Perm.length_eq
    rw [perm_ext_iff_of_nodup (tx.records.keys_nodup.filter _) (opened.keys_nodup.filter _)]
    intro key
    rw [mem_filter, mem_filter, Bool.and_eq_true, decide_eq_true_eq]
    exact and_congr_left fun hkey => h.others key hkey.1 hkey.2
  have hstart := countedRecords_split h.once hcoun opened
  have hend := countedRecords_split h.once hcoun tx.records
  rw [netCount_eq, hnow, hthen, hstart, hend, hoth]
  omega

/-! ## Accounting -/

/-- The counter holds the number of the application records, which is within the limit. -/
def Accounted (limit : AuthorityLimit) (records : Records V) : Prop :=
  countedRecords records ≤ limit.val ∧
    (records.lookup capacityKey).bind safeInteger = some (countedRecords records : Int)

/-- A store whose counter, if it has a valid one, is the number of its application records. -/
def CounterAgrees (limit : AuthorityLimit) (records : Records V) : Prop :=
  ∀ value count, records.lookup capacityKey = some value →
    readCount limit.val value = some count → count = countedRecords records

omit [StoredValue V] in
theorem countedRecords_insert_capacity (records : Records V) (value : V) :
    countedRecords (records.insert capacityKey value) = countedRecords records := by
  have hrest : ∀ r : Records V, countedRecords r =
      r.keys.countP fun key => counted key && decide (key ∉ ([] : List String)) := by
    intro r
    rw [countedRecords_split nodup_nil (fun _ h => absurd h not_mem_nil) r]
    exact Nat.zero_add _
  rw [hrest, hrest, countP_eq_length_filter, countP_eq_length_filter]
  apply List.Perm.length_eq
  rw [perm_ext_iff_of_nodup ((AList.keys_nodup _).filter _) (records.keys_nodup.filter _)]
  intro key
  rw [mem_filter, mem_filter, Bool.and_eq_true]
  apply and_congr_left
  intro hkey
  have hne : key ≠ capacityKey := by
    rintro rfl
    exact absurd hkey.1 (by decide)
  exact (AList.mem_insert _).trans (or_iff_right hne)

theorem readCount_eq {limit : ℕ} {value : V} {count : ℕ} (h : readCount limit value = some count) :
    safeInteger value = some (count : Int) ∧ count ≤ limit := by
  unfold readCount at h
  split at h
  · next n hn =>
      split_ifs at h with hrange
      cases h
      refine ⟨?_, by omega⟩
      rw [hn, Int.toNat_of_nonneg hrange.1]
  · cases h

variable {limit : AuthorityLimit}

theorem safeInteger_number_of_le {count : ℕ} (h : count ≤ limit.val) :
    safeInteger (number count : V) = some (count : Int) := by
  apply StoredValue.safeInteger_number
  have hlimit : limit.val ≤ 8192 := limit.property.2
  rw [maxSafeInteger]
  omega

theorem Accounted.agrees {records : Records V}
    (h : Accounted limit records) : CounterAgrees limit records := by
  intro value count hvalue hcount
  have hread := (readCount_eq hcount).1
  have hcounte := h.2
  rw [hvalue, Option.bind_some, hread] at hcounte
  exact Int.ofNat_inj.mp (Option.some.inj hcounte)

theorem openCount_accounted {records opened : Records V} {count : ℕ}
    (hagrees : CounterAgrees limit records)
    (h : openCount limit.val records = some (count, opened)) :
    count = countedRecords opened ∧ Accounted limit opened := by
  unfold openCount at h
  cases hcounte : records.lookup capacityKey with
  | some value =>
    rw [hcounte] at h
    obtain ⟨read, hread, heq⟩ := Option.map_eq_some_iff.mp h
    cases heq
    obtain ⟨hinteg, hle⟩ := readCount_eq hread
    have hcount := hagrees value count hcounte hread
    refine ⟨hcount, hcount ▸ hle, ?_⟩
    rw [hcounte, Option.bind_some, hinteg, hcount]
  | none =>
    rw [hcounte] at h
    obtain ⟨adopted, hadopt, heq⟩ := Option.map_eq_some_iff.mp h
    cases heq
    rw [adopt_counts] at hadopt
    split_ifs at hadopt with hover
    cases hadopt
    rw [countedRecords_insert_capacity]
    refine ⟨rfl, ?_, ?_⟩
    · rw [countedRecords_insert_capacity]
      omega
    · rw [AList.lookup_insert, Option.bind_some, countedRecords_insert_capacity]
      exact safeInteger_number_of_le (Nat.le_of_not_lt hover)

theorem transaction_committed {body : Body V α}
    {records records' : Records V} {result : α} (hagrees : CounterAgrees limit records)
    (h : transaction limit body records = (some result, records')) : Accounted limit records' := by
  unfold transaction at h
  cases hopen : openCount limit.val records with
  | none =>
    rw [hopen] at h
    cases h
  | some opening =>
    obtain ⟨count, opened⟩ := opening
    obtain ⟨rfl, hopene⟩ := openCount_accounted hagrees hopen
    have htrac : Tracked opened (body.run ⟨opened, []⟩).2 := (Tracked.start opened).run
    rw [hopen] at h
    dsimp only at h
    cases hrun : body.run ⟨opened, []⟩ with
    | mk answer tx =>
      rw [hrun] at h htrac
      cases answer with
      | none => cases h
      | some answer =>
        have hnet := htrac.netCount
        dsimp only at h hnet
        rw [hnet] at h
        split_ifs at h with hrange hsame
        · cases h
          have hle : countedRecords tx.records ≤ limit.val := by omega
          refine ⟨?_, ?_⟩
          · rw [countedRecords_insert_capacity]
            exact hle
          · rw [AList.lookup_insert, Option.bind_some, countedRecords_insert_capacity]
            exact safeInteger_number_of_le hle
        · cases h
          have hle : countedRecords tx.records ≤ limit.val := by omega
          have heq : countedRecords tx.records = countedRecords opened := by omega
          refine ⟨hle, ?_⟩
          rw [htrac.counter, hopene.2, heq]
        · cases h

theorem transaction_rejected {body : Body V α} {records : Records V}
    (h : (transaction limit body records).1 = none) :
    (transaction limit body records).2 = records := by
  unfold transaction at h ⊢
  cases hopen : openCount limit.val records with
  | none => rfl
  | some opening =>
    obtain ⟨count, opened⟩ := opening
    rw [hopen] at h
    dsimp only at h ⊢
    cases hrun : body.run ⟨opened, []⟩ with
    | mk answer tx =>
      rw [hrun] at h
      cases answer with
      | none => rfl
      | some answer =>
        dsimp only at h ⊢
        by_cases hrange : 0 ≤ netCount count tx ∧ netCount count tx ≤ limit.val
        · rw [if_pos hrange] at h
          cases h
        · rw [if_neg hrange]

/-- One transaction after the other. -/
def runAll (limit : AuthorityLimit) (bodies : List (Body V α)) (records : Records V) : Records V :=
  bodies.foldl (fun records body => (transaction limit body records).2) records

theorem CounterAgrees.transaction {records : Records V}
    (h : CounterAgrees limit records) (body : Body V α) :
    CounterAgrees limit (transaction limit body records).2 := by
  cases hres : (BoundedStore.transaction limit body records).1 with
  | none =>
    rw [transaction_rejected hres]
    exact h
  | some result => exact (transaction_committed h (Prod.ext hres rfl)).agrees

theorem CounterAgrees.runAll {records : Records V}
    (h : CounterAgrees limit records) (bodies : List (Body V α)) :
    CounterAgrees limit (runAll limit bodies records) := by
  induction bodies generalizing records with
  | nil => exact h
  | cons body rest ih => exact ih (h.transaction body)

/-- After any transactions, one that commits leaves the counter at the number of the records and
within the limit, and one that is rejected leaves the store as it was. -/
theorem bounded_store_accounting (limit : AuthorityLimit) (start : Records V)
    (hagrees : CounterAgrees limit start) (before : List (Body V α)) (body : Body V α) :
    let records := runAll limit before start
    ((transaction limit body records).1.isSome →
      Accounted limit (transaction limit body records).2) ∧
    ((transaction limit body records).1 = none →
      (transaction limit body records).2 = records) := by
  intro records
  constructor
  · intro hcom
    obtain ⟨result, hres⟩ := Option.isSome_iff_exists.mp hcom
    exact transaction_committed (hagrees.runAll before) (Prod.ext hres rfl)
  · exact transaction_rejected

end Transaction

/-- A store without a counter: two records and the cursor of the sweep. -/
def uncountedStore : Records (Json ℕ) :=
  ((∅ : Records (Json ℕ)).insert "device:a" .null |>.insert "device:b" .null).insert
    cursorKey .null

theorem uncountedStore_agrees : CounterAgrees ⟨3, by decide⟩ uncountedStore := by
  intro value count hvalue
  have hnone : uncountedStore.lookup capacityKey = none := by
    rw [AList.lookup_eq_none]
    decide
  rw [hnone] at hvalue
  cases hvalue

/-- A transaction that writes one record. -/
def insertDevice : Body (Json ℕ) Unit :=
  .put "device:c" (some (.bool true)) fun _ => .done ()

theorem bounded_store_accounting_uncounted :
    let records := runAll ⟨3, by decide⟩ [insertDevice] uncountedStore
    ((transaction ⟨3, by decide⟩ insertDevice records).1.isSome →
      Accounted ⟨3, by decide⟩ (transaction ⟨3, by decide⟩ insertDevice records).2) ∧
    ((transaction ⟨3, by decide⟩ insertDevice records).1 = none →
      (transaction ⟨3, by decide⟩ insertDevice records).2 = records) :=
  bounded_store_accounting ⟨3, by decide⟩ uncountedStore uncountedStore_agrees [insertDevice]
    insertDevice

def miscountedStore : Records (Json ℕ) :=
  ((∅ : Records (Json ℕ)).insert "device:a" .null).insert capacityKey (.num 0)

/-- A transaction that writes nothing commits, and the wrong counter stays. -/
theorem miscounted_store_commits :
    (transaction ⟨2, by decide⟩ (Body.done ()) miscountedStore).1 = some () ∧
      ¬ Accounted ⟨2, by decide⟩
        (transaction ⟨2, by decide⟩ (Body.done ()) miscountedStore).2 := by
  have hrun : transaction ⟨2, by decide⟩ (Body.done ()) miscountedStore =
      (some (), miscountedStore) := rfl
  rw [hrun]
  refine ⟨rfl, ?_⟩
  rintro ⟨-, hcounte⟩
  have hread : (miscountedStore.lookup capacityKey).bind StoredValue.safeInteger = some 0 := rfl
  have hcount : countedRecords miscountedStore = 1 := by decide
  rw [hread, hcount] at hcounte
  cases hcounte

end BoundedStore

end Wenlan.Relay
