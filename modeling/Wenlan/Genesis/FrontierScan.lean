import Mathlib.Data.Prod.Lex
import Mathlib.Data.String.Basic
import Wenlan.Genesis.Frontier
import Wenlan.Support.IntegerText
import Wenlan.Support.KeysetScan

/-!
# Scans of the frontier

`scan_slice`, `write_cursor` and `read_cursor` of `m6/frontier.rs`: a pass walks the rows of a
space and an epoch a page at a time, and keeps its position as a text in `app_metadata`.
-/

namespace Wenlan.Genesis

open Support.KeysetScan List
open Support (KeyTable)
open Support.KeysetScan (after page)
open Support.IntegerText (InI64 parseI64 parseI64_format format_chars)

structure ScanCursor where
  nextScanAt : Int
  firstSeenAt : Int
  independenceGroupId : String
  deriving DecidableEq

/-- `FrontierRow` of the scan: a row of the table with its group. -/
structure ScanRow where
  independenceGroupId : String
  firstSeenAt : Int
  nextScanAt : Int
  deriving DecidableEq

namespace ScanCursor

def key (cursor : ScanCursor) : Lex (Int × Lex (Int × String)) :=
  toLex (cursor.nextScanAt, toLex (cursor.firstSeenAt, cursor.independenceGroupId))

theorem key_injective : Function.Injective key := by
  rintro ⟨next, first, group⟩ ⟨next', first', group'⟩ h
  have hnext : next = next' := congrArg (fun key => (ofLex key).1) h
  have hfirst : first = first' := congrArg (fun key => (ofLex (ofLex key).2).1) h
  have hgroup : group = group' := congrArg (fun key => (ofLex (ofLex key).2).2) h
  rw [hnext, hfirst, hgroup]

/-- The row value `(next_scan_at, first_seen_at, independence_group_id)`. -/
instance : LinearOrder ScanCursor := LinearOrder.lift' key key_injective

def row (cursor : ScanCursor) : ScanRow :=
  ⟨cursor.independenceGroupId, cursor.firstSeenAt, cursor.nextScanAt⟩

end ScanCursor

def ScanRow.cursor (row : ScanRow) : ScanCursor :=
  ⟨row.nextScanAt, row.firstSeenAt, row.independenceGroupId⟩

def splitBar (text : List Char) : List Char × Option (List Char) :=
  (text.takeWhile (· != '|'), (text.dropWhile (· != '|')).tail?)

/-- `parse_cursor`; `splitn(3, '|')` leaves the separators of the last part alone. -/
def parseCursor (value : String) : Option ScanCursor := do
  let (first, rest) := splitBar value.toList
  let nextScanAt ← parseI64 first
  let (second, rest) := splitBar (← rest)
  let firstSeenAt ← parseI64 second
  let group ← rest
  if group.isEmpty then none
  else some ⟨nextScanAt, firstSeenAt, String.ofList group⟩

/-- The value that `write_cursor` stores. -/
def formatCursor : Option ScanCursor → String
  | some cursor =>
    toString cursor.nextScanAt ++ "|" ++ toString cursor.firstSeenAt ++ "|" ++
      cursor.independenceGroupId
  | none => ""

/-- `app_metadata`. -/
abbrev Metadata := KeyTable String String

def frontierCursorKeyPrefix : String := "m6_frontier_cursor_v1:"

def cursorKey (space : String) : String := frontierCursorKeyPrefix ++ space

def readCursor (space : String) (metadata : Metadata) : Option ScanCursor :=
  (metadata.lookup (cursorKey space)).bind parseCursor

def writeCursor (space : String) (cursor : Option ScanCursor) (metadata : Metadata) : Metadata :=
  metadata.insert (cursorKey space) (formatCursor cursor)

theorem splitBar_append {part : List Char} (hpart : '|' ∉ part) (rest : List Char) :
    splitBar (part ++ '|' :: rest) = (part, some rest) := by
  have hkeep : ∀ c ∈ part, (c != '|') := by
    intro c hmem
    rw [bne_iff_ne]
    rintro rfl
    exact hpart hmem
  rw [splitBar, takeWhile_append_of_pos hkeep, dropWhile_append_of_pos hkeep]
  simp

theorem bar_notMem_format (n : Int) : '|' ∉ (toString n).toList := by
  intro hmem
  rcases format_chars n _ hmem with hdigit | hminus
  · cases hdigit
  · cases hminus

theorem readCursor_writeCursor (space : String) (cursor : Option ScanCursor) (metadata : Metadata) :
    readCursor space (writeCursor space cursor metadata) = parseCursor (formatCursor cursor) := by
  rw [readCursor, writeCursor, AList.lookup_insert]
  rfl

theorem parseCursor_none : parseCursor (formatCursor none) = none := by
  decide

theorem parseCursor_some {cursor : ScanCursor} (hnext : InI64 cursor.nextScanAt)
    (hfirst : InI64 cursor.firstSeenAt) : parseCursor (formatCursor (some cursor)) =
      if cursor.independenceGroupId = "" then none else some cursor := by
  have htext : (formatCursor (some cursor)).toList = (toString cursor.nextScanAt).toList ++ '|' ::
        ((toString cursor.firstSeenAt).toList ++ '|' :: cursor.independenceGroupId.toList) := by
    simp [formatCursor]
  rw [parseCursor, htext, splitBar_append (bar_notMem_format _)]
  simp only [parseI64_format hnext, Option.bind_eq_bind, Option.bind_some]
  rw [splitBar_append (bar_notMem_format _)]
  simp only [parseI64_format hfirst, Option.bind_some]
  by_cases hempty : cursor.independenceGroupId = ""
  · rw [if_pos hempty, hempty]
    rfl
  · have hchars : cursor.independenceGroupId.toList.isEmpty = false := by
      rw [isEmpty_eq_false_iff]
      intro hnil
      exact hempty (String.toList_eq_nil_iff.mp hnil)
    rw [if_neg hempty, hchars, String.ofList_toList]
    rfl

/-! ## Slices -/

structure ScanSlice where
  rows : List ScanRow
  /-- `none` means that the pass has come to the end of the rows. -/
  nextCursor : Option ScanCursor
  deriving DecidableEq

def positions (space : String) (coverageEpoch : Int) (frontier : KeyTable GroupKey FrontierRow) :
    List ScanCursor :=
  (KeyTable.select (fun group _ => group.space == space && group.coverageEpoch == coverageEpoch)
    frontier).map fun entry =>
      ⟨entry.2.nextScanAt, entry.2.firstSeenAt, entry.1.independenceGroupId⟩

/-- `scan_slice`, with the row cap as a parameter. -/
def scanSlice (limit : ℕ) (space : String) (coverageEpoch : Int) (cursor : Option ScanCursor)
    (frontier : KeyTable GroupKey FrontierRow) : ScanSlice :=
  let slice := (page cursor limit (positions space coverageEpoch frontier)).map ScanCursor.row
  ⟨slice, if slice.length = limit then slice.getLast?.map ScanRow.cursor else none⟩

/-- One slice of a pass: it resumes from the stored position and stores the next one. -/
def scanTurn (limit : ℕ) (space : String) (coverageEpoch : Int)
    (frontier : KeyTable GroupKey FrontierRow) (metadata : Metadata) : ScanSlice × Metadata :=
  let slice := scanSlice limit space coverageEpoch (readCursor space metadata) frontier
  (slice, writeCursor space slice.nextCursor metadata)

/-- A pass: slices until one has no next position, in at most so many turns. -/
def scanPass (limit : ℕ) (space : String) (coverageEpoch : Int)
    (frontier : KeyTable GroupKey FrontierRow) : ℕ → Metadata → Option (List ScanRow × Metadata)
  | 0, _ => none
  | turns + 1, metadata =>
    let (slice, metadata) := scanTurn limit space coverageEpoch frontier metadata
    match slice.nextCursor with
    | none => some (slice.rows, metadata)
    | some _ => (scanPass limit space coverageEpoch frontier turns metadata).map
        fun (rows, metadata) => (slice.rows ++ rows, metadata)

/-- The table as the database keeps it: its times are integers of 64 bits. -/
def StoredTimes (frontier : KeyTable GroupKey FrontierRow) : Prop :=
  ∀ group row, frontier.lookup group = some row → InI64 row.nextScanAt ∧ InI64 row.firstSeenAt

def frontierRows (space : String) (coverageEpoch : Int)
    (frontier : KeyTable GroupKey FrontierRow) : List ScanRow :=
  (after none (positions space coverageEpoch frontier)).map ScanCursor.row

section Pass

variable {limit : ℕ} {space : String} {coverageEpoch : Int}
  {frontier : KeyTable GroupKey FrontierRow} {metadata : Metadata}

theorem mem_positions {cursor : ScanCursor} : cursor ∈ positions space coverageEpoch frontier ↔
      frontier.lookup ⟨space, cursor.independenceGroupId, coverageEpoch⟩ =
        some ⟨cursor.firstSeenAt, cursor.nextScanAt⟩ := by
  constructor
  · intro hmem
    obtain ⟨⟨group, row⟩, hrow, rfl⟩ := mem_map.mp hmem
    obtain ⟨hlook, hchos⟩ := KeyTable.mem_select.mp hrow
    rw [Bool.and_eq_true, beq_iff_eq, beq_iff_eq] at hchos
    obtain ⟨rfl, rfl⟩ := hchos
    exact hlook
  · intro hlook
    exact mem_map.mpr ⟨⟨⟨space, cursor.independenceGroupId, coverageEpoch⟩,
      ⟨cursor.firstSeenAt, cursor.nextScanAt⟩⟩, KeyTable.mem_select.mpr ⟨hlook, by simp⟩, rfl⟩

theorem positions_nodup (space : String) (coverageEpoch : Int)
    (frontier : KeyTable GroupKey FrontierRow) :
    (positions space coverageEpoch frontier).Nodup := by
  refine List.Nodup.map_on ?_ (frontier.nodupKeys.nodup.filter _)
  rintro ⟨group, row⟩ hmem ⟨group', row'⟩ hmem' heq
  have hin := (KeyTable.mem_select.mp hmem).2
  have hin' := (KeyTable.mem_select.mp hmem').2
  rw [Bool.and_eq_true, beq_iff_eq, beq_iff_eq] at hin hin'
  obtain ⟨space₁, id, epoch₁⟩ := group
  obtain ⟨space₂, id', epoch₂⟩ := group'
  obtain ⟨first, next⟩ := row
  obtain ⟨first', next'⟩ := row'
  obtain ⟨rfl, rfl⟩ := hin
  obtain ⟨rfl, rfl⟩ := hin'
  obtain ⟨rfl, rfl, rfl⟩ := heq
  rfl

theorem scanSlice_short {cursor : Option ScanCursor}
    (hshort : (after cursor (positions space coverageEpoch frontier)).length < limit) :
    scanSlice limit space coverageEpoch cursor frontier =
      ⟨(after cursor (positions space coverageEpoch frontier)).map ScanCursor.row, none⟩ := by
  have hpage : page cursor limit (positions space coverageEpoch frontier) =
      after cursor (positions space coverageEpoch frontier) :=
    take_of_length_le (by omega)
  have hlen : ((after cursor (positions space coverageEpoch frontier)).map
      ScanCursor.row).length ≠ limit := by
    rw [length_map]
    omega
  rw [scanSlice, hpage]
  simp only [if_neg hlen]

theorem scanSlice_full {cursor : Option ScanCursor} (hlimit : 1 ≤ limit)
    (hfull : limit ≤ (after cursor (positions space coverageEpoch frontier)).length) :
    ∃ last, (after cursor (positions space coverageEpoch frontier))[limit - 1]? = some last ∧
      (page cursor limit (positions space coverageEpoch frontier)).getLast? = some last ∧
      scanSlice limit space coverageEpoch cursor frontier =
        ⟨((after cursor (positions space coverageEpoch frontier)).take limit).map ScanCursor.row,
          some last⟩ := by
  have hlen : (page cursor limit (positions space coverageEpoch frontier)).length = limit := by
    rw [page, length_take]
    omega
  obtain ⟨last, hlast⟩ : ∃ last,
      (after cursor (positions space coverageEpoch frontier))[limit - 1]? = some last :=
    ⟨_, getElem?_eq_getElem (by omega)⟩
  have hend : (page cursor limit (positions space coverageEpoch frontier)).getLast? =
      some last := by
    rw [getLast?_eq_getElem?, hlen, page, getElem?_take_of_lt (by omega), hlast]
  have hrows : ((page cursor limit (positions space coverageEpoch frontier)).map
      ScanCursor.row).length = limit := by
    rw [length_map, hlen]
  refine ⟨last, hlast, hend, ?_⟩
  rw [scanSlice]
  simp only [if_pos hrows]
  rw [getLast?_map, hend]
  rfl

end Pass

def PageEndsNamed (limit : ℕ) (rows : List ScanRow) : Prop :=
  ∀ pages row, rows[(pages + 1) * limit - 1]? = some row → row.independenceGroupId ≠ ""

theorem PageEndsNamed.drop {limit : ℕ} {rows : List ScanRow} (h : PageEndsNamed limit rows)
    (hlimit : 1 ≤ limit) : PageEndsNamed limit (rows.drop limit) := by
  intro pages row hrow
  rw [getElem?_drop] at hrow
  apply h (pages + 1) row
  have hindex : (pages + 1 + 1) * limit - 1 = limit + ((pages + 1) * limit - 1) := by
    have hpos : 1 ≤ (pages + 1) * limit := Nat.mul_pos (Nat.succ_pos _) hlimit
    rw [Nat.add_mul (pages + 1) 1 limit]
    omega
  rw [hindex, hrow]

section Pass

variable {limit : ℕ} {space : String} {coverageEpoch : Int}
  {frontier : KeyTable GroupKey FrontierRow} {metadata : Metadata}

theorem scanPass_after (hlimit : 1 ≤ limit) (hstored : StoredTimes frontier) (left : ℕ)
    {cursor : Option ScanCursor} (hread : readCursor space metadata = cursor)
    (hleft : (after cursor (positions space coverageEpoch frontier)).length / limit = left)
    (hnamed : PageEndsNamed limit
      ((after cursor (positions space coverageEpoch frontier)).map ScanCursor.row)) :
    ∃ metadata', readCursor space metadata' = none ∧ ∀ turns, left < turns →
      scanPass limit space coverageEpoch frontier turns metadata = some
        ((after cursor (positions space coverageEpoch frontier)).map ScanCursor.row,
          metadata') := by
  induction left generalizing cursor metadata with
  | zero =>
    have hshort : (after cursor (positions space coverageEpoch frontier)).length < limit :=
      (Nat.div_eq_zero_iff.mp hleft).resolve_left (by omega)
    have hslice := scanSlice_short hshort
    refine ⟨writeCursor space none metadata, ?_, ?_⟩
    · rw [readCursor_writeCursor, parseCursor_none]
    · intro turns hturns
      obtain ⟨turns, rfl⟩ : ∃ t, turns = t + 1 := ⟨turns - 1, by omega⟩
      rw [scanPass, scanTurn, hread]
      simp only [hslice]
  | succ left ih =>
    have hfull : limit ≤ (after cursor (positions space coverageEpoch frontier)).length := by
      by_contra hshort
      rw [Nat.div_eq_of_lt (by omega)] at hleft
      omega
    obtain ⟨last, hlast, hend, hslice⟩ := scanSlice_full hlimit hfull
    have hrest := after_last
      (positions_nodup space coverageEpoch frontier) hend
    have hname : last.independenceGroupId ≠ "" := by
      apply hnamed 0 last.row
      rw [Nat.zero_add, Nat.one_mul, getElem?_map, hlast]
      rfl
    have hmem : last ∈ positions space coverageEpoch frontier := by
      have hpage := mem_of_mem_take (mem_of_getLast? hend)
      exact mem_of_mem_filter ((after_perm _ _).mem_iff.mp hpage)
    have htimes := hstored _ _ (mem_positions.mp hmem)
    have hnext : readCursor space (writeCursor space (some last) metadata) = some last := by
      rw [readCursor_writeCursor, parseCursor_some htimes.1 htimes.2, if_neg hname]
    have hpages : (after (some last) (positions space coverageEpoch frontier)).length / limit =
        left := by
      have hone := Nat.div_eq_sub_div hlimit hfull
      rw [hrest, length_drop]
      omega
    have hnamed' : PageEndsNamed limit
        ((after (some last) (positions space coverageEpoch frontier)).map ScanCursor.row) := by
      rw [hrest, map_drop]
      exact hnamed.drop hlimit
    obtain ⟨metadata', hdone, hpass⟩ := ih hnext hpages hnamed'
    refine ⟨metadata', hdone, ?_⟩
    intro turns hturns
    obtain ⟨turns, rfl⟩ : ∃ t, turns = t + 1 := ⟨turns - 1, by omega⟩
    rw [scanPass, scanTurn, hread]
    simp only [hslice]
    rw [hpass turns (by omega), hrest, Option.map_some, ← map_append, take_append_drop]

theorem frontierRows_sorted (space : String) (coverageEpoch : Int)
    (frontier : KeyTable GroupKey FrontierRow) :
    (frontierRows space coverageEpoch frontier).Pairwise fun first second =>
      first.cursor < second.cursor := by
  rw [frontierRows, pairwise_map]
  exact after_sorted none (positions_nodup space coverageEpoch frontier)

theorem mem_frontierRows {row : ScanRow} : row ∈ frontierRows space coverageEpoch frontier ↔
      frontier.lookup ⟨space, row.independenceGroupId, coverageEpoch⟩ =
        some ⟨row.firstSeenAt, row.nextScanAt⟩ := by
  rw [frontierRows, mem_map]
  constructor
  · rintro ⟨cursor, hmem, rfl⟩
    exact mem_positions.mp (mem_after_none.mp hmem)
  · intro hlook
    exact ⟨row.cursor, mem_after_none.mpr (mem_positions.mpr hlook), rfl⟩

theorem StoredTimes.insert {group : GroupKey} {row : FrontierRow} (h : StoredTimes frontier)
    (hnext : InI64 row.nextScanAt) (hfirst : InI64 row.firstSeenAt) :
    StoredTimes (frontier.insert group row) := by
  intro other row' hrow
  rcases KeyTable.of_lookup_insert hrow with ⟨-, rfl⟩ | hold
  · exact ⟨hnext, hfirst⟩
  · exact h other row' hold

theorem storedTimes_empty : StoredTimes ∅ := by
  intro group row hrow
  rw [AList.lookup_empty] at hrow
  cases hrow

/-- A pass from no cursor shows every row of the space and the epoch once and in order, and
leaves no cursor. -/
theorem scanPass_exact (hlimit : 1 ≤ limit) (hstored : StoredTimes frontier)
    (hnamed : PageEndsNamed limit (frontierRows space coverageEpoch frontier))
    (hstart : readCursor space metadata = none) : ∃ rows metadata',
      (∀ turns, rows.length / limit < turns →
        scanPass limit space coverageEpoch frontier turns metadata = some (rows, metadata')) ∧
      readCursor space metadata' = none ∧
      (rows.Pairwise fun first second => first.cursor < second.cursor) ∧
      ∀ row, row ∈ rows ↔ frontier.lookup ⟨space, row.independenceGroupId, coverageEpoch⟩ =
          some ⟨row.firstSeenAt, row.nextScanAt⟩ := by
  obtain ⟨metadata', hdone, hpass⟩ := scanPass_after hlimit hstored _ hstart rfl hnamed
  refine ⟨frontierRows space coverageEpoch frontier, metadata', ?_, hdone,
    frontierRows_sorted _ _ _, fun row => mem_frontierRows⟩
  intro turns hturns
  rw [frontierRows, List.length_map] at hturns
  exact hpass turns hturns

end Pass

def barRows : KeyTable GroupKey FrontierRow :=
  ((∅ : KeyTable GroupKey FrontierRow).insert ⟨"work", "src:a|b", 1⟩ ⟨5, 7⟩).insert
    ⟨"work", "turn:1", 1⟩ ⟨5, 9⟩

theorem barRows_stored : StoredTimes barRows :=
  (storedTimes_empty.insert (by decide) (by decide)).insert (by decide) (by decide)

theorem barRows_named : PageEndsNamed 1 (frontierRows "work" 1 barRows) := by
  have hrows : frontierRows "work" 1 barRows = [⟨"src:a|b", 5, 7⟩, ⟨"turn:1", 5, 9⟩] := by
    decide
  intro pages row hrow
  rw [hrows] at hrow
  have hmem := mem_of_getElem? hrow
  rw [mem_cons, mem_singleton] at hmem
  rcases hmem with rfl | rfl
  · decide
  · decide

theorem scanPass_exact_barRows : ∃ rows metadata',
      (∀ turns, rows.length / 1 < turns →
        scanPass 1 "work" 1 barRows turns ∅ = some (rows, metadata')) ∧
      readCursor "work" metadata' = none ∧
      (rows.Pairwise fun first second => first.cursor < second.cursor) ∧
      ∀ row, row ∈ rows ↔ barRows.lookup ⟨"work", row.independenceGroupId, 1⟩ =
          some ⟨row.firstSeenAt, row.nextScanAt⟩ :=
  scanPass_exact (Nat.le_refl 1) barRows_stored barRows_named (by decide)

def namelessRow : KeyTable GroupKey FrontierRow :=
  (∅ : KeyTable GroupKey FrontierRow).insert ⟨"work", "", 1⟩ ⟨5, 7⟩

theorem scanPass_namelessRow (turns : ℕ) : ∀ metadata, readCursor "work" metadata = none →
      scanPass 1 "work" 1 namelessRow turns metadata = none := by
  have hslice : scanSlice 1 "work" 1 none namelessRow =
      ⟨[⟨"", 5, 7⟩], some ⟨7, 5, ""⟩⟩ := by
    decide
  have hlost : parseCursor (formatCursor (some ⟨7, 5, ""⟩)) = none :=
    parseCursor_some (by decide) (by decide)
  induction turns with
  | zero =>
    intro metadata hread
    rfl
  | succ turns ih =>
    intro metadata hread
    rw [scanPass, scanTurn, hread]
    simp only [hslice]
    rw [ih _ (by rw [readCursor_writeCursor, hlost]), Option.map_none]

theorem pass_over_nameless_row_never_ends : StoredTimes namelessRow ∧ readCursor "work" ∅ = none ∧
      ∀ turns, scanPass 1 "work" 1 namelessRow turns ∅ = none :=
  ⟨storedTimes_empty.insert (by decide) (by decide), by decide,
    fun turns => scanPass_namelessRow turns ∅ (by decide)⟩

end Wenlan.Genesis
