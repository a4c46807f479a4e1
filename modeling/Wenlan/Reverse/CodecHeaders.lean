import Wenlan.Reverse.CodecText

/-!
# Headers on both sides

The desktop keeps headers sorted by name, the relay in the order they were set.
Both read their own entries back unchanged and answer lookups alike.
-/

namespace Wenlan.Reverse

open Desktop.HeaderMap List
open Support (Json)
open Wenlan.Relay (utf16Length)

/-! ## Header maps -/

section Headers

variable {headers fields acc : List (String × String)} {header : String × String}
  {name value : String}

theorem lookup_cons_if {α : Type} (other : String) (first : String × α)
    (rest : List (String × α)) : (first :: rest).lookup other =
      if other = first.1 then some first.2 else rest.lookup other := by
  rw [lookup_cons]
  by_cases h : other = first.1
  · rw [if_pos h, beq_iff_eq.mpr h]
  · rw [if_neg h, beq_eq_false_iff_ne.mpr h]

theorem lookup_insertEntry (name value other : String) (entries : List (String × String)) :
    (Desktop.insertEntry name value entries).lookup other =
      if other = name then some value else entries.lookup other := by
  induction entries with
  | nil => exact lookup_cons_if other (name, value) []
  | cons first rest ih =>
    rw [Desktop.insertEntry]
    split
    · exact lookup_cons_if other (name, value) _
    · split
      · next heq =>
          rw [lookup_cons_if, lookup_cons_if, ← heq]
          split <;> rfl
      · next hne =>
          rw [lookup_cons_if, lookup_cons_if, ih]
          by_cases hfirst : other = first.1
          · have hother : other ≠ name := fun h => hne (h.symm.trans hfirst)
            rw [if_pos hfirst, if_neg hother, if_pos hfirst]
          · rw [if_neg hfirst, if_neg hfirst]

theorem insertEntry_last {entries : List (String × String)}
    (h : ∀ entry ∈ entries, entry.1 < name) :
    Desktop.insertEntry name value entries = entries ++ [(name, value)] := by
  induction entries with
  | nil => rfl
  | cons first rest ih =>
    have hfirst := h first mem_cons_self
    have hrest := ih fun entry hmem => h entry (mem_cons_of_mem _ hmem)
    rw [Desktop.insertEntry, if_neg (lt_asymm hfirst), if_neg (ne_of_gt hfirst), hrest]
    rfl

theorem ofFields_entries (fields : List (String × String)) :
    (ofFields fields).entries =
      fields.foldl (fun entries field => Desktop.insertEntry field.1 field.2 entries) [] := by
  suffices hfold : ∀ map : Desktop.HeaderMap,
      (fields.foldl (fun headers field => headers.insert field.1 field.2) map).entries =
        fields.foldl (fun entries field => Desktop.insertEntry field.1 field.2 entries)
          map.entries from hfold .empty
  induction fields with
  | nil => exact fun _ => rfl
  | cons field rest ih => exact fun map => ih (map.insert field.1 field.2)

theorem foldl_insertEntry_sorted (h : (acc ++ fields).Pairwise fun a b => a.1 < b.1) :
    fields.foldl (fun entries field => Desktop.insertEntry field.1 field.2 entries) acc =
      acc ++ fields := by
  induction fields generalizing acc with
  | nil => rw [foldl_nil, append_nil]
  | cons field rest ih =>
    have hlast : ∀ entry ∈ acc, entry.1 < field.1 := fun entry hmem =>
      (pairwise_append.mp h).2.2 entry hmem field mem_cons_self
    rw [foldl_cons, insertEntry_last hlast, ih, append_assoc]
    · rfl
    · rw [append_assoc]
      exact h

theorem ofFields_self (map : Desktop.HeaderMap) : ofFields map.entries = map := by
  have hents : (ofFields map.entries).entries = map.entries := by
    rw [ofFields_entries]
    exact foldl_insertEntry_sorted map.sorted
  cases map
  cases hread : ofFields _ with
  | mk entries sorted =>
    rw [hread] at hents
    cases hents
    rfl

theorem mem_ofFields {entry : String × String}
    (h : entry ∈ (ofFields fields).entries) : entry ∈ fields := by
  rw [ofFields_entries] at h
  suffices hfold : ∀ acc, entry ∈ fields.foldl
      (fun entries field => Desktop.insertEntry field.1 field.2 entries) acc →
      entry ∈ acc ∨ entry ∈ fields by
    exact (hfold [] h).resolve_left not_mem_nil
  clear h
  induction fields with
  | nil => exact fun acc h => .inl h
  | cons field rest ih =>
    intro acc h
    rcases ih _ h with hmem | hmem
    · rcases Desktop.mem_insertEntry hmem with rfl | hmem
      · exact .inr mem_cons_self
      · exact .inl hmem
    · exact .inr (mem_cons_of_mem _ hmem)

theorem lookup_eq_none_of_not_mem {fields : List (String × String)}
    (h : name ∉ fields.map Prod.fst) : fields.lookup name = none := by
  induction fields with
  | nil => rfl
  | cons field rest ih =>
    rw [map_cons, mem_cons, not_or] at h
    rw [lookup_cons_if, if_neg h.1]
    exact ih h.2

/-- A map read from distinct fields answers as the fields do. -/
theorem get?_ofFields (h : (fields.map Prod.fst).Nodup) (name : String) :
    (ofFields fields).get? name = fields.lookup name := by
  have hfold : ∀ acc, (fields.foldl
      (fun entries field => Desktop.insertEntry field.1 field.2 entries) acc).lookup name =
      (fields.lookup name).or (acc.lookup name) := by
    induction fields with
    | nil => exact fun acc => rfl
    | cons field rest ih =>
      intro acc
      rw [map_cons, nodup_cons] at h
      rw [foldl_cons, ih h.2, lookup_insertEntry, lookup_cons_if]
      by_cases hname : name = field.1
      · subst hname
        rw [lookup_eq_none_of_not_mem h.1, if_pos rfl, if_pos rfl]
        rfl
      · rw [if_neg hname, if_neg hname]
  unfold get?
  rw [ofFields_entries, hfold, lookup_nil, Option.or_none]

theorem setProperty_fresh (h : header.1 ∉ headers.map Prod.fst) :
    Relay.setProperty headers header = headers ++ [header] := by
  induction headers with
  | nil => rfl
  | cons first rest ih =>
    rw [map_cons, mem_cons, not_or] at h
    rw [Relay.setProperty, if_neg (Ne.symm h.1), ih h.2]
    rfl

theorem mem_foldl_setProperty {entry : String × String}
    (h : entry ∈ fields.foldl Relay.setProperty acc) : entry ∈ acc ∨ entry ∈ fields := by
  induction fields generalizing acc with
  | nil => exact .inl h
  | cons field rest ih =>
    rcases ih h with hmem | hmem
    · rcases Relay.mem_setProperty hmem with rfl | hmem
      · exact .inr mem_cons_self
      · exact .inl hmem
    · exact .inr (mem_cons_of_mem _ hmem)

theorem foldl_setProperty_self (h : ((acc ++ fields).map Prod.fst).Nodup) :
    fields.foldl Relay.setProperty acc = acc ++ fields := by
  induction fields generalizing acc with
  | nil => rw [foldl_nil, append_nil]
  | cons field rest ih =>
    have hfresh : field.1 ∉ acc.map Prod.fst := by
      rw [map_append, map_cons, nodup_append] at h
      intro hmem
      exact h.2.2 _ hmem _ mem_cons_self rfl
    rw [foldl_cons, setProperty_fresh hfresh, ih, append_assoc]
    · rfl
    · rw [append_assoc]
      exact h

theorem record_entries (fields : List (String × String)) :
    (Relay.HeaderRecord.ofFields fields).entries = fields.foldl Relay.setProperty [] := by
  suffices hfold : ∀ record : Relay.HeaderRecord,
      (fields.foldl Relay.HeaderRecord.set record).entries =
        fields.foldl Relay.setProperty record.entries from hfold .empty
  induction fields with
  | nil => exact fun _ => rfl
  | cons field rest ih => exact fun record => ih (record.set field)

theorem record_ext {a b : Relay.HeaderRecord} (h : a.entries = b.entries) : a = b := by
  cases a
  cases b
  cases h
  rfl

theorem record_self (record : Relay.HeaderRecord) :
    Relay.HeaderRecord.ofFields record.entries = record := by
  apply record_ext
  rw [record_entries]
  exact foldl_setProperty_self record.distinct

end Headers

/-! ## Accepted frames -/

def headerNames (request : Bool) : List String :=
  if request then Relay.requestHeaderNames else Relay.responseHeaderNames

def headerAccepted (request : Bool) (header : String × String) : Bool :=
  decide (Desktop.byteLength header.2 ≤ Desktop.maxHeaderValueBytes) &&
    header.2.toList.all Desktop.isHeaderValueChar &&
    !(request && header.1 == "authorization" && !Desktop.validAuthorization header.2)

def HeadersAccepted (request : Bool) (headers : List (String × String)) : Prop :=
  ∀ header ∈ headers, Desktop.validateHeader request header = true

theorem desktop_validateHeader_eq (request : Bool) (header : String × String) :
    Desktop.validateHeader request header =
      ((headerNames request).contains header.1 && headerAccepted request header) := by
  have hnames : (if request then Desktop.requestHeaderNames else Desktop.responseHeaderNames) =
      headerNames request := by
    cases request <;> rfl
  unfold Desktop.validateHeader headerAccepted
  rw [hnames]
  simp only [Bool.and_assoc]

theorem relay_validateHeader_eq (request : Bool) (name value : String) :
    Relay.validateHeader request (name, .str value) =
      if headerAccepted request (name, value) then some (name, value) else none := by
  unfold Relay.validateHeader headerAccepted
  simp only [headerValue_eq, validAuthorization_eq]
  cases Relay.headerValuePattern value <;>
    cases decide (Relay.limits.maxHeaderValueBytes < utf16Length value) <;>
    cases request && name == "authorization" && !Relay.authorizationPattern value <;> simp

theorem mapM_validateHeader {request : Bool} {fields : List (String × Relay.Value)}
    {headers : List (String × String)}
    (h : fields.mapM (Relay.validateHeader request) = some headers) :
    headers.map Prod.fst = fields.map Prod.fst ∧
      ∀ header ∈ headers, headerAccepted request header := by
  induction fields generalizing headers with
  | nil =>
    cases h
    exact ⟨rfl, nofun⟩
  | cons field rest ih =>
    obtain ⟨name, json⟩ := field
    rw [mapM_cons, Option.bind_eq_bind, Option.bind_eq_some_iff] at h
    obtain ⟨header, hhead, h⟩ := h
    rw [Option.bind_eq_bind, Option.bind_eq_some_iff] at h
    obtain ⟨tail, htail, h⟩ := h
    cases h
    obtain ⟨hnames, hall⟩ := ih htail
    cases json with
    | str value =>
      rw [relay_validateHeader_eq] at hhead
      split at hhead
      · next haccepted =>
          cases hhead
          refine ⟨congrArg (name :: ·) hnames, fun other hmem => ?_⟩
          rcases mem_cons.mp hmem with rfl | hmem
          · exact haccepted
          · exact hall other hmem
      · cases hhead
    | null | bool | num | arr | obj => cases hhead

theorem mapFields_headersJson {ν : Type} (number : Nat → ν) (headers : List (String × String)) :
    Json.mapFields number (headers.map fun header => (header.1, .str header.2)) =
      headers.map fun header => (header.1, .str header.2) := by
  induction headers with
  | nil => rfl
  | cons header rest ih => exact congrArg ((header.1, Json.str header.2) :: ·) ih

theorem headersAccepted_of_validate {request : Bool} {value : Option Relay.Value}
    {headers : Relay.HeaderRecord}
    (h : Relay.validateHeaders value (headerNames request) request = some headers) :
    HeadersAccepted request headers.entries := by
  unfold Relay.validateHeaders at h
  split at h
  · next fields =>
      split at h
      · cases h
      · next hnames =>
          obtain ⟨list, hlist, rfl⟩ := Option.map_eq_some_iff.mp h
          obtain ⟨hsame, hall⟩ := mapM_validateHeader hlist
          intro header hmem
          rw [record_entries] at hmem
          have hhead := (mem_foldl_setProperty hmem).resolve_left not_mem_nil
          have hname : header.1 ∈ fields.map Prod.fst := hsame ▸ mem_map_of_mem hhead
          obtain ⟨field, hfield, heq⟩ := mem_map.mp hname
          have hallow : (headerNames request).contains field.1 := by
            by_contra hnot
            exact hnames (any_eq_true.mpr ⟨field, hfield, by simpa using hnot⟩)
          rw [desktop_validateHeader_eq, ← heq, hallow, Bool.true_and]
          exact hall header hhead
  · cases h

theorem mapM_validateHeader_self {request : Bool} {headers : List (String × String)}
    (h : ∀ header ∈ headers, headerAccepted request header) :
    (headers.map fun header => (header.1, Json.str header.2)).mapM
      (Relay.validateHeader request) = some headers := by
  induction headers with
  | nil => rfl
  | cons header rest ih =>
    have hrest := ih fun other hmem => h other (mem_cons_of_mem _ hmem)
    have hhead : headerAccepted request (header.1, header.2) :=
      h header mem_cons_self
    rw [map_cons, mapM_cons, relay_validateHeader_eq, if_pos hhead, hrest]
    rfl

theorem validate_of_headersAccepted {request : Bool} {headers : Relay.HeaderRecord}
    (h : HeadersAccepted request headers.entries) :
    Relay.validateHeaders (some ((Relay.headersJson headers).mapNumbers Relay.number))
      (headerNames request) request = some headers := by
  have hvalid : ∀ header ∈ headers.entries,
      (headerNames request).contains header.1 ∧ headerAccepted request header := by
    intro header hmem
    have hhead := h header hmem
    rw [desktop_validateHeader_eq, Bool.and_eq_true] at hhead
    exact hhead
  have hread := mapM_validateHeader_self fun header hmem => (hvalid header hmem).2
  have hnames : ((headers.entries.map fun header =>
      (header.1, (Json.str header.2 : Relay.Value))).any
      fun field => !(headerNames request).contains field.1) = false := by
    rw [any_eq_false]
    intro field hmem
    obtain ⟨header, hhead, rfl⟩ := mem_map.mp hmem
    simp only [(hvalid header hhead).1, Bool.not_true, Bool.false_eq_true, not_false_iff]
  unfold Relay.validateHeaders Relay.headersJson
  simp only [Json.mapNumbers, mapFields_headersJson, hnames, hread, Bool.false_eq_true, if_false,
    Option.map_some, record_self]

end Wenlan.Reverse
