import Wenlan.Reverse.CodecHeaders

/-!
# The two codecs agree

Both validators accept the same frames and both readers take the same texts back,
so a frame that one side writes reaches the other side unchanged.
-/

namespace Wenlan.Reverse

open Relay.ReverseFrame List
open Support (Json)
open Wenlan.Relay (utf16Length maxSafeInteger)

def requestAccepted (path method body : String) : Bool :=
  !(path != "/mcp" && path != "/connector-info") &&
    !(method != "GET" && method != "POST" && method != "DELETE") &&
    !(path == "/connector-info" && method != "GET") &&
    !((method == "GET" || method == "DELETE") && body != "")

def Accepted : Relay.ReverseFrame → Prop
  | .request id path method headers body =>
    Desktop.validateId id = true ∧ requestAccepted path method body = true ∧
      HeadersAccepted true headers.entries ∧
      ∃ bytes, CanonicalBody Desktop.maxRequestBodyBytes body bytes
  | .response id status headers =>
    Desktop.validateId id = true ∧ 200 ≤ status ∧ status ≤ 599 ∧
      HeadersAccepted false headers.entries
  | .chunk id seq body =>
    Desktop.validateId id = true ∧ seq ≤ maxSafeInteger ∧
      ∃ bytes, CanonicalBody Desktop.maxChunkBodyBytes body bytes ∧ bytes ≠ []
  | .end_ id | .cancel id => Desktop.validateId id = true
  | .credit id seq => Desktop.validateId id = true ∧ seq ≤ maxSafeInteger

theorem bne_empty (body : String) : (body != "") = !body.isEmpty := by
  rw [Bool.eq_iff_iff, bne_iff_ne, Bool.not_eq_true', ← Bool.not_eq_true, String.isEmpty_iff]

theorem CanonicalBody.text_le {body : String} {bytes : List UInt8}
    (h : CanonicalBody Desktop.maxChunkBodyBytes body bytes) :
    body.toList.length ≤ Desktop.maxChunkBodyBase64Bytes ∧ ∀ c ∈ body.toList, IsAscii c := by
  obtain ⟨rfl, hle⟩ := h
  rw [String.toList_ofList]
  refine ⟨?_, encode_ascii bytes⟩
  rw [Support.Base64.length_encode, Desktop.maxChunkBodyBase64Bytes]
  omega

section

variable {limit limit' : Nat} {body : String} {bytes : List UInt8}
  (h : CanonicalBody limit body bytes)
include h

theorem CanonicalBody.mono (hle : limit ≤ limit') : CanonicalBody limit' body bytes :=
  ⟨h.1, Nat.le_trans h.2 hle⟩

theorem CanonicalBody.within (hle : bytes.length ≤ limit') : CanonicalBody limit' body bytes :=
  ⟨h.1, hle⟩

end

theorem chunk_le_request : Desktop.maxChunkBodyBytes ≤ Desktop.maxRequestBodyBytes := by
  decide

theorem desktop_chunkBody_iff (body : String) :
    (!decide (Desktop.maxChunkBodyBase64Bytes < Desktop.byteLength body) &&
        (Desktop.decodeBody body).any fun decoded =>
          !(decoded.isEmpty || decide (Desktop.maxChunkBodyBytes < decoded.length))) ↔
      ∃ bytes, CanonicalBody Desktop.maxChunkBodyBytes body bytes ∧ bytes ≠ [] := by
  simp only [Bool.and_eq_true, Bool.not_eq_true', decide_eq_false_iff_not, Option.any_eq_true,
    Bool.or_eq_false_iff, isEmpty_eq_false_iff, desktop_decodeBody_iff]
  constructor
  · rintro ⟨_, bytes, hbody, hne, hlong⟩
    exact ⟨bytes, hbody.within (Nat.not_lt.mp hlong), hne⟩
  · rintro ⟨bytes, hbody, hne⟩
    obtain ⟨htext, hascii⟩ := hbody.text_le
    refine ⟨?_, bytes, hbody.mono chunk_le_request, hne, Nat.not_lt.mpr hbody.2⟩
    rw [byteLength_ascii hascii]
    exact Nat.not_lt.mpr htext

/-! ## The relay accepts what it wrote -/

variable {status seq : Nat}

section RelayFrames

variable {value : Relay.Value} {frame : Relay.ReverseFrame}

theorem bind_guard {α : Type} (p : Prop) [Decidable p] (next : Unit → Option α) :
    (guard p : Option Unit).bind next = if p then next () else none := by
  unfold guard
  split <;> rfl

theorem validateId_some {value : Option Relay.Value} {id : String}
    (h : Relay.validateId value = some id) : Desktop.validateId id := by
  rw [validateId_eq]
  exact (Option.filter_eq_some_iff.mp h).2

theorem validateSequence_some {value : Option Relay.Value}
    (h : Relay.validateSequence value = some seq) : seq ≤ maxSafeInteger := by
  unfold Relay.validateSequence at h
  split at h
  · split at h
    · next hsafe =>
        cases h
        omega
    · cases h
  · cases h

theorem validateStatus_some {value : Option Relay.Value}
    (h : Relay.validateStatus value = some status) : 200 ≤ status ∧ status ≤ 599 := by
  unfold Relay.validateStatus at h
  split at h
  · split at h
    · cases h
    · next hrange =>
        cases h
        omega
  · cases h

theorem validateRequest_accepted (h : Relay.validateRequest value = some frame) :
    Accepted frame := by
  simp only [Relay.validateRequest, Option.bind_eq_bind, bind_guard, Option.bind_eq_some_iff,
    Option.ite_none_right_eq_some, relay_decodeBody_iff] at h
  obtain ⟨input, _, _, id, hid, path, _, hpath, method, _, hmeth, hinfo, headers, hhead,
    body, _, hempty, bytes, hbody, hframe⟩ := h
  cases hframe
  refine ⟨validateId_some hid, ?_, headersAccepted_of_validate hhead, bytes, hbody⟩
  rw [requestAccepted, hpath, hmeth, hinfo, hempty]
  rfl

theorem validateResponse_accepted (h : Relay.validateResponse value = some frame) :
    Accepted frame := by
  simp only [Relay.validateResponse, Option.bind_eq_bind, bind_guard, Option.bind_eq_some_iff,
    Option.ite_none_right_eq_some] at h
  obtain ⟨input, _, _, id, hid, status, hstat, headers, hhead, hframe⟩ := h
  cases hframe
  have hrange := validateStatus_some hstat
  exact ⟨validateId_some hid, hrange.1, hrange.2, headersAccepted_of_validate hhead⟩

theorem validateChunk_accepted (h : Relay.validateChunk value = some frame) : Accepted frame := by
  simp only [Relay.validateChunk, Option.bind_eq_bind, bind_guard, Option.bind_eq_some_iff,
    Option.ite_none_right_eq_some, relay_decodeBody_iff] at h
  obtain ⟨input, _, _, id, hid, seq, hseq, body, _, _, bytes, hbody, hbytes, hframe⟩ := h
  cases hframe
  simp only [Bool.not_eq_true', Bool.or_eq_false_iff, isEmpty_eq_false_iff,
    decide_eq_false_iff_not] at hbytes
  exact ⟨validateId_some hid, validateSequence_some hseq, bytes,
    hbody.within (Nat.not_lt.mp hbytes.2), hbytes.1⟩

theorem validateEnd_accepted (h : Relay.validateEnd value = some frame) : Accepted frame := by
  simp only [Relay.validateEnd, Option.bind_eq_bind, bind_guard, Option.bind_eq_some_iff,
    Option.ite_none_right_eq_some] at h
  obtain ⟨input, _, _, id, hid, hframe⟩ := h
  cases hframe
  exact validateId_some hid

theorem validateCancel_accepted (h : Relay.validateCancel value = some frame) : Accepted frame := by
  simp only [Relay.validateCancel, Option.bind_eq_bind, bind_guard, Option.bind_eq_some_iff,
    Option.ite_none_right_eq_some] at h
  obtain ⟨input, _, _, id, hid, hframe⟩ := h
  cases hframe
  exact validateId_some hid

theorem validateCredit_accepted (h : Relay.validateCredit value = some frame) : Accepted frame := by
  simp only [Relay.validateCredit, Option.bind_eq_bind, bind_guard, Option.bind_eq_some_iff,
    Option.ite_none_right_eq_some] at h
  obtain ⟨input, _, _, id, hid, seq, hseq, hframe⟩ := h
  cases hframe
  exact ⟨validateId_some hid, validateSequence_some hseq⟩

theorem accepted_of_validate (h : Relay.validateFrame value = some frame) : Accepted frame := by
  unfold Relay.validateFrame at h
  split at h
  · split at h
    · exact validateRequest_accepted h
    · exact validateResponse_accepted h
    · exact validateChunk_accepted h
    · exact validateEnd_accepted h
    · exact validateCancel_accepted h
    · exact validateCredit_accepted h
    · cases h
  · cases h

theorem validateId_of_accepted {id : String} (h : Desktop.validateId id) :
    Relay.validateId (some (.str id)) = some id := by
  rw [validateId_eq] at h
  simp [Relay.validateId, Relay.exactString, h]

theorem validateSequence_of_le (h : seq ≤ maxSafeInteger) :
    Relay.validateSequence (some (.num (Relay.number seq))) = some seq := by
  have hsafe : (seq : Int).natAbs ≤ maxSafeInteger ∧ ¬(seq : Int) < 0 := by omega
  simp only [Relay.validateSequence, Relay.number, if_pos hsafe, Int.toNat_natCast]

theorem validateStatus_of_range (hlow : 200 ≤ status) (hhigh : status ≤ 599) :
    Relay.validateStatus (some (.num (Relay.number status))) = some status := by
  have hrange : ¬((status : Int) < 200 ∨ 599 < (status : Int)) := by omega
  simp only [Relay.validateStatus, Relay.number, if_neg hrange, Int.toNat_natCast]

theorem decodeBody_of_canonical {body : String} {bytes : List UInt8}
    (h : CanonicalBody Desktop.maxRequestBodyBytes body bytes) :
    Relay.decodeBody body = some bytes :=
  relay_decodeBody_iff.mpr h

theorem chunkText_le {body : String} {bytes : List UInt8}
    (h : CanonicalBody Desktop.maxChunkBodyBytes body bytes) :
    utf16Length body ≤ (Relay.limits.maxChunkBodyBytes + 2) / 3 * 4 := by
  obtain ⟨htext, hascii⟩ := h.text_le
  rw [utf16Length_ascii hascii]
  exact htext

theorem exactRecord_names {fields : List (String × Relay.Value)} {keys : List String}
    (h : fields.map Prod.fst = keys) : Relay.exactRecord (.obj fields) keys = some fields := by
  subst h
  have hall : (fields.all fun field => (fields.map Prod.fst).contains field.1) := by
    refine all_eq_true.mpr fun field hmem => ?_
    exact contains_iff_mem.mpr (mem_map_of_mem hmem)
  rw [Relay.exactRecord, if_pos ⟨(length_map ..).symm, hall⟩]

theorem tagged_wire (type : String) (rest : List (String × Relay.Value)) :
    Relay.tagged (("v", .num (Relay.number 1)) :: ("type", .str type) :: rest) type := by
  simp [Relay.tagged, Relay.exactString, Relay.number, lookup_cons_if]

theorem validate_of_accepted (h : Accepted frame) :
    Relay.validateFrame frame.value = some frame := by
  have hnames : headerNames true = Relay.requestHeaderNames ∧
      headerNames false = Relay.responseHeaderNames := ⟨rfl, rfl⟩
  cases frame <;>
    simp only [Relay.validateFrame, value, wire,
      Json.mapNumbers, Json.mapFields, Relay.exactString, lookup_cons_if, String.reduceEq,
      if_true, if_false, Relay.validateRequest, Relay.validateResponse, Relay.validateChunk,
      Relay.validateEnd, Relay.validateCancel, Relay.validateCredit, exactRecord_names,
      map_cons, map_nil, Option.bind_eq_bind, Option.bind_some, bind_guard, tagged_wire]
  case request id path method headers body =>
    obtain ⟨hid, hreq, hhead, bytes, hbody⟩ := h
    have hread := validate_of_headersAccepted hhead
    rw [hnames.1] at hread
    simp only [requestAccepted, Bool.and_eq_true] at hreq
    obtain ⟨⟨⟨hpath, hmeth⟩, hinfo⟩, hempty⟩ := hreq
    simp only [if_true, Option.bind_some, validateId_of_accepted hid, hpath, hmeth, hinfo, hread,
      hempty, decodeBody_of_canonical hbody]
    rfl
  case response id status headers =>
    obtain ⟨hid, hlow, hhigh, hhead⟩ := h
    have hread := validate_of_headersAccepted hhead
    rw [hnames.2] at hread
    simp only [Option.bind_some, validateId_of_accepted hid, validateStatus_of_range hlow hhigh,
      hread]
    rfl
  case chunk id seq body =>
    obtain ⟨hid, hseq, bytes, hbody, hne⟩ := h
    have htext := Nat.not_lt.mpr (chunkText_le hbody)
    have hbytes := decodeBody_of_canonical (hbody.mono chunk_le_request)
    have hlong : ¬Relay.limits.maxChunkBodyBytes < bytes.length := Nat.not_lt.mpr hbody.2
    simp only [if_true, Option.bind_some, validateId_of_accepted hid, validateSequence_of_le hseq,
      htext, hbytes, hlong, isEmpty_eq_false_iff.mpr hne, decide_false, Bool.or_self,
      Bool.not_false]
    rfl
  case end_ | cancel =>
    rw [validateId_of_accepted h]
    rfl
  case credit id seq =>
    rw [validateId_of_accepted h.1, validateSequence_of_le h.2]
    rfl

/-! What a validator returns for a frame is the frame. -/

theorem validateId_value {id id' : String}
    (h : Relay.validateId (some (.str id)) = some id') : id' = id :=
  (Option.some.inj (Option.filter_eq_some_iff.mp h).1).symm

theorem validateSequence_value {seq' : Nat}
    (h : Relay.validateSequence (some (.num (Relay.number seq))) = some seq') : seq' = seq := by
  have hle : (seq : Int).natAbs ≤ maxSafeInteger := by
    simp only [Relay.validateSequence, Relay.number] at h
    split at h
    · next hsafe => exact hsafe.1
    · cases h
  rw [validateSequence_of_le (by omega)] at h
  exact (Option.some.inj h).symm

theorem validateStatus_value {status' : Nat}
    (h : Relay.validateStatus (some (.num (Relay.number status))) = some status') :
    status' = status := by
  simp only [Relay.validateStatus, Relay.number] at h
  split at h
  · cases h
  · exact (Option.some.inj h).symm

theorem validateHeaders_value {request : Bool} {headers headers' : Relay.HeaderRecord}
    (h : Relay.validateHeaders (some ((Relay.headersJson headers).mapNumbers Relay.number))
      (headerNames request) request = some headers') : headers' = headers := by
  have hread : ∀ {entries list : List (String × String)},
      (entries.map fun header => (header.1, Json.str header.2)).mapM
        (Relay.validateHeader request) = some list → list = entries := by
    intro entries
    induction entries with
    | nil => exact fun h => (Option.some.inj h).symm
    | cons header rest ih =>
      intro list h
      rw [map_cons, mapM_cons, relay_validateHeader_eq] at h
      simp only [Option.bind_eq_bind, Option.bind_eq_some_iff, Option.ite_none_right_eq_some] at h
      obtain ⟨first, ⟨_, hfirst⟩, tail, htail, hlist⟩ := h
      cases hlist
      cases hfirst
      rw [ih htail]
  unfold Relay.validateHeaders Relay.headersJson at h
  simp only [Json.mapNumbers, mapFields_headersJson] at h
  split at h
  · cases h
  · obtain ⟨list, hlist, rfl⟩ := Option.map_eq_some_iff.mp h
    rw [hread hlist, record_self]

theorem validate_value {frame frame' : Relay.ReverseFrame}
    (h : Relay.validateFrame frame.value = some frame') : frame' = frame := by
  have hnames : Relay.requestHeaderNames = headerNames true ∧
      Relay.responseHeaderNames = headerNames false := ⟨rfl, rfl⟩
  cases frame <;>
    simp only [Relay.validateFrame, value, wire,
      Json.mapNumbers, Json.mapFields, Relay.exactString, lookup_cons_if, String.reduceEq,
      if_true, if_false, Relay.validateRequest, Relay.validateResponse, Relay.validateChunk,
      Relay.validateEnd, Relay.validateCancel, Relay.validateCredit, exactRecord_names,
      map_cons, map_nil, Option.bind_eq_bind, Option.bind_some, bind_guard, tagged_wire,
      Option.bind_eq_some_iff, Option.ite_none_right_eq_some] at h
  case request id path method headers body =>
    rw [hnames.1] at h
    obtain ⟨id', hid, _, _, _, headers', hhead, _, _, _, hframe⟩ := h
    cases hframe
    rw [validateId_value hid, validateHeaders_value hhead]
  case response id status headers =>
    rw [hnames.2] at h
    obtain ⟨id', hid, status', hstat, headers', hhead, hframe⟩ := h
    cases hframe
    rw [validateId_value hid, validateStatus_value hstat, validateHeaders_value hhead]
  case chunk id seq body =>
    obtain ⟨id', hid, seq', hseq, _, _, _, _, hframe⟩ := h
    cases hframe
    rw [validateId_value hid, validateSequence_value hseq]
  case end_ | cancel =>
    obtain ⟨id', hid, hframe⟩ := h
    cases hframe
    rw [validateId_value hid]
  case credit id seq =>
    obtain ⟨id', hid, seq', hseq, hframe⟩ := h
    cases hframe
    rw [validateId_value hid, validateSequence_value hseq]

end RelayFrames

/-! ## The desktop reads what either side wrote -/

section DesktopFrames

def toDesktop : Relay.ReverseFrame → Desktop.Frame
  | .request id path method headers body =>
    .request id path method (.ofFields headers.entries) body
  | .response id status headers => .response id (UInt16.ofNat status) (.ofFields headers.entries)
  | .chunk id seq body => .chunk id (UInt64.ofNat seq) body
  | .end_ id => .end_ id
  | .cancel id => .cancel id
  | .credit id seq => .credit id (UInt64.ofNat seq)

def recordOf (headers : Desktop.HeaderMap) : Relay.HeaderRecord :=
  ⟨headers.entries, List.pairwise_map.mpr (headers.sorted.imp fun hlt => ne_of_lt hlt)⟩

def toRelay : Desktop.Frame → Relay.ReverseFrame
  | .request id path method headers body => .request id path method (recordOf headers) body
  | .response id status headers => .response id status.toNat (recordOf headers)
  | .chunk id seq body => .chunk id seq.toNat body
  | .end_ id => .end_ id
  | .cancel id => .cancel id
  | .credit id seq => .credit id seq.toNat

theorem toDesktop_toRelay (frame : Desktop.Frame) : toDesktop (toRelay frame) = frame := by
  cases frame with
  | request | response =>
    simp only [toRelay, toDesktop, recordOf, ofFields_self, UInt16.ofNat_toNat]
  | chunk | credit => simp only [toRelay, toDesktop, UInt64.ofNat_toNat]
  | end_ | cancel => rfl

theorem toRelay_wire (frame : Desktop.Frame) : (toRelay frame).wire = frame.wire := by
  cases frame <;> rfl

variable {frame : Relay.ReverseFrame}

theorem ofFields_valid {request : Bool} {headers : List (String × String)}
    (h : HeadersAccepted request headers) :
    Desktop.validateHeaders (.ofFields headers) request :=
  all_eq_true.mpr fun header hmem => h header (mem_ofFields hmem)

theorem toNat_status (h : status ≤ 599) : (UInt16.ofNat status).toNat = status := by
  rw [UInt16.toNat_ofNat']
  exact Nat.mod_eq_of_lt (Nat.lt_of_le_of_lt h (by decide))

theorem toNat_seq (h : seq ≤ maxSafeInteger) : (UInt64.ofNat seq).toNat = seq := by
  rw [UInt64.toNat_ofNat']
  exact Nat.mod_eq_of_lt (Nat.lt_of_le_of_lt h (by decide))

theorem desktop_validate_of_accepted (h : Accepted frame) :
    Desktop.validateFrame (toDesktop frame) := by
  cases frame with
  | request id path method headers body =>
    obtain ⟨hid, hreq, hhead, bytes, hbody⟩ := h
    simp only [requestAccepted, Bool.and_eq_true, bne_empty] at hreq
    obtain ⟨⟨⟨hpath, hmeth⟩, hinfo⟩, hempty⟩ := hreq
    simp [toDesktop, Desktop.validateFrame, hid, hpath, hmeth, hinfo, hempty, ofFields_valid hhead, desktop_decodeBody_iff.mpr hbody]
  | response id status headers =>
    obtain ⟨hid, hlow, hhigh, hhead⟩ := h
    simp only [toDesktop, Desktop.validateFrame, hid, toNat_status hhigh, hlow, hhigh,
      ofFields_valid hhead, decide_true, Bool.and_self]
  | chunk id seq body =>
    obtain ⟨hid, hseq, hbody⟩ := h
    have hchunk := (desktop_chunkBody_iff body).mpr hbody
    have hseq' : seq ≤ Desktop.maxSafeSequence := hseq
    simp only [toDesktop, Desktop.validateFrame, Desktop.validateSequence, hid,
      toNat_seq hseq, hseq', decide_true, Bool.true_and, hchunk]
  | end_ id | cancel id => exact h
  | credit id seq =>
    have hseq : seq ≤ Desktop.maxSafeSequence := h.2
    simp [toDesktop, Desktop.validateFrame, Desktop.validateSequence, h.1, toNat_seq h.2, hseq]

theorem entries_accepted {request : Bool} {headers : Desktop.HeaderMap}
    (h : Desktop.validateHeaders headers request) :
    HeadersAccepted request headers.entries :=
  all_eq_true.mp h

theorem accepted_of_desktop {frame : Desktop.Frame} (h : Desktop.validateFrame frame) :
    Accepted (toRelay frame) := by
  cases frame with
  | request id path method headers body =>
    simp only [Desktop.validateFrame, Bool.and_eq_true] at h
    obtain ⟨⟨⟨⟨⟨⟨hid, hpath⟩, hmeth⟩, hinfo⟩, hhead⟩, hempty⟩, hbody⟩ := h
    obtain ⟨bytes, hbytes⟩ := Option.isSome_iff_exists.mp hbody
    refine ⟨hid, ?_, entries_accepted hhead, bytes, desktop_decodeBody_iff.mp hbytes⟩
    rw [requestAccepted, hpath, hmeth, hinfo, bne_empty, hempty]
    rfl
  | response id status headers =>
    simp only [Desktop.validateFrame, Bool.and_eq_true, decide_eq_true_eq] at h
    obtain ⟨⟨hid, hlow, hhigh⟩, hhead⟩ := h
    exact ⟨hid, hlow, hhigh, entries_accepted hhead⟩
  | chunk id seq body =>
    rw [Desktop.validateFrame, Bool.and_assoc, Bool.and_eq_true, Bool.and_eq_true] at h
    exact ⟨h.1.1, of_decide_eq_true h.1.2, (desktop_chunkBody_iff body).mp h.2⟩
  | end_ id | cancel id => exact h
  | credit id seq =>
    rw [Desktop.validateFrame, Bool.and_eq_true] at h
    exact ⟨h.1, of_decide_eq_true h.2⟩

theorem uniqueField_eq_lookup {fields : List (String × Json Desktop.SerdeNumber)}
    (h : (fields.map Prod.fst).Nodup) (name : String) :
    Desktop.uniqueField fields name = fields.lookup name := by
  induction fields with
  | nil => rfl
  | cons field rest ih =>
    rw [map_cons, nodup_cons] at h
    have hrest := ih h.2
    rw [lookup_cons_if]
    unfold Desktop.uniqueField at hrest ⊢
    by_cases hname : name = field.1
    · subst hname
      have hnone : rest.filter (fun other => other.1 == field.1) = [] := by
        refine filter_eq_nil_iff.mpr fun other hmem heq => h.1 ?_
        exact beq_iff_eq.mp heq ▸ mem_map_of_mem hmem
      rw [filter_cons, if_pos (beq_self_eq_true field.1), hnone, if_pos rfl]
    · have hne : ¬(field.1 == name) := by
        rw [beq_iff_eq]
        exact Ne.symm hname
      rw [filter_cons, if_neg hne, if_neg hname]
      exact hrest

theorem wireInteger_unsigned {max value : Nat} (h : value ≤ max) :
    Desktop.wireInteger max (.num (.unsigned value)) = some value := by
  have hwhole : 0 ≤ (value : Int) ∧ (value : Int) ≤ max := by omega
  rw [Desktop.wireInteger, Desktop.wholeWithin, if_pos hwhole, Int.toNat_natCast]

theorem mapM_wireHeader (headers : List (String × String)) : (headers.map fun header =>
      (header.1, (Json.str header.2 : Json Desktop.SerdeNumber))).mapM Desktop.wireHeader =
      some headers := by
  induction headers with
  | nil => rfl
  | cons header rest ih =>
    rw [map_cons, mapM_cons, ih]
    rfl

theorem wireHeaders_headersJson (headers : Relay.HeaderRecord) :
    Desktop.wireHeaders ((Relay.headersJson headers).mapNumbers .unsigned) =
      some (.ofFields headers.entries) := by
  simp only [Relay.headersJson, Json.mapNumbers, mapFields_headersJson, Desktop.wireHeaders,
    mapM_wireHeader, Option.map_some]

section

variable (readSequence : List (Json Desktop.SerdeNumber) → Option Desktop.IncomingFrame)
  (h : Accepted frame)
include h

/-- The visitor takes the message apart that either serializer wrote. -/
theorem readIncoming_wire :
    ∃ wire, Desktop.readIncoming readSequence (frame.wire.mapNumbers .unsigned) = some wire ∧
      wire.frame = (1, toDesktop frame) := by
  have hone := wireInteger_unsigned (Nat.le_refl 1)
  have hseq : ∀ seq ≤ maxSafeInteger,
      Desktop.wireInteger Desktop.maxSafeSequence (.num (.unsigned seq)) = some seq :=
    fun seq hle => wireInteger_unsigned hle
  cases frame <;>
    simp only [wire, Json.mapNumbers, Json.mapFields, Desktop.readIncoming,
      Desktop.readObject, Desktop.onlyFields, uniqueField_eq_lookup, lookup_cons_if,
      map_cons, map_nil, nodup_cons, mem_cons, not_mem_nil,
      nodup_nil, String.reduceEq, or_self, not_false_eq_true, and_self, if_true, if_false,
      Option.bind_eq_bind, Option.bind_some, Desktop.wireString, hone, all_cons, all_nil]
  case request id path method headers body =>
    rw [wireHeaders_headersJson headers]
    exact ⟨_, rfl, rfl⟩
  case response id status headers =>
    rw [wireHeaders_headersJson headers, wireInteger_unsigned h.2.2.1]
    exact ⟨_, rfl, rfl⟩
  case chunk id seq body =>
    rw [hseq seq h.2.1]
    exact ⟨_, rfl, rfl⟩
  case end_ | cancel => exact ⟨_, rfl, rfl⟩
  case credit id seq =>
    rw [hseq seq h.2]
    exact ⟨_, rfl, rfl⟩

theorem fromWire_wire : (Desktop.readIncoming readSequence (frame.wire.mapNumbers .unsigned) >>=
      Desktop.fromWire) = some (toDesktop frame) := by
  obtain ⟨wire, hread, hframe⟩ := readIncoming_wire readSequence h
  rw [hread, Option.bind_eq_bind, Option.bind_some, Desktop.fromWire, hframe]
  rw [if_neg (not_not.mpr rfl), if_pos (desktop_validate_of_accepted h)]

end

end DesktopFrames

/-! ## Agreement -/

def Agrees : Desktop.Frame → Relay.ReverseFrame → Prop
  | .request id path method headers body, .request id' path' method' headers' body' =>
    id = id' ∧ path = path' ∧ method = method' ∧
      (∀ name, headers.get? name = headers'.get? name) ∧ body = body'
  | .response id status headers, .response id' status' headers' =>
    id = id' ∧ status.toNat = status' ∧ ∀ name, headers.get? name = headers'.get? name
  | .chunk id seq body, .chunk id' seq' body' => id = id' ∧ seq.toNat = seq' ∧ body = body'
  | .end_ id, .end_ id' | .cancel id, .cancel id' => id = id'
  | .credit id seq, .credit id' seq' => id = id' ∧ seq.toNat = seq'
  | _, _ => False

theorem agrees_toDesktop {frame : Relay.ReverseFrame} (h : Accepted frame) :
    Agrees (toDesktop frame) frame := by
  cases frame with
  | request id path method headers body =>
    exact ⟨rfl, rfl, rfl, get?_ofFields headers.distinct, rfl⟩
  | response id status headers =>
    exact ⟨rfl, toNat_status h.2.2.1, get?_ofFields headers.distinct⟩
  | chunk id seq body => exact ⟨rfl, toNat_seq h.2.1, rfl⟩
  | end_ id | cancel id => rfl
  | credit id seq => exact ⟨rfl, toNat_seq h.2⟩

def BodyCanonical : Relay.ReverseFrame → Prop
  | .request _ _ _ _ body => ∃ bytes, CanonicalBody Desktop.maxRequestBodyBytes body bytes
  | .chunk _ _ body => ∃ bytes, CanonicalBody Desktop.maxChunkBodyBytes body bytes ∧ bytes ≠ []
  | .response .. | .end_ _ | .cancel _ | .credit .. => True

theorem Accepted.bodyCanonical {frame : Relay.ReverseFrame} (h : Accepted frame) :
    BodyCanonical frame := by
  cases frame with
  | request => exact h.2.2.2
  | chunk => exact h.2.2
  | response | end_ | cancel | credit => trivial

section Agreement

variable {serdeParse : String → Option (Json Desktop.SerdeNumber)}
  {readSequence : List (Json Desktop.SerdeNumber) → Option Desktop.IncomingFrame}
  {jsParse : String → Option Relay.Value}

variable (readSequence) in
theorem decode_text {frame : Relay.ReverseFrame} (h : Accepted frame)
    (hsize : ¬Desktop.maxWireBytes < Desktop.byteLength frame.wire.stringify)
    (hserde : Json.ReadsBack serdeParse .unsigned frame.wire)
    (hjs : Json.ReadsBack jsParse Relay.number frame.wire) :
    Desktop.decodeFrame serdeParse readSequence frame.wire.stringify = some (toDesktop frame) ∧
      Relay.decodeFrame jsParse frame.wire.stringify = some frame := by
  constructor
  · rw [Desktop.decodeFrame, if_neg hsize, hserde]
    exact fromWire_wire readSequence h
  · rw [Relay.decodeFrame, overWireLimit_eq, if_neg (by simpa using hsize), hjs]
    exact validate_of_accepted h

theorem desktop_encode_some {frame : Desktop.Frame} {text : String}
    (h : Desktop.encodeFrame frame = some text) :
    Accepted (toRelay frame) ∧ text = (toRelay frame).wire.stringify ∧
      ¬Desktop.maxWireBytes < Desktop.byteLength (toRelay frame).wire.stringify := by
  unfold Desktop.encodeFrame at h
  split at h
  · cases h
  · next hvalid =>
      simp only [] at h
      split at h
      · cases h
      · next hsize =>
          have hacc := accepted_of_desktop (by simpa using hvalid)
          rw [toRelay_wire]
          exact ⟨hacc, (Option.some.inj h).symm, hsize⟩

theorem relay_encode_some {value : Relay.Value} {text : String}
    (h : Relay.encodeFrame value = some text) :
    ∃ frame, Relay.validateFrame value = some frame ∧ text = frame.wire.stringify ∧
      ¬Desktop.maxWireBytes < Desktop.byteLength frame.wire.stringify := by
  unfold Relay.encodeFrame at h
  split at h
  · cases h
  · next frame hframe =>
      simp only [overWireLimit_eq] at h
      split at h
      · cases h
      · next hsize =>
          exact ⟨frame, hframe, (Option.some.inj h).symm, by simpa using hsize⟩

theorem desktop_decode_some {text : String} {frame : Desktop.Frame}
    (h : Desktop.decodeFrame serdeParse readSequence text = some frame) :
    Desktop.validateFrame frame := by
  unfold Desktop.decodeFrame at h
  split at h
  · cases h
  · obtain ⟨wire, _, hwire⟩ := Option.bind_eq_some_iff.mp h
    unfold Desktop.fromWire at hwire
    split at hwire
    · cases hwire
    · split at hwire
      · next hvalid =>
          cases hwire
          exact hvalid
      · cases hwire

theorem relay_decode_some {text : String} {frame : Relay.ReverseFrame}
    (h : Relay.decodeFrame jsParse text = some frame) : Accepted frame := by
  unfold Relay.decodeFrame at h
  split at h
  · cases h
  · obtain ⟨value, _, hvalue⟩ := Option.bind_eq_some_iff.mp h
    exact accepted_of_validate hvalue

/-- The two codecs agree, for parsers that read back the text in question: a frame
that the desktop writes comes back to the desktop and reaches the relay with the same
contents, and the other way round, where the validated copy that the relay writes is the
frame itself; whatever either side accepts, from any text, its validator accepts, with a
canonical body within its bound; and a body is determined by the bytes that either side
decodes from it. -/
theorem codec_agreement : (∀ frame text, Desktop.encodeFrame frame = some text →
      Json.ReadsBack serdeParse .unsigned frame.wire →
      Json.ReadsBack jsParse Relay.number frame.wire →
      Desktop.decodeFrame serdeParse readSequence text = some frame ∧
        ∃ frame', Relay.decodeFrame jsParse text = some frame' ∧ Agrees frame frame') ∧
    (∀ value frame text, Relay.validateFrame value = some frame →
      Relay.encodeFrame value = some text →
      Json.ReadsBack serdeParse .unsigned frame.wire →
      Json.ReadsBack jsParse Relay.number frame.wire →
      Relay.decodeFrame jsParse text = some frame ∧
        ∃ frame', Desktop.decodeFrame serdeParse readSequence text = some frame' ∧
          Agrees frame' frame) ∧
    (∀ frame frame', Relay.validateFrame frame.value = some frame' → frame' = frame) ∧
    (∀ text frame, Desktop.decodeFrame serdeParse readSequence text = some frame →
      Desktop.validateFrame frame = true ∧ BodyCanonical (toRelay frame)) ∧
    (∀ text frame, Relay.decodeFrame jsParse text = some frame →
      Relay.validateFrame frame.value = some frame ∧ BodyCanonical frame) ∧ ∀ body body' bytes,
      Desktop.decodeBody body = some bytes ∨ Relay.decodeBody body = some bytes →
      Desktop.decodeBody body' = some bytes ∨ Relay.decodeBody body' = some bytes →
      body = body' := by
  refine ⟨?_, ?_, fun frame frame' => validate_value, ?_, ?_, ?_⟩
  · intro frame text henc hserde hjs
    obtain ⟨hacc, rfl, hsize⟩ := desktop_encode_some henc
    rw [← toRelay_wire] at hserde hjs
    have hdec := decode_text readSequence hacc hsize hserde hjs
    have hagr := agrees_toDesktop hacc
    rw [toDesktop_toRelay] at hdec hagr
    exact ⟨hdec.1, toRelay frame, hdec.2, hagr⟩
  · intro value frame text hvalid henc hserde hjs
    obtain ⟨frame', hframe, rfl, hsize⟩ := relay_encode_some henc
    obtain rfl := Option.some.inj (hframe.symm.trans hvalid)
    have hacc := accepted_of_validate hvalid
    have hdec := decode_text readSequence hacc hsize hserde hjs
    exact ⟨hdec.2, toDesktop frame', hdec.1, agrees_toDesktop hacc⟩
  · intro text frame hdec
    have hvalid := desktop_decode_some hdec
    exact ⟨hvalid, (accepted_of_desktop hvalid).bodyCanonical⟩
  · intro text frame hdec
    have hacc := relay_decode_some hdec
    exact ⟨validate_of_accepted hacc, hacc.bodyCanonical⟩
  · intro body body' bytes hbody hbody'
    have hcan : ∀ text, Desktop.decodeBody text = some bytes ∨ Relay.decodeBody text = some bytes →
        text = String.ofList (Support.Base64.encode bytes) := by
      intro text htext
      rw [decodeBody_eq, or_self] at htext
      exact (desktop_decodeBody_iff.mp htext).1
    exact (hcan body hbody).trans (hcan body' hbody').symm

end Agreement

/-- A request of the desktop, on its way through both codecs. -/
theorem codec_agreement_request :
    let frame : Desktop.Frame := .request "request-1" "/mcp" "POST"
      (.ofFields [("content-type", "application/json")]) "d2VubGFu"
    let text := "\x7b\"v\":1,\"type\":\"request\",\"id\":\"request-1\",\"path\":\"/mcp\"," ++
      "\"method\":\"POST\",\"headers\":\x7b\"content-type\":\"application/json\"\x7d," ++
      "\"body\":\"d2VubGFu\"\x7d"
    let serdeParse := fun read =>
      if read = text then some (frame.wire.mapNumbers Desktop.SerdeNumber.unsigned) else none
    let jsParse := fun read =>
      if read = text then some (frame.wire.mapNumbers Relay.number) else none
    Desktop.encodeFrame frame = some text ∧
      Desktop.decodeFrame serdeParse (fun _ => none) text = some frame ∧
      ∃ frame', Relay.decodeFrame jsParse text = some frame' ∧ Agrees frame frame' := by
  intro frame text serdeParse jsParse
  have htext : frame.wire.stringify = text := by decide +kernel
  have henc : Desktop.encodeFrame frame = some text := by decide +kernel
  have hserde : Json.ReadsBack serdeParse .unsigned frame.wire := if_pos htext
  have hjs : Json.ReadsBack jsParse Relay.number frame.wire := if_pos htext
  exact ⟨henc, codec_agreement.1 frame text henc hserde hjs⟩

end Wenlan.Reverse
