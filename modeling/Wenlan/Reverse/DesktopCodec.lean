import Mathlib.Data.String.Basic
import Wenlan.Support.Base64
import Wenlan.Support.Json

/-!
# The desktop half of the reverse wire protocol

The frames of `reverse_protocol.rs`, their validation, and the text they travel
as.  Reading the text of a JSON value is a parameter; what serde makes of the
value is modelled field by field.
-/

namespace Wenlan.Reverse.Desktop

open Support (Json Double)

def maxWireBytes : Nat := 96 * 1024

def maxRequestBodyBytes : Nat := 64 * 1024

def maxChunkBodyBytes : Nat := 16 * 1024

def maxIdBytes : Nat := 64

def maxHeaderValueBytes : Nat := 2048

def maxSafeSequence : Nat := 9007199254740991

def maxRequestBodyBase64Bytes : Nat := (maxRequestBodyBytes + 2) / 3 * 4

def maxChunkBodyBase64Bytes : Nat := (maxChunkBodyBytes + 2) / 3 * 4

/-- `len` of a string slice, in bytes. -/
def byteSize (chars : List Char) : Nat :=
  chars.foldl (fun size c => size + c.utf8Size) 0

def byteLength (value : String) : Nat := byteSize value.toList

def insertEntry (name value : String) : List (String × String) → List (String × String)
  | [] => [(name, value)]
  | entry :: rest =>
    if name < entry.1 then (name, value) :: entry :: rest
    else if name = entry.1 then (name, value) :: rest
    else entry :: insertEntry name value rest

/-- A `BTreeMap<String, String>`, as its entries in the order of their names. -/
structure HeaderMap where
  entries : List (String × String)
  sorted : entries.Pairwise fun a b => a.1 < b.1

theorem mem_insertEntry {name value : String} {entries : List (String × String)}
    {entry : String × String} (h : entry ∈ insertEntry name value entries) :
    entry = (name, value) ∨ entry ∈ entries := by
  induction entries with
  | nil => exact .inl (List.mem_singleton.mp h)
  | cons first rest ih =>
    rw [insertEntry] at h
    split at h
    · exact List.mem_cons.mp h
    · split at h
      · exact (List.mem_cons.mp h).imp_right (List.mem_cons_of_mem _)
      · rcases List.mem_cons.mp h with rfl | hrest
        · exact .inr List.mem_cons_self
        · exact (ih hrest).imp_right (List.mem_cons_of_mem _)

theorem insertEntry_sorted (name value : String) {entries : List (String × String)}
    (h : entries.Pairwise fun a b => a.1 < b.1) :
    (insertEntry name value entries).Pairwise fun a b => a.1 < b.1 := by
  induction entries with
  | nil => exact List.pairwise_singleton _ _
  | cons first rest ih =>
    have hrest := List.pairwise_cons.mp h
    rw [insertEntry]
    split
    · next hlt =>
        refine List.pairwise_cons.mpr ⟨fun entry hmem => ?_, h⟩
        rcases List.mem_cons.mp hmem with rfl | hmem
        · exact hlt
        · exact lt_trans hlt (hrest.1 entry hmem)
    · next hnlt =>
        split
        · next heq =>
            refine List.pairwise_cons.mpr ⟨fun entry hmem => ?_, hrest.2⟩
            exact heq ▸ hrest.1 entry hmem
        · next hne =>
            refine List.pairwise_cons.mpr ⟨fun entry hmem => ?_, ih hrest.2⟩
            rcases mem_insertEntry hmem with rfl | hmem
            · exact lt_of_le_of_ne (not_lt.mp hnlt) (Ne.symm hne)
            · exact hrest.1 entry hmem

namespace HeaderMap

def empty : HeaderMap := ⟨[], List.Pairwise.nil⟩

def insert (headers : HeaderMap) (name value : String) : HeaderMap :=
  ⟨insertEntry name value headers.entries, insertEntry_sorted name value headers.sorted⟩

/-- Collect fields in the order they are read: a later one replaces an earlier one. -/
def ofFields (fields : List (String × String)) : HeaderMap :=
  fields.foldl (fun headers field => headers.insert field.1 field.2) empty

def get? (headers : HeaderMap) (name : String) : Option String :=
  headers.entries.lookup name

end HeaderMap

/-- The six messages; the fixed `v: 1` is added on the wire. -/
inductive Frame where
  | request (id path method : String) (headers : HeaderMap) (body : String)
  | response (id : String) (status : UInt16) (headers : HeaderMap)
  | chunk (id : String) (seq : UInt64) (body : String)
  | end_ (id : String)
  | cancel (id : String)
  | credit (id : String) (seq : UInt64)

/-- `encode_body`: canonical base64 within the request bound. -/
def encodeBody (bytes : List UInt8) : Option String :=
  if maxRequestBodyBytes < bytes.length then none
  else some (String.ofList (Support.Base64.encode bytes))

def isBase64Alphabet (c : Char) : Bool :=
  c.isAlphanum || c == '+' || c == '/'

/-- `valid_base64_shape`.  The classes it tests hold ASCII only, so it may look at
characters instead of bytes. -/
def validBase64Shape (value : String) : Bool :=
  let chars := value.toList
  let padding := (chars.reverse.takeWhile (· == '=')).length
  if byteSize chars % 4 != 0 || decide (2 < padding) then false
  else
    let content := chars.take (chars.length - padding)
    let expected := if padding = 0 then 0 else if padding = 1 then 3 else 2
    byteSize content % 4 == expected && content.all isBase64Alphabet

/-- `decode_body`: decode, and compare with the encoding of the result. -/
def decodeBody (value : String) : Option (List UInt8) :=
  if decide (maxRequestBodyBase64Bytes < byteLength value) || !validBase64Shape value then none
  else
    match Support.Base64.decode true value.toList with
    | none => none
    | some bytes => if encodeBody bytes = some value then some bytes else none

def isIdChar (c : Char) : Bool :=
  c.isAlphanum || c == '_' || c == '-'

def validateId (value : String) : Bool :=
  !(value.isEmpty || decide (maxIdBytes < byteLength value) || !value.toList.all isIdChar)

def requestHeaderNames : List String :=
  ["accept", "content-type", "mcp-session-id", "mcp-protocol-version", "last-event-id",
    "authorization"]

def responseHeaderNames : List String :=
  ["content-type", "mcp-session-id", "mcp-protocol-version"]

def isHeaderValueChar (c : Char) : Bool :=
  c == '\t' || (decide (0x20 ≤ c.toNat) && decide (c.toNat ≤ 0x7e))

def validAuthorization (value : String) : Bool :=
  if "Bearer ".toList.isPrefixOf value.toList then
    let token := value.toList.drop 7
    decide (32 ≤ byteSize token) && decide (byteSize token ≤ 128) && token.all isIdChar
  else false

def validateHeader (request : Bool) (header : String × String) : Bool :=
  (if request then requestHeaderNames else responseHeaderNames).contains header.1 &&
    decide (byteLength header.2 ≤ maxHeaderValueBytes) &&
    header.2.toList.all isHeaderValueChar &&
    !(request && header.1 == "authorization" && !validAuthorization header.2)

def validateHeaders (headers : HeaderMap) (request : Bool) : Bool :=
  headers.entries.all (validateHeader request)

def validateSequence (value : UInt64) : Bool :=
  decide (value.toNat ≤ maxSafeSequence)

def validateFrame : Frame → Bool
  | .request id path method headers body =>
    validateId id && !(path != "/mcp" && path != "/connector-info") &&
      !(method != "GET" && method != "POST" && method != "DELETE") &&
      !(path == "/connector-info" && method != "GET") && validateHeaders headers true &&
      !((method == "GET" || method == "DELETE") && !body.isEmpty) &&
      (decodeBody body).isSome
  | .response id status headers =>
    validateId id && (decide (200 ≤ status.toNat) && decide (status.toNat ≤ 599)) &&
      validateHeaders headers false
  | .chunk id seq body =>
    validateId id && validateSequence seq &&
      !decide (maxChunkBodyBase64Bytes < byteLength body) &&
      (decodeBody body).any fun decoded =>
        !(decoded.isEmpty || decide (maxChunkBodyBytes < decoded.length))
  | .end_ id | .cancel id => validateId id
  | .credit id seq => validateId id && validateSequence seq

def headersJson (headers : HeaderMap) : Json Nat :=
  .obj (headers.entries.map fun header => (header.1, .str header.2))

/-- The map that `serialize` writes for a validated frame. -/
def Frame.wire : Frame → Json Nat
  | .request id path method headers body =>
    .obj [("v", .num 1), ("type", .str "request"), ("id", .str id), ("path", .str path),
      ("method", .str method), ("headers", headersJson headers), ("body", .str body)]
  | .response id status headers =>
    .obj [("v", .num 1), ("type", .str "response"), ("id", .str id),
      ("status", .num status.toNat), ("headers", headersJson headers)]
  | .chunk id seq body =>
    .obj [("v", .num 1), ("type", .str "chunk"), ("id", .str id), ("seq", .num seq.toNat),
      ("body", .str body)]
  | .end_ id => .obj [("v", .num 1), ("type", .str "end"), ("id", .str id)]
  | .cancel id => .obj [("v", .num 1), ("type", .str "cancel"), ("id", .str id)]
  | .credit id seq =>
    .obj [("v", .num 1), ("type", .str "credit"), ("id", .str id), ("seq", .num seq.toNat)]

def encodeFrame (frame : Frame) : Option String :=
  if !validateFrame frame then none
  else
    let text := frame.wire.stringify
    if maxWireBytes < byteLength text then none else some text

/-- A number as `serde_json` hands it to a visitor. -/
inductive SerdeNumber where
  | unsigned (value : Nat)
  | negative (value : Int)
  | float (value : Double)

def wholeWithin (max : Nat) (value : Int) : Option Nat :=
  if 0 ≤ value ∧ value ≤ max then some value.toNat else none

/-- `WireInteger<MAX>`: any spelling of a whole number from 0 through `max`. -/
def wireInteger (max : Nat) : Json SerdeNumber → Option Nat
  | .num (.unsigned value) => wholeWithin max value
  | .num (.negative value) => wholeWithin max value
  | .num (.float (.integral value)) => wholeWithin max value
  | _ => none

def wireString : Json SerdeNumber → Option String
  | .str value => some value
  | _ => none

def wireHeader (field : String × Json SerdeNumber) : Option (String × String) :=
  match field.2 with
  | .str value => some (field.1, value)
  | _ => none

def wireHeaders : Json SerdeNumber → Option HeaderMap
  | .obj fields => (fields.mapM wireHeader).map HeaderMap.ofFields
  | _ => none

inductive IncomingFrame where
  | request (v : Nat) (id path method : String) (headers : HeaderMap) (body : String)
  | response (v : Nat) (id : String) (status : Nat) (headers : HeaderMap)
  | chunk (v : Nat) (id : String) (seq : Nat) (body : String)
  | end_ (v : Nat) (id : String)
  | cancel (v : Nat) (id : String)
  | credit (v : Nat) (id : String) (seq : Nat)

def uniqueField (fields : List (String × Json SerdeNumber)) (name : String) :
    Option (Json SerdeNumber) :=
  match fields.filter fun field => field.1 == name with
  | [field] => some field.2
  | _ => none

/-- `deny_unknown_fields`, for the fields of one variant and the tag. -/
def onlyFields (fields : List (String × Json SerdeNumber)) (names : List String) : Bool :=
  fields.all fun field => names.contains field.1

def readObject (fields : List (String × Json SerdeNumber)) : Option IncomingFrame := do
  let tag ← uniqueField fields "type" >>= wireString
  let v := uniqueField fields "v" >>= wireInteger 1
  let id := uniqueField fields "id" >>= wireString
  let seq := uniqueField fields "seq" >>= wireInteger maxSafeSequence
  let headers := uniqueField fields "headers" >>= wireHeaders
  let body := uniqueField fields "body" >>= wireString
  if tag = "request" then
    guard (onlyFields fields ["type", "v", "id", "path", "method", "headers", "body"])
    let path ← uniqueField fields "path" >>= wireString
    let method ← uniqueField fields "method" >>= wireString
    pure (.request (← v) (← id) path method (← headers) (← body))
  else if tag = "response" then
    guard (onlyFields fields ["type", "v", "id", "status", "headers"])
    let status ← uniqueField fields "status" >>= wireInteger 599
    pure (.response (← v) (← id) status (← headers))
  else if tag = "chunk" then
    guard (onlyFields fields ["type", "v", "id", "seq", "body"])
    pure (.chunk (← v) (← id) (← seq) (← body))
  else if tag = "end" then
    guard (onlyFields fields ["type", "v", "id"])
    pure (.end_ (← v) (← id))
  else if tag = "cancel" then
    guard (onlyFields fields ["type", "v", "id"])
    pure (.cancel (← v) (← id))
  else if tag = "credit" then
    guard (onlyFields fields ["type", "v", "id", "seq"])
    pure (.credit (← v) (← id) (← seq))
  else none

def IncomingFrame.frame : IncomingFrame → Nat × Frame
  | .request v id path method headers body => (v, .request id path method headers body)
  | .response v id status headers => (v, .response id (UInt16.ofNat status) headers)
  | .chunk v id seq body => (v, .chunk id (UInt64.ofNat seq) body)
  | .end_ v id => (v, .end_ id)
  | .cancel v id => (v, .cancel id)
  | .credit v id seq => (v, .credit id (UInt64.ofNat seq))

def fromWire (wire : IncomingFrame) : Option Frame :=
  if wire.frame.1 ≠ 1 then none
  else if validateFrame wire.frame.2 then some wire.frame.2 else none

section Decode

-- `serde_json`, and what the visitor of a tagged enum makes of an array.
variable (parse : String → Option (Json SerdeNumber))
  (readSequence : List (Json SerdeNumber) → Option IncomingFrame)

def readIncoming : Json SerdeNumber → Option IncomingFrame
  | .obj fields => readObject fields
  | .arr items => readSequence items
  | _ => none

def decodeFrame (text : String) : Option Frame :=
  if maxWireBytes < byteLength text then none
  else parse text >>= readIncoming readSequence >>= fromWire

end Decode

end Wenlan.Reverse.Desktop
