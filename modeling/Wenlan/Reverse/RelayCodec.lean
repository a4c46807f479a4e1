import Wenlan.Relay.Devices
import Wenlan.Support.Base64

/-!
# The relay half of the reverse wire protocol

The validators of `reverse-protocol.ts`, which take any JavaScript value apart,
and the text that frames travel as.  `JSON.parse` is a parameter.  A value with
unpaired surrogates is not represented: no validator lets one through.
-/

namespace Wenlan.Reverse.Relay

open Support (Json Double)
open Wenlan.Relay (utf16Length isSecretChar maxSafeInteger)

structure Limits where
  maxWireBytes : Nat
  maxRequestBodyBytes : Nat
  maxChunkBodyBytes : Nat
  maxIdBytes : Nat
  maxHeaderValueBytes : Nat

def limits : Limits where
  maxWireBytes := 96 * 1024
  maxRequestBodyBytes := 64 * 1024
  maxChunkBodyBytes := 16 * 1024
  maxIdBytes := 64
  maxHeaderValueBytes := 2048

/-- A JavaScript value as `JSON.parse` makes it. -/
abbrev Value := Json Double

/-- `byteLength` of `TextEncoder`. -/
def byteLength (value : String) : Nat :=
  value.toList.foldl (fun length c => length + c.utf8Size) 0

/-- `headers[name] = value`, on the own properties of a record. -/
def setProperty (headers : List (String × String)) (header : String × String) :
    List (String × String) :=
  match headers with
  | [] => [header]
  | first :: rest =>
    if first.1 = header.1 then header :: rest else first :: setProperty rest header

variable {headers : List (String × String)}

theorem mem_setProperty {header entry : String × String}
    (h : entry ∈ setProperty headers header) : entry = header ∨ entry ∈ headers := by
  induction headers with
  | nil => exact .inl (List.mem_singleton.mp h)
  | cons first rest ih =>
    rw [setProperty] at h
    split at h
    · exact (List.mem_cons.mp h).imp_right (List.mem_cons_of_mem _)
    · rcases List.mem_cons.mp h with rfl | hrest
      · exact .inr List.mem_cons_self
      · exact (ih hrest).imp_right (List.mem_cons_of_mem _)

theorem setProperty_distinct (header : String × String)
    (h : (headers.map Prod.fst).Nodup) : ((setProperty headers header).map Prod.fst).Nodup := by
  induction headers with
  | nil => simp [setProperty]
  | cons first rest ih =>
    rw [List.map_cons, List.nodup_cons] at h
    rw [setProperty]
    split
    · next heq =>
        rw [List.map_cons, List.nodup_cons, ← heq]
        exact h
    · next hne =>
        rw [List.map_cons, List.nodup_cons]
        refine ⟨fun hmem => ?_, ih h.2⟩
        obtain ⟨entry, hentry, hname⟩ := List.mem_map.mp hmem
        rcases mem_setProperty hentry with rfl | hrest
        · exact hne hname.symm
        · exact h.1 (hname ▸ List.mem_map_of_mem hrest)

/-- A `Record<string, string>`: own properties in their order, with distinct names. -/
structure HeaderRecord where
  entries : List (String × String)
  distinct : (entries.map Prod.fst).Nodup

namespace HeaderRecord

def empty : HeaderRecord := ⟨[], List.nodup_nil⟩

def set (headers : HeaderRecord) (header : String × String) : HeaderRecord :=
  ⟨setProperty headers.entries header, setProperty_distinct header headers.distinct⟩

def ofFields (fields : List (String × String)) : HeaderRecord :=
  fields.foldl set empty

def get? (headers : HeaderRecord) (name : String) : Option String :=
  headers.entries.lookup name

end HeaderRecord

inductive ReverseFrame where
  | request (id path method : String) (headers : HeaderRecord) (body : String)
  | response (id : String) (status : Nat) (headers : HeaderRecord)
  | chunk (id : String) (seq : Nat) (body : String)
  | end_ (id : String)
  | cancel (id : String)
  | credit (id : String) (seq : Nat)

/-- `ID_RE`. -/
def idPattern (value : String) : Bool :=
  decide (1 ≤ value.toList.length) && decide (value.toList.length ≤ 64) &&
    value.toList.all isSecretChar

/-- `AUTHORIZATION_RE`. -/
def authorizationPattern (value : String) : Bool :=
  let token := value.toList.drop 7
  value.toList.take 7 == "Bearer ".toList && decide (32 ≤ token.length) &&
    decide (token.length ≤ 128) && token.all isSecretChar

/-- `HEADER_VALUE_RE`. -/
def headerValuePattern (value : String) : Bool :=
  value.toList.all fun c => c == '\t' || (decide (0x20 ≤ c.toNat) && decide (c.toNat ≤ 0x7e))

def isBase64Char (c : Char) : Bool :=
  c.isAlphanum || c == '+' || c == '/'

/-- `BASE64_RE`: groups of four, the last one padded or not. -/
def base64Pattern : List Char → Bool
  | [] => true
  | w :: x :: y :: z :: rest =>
    if rest.isEmpty then
      isBase64Char w && isBase64Char x &&
        (y == '=' && z == '=' || isBase64Char y && (z == '=' || isBase64Char z))
    else
      isBase64Char w && isBase64Char x && isBase64Char y && isBase64Char z &&
        base64Pattern rest
  | _ => false

/-- `btoa` over the bytes, within the request bound. -/
def encodeBody (bytes : List UInt8) : Option String :=
  if limits.maxRequestBodyBytes < bytes.length then none
  else some (String.ofList (Support.Base64.encode bytes))

/-- `decodeCanonicalBase64`; `atob` drops trailing bits, the comparison refuses them. -/
def decodeBody (base64 : String) : Option (List UInt8) :=
  if (limits.maxRequestBodyBytes + 2) / 3 * 4 < utf16Length base64 then none
  else if !base64Pattern base64.toList then none
  else
    match Support.Base64.decode false base64.toList with
    | none => none
    | some bytes => if encodeBody bytes = some base64 then some bytes else none

def exactRecord (value : Value) (keys : List String) : Option (List (String × Value)) :=
  match value with
  | .obj fields =>
    if fields.length = keys.length ∧ fields.all fun field => keys.contains field.1 then
      some fields
    else none
  | _ => none

def exactString : Option Value → Option String
  | some (.str value) => some value
  | _ => none

/-- The fields `v` and `type` are the ones of the frame type. -/
def tagged (input : List (String × Value)) (type : String) : Bool :=
  (match input.lookup "v" with
    | some (.num number) => number == .integral 1
    | _ => false) &&
  exactString (input.lookup "type") == some type

def validateId (value : Option Value) : Option String :=
  (exactString value).filter fun id =>
    idPattern id && decide (byteLength id ≤ limits.maxIdBytes)

def validateSequence : Option Value → Option Nat
  | some (.num (.integral value)) =>
    if value.natAbs ≤ maxSafeInteger ∧ ¬value < 0 then some value.toNat else none
  | _ => none

def validateStatus : Option Value → Option Nat
  | some (.num (.integral value)) =>
    if value < 200 ∨ 599 < value then none else some value.toNat
  | _ => none

def requestHeaderNames : List String :=
  ["accept", "content-type", "mcp-session-id", "mcp-protocol-version", "last-event-id",
    "authorization"]

def responseHeaderNames : List String :=
  ["content-type", "mcp-session-id", "mcp-protocol-version"]

def validateHeader (authorization : Bool) (field : String × Value) : Option (String × String) :=
  match field.2 with
  | .str value =>
    if limits.maxHeaderValueBytes < utf16Length value || !headerValuePattern value ||
        (authorization && field.1 == "authorization" && !authorizationPattern value) then
      none
    else some (field.1, value)
  | _ => none

def validateHeaders (value : Option Value) (allowedNames : List String)
    (authorization : Bool) : Option HeaderRecord :=
  match value with
  | some (.obj fields) =>
    if fields.any fun field => !allowedNames.contains field.1 then none
    else (fields.mapM (validateHeader authorization)).map HeaderRecord.ofFields
  | _ => none

def validateRequest (value : Value) : Option ReverseFrame := do
  let input ← exactRecord value ["v", "type", "id", "path", "method", "headers", "body"]
  guard (tagged input "request")
  let id ← validateId (input.lookup "id")
  let path ← exactString (input.lookup "path")
  guard !(path != "/mcp" && path != "/connector-info")
  let method ← exactString (input.lookup "method")
  guard !(method != "GET" && method != "POST" && method != "DELETE")
  guard !(path == "/connector-info" && method != "GET")
  let headers ← validateHeaders (input.lookup "headers") requestHeaderNames true
  let body ← exactString (input.lookup "body")
  guard !((method == "GET" || method == "DELETE") && body != "")
  let _ ← decodeBody body
  pure (.request id path method headers body)

def validateResponse (value : Value) : Option ReverseFrame := do
  let input ← exactRecord value ["v", "type", "id", "status", "headers"]
  guard (tagged input "response")
  let id ← validateId (input.lookup "id")
  let status ← validateStatus (input.lookup "status")
  let headers ← validateHeaders (input.lookup "headers") responseHeaderNames false
  pure (.response id status headers)

def validateChunk (value : Value) : Option ReverseFrame := do
  let input ← exactRecord value ["v", "type", "id", "seq", "body"]
  guard (tagged input "chunk")
  let id ← validateId (input.lookup "id")
  let seq ← validateSequence (input.lookup "seq")
  let body ← exactString (input.lookup "body")
  guard !decide ((limits.maxChunkBodyBytes + 2) / 3 * 4 < utf16Length body)
  let decodedBody ← decodeBody body
  guard !(decodedBody.isEmpty || decide (limits.maxChunkBodyBytes < decodedBody.length))
  pure (.chunk id seq body)

def validateEnd (value : Value) : Option ReverseFrame := do
  let input ← exactRecord value ["v", "type", "id"]
  guard (tagged input "end")
  pure (.end_ (← validateId (input.lookup "id")))

def validateCancel (value : Value) : Option ReverseFrame := do
  let input ← exactRecord value ["v", "type", "id"]
  guard (tagged input "cancel")
  pure (.cancel (← validateId (input.lookup "id")))

def validateCredit (value : Value) : Option ReverseFrame := do
  let input ← exactRecord value ["v", "type", "id", "seq"]
  guard (tagged input "credit")
  pure (.credit (← validateId (input.lookup "id")) (← validateSequence (input.lookup "seq")))

def validateFrame (value : Value) : Option ReverseFrame :=
  match value with
  | .obj fields =>
    match exactString (fields.lookup "type") with
    | some "request" => validateRequest value
    | some "response" => validateResponse value
    | some "chunk" => validateChunk value
    | some "end" => validateEnd value
    | some "cancel" => validateCancel value
    | some "credit" => validateCredit value
    | _ => none
  | _ => none

def headersJson (headers : HeaderRecord) : Json Nat :=
  .obj (headers.entries.map fun header => (header.1, .str header.2))

/-- The record that a validator builds, in the order of its literal. -/
def ReverseFrame.wire : ReverseFrame → Json Nat
  | .request id path method headers body =>
    .obj [("v", .num 1), ("type", .str "request"), ("id", .str id), ("path", .str path),
      ("method", .str method), ("headers", headersJson headers), ("body", .str body)]
  | .response id status headers =>
    .obj [("v", .num 1), ("type", .str "response"), ("id", .str id), ("status", .num status),
      ("headers", headersJson headers)]
  | .chunk id seq body =>
    .obj [("v", .num 1), ("type", .str "chunk"), ("id", .str id), ("seq", .num seq),
      ("body", .str body)]
  | .end_ id => .obj [("v", .num 1), ("type", .str "end"), ("id", .str id)]
  | .cancel id => .obj [("v", .num 1), ("type", .str "cancel"), ("id", .str id)]
  | .credit id seq =>
    .obj [("v", .num 1), ("type", .str "credit"), ("id", .str id), ("seq", .num seq)]

def number (n : Nat) : Double := .integral n

def ReverseFrame.value (frame : ReverseFrame) : Value :=
  frame.wire.mapNumbers number

def overWireLimit (text : String) : Bool :=
  decide (limits.maxWireBytes < utf16Length text) || decide (limits.maxWireBytes < byteLength text)

def encodeFrame (frame : Value) : Option String :=
  match validateFrame frame with
  | none => none
  | some validated =>
    let text := validated.wire.stringify
    if overWireLimit text then none else some text

def decodeFrame (parse : String → Option Value) (text : String) : Option ReverseFrame :=
  if overWireLimit text then none else parse text >>= validateFrame

end Wenlan.Reverse.Relay
