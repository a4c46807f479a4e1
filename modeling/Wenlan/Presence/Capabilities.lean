import Wenlan.Support.Fallible
import Wenlan.Support.Framing

/-!
# Presence capabilities

`presence.rs` of the daemon and of the app: what is signed, and what the daemon checks.  The hash
and the MAC are third-party and stay parameters.
-/

namespace Wenlan.Presence

open Support.Fallible (bind_ok check check_eq_ok)
open Support.Framing

/-- A string of the program; its length fits a `usize`. -/
def Text := { text : String // text.utf8ByteSize < lengthBound }

namespace Text

instance : DecidableEq Text := inferInstanceAs (DecidableEq (Subtype _))

def bytes (text : Text) : List UInt8 := text.val.toByteArray.data.toList

theorem length_bytes_lt (text : Text) : text.bytes.length < lengthBound := text.property

theorem bytes_inj {text other : Text} (h : text.bytes = other.bytes) : text = other := by
  have harray : text.val.toByteArray = other.val.toByteArray :=
    ByteArray.ext (Array.toList_inj.mp h)
  exact Subtype.ext (String.toByteArray_inj.mp harray)

end Text

/-- A vector of strings. -/
def Texts := { texts : List Text // texts.length < lengthBound }

namespace Texts

instance : DecidableEq Texts := inferInstanceAs (DecidableEq (Subtype _))

def bytes (texts : Texts) : List (List UInt8) := texts.val.map Text.bytes

theorem bytes_inj {texts other : Texts} (h : texts.bytes = other.bytes) : texts = other := by
  refine Subtype.ext (List.map_injective_iff.mpr ?_ h)
  intro text text' hbytes
  exact Text.bytes_inj hbytes

theorem length_bytes_lt (texts : Texts) : texts.bytes.length < lengthBound := by
  unfold bytes
  rw [List.length_map]
  exact texts.property

theorem forall_length_lt (texts : Texts) : ∀ bytes ∈ texts.bytes, bytes.length < lengthBound := by
  intro bytes hmem
  obtain ⟨text, -, rfl⟩ := List.mem_map.mp hmem
  exact text.length_bytes_lt

/-- `vec![text]`. -/
def single (text : Text) : Texts := ⟨[text], by unfold lengthBound; simp⟩

end Texts

def hexDigit (n : ℕ) : Char := if n < 10 then Char.ofNat (48 + n) else Char.ofNat (87 + n)

/-- `hex` of the app and `hex::encode`: lower case. -/
def hexEncode (bytes : List UInt8) : String :=
  String.ofList (bytes.flatMap fun byte => [hexDigit (byte.toNat / 16), hexDigit (byte.toNat % 16)])

def hexValue (byte : UInt8) : Option ℕ :=
  let n := byte.toNat
  if 48 ≤ n ∧ n ≤ 57 then some (n - 48)
  else if 97 ≤ n ∧ n ≤ 102 then some (n - 87)
  else if 65 ≤ n ∧ n ≤ 70 then some (n - 55)
  else none

/-- `hex::decode`, which takes both cases. -/
def hexDecode : List UInt8 → Option (List UInt8)
  | [] => some []
  | [_] => none
  | high :: low :: rest =>
    (hexValue high).bind fun high => (hexValue low).bind fun low =>
      (hexDecode rest).map fun bytes => UInt8.ofNat (16 * high + low) :: bytes

theorem length_hexDecode {text bytes : List UInt8} (h : hexDecode text = some bytes) :
    2 * bytes.length = text.length := by
  induction text using hexDecode.induct generalizing bytes with
  | case1 =>
    cases h
    rfl
  | case2 => cases h
  | case3 high low rest ih =>
    rw [hexDecode] at h
    obtain ⟨highV, -, h⟩ := Option.bind_eq_some_iff.mp h
    obtain ⟨lowValue, -, h⟩ := Option.bind_eq_some_iff.mp h
    obtain ⟨decoded, hdec, rfl⟩ := Option.map_eq_some_iff.mp h
    have hrest := ih hdec
    simp only [List.length_cons]
    omega

def protocolVersionNow : UInt32 := 1

def secretLen : ℕ := 32

def maxWindowSecs : UInt64 := 60

def maxClockSkewSecs : UInt64 := 5

def capabilityTtlSecs : UInt64 := 60

inductive PresenceAction where
  | attestClaim
  | reviewPage
  deriving DecidableEq

namespace PresenceAction

def asStr : PresenceAction → String
  | .attestClaim => "attest_claim"
  | .reviewPage => "review_page"

def bytes (action : PresenceAction) : List UInt8 := action.asStr.toByteArray.data.toList

theorem length_bytes_lt (action : PresenceAction) : action.bytes.length < lengthBound := by
  cases action <;> decide

theorem bytes_inj {action other : PresenceAction} (h : action.bytes = other.bytes) :
    action = other := by
  revert h
  cases action <;> cases other <;> decide

end PresenceAction

/-- `parse_action`, and the same match in `verify`. -/
def parseAction (action : String) : Option PresenceAction :=
  if action = "attest_claim" then some .attestClaim
  else if action = "review_page" then some .reviewPage
  else none

abbrev Bytes := { bytes : List UInt8 // bytes.length < lengthBound }

/-- The nine things a MAC is computed over. -/
structure Signed where
  protocolVersion : UInt32
  action : PresenceAction
  targetIds : Texts
  baseDigest : Text
  callerId : Text
  operationId : Text
  nonce : Bytes
  mintedAt : UInt64
  expiresAt : UInt64

/-- `signed_bytes`, the same function in the app and in the daemon. -/
def signedBytes (signed : Signed) : List UInt8 :=
  component (bigEndian 4 signed.protocolVersion.toNat) ++
  (component signed.action.bytes ++
  (counted signed.targetIds.bytes ++
  (component signed.baseDigest.bytes ++
  (component signed.callerId.bytes ++
  (component signed.operationId.bytes ++
  (component signed.nonce.val ++
  (component (bigEndian 8 signed.mintedAt.toNat) ++
  (component (bigEndian 8 signed.expiresAt.toNat) ++ []))))))))

theorem length_bigEndian_lt {width n : ℕ} (hwidth : width ≤ 8) :
    (bigEndian width n).length < lengthBound := by
  rw [length_bigEndian, lengthBound]
  omega

/-- Exactly one capability maps to any given message. -/
theorem signedBytes_inj {signed other : Signed} (h : signedBytes signed = signedBytes other) :
    signed = other := by
  obtain ⟨hvers, h⟩ := component_append_inj (length_bigEndian_lt (by decide))
    (length_bigEndian_lt (by decide)) h
  obtain ⟨hact, h⟩ := component_append_inj signed.action.length_bytes_lt
    other.action.length_bytes_lt h
  obtain ⟨htarg, h⟩ := counted_append_inj signed.targetIds.length_bytes_lt
    other.targetIds.length_bytes_lt signed.targetIds.forall_length_lt
    other.targetIds.forall_length_lt h
  obtain ⟨hdig, h⟩ := component_append_inj signed.baseDigest.length_bytes_lt
    other.baseDigest.length_bytes_lt h
  obtain ⟨hcal, h⟩ := component_append_inj signed.callerId.length_bytes_lt
    other.callerId.length_bytes_lt h
  obtain ⟨hoper, h⟩ := component_append_inj signed.operationId.length_bytes_lt
    other.operationId.length_bytes_lt h
  obtain ⟨hnonce, h⟩ := component_append_inj signed.nonce.property other.nonce.property h
  obtain ⟨hmint, h⟩ := component_append_inj (length_bigEndian_lt (by decide))
    (length_bigEndian_lt (by decide)) h
  obtain ⟨hexp, -⟩ := component_append_inj (length_bigEndian_lt (by decide))
    (length_bigEndian_lt (by decide)) h
  have hvers' : signed.protocolVersion = other.protocolVersion := by
    apply UInt32.toNat_inj.mp
    exact bigEndian_inj signed.protocolVersion.toNat_lt other.protocolVersion.toNat_lt hvers
  have htime : ∀ time time' : UInt64,
      bigEndian 8 time.toNat = bigEndian 8 time'.toNat → time = time' := by
    intro time time' hbytes
    exact UInt64.toNat_inj.mp (bigEndian_inj time.toNat_lt time'.toNat_lt hbytes)
  obtain ⟨version, action, targets, digest, caller, operation, nonce, minted, expires⟩ := signed
  obtain ⟨version', action', targets', digest', caller', operation', nonce', minted',
    expires'⟩ := other
  dsimp only at hvers' hact htarg hdig hcal hoper hnonce hmint hexp
  rw [hvers', PresenceAction.bytes_inj hact, Texts.bytes_inj htarg,
    Text.bytes_inj hdig, Text.bytes_inj hcal, Text.bytes_inj hoper,
    Subtype.ext hnonce, htime _ _ hmint, htime _ _ hexp]

/-! ## Submissions -/

structure PresenceCapability where
  protocolVersion : UInt32
  action : String
  targetIds : Texts
  baseDigest : Text
  callerId : Text
  operationId : Text
  mintedAt : UInt64
  expiresAt : UInt64
  nonce : Text
  mac : Text

structure PageReviewReceipt where
  pageId : String
  humanReviewed : Bool
  reviewedPageVersion : Int
  reviewedPageDigest : String
  protocolVersion : UInt32
  nonceDigest : String
  verifiedAt : Int64
  callerId : String
  operationId : String
  deriving DecidableEq

/-- The third-party functions: SHA-256, HMAC-SHA-256 and the codec of a receipt. -/
structure Library where
  sha256 : List UInt8 → List UInt8
  hmacSha256 : List UInt8 → List UInt8 → List UInt8
  toJson : PageReviewReceipt → String
  fromJson : String → Option PageReviewReceipt

inductive PresenceRefusal where
  | invalid
  | expired
  | replayed
  | conflict
  | unavailable
  deriving DecidableEq

/-- The file of the install secret, as far as `load_secret` looks at it. -/
structure SecretFile where
  mode : ℕ
  bytes : List UInt8

/-- `load_secret`: no other user may have any right on the file, and it has the right length. -/
def loadSecret : Option SecretFile → Except PresenceRefusal (List UInt8)
  | none => .error .unavailable
  | some file => do
    check (file.mode &&& 0o077 = 0) .unavailable
    check (file.bytes.length = secretLen) .unavailable
    return file.bytes

def nonceDigest (library : Library) (nonce : List UInt8) : String :=
  hexEncode (library.sha256 nonce)

/-- `request_digest`: what a request means, whichever capability carried it. -/
def requestDigest (library : Library) (action : PresenceAction) (targetIds : Texts)
    (baseDigest : Text) : String :=
  hexEncode (library.sha256 (component action.bytes ++ counted targetIds.bytes ++
    component baseDigest.bytes))

structure VerifiedPresence where
  action : PresenceAction
  targetIds : Texts
  baseDigest : Text
  callerId : Text
  operationId : Text
  protocolVersion : UInt32
  nonceDigest : String
  expiresAt : UInt64
  requestDigest : String

def saturatingAdd (a b : UInt64) : UInt64 :=
  if a.toNat + b.toNat < 2 ^ 64 then a + b else UInt64.ofNat (2 ^ 64 - 1)

def PresenceCapability.signed (submitted : PresenceCapability) (action : PresenceAction)
    (nonce : Bytes) : Signed where
  protocolVersion := submitted.protocolVersion
  action := action
  targetIds := submitted.targetIds
  baseDigest := submitted.baseDigest
  callerId := submitted.callerId
  operationId := submitted.operationId
  nonce := nonce
  mintedAt := submitted.mintedAt
  expiresAt := submitted.expiresAt

def PresenceCapability.decodeNonce (submitted : PresenceCapability) : Option Bytes :=
  match h : hexDecode submitted.nonce.bytes with
  | none => none
  | some bytes => some ⟨bytes, by
      have hlength := length_hexDecode h
      have hbound := submitted.nonce.length_bytes_lt
      omega⟩

def WindowOk (submitted : PresenceCapability) (now : UInt64) : Prop :=
  ¬ (submitted.expiresAt ≤ submitted.mintedAt ∨
    maxWindowSecs < submitted.expiresAt - submitted.mintedAt ∨
    saturatingAdd now maxClockSkewSecs < submitted.mintedAt)

instance (submitted : PresenceCapability) (now : UInt64) : Decidable (WindowOk submitted now) :=
  inferInstanceAs (Decidable (¬ _))

/-- An option whose `none` is a refusal. -/
def orRefuse {α : Type} (refusal : PresenceRefusal) : Option α → Except PresenceRefusal α
  | none => .error refusal
  | some a => .ok a

theorem orRefuse_eq_ok {α : Type} {refusal : PresenceRefusal} {a : α} {option : Option α} :
    orRefuse refusal option = .ok a ↔ option = some a := by
  cases option with
  | none => exact iff_of_false (fun h => by cases h) (fun h => by cases h)
  | some b => exact ⟨fun h => congrArg some (Except.ok.inj h),
      fun h => congrArg Except.ok (Option.some.inj h)⟩

def verify (library : Library) (submitted : PresenceCapability) (secret : List UInt8)
    (now : UInt64) (demandedAction : PresenceAction) (demandedTargets : Texts) :
    Except PresenceRefusal VerifiedPresence := do
  check (submitted.protocolVersion = protocolVersionNow) .invalid
  let action ← orRefuse .invalid (parseAction submitted.action)
  check (action = demandedAction ∧ submitted.targetIds = demandedTargets) .invalid
  check (WindowOk submitted now) .invalid
  check (now < submitted.expiresAt) .expired
  let nonce ← orRefuse .invalid submitted.decodeNonce
  let mac ← orRefuse .invalid (hexDecode submitted.mac.bytes)
  check (library.hmacSha256 secret (signedBytes (submitted.signed action nonce)) = mac) .invalid
  return {
    action := action
    targetIds := submitted.targetIds
    baseDigest := submitted.baseDigest
    callerId := submitted.callerId
    operationId := submitted.operationId
    protocolVersion := submitted.protocolVersion
    nonceDigest := nonceDigest library nonce.val
    expiresAt := submitted.expiresAt
    requestDigest := requestDigest library action submitted.targetIds submitted.baseDigest }

theorem verify_eq_ok {library : Library} {submitted : PresenceCapability} {secret : List UInt8}
    {now : UInt64} {demandedAction : PresenceAction} {demandedTargets : Texts}
    {verified : VerifiedPresence}
    (h : verify library submitted secret now demandedAction demandedTargets = .ok verified) :
    parseAction submitted.action = some demandedAction ∧ submitted.targetIds = demandedTargets ∧
      now < submitted.expiresAt ∧
      (∃ nonce, submitted.decodeNonce = some nonce ∧ hexDecode submitted.mac.bytes =
        some (library.hmacSha256 secret (signedBytes (submitted.signed demandedAction nonce))) ∧
        verified.nonceDigest = nonceDigest library nonce.val) ∧
      verified.baseDigest = submitted.baseDigest ∧ verified.callerId = submitted.callerId ∧
      verified.operationId = submitted.operationId ∧
      verified.requestDigest =
        requestDigest library demandedAction submitted.targetIds submitted.baseDigest := by
  obtain ⟨u, -, h⟩ := bind_ok h
  obtain ⟨action, hact, h⟩ := bind_ok h
  obtain ⟨u', hdem, h⟩ := bind_ok h
  obtain ⟨hsame, htarg⟩ := check_eq_ok.mp hdem
  obtain ⟨u₂, -, h⟩ := bind_ok h
  obtain ⟨u₃, hwind, h⟩ := bind_ok h
  obtain ⟨nonce, hnonce, h⟩ := bind_ok h
  obtain ⟨mac, hmac, h⟩ := bind_ok h
  obtain ⟨u₄, hver, h⟩ := bind_ok h
  cases h
  subst hsame
  refine ⟨orRefuse_eq_ok.mp hact, htarg, check_eq_ok.mp hwind, ?_, rfl, rfl, rfl, rfl⟩
  refine ⟨nonce, orRefuse_eq_ok.mp hnonce, ?_, rfl⟩
  rw [check_eq_ok.mp hver]
  exact orRefuse_eq_ok.mp hmac

end Wenlan.Presence
