import Wenlan.Relay.Devices

/-!
# Pairing

The transactions of `pairing.ts`: a browser begins a pairing and shows a short
code, a device resolves the code and approves or declines, and the browser
consumes the approval.  Random values, candidate codes and clock readings are
arguments.
-/

namespace Wenlan.Relay

def pairingTtlMs : Nat := 10 * 60 * 1000

/-- Short code alphabet: no 0/O, 1/I/L or U, so it reads aloud unambiguously. -/
def userCodeAlphabet : List Char := "23456789ABCDEFGHJKMNPQRSTVWXYZ".toList

def userCodeLength : Nat := 8

def lookupMissLimit : Nat := 10

def lookupMissWindowMs : Nat := 10 * 60 * 1000

/-- How often a code is drawn before beginning a pairing gives up. -/
def userCodeAttempts : Nat := 8

structure AuthorizationIntent where
  authorizationId : String
  clientId : String
  resource : String
  scopes : List String

/-- Device-auth output: the identity that a management credential stands for. -/
structure DeviceIdentity where
  id : String
  subject : String
  generation : Nat
  credentialExpiresAt : Nat

structure Consent where
  clientId : String
  resource : String
  space : String

structure PendingView where
  pairingId : String
  clientId : String
  resource : String
  scopes : List String
  expiresAt : Nat
  identity : ClientDisplay
  deriving DecidableEq

inductive LookupResult where
  | found (view : PendingView)
  | missing
  | limited (retryAfter : Nat)
  deriving DecidableEq

structure ConsumedPairing where
  authorizationId : String
  clientId : String
  resource : String
  scopes : List String
  grant : Approval
  client : ClientDisplay

structure BegunPairing where
  pairingId : String
  browserSecret : String
  expiresAt : Nat
  userCode : String

def PairingRecord.live (record : PairingRecord) (now : Nat) : Bool :=
  decide (now < record.expiresAt) &&
    (record.status == .pending || record.status == .approved)

/-- Live for the browser: a denial stays visible until the page cancels it. -/
def PairingRecord.visible (record : PairingRecord) (now : Nat) : Bool :=
  decide (now < record.expiresAt) &&
    (record.status == .pending || record.status == .approved || record.status == .denied)

section Operations

-- `hashSecret`, and the Unicode mapping of `String.prototype.toUpperCase`.
variable (hashSecret : String → String) (toUpperCase : List Char → List Char)

/-- Accepts dashes, spaces and lowercase; none when it cannot be a code. -/
def normalizeUserCode (value : String) : Option String :=
  if 32 < utf16Length value then none
  else
    let code := toUpperCase (value.toList.filter fun c => !(isJsSpace c || c == '-'))
    if code.length = userCodeLength ∧ code.all (userCodeAlphabet.contains ·) then
      some (String.ofList code)
    else none

def dropCode (codes : Table String CodeIndex) (record : PairingRecord) (pairingId : String) :
    Table String CodeIndex :=
  match record.userCode with
  | none => codes
  | some code =>
    if (codes code).any fun index => index.pairingId == pairingId then codes.delete code
    else codes

def settlePairing (store : Store) (pairingId : String) (record : PairingRecord)
    (status : PairingStatus) : Store :=
  { store with
    codes := dropCode store.codes record pairingId
    pairings := store.pairings.put pairingId { record with status } }

def matchingRoute (route : Option ConnectorRoute) (approval : Approval) (now : Nat) : Bool :=
  route.any fun route =>
    route.enabled && decide (now < route.expiresAt) && route.id == approval.connectorId &&
      route.subject == approval.subject && route.space == approval.space &&
      route.generation == approval.generation

def validIntent (intent : AuthorizationIntent) (publicResource : String) : Bool :=
  validSecret intent.authorizationId && intent.clientId != "" &&
    decide (utf16Length intent.clientId ≤ 2048) && intent.resource == publicResource &&
    "https://".toList.isPrefixOf publicResource.toList && intent.scopes == ["wenlan:query"]

def codeTaken (codes : Table String CodeIndex) (now : Nat) (code : String) : Bool :=
  (codes code).any fun index => decide (now < index.expiresAt)

/-- The first candidate, out of those that are drawn, that no live pairing holds. -/
def freeUserCode (codes : Table String CodeIndex) (candidates : List String) (now : Nat) :
    Option String :=
  (candidates.take userCodeAttempts).find? fun code => !codeTaken codes now code

def beginPairing (store : Store) (intent : AuthorizationIntent) (publicResource : String)
    (identity : ClientDisplay) (pairingId browserSecret : String) (candidates : List String)
    (now : Nat) : Store × Except String BegunPairing :=
  if !validIntent intent publicResource then
    (store, .error "Unsupported authorization intent")
  else if (store.authorizationPairings intent.authorizationId).isSome then
    (store, .error "Authorization already paired")
  else
    match freeUserCode store.codes candidates now with
    | none => (store, .error "User code unavailable")
    | some code =>
      let expiresAt := now + pairingTtlMs
      ({ store with
          pairings := store.pairings.put pairingId
            { authorizationId := intent.authorizationId, clientId := intent.clientId,
              resource := intent.resource, scopes := intent.scopes, identity,
              browserHash := hashSecret browserSecret, expiresAt, status := .pending,
              approval := none, userCode := some code }
          authorizationPairings :=
            store.authorizationPairings.put intent.authorizationId ⟨pairingId, expiresAt⟩
          codes := store.codes.put code ⟨pairingId, expiresAt⟩ },
        .ok ⟨pairingId, browserSecret, expiresAt, code⟩)

def pendingView (store : Store) (pairingId : String) (now : Nat) : Option PendingView :=
  match store.pairings pairingId with
  | none => none
  | some record =>
    if record.live now && record.status == .pending then
      some ⟨pairingId, record.clientId, record.resource, record.scopes, record.expiresAt,
        record.identity⟩
    else none

def resolveCode (store : Store) (normalized : Option String) (now : Nat) : Option PendingView :=
  match normalized with
  | none => none
  | some code =>
    match store.codes code with
    | none => none
    | some index =>
      if now < index.expiresAt then
        (pendingView store index.pairingId now).filter fun view =>
          (store.pairings view.pairingId).any fun record => record.userCode == some code
      else none

def openMisses (store : Store) (deviceId : String) (now : Nat) : Option LookupMisses :=
  (store.misses deviceId).filter fun misses =>
    decide (now < misses.expiresAt) && isSafeInteger misses.count

def lookupPairing (store : Store) (deviceId code : String) (now : Nat) : Store × LookupResult :=
  if !validSecret deviceId then (store, .missing)
  else
    let misses := openMisses store deviceId now
    match misses.filter fun misses => decide (lookupMissLimit ≤ misses.count) with
    | some full => (store, .limited (max 1 ((full.expiresAt - now + 999) / 1000)))
    | none =>
      match resolveCode store (normalizeUserCode toUpperCase code) now with
      | some view => (store, .found view)
      | none =>
        let next : LookupMisses := match misses with
          | some window => ⟨window.count + 1, window.expiresAt⟩
          | none => ⟨1, now + lookupMissWindowMs⟩
        ({ store with misses := store.misses.put deviceId next }, .missing)

def denyPairing (store : Store) (pairingId deviceId : String) (now : Nat) : Store × Bool :=
  if !validSecret pairingId || !validSecret deviceId then (store, false)
  else
    match store.pairings pairingId with
    | none => (store, false)
    | some record =>
      if record.live now && record.status == .pending then
        (settlePairing store pairingId record .denied, true)
      else (store, false)

def approvalOf (route : ConnectorRoute) : Approval :=
  ⟨route.subject, route.id, route.space, route.generation⟩

def approvableRoute (store : Store) (device : DeviceIdentity) (space : String) (now : Nat) :
    Option ConnectorRoute :=
  (store.routes device.id).filter fun route =>
    route.enabled && decide (now < route.expiresAt) &&
      decide (now < device.credentialExpiresAt) && route.id == device.id &&
      route.subject == device.subject && route.generation == device.generation &&
      route.space == space && !(jsTrim route.space).isEmpty && isSafeInteger route.generation

def approvePairing (store : Store) (pairingId : String) (device : DeviceIdentity)
    (consent : Consent) (now later : Nat) : Store × Bool :=
  if !validSecret pairingId || !validSecret device.id then (store, false)
  else
    match store.pairings pairingId with
    | none => (store, false)
    | some record =>
      if !record.live now || record.status != .pending ||
          record.clientId != consent.clientId || record.resource != consent.resource ||
          !record.live later then (store, false)
      else
        match approvableRoute store device consent.space later with
        | none => (store, false)
        | some route =>
          ({ store with
              pairings := store.pairings.put pairingId
                { record with status := .approved, approval := some (approvalOf route) } },
            true)

def consumePairing (store : Store) (pairingId browserSecret : String) (now later : Nat) :
    Store × Option ConsumedPairing :=
  if !validSecret pairingId || !validSecret browserSecret then (store, none)
  else
    match store.pairings pairingId with
    | none => (store, none)
    | some record =>
      match record.approval with
      | none => (store, none)
      | some approval =>
        if !record.live now || record.status != .approved ||
            !sameHash record.browserHash (hashSecret browserSecret) ||
            !record.live later ||
            !matchingRoute (store.routes approval.connectorId) approval later then
          (store, none)
        else
          (settlePairing store pairingId record .consumed,
            some ⟨record.authorizationId, record.clientId, record.resource, record.scopes,
              approval, record.identity⟩)

def cancelPairingRequest (store : Store) (pairingId browserSecret : String) (now : Nat) :
    Store × Option String :=
  if !validSecret pairingId || !validSecret browserSecret then (store, none)
  else
    match store.pairings pairingId with
    | none => (store, none)
    | some record =>
      if record.visible now && sameHash record.browserHash (hashSecret browserSecret) then
        (settlePairing store pairingId record .cancelled, some record.authorizationId)
      else (store, none)

end Operations

end Wenlan.Relay
