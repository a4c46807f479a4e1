import Wenlan.Relay.Store

/-!
# Device operations

The transactions of `devices.ts` and `reverse-devices.ts`.  An operation that the
source splits around a network probe appears here as its two transactions; the
outcome of the probe and every value that is drawn at random are arguments.  The
clock is an argument too, read as often as the source reads it.
-/

namespace Wenlan.Relay

def routeTtlMs : Nat := 24 * 60 * 60 * 1000

def credentialTtlMs : Nat := 90 * routeTtlMs

def reverseEnrollmentTtlMs : Nat := 5 * 60 * 1000

structure ConnectorContract where
  backendToken : String
  space : String

structure ConnectorCandidate extends ConnectorContract where
  tunnelOrigin : String

structure DeviceCredential where
  id : String
  managementToken : String
  expiresAt : Nat

/-- The characters that `String.prototype.trim` removes. -/
def isJsSpace (c : Char) : Bool :=
  let n := c.toNat
  (9 ≤ n && n ≤ 13) || n == 0x20 || n == 0xa0 || n == 0x1680 ||
    (0x2000 ≤ n && n ≤ 0x200a) || n == 0x2028 || n == 0x2029 || n == 0x202f ||
    n == 0x205f || n == 0x3000 || n == 0xfeff

/-- `value.trim()`, on the characters of the value. -/
def jsTrim (value : String) : List Char :=
  ((value.toList.dropWhile isJsSpace).reverse.dropWhile isJsSpace).reverse

/-- The length that JavaScript sees, in UTF-16 code units. -/
def utf16Length (value : String) : Nat :=
  value.toList.foldl (fun length c => length + if c.toNat < 0x10000 then 1 else 2) 0

def isAsciiControl (c : Char) : Bool := c.toNat < 0x20 || c.toNat == 0x7f

def validConnectorContract (contract : ConnectorContract) : Bool :=
  validSecret contract.backendToken && decide (0 < utf16Length contract.space) &&
    decide (utf16Length contract.space ≤ 256) &&
    jsTrim contract.space == contract.space.toList &&
    !contract.space.toList.any isAsciiControl

/-! ## Enrolled devices -/

structure Owned where
  device : DeviceRecord
  route : ConnectorRoute

/-- The device and route that a management credential still controls. -/
def owned (store : Store) (id credentialHash : String) (now : Nat) : Option Owned :=
  match store.devices id, store.routes id with
  | some device, some route =>
    if !device.enabled || device.pendingReverse.isSome || !route.enabled ||
        device.id != id || route.id != id || device.subject != route.subject ||
        device.subject == "" || decide (device.expiresAt ≤ now) ||
        !isSafeInteger device.revision || !isSafeInteger route.generation ||
        !sameHash device.credentialHash credentialHash then none
    else some ⟨device, route⟩
  | _, _ => none

section Operations

-- `hashSecret`; which digest it computes never matters to these operations.
variable (hashSecret : String → String)

/-- The transaction of `enrollDevice`, after the probe answered `verified`. -/
def enrollDevice (store : Store) (candidate : ConnectorCandidate) (verified : Bool)
    (id managementToken : String) (now : Nat) : Store × Option DeviceCredential :=
  if !verified then (store, none)
  else if (store.devices id).isSome || (store.routes id).isSome then (store, none)
  else
    let expiresAt := now + credentialTtlMs
    ({ store with
        devices := store.devices.put id
          { id, subject := id, credentialHash := hashSecret managementToken,
            enabled := true, expiresAt, revision := 0, pendingReverse := none }
        routes := store.routes.put id
          { id, subject := id, space := candidate.space, generation := 0, enabled := true,
            expiresAt := now + routeTtlMs, tunnelOrigin := some candidate.tunnelOrigin,
            reverseConnectionId := none, backendToken := candidate.backendToken } },
      some ⟨id, managementToken, expiresAt⟩)

/-- Compare-and-renew mode: the route is still the one the caller expects. -/
def matchesExpected (expectedGeneration : Option Nat) (candidate : ConnectorCandidate)
    (route : ConnectorRoute) : Bool :=
  expectedGeneration.all fun expected =>
    route.generation == expected && route.space == candidate.space &&
      route.backendToken == candidate.backendToken

/-- The transaction that ends `refreshDevice`.  It reads the records again and
compares them with the snapshot `before` of the first one. -/
def refreshDevice (store : Store) (id managementToken : String)
    (candidate : ConnectorCandidate) (expectedGeneration : Option Nat) (before : Owned)
    (verified : Bool) (now later : Nat) : Store × Bool :=
  if !verified then (store, false)
  else
    match owned store id (hashSecret managementToken) now with
    | none => (store, false)
    | some current =>
      if current.device.revision != before.device.revision ||
          !matchesExpected expectedGeneration candidate current.route then
        (store, false)
      else
        let boundaryChanged := current.route.space != candidate.space ||
          current.route.backendToken != candidate.backendToken
        let generation := current.route.generation + boundaryChanged.toNat
        let revision := current.device.revision + 1
        if !isSafeInteger generation || !isSafeInteger revision then (store, false)
        else
          ({ store with
              devices := store.devices.put id { current.device with revision }
              routes := store.routes.put id
                { current.route with
                  tunnelOrigin := some candidate.tunnelOrigin
                  backendToken := candidate.backendToken
                  space := candidate.space
                  generation
                  expiresAt := later + routeTtlMs } },
            true)

/-- Take a route out of use; one that is out of use already is not written. -/
def disableRoute (routes : Table String ConnectorRoute) (id : String) :
    Table String ConnectorRoute :=
  match routes id with
  | some route => if route.enabled then routes.put id { route with enabled := false } else routes
  | none => routes

/-- Revocation asks for the current credential and for nothing else. -/
def revokeDevice (store : Store) (id managementToken : String) : Store × Bool :=
  if !validSecret id || !validSecret managementToken then (store, false)
  else
    match store.devices id, store.routes id with
    | none, none => (store, true)
    | none, some _ => (store, false)
    | some device, route =>
      if device.id != id || device.subject == "" ||
          !sameHash device.credentialHash (hashSecret managementToken) ||
          (route.any fun route => route.id != id || route.subject != device.subject) then
        (store, false)
      else
        ({ store with
            devices :=
              if device.enabled || device.pendingReverse.isSome then
                store.devices.put id { device with pendingReverse := none, enabled := false }
              else store.devices
            routes := disableRoute store.routes id },
          true)

def rotateDeviceCredential (store : Store) (id managementToken nextToken : String)
    (now later : Nat) : Store × Option DeviceCredential :=
  if !validSecret id || !validSecret managementToken then (store, none)
  else
    match owned store id (hashSecret managementToken) now with
    | none => (store, none)
    | some current =>
      let generation := current.route.generation + 1
      let revision := current.device.revision + 1
      if !isSafeInteger generation || !isSafeInteger revision then (store, none)
      else
        let expiresAt := later + credentialTtlMs
        ({ store with
            devices := store.devices.put id
              { current.device with
                credentialHash := hashSecret nextToken, revision, expiresAt }
            routes := store.routes.put id { current.route with generation } },
          some ⟨id, nextToken, expiresAt⟩)

/-! ## Reverse activation -/

/-- A pending record keeps a management capability, but never an OAuth route. -/
def pendingReverseDevice (device : Option DeviceRecord) (now : Nat) : Bool :=
  device.any fun device =>
    device.pendingReverse.any fun pending =>
      !device.enabled && decide (now < device.expiresAt) && decide (now < pending.expiresAt) &&
        validConnectorContract ⟨pending.backendToken, pending.space⟩

def prepareReverseDevice (store : Store) (candidate : ConnectorContract)
    (id managementToken : String) (now : Nat) : Store × Option (DeviceCredential × Nat) :=
  if !validConnectorContract candidate then (store, none)
  else if (store.devices id).isSome || (store.routes id).isSome then (store, none)
  else
    let expiresAt := now + credentialTtlMs
    let pendingUntil := now + reverseEnrollmentTtlMs
    ({ store with
        devices := store.devices.put id
          { id, subject := id, credentialHash := hashSecret managementToken,
            enabled := false, expiresAt, revision := 0,
            pendingReverse :=
              some ⟨candidate.backendToken, candidate.space, pendingUntil⟩ } },
      some (⟨id, managementToken, expiresAt⟩, pendingUntil))

structure OwnedState where
  device : DeviceRecord
  route : Option ConnectorRoute
  contract : ConnectorContract

-- `tunnelOrigin` of `proxy.ts`: the origin of an accepted tunnel URL.
variable (tunnelOrigin : String → Option String)

def validTransport (route : ConnectorRoute) : Bool :=
  ((route.tunnelOrigin.any fun origin => (tunnelOrigin origin).isSome) &&
      route.reverseConnectionId.isNone) ||
    (validSecret (route.reverseConnectionId.getD "") && route.tunnelOrigin.isNone)

def ownedState (store : Store) (id digest : String) (now : Nat) : Option OwnedState :=
  match store.devices id with
  | none => none
  | some device =>
    if device.id != id || device.subject == "" || decide (device.expiresAt ≤ now) ||
        !isSafeInteger device.revision || !sameHash device.credentialHash digest then none
    else
      match device.pendingReverse with
      | some pending =>
        if !pendingReverseDevice (some device) now || (store.routes id).isSome then none
        else some ⟨device, none, ⟨pending.backendToken, pending.space⟩⟩
      | none =>
        match store.routes id with
        | none => none
        | some route =>
          if !device.enabled || !route.enabled || route.id != id ||
              route.subject != device.subject || !isSafeInteger route.generation ||
              !validConnectorContract ⟨route.backendToken, route.space⟩ ||
              !validTransport tunnelOrigin route then none
          else some ⟨device, some route, ⟨route.backendToken, route.space⟩⟩

def beginReverseActivation (store : Store) (id managementToken : String) (now : Nat) :
    Option OwnedState :=
  if !validSecret id || !validSecret managementToken then none
  else ownedState tunnelOrigin store id (hashSecret managementToken) now

def sameActivation (current before : OwnedState) : Bool :=
  current.device.revision == before.device.revision &&
    current.device.subject == before.device.subject &&
    current.contract.space == before.contract.space &&
    current.contract.backendToken == before.contract.backendToken &&
    (match current.route, before.route with
      | none, none => true
      | some route, some prior => connectorBinding route == connectorBinding prior
      | _, _ => false)

def activatedRoute (id connectionId : String) (current : OwnedState) (later : Nat) :
    ConnectorRoute where
  id := id
  subject := current.device.subject
  space := current.contract.space
  generation := (current.route.map ConnectorRoute.generation).getD 0
  enabled := true
  expiresAt := later + routeTtlMs
  tunnelOrigin := none
  reverseConnectionId := some connectionId
  backendToken := current.contract.backendToken

def commitReverseActivation (store : Store) (id managementToken connectionId : String)
    (before : OwnedState) (connected : Bool) (now later : Nat) : Store × Option ConnectorRoute :=
  if !validSecret id || !validSecret managementToken || !validSecret connectionId ||
      (before.route.any fun route => route.reverseConnectionId == some connectionId) then
    (store, none)
  else
    match ownedState tunnelOrigin store id (hashSecret managementToken) now with
    | none => (store, none)
    | some current =>
      if !connected || !sameActivation current before then (store, none)
      else
        let revision := current.device.revision + 1
        if !isSafeInteger revision then (store, none)
        else
          let route := activatedRoute id connectionId current later
          ({ store with
              devices := store.devices.put id
                { current.device with pendingReverse := none, enabled := true, revision }
              routes := store.routes.put id route },
            some route)

end Operations

/-- The socket behind a connection is still the one of the device's route. -/
def reverseConnectionCurrent (store : Store) (id connectionId : String)
    (generation now : Nat) : Bool :=
  if !validSecret id || !validSecret connectionId || !isSafeInteger generation then false
  else
    match store.devices id, store.routes id with
    | some device, some route =>
      device.enabled && device.pendingReverse.isNone && device.id == id &&
        decide (now < device.expiresAt) && route.enabled && route.id == id &&
        route.subject == device.subject && route.generation == generation &&
        route.tunnelOrigin.isNone && route.reverseConnectionId == some connectionId &&
        decide (now < route.expiresAt)
    | _, _ => false

structure QueryGrant where
  subject : String
  connectorId : String
  space : String
  generation : Nat

/-- `routeAllows` of `proxy.ts`, asked before every forwarded request. -/
def routeAllows (route : Option ConnectorRoute) (grant : QueryGrant) (now : Nat) : Bool :=
  route.any fun route =>
    route.enabled && route.id == grant.connectorId && route.subject == grant.subject &&
      route.space == grant.space && route.generation == grant.generation &&
      decide (now < route.expiresAt)

end Wenlan.Relay
