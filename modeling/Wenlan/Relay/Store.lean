import Wenlan.Support.Json

/-!
# The authority store of the relay

The records that the relay's Durable Object keeps, and a typed view of the store
they are kept in.  The source addresses one flat map through disjoint key
prefixes (`device:`, `connector:`, `oauth-grant:` and so on); here each prefix is
a field of its own, keyed by what follows the prefix.  A transaction is a function
on the whole store, since the store runs transactions one after another.
-/

namespace Wenlan.Relay

open Support (Json)

def maxSafeInteger : Nat := 9007199254740991

/-- `Number.isSafeInteger`, for a number that is not negative. -/
def isSafeInteger (n : Nat) : Bool := decide (n ≤ maxSafeInteger)

/-- One of `[A-Za-z0-9_-]`. -/
def isSecretChar (c : Char) : Bool :=
  c.isAlphanum || c == '_' || c == '-'

def validSecret (value : String) : Bool :=
  decide (32 ≤ value.toList.length) && decide (value.toList.length ≤ 128) &&
    value.toList.all isSecretChar

/-- `sameHash` compares every code unit before it answers. -/
def sameHash (a b : String) : Bool := a == b

structure PendingReverse where
  backendToken : String
  space : String
  expiresAt : Nat

structure DeviceRecord where
  id : String
  subject : String
  credentialHash : String
  enabled : Bool
  expiresAt : Nat
  revision : Nat
  pendingReverse : Option PendingReverse

structure ConnectorRoute where
  id : String
  subject : String
  space : String
  generation : Nat
  enabled : Bool
  expiresAt : Nat
  tunnelOrigin : Option String
  reverseConnectionId : Option String
  backendToken : String

structure GrantReceipt where
  id : String
  clientId : String
  subject : String
  connectorId : String
  space : String
  generation : Nat
  owner : String
  active : Bool
  createdAt : Nat
  expiresAt : Nat
  cleanupPending : Option Bool := none
  cleanupAfter : Option Nat := none
  cleanupFailures : Option Nat := none
  cleanupLease : Option String := none
  authorizationId : String
  clientName : Option String := none
  redirectHost : Option String := none
  knownClient : Bool := false
  lastUsedAt : Option Nat := none
  revokedAt : Option Nat := none

structure ClientDisplay where
  clientName : Option String
  redirectHost : String
  knownClient : Bool
  deriving DecidableEq

structure ClientAuthorization where
  authorizationId : String
  expiresAt : Nat
  display : Option ClientDisplay

inductive PairingStatus where
  | pending
  | approved
  | consumed
  | cancelled
  | denied
  deriving DecidableEq

structure Approval where
  subject : String
  connectorId : String
  space : String
  generation : Nat

structure PairingRecord where
  authorizationId : String
  clientId : String
  resource : String
  scopes : List String
  identity : ClientDisplay
  browserHash : String
  expiresAt : Nat
  status : PairingStatus
  approval : Option Approval
  userCode : Option String

/-- The record under `pairing-code:` and under `authorization-pairing:`. -/
structure CodeIndex where
  pairingId : String
  expiresAt : Nat

structure LookupMisses where
  count : Nat
  expiresAt : Nat

/-- The validated OAuth request behind a pairing, kept as opaque text. -/
structure StoredAuthorization where
  request : String
  expiresAt : Nat

structure SessionRecord where
  id : String
  owner : String
  route : String
  backendId : String
  expiresAt : Nat
  active : Bool

/-- A family of records under one key prefix. -/
abbrev Table (κ α : Type) := κ → Option α

namespace Table

variable {κ α : Type} [DecidableEq κ]

def put (table : Table κ α) (key : κ) (value : α) : Table κ α :=
  fun other => if other = key then some value else table other

def delete (table : Table κ α) (key : κ) : Table κ α :=
  fun other => if other = key then none else table other

section

variable (table : Table κ α)

@[simp] theorem put_same (key : κ) (value : α) :
    table.put key value key = some value := if_pos rfl

theorem put_other {key other : κ} (value : α) (hne : other ≠ key) :
    table.put key value other = table other := if_neg hne

@[simp] theorem delete_same (key : κ) :
    table.delete key key = none := if_pos rfl

theorem delete_other {key other : κ} (hne : other ≠ key) :
    table.delete key other = table other := if_neg hne

end

end Table

structure Store where
  /-- `device:` -/
  devices : Table String DeviceRecord
  /-- `connector:` -/
  routes : Table String ConnectorRoute
  /-- `oauth-grant:`, by subject and grant id -/
  grants : Table (String × String) GrantReceipt
  /-- `oauth-client:`, by subject and the hash of the client id -/
  clients : Table (String × String) ClientAuthorization
  /-- `pairing:` -/
  pairings : Table String PairingRecord
  /-- `pairing-code:` -/
  codes : Table String CodeIndex
  /-- `authorization-pairing:` -/
  authorizationPairings : Table String CodeIndex
  /-- `pairing-lookup-miss:` -/
  misses : Table String LookupMisses
  /-- `oauth-request:` -/
  requests : Table String StoredAuthorization
  /-- `mcp-session:` -/
  sessions : Table String SessionRecord
  /-- `mcp-session-owner:`, the session that owns a backend session -/
  sessionOwners : Table String String

def Store.empty : Store :=
  ⟨fun _ => none, fun _ => none, fun _ => none, fun _ => none, fun _ => none, fun _ => none,
    fun _ => none, fun _ => none, fun _ => none, fun _ => none, fun _ => none⟩

/-- The text that identifies the socket or tunnel behind a route. -/
def connectorBinding (route : ConnectorRoute) : String :=
  let optional : Option String → Json Nat := fun value => (value.map .str).getD .null
  Json.stringify (.arr ([.str route.id, optional route.tunnelOrigin, .str route.backendToken,
    .num route.generation] ++
    match route.reverseConnectionId with
    | some connectionId => [.str "reverse", .str connectionId]
    | none => []))

end Wenlan.Relay
