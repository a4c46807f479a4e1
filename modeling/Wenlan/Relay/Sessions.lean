import Wenlan.Relay.GrantSafety

/-!
# MCP sessions

`forwardSessionQuery` of `sessions.ts` over `forwardQuery` of `proxy.ts`.  A request
awaits the store, the authorization server and the backend many times, and other requests
run in between: each of its parts is a function of its own, and the requests that are
under way are part of the state.  A transaction that outlives its time-out is the same
step, only later.
-/

namespace Wenlan.Relay

open Support (Json)

def maxSessionMs : Nat := 24 * 60 * 60 * 1000

inductive Method where
  | post
  | get
  | delete
  | other
  deriving DecidableEq

/-- A verified token: the grant it was issued for, its scopes and its end. -/
structure QueryToken where
  grant : QueryGrant
  scopes : List String
  expiresAt : Nat

/-- What is read of a request: the `mcp-session-id` header, and whether the method in the
body is `initialize`; a body that cannot be read or parsed is `none`. -/
structure SessionRequest where
  method : Method
  sessionId : Option String
  initializes : Option Bool

/-- A response: its status and the session id it carries. -/
structure Answer where
  status : Nat
  sessionId : Option String := none

def validGrant (token : QueryToken) (now : Nat) : Bool :=
  token.grant.subject != "" && token.grant.connectorId != "" && !(jsTrim token.grant.space).isEmpty &&
    isSafeInteger token.grant.generation && decide (now < token.expiresAt) &&
    token.scopes.contains "wenlan:query"

inductive Denial where
  | offline
  | revoked

def routeDenial (route : Option ConnectorRoute) (grant : QueryGrant) (now : Nat) : Option Denial :=
  match route with
  | none => some .revoked
  | some route =>
    if !route.enabled || route.id != grant.connectorId || route.subject != grant.subject ||
        route.space != grant.space || route.generation != grant.generation then some .revoked
    else if now < route.expiresAt then none
    else some .offline

/-- `routeDenialResponse`; `active` is what `grantActive` answers. -/
def routeDenialAnswer (kind : Denial) (active : Bool) : Answer :=
  match kind with
  | .revoked => ⟨401, none⟩
  | .offline => if active then ⟨503, none⟩ else ⟨401, none⟩

/-- `/^[\x21-\x7e]{1,256}$/` -/
def backendIdPattern (value : String) : Bool :=
  decide (1 ≤ value.toList.length) && decide (value.toList.length ≤ 256) &&
    value.toList.all fun c => decide (0x21 ≤ c.toNat) && decide (c.toNat ≤ 0x7e)

structure SessionOwner where
  grantId : String
  clientId : String
  subject : String
  connectorId : String
  space : String
  generation : Nat

def SessionOwner.text (owner : SessionOwner) : String :=
  Json.stringify (.arr [.str owner.grantId, .str owner.clientId, .str owner.subject,
    .str owner.connectorId, .str owner.space, .num owner.generation])

def sessionOwner (identity : SessionIdentity) (grant : QueryGrant) : SessionOwner where
  grantId := identity.grantId
  clientId := identity.clientId
  subject := grant.subject
  connectorId := grant.connectorId
  space := grant.space
  generation := grant.generation

/-! ## One request -/

/-- How far a request has come.  `route` is the route that was loaded first, whose binding
is the request's; `target` is the one that `forwardQuery` loaded. -/
inductive Stage where
  | routing
  | looking (route : ConnectorRoute)
  | checking (route : ConnectorRoute) (session : Option SessionRecord)
  | authorizing (route : ConnectorRoute) (session : Option SessionRecord)
      (target : ConnectorRoute)
  | rechecking (route : ConnectorRoute) (session : SessionRecord) (target : ConnectorRoute)
  | dispatching (route : ConnectorRoute) (session : Option SessionRecord)
      (target : ConnectorRoute)
  | waiting (route : ConnectorRoute) (session : Option SessionRecord)
      (target : ConnectorRoute)
  | claiming (route : ConnectorRoute) (candidate : SessionRecord) (status : Nat)
  | closing (session : SessionRecord) (answer : Answer)

structure Query where
  request : SessionRequest
  identity : SessionIdentity
  token : QueryToken
  stage : Stage

namespace Query

def owner (query : Query) : SessionOwner := sessionOwner query.identity query.token.grant

/-- Only a POST has a body. -/
def initializing (query : Query) : Bool :=
  query.request.method == .post && query.request.initializes == some true

end Query

/-- A request is answered or goes on. -/
inductive Progress where
  | answered (answer : Answer)
  | running (query : Query)

/-- What the backend makes of a forwarded request: no response at all, which is an answer
of its own where the call allows one, or a response with a status and a session id. -/
inductive Upstream where
  | unreachable (answer : Answer)
  | status (status : Nat) (backendId : Option String)

section Request

-- `hashSecret` and `tunnelOrigin`; `tokenCurrent` is what the authorization server says
-- of the bearer token.
variable (hashSecret : String → String) (tunnelOrigin : String → Option String)

def beginQuery (request : SessionRequest) (identity : SessionIdentity) (token : QueryToken)
    (now : Nat) : Progress :=
  let query : Query := ⟨request, identity, token, .routing⟩
  if identity.grantId == "" || identity.clientId == "" || decide (token.expiresAt ≤ now) then
    .answered ⟨401, none⟩
  else if request.method == .post && request.initializes.isNone then .answered ⟨400, none⟩
  else if query.initializing && request.sessionId.isSome then .answered ⟨400, none⟩
  else if !query.initializing && request.sessionId.isNone then .answered ⟨400, none⟩
  else if request.sessionId.any fun id => !validSecret id then .answered ⟨404, none⟩
  else .running query

/-- `options.authorize` and `options.grantActive`. -/
def grantCurrent (store : Store) (query : Query) (tokenCurrent : Bool) (now : Nat) : Bool :=
  authorizationGrantActive hashSecret store query.identity query.token.grant now now now &&
    tokenCurrent

def loadRoute (store : Store) (query : Query) (tokenCurrent : Bool) (now : Nat) : Progress :=
  let route := store.routes query.token.grant.connectorId
  match routeDenial route query.token.grant now, route with
  | some kind, _ =>
    .answered (routeDenialAnswer kind (grantCurrent hashSecret store query tokenCurrent now))
  | none, none => .answered (routeDenialAnswer .revoked false)
  | none, some route =>
    .running { query with
      stage := if query.request.sessionId.isSome then .looking route else .checking route none }

def usableSession (query : Query) (route : ConnectorRoute) (session : SessionRecord)
    (now : Nat) : Bool :=
  session.active && session.owner == hashSecret query.owner.text &&
    session.route == hashSecret (connectorBinding route) && decide (now < session.expiresAt)

def lookupSession (store : Store) (query : Query) (route : ConnectorRoute) (now : Nat) : Progress :=
  match query.request.sessionId >>= store.sessions with
  | none => .answered ⟨404, none⟩
  | some session =>
    if usableSession hashSecret query route session now then
      .running { query with stage := .checking route (some session) }
    else .answered ⟨404, none⟩

/-- An answer of `forwardQuery` that is no success: a session that is not found is over. -/
def refuseQuery (query : Query) (session : Option SessionRecord) (answer : Answer) : Progress :=
  match session with
  | some session =>
    if answer.status = 404 then .running { query with stage := .closing session answer }
    else .answered answer
  | none => .answered answer

/-- The head of `forwardQuery`; `refusal` is its answer to the URL, the method and the
body of the request, if it refuses them. -/
def loadTarget (store : Store) (query : Query) (route : ConnectorRoute)
    (session : Option SessionRecord) (refusal : Option Answer) (tokenCurrent : Bool)
    (now : Nat) : Progress :=
  if !validGrant query.token now then .answered ⟨401, none⟩
  else
    match refusal with
    | some answer => refuseQuery query session answer
    | none =>
      let target := store.routes query.token.grant.connectorId
      match routeDenial target query.token.grant now, target with
      | some kind, _ =>
        .answered
          (routeDenialAnswer kind (grantCurrent hashSecret store query tokenCurrent now))
      | none, none => .answered (routeDenialAnswer .revoked false)
      | none, some target =>
        .running { query with stage := .authorizing route session target }

/-- `authorizeDenialResponse` -/
def authorizeDenialAnswer (active : Bool) : Answer := if active then ⟨403, none⟩ else ⟨401, none⟩

/-- The callback `authorize` up to its read of the session. -/
def authorizeTarget (store : Store) (query : Query) (route : ConnectorRoute)
    (session : Option SessionRecord) (target : ConnectorRoute) (tokenCurrent : Bool)
    (now : Nat) : Progress :=
  let active := grantCurrent hashSecret store query tokenCurrent now
  if hashSecret (connectorBinding target) != hashSecret (connectorBinding route) || !active then
    .answered (authorizeDenialAnswer active)
  else
    match session with
    | some session => .running { query with stage := .rechecking route session target }
    | none =>
      if query.initializing then .running { query with stage := .dispatching route none target }
      else .answered (authorizeDenialAnswer active)

def sessionCurrent (store : Store) (query : Query) (route : ConnectorRoute)
    (session : SessionRecord) (now : Nat) : Bool :=
  (store.sessions session.id).any fun current =>
    usableSession hashSecret query route current now && current.backendId == session.backendId

def recheckSession (store : Store) (query : Query) (route : ConnectorRoute)
    (session : SessionRecord) (target : ConnectorRoute) (tokenCurrent : Bool) (now : Nat) :
    Progress :=
  if sessionCurrent hashSecret store query route session now then
    .running { query with stage := .dispatching route (some session) target }
  else .answered (authorizeDenialAnswer (grantCurrent hashSecret store query tokenCurrent now))

/-- The checks between the authorization and the request to the backend. -/
def dispatchQuery (store : Store) (query : Query) (route : ConnectorRoute)
    (session : Option SessionRecord) (target : ConnectorRoute) (tokenCurrent : Bool)
    (now : Nat) : Progress :=
  if !validGrant query.token now then .answered ⟨401, none⟩
  else
    match routeDenial (some target) query.token.grant now with
    | some kind =>
      .answered (routeDenialAnswer kind (grantCurrent hashSecret store query tokenCurrent now))
    | none =>
      if !validTransport tunnelOrigin target || !validSecret target.backendToken then
        .answered ⟨503, none⟩
      else .running { query with stage := .waiting route session target }

/-- `lease.check`: everything that was checked before still holds of the route as it is
now.  It only ever refuses. -/
def leaseCheck (store : Store) (query : Query) (route : ConnectorRoute)
    (session : Option SessionRecord) (target : ConnectorRoute) (tokenCurrent : Bool)
    (now : Nat) : Bool :=
  (store.routes query.token.grant.connectorId).any fun current =>
    validGrant query.token now && routeAllows (some current) query.token.grant now &&
      current.tunnelOrigin == target.tunnelOrigin &&
      current.backendToken == target.backendToken &&
      current.reverseConnectionId == target.reverseConnectionId &&
      hashSecret (connectorBinding current) == hashSecret (connectorBinding route) &&
      grantCurrent hashSecret store query tokenCurrent now &&
      session.all fun session => sessionCurrent hashSecret store query route session now

/-- The session that a successful `initialize` asks for, under an id drawn by
`randomSecret`. -/
def candidateSession (query : Query) (route : ConnectorRoute) (backendId id : String)
    (now : Nat) : SessionRecord where
  id := id
  owner := hashSecret query.owner.text
  route := hashSecret (connectorBinding route)
  backendId := backendId
  expiresAt := now + maxSessionMs
  active := true

def receiveResponse (store : Store) (query : Query) (route : ConnectorRoute)
    (session : Option SessionRecord) (target : ConnectorRoute) (upstream : Upstream)
    (id : String) (tokenCurrent : Bool) (now : Nat) : Progress :=
  match upstream with
  | .unreachable answer => .answered answer
  | .status status backendId =>
    if status < 200 ∨ 299 < status then
      refuseQuery query session
        ⟨if [400, 404, 405].contains status then status else 502, none⟩
    else if !leaseCheck hashSecret store query route session target tokenCurrent now then
      .answered ⟨502, none⟩
    else
      match session with
      | none =>
        match backendId with
        | none => .answered ⟨502, none⟩
        | some backendId =>
          if backendIdPattern backendId then
            .running { query with
              stage := .claiming route
                (candidateSession hashSecret query route backendId id now) status }
          else .answered ⟨502, none⟩
      | some session =>
        if backendId.any fun backendId => backendId != session.backendId then
          .answered ⟨502, none⟩
        else if query.request.method == .delete then
          .running { query with stage := .closing session ⟨status, none⟩ }
        else .answered ⟨status, none⟩

/-- A backend session has one session at a time; an id is used once. -/
def claimSession (store : Store) (candidate : SessionRecord) (now : Nat) : Store × Bool :=
  let reverseKey := sessionOwnerKey hashSecret candidate
  let prior := store.sessionOwners reverseKey >>= store.sessions
  if prior.any fun prior => prior.active && decide (now < prior.expiresAt) then (store, false)
  else if (store.sessions candidate.id).isSome then (store, false)
  else
    ({ store with
        sessions := store.sessions.put candidate.id candidate
        sessionOwners := store.sessionOwners.put reverseKey candidate.id }, true)

/-- `deactivate`, by the owner of the session. -/
def deactivateSession (store : Store) (query : Query) (session : SessionRecord) : Store :=
  match store.sessions session.id with
  | none => store
  | some current =>
    if current.owner = hashSecret query.owner.text then
      { store with
        sessions := store.sessions.put current.id { current with active := false } }
    else store

end Request

/-! ## Requests side by side -/

/-- Under which owner and which route a session was created. -/
structure Creation where
  owner : SessionOwner
  binding : String
  backendId : String

/-- A request that went to the backend: the session id of the client, the session id that
the backend saw, and the owner and route it was forwarded for. -/
structure Forward where
  sessionId : Option String
  backendId : Option String
  owner : SessionOwner
  route : ConnectorRoute

/-- `drawn`, `created`, `digested` and `forwarded` are history: the session ids that were
drawn, how each session was created, the texts that were digested for an owner or a route,
and the requests that went to a backend. -/
structure Proxy where
  authority : Authority
  queries : Nat → Option Progress
  drawn : List String
  created : Table String Creation
  digested : List String
  forwarded : List Forward

def Proxy.initial : Proxy := ⟨.initial, fun _ => none, [], fun _ => none, [], []⟩

/-- A step of the authority's own operations, or of one request. -/
inductive ProxyOp where
  | authority (op : AuthorityOp)
  | begin_ (n : Nat) (request : SessionRequest) (identity : SessionIdentity)
      (token : QueryToken)
  | load (n : Nat) (tokenCurrent : Bool)
  | lookup (n : Nat)
  | target (n : Nat) (refusal : Option Answer) (tokenCurrent : Bool)
  | authorize (n : Nat) (tokenCurrent : Bool)
  | recheck (n : Nat) (tokenCurrent : Bool)
  | dispatch (n : Nat) (tokenCurrent : Bool)
  | receive (n : Nat) (upstream : Upstream) (id : String) (tokenCurrent : Bool)
  | claim (n : Nat)
  | close (n : Nat)
  /-- A time-out, or an error of the store. -/
  | abandon (n : Nat) (answer : Answer)

section System

variable (hashSecret : String → String) (tunnelOrigin : String → Option String)

namespace Proxy

def store (p : Proxy) : Store := p.authority.store

def now (p : Proxy) : Nat := p.authority.clock

/-- The request that is under way as number `n`. -/
def running (p : Proxy) (n : Nat) : Option Query :=
  match p.queries n with
  | some (.running query) => some query
  | some (.answered _) | none => none

def setQuery (p : Proxy) (n : Nat) (progress : Progress) : Proxy :=
  { p with queries := Function.update p.queries n (some progress) }

def setStore (p : Proxy) (store : Store) : Proxy :=
  { p with authority := { p.authority with store } }

def digest (p : Proxy) (text : String) : Proxy := { p with digested := text :: p.digested }

def forward (p : Proxy) (query : Query) (session : Option SessionRecord)
    (target : ConnectorRoute) : Proxy :=
  { p with
    forwarded :=
      ⟨query.request.sessionId, session.map (·.backendId), query.owner, target⟩ ::
        p.forwarded }

def create (p : Proxy) (query : Query) (route : ConnectorRoute) (candidate : SessionRecord) :
    Proxy :=
  { p with
    created := p.created.put candidate.id
      ⟨query.owner, connectorBinding route, candidate.backendId⟩ }

/-- One part of the request with number `n`. -/
def stepQuery (p : Proxy) (n : Nat) (query : Query) : ProxyOp → Option Proxy
  | .load _ tokenCurrent =>
    match query.stage with
    | .routing =>
      some ((((p.store.routes query.token.grant.connectorId).map connectorBinding).elim p
        p.digest).setQuery n (loadRoute hashSecret p.store query tokenCurrent p.now))
    | _ => none
  | .lookup _ =>
    match query.stage with
    | .looking route =>
      some (p.setQuery n (lookupSession hashSecret p.store query route p.now))
    | _ => none
  | .target _ refusal tokenCurrent =>
    match query.stage with
    | .checking route session =>
      some (p.setQuery n
        (loadTarget hashSecret p.store query route session refusal tokenCurrent p.now))
    | _ => none
  | .authorize _ tokenCurrent =>
    match query.stage with
    | .authorizing route session target =>
      some ((p.digest (connectorBinding target)).setQuery n
        (authorizeTarget hashSecret p.store query route session target tokenCurrent p.now))
    | _ => none
  | .recheck _ tokenCurrent =>
    match query.stage with
    | .rechecking route session target =>
      some (p.setQuery n
        (recheckSession hashSecret p.store query route session target tokenCurrent p.now))
    | _ => none
  | .dispatch _ tokenCurrent =>
    match query.stage with
    | .dispatching route session target =>
      let progress :=
        dispatchQuery hashSecret tunnelOrigin p.store query route session target
          tokenCurrent p.now
      match progress with
      | .running _ => some ((p.forward query session target).setQuery n progress)
      | .answered _ => some (p.setQuery n progress)
    | _ => none
  | .receive _ upstream id tokenCurrent =>
    match query.stage with
    | .waiting route session target =>
      -- 256 random bits: no id is drawn twice.
      if id ∈ p.drawn then none
      else
        some ({ p with drawn := id :: p.drawn }.setQuery n
          (receiveResponse hashSecret p.store query route session target upstream id
            tokenCurrent p.now))
    | _ => none
  | .claim _ =>
    match query.stage with
    | .claiming route candidate status =>
      match claimSession hashSecret p.store candidate p.now with
      | (store, true) =>
        some (((p.setStore store).create query route candidate).setQuery n
          (.answered ⟨status, some candidate.id⟩))
      | (store, false) => some ((p.setStore store).setQuery n (.answered ⟨502, none⟩))
    | _ => none
  | .close _ =>
    match query.stage with
    | .closing session answer =>
      some ((p.setStore (deactivateSession hashSecret p.store query session)).setQuery n
        (.answered answer))
    | _ => none
  | .abandon _ answer => some (p.setQuery n (.answered answer))
  | .authority _ | .begin_ .. => none

end Proxy

def ProxyOp.query : ProxyOp → Option Nat
  | .authority _ => none
  | .begin_ n .. | .load n _ | .lookup n | .target n .. | .authorize n _ | .recheck n _
  | .dispatch n _ | .receive n .. | .claim n | .close n | .abandon n _ => some n

/-- The authority takes a step of its own, a request comes in, or one goes on. -/
def Proxy.step (p : Proxy) : ProxyOp → Option Proxy
  | .authority op =>
    some { p with authority := authorityStep hashSecret tunnelOrigin p.authority op }
  | .begin_ n request identity token =>
    if (p.queries n).isSome then none
    else
      some ((p.digest (sessionOwner identity token.grant).text).setQuery n
        (beginQuery request identity token p.now))
  | op => do
    let n ← op.query
    let query ← p.running n
    p.stepQuery hashSecret tunnelOrigin n query op

variable (props : String × String → GrantProps)

/-- The promises of the authority's callers hold here too. -/
def ProxyPromised (p : Proxy) : ProxyOp → Prop
  | .authority op => Promised props p.authority op
  | _ => True

def ProxyStep (p : Proxy) (op : ProxyOp) (q : Proxy) : Prop :=
  ProxyPromised props p op ∧ p.step hashSecret tunnelOrigin op = some q

end System

end Wenlan.Relay
