import Wenlan.Relay.SessionOwnership

/-!
# Requests and the sweep

What the relay asks of its records before it serves a request: a query on its way to a backend, a
response under way, a token exchange, and the operations of a device.  A maintenance sweep restates
these conditions on its own; the records that a request was authorized by are ones it spares.
-/

namespace Wenlan.Relay

open Table

inductive GrantType where
  | authorizationCode
  | refreshToken

inductive Request where
  /-- A query: what came in, and what the authorization server says of its token. -/
  | query (request : SessionRequest) (identity : SessionIdentity) (token : QueryToken)
      (tokenCurrent : Bool)
  /-- The response to a forwarded query, at each of its chunks. -/
  | delivery (query : Query) (route : ConnectorRoute) (session : Option SessionRecord)
      (target : ConnectorRoute) (tokenCurrent : Bool)
  /-- `tokenExchangeCallback` -/
  | exchange (grantType : GrantType) (requestedScope : List String) (identity : SessionIdentity)
      (grant : QueryGrant) (authorizationId : String)
  /-- `authenticatedDeviceTransaction`: refresh, rotation, pairings and the grants of a device. -/
  | manage (id managementToken : String)
  /-- `revokeDevice` -/
  | revoke (id managementToken : String)
  /-- `authenticateReverseDevice`, and both ends of an activation. -/
  | activate (id managementToken : String)
  /-- `reverseConnectionCurrent` -/
  | channel (id connectionId : String) (generation : Nat)

section Authorization

variable (hashSecret : String → String) (tunnelOrigin : String → Option String)

def nextStage (store : Store) (tokenCurrent : Bool) (now : Nat) (query : Query) : Progress :=
  match query.stage with
  | .routing => loadRoute hashSecret store query tokenCurrent now
  | .looking route => lookupSession hashSecret store query route now
  | .checking route session =>
    loadTarget hashSecret store query route session none tokenCurrent now
  | .authorizing route session target =>
    authorizeTarget hashSecret store query route session target tokenCurrent now
  | .rechecking route session target =>
    recheckSession hashSecret store query route session target tokenCurrent now
  | .dispatching route session target =>
    dispatchQuery hashSecret tunnelOrigin store query route session target tokenCurrent now
  | .waiting .. | .claiming .. | .closing .. => .running query

def advance (store : Store) (tokenCurrent : Bool) (now : Nat) : Nat → Query → Progress
  | 0, query => .running query
  | parts + 1, query =>
    match nextStage hashSecret tunnelOrigin store tokenCurrent now query with
    | .answered answer => .answered answer
    | .running query => advance store tokenCurrent now parts query

/-- The query was sent to the backend. -/
def Progress.waits : Progress → Bool
  | .running query =>
    match query.stage with
    | .waiting .. => true
    | _ => false
  | .answered _ => false

/-- There are six parts between the head of a query and its backend. -/
def forwards (store : Store) (request : SessionRequest) (identity : SessionIdentity)
    (token : QueryToken) (tokenCurrent : Bool) (now : Nat) : Bool :=
  match beginQuery request identity token now with
  | .answered _ => false
  | .running query => (advance hashSecret tunnelOrigin store tokenCurrent now 6 query).waits

def routeMatches (route : Option ConnectorRoute) (grant : QueryGrant) : Bool :=
  route.any fun route =>
    route.enabled && route.id == grant.connectorId && route.subject == grant.subject &&
      route.space == grant.space && route.generation == grant.generation

/-- `tokenExchangeCallback`; the provider refuses idle times under 60 seconds. -/
def exchangeAllowed (store : Store) (grantType : GrantType) (requestedScope : List String)
    (identity : SessionIdentity) (grant : QueryGrant) (authorizationId : String) (now : Nat) :
    Bool :=
  requestedScope == ["wenlan:query"] && validSecret grant.connectorId &&
    isSafeInteger grant.generation && validSecret authorizationId &&
    routeMatches (store.routes grant.connectorId) grant &&
    match grantType with
    | .authorizationCode =>
      (claimAuthorizationGrant hashSecret store identity grant authorizationId now now).2
    | .refreshToken =>
      (authorizationGrantEnd hashSecret store identity grant now now now).any fun last =>
        decide (60 ≤ (last - now) / 1000)

def authorized (store : Store) (now : Nat) : Request → Bool
  | .query request identity token tokenCurrent =>
    forwards hashSecret tunnelOrigin store request identity token tokenCurrent now
  | .delivery query route session target tokenCurrent =>
    leaseCheck hashSecret store query route session target tokenCurrent now
  | .exchange grantType requestedScope identity grant authorizationId =>
    exchangeAllowed hashSecret store grantType requestedScope identity grant authorizationId now
  | .manage id managementToken =>
    (authenticatedDevice hashSecret store id managementToken now).isSome
  | .revoke id managementToken => (revokeDevice hashSecret store id managementToken).2
  | .activate id managementToken =>
    (beginReverseActivation hashSecret tunnelOrigin store id managementToken now).isSome
  | .channel id connectionId generation =>
    reverseConnectionCurrent store id connectionId generation now

end Authorization

/-! ## What a sweep spares -/

def routeHeld (store : Store) (id : String) (now : Nat) : Bool :=
  liveDevice (store.devices id) now && (store.routes id).any fun route =>
    route.enabled && route.id == id &&
      (store.devices id).any fun device => route.subject == device.subject

section Spares

variable (hashSecret : String → String)

def receiptHeld (store : Store) (receipt : GrantReceipt) (now : Nat) : Bool :=
  receipt.active && receiptConsentCurrent hashSecret store receipt now &&
    receiptDeviceCurrent store receipt now && !expired receipt.expiresAt now &&
    routeHeld store receipt.connectorId now

/-- `current` has what requests were authorized by in `old`, and no record that `old` had not. -/
structure Spares (old : Store) (now : Nat) (current : Store) : Prop where
  devices : ∀ id device, old.devices id = some device →
    (liveDevice (some device) now || pendingReverseDevice (some device) now) = true →
    current.devices id = some device
  device : ∀ id, current.devices id = old.devices id ∨
    current.devices id = none ∧ current.routes id = none
  routes : ∀ id, routeHeld old id now = true → current.routes id = old.routes id
  route : ∀ id, current.routes id = old.routes id ∨ current.routes id = none
  clients : Pruned ClientAuthorization.expiresAt now old.clients current.clients
  grants : ∀ key receipt, old.grants key = some receipt →
    receiptHeld hashSecret old receipt now = true → current.grants key = some receipt
  noGrant : ∀ key, old.grants key = none → current.grants key = none
  sessions : ∀ id session, old.sessions id = some session → session.active = true →
    now < session.expiresAt → current.sessions id = some session

/-- What the sweep of one receipt can do: nothing, deny it, delete one that was denied before, or
hand out its cleanup. -/
inductive ReceiptSweep (store : Store) (job : Option CleanupJob) (key : String × String)
    (listed : GrantReceipt) (now : Nat) (lease : String) : Store × Option CleanupJob → Prop
  | kept : ReceiptSweep store job key listed now lease (store, job)
  | denied : ReceiptSweep store job key listed now lease
      ({ store with grants := store.grants.put key (deactivatedReceipt listed) }, job)
  | deleted : ReceiptSweep store job key listed now lease
      ({ store with grants := store.grants.delete key }, job)
  | leased (receipt : GrantReceipt) (hreceipt : receipt = listed ∨ receipt = deactivatedReceipt listed)
      (hactive : receipt.active = false) (hjob : job = none) :
      ReceiptSweep store job key listed now lease
        ({ store with
            grants := store.grants.put key
              { receipt with
                cleanupPending := some true
                cleanupLease := some lease
                cleanupAfter := some (now + 60000) } },
          some ⟨key, receipt.id, receipt.subject, lease⟩)

variable {old current : Store} {now : Nat}

theorem sweepGrant_cases (store : Store) (job : Option CleanupJob) (key : String × String)
    (listed : GrantReceipt) (now : Nat) (lease : String) :
    ReceiptSweep store job key listed now lease
      (sweepGrant hashSecret store job key listed now lease) := by
  unfold sweepGrant
  simp only []
  generalize hdeny : (listed.active && (!receiptConsentCurrent hashSecret store listed now ||
    !receiptDeviceCurrent store listed now || expired listed.expiresAt now)) = deactivate
  cases deactivate with
  | true =>
    simp only [if_true]
    split
    · next hdelete => simp [deactivatedReceipt] at hdelete
    · split
      · next hjob =>
          simp only [Bool.and_eq_true, Option.isNone_iff_eq_none] at hjob
          have hput : ∀ receipt : GrantReceipt,
              (store.grants.put key (deactivatedReceipt listed)).put key receipt =
                store.grants.put key receipt := by
            intro receipt
            funext other
            by_cases hother : other = key
            · rw [hother, put_same, put_same]
            · rw [put_other _ _ hother, put_other _ _ hother,
                put_other _ _ hother]
          rw [hput]
          exact .leased _ (.inr rfl) rfl hjob.1.2
      · exact .denied
  | false =>
    simp only [Bool.false_eq_true, if_false]
    split
    · exact .deleted
    · split
      · next hjob =>
          simp only [Bool.and_eq_true, Bool.not_eq_true', Option.isNone_iff_eq_none] at hjob
          exact .leased listed (.inl rfl) hjob.1.1.1 hjob.1.2
      · exact .kept

theorem sweepGrant_of_held {store : Store} {listed : GrantReceipt}
    (h : receiptHeld hashSecret store listed now) (job : Option CleanupJob)
    (key : String × String) (lease : String) :
    sweepGrant hashSecret store job key listed now lease = (store, job) := by
  simp only [receiptHeld, Bool.and_eq_true, Bool.not_eq_true'] at h
  obtain ⟨⟨⟨⟨hactive, hcons⟩, hdev⟩, hunexp⟩, -⟩ := h
  unfold sweepGrant
  simp [hactive, hcons, hdev, hunexp]

theorem Spares.refl (old : Store) (now : Nat) : Spares hashSecret old now old where
  devices _ _ hdev _ := hdev
  device _ := .inl rfl
  routes _ _ := rfl
  route _ := .inl rfl
  clients := .refl _ _ _
  grants _ _ hreceipt _ := hreceipt
  noGrant _ hnone := hnone
  sessions _ _ hses _ _ := hses

variable {hashSecret}

namespace Spares

section

variable (h : Spares hashSecret old now current)
include h

theorem liveDevice {id : String}
    (hlive : liveDevice (old.devices id) now) : current.devices id = old.devices id := by
  cases hdev : old.devices id with
  | none => rw [hdev] at hlive; cases hlive
  | some device =>
    rw [hdev] at hlive
    exact h.devices id device hdev (by rw [hlive, Bool.true_or])

theorem routeHeld {id : String}
    (hheld : routeHeld old id now) : Relay.routeHeld current id now := by
  have hlive := hheld
  simp only [Relay.routeHeld, Bool.and_eq_true] at hlive
  simp only [Relay.routeHeld, h.routes id hheld, h.liveDevice hlive.1]
  simpa only [Relay.routeHeld] using hheld

theorem receiptHeld {receipt : GrantReceipt}
    (hheld : receiptHeld hashSecret old receipt now) :
    Relay.receiptHeld hashSecret current receipt now := by
  simp only [Relay.receiptHeld, Bool.and_eq_true] at hheld ⊢
  obtain ⟨⟨⟨⟨hactive, hcons⟩, hdev⟩, hunexp⟩, hroute⟩ := hheld
  refine ⟨⟨⟨⟨hactive, ?_⟩, ?_⟩, hunexp⟩, h.routeHeld hroute⟩
  · rw [consent_of_pruned h.clients, hcons]
  · have hlive := hroute
    simp only [Relay.routeHeld, Bool.and_eq_true] at hlive
    unfold receiptDeviceCurrent at hdev ⊢
    rw [h.liveDevice hlive.1, h.routes _ hroute]
    exact hdev

theorem setGrants {key : String × String} {grants : Table (String × String) GrantReceipt}
    (hother : ∀ other, other ≠ key → grants other = current.grants other)
    (hheld : ∀ receipt, old.grants key = some receipt →
      Relay.receiptHeld hashSecret old receipt now → grants key = some receipt)
    (hnone : old.grants key = none → grants key = none) :
    Spares hashSecret old now { current with grants } where
  devices := h.devices
  device := h.device
  routes := h.routes
  route := h.route
  clients := h.clients
  grants other receipt hreceipt hlive := by
    by_cases hsame : other = key
    · subst hsame
      exact hheld receipt hreceipt hlive
    · exact (hother other hsame).trans (h.grants other receipt hreceipt hlive)
  noGrant other habsent := by
    by_cases hsame : other = key
    · subst hsame
      exact hnone habsent
    · exact (hother other hsame).trans (h.noGrant other habsent)
  sessions := h.sessions

theorem sweepGrant {key : String × String}
    {listed : GrantReceipt} (hlist : old.grants key = some listed) (job : Option CleanupJob)
    (lease : String) : Spares hashSecret old now
      (Relay.sweepGrant hashSecret current job key listed now lease).1 := by
  by_cases hheld : Relay.receiptHeld hashSecret old listed now
  · rw [sweepGrant_of_held hashSecret (h.receiptHeld hheld)]
    exact h
  · have hgone : ∀ grants : Table (String × String) GrantReceipt,
        (∀ other, other ≠ key → grants other = current.grants other) →
        Spares hashSecret old now { current with grants } := by
      intro grants hother
      apply h.setGrants hother
      · intro receipt hreceipt hlive
        obtain rfl := Option.mem_unique hlist hreceipt
        exact absurd hlive hheld
      · intro hnone
        rw [hlist] at hnone
        cases hnone
    have hcases := sweepGrant_cases hashSecret current job key listed now lease
    generalize Relay.sweepGrant hashSecret current job key listed now lease = result at hcases
    cases hcases with
    | kept => exact h
    | denied => exact hgone _ fun other hother => put_other _ _ hother
    | deleted => exact hgone _ fun other hother => delete_other _ hother
    | leased => exact hgone _ fun other hother => put_other _ _ hother

theorem deleted_route (id other : String) :
    current.routes.delete id other = old.routes other ∨ current.routes.delete id other = none := by
  by_cases hsame : other = id
  · subst hsame
    exact .inr (delete_same ..)
  · have hroute := delete_other current.routes hsame
    exact (h.route other).imp hroute.trans hroute.trans

theorem deleteDevice {id : String} {device : DeviceRecord}
    (hdev : old.devices id = some device) (hlive : Relay.liveDevice (some device) now = false)
    (hpend : pendingReverseDevice (some device) now = false) : Spares hashSecret old now
      { current with devices := current.devices.delete id, routes := current.routes.delete id } where
  devices other found hfound hkept := by
    by_cases hsame : other = id
    · subst hsame
      obtain rfl := Option.mem_unique hdev hfound
      rw [hlive, hpend] at hkept
      cases hkept
    · exact (delete_other _ hsame).trans (h.devices other found hfound hkept)
  device other := by
    by_cases hsame : other = id
    · subst hsame
      exact .inr ⟨delete_same .., delete_same ..⟩
    · have hdev := delete_other current.devices hsame
      have hroute := delete_other current.routes hsame
      rcases h.device other with hkept | ⟨hnone, hnoR⟩
      · exact .inl (hdev.trans hkept)
      · exact .inr ⟨hdev.trans hnone, hroute.trans hnoR⟩
  routes other hheld := by
    by_cases hsame : other = id
    · subst hsame
      rw [Relay.routeHeld, hdev, hlive] at hheld
      cases hheld
    · exact (delete_other _ hsame).trans (h.routes other hheld)
  route := deleted_route h id
  clients := h.clients
  grants := h.grants
  noGrant := h.noGrant
  sessions := h.sessions

theorem deleteRoute {id : String} (hheld : Relay.routeHeld old id now = false) :
    Spares hashSecret old now { current with routes := current.routes.delete id } where
  devices := h.devices
  device other := by
    rcases h.device other with hsame | ⟨hnone, hroute⟩
    · exact .inl hsame
    · refine .inr ⟨hnone, ?_⟩
      by_cases hid : other = id
      · subst hid
        exact delete_same ..
      · exact (delete_other _ hid).trans (hroute)
  routes other hother := by
    by_cases hid : other = id
    · subst hid
      rw [hheld] at hother
      cases hother
    · exact (delete_other _ hid).trans (h.routes other hother)
  route := deleted_route h id
  clients := h.clients
  grants := h.grants
  noGrant := h.noGrant
  sessions := h.sessions

theorem deleteSession {id : String}
    {session : SessionRecord} (hses : old.sessions id = some session)
    (hover : session.active = false ∨ session.expiresAt ≤ now)
    (sessionOwners : Table String String) : Spares hashSecret old now
      { current with sessionOwners, sessions := current.sessions.delete id } where
  devices := h.devices
  device := h.device
  routes := h.routes
  route := h.route
  clients := h.clients
  grants := h.grants
  noGrant := h.noGrant
  sessions other found hfound hactive hunexp := by
    by_cases hid : other = id
    · subst hid
      obtain rfl := Option.mem_unique hses hfound
      rcases hover with hinact | hexpired
      · rw [hinact] at hactive
        cases hactive
      · exact absurd hexpired (Nat.not_le.mpr hunexp)
    · exact (delete_other _ hid).trans (h.sessions other found hfound hactive hunexp)

end

end Spares

theorem sweepEntry_spares (lease : String) (acc : Store × Option CleanupJob) (key : StoreKey)
    (h : Spares hashSecret old now acc.1) :
    Spares hashSecret old now (sweepEntry hashSecret old now lease acc key).1 := by
  unfold sweepEntry
  cases key with
  | pairing | pairingCode | lookupMiss | authorizationPairing | oauthRequest =>
    exact ⟨h.devices, h.device, h.routes, h.route, h.clients, h.grants, h.noGrant, h.sessions⟩
  | client subject digest =>
    exact ⟨h.devices, h.device, h.routes, h.route, h.clients.sweep (subject, digest), h.grants,
      h.noGrant, h.sessions⟩
  | device id =>
    simp only []
    split
    · exact h
    · next device hdev =>
        split
        · next hover =>
            simp only [Bool.and_eq_true, Bool.not_eq_true'] at hover
            exact h.deleteDevice hdev hover.1 hover.2
        · exact h
  | connector id =>
    simp only []
    split
    · exact h
    · next route hroute =>
        split
        · next hover =>
            apply h.deleteRoute
            -- The loop reads the device again, which a held route still has.
            apply Bool.eq_false_iff.mpr
            intro hheld
            have hlive := hheld
            simp only [routeHeld, hroute, Bool.and_eq_true] at hlive
            rw [h.liveDevice hlive.1] at hover
            simp_all [routeHeld]
        · exact h
  | sessionOwner digest =>
    simp only []
    split
    · exact h
    · split
      · exact ⟨h.devices, h.device, h.routes, h.route, h.clients, h.grants, h.noGrant, h.sessions⟩
      · exact h
  | session id =>
    simp only []
    split
    · exact h
    · next session hses =>
        split
        · next hover =>
            apply h.deleteSession hses
            simpa [expired] using hover
        · exact h
  | grant subject id =>
    simp only []
    split
    · exact h
    · next listed hlist => exact h.sweepGrant hlist acc.2 lease

variable (hashSecret) in
/-- A whole pass spares what requests are authorized by. -/
theorem sweepPage_spares (old : Store) (page : List StoreKey) (now : Nat) (lease : String) :
    Spares hashSecret old now (sweepPage hashSecret old page now lease).1 := by
  suffices hfold : ∀ acc : Store × Option CleanupJob, Spares hashSecret old now acc.1 →
      Spares hashSecret old now (page.foldl (sweepEntry hashSecret old now lease) acc).1 from
    hfold _ (.refl hashSecret old now)
  induction page with
  | nil => exact fun acc h => h
  | cons key page ih => exact fun acc h => ih _ (sweepEntry_spares lease acc key h)

/-- Recording a cleanup writes a receipt that was denied before. -/
theorem recordCleanup_spares (old : Store) (now : Nat) (job : CleanupJob)
    (outcome : CleanupOutcome) (later : Nat) :
    Spares hashSecret old now (recordCleanup old job outcome later) := by
  have hrefl := Spares.refl hashSecret old now
  unfold recordCleanup
  split
  · exact hrefl
  · next receipt hreceipt =>
      split
      · exact hrefl
      · next hdenied =>
          apply hrefl.setGrants fun other hother => put_other _ _ hother
          · intro found hfound hheld
            obtain rfl := Option.mem_unique hreceipt hfound
            simp only [Bool.or_eq_true, not_or] at hdenied
            simp only [receiptHeld, Bool.and_eq_true] at hheld
            exact absurd hheld.1.1.1.1 hdenied.1.1
          · intro hnone
            rw [hreceipt] at hnone
            cases hnone

end Spares

end Wenlan.Relay
