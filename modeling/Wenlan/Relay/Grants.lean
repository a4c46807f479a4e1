import Wenlan.Relay.Devices

/-!
# Consent and grant receipts

The transactions of `grants.ts`.  A client's current consent is one record per
subject and client; a grant receipt is one record per subject and grant id, and
names the consent it was claimed under.
-/

namespace Wenlan.Relay

open Support (Json)

def maxGrantMs : Nat := 90 * 24 * 60 * 60 * 1000

/-- `lastUsedAt` is written at most once per window per grant. -/
def lastUsedWriteMs : Nat := 15 * 60 * 1000

structure SessionIdentity where
  grantId : String
  clientId : String

/-- One of `[A-Za-z0-9_-]`, 16 to 128 times. -/
def validGrantId (value : String) : Bool :=
  decide (16 ≤ value.toList.length) && decide (value.toList.length ≤ 128) &&
    value.toList.all isSecretChar

section Transactions

-- `hashSecret`; the key of a client record and the owner of a receipt use it.
variable (hashSecret : String → String)

def clientKey (subject clientId : String) : String × String :=
  (subject, hashSecret clientId)

def ownerText (clientId connectorId space : String) (generation : Nat) : String :=
  Json.stringify (.arr [.str clientId, .str connectorId, .str space, .num generation])

def grantOwner (identity : SessionIdentity) (grant : QueryGrant) : String :=
  hashSecret (ownerText identity.clientId grant.connectorId grant.space grant.generation)

def grantKey (identity : SessionIdentity) (grant : QueryGrant) : String × String :=
  (grant.subject, identity.grantId)

def replaceClientAuthorization (store : Store) (subject clientId authorizationId : String)
    (client : Option ClientDisplay) (now : Nat) : Store :=
  { store with
    clients := store.clients.put (clientKey hashSecret subject clientId)
      ⟨authorizationId, now + maxGrantMs, client⟩ }

/-- The end of this client's current consent, or none once it was replaced or expired. -/
def consentEnd (store : Store) (subject clientId authorizationId : String) (now : Nat) :
    Option Nat :=
  match store.clients (clientKey hashSecret subject clientId) with
  | none => none
  | some current =>
    if current.authorizationId = authorizationId ∧ now < current.expiresAt then
      some current.expiresAt
    else none

def currentAuthorization (store : Store) (subject clientId authorizationId : String)
    (now : Nat) : Bool :=
  (consentEnd hashSecret store subject clientId authorizationId now).isSome

def claimedReceipt (identity : SessionIdentity) (grant : QueryGrant)
    (authorizationId : String) (consent : Option ClientAuthorization) (now : Nat) :
    GrantReceipt where
  id := identity.grantId
  clientId := identity.clientId
  subject := grant.subject
  connectorId := grant.connectorId
  space := grant.space
  generation := grant.generation
  owner := grantOwner hashSecret identity grant
  active := true
  createdAt := now
  expiresAt := now + maxGrantMs
  authorizationId := authorizationId
  clientName := (consent.bind ClientAuthorization.display).bind ClientDisplay.clientName
  redirectHost := ((consent.bind ClientAuthorization.display).map
    ClientDisplay.redirectHost).filter (· ≠ "")
  knownClient := ((consent.bind ClientAuthorization.display).map
    ClientDisplay.knownClient).getD false

def claimAuthorizationGrant (store : Store) (identity : SessionIdentity) (grant : QueryGrant)
    (authorizationId : String) (now later : Nat) : Store × Bool :=
  if !currentAuthorization hashSecret store grant.subject identity.clientId authorizationId now
  then (store, false)
  else
    match store.grants (grantKey identity grant) with
    | some existing =>
      ({ store with
          grants := store.grants.put (grantKey identity grant)
            { existing with active := false } }, false)
    | none =>
      let consent := store.clients (clientKey hashSecret grant.subject identity.clientId)
      ({ store with
          grants := store.grants.put (grantKey identity grant)
            (claimedReceipt hashSecret identity grant authorizationId consent later) }, true)

def touchGrant (store : Store) (identity : SessionIdentity) (grant : QueryGrant) (now : Nat) :
    Store × Bool :=
  match store.grants (grantKey identity grant) with
  | none => (store, false)
  | some receipt =>
    if !receipt.active || receipt.owner != grantOwner hashSecret identity grant then
      (store, false)
    else if receipt.lastUsedAt.any fun used => now < used + lastUsedWriteMs then (store, false)
    else
      ({ store with
          grants := store.grants.put (grantKey identity grant)
            { receipt with lastUsedAt := some now } }, true)

/-- `authenticatedDeviceTransaction`: what a management credential controls. -/
def authenticatedDevice (store : Store) (id managementToken : String) (now : Nat) : Option Owned :=
  if !validSecret id || !validSecret managementToken then none
  else owned store id (hashSecret managementToken) now

/-- The first transaction of `revokeDeviceGrant`; it answers the subject whose
tokens are to be deleted. -/
def revokeDeviceGrant (store : Store) (deviceId credential grantId : String)
    (now later : Nat) : Store × Option String :=
  if !validGrantId grantId then (store, none)
  else
    match authenticatedDevice hashSecret store deviceId credential now with
    | none => (store, none)
    | some current =>
      let subject := current.device.subject
      match store.grants (subject, grantId) with
      | none => (store, none)
      | some receipt =>
        if receipt.subject != subject || receipt.connectorId != deviceId then (store, none)
        else
          ({ store with
              grants := store.grants.put (subject, grantId)
                { receipt with
                  active := false
                  cleanupPending := some true
                  revokedAt :=
                    if receipt.active && receipt.revokedAt.isNone then some later
                    else receipt.revokedAt } },
            some subject)

/-- The second transaction of `revokeDeviceGrant`, after the tokens are gone. -/
def finishGrantRevocation (store : Store) (subject grantId : String) : Store :=
  match store.grants (subject, grantId) with
  | none => store
  | some receipt =>
    if receipt.active then store
    else
      { store with
        grants := store.grants.put (subject, grantId)
          { receipt with cleanupPending := some false } }

/-- When an active grant must end at the latest, or none when it is not active.
The clock is read for the receipt, for the device and for the consent. -/
def authorizationGrantEnd (store : Store) (identity : SessionIdentity) (grant : QueryGrant)
    (now later latest : Nat) : Option Nat :=
  match store.grants (grantKey identity grant) with
  | none => none
  | some receipt =>
    if !receipt.active || receipt.owner != grantOwner hashSecret identity grant ||
        decide (receipt.expiresAt ≤ now) then none
    else
      match store.devices receipt.connectorId with
      | none => none
      | some device =>
        if device.id != receipt.connectorId || device.subject != receipt.subject ||
            decide (device.expiresAt ≤ later) then none
        else
          (consentEnd hashSecret store receipt.subject receipt.clientId
            receipt.authorizationId latest).map fun consent =>
              min (min receipt.expiresAt consent) device.expiresAt

def authorizationGrantActive (store : Store) (identity : SessionIdentity) (grant : QueryGrant)
    (now later latest : Nat) : Bool :=
  (authorizationGrantEnd hashSecret store identity grant now later latest).isSome

end Transactions

end Wenlan.Relay

/-!
## The maintenance sweep

The loop of `maintainAuthority` over one listed page, and the transaction that
records the outcome of its external cleanup.  Which keys a page holds is an
argument; the values of a page are those of the store it was listed from, while
every record that the loop looks up is read from the store as the loop left it.
-/

namespace Wenlan.Relay

open Support (Json)

inductive StoreKey where
  | device (id : String)
  | connector (id : String)
  | grant (subject id : String)
  | client (subject digest : String)
  | pairing (id : String)
  | pairingCode (code : String)
  | authorizationPairing (id : String)
  | lookupMiss (deviceId : String)
  | oauthRequest (id : String)
  | session (id : String)
  | sessionOwner (digest : String)
  deriving DecidableEq

structure CleanupJob where
  key : String × String
  id : String
  subject : String
  lease : String

/-- A record whose time is over. -/
def expired (expiresAt now : Nat) : Bool := decide (expiresAt ≤ now)

def liveDevice (device : Option DeviceRecord) (now : Nat) : Bool :=
  device.any fun device =>
    device.enabled && device.pendingReverse.isNone && !expired device.expiresAt now

def sweepTransient {κ α : Type} [DecidableEq κ] (table : Table κ α) (key : κ)
    (value : Option α) (expiresAt : α → Nat) (now : Nat) : Table κ α :=
  match value with
  | some record => if expired (expiresAt record) now then table.delete key else table
  | none => table

section Sweep

variable (hashSecret : String → String)

def sessionOwnerKey (session : SessionRecord) : String :=
  hashSecret (Json.stringify (.arr [.str session.route, .str session.backendId]))

def receiptDeviceCurrent (store : Store) (receipt : GrantReceipt) (now : Nat) : Bool :=
  liveDevice (store.devices receipt.connectorId) now &&
    (store.routes receipt.connectorId).any fun route =>
      route.enabled && route.subject == receipt.subject && route.id == receipt.connectorId &&
        route.space == receipt.space && route.generation == receipt.generation

def deactivatedReceipt (receipt : GrantReceipt) : GrantReceipt :=
  { receipt with active := false, cleanupPending := some true }

def receiptConsentCurrent (store : Store) (receipt : GrantReceipt) (now : Nat) : Bool :=
  currentAuthorization hashSecret store receipt.subject receipt.clientId
    receipt.authorizationId now

/-- Sweep one grant receipt: deny first, delete only what nothing can revive,
and hand out at most one cleanup per pass. -/
def sweepGrant (store : Store) (job : Option CleanupJob) (key : String × String)
    (listed : GrantReceipt) (now : Nat) (lease : String) : Store × Option CleanupJob :=
  let consent := receiptConsentCurrent hashSecret store listed now
  let deactivate := listed.active &&
    (!consent || !receiptDeviceCurrent store listed now || expired listed.expiresAt now)
  let receipt := if deactivate then deactivatedReceipt listed else listed
  let store :=
    if deactivate then { store with grants := store.grants.put key receipt } else store
  if !receipt.active && receipt.cleanupPending == some false && expired receipt.expiresAt now &&
      !consent then
    ({ store with grants := store.grants.delete key }, job)
  else if !receipt.active && receipt.cleanupPending != some false && job.isNone &&
      decide (receipt.cleanupAfter.getD 0 ≤ now) then
    ({ store with
        grants := store.grants.put key
          { receipt with
            cleanupPending := some true
            cleanupLease := some lease
            cleanupAfter := some (now + 60000) } },
      some ⟨key, receipt.id, receipt.subject, lease⟩)
  else (store, job)

/-- One iteration of the loop over the page that was listed from `listed`. -/
def sweepEntry (listed : Store) (now : Nat) (lease : String)
    (acc : Store × Option CleanupJob) (key : StoreKey) : Store × Option CleanupJob :=
  let store := acc.1
  match key with
  | .pairing id =>
    ({ store with
        pairings := sweepTransient store.pairings id (listed.pairings id)
          PairingRecord.expiresAt now }, acc.2)
  | .pairingCode code =>
    ({ store with
        codes := sweepTransient store.codes code (listed.codes code)
          CodeIndex.expiresAt now }, acc.2)
  | .lookupMiss deviceId =>
    ({ store with
        misses := sweepTransient store.misses deviceId (listed.misses deviceId)
          LookupMisses.expiresAt now }, acc.2)
  | .authorizationPairing id =>
    ({ store with
        authorizationPairings := sweepTransient store.authorizationPairings id
          (listed.authorizationPairings id) CodeIndex.expiresAt now }, acc.2)
  | .oauthRequest id =>
    ({ store with
        requests := sweepTransient store.requests id (listed.requests id)
          StoredAuthorization.expiresAt now }, acc.2)
  | .client subject digest =>
    ({ store with
        clients := sweepTransient store.clients (subject, digest)
          (listed.clients (subject, digest)) ClientAuthorization.expiresAt now }, acc.2)
  | .device id =>
    match listed.devices id with
    | none => acc
    | some device =>
      if !liveDevice (some device) now && !pendingReverseDevice (some device) now then
        ({ store with
            devices := store.devices.delete id, routes := store.routes.delete id }, acc.2)
      else acc
  | .connector id =>
    match listed.routes id with
    | none => acc
    | some route =>
      let device := store.devices id
      if !liveDevice device now || !route.enabled || route.id != id ||
          !device.any fun device => route.subject == device.subject then
        ({ store with routes := store.routes.delete id }, acc.2)
      else acc
  | .sessionOwner digest =>
    match listed.sessionOwners digest with
    | none => acc
    | some id =>
      if !(store.sessions id).any fun session =>
          session.active && !expired session.expiresAt now then
        ({ store with sessionOwners := store.sessionOwners.delete digest }, acc.2)
      else acc
  | .session id =>
    match listed.sessions id with
    | none => acc
    | some session =>
      if !session.active || expired session.expiresAt now then
        let reverse := sessionOwnerKey hashSecret session
        ({ store with
            sessionOwners :=
              if store.sessionOwners reverse = some session.id then
                store.sessionOwners.delete reverse
              else store.sessionOwners
            sessions := store.sessions.delete id }, acc.2)
      else acc
  | .grant subject id =>
    match listed.grants (subject, id) with
    | none => acc
    | some receipt => sweepGrant hashSecret store acc.2 (subject, id) receipt now lease

/-- The loop of one maintenance pass. -/
def sweepPage (store : Store) (page : List StoreKey) (now : Nat) (lease : String) :
    Store × Option CleanupJob :=
  page.foldl (sweepEntry hashSecret store now lease) (store, none)

end Sweep

inductive CleanupOutcome where
  | succeeded
  /-- `CleanupBatchIncomplete`: part of the batch is done. -/
  | partially
  | failed
  deriving DecidableEq

/-- Record an outcome, unless the receipt moved on since the lease was taken. -/
def recordCleanup (store : Store) (job : CleanupJob) (outcome : CleanupOutcome) (now : Nat) :
    Store :=
  match store.grants job.key with
  | none => store
  | some receipt =>
    if receipt.active || receipt.cleanupLease != some job.lease ||
        receipt.cleanupPending == some false then store
    else
      let failures :=
        if outcome = .failed then min 10 (receipt.cleanupFailures.getD 0 + 1) else 0
      { store with
        grants := store.grants.put job.key
          { receipt with
            cleanupPending := some (decide (outcome ≠ .succeeded))
            cleanupFailures := some failures
            cleanupAfter := some (if outcome = .succeeded then 0
              else now + min 3600000 (60000 * Nat.pow 2 (failures - 1))) } }

/-! ## What a sweep can do -/

/-- `current` is `old` without some records that had expired. -/
def Pruned {κ α : Type} (expiresAt : α → Nat) (now : Nat) (old current : Table κ α) : Prop :=
  ∀ key, current key = old key ∨
    ∃ record, old key = some record ∧ expiresAt record ≤ now ∧ current key = none

namespace Pruned

variable {κ α : Type} {expiresAt : α → Nat} {now : Nat} {old current : Table κ α}

theorem refl (expiresAt : α → Nat) (now : Nat) (old : Table κ α) :
    Pruned expiresAt now old old := fun _ => .inl rfl

theorem sweep [DecidableEq κ] (h : Pruned expiresAt now old current) (key : κ) :
    Pruned expiresAt now old (sweepTransient current key (old key) expiresAt now) := by
  intro other
  unfold sweepTransient
  cases hrec : old key with
  | none => exact h other
  | some record =>
    by_cases hexp : expired (expiresAt record) now
    · simp only [if_pos hexp]
      by_cases hsame : other = key
      · subst hsame
        exact .inr ⟨record, hrec, of_decide_eq_true hexp, Table.delete_same ..⟩
      · rw [Table.delete_other _ hsame]
        exact h other
    · simp only [if_neg hexp]
      exact h other

theorem of_some (h : Pruned expiresAt now old current) {key : κ} {record : α}
    (hrec : current key = some record) : old key = some record := by
  rcases h key with hsame | ⟨_, _, _, hnone⟩
  · rw [← hsame, hrec]
  · simp [hrec] at hnone

theorem of_live (h : Pruned expiresAt now old current) {key : κ} {record : α}
    (hrec : old key = some record) (hlive : now < expiresAt record) :
    current key = some record := by
  rcases h key with hsame | ⟨other, hother, hexp, _⟩
  · rw [hsame, hrec]
  · obtain rfl := Option.mem_unique hrec hother
    exact absurd hexp (Nat.not_le.mpr hlive)

end Pruned

/-- Two states of one receipt: what it was granted for did not change. -/
structure SameGrant (r r' : GrantReceipt) : Prop where
  id : r'.id = r.id
  subject : r'.subject = r.subject
  clientId : r'.clientId = r.clientId
  authorizationId : r'.authorizationId = r.authorizationId
  owner : r'.owner = r.owner
  expiresAt : r'.expiresAt = r.expiresAt

section Swept

variable (hashSecret : String → String)

/-- What a sweep made of one receipt: nothing, an inactive one, or nothing left of
an inactive one whose consent is not current. -/
inductive GrantSwept (old : Store) (now : Nat) (current : Store) (key : String × String) : Prop
  | kept (h : current.grants key = old.grants key)
  | denied (r r' : GrantReceipt) (hold : old.grants key = some r)
      (hcurrent : current.grants key = some r') (hsame : SameGrant r r')
      (hactive : r'.active = false)
  | deleted (r : GrantReceipt) (hold : old.grants key = some r)
      (hcurrent : current.grants key = none) (hactive : r.active = false)
      (hconsent : receiptConsentCurrent hashSecret old r now = false)

/-- The store `current`, part of the way through a sweep of `old`. -/
structure Swept (old : Store) (now : Nat) (current : Store) : Prop where
  clients : Pruned ClientAuthorization.expiresAt now old.clients current.clients
  pairings : Pruned PairingRecord.expiresAt now old.pairings current.pairings
  codes : Pruned CodeIndex.expiresAt now old.codes current.codes
  misses : Pruned LookupMisses.expiresAt now old.misses current.misses
  grants : ∀ key, GrantSwept hashSecret old now current key

variable {hashSecret} {old current : Store} {now : Nat}

theorem Swept.refl (old : Store) (now : Nat) : Swept hashSecret old now old :=
  ⟨.refl _ _ _, .refl _ _ _, .refl _ _ _, .refl _ _ _, fun _ => .kept rfl⟩

theorem consent_of_pruned (h : Pruned ClientAuthorization.expiresAt now old.clients
    current.clients) (receipt : GrantReceipt) :
    receiptConsentCurrent hashSecret current receipt now =
      receiptConsentCurrent hashSecret old receipt now := by
  unfold receiptConsentCurrent currentAuthorization consentEnd
  rcases h (clientKey hashSecret receipt.subject receipt.clientId) with hsame |
    ⟨record, hrec, hexp, hnone⟩
  · rw [hsame]
  · simp only [hrec, hnone]
    rw [if_neg fun hcurrent => absurd hexp (Nat.not_le.mpr hcurrent.2)]

theorem GrantSwept.congr {current' : Store} {key : String × String}
    (h : GrantSwept hashSecret old now current key)
    (heq : current'.grants key = current.grants key) :
    GrantSwept hashSecret old now current' key := by
  cases h with
  | kept h => exact .kept (heq.trans h)
  | denied r r' hold hcurrent hsame hactive =>
    exact .denied r r' hold (heq.trans hcurrent) hsame hactive
  | deleted r hold hcurrent hactive hconsent =>
    exact .deleted r hold (heq.trans hcurrent) hactive hconsent

theorem sweepGrant_grants (h : Swept hashSecret old now current) {key : String × String}
    {listed : GrantReceipt} (hlist : old.grants key = some listed) (job : Option CleanupJob)
    (lease : String) (other : String × String) :
    GrantSwept hashSecret old now (sweepGrant hashSecret current job key listed now lease).1
      other := by
  have hother : ∀ current' : Store, other ≠ key →
      (∀ value, current'.grants = current.grants.put key value →
        GrantSwept hashSecret old now current' other) := by
    intro current' hne value hput
    exact (h.grants other).congr (by rw [hput, Table.put_other _ _ hne])
  unfold sweepGrant
  simp only []
  generalize hdeny : (listed.active && (!receiptConsentCurrent hashSecret current listed now ||
    !receiptDeviceCurrent current listed now || expired listed.expiresAt now)) = deactivate
  cases deactivate with
  | true =>
    simp only [if_true, deactivatedReceipt]
    by_cases hne : other = key
    · subst hne
      split
      · next hdelete => simp at hdelete
      · split
        all_goals exact .denied listed _ hlist (Table.put_same ..) ⟨rfl, rfl, rfl, rfl, rfl, rfl⟩ rfl
    · split
      · next hdelete => simp at hdelete
      · split
        · refine (h.grants other).congr ?_
          simp only [Table.put_other _ _ hne]
        · exact hother _ hne _ rfl
  | false =>
    simp only [Bool.false_eq_true, if_false]
    split
    · next hdelete =>
        simp only [Bool.and_eq_true, Bool.not_eq_true', beq_iff_eq] at hdelete
        by_cases hne : other = key
        · subst hne
          refine .deleted listed hlist (Table.delete_same ..) hdelete.1.1.1 ?_
          rw [← consent_of_pruned h.clients listed]
          exact hdelete.2
        · exact (h.grants other).congr (Table.delete_other _ hne)
    · split
      · next hjob =>
          simp only [Bool.and_eq_true, Bool.not_eq_true'] at hjob
          by_cases hne : other = key
          · subst hne
            exact .denied listed _ hlist (Table.put_same ..) ⟨rfl, rfl, rfl, rfl, rfl, rfl⟩ hjob.1.1.1
          · exact hother _ hne _ rfl
      · exact h.grants other

variable (hashSecret) in
theorem sweepGrant_frame (store : Store) (job : Option CleanupJob) (key : String × String)
    (listed : GrantReceipt) (now : Nat) (lease : String) :
    ∃ grants, (sweepGrant hashSecret store job key listed now lease).1 =
      { store with grants } := by
  unfold sweepGrant
  simp only []
  split <;> split <;> first | exact ⟨_, rfl⟩ | (split <;> exact ⟨_, rfl⟩)

theorem sweepEntry_swept (lease : String) (acc : Store × Option CleanupJob) (key : StoreKey)
    (h : Swept hashSecret old now acc.1) :
    Swept hashSecret old now (sweepEntry hashSecret old now lease acc key).1 := by
  obtain ⟨hclis, hpairs, hcodes, hmis, hgrant⟩ := h
  have hgrant' : ∀ store : Store, store.grants = acc.1.grants →
      ∀ key, GrantSwept hashSecret old now store key :=
    fun store hsame key => (hgrant key).congr (congrFun hsame key)
  unfold sweepEntry
  cases key with
  | pairing id => exact ⟨hclis, hpairs.sweep id, hcodes, hmis, hgrant' _ rfl⟩
  | pairingCode code => exact ⟨hclis, hpairs, hcodes.sweep code, hmis, hgrant' _ rfl⟩
  | lookupMiss deviceId =>
    exact ⟨hclis, hpairs, hcodes, hmis.sweep deviceId, hgrant' _ rfl⟩
  | authorizationPairing | oauthRequest =>
    exact ⟨hclis, hpairs, hcodes, hmis, hgrant' _ rfl⟩
  | client subject digest =>
    exact ⟨hclis.sweep (subject, digest), hpairs, hcodes, hmis, hgrant' _ rfl⟩
  | device id =>
    simp only []
    split
    · exact ⟨hclis, hpairs, hcodes, hmis, hgrant⟩
    · split
      · exact ⟨hclis, hpairs, hcodes, hmis, hgrant' _ rfl⟩
      · exact ⟨hclis, hpairs, hcodes, hmis, hgrant⟩
  | connector id | sessionOwner digest | session id =>
    simp only []
    split
    · exact ⟨hclis, hpairs, hcodes, hmis, hgrant⟩
    · split
      · exact ⟨hclis, hpairs, hcodes, hmis, hgrant' _ rfl⟩
      · exact ⟨hclis, hpairs, hcodes, hmis, hgrant⟩
  | grant subject id =>
    simp only []
    split
    · exact ⟨hclis, hpairs, hcodes, hmis, hgrant⟩
    · next listed hlist =>
        have hafter := sweepGrant_grants ⟨hclis, hpairs, hcodes, hmis, hgrant⟩
          hlist acc.2 lease
        obtain ⟨grants, hframe⟩ := sweepGrant_frame hashSecret acc.1 acc.2
          (subject, id) listed now lease
        refine ⟨?_, ?_, ?_, ?_, hafter⟩ <;> rw [hframe] <;> assumption

variable (hashSecret) in
/-- What a whole maintenance pass does to the store it was started on. -/
theorem sweepPage_swept (old : Store) (page : List StoreKey) (now : Nat) (lease : String) :
    Swept hashSecret old now (sweepPage hashSecret old page now lease).1 := by
  suffices hfold : ∀ acc : Store × Option CleanupJob, Swept hashSecret old now acc.1 →
      Swept hashSecret old now (page.foldl (sweepEntry hashSecret old now lease) acc).1 from
    hfold _ (.refl old now)
  induction page with
  | nil => exact fun acc h => h
  | cons key page ih => exact fun acc h => ih _ (sweepEntry_swept lease acc key h)

end Swept

end Wenlan.Relay
