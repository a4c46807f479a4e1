import Wenlan.Relay.Requests

/-!
# Requests after a sweep

In a store that transactions have left, a request that is authorized is so by records that a sweep
spares, and is authorized after it.
-/

namespace Wenlan.Relay

open Option

open Support (Json)

/-! ## Consistent stores -/

def GrantReceipt.ownerText (receipt : GrantReceipt) : String :=
  Relay.ownerText receipt.clientId receipt.connectorId receipt.space receipt.generation

theorem ownerText_inj {clientId clientId' connectorId connectorId' space space' : String}
    {generation generation' : Nat} (h : ownerText clientId connectorId space generation =
      ownerText clientId' connectorId' space' generation') :
    clientId = clientId' ∧ connectorId = connectorId' ∧ space = space' ∧
      generation = generation' := by
  have hvalue := Json.stringify_injective h
  simpa using hvalue

def Request.digested : Request → List String
  | .query _ identity token _ | .delivery ⟨_, identity, token, _⟩ _ _ _ _ =>
    [ownerText identity.clientId token.grant.connectorId token.grant.space
      token.grant.generation]
  | .exchange _ _ identity grant _ =>
    [ownerText identity.clientId grant.connectorId grant.space grant.generation]
  | .manage .. | .revoke .. | .activate .. | .channel .. => []

/-- A store that transactions have left: an enabled route has an enabled device, and a receipt
lies under its subject and is owned by what it was granted for. -/
structure Consistent (hashSecret : String → String) (digested : List String) (store : Store) :
    Prop where
  routes : ∀ id route, store.routes id = some route → route.enabled = true →
    ∃ device, store.devices id = some device ∧ device.enabled = true ∧
      device.pendingReverse = none ∧ device.subject = route.subject
  receipts : ∀ key receipt, store.grants key = some receipt →
    receipt.subject = key.1 ∧ receipt.owner = hashSecret receipt.ownerText ∧
      receipt.ownerText ∈ digested

section Authorized

variable {hashSecret : String → String} {tunnelOrigin : String → Option String}
  {digested : List String} {old current : Store} {now : Nat}

theorem liveDevice_eq_true {device : DeviceRecord} (henabl : device.enabled)
    (hpend : device.pendingReverse = none) (hunexp : now < device.expiresAt) :
    liveDevice (some device) now := by
  simp [liveDevice, expired, henabl, hpend, hunexp]

variable {route : ConnectorRoute}

theorem routeHeld_eq_true {id : String} {device : DeviceRecord}
    (hroute : old.routes id = some route) (hdev : old.devices id = some device)
    (hlive : liveDevice (some device) now) (henabl : route.enabled)
    (hid : route.id = id) (hsubj : device.subject = route.subject) :
    routeHeld old id now := by
  simp [routeHeld, hroute, hdev, hlive, henabl, hid, hsubj]

theorem routeMatches_eq_true {route : Option ConnectorRoute} {grant : QueryGrant}
    (h : routeMatches route grant) : ∃ found, route = some found ∧ found.enabled ∧
      found.id = grant.connectorId ∧ found.subject = grant.subject ∧ found.space = grant.space ∧
      found.generation = grant.generation := by
  obtain ⟨found, hfound, hmatch⟩ := (any_eq_true _ _).mp h
  simp only [Bool.and_eq_true, beq_iff_eq] at hmatch
  obtain ⟨⟨⟨⟨henabl, hid⟩, hsubj⟩, hspace⟩, hgen⟩ := hmatch
  exact ⟨found, hfound, henabl, hid, hsubj, hspace, hgen⟩

theorem Consistent.routeHeld (hcons : Consistent hashSecret digested old)
    {grant : QueryGrant} (hroute : routeMatches (old.routes grant.connectorId) grant)
    (hlive : liveDevice (old.devices grant.connectorId) now) :
    routeHeld old grant.connectorId now := by
  obtain ⟨route, hfound, henabl, hid, -⟩ := routeMatches_eq_true hroute
  obtain ⟨device, hdev, -, -, hsubj⟩ := hcons.routes _ route hfound henabl
  rw [hdev] at hlive
  exact routeHeld_eq_true hfound hdev hlive henabl hid hsubj

theorem authorizationGrantEnd_eq_some {store : Store} {identity : SessionIdentity}
    {grant : QueryGrant} {last : Nat} :
    authorizationGrantEnd hashSecret store identity grant now now now = some last ↔
      ∃ receipt device consent, store.grants (grantKey identity grant) = some receipt ∧
        receipt.active ∧ receipt.owner = grantOwner hashSecret identity grant ∧
        now < receipt.expiresAt ∧ store.devices receipt.connectorId = some device ∧
        device.id = receipt.connectorId ∧ device.subject = receipt.subject ∧
        now < device.expiresAt ∧
        consentEnd hashSecret store receipt.subject receipt.clientId receipt.authorizationId
          now = some consent ∧
        min (min receipt.expiresAt consent) device.expiresAt = last := by
  unfold authorizationGrantEnd
  cases hrec : store.grants (grantKey identity grant) with
  | none => simp
  | some receipt =>
    cases hdev : store.devices receipt.connectorId with
    | none => simp [hdev]
    | some device =>
      simp only [hdev]
      split
      · next hdenied =>
          constructor
          · intro h
            cases h
          · rintro ⟨_, _, _, ⟨rfl⟩, hact, howner, hunexp, -⟩
            simp only [hact, howner, bne_self_eq_false, Bool.not_true, Bool.false_or,
              decide_eq_true_eq] at hdenied
            exact absurd hdenied (Nat.not_le.mpr hunexp)
      · next hgran =>
          split
          · next hdenied =>
              constructor
              · intro h
                cases h
              · rintro ⟨_, _, _, ⟨rfl⟩, -, -, -, hfound, hid, hsubj, hunexp, -⟩
                obtain rfl := mem_unique hdev hfound
                simp only [hid, hsubj, bne_self_eq_false, Bool.false_or,
                  decide_eq_true_eq] at hdenied
                exact absurd hdenied (Nat.not_le.mpr hunexp)
          · next hlive =>
              simp only [Bool.or_eq_true, Bool.not_eq_true', bne_iff_ne, decide_eq_true_eq,
                not_or, Bool.not_eq_false, Decidable.not_not, Nat.not_le] at hgran hlive
              constructor
              · intro h
                obtain ⟨consent, hconse, hlast⟩ := map_eq_some_iff.mp h
                exact ⟨receipt, device, consent, rfl, hgran.1.1, hgran.1.2, hgran.2,
                  hdev, hlive.1.1, hlive.1.2, hlive.2, hconse, hlast⟩
              · rintro ⟨_, _, consent, ⟨rfl⟩, -, -, -, hfound, -, -, -, hconse, hlast⟩
                obtain rfl := mem_unique hdev hfound
                rw [hconse, map_some, hlast]

theorem consentEnd_of_spares (h : Spares hashSecret old now current)
    (subject clientId authorizationId : String) :
    consentEnd hashSecret current subject clientId authorizationId now =
      consentEnd hashSecret old subject clientId authorizationId now := by
  unfold consentEnd
  rcases h.clients (clientKey hashSecret subject clientId) with hsame |
    ⟨record, hrecor, hexp, hnone⟩
  · rw [hsame]
  · simp only [hrecor, hnone]
    rw [if_neg fun hcur => absurd hexp (Nat.not_le.mpr hcur.2)]

theorem grantEnd_of_spares (h : Spares hashSecret old now current)
    (hcons : Consistent hashSecret digested old) {identity : SessionIdentity}
    {grant : QueryGrant} (hcol : CollisionFree hashSecret
      (ownerText identity.clientId grant.connectorId grant.space grant.generation :: digested))
    (hroute : routeMatches (old.routes grant.connectorId) grant) {last : Nat}
    (hend : authorizationGrantEnd hashSecret old identity grant now now now = some last) :
    current.routes grant.connectorId = old.routes grant.connectorId ∧
      authorizationGrantEnd hashSecret current identity grant now now now = some last := by
  obtain ⟨receipt, device, consent, hrec, hact, howner, hunexp, hdev, hid, hsubj,
    hcur, hconse, hlast⟩ := authorizationGrantEnd_eq_some.mp hend
  obtain ⟨-, hbound, htext⟩ := hcons.receipts _ receipt hrec
  have hsame : receipt.ownerText =
      ownerText identity.clientId grant.connectorId grant.space grant.generation := by
    apply hcol _ (List.mem_cons_of_mem _ htext) _ List.mem_cons_self
    rw [← hbound, howner, grantOwner]
  obtain ⟨-, hcon, hspace, hgen⟩ := ownerText_inj hsame
  obtain ⟨route, hfound, henabl, hrouteI, hrouteSubject, hrouteS, hrouteG⟩ :=
    routeMatches_eq_true hroute
  obtain ⟨owner, howned, hdevic, hpend, hdevi⟩ :=
    hcons.routes _ route hfound henabl
  rw [hcon] at hdev
  obtain rfl := mem_unique hdev howned
  have hlive : liveDevice (old.devices grant.connectorId) now := by
    rw [hdev]
    exact liveDevice_eq_true hdevic hpend hcur
  have hheld := hcons.routeHeld hroute hlive
  have hrecei : receiptHeld hashSecret old receipt now := by
    have hcurre : receiptDeviceCurrent old receipt now := by
      unfold receiptDeviceCurrent
      rw [hcon, hlive, hfound]
      simp [henabl, hrouteI, hrouteS, hspace, hrouteG, hgen, ← hsubj, hdevi]
    have hconsen : receiptConsentCurrent hashSecret old receipt now := by
      unfold receiptConsentCurrent currentAuthorization
      rw [hconse]
      rfl
    unfold receiptHeld
    rw [hcon, hheld, hcurre, hconsen, hact]
    simp [expired, hunexp]
  refine ⟨h.routes _ hheld, authorizationGrantEnd_eq_some.mpr ⟨receipt, device, consent, ?_,
    hact, howner, hunexp, ?_, hid, hsubj, hcur, ?_, hlast⟩⟩
  · exact h.grants _ receipt hrec hrecei
  · rw [hcon, h.liveDevice hlive, hdev]
  · rw [consentEnd_of_spares h, hconse]

/-! ### Queries -/

theorem routeMatches_of_denial {route : Option ConnectorRoute} {grant : QueryGrant}
    (h : routeDenial route grant now = none) : routeMatches route grant := by
  unfold routeDenial at h
  split at h
  · cases h
  · split_ifs at h with hrev
    simp only [Bool.or_eq_true, not_or, Bool.not_eq_true', Bool.not_eq_false, bne_iff_ne,
      Decidable.not_not] at hrev
    simp [routeMatches, hrev]

theorem routeMatches_of_allows {route : Option ConnectorRoute} {grant : QueryGrant}
    (h : routeAllows route grant now) : routeMatches route grant := by
  obtain ⟨found, rfl, hallo⟩ := (any_eq_true _ _).mp h
  simp only [Bool.and_eq_true] at hallo
  simpa only [routeMatches, any_some, Bool.and_eq_true] using hallo.1

theorem Spares.usableSession (h : Spares hashSecret old now current) {query : Query} {id : String}
    {session : SessionRecord}
    (hses : old.sessions id = some session)
    (huse : usableSession hashSecret query route session now) :
    current.sessions id = some session := by
  simp only [Relay.usableSession, Bool.and_eq_true, decide_eq_true_eq] at huse
  exact h.sessions id session hses huse.1.1.1 huse.2

theorem Spares.sessionCurrent (h : Spares hashSecret old now current) {query : Query}
    {session : SessionRecord}
    (hcur : sessionCurrent hashSecret old query route session now) :
    sessionCurrent hashSecret current query route session now := by
  obtain ⟨found, hfound, hsame⟩ := (any_eq_true _ _).mp hcur
  have huse := hsame
  rw [Bool.and_eq_true] at huse
  unfold Relay.sessionCurrent
  rw [h.usableSession hfound huse.1]
  exact hsame

structure SameAuthority (hashSecret : String → String) (old : Store) (now : Nat)
    (current : Store) (tokenCurrent : Bool) (query : Query) : Prop where
  route : current.routes query.token.grant.connectorId = old.routes query.token.grant.connectorId
  grant : grantCurrent hashSecret current query tokenCurrent now =
    grantCurrent hashSecret old query tokenCurrent now

variable {tokenCurrent : Bool}

variable {query' : Query}

/-- A part of a query that goes on in the old store goes on in the swept one. -/
theorem nextStage_of_spares (h : Spares hashSecret old now current)
    {query : Query} (hsame : SameAuthority hashSecret old now current tokenCurrent query)
    (hnext : nextStage hashSecret tunnelOrigin old tokenCurrent now query = .running query') :
    nextStage hashSecret tunnelOrigin current tokenCurrent now query = .running query' := by
  unfold nextStage at hnext ⊢
  cases hstage : query.stage with
  | routing =>
    simp only [hstage] at hnext ⊢
    unfold loadRoute at hnext ⊢
    rw [hsame.route, hsame.grant]
    exact hnext
  | looking route =>
    simp only [hstage] at hnext ⊢
    unfold lookupSession at hnext ⊢
    split at hnext
    · cases hnext
    · next session hses =>
        split_ifs at hnext with huse
        obtain ⟨id, hid, hstor⟩ := bind_eq_some_iff.mp hses
        have hkept : (query.request.sessionId >>= current.sessions) = some session :=
          bind_eq_some_iff.mpr ⟨id, hid, h.usableSession hstor huse⟩
        simp only [hkept]
        rw [if_pos huse]
        exact hnext
  | checking route session =>
    simp only [hstage] at hnext ⊢
    unfold loadTarget at hnext ⊢
    simp only [hsame.route, hsame.grant]
    exact hnext
  | authorizing route session target =>
    simp only [hstage] at hnext ⊢
    unfold authorizeTarget at hnext ⊢
    rw [hsame.grant]
    exact hnext
  | rechecking route session target =>
    simp only [hstage] at hnext ⊢
    unfold recheckSession at hnext ⊢
    split_ifs at hnext with hcur
    rw [if_pos (h.sessionCurrent hcur)]
    exact hnext
  | dispatching route session target =>
    simp only [hstage] at hnext ⊢
    unfold dispatchQuery at hnext ⊢
    rw [hsame.grant]
    exact hnext
  | waiting | claiming | closing =>
    simp only [hstage] at hnext ⊢
    exact hnext

theorem nextStage_running {store : Store} {query : Query}
    (hnext : nextStage hashSecret tunnelOrigin store tokenCurrent now query = .running query') :
    ∃ stage, query' = { query with stage } := by
  unfold nextStage at hnext
  cases hstage : query.stage with
  | routing =>
    simp only [hstage] at hnext
    obtain ⟨route, -, rfl⟩ := loadRoute_running hnext
    exact ⟨_, rfl⟩
  | looking route =>
    simp only [hstage] at hnext
    obtain ⟨id, session, -, -, -, -, rfl⟩ := lookupSession_running hnext
    exact ⟨_, rfl⟩
  | checking route session =>
    simp only [hstage] at hnext
    rcases loadTarget_running hnext with ⟨_, _, rfl⟩ | ⟨target, rfl⟩
    all_goals exact ⟨_, rfl⟩
  | authorizing route session target =>
    simp only [hstage] at hnext
    obtain ⟨-, ⟨record, -, rfl⟩ | ⟨-, rfl⟩⟩ := authorizeTarget_running hnext
    all_goals exact ⟨_, rfl⟩
  | rechecking route session target =>
    simp only [hstage] at hnext
    exact ⟨_, recheckSession_running hnext⟩
  | dispatching route session target =>
    simp only [hstage] at hnext
    exact ⟨_, dispatchQuery_running hnext⟩
  | waiting | claiming | closing =>
    simp only [hstage] at hnext
    obtain rfl := Progress.running.inj hnext
    exact ⟨query.stage, rfl⟩

theorem waits_of_spares (h : Spares hashSecret old now current) {parts : Nat} {query : Query}
    (hsame : SameAuthority hashSecret old now current tokenCurrent query)
    (hwaits : (advance hashSecret tunnelOrigin old tokenCurrent now parts query).waits) :
    (advance hashSecret tunnelOrigin current tokenCurrent now parts query).waits := by
  induction parts generalizing query with
  | zero => exact hwaits
  | succ parts ih =>
    rw [advance] at hwaits ⊢
    cases hnext : nextStage hashSecret tunnelOrigin old tokenCurrent now query with
    | answered answer =>
      rw [hnext] at hwaits
      cases hwaits
    | running query' =>
      rw [hnext] at hwaits
      rw [nextStage_of_spares h hsame hnext]
      obtain ⟨stage, rfl⟩ := nextStage_running hnext
      exact ih ⟨hsame.route, hsame.grant⟩ hwaits

def Stage.precedesGrant : Stage → Bool
  | .routing | .looking _ | .checking .. | .authorizing .. => true
  | .rechecking .. | .dispatching .. | .waiting .. | .claiming .. | .closing .. => false

variable {session : Option SessionRecord}

theorem authorizeTarget_grant {store : Store} {query : Query} {target : ConnectorRoute}
    (h : authorizeTarget hashSecret store query route session target tokenCurrent now =
      .running query') : grantCurrent hashSecret store query tokenCurrent now := by
  unfold authorizeTarget at h
  simp only [] at h
  split at h
  · cases h
  · next hgran =>
      simp only [Bool.or_eq_true, not_or, Bool.not_eq_true', Bool.not_eq_false] at hgran
      exact hgran.2

theorem loadTarget_authorizing {store : Store} {query : Query}
    (h : loadTarget hashSecret store query route session none tokenCurrent now = .running query') :
    ∃ target, query' = { query with stage := .authorizing route session target } := by
  unfold loadTarget at h
  split_ifs at h
  simp only [] at h
  split at h
  · cases h
  · cases h
  · exact ⟨_, (Progress.running.inj h).symm⟩

/-- No query comes to the backend but through its grant. -/
theorem grantCurrent_of_waits {store : Store} {parts : Nat} {query : Query}
    (hbef : query.stage.precedesGrant)
    (hwaits : (advance hashSecret tunnelOrigin store tokenCurrent now parts query).waits) :
    grantCurrent hashSecret store query tokenCurrent now := by
  induction parts generalizing query with
  | zero =>
    unfold advance Progress.waits at hwaits
    cases hstage : query.stage <;> simp only [hstage] at hwaits hbef <;> contradiction
  | succ parts ih =>
    rw [advance] at hwaits
    cases hnext : nextStage hashSecret tunnelOrigin store tokenCurrent now query with
    | answered answer =>
      rw [hnext] at hwaits
      cases hwaits
    | running query' =>
      rw [hnext] at hwaits
      unfold nextStage at hnext
      cases hstage : query.stage with
      | routing =>
        simp only [hstage] at hnext
        obtain ⟨route, -, rfl⟩ := loadRoute_running hnext
        apply ih _ hwaits
        split <;> rfl
      | looking route =>
        simp only [hstage] at hnext
        obtain ⟨id, session, -, -, -, -, rfl⟩ := lookupSession_running hnext
        have hgrant := ih (by rfl) hwaits
        exact hgrant
      | checking route session =>
        simp only [hstage] at hnext
        obtain ⟨target, rfl⟩ := loadTarget_authorizing hnext
        have hgrant := ih (by rfl) hwaits
        exact hgrant
      | authorizing route session target =>
        simp only [hstage] at hnext
        exact authorizeTarget_grant hnext
      | rechecking | dispatching | waiting | claiming | closing =>
        rw [hstage] at hbef
        cases hbef

theorem loadRoute_routeDenial {store : Store} {query : Query}
    (h : loadRoute hashSecret store query tokenCurrent now = .running query') :
    routeDenial (store.routes query.token.grant.connectorId) query.token.grant now = none := by
  unfold loadRoute at h
  simp only [] at h
  split at h
  · cases h
  all_goals next hnone _ => exact hnone

section

variable (h : Spares hashSecret old now current) (hcons : Consistent hashSecret digested old)
include h hcons

theorem sameAuthority_of_spares {query : Query} (hcol : CollisionFree hashSecret
      (ownerText query.identity.clientId query.token.grant.connectorId query.token.grant.space
        query.token.grant.generation :: digested))
    (hroute : routeMatches (old.routes query.token.grant.connectorId) query.token.grant)
    (hgrant : grantCurrent hashSecret old query tokenCurrent now) :
    SameAuthority hashSecret old now current tokenCurrent query := by
  have hact := hgrant
  unfold grantCurrent authorizationGrantActive at hact
  rw [Bool.and_eq_true] at hact
  obtain ⟨last, hlast⟩ := isSome_iff_exists.mp hact.1
  obtain ⟨hsame, hend⟩ := grantEnd_of_spares h hcons hcol hroute hlast
  refine ⟨hsame, ?_⟩
  unfold grantCurrent authorizationGrantActive
  rw [hend, hlast]

theorem forwards_of_spares {request : SessionRequest}
    {identity : SessionIdentity} {token : QueryToken} (hcol : CollisionFree hashSecret
      (ownerText identity.clientId token.grant.connectorId token.grant.space
        token.grant.generation :: digested))
    (hforw : forwards hashSecret tunnelOrigin old request identity token tokenCurrent now = true) :
    forwards hashSecret tunnelOrigin current request identity token tokenCurrent now := by
  unfold forwards at hforw ⊢
  cases hbegin : beginQuery request identity token now with
  | answered answer =>
    rw [hbegin] at hforw
    cases hforw
  | running query =>
    simp only [hbegin] at hforw ⊢
    obtain rfl := beginQuery_running hbegin
    have hgrant := grantCurrent_of_waits rfl hforw
    have hroute : routeMatches (old.routes token.grant.connectorId) token.grant := by
      rw [advance] at hforw
      cases hnext : nextStage hashSecret tunnelOrigin old tokenCurrent now
          ⟨request, identity, token, .routing⟩ with
      | answered answer =>
        rw [hnext] at hforw
        cases hforw
      | running query' => exact routeMatches_of_denial (loadRoute_routeDenial hnext)
    apply waits_of_spares h _ hforw
    exact sameAuthority_of_spares h hcons hcol hroute hgrant

theorem leaseCheck_of_spares {query : Query} {target : ConnectorRoute}
    (hcol : CollisionFree hashSecret
      (ownerText query.identity.clientId query.token.grant.connectorId query.token.grant.space
        query.token.grant.generation :: digested))
    (hcheck : leaseCheck hashSecret old query route session target tokenCurrent now) :
    leaseCheck hashSecret current query route session target tokenCurrent now := by
  unfold leaseCheck at hcheck ⊢
  obtain ⟨found, hfound, hall⟩ := (any_eq_true _ _).mp hcheck
  simp only [Bool.and_eq_true] at hall
  obtain ⟨⟨⟨hroute, hbind⟩, hgrant⟩, hses⟩ := hall
  have hmatch : routeMatches (old.routes query.token.grant.connectorId) query.token.grant =
      true := by
    rw [hfound]
    exact routeMatches_of_allows hroute.1.1.1.2
  have hsame := sameAuthority_of_spares h hcons hcol hmatch hgrant
  rw [hsame.route, hfound, any_some]
  simp only [Bool.and_eq_true]
  refine ⟨⟨⟨hroute, hbind⟩, hsame.grant.trans hgrant⟩, ?_⟩
  cases session with
  | none => rfl
  | some session => exact h.sessionCurrent hses

end

/-! ### Token exchanges and devices -/

theorem exchange_of_spares (h : Spares hashSecret old now current)
    (hcons : Consistent hashSecret digested old) {grantType : GrantType}
    {requestedScope : List String} {identity : SessionIdentity} {grant : QueryGrant}
    {authorizationId : String} (hcol : CollisionFree hashSecret
      (ownerText identity.clientId grant.connectorId grant.space grant.generation :: digested))
    (hlive : grantType = .authorizationCode → liveDevice (old.devices grant.connectorId) now)
    (hallow : exchangeAllowed hashSecret old grantType requestedScope identity grant
      authorizationId now) :
    exchangeAllowed hashSecret current grantType requestedScope identity grant authorizationId
      now := by
  unfold exchangeAllowed at hallow ⊢
  rw [Bool.and_eq_true, Bool.and_eq_true] at hallow
  obtain ⟨⟨hvalid, hroute⟩, hgrant⟩ := hallow
  cases grantType with
  | refreshToken =>
    obtain ⟨last, hlast, hrem⟩ := (any_eq_true _ _).mp hgrant
    obtain ⟨hsame, hend⟩ := grantEnd_of_spares h hcons hcol hroute hlast
    simp [hvalid, hsame, hroute, hend, hrem]
  | authorizationCode =>
    have hsame := h.routes _ (hcons.routeHeld hroute (hlive rfl))
    have hconsen : currentAuthorization hashSecret current grant.subject identity.clientId
        authorizationId now =
          currentAuthorization hashSecret old grant.subject identity.clientId authorizationId
            now := by
      unfold currentAuthorization
      rw [consentEnd_of_spares h]
    simp only [hvalid, hsame, hroute, Bool.and_self, Bool.true_and]
    simp only [claimAuthorizationGrant] at hgrant ⊢
    rw [hconsen]
    split at hgrant
    · cases hgrant
    · next hcur =>
        rw [if_neg hcur]
        cases hrec : old.grants (grantKey identity grant) with
        | some receipt =>
          rw [hrec] at hgrant
          cases hgrant
        | none => rw [h.noGrant _ hrec]

theorem owned_held {id digest : String} {found : Owned}
    (h : owned old id digest now = some found) : routeHeld old id now := by
  obtain ⟨hdev, hroute, henabl⟩ := owned_eq_some h
  unfold owned at h
  simp only [hdev, hroute] at h
  split_ifs at h with hvalid
  simp only [Bool.or_eq_true, not_or, Bool.not_eq_true', Bool.not_eq_false, bne_iff_ne,
    Decidable.not_not, decide_eq_true_eq, Nat.not_le, Bool.not_eq_true,
    isSome_eq_false_iff, isNone_iff_eq_none] at hvalid
  obtain ⟨⟨⟨⟨⟨⟨⟨⟨⟨⟨-, hpend⟩, hrout⟩, -⟩, hid⟩, hsubj⟩, -⟩, hunexp⟩, -⟩, -⟩, -⟩ :=
    hvalid
  exact routeHeld_eq_true hroute hdev (liveDevice_eq_true henabl hpend hunexp)
    hrout hid hsubj

variable {managementToken : String}

section

variable (h : Spares hashSecret old now current)
include h

theorem Spares.held {id : String} (hheld : Relay.routeHeld old id now) :
    current.devices id = old.devices id ∧ current.routes id = old.routes id := by
  have hlive := hheld
  simp only [Relay.routeHeld, Bool.and_eq_true] at hlive
  exact ⟨h.liveDevice hlive.1, h.routes id hheld⟩

theorem manage_of_spares {id : String}
    (hdev : (authenticatedDevice hashSecret old id managementToken now).isSome) :
    (authenticatedDevice hashSecret current id managementToken now).isSome := by
  unfold authenticatedDevice at hdev ⊢
  split at hdev
  · cases hdev
  · next hvalid =>
      obtain ⟨found, hfound⟩ := isSome_iff_exists.mp hdev
      obtain ⟨hsam, hsameR⟩ := h.held (owned_held hfound)
      rw [if_neg hvalid]
      unfold owned at hdev ⊢
      rw [hsam, hsameR]
      exact hdev

theorem channel_of_spares {id connectionId : String} {generation : Nat}
    (hchan : reverseConnectionCurrent old id connectionId generation now) :
    reverseConnectionCurrent current id connectionId generation now := by
  have hheld : routeHeld old id now := by
    unfold reverseConnectionCurrent at hchan
    split at hchan
    · cases hchan
    · split at hchan
      · next device route hdev hroute =>
          simp only [Bool.and_eq_true, beq_iff_eq, decide_eq_true_eq,
            isNone_iff_eq_none] at hchan
          obtain ⟨⟨⟨⟨⟨⟨⟨⟨⟨⟨henabl, hpend⟩, -⟩, hunexp⟩, hrout⟩, hid⟩, hsubj⟩, -⟩,
            -⟩, -⟩, -⟩ := hchan
          exact routeHeld_eq_true hroute hdev (liveDevice_eq_true henabl hpend hunexp)
            hrout hid hsubj.symm
      · cases hchan
  obtain ⟨hdev, hroute⟩ := h.held hheld
  unfold reverseConnectionCurrent at hchan ⊢
  rw [hdev, hroute]
  exact hchan

/-- An activation starts from a pending device without a route, or from a route that is held. -/
theorem ownedState_of_spares {id digest : String}
    {found : OwnedState} (hfound : ownedState tunnelOrigin old id digest now = some found) :
    ownedState tunnelOrigin current id digest now = some found := by
  obtain ⟨hdev, -, -⟩ := ownedState_eq_some hfound
  have hrecs : current.devices id = old.devices id ∧ current.routes id = old.routes id := by
    unfold ownedState at hfound
    simp only [hdev] at hfound
    split at hfound
    · cases hfound
    · next hvalid =>
        split at hfound
        · next pending hpend =>
            split at hfound
            · cases hfound
            · next hstart =>
                simp only [Bool.or_eq_true, not_or, Bool.not_eq_true', Bool.not_eq_false,
                  Bool.not_eq_true, isSome_eq_false_iff,
                  isNone_iff_eq_none] at hstart
                have hkept := h.devices id _ hdev (by rw [hstart.1, Bool.or_true])
                refine ⟨hkept.trans hdev.symm, ?_⟩
                rcases h.route id with hroute | hroute
                · exact hroute
                · rw [hroute, hstart.2]
        · next hpend =>
            split at hfound
            · cases hfound
            · next route hroute =>
                split at hfound
                · cases hfound
                · next hstart =>
                    simp only [Bool.or_eq_true, not_or, Bool.not_eq_true', Bool.not_eq_false,
                      bne_iff_ne, Decidable.not_not, decide_eq_true_eq, Nat.not_le] at hvalid hstart
                    apply h.held
                    exact routeHeld_eq_true hroute hdev
                      (liveDevice_eq_true hstart.1.1.1.1.1.1 hpend hvalid.1.1.2)
                      hstart.1.1.1.1.1.2 hstart.1.1.1.1.2 hstart.1.1.1.2.symm
  unfold ownedState at hfound ⊢
  rw [hrecs.1, hrecs.2]
  exact hfound

theorem activate_of_spares {id : String}
    (hstart : (beginReverseActivation hashSecret tunnelOrigin old id managementToken
      now).isSome) :
    (beginReverseActivation hashSecret tunnelOrigin current id managementToken now).isSome =
      true := by
  unfold beginReverseActivation at hstart ⊢
  split at hstart
  · cases hstart
  · next hvalid =>
      obtain ⟨found, hfound⟩ := isSome_iff_exists.mp hstart
      rw [if_neg hvalid, ownedState_of_spares h hfound]
      rfl

end

def revocable (hashSecret : String → String) (id managementToken : String)
    (route : Option ConnectorRoute) : Option DeviceRecord → Bool
  | none => route.isNone
  | some device =>
    !(device.id != id || device.subject == "" ||
      !sameHash device.credentialHash (hashSecret managementToken) ||
      route.any fun route => route.id != id || route.subject != device.subject)

theorem revokeDevice_snd (store : Store) (id managementToken : String) :
    (revokeDevice hashSecret store id managementToken).2 =
      (validSecret id && validSecret managementToken &&
        revocable hashSecret id managementToken (store.routes id) (store.devices id)) := by
  unfold revokeDevice
  split
  · next hinvalid =>
      rw [← Bool.not_and, Bool.not_eq_true'] at hinvalid
      rw [hinvalid, Bool.false_and]
  · next hvalid =>
      rw [← Bool.not_and, Bool.not_eq_true', Bool.not_eq_false] at hvalid
      rw [hvalid, Bool.true_and]
      unfold revocable
      split
      · next hdev hroute => rw [hdev, hroute]; rfl
      · next hdev hroute => rw [hdev, hroute]; rfl
      · next device route hdev =>
          rw [hdev]
          simp only []
          split
          · next hrefused => rw [hrefused]; rfl
          · next hrev => rw [Bool.not_eq_true] at hrev; rw [hrev]; rfl

theorem revoke_of_spares (h : Spares hashSecret old now current) {id : String}
    (hrev : (revokeDevice hashSecret old id managementToken).2) :
    (revokeDevice hashSecret current id managementToken).2 := by
  rw [revokeDevice_snd, Bool.and_eq_true] at hrev ⊢
  refine ⟨hrev.1, ?_⟩
  rcases h.device id with hdev | ⟨hdev, hroute⟩
  · rcases h.route id with hroute | hroute
    · rw [hdev, hroute]
      exact hrev.2
    · have hrecs := hrev.2
      rw [hdev, hroute]
      cases hfound : old.devices id with
      | none => rfl
      | some device =>
        rw [hfound] at hrecs
        simp only [revocable, Bool.not_eq_true', Bool.or_eq_false_iff] at hrecs ⊢
        exact ⟨hrecs.1, rfl⟩
  · rw [hdev, hroute]
    rfl

/-- A code is exchanged on its route and its consent; only there the device is not asked for. -/
def Request.deviceLive (store : Store) (now : Nat) : Request → Bool
  | .exchange .authorizationCode _ _ grant _ => liveDevice (store.devices grant.connectorId) now
  | _ => true

theorem authorized_of_spares (h : Spares hashSecret old now current)
    (hcons : Consistent hashSecret digested old) {request : Request}
    (hcol : CollisionFree hashSecret (request.digested ++ digested))
    (hlive : request.deviceLive old now)
    (hauth : authorized hashSecret tunnelOrigin old now request) :
    authorized hashSecret tunnelOrigin current now request := by
  cases request with
  | query request identity token tokenCurrent =>
    exact forwards_of_spares h hcons hcol hauth
  | delivery query route session target tokenCurrent =>
    exact leaseCheck_of_spares h hcons hcol hauth
  | exchange grantType requestedScope identity grant authorizationId =>
    apply exchange_of_spares h hcons hcol _ hauth
    rintro rfl
    exact hlive
  | manage id managementToken => exact manage_of_spares h hauth
  | revoke id managementToken => exact revoke_of_spares h hauth
  | activate id managementToken => exact activate_of_spares h hauth
  | channel id connectionId generation => exact channel_of_spares h hauth

end Authorized

end Wenlan.Relay
