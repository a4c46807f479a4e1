import Wenlan.Relay.Grants
import Wenlan.Relay.DeviceFence

/-!
# The life of a grant

Committed transactions of the authority in any order, on a clock that never goes
back.  Two promises of the callers are part of a step: an authorization id that is
made a client's current one is fresh, since each is drawn for one request and a
pairing is consumed once; and whoever claims a grant id carries the properties
that were stored with that grant.  A grant's life has no way back: it is claimed
while its consent is current and there is no receipt, and once it is `Ended` it
stays so.
-/

namespace Wenlan.Relay

open Support.Transition

/-- What the authorization server keeps with a grant and hands to its claim. -/
structure GrantProps where
  clientId : String
  authorizationId : String

structure Authority where
  store : Store
  clock : Nat
  authorized : List String

def Authority.initial : Authority := ⟨.empty, 0, []⟩

inductive AuthorityOp where
  | tick (now : Nat)
  | device (op : DeviceOp)
  | replace (subject clientId authorizationId : String) (client : Option ClientDisplay)
  | claim (identity : SessionIdentity) (grant : QueryGrant) (authorizationId : String)
      (later : Nat)
  | touch (identity : SessionIdentity) (grant : QueryGrant) (now : Nat)
  | revokeGrant (deviceId credential grantId : String) (later : Nat)
  | finishRevocation (subject grantId : String)
  | sweep (page : List StoreKey) (now : Nat) (lease : String)
  | recordCleanup (job : CleanupJob) (outcome : CleanupOutcome) (now : Nat)

section System

variable (hashSecret : String → String) (tunnelOrigin : String → Option String)
  (props : String × String → GrantProps)

def authorityStep (a : Authority) : AuthorityOp → Authority
  | .tick now => { a with clock := now }
  | .device op => { a with store := deviceStep hashSecret tunnelOrigin a.store op }
  | .replace subject clientId authorizationId client => { a with
      store := replaceClientAuthorization hashSecret a.store subject clientId authorizationId
        client a.clock
      authorized := authorizationId :: a.authorized }
  | .claim identity grant authorizationId later => { a with
      store := (claimAuthorizationGrant hashSecret a.store identity grant authorizationId
        a.clock later).1
      clock := later }
  | .touch identity grant now => { a with
      store := (touchGrant hashSecret a.store identity grant now).1 }
  | .revokeGrant deviceId credential grantId later => { a with
      store := (revokeDeviceGrant hashSecret a.store deviceId credential grantId a.clock later).1
      clock := later }
  | .finishRevocation subject grantId => { a with
      store := finishGrantRevocation a.store subject grantId }
  | .sweep page now lease => { a with
      store := (sweepPage hashSecret a.store page now lease).1 }
  | .recordCleanup job outcome now => { a with
      store := recordCleanup a.store job outcome now }

def Promised (a : Authority) : AuthorityOp → Prop
  | .tick now => a.clock ≤ now
  | .replace _ _ authorizationId _ => authorizationId ∉ a.authorized
  | .claim identity grant authorizationId later =>
    a.clock ≤ later ∧ props (grantKey identity grant) = ⟨identity.clientId, authorizationId⟩
  | .revokeGrant _ _ _ later => a.clock ≤ later
  | .sweep _ now _ => now ≤ a.clock
  | .device _ | .touch _ _ _ | .finishRevocation _ _ | .recordCleanup _ _ _ => True

def AuthorityStep (a : Authority) (op : AuthorityOp) (b : Authority) : Prop :=
  Promised props a op ∧ b = authorityStep hashSecret tunnelOrigin a op

/-! ## What one transaction does to a receipt and to the consents -/

inductive ReceiptChange (a b : Authority) (key : String × String) : Prop
  | kept (h : b.store.grants key = a.store.grants key)
  | updated (r r' : GrantReceipt) (hold : a.store.grants key = some r)
      (hnew : b.store.grants key = some r') (hsame : SameGrant r r')
      (hactive : r'.active = true → r.active = true)
  | claimed (r : GrantReceipt) (hold : a.store.grants key = none)
      (hnew : b.store.grants key = some r) (hkey : (r.subject, r.id) = key)
      (hprops : props key = ⟨r.clientId, r.authorizationId⟩)
      (hconsent : currentAuthorization hashSecret a.store r.subject r.clientId
        r.authorizationId a.clock = true)
  | deleted (r : GrantReceipt) (now : Nat) (hold : a.store.grants key = some r)
      (hnew : b.store.grants key = none) (hnow : now ≤ a.clock)
      (hconsent : receiptConsentCurrent hashSecret a.store r now = false)

structure ConsentChange (a : Authority) (b : Authority) : Prop where
  clock : a.clock ≤ b.clock
  authorized : ∀ id ∈ a.authorized, id ∈ b.authorized
  clients : ∀ key consent, b.store.clients key = some consent → a.store.clients key = some consent ∨
      consent.authorizationId ∈ b.authorized ∧ consent.authorizationId ∉ a.authorized

end System

variable {r : GrantReceipt}

variable {subject credential deviceId grantId : String}

section Changes

variable {hashSecret : String → String} {tunnelOrigin : String → Option String}
  {props : String × String → GrantProps} {a b : Authority} {op : AuthorityOp}

theorem ConsentChange.of_clients (hclock : a.clock ≤ b.clock)
    (hauth : b.authorized = a.authorized) (hclis : b.store.clients = a.store.clients) :
    ConsentChange a b :=
  ⟨hclock, fun _ h => hauth ▸ h, fun _ _ h => .inl (by rwa [← hclis])⟩

section Frames

variable (hashSecret)

section

variable (store : Store) (identity : SessionIdentity) (grant : QueryGrant)

theorem claim_frame
    (authorizationId : String) (now later : Nat) :
    ∃ grants, (claimAuthorizationGrant hashSecret store identity grant authorizationId now
      later).1 = { store with grants } := by
  unfold claimAuthorizationGrant
  split
  · exact ⟨_, rfl⟩
  · split <;> exact ⟨_, rfl⟩

theorem touch_frame (now : Nat) :
    ∃ grants, (touchGrant hashSecret store identity grant now).1 = { store with grants } := by
  unfold touchGrant
  split
  · exact ⟨_, rfl⟩
  · split_ifs <;> exact ⟨_, rfl⟩

end

theorem revokeGrant_frame (store : Store) (deviceId credential grantId : String) (now later : Nat) :
    ∃ grants, (revokeDeviceGrant hashSecret store deviceId credential grantId now later).1 =
      { store with grants } := by
  unfold revokeDeviceGrant
  split
  · exact ⟨_, rfl⟩
  · split
    · exact ⟨_, rfl⟩
    · simp only []
      split
      · exact ⟨_, rfl⟩
      · split <;> exact ⟨_, rfl⟩

theorem finishRevocation_frame (store : Store) (subject grantId : String) :
    ∃ grants, finishGrantRevocation store subject grantId = { store with grants } := by
  unfold finishGrantRevocation
  split
  · exact ⟨_, rfl⟩
  · split <;> exact ⟨_, rfl⟩

theorem recordCleanup_frame (store : Store) (job : CleanupJob) (outcome : CleanupOutcome)
    (now : Nat) : ∃ grants, recordCleanup store job outcome now = { store with grants } := by
  unfold recordCleanup
  split
  · exact ⟨_, rfl⟩
  · split <;> exact ⟨_, rfl⟩

end Frames

theorem step_consent (h : AuthorityStep hashSecret tunnelOrigin props a op b) :
    ConsentChange a b := by
  obtain ⟨hprom, rfl⟩ := h
  cases op with
  | tick now => exact .of_clients hprom rfl rfl
  | device op =>
    obtain ⟨devices, routes, hframe⟩ :=
      deviceStep_frame hashSecret tunnelOrigin a.store op
    exact .of_clients (Nat.le_refl _) rfl (by simp only [authorityStep, hframe])
  | replace subject clientId authorizationId client =>
    refine ⟨Nat.le_refl _, fun _ h => List.mem_cons_of_mem _ h, fun key consent h => ?_⟩
    simp only [authorityStep, replaceClientAuthorization] at h
    by_cases hkey : key = clientKey hashSecret subject clientId
    · rw [hkey, Table.put_same] at h
      cases h
      exact .inr ⟨List.mem_cons_self, hprom⟩
    · rw [Table.put_other _ _ hkey] at h
      exact .inl h
  | claim identity grant authorizationId later =>
    obtain ⟨grants, hframe⟩ :=
      claim_frame hashSecret a.store identity grant authorizationId a.clock later
    exact .of_clients hprom.1 rfl (by simp only [authorityStep, hframe])
  | touch identity grant now =>
    obtain ⟨grants, hframe⟩ := touch_frame hashSecret a.store identity grant now
    exact .of_clients (Nat.le_refl _) rfl (by simp only [authorityStep, hframe])
  | revokeGrant deviceId credential grantId later =>
    obtain ⟨grants, hframe⟩ :=
      revokeGrant_frame hashSecret a.store deviceId credential grantId a.clock later
    exact .of_clients hprom rfl (by simp only [authorityStep, hframe])
  | finishRevocation subject grantId =>
    obtain ⟨grants, hframe⟩ := finishRevocation_frame a.store subject grantId
    exact .of_clients (Nat.le_refl _) rfl (by simp only [authorityStep, hframe])
  | sweep page now lease =>
    have hswept := sweepPage_swept hashSecret a.store page now lease
    exact ⟨Nat.le_refl _, fun _ h => h, fun _ _ h => .inl (hswept.clients.of_some h)⟩
  | recordCleanup job outcome now =>
    obtain ⟨grants, hframe⟩ := recordCleanup_frame a.store job outcome now
    exact .of_clients (Nat.le_refl _) rfl (by simp only [authorityStep, hframe])

theorem ReceiptChange.of_put {key target : String × String} {r' : GrantReceipt}
    (hold : a.store.grants target = some r)
    (hnew : b.store.grants = a.store.grants.put target r') (hsame : SameGrant r r')
    (hactive : r'.active → r.active) : ReceiptChange hashSecret props a b key := by
  by_cases hkey : key = target
  · subst hkey
    exact .updated r r' hold (by rw [hnew, Table.put_same]) hsame hactive
  · exact .kept (by rw [hnew, Table.put_other _ _ hkey])

theorem claim_receipt (identity : SessionIdentity) (grant : QueryGrant)
    (authorizationId : String) (later : Nat) (key : String × String)
    (hprops : props (grantKey identity grant) = ⟨identity.clientId, authorizationId⟩) :
    ReceiptChange hashSecret props a (authorityStep hashSecret tunnelOrigin a
      (.claim identity grant authorizationId later)) key := by
  simp only [authorityStep, claimAuthorizationGrant]
  by_cases hcur : currentAuthorization hashSecret a.store grant.subject identity.clientId
      authorizationId a.clock
  · simp only [hcur, Bool.not_true, Bool.false_eq_true, if_false]
    cases hexisting : a.store.grants (grantKey identity grant) with
    | some existing =>
      exact .of_put hexisting rfl ⟨rfl, rfl, rfl, rfl, rfl, rfl⟩ (by simp)
    | none =>
      by_cases hkey : key = grantKey identity grant
      · subst hkey
        exact .claimed _ hexisting (Table.put_same ..) rfl hprops hcur
      · exact .kept (Table.put_other _ _ hkey)
  · simp only [hcur, Bool.not_false, if_true]
    exact .kept rfl

theorem touch_receipt (identity : SessionIdentity) (grant : QueryGrant) (now : Nat)
    (key : String × String) :
    ReceiptChange hashSecret props a (authorityStep hashSecret tunnelOrigin a
      (.touch identity grant now)) key := by
  simp only [authorityStep, touchGrant]
  cases hrec : a.store.grants (grantKey identity grant) with
  | none => exact .kept rfl
  | some receipt =>
    simp only []
    split
    · exact .kept rfl
    · split
      · exact .kept rfl
      · exact .of_put hrec rfl ⟨rfl, rfl, rfl, rfl, rfl, rfl⟩ fun h => h

theorem revokeDeviceGrant_eq_some {store : Store}
    {now later : Nat}
    (h : (revokeDeviceGrant hashSecret store deviceId credential grantId now later).2 =
      some subject) :
    ∃ r r', store.grants (subject, grantId) = some r ∧ SameGrant r r' ∧ r'.active = false ∧
      (revokeDeviceGrant hashSecret store deviceId credential grantId now later).1.grants =
        store.grants.put (subject, grantId) r' := by
  unfold revokeDeviceGrant at h ⊢
  by_cases hvalid : (!validGrantId grantId)
  · simp [hvalid] at h
  · simp only [hvalid, Bool.false_eq_true, if_false] at h ⊢
    cases howned : authenticatedDevice hashSecret store deviceId credential now with
    | none => simp [howned] at h
    | some current =>
      simp only [howned] at h ⊢
      cases hrec : store.grants (current.device.subject, grantId) with
      | none => simp [hrec] at h
      | some receipt =>
        simp only [hrec] at h ⊢
        split at h
        · cases h
        · next hbound =>
            cases h
            rw [if_neg hbound]
            exact ⟨receipt, _, hrec, by constructor <;> rfl, rfl, rfl⟩

theorem revokeDeviceGrant_eq_none {store : Store}
    {now later : Nat}
    (h : (revokeDeviceGrant hashSecret store deviceId credential grantId now later).2 = none) :
    (revokeDeviceGrant hashSecret store deviceId credential grantId now later).1 = store := by
  unfold revokeDeviceGrant at h ⊢
  split at h
  · next hvalid => rw [if_pos hvalid]
  · next hvalid =>
      rw [if_neg hvalid]
      split at h
      · rfl
      · simp only [] at h ⊢
        split at h
        · rfl
        · split at h
          · next hbound => rw [if_pos hbound]
          · cases h

theorem revokeGrant_receipt (deviceId credential grantId : String) (later : Nat)
    (key : String × String) :
    ReceiptChange hashSecret props a (authorityStep hashSecret tunnelOrigin a
      (.revokeGrant deviceId credential grantId later)) key := by
  cases hanswer : (revokeDeviceGrant hashSecret a.store deviceId credential grantId a.clock
      later).2 with
  | none => exact .kept (by simp only [authorityStep, revokeDeviceGrant_eq_none hanswer])
  | some subject =>
    obtain ⟨r, r', hold, hsame, hinact, hnew⟩ := revokeDeviceGrant_eq_some hanswer
    exact .of_put hold hnew hsame (by simp [hinact])

theorem finishRevocation_receipt (subject grantId : String) (key : String × String) :
    ReceiptChange hashSecret props a (authorityStep hashSecret tunnelOrigin a
      (.finishRevocation subject grantId)) key := by
  simp only [authorityStep, finishGrantRevocation]
  cases hrec : a.store.grants (subject, grantId) with
  | none => exact .kept rfl
  | some receipt =>
    simp only []
    split
    · exact .kept rfl
    · exact .of_put hrec rfl ⟨rfl, rfl, rfl, rfl, rfl, rfl⟩ fun h => h

theorem recordCleanup_receipt (job : CleanupJob) (outcome : CleanupOutcome) (now : Nat)
    (key : String × String) :
    ReceiptChange hashSecret props a (authorityStep hashSecret tunnelOrigin a
      (.recordCleanup job outcome now)) key := by
  simp only [authorityStep, recordCleanup]
  cases hrec : a.store.grants job.key with
  | none => exact .kept rfl
  | some receipt =>
    simp only []
    split
    · exact .kept rfl
    · exact .of_put hrec rfl ⟨rfl, rfl, rfl, rfl, rfl, rfl⟩ fun h => h

theorem sweep_receipt (page : List StoreKey) (now : Nat) (lease : String)
    (hnow : now ≤ a.clock) (key : String × String) :
    ReceiptChange hashSecret props a (authorityStep hashSecret tunnelOrigin a
      (.sweep page now lease)) key := by
  rcases (sweepPage_swept hashSecret a.store page now lease).grants key with
    hkept | ⟨r, r', hold, hnew, hsame, hinact⟩ | ⟨r, hold, hnew, _, hconsent⟩
  · exact .kept hkept
  · exact .updated r r' hold hnew hsame (by simp [hinact])
  · exact .deleted r now hold hnew hnow hconsent

theorem step_receipt (h : AuthorityStep hashSecret tunnelOrigin props a op b)
    (key : String × String) : ReceiptChange hashSecret props a b key := by
  obtain ⟨hprom, rfl⟩ := h
  cases op with
  | tick | replace => exact .kept rfl
  | device op =>
    obtain ⟨devices, routes, hframe⟩ :=
      deviceStep_frame hashSecret tunnelOrigin a.store op
    exact .kept (by simp only [authorityStep, hframe])
  | claim => exact claim_receipt _ _ _ _ key hprom.2
  | touch => exact touch_receipt _ _ _ key
  | revokeGrant => exact revokeGrant_receipt _ _ _ _ key
  | finishRevocation => exact finishRevocation_receipt _ _ key
  | sweep => exact sweep_receipt _ _ _ hprom key
  | recordCleanup => exact recordCleanup_receipt _ _ _ key

end Changes

/-! ## The life of a grant -/

section Life

variable (hashSecret : String → String) (props : String × String → GrantProps)

/-- Receipts belong to their key and carry the properties kept for it, and every
consent that anything refers to was authorized once. -/
structure Bound (a : Authority) : Prop where
  receipt : ∀ key r, a.store.grants key = some r →
    (r.subject, r.id) = key ∧ props key = ⟨r.clientId, r.authorizationId⟩ ∧
      r.authorizationId ∈ a.authorized
  consent : ∀ key consent, a.store.clients key = some consent →
    consent.authorizationId ∈ a.authorized

/-- The consent of a grant was current once and will not be again. -/
structure Spent (key : String × String) (a : Authority) : Prop where
  authorized : (props key).authorizationId ∈ a.authorized
  finished : ∀ consent, a.store.clients (clientKey hashSecret key.1 (props key).clientId) =
      some consent → consent.authorizationId = (props key).authorizationId →
    consent.expiresAt ≤ a.clock

/-- The grant is over: its consent is spent, or its receipt is inactive. -/
def Ended (key : String × String) (a : Authority) : Prop :=
  Spent hashSecret props key a ∨ ∃ r, a.store.grants key = some r ∧ r.active = false

/-- The grant was claimed: it has a receipt, or it is over. -/
def Claimed (key : String × String) (a : Authority) : Prop :=
  Ended hashSecret props key a ∨ ∃ r, a.store.grants key = some r

end Life

section LifeSteps

variable {hashSecret : String → String} {tunnelOrigin : String → Option String}
  {props : String × String → GrantProps} {a b : Authority} {op : AuthorityOp}
  {key : String × String}

theorem currentAuthorization_iff {store : Store} {clientId authorizationId : String}
    {now : Nat} :
    currentAuthorization hashSecret store subject clientId authorizationId now ↔
      ∃ consent, store.clients (clientKey hashSecret subject clientId) = some consent ∧
        consent.authorizationId = authorizationId ∧ now < consent.expiresAt := by
  unfold currentAuthorization consentEnd
  cases store.clients (clientKey hashSecret subject clientId) with
  | none => simp
  | some consent =>
    simp only []
    split
    · next h => simp [h]
    · next h => simpa using h

theorem bound_initial : Bound props .initial :=
  ⟨nofun, nofun⟩

theorem bound_step (h : AuthorityStep hashSecret tunnelOrigin props a op b)
    (hbound : Bound props a) : Bound props b := by
  have hchang := step_consent h
  refine ⟨fun key r hr => ?_, fun key consent hconsent => ?_⟩
  · rcases step_receipt h key with hkept | ⟨old, new, hold, hnew, hsame, _⟩ |
      ⟨new, _, hnew, hkey, hprops, hcur⟩ | ⟨_, _, _, hnew, _⟩
    · obtain ⟨hkey, hprops, hmem⟩ := hbound.receipt key r (hkept ▸ hr)
      exact ⟨hkey, hprops, hchang.authorized _ hmem⟩
    · obtain rfl := Option.mem_unique hnew hr
      obtain ⟨hkey, hprops, hmem⟩ := hbound.receipt key old hold
      rw [hsame.subject, hsame.id, hsame.clientId, hsame.authorizationId]
      exact ⟨hkey, hprops, hchang.authorized _ hmem⟩
    · obtain rfl := Option.mem_unique hnew hr
      obtain ⟨consent, hconsent, hid, _⟩ := currentAuthorization_iff.mp hcur
      refine ⟨hkey, hprops, hchang.authorized _ ?_⟩
      rw [← hid]
      exact hbound.consent _ _ hconsent
    · simp [hnew] at hr
  · rcases hchang.clients key consent hconsent with hold | ⟨hnew, _⟩
    · exact hchang.authorized _ (hbound.consent key consent hold)
    · exact hnew

theorem spent_step (h : AuthorityStep hashSecret tunnelOrigin props a op b)
    (hspent : Spent hashSecret props key a) : Spent hashSecret props key b := by
  have hchang := step_consent h
  refine ⟨hchang.authorized _ hspent.authorized, fun consent hconsent hid => ?_⟩
  rcases hchang.clients _ consent hconsent with hold | ⟨_, hfresh⟩
  · exact Nat.le_trans (hspent.finished consent hold hid) hchang.clock
  · exact absurd (hid ▸ hspent.authorized) hfresh

theorem Spent.not_current (hspent : Spent hashSecret props key a) {now : Nat}
    (hnow : a.clock ≤ now) : currentAuthorization hashSecret a.store key.1 (props key).clientId
      (props key).authorizationId now = false := by
  rw [← Bool.not_eq_true, currentAuthorization_iff]
  rintro ⟨consent, hconsent, hid, hlive⟩
  exact absurd (hspent.finished consent hconsent hid) (Nat.not_le.mpr (Nat.lt_of_le_of_lt hnow hlive))

theorem spent_of_deleted (hbound : Bound props a) (hclock : a.clock ≤ b.clock)
    (hauth : ∀ id ∈ a.authorized, id ∈ b.authorized)
    (hclis : ∀ consent, b.store.clients (clientKey hashSecret key.1 (props key).clientId) =
      some consent → consent.authorizationId = (props key).authorizationId →
      a.store.clients (clientKey hashSecret key.1 (props key).clientId) = some consent) {now : Nat}
    (hr : a.store.grants key = some r) (hnow : now ≤ a.clock)
    (hconsent : receiptConsentCurrent hashSecret a.store r now = false) :
    Spent hashSecret props key b := by
  obtain ⟨hkey, hprops, hmem⟩ := hbound.receipt key r hr
  have hsubj : r.subject = key.1 := congrArg Prod.fst hkey
  rw [receiptConsentCurrent, hsubj, ← Bool.not_eq_true, currentAuthorization_iff] at hconsent
  refine ⟨hauth _ (by rw [hprops]; exact hmem), fun consent hstored hid => ?_⟩
  by_contra hlive
  apply hconsent
  refine ⟨consent, ?_, ?_, ?_⟩
  · have hold := hclis consent hstored hid
    rwa [hprops] at hold
  · rw [hid, hprops]
  · exact Nat.lt_of_le_of_lt (Nat.le_trans hnow hclock) (Nat.not_le.mp hlive)

section

variable (h : AuthorityStep hashSecret tunnelOrigin props a op b) (hbound : Bound props a)
include h hbound

theorem deleted_step {now : Nat} (hr : a.store.grants key = some r) (hnow : now ≤ a.clock)
    (hconsent : receiptConsentCurrent hashSecret a.store r now = false) :
    Spent hashSecret props key b := by
  have hchang := step_consent h
  refine spent_of_deleted hbound hchang.clock hchang.authorized ?_ hr hnow hconsent
  intro consent hstored hid
  rcases hchang.clients _ consent hstored with hold | ⟨_, hfresh⟩
  · exact hold
  · obtain ⟨_, hprops, hmem⟩ := hbound.receipt key r hr
    rw [hid, hprops] at hfresh
    exact absurd hmem hfresh

theorem ended_step (hended : Ended hashSecret props key a) : Ended hashSecret props key b := by
  rcases hended with hspent | ⟨r, hr, hinact⟩
  · exact .inl (spent_step h hspent)
  · rcases step_receipt h key with hkept | ⟨old, new, hold, hnew, _, hactive⟩ |
      ⟨_, hnone, _⟩ | ⟨old, now, hold, hnew, hnow, hconsent⟩
    · exact .inr ⟨r, hkept.trans hr, hinact⟩
    · obtain rfl := Option.mem_unique hold hr
      refine .inr ⟨new, hnew, ?_⟩
      rw [← Bool.not_eq_true]
      intro hon
      simp [hactive hon] at hinact
    · simp [hr] at hnone
    · exact .inl (deleted_step h hbound hold hnow hconsent)

theorem claimed_step (hclai : Claimed hashSecret props key a) :
    Claimed hashSecret props key b := by
  rcases hclai with hended | ⟨r, hr⟩
  · exact .inl (ended_step h hbound hended)
  · rcases step_receipt h key with hkept | ⟨_, new, _, hnew, _, _⟩ | ⟨_, hnone, _⟩ |
      ⟨old, now, hold, _, hnow, hconsent⟩
    · exact .inr ⟨r, hkept.trans hr⟩
    · exact .inr ⟨new, hnew⟩
    · simp [hr] at hnone
    · exact .inl (.inl (deleted_step h hbound hold hnow hconsent))

end

theorem Ended.not_active (hended : Ended hashSecret props key a) (hbound : Bound props a)
    {identity : SessionIdentity} {grant : QueryGrant} (hkey : grantKey identity grant = key)
    {now later latest : Nat} (hnow : a.clock ≤ latest) :
    authorizationGrantActive hashSecret a.store identity grant now later latest = false := by
  unfold authorizationGrantActive authorizationGrantEnd
  rw [hkey]
  cases hr : a.store.grants key with
  | none => rfl
  | some r =>
    rcases hended with hspent | ⟨r', hr', hinact⟩
    · obtain ⟨hrkey, hprops, _⟩ := hbound.receipt key r hr
      have hsubj : r.subject = key.1 := congrArg Prod.fst hrkey
      have hnone := hspent.not_current hnow
      rw [hprops, ← hsubj, currentAuthorization, Option.isSome_eq_false_iff,
        Option.isNone_iff_eq_none] at hnone
      simp only [hnone, Option.map_none]
      split
      · rfl
      · split
        · rfl
        · split <;> rfl
    · obtain rfl := Option.mem_unique hr hr'
      simp [hinact]

theorem Claimed.not_claimable (hclai : Claimed hashSecret props key a)
    {identity : SessionIdentity} {grant : QueryGrant} (hkey : grantKey identity grant = key)
    {authorizationId : String} {later : Nat}
    (hprops : props key = ⟨identity.clientId, authorizationId⟩) :
    (claimAuthorizationGrant hashSecret a.store identity grant authorizationId a.clock
      later).2 = false := by
  unfold claimAuthorizationGrant
  rcases hclai with (hspent | ⟨r, hr, _⟩) | ⟨r, hr⟩
  · have hnone := hspent.not_current (Nat.le_refl _)
    rw [hprops, ← hkey] at hnone
    simp only [grantKey] at hnone
    simp [hnone]
  all_goals
    rw [hkey]
    split
    · rfl
    · simp only [hr]

theorem ended_of_revoke {later : Nat}
    (h : (revokeDeviceGrant hashSecret a.store deviceId credential grantId a.clock later).2 =
      some subject) :
    Ended hashSecret props (subject, grantId) (authorityStep hashSecret tunnelOrigin a
      (.revokeGrant deviceId credential grantId later)) := by
  obtain ⟨r, r', _, _, hinact, hnew⟩ := revokeDeviceGrant_eq_some h
  refine .inr ⟨r', ?_, hinact⟩
  simp only [authorityStep, hnew, Table.put_same]

theorem ended_of_replay {identity : SessionIdentity} {grant : QueryGrant}
    {authorizationId : String} {later : Nat}
    (hcur : currentAuthorization hashSecret a.store grant.subject identity.clientId
      authorizationId a.clock)
    (hrec : (a.store.grants (grantKey identity grant)).isSome) :
    Ended hashSecret props (grantKey identity grant) (authorityStep hashSecret tunnelOrigin a
      (.claim identity grant authorizationId later)) := by
  obtain ⟨receipt, hrec⟩ := Option.isSome_iff_exists.mp hrec
  refine .inr ⟨{ receipt with active := false }, ?_, rfl⟩
  simp [authorityStep, claimAuthorizationGrant, hcur, hrec]

theorem ended_of_replace (hbound : Bound props a) {clientId authorizationId : String}
    {client : Option ClientDisplay} (hfresh : authorizationId ∉ a.authorized)
    (hr : a.store.grants key = some r)
    (hclien : clientKey hashSecret r.subject r.clientId = clientKey hashSecret subject clientId) :
    Ended hashSecret props key (authorityStep hashSecret tunnelOrigin a
      (.replace subject clientId authorizationId client)) := by
  obtain ⟨hkey, hprops, hmem⟩ := hbound.receipt key r hr
  have hsubj : r.subject = key.1 := congrArg Prod.fst hkey
  refine .inl ⟨?_, fun consent hconsent hid => ?_⟩
  · rw [hprops]
    exact List.mem_cons_of_mem _ hmem
  · rw [hprops, ← hsubj, hclien] at hconsent
    simp only [authorityStep, replaceClientAuthorization, Table.put_same,
      Option.some.injEq] at hconsent
    have hsame : authorizationId = r.authorizationId := by
      rw [← hconsent, hprops] at hid
      exact hid
    exact absurd (hsame ▸ hmem) hfresh

/-- What it means for one transaction to end the grant of `key`. -/
def Ends (hashSecret : String → String) (a b : Authority) (key : String × String) :
    AuthorityOp → Prop
  | .revokeGrant deviceId credential grantId later =>
    grantId = key.2 ∧
      (revokeDeviceGrant hashSecret a.store deviceId credential grantId a.clock later).2 =
        some key.1
  | .replace subject clientId _ _ =>
    ∃ r, a.store.grants key = some r ∧
      clientKey hashSecret r.subject r.clientId = clientKey hashSecret subject clientId
  | .claim identity grant authorizationId _ =>
    grantKey identity grant = key ∧ (a.store.grants key).isSome ∧
      currentAuthorization hashSecret a.store grant.subject identity.clientId authorizationId
        a.clock = true
  | _ => ∃ r, b.store.grants key = some r ∧ r.active = false

theorem ended_of_ends (h : AuthorityStep hashSecret tunnelOrigin props a op b)
    (hbound : Bound props a) (hends : Ends hashSecret a b key op) :
    Ended hashSecret props key b := by
  obtain ⟨hprom, rfl⟩ := h
  cases op with
  | revokeGrant deviceId credential grantId later =>
    obtain ⟨hid, hsubj⟩ := hends
    obtain ⟨subject, id⟩ := key
    obtain rfl : grantId = id := hid
    exact ended_of_revoke hsubj
  | replace =>
    obtain ⟨r, hr, hclien⟩ := hends
    exact ended_of_replace hbound hprom hr hclien
  | claim identity grant authorizationId later =>
    obtain ⟨rfl, hrec, hcur⟩ := hends
    exact ended_of_replay hcur hrec
  | _ => exact .inr hends

end LifeSteps

/-! ## Runs of the authority -/

section AuthorityRuns

variable {hashSecret : String → String} {tunnelOrigin : String → Option String}
  {props : String × String → GrantProps} {a b : Authority} {ops : List AuthorityOp}
  {key : String × String}

theorem bound_of_reaches
    (h : Reaches (AuthorityStep hashSecret tunnelOrigin props) .initial a) : Bound props a :=
  h.invariant (fun _ _ _ hbound hstep => bound_step hstep hbound) bound_initial

section

variable (h : Run (AuthorityStep hashSecret tunnelOrigin props) a ops b) (hbound : Bound props a)
include h hbound

theorem ended_of_run (hended : Ended hashSecret props key a) : Ended hashSecret props key b :=
  h.invariant_of (fun _ _ _ hbound hstep => bound_step hstep hbound)
    (fun _ _ _ hbound hended hstep => ended_step hstep hbound hended) hbound hended

theorem claimed_of_run (hclai : Claimed hashSecret props key a) :
    Claimed hashSecret props key b :=
  h.invariant_of (fun _ _ _ hbound hstep => bound_step hstep hbound)
    (fun _ _ _ hbound hclai hstep => claimed_step hstep hbound hclai) hbound hclai

theorem bound_of_run : Bound props b :=
  h.invariant (fun _ _ _ hbound hstep => bound_step hstep hbound) hbound

end

variable (tunnelOrigin) in
theorem claim_stores {identity : SessionIdentity} {grant : QueryGrant}
    {authorizationId : String} {later : Nat}
    (h : (claimAuthorizationGrant hashSecret a.store identity grant authorizationId a.clock
      later).2) : ∃ r, (authorityStep hashSecret tunnelOrigin a
      (.claim identity grant authorizationId later)).store.grants (grantKey identity grant) =
        some r := by
  simp only [authorityStep]
  unfold claimAuthorizationGrant at h ⊢
  split at h
  · cases h
  · next hcur =>
      rw [if_neg hcur]
      split at h
      · cases h
      · exact ⟨_, Table.put_same ..⟩

/-- Over every interleaving of the authority's transactions a grant id is claimed
successfully at most once, and after a transaction that revoked, replaced,
replayed or deactivated a grant that grant is active in no later state. -/
theorem grant_safety (h : Reaches (AuthorityStep hashSecret tunnelOrigin props) .initial a) :
    (∀ identity grant authorizationId later b, AuthorityStep hashSecret tunnelOrigin props a
        (.claim identity grant authorizationId later) b →
      (claimAuthorizationGrant hashSecret a.store identity grant authorizationId a.clock
        later).2 = true →
      ∀ ops c identity' grant' authorizationId' later',
        Run (AuthorityStep hashSecret tunnelOrigin props) b ops c →
        grantKey identity' grant' = grantKey identity grant →
        Promised props c (.claim identity' grant' authorizationId' later') →
        (claimAuthorizationGrant hashSecret c.store identity' grant' authorizationId' c.clock
          later').2 = false) ∧ ∀ key op b, AuthorityStep hashSecret tunnelOrigin props a op b →
      Ends hashSecret a b key op →
      ∀ ops c identity grant now later latest,
        Run (AuthorityStep hashSecret tunnelOrigin props) b ops c →
        grantKey identity grant = key → c.clock ≤ now → now ≤ later → later ≤ latest →
        authorizationGrantActive hashSecret c.store identity grant now later latest = false := by
  have hbound := bound_of_reaches h
  refine ⟨?_, ?_⟩
  · intro identity grant authorizationId later b hstep hclaim ops c identity' grant'
      authorizationId' later' hrun hkey hprom
    have hafter := bound_step hstep hbound
    obtain ⟨_, rfl⟩ := hstep
    obtain ⟨r, hr⟩ := claim_stores tunnelOrigin hclaim
    have hclai : Claimed hashSecret props (grantKey identity grant) c :=
      claimed_of_run hrun hafter (.inr ⟨r, hr⟩)
    exact hclai.not_claimable hkey (hkey ▸ hprom.2)
  · intro key op b hstep hends ops c identity grant now later latest hrun hkey hnow hlater
      hlatest
    have hafter := bound_step hstep hbound
    have hended := ended_of_run hrun hafter (ended_of_ends hstep hbound hends)
    exact hended.not_active (bound_of_run hrun hafter) hkey
      (Nat.le_trans hnow (Nat.le_trans hlater hlatest))

end AuthorityRuns

/-- One device, one consent and one claim: the claim cannot be repeated, and after
the device revoked the grant no request is let through by it. -/
theorem grant_safety_revoked : let id := "dddddddddddddddddddddddddddddddd"
    let token := "tttttttttttttttttttttttttttttttt"
    let backend := "bbbbbbbbbbbbbbbbbbbbbbbbbbbbbbbb"
    let identity : SessionIdentity := ⟨"gggggggggggggggg", "client"⟩
    let grant : QueryGrant := ⟨id, id, "work", 0⟩
    let apply := authorityStep tokenDigest some
    let consented := apply (apply .initial (.device (.enroll
      ⟨⟨backend, "work"⟩, "https://a.trycloudflare.com"⟩ true id token 0)))
      (.replace id "client" "authorization" none)
    let claimed := apply consented (.claim identity grant "authorization" 0)
    let revoked := apply claimed (.revokeGrant id token "gggggggggggggggg" 0)
    authorizationGrantActive tokenDigest claimed.store identity grant 1 1 1 = true ∧
      (claimAuthorizationGrant tokenDigest claimed.store identity grant "authorization" 0 0).2 =
        false ∧
      ∀ now, authorizationGrantActive tokenDigest revoked.store identity grant now now now =
        false := by
  intro id token backend identity grant apply consented claimed revoked
  let props : String × String → GrantProps := fun _ => ⟨"client", "authorization"⟩
  let enroll : AuthorityOp := .device (.enroll
    ⟨⟨backend, "work"⟩, "https://a.trycloudflare.com"⟩ true id token 0)
  let consent : AuthorityOp := .replace id "client" "authorization" none
  have henr : AuthorityStep tokenDigest some props .initial enroll (apply .initial enroll) :=
    ⟨trivial, rfl⟩
  have hconsent : AuthorityStep tokenDigest some props (apply .initial enroll) consent
      consented := ⟨List.not_mem_nil, rfl⟩
  have hcons : Reaches (AuthorityStep tokenDigest some props) .initial consented :=
    ⟨_, .cons henr (.single hconsent)⟩
  have hclaim : AuthorityStep tokenDigest some props consented
      (.claim identity grant "authorization" 0) claimed := ⟨⟨Nat.le_refl _, rfl⟩, rfl⟩
  have hrev : AuthorityStep tokenDigest some props claimed
      (.revokeGrant id token "gggggggggggggggg" 0) revoked := ⟨Nat.le_refl _, rfl⟩
  have hclai : Reaches (AuthorityStep tokenDigest some props) .initial claimed :=
    hcons.trans ⟨_, .single hclaim⟩
  refine ⟨by decide, ?_, fun now => ?_⟩
  · exact (grant_safety hcons).1 identity grant "authorization" 0 claimed hclaim
      (by decide) [] claimed identity grant "authorization" 0 (.refl _) rfl
      ⟨Nat.le_refl _, rfl⟩
  · exact (grant_safety hclai).2 (id, "gggggggggggggggg") _ revoked hrev
      ⟨rfl, by decide⟩ [] revoked identity grant now now now (.refl _) rfl
      (Nat.zero_le _) (Nat.le_refl _) (Nat.le_refl _)

end Wenlan.Relay
