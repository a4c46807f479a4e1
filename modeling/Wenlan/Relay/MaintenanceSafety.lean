import Wenlan.Relay.Maintenance
import Wenlan.Relay.RequestSafety

/-!
# Safe and complete maintenance

What every run of the authority keeps: enabled routes have enabled devices, receipts are owned by
what they were granted for, and the lease of a receipt is that of the last cleanup handed out for it.
-/

namespace Wenlan.Relay

open Support.KeysetScan (after_perm ahead_none)
open Support.Transition Table List Option

section Invariants

variable {hashSecret : String → String} {tunnelOrigin : String → Option String}

def RouteOwned (store : Store) (id : String) : Prop :=
  ∀ route, store.routes id = some route → route.enabled = true →
    ∃ device, store.devices id = some device ∧ device.enabled = true ∧
      device.pendingReverse = none ∧ device.subject = route.subject

variable {s t : Store}

theorem RouteOwned.congr {id : String} (h : RouteOwned s id)
    (hdev : t.devices id = s.devices id) (hroute : t.routes id = s.routes id) :
    RouteOwned t id := by
  unfold RouteOwned
  rw [hdev, hroute]
  exact h

theorem routeOwned_enroll {store : Store} (candidate : ConnectorCandidate) (verified : Bool)
    (target token : String) (now : Nat) {id : String} (h : RouteOwned store id) :
    RouteOwned (enrollDevice hashSecret store candidate verified target token now).1 id := by
  unfold enrollDevice
  split_ifs
  · exact h
  · exact h
  · by_cases hid : id = target
    · subst hid
      intro route hroute henabled
      obtain rfl := some.inj ((put_same ..).symm.trans hroute)
      exact ⟨_, put_same .., rfl, rfl, rfl⟩
    · exact h.congr (put_other _ _ hid) (put_other _ _ hid)

theorem routeOwned_prepare {store : Store} (candidate : ConnectorContract)
    (target token : String) (now : Nat) {id : String} (h : RouteOwned store id) :
    RouteOwned (prepareReverseDevice hashSecret store candidate target token now).1 id := by
  unfold prepareReverseDevice
  split_ifs with hvalid hknown
  · exact h
  · exact h
  · by_cases hid : id = target
    · subst hid
      intro route hroute henabled
      simp only [Bool.or_eq_true, not_or, Bool.not_eq_true, isSome_eq_false_iff,
        isNone_iff_eq_none] at hknown
      rw [hknown.2] at hroute
      cases hroute
    · exact h.congr (put_other _ _ hid) rfl

theorem routeOwned_device (store : Store) (op : DeviceOp) (id : String)
    (h : RouteOwned store id) : RouteOwned (deviceStep hashSecret tunnelOrigin store op) id := by
  have hchang : DeviceChange op store (deviceStep hashSecret tunnelOrigin store op) id :=
    deviceStep_change store op id
  cases hchang with
  | unchanged hdev hroute => exact h.congr hdev hroute
  | registered hop hdev hroute =>
    cases op with
    | enroll => exact routeOwned_enroll _ _ _ _ _ h
    | prepareReverse => exact routeOwned_prepare _ _ _ _ h
    | refresh | rotate | revoke | commitActivation => cases hop
  | refreshed device route candidate expiresAt hdev hroute _ hdev' hroute' =>
    intro found hfound henabled
    obtain rfl := mem_unique hroute' hfound
    obtain ⟨owner, howner, hlive, hpend, hsubj⟩ := h route hroute henabled
    obtain rfl := mem_unique hdev howner
    exact ⟨_, hdev', hlive, hpend, hsubj⟩
  | rotated device route credentialHash expiresAt hdev hroute _ hdev' hroute' =>
    intro found hfound henabled
    obtain rfl := mem_unique hroute' hfound
    obtain ⟨owner, howner, hlive, hpend, hsubj⟩ := h route hroute henabled
    obtain rfl := mem_unique hdev howner
    exact ⟨_, hdev', hlive, hpend, hsubj⟩
  | revoked device hdev hdev' hroute' =>
    intro found hfound henabled
    obtain ⟨route, -, rfl⟩ := map_eq_some_iff.mp (hroute'.symm.trans hfound)
    cases henabled
  | activated current connectionId later hdev hroute hcontract husable hdev' hroute' =>
    intro found hfound henabled
    obtain rfl := mem_unique hroute' hfound
    exact ⟨_, hdev', rfl, rfl, rfl⟩

theorem routeOwned_spares {old current : Store} {now : Nat}
    (hspar : Spares hashSecret old now current) {id : String} (h : RouteOwned old id) :
    RouteOwned current id := by
  intro route hroute henabled
  rcases hspar.route id with hsame | hnone
  · rcases hspar.device id with hdev | ⟨-, hnoR⟩
    · exact h.congr hdev hsame route hroute henabled
    · rw [hnoR] at hroute
      cases hroute
  · rw [hnone] at hroute
    cases hroute

/-! ## Receipts -/

/-- What transactions leave as it is in a receipt: whose it is, and the last lease it was given. -/
structure ReceiptBinding where
  subject : String
  owner : String
  text : String
  lease : Option String

def GrantReceipt.bound (receipt : GrantReceipt) : ReceiptBinding where
  subject := receipt.subject
  owner := receipt.owner
  text := receipt.ownerText
  lease := receipt.cleanupLease

/-- The receipts of `t` are ones of `s`, up to what transactions change in them. -/
def Rebinds (s t : Store) : Prop :=
  ∀ key receipt, t.grants key = some receipt →
    ∃ before, s.grants key = some before ∧ receipt.bound = before.bound

theorem Rebinds.of_eq (h : t.grants = s.grants) : Rebinds s t := by
  intro key receipt hrec
  rw [h] at hrec
  exact ⟨receipt, hrec, rfl⟩

theorem Rebinds.of_put {key : String × String} {before after : GrantReceipt}
    (hbef : s.grants key = some before) (hput : t.grants = s.grants.put key after)
    (hbound : after.bound = before.bound) : Rebinds s t := by
  intro other receipt hrec
  rw [hput] at hrec
  by_cases hother : other = key
  · subst hother
    obtain rfl := some.inj ((put_same ..).symm.trans hrec)
    exact ⟨before, hbef, hbound⟩
  · rw [put_other _ _ hother] at hrec
    exact ⟨receipt, hrec, rfl⟩

theorem touch_rebinds (store : Store) (identity : SessionIdentity) (grant : QueryGrant)
    (now : Nat) : Rebinds store (touchGrant hashSecret store identity grant now).1 := by
  unfold touchGrant
  split
  · exact .of_eq rfl
  · next receipt hrec =>
      split_ifs
      · exact .of_eq rfl
      · exact .of_eq rfl
      · exact .of_put hrec rfl rfl

theorem revokeGrant_rebinds (store : Store) (deviceId credential grantId : String)
    (now later : Nat) :
    Rebinds store (revokeDeviceGrant hashSecret store deviceId credential grantId now later).1 := by
  unfold revokeDeviceGrant
  split
  · exact .of_eq rfl
  · split
    · exact .of_eq rfl
    · simp only []
      split
      · exact .of_eq rfl
      · next receipt hrec =>
          split
          · exact .of_eq rfl
          · exact .of_put hrec rfl rfl

theorem finishRevocation_rebinds (store : Store) (subject grantId : String) :
    Rebinds store (finishGrantRevocation store subject grantId) := by
  unfold finishGrantRevocation
  split
  · exact .of_eq rfl
  · next receipt hrec =>
      split
      · exact .of_eq rfl
      · exact .of_put hrec rfl rfl

theorem recordCleanup_rebinds (store : Store) (job : CleanupJob) (outcome : CleanupOutcome)
    (now : Nat) : Rebinds store (recordCleanup store job outcome now) := by
  unfold recordCleanup
  split
  · exact .of_eq rfl
  · next receipt hrec =>
      split
      · exact .of_eq rfl
      · exact .of_put hrec rfl rfl

theorem claim_receipts {store : Store} {identity : SessionIdentity} {grant : QueryGrant}
    {authorizationId : String} {now later : Nat} {key : String × String} {receipt : GrantReceipt}
    (h : (claimAuthorizationGrant hashSecret store identity grant authorizationId now
      later).1.grants key = some receipt) :
    (∃ before, store.grants key = some before ∧ receipt.bound = before.bound) ∨
      receipt.bound = ⟨key.1, grantOwner hashSecret identity grant,
        ownerText identity.clientId grant.connectorId grant.space grant.generation, none⟩ := by
  unfold claimAuthorizationGrant at h
  split at h
  · exact .inl ⟨receipt, h, rfl⟩
  · split at h
    · next existing hexisting =>
        have hbinds : Rebinds store { store with
            grants := store.grants.put (grantKey identity grant)
              { existing with active := false } } := .of_put hexisting rfl rfl
        exact .inl (hbinds key receipt h)
    · next hnone =>
        by_cases hkey : key = grantKey identity grant
        · subst hkey
          obtain rfl := some.inj ((put_same ..).symm.trans h)
          exact .inr rfl
        · exact .inl ⟨receipt, (put_other _ _ hkey).symm.trans h, rfl⟩

variable {op : AuthorityOp}

theorem authorityStep_receipts {a : Authority}
    (hop : ∀ page now lease, op ≠ .sweep page now lease) {key : String × String}
    {receipt : GrantReceipt}
    (h : (authorityStep hashSecret tunnelOrigin a op).store.grants key = some receipt) :
    (∃ before, a.store.grants key = some before ∧ receipt.bound = before.bound) ∨
      ∃ text ∈ op.digested, receipt.bound = ⟨key.1, hashSecret text, text, none⟩ := by
  cases op with
  | tick | replace => exact .inl ⟨receipt, h, rfl⟩
  | device op =>
    obtain ⟨devices, routes, hframe⟩ := deviceStep_frame hashSecret tunnelOrigin a.store op
    simp only [authorityStep, hframe] at h
    exact .inl ⟨receipt, h, rfl⟩
  | claim identity grant authorizationId later =>
    exact (claim_receipts h).imp id fun hbound => ⟨_, mem_singleton_self _, hbound⟩
  | touch identity grant now => exact .inl (touch_rebinds a.store identity grant now key receipt h)
  | revokeGrant deviceId credential grantId later =>
    exact .inl (revokeGrant_rebinds a.store deviceId credential grantId a.clock later key
      receipt h)
  | finishRevocation subject grantId =>
    exact .inl (finishRevocation_rebinds a.store subject grantId key receipt h)
  | sweep page now lease => exact absurd rfl (hop page now lease)
  | recordCleanup job outcome now =>
    exact .inl (recordCleanup_rebinds a.store job outcome now key receipt h)

/-! ## Leases -/

/-- The lease of a receipt once a pass has handed out `job`. -/
def leaseAfter (job : Option CleanupJob) (key : String × String) (lease : Option String) :
    Option String :=
  match job with
  | some job => if job.key = key then some job.lease else lease
  | none => lease

/-- Receipts part of the way through a sweep of `old`, once the records `swept` are done. -/
structure LeasesSwept (old : Store) (lease : String) (swept : List StoreKey)
    (acc : Store × Option CleanupJob) : Prop where
  receipts : ∀ key receipt, acc.1.grants key = some receipt →
    ∃ before, old.grants key = some before ∧ receipt.bound =
      { before.bound with lease := leaseAfter acc.2 key before.cleanupLease }
  job : ∀ job, acc.2 = some job → job.lease = lease ∧ .grant job.key.1 job.key.2 ∈ swept

theorem LeasesSwept.skip {old : Store} {lease : String} {swept : List StoreKey}
    {acc acc' : Store × Option CleanupJob} (h : LeasesSwept old lease swept acc) (key : StoreKey)
    (hgrant : acc'.1.grants = acc.1.grants) (hjob : acc'.2 = acc.2) :
    LeasesSwept old lease (key :: swept) acc' where
  receipts := by
    rw [hgrant, hjob]
    exact h.receipts
  job job hsome := by
    rw [hjob] at hsome
    exact (h.job job hsome).imp id (mem_cons_of_mem _)

section

variable {old : Store} {lease : String} {swept : List StoreKey} {acc : Store × Option CleanupJob}
  (h : LeasesSwept old lease swept acc)
include h

theorem LeasesSwept.grant {key : String × String} {listed : GrantReceipt} {now : Nat}
    (hfresh : StoreKey.grant key.1 key.2 ∉ swept) (hlist : old.grants key = some listed) :
    LeasesSwept old lease (.grant key.1 key.2 :: swept)
      (sweepGrant hashSecret acc.1 acc.2 key listed now lease) := by
  have hother : ∀ job, acc.2 = some job → job.key ≠ key := by
    rintro job hjob rfl
    exact hfresh (h.job job hjob).2
  have hkept : leaseAfter acc.2 key listed.cleanupLease = listed.cleanupLease := by
    cases hjob : acc.2 with
    | none => rfl
    | some job => exact if_neg (hother job hjob)
  have hcases := sweepGrant_cases hashSecret acc.1 acc.2 key listed now lease
  generalize sweepGrant hashSecret acc.1 acc.2 key listed now lease = result at hcases
  cases hcases with
  | kept => exact h.skip _ rfl rfl
  | denied =>
    refine ⟨fun other receipt hrec => ?_, fun job hjob => ?_⟩
    · by_cases hsame : other = key
      · subst hsame
        obtain rfl := some.inj ((put_same ..).symm.trans hrec)
        exact ⟨listed, hlist, by rw [hkept]; rfl⟩
      · exact h.receipts other receipt ((put_other _ _ hsame).symm.trans hrec)
    · exact (h.job job hjob).imp id (mem_cons_of_mem _)
  | deleted =>
    refine ⟨fun other receipt hrec => ?_, fun job hjob => ?_⟩
    · by_cases hsame : other = key
      · subst hsame
        cases (delete_same ..).symm.trans hrec
      · exact h.receipts other receipt ((delete_other _ hsame).symm.trans hrec)
    · exact (h.job job hjob).imp id (mem_cons_of_mem _)
  | leased leased hleas hinactive hnone =>
    refine ⟨fun other receipt hrec => ?_, fun job hjob => ?_⟩
    · by_cases hsame : other = key
      · subst hsame
        obtain rfl := some.inj ((put_same ..).symm.trans hrec)
        refine ⟨listed, hlist, ?_⟩
        rw [leaseAfter, if_pos rfl]
        rcases hleas with rfl | rfl
        · rfl
        · rfl
      · obtain ⟨before, hbef, hbound⟩ :=
          h.receipts other receipt ((put_other _ _ hsame).symm.trans hrec)
        refine ⟨before, hbef, ?_⟩
        rw [hbound, hnone, leaseAfter, leaseAfter, if_neg fun heq => hsame heq.symm]
    · cases hjob
      exact ⟨rfl, mem_cons_self⟩

theorem LeasesSwept.entry {key : StoreKey} (now : Nat) (hfresh : key ∉ swept) :
    LeasesSwept old lease (key :: swept) (sweepEntry hashSecret old now lease acc key) := by
  unfold sweepEntry
  cases key with
  | pairing | pairingCode | lookupMiss | authorizationPairing | oauthRequest | client =>
    exact h.skip _ rfl rfl
  | device | connector | sessionOwner | session =>
    simp only []
    split
    · exact h.skip _ rfl rfl
    · split
      all_goals exact h.skip _ rfl rfl
  | grant subject id =>
    simp only []
    split
    · exact h.skip _ rfl rfl
    · next listed hlist => exact h.grant hfresh hlist

end

variable (hashSecret) in
theorem sweepPage_leases (old : Store) {records : List StoreKey} (hdist : records.Nodup)
    (now : Nat) (lease : String) :
    ∃ swept, LeasesSwept old lease swept (sweepPage hashSecret old records now lease) := by
  have hstart : LeasesSwept old lease [] (old, none) :=
    ⟨fun key receipt hrec => ⟨receipt, hrec, rfl⟩, fun job hjob => by cases hjob⟩
  suffices hfold : ∀ (swept : List StoreKey) (acc : Store × Option CleanupJob),
      LeasesSwept old lease swept acc → (∀ key ∈ records, key ∉ swept) →
      ∃ swept', LeasesSwept old lease swept'
        (records.foldl (sweepEntry hashSecret old now lease) acc) from
    hfold [] _ hstart fun key _ => not_mem_nil
  induction records with
  | nil => exact fun swept acc h _ => ⟨swept, h⟩
  | cons key records ih =>
    intro swept acc h hfresh
    rw [nodup_cons] at hdist
    rw [forall_mem_cons] at hfresh
    apply ih hdist.2 _ _ (h.entry now hfresh.1)
    intro other hother hmem
    rcases mem_cons.mp hmem with rfl | hmem
    · exact hdist.1 hother
    · exact hfresh.2 other hother hmem

/-! ## Runs -/

/-- A receipt lies under its subject, is owned by a text that was digested, and has the lease of
the last cleanup that was handed out for it. -/
structure Maintained.Binds (hashSecret : String → String) (m : Maintained) (key : String × String)
    (binding : ReceiptBinding) : Prop where
  subject : binding.subject = key.1
  owner : binding.owner = hashSecret binding.text
  text : binding.text ∈ m.digested
  lease : ∀ lease, binding.lease = some lease →
    ∃ job, m.jobs.find? (fun job => job.key = key) = some job ∧ job.lease = lease

structure Maintained.Kept (hashSecret : String → String) (m : Maintained) : Prop where
  routes : ∀ id, RouteOwned m.store id
  receipts : ∀ key receipt, m.store.grants key = some receipt → m.Binds hashSecret key receipt.bound
  distinct : (m.jobs.map CleanupJob.lease).Nodup

theorem Maintained.Kept.consistent {m : Maintained} (h : m.Kept hashSecret) :
    Consistent hashSecret m.digested m.store where
  routes id := h.routes id
  receipts key receipt hrec := by
    have hbinds := h.receipts key receipt hrec
    exact ⟨hbinds.subject, hbinds.owner, hbinds.text⟩

theorem kept_initial : Maintained.initial.Kept hashSecret where
  routes _ route hroute := by cases hroute
  receipts _ receipt hrec := by cases hrec
  distinct := nodup_nil

theorem routeOwned_authority (a : Authority) (op : AuthorityOp)
    (hop : ∀ page now lease, op ≠ .sweep page now lease) (id : String) (h : RouteOwned a.store id) :
    RouteOwned (authorityStep hashSecret tunnelOrigin a op).store id := by
  have hgrant : ∀ {store : Store}, (∃ grants, store = { a.store with grants }) →
      RouteOwned store id := by
    rintro store ⟨grants, rfl⟩
    exact h.congr rfl rfl
  cases op with
  | tick | replace => exact h.congr rfl rfl
  | device op => exact routeOwned_device a.store op id h
  | claim => exact hgrant (claim_frame ..)
  | touch => exact hgrant (touch_frame ..)
  | revokeGrant => exact hgrant (revokeGrant_frame ..)
  | finishRevocation => exact hgrant (finishRevocation_frame ..)
  | sweep page now lease => exact absurd rfl (hop page now lease)
  | recordCleanup => exact hgrant (recordCleanup_frame ..)

variable {limit : Nat} {m : Maintained}

theorem Maintained.Kept.setStore (h : m.Kept hashSecret) {store : Store}
    (hrout : ∀ id, RouteOwned store id) (hreb : Rebinds m.store store) :
    (m.setStore store).Kept hashSecret where
  routes := hrout
  receipts key receipt hrec := by
    obtain ⟨before, hbef, hbound⟩ := hreb key receipt hrec
    have hbinds := h.receipts key before hbef
    rw [← hbound] at hbinds
    exact ⟨hbinds.subject, hbinds.owner, hbinds.text, hbinds.lease⟩
  distinct := h.distinct

theorem kept_transaction (h : m.Kept hashSecret)
    (hop : ∀ page now lease, op ≠ .sweep page now lease) :
    (maintenanceStep hashSecret tunnelOrigin limit m (.transaction op)).Kept hashSecret where
  routes id := routeOwned_authority m.authority op hop id (h.routes id)
  receipts key receipt hrec := by
    rcases authorityStep_receipts hop hrec with ⟨before, hbef, hbound⟩ |
      ⟨text, htext, hbound⟩
    · have hbinds := h.receipts key before hbef
      rw [hbound]
      exact ⟨hbinds.subject, hbinds.owner, mem_append_right _ hbinds.text, hbinds.lease⟩
    · rw [hbound]
      exact ⟨rfl, rfl, mem_append_left _ htext, fun lease hlease => by cases hlease⟩
  distinct := h.distinct

theorem kept_maintain (h : m.Kept hashSecret) {keys : List String} (hkeys : Keys m.store keys)
    (now : Nat) {lease : String} (hlease : ∀ job ∈ m.jobs, job.lease ≠ lease) :
    (maintainAuthority hashSecret limit m keys now lease).1.Kept hashSecret := by
  have hdist : (listedRecords limit m keys).Nodup := by
    apply List.Nodup.filterMap
    · intro key key' record hkey hkey'
      exact recordKey_inj hkey hkey'
    · exact ((after_perm _ _).nodup_iff.mpr (hkeys.distinct.filter _)).sublist
        (take_sublist _ _)
  obtain ⟨swept, hswept⟩ := sweepPage_leases hashSecret m.store hdist now lease
  have hspar := sweepPage_spares hashSecret m.store (listedRecords limit m keys) now lease
  refine ⟨fun id => routeOwned_spares hspar (h.routes id), fun key receipt hrec => ?_, ?_⟩
  · obtain ⟨before, hbef, hbound⟩ := hswept.receipts key receipt hrec
    have hbinds := h.receipts key before hbef
    rw [hbound]
    refine ⟨hbinds.subject, hbinds.owner, hbinds.text, fun found hfound => ?_⟩
    simp only [maintainAuthority]
    cases hjob : (sweepPage hashSecret m.store (listedRecords limit m keys) now lease).2 with
    | none =>
      simp only [hjob, leaseAfter] at hfound
      exact hbinds.lease found hfound
    | some job =>
      simp only [hjob, leaseAfter] at hfound
      simp only [toList_some, singleton_append]
      split_ifs at hfound with hkey
      · refine ⟨job, ?_, some.inj hfound⟩
        simp only [find?_cons, hkey, decide_true]
      · simp only [find?_cons, hkey, decide_false]
        exact hbinds.lease found hfound
  · simp only [maintainAuthority]
    cases hjob : (sweepPage hashSecret m.store (listedRecords limit m keys) now lease).2 with
    | none => exact h.distinct
    | some job =>
      rw [toList_some, singleton_append, map_cons, nodup_cons]
      refine ⟨fun hmem => ?_, h.distinct⟩
      obtain ⟨earlier, hearl, hsame⟩ := mem_map.mp hmem
      exact hlease earlier hearl (hsame.trans (hswept.job job hjob).1)

theorem kept_step {op : MaintenanceOp} {next : Maintained} (h : m.Kept hashSecret)
    (hstep : MaintenanceStep hashSecret tunnelOrigin limit m op next) : next.Kept hashSecret := by
  obtain ⟨hadm, rfl⟩ := hstep
  cases op with
  | transaction op =>
    apply kept_transaction h
    rintro page now lease rfl
    exact hadm
  | elsewhere store =>
    apply h.setStore
    · exact fun id => (h.routes id).congr (congrFun hadm.1 id) (congrFun hadm.2.1 id)
    · exact .of_eq hadm.2.2
  | maintain keys now lease => exact kept_maintain h hadm.1 now hadm.2
  | record job outcome now =>
    apply h.setStore
    · have hspar : Spares hashSecret m.store now (recordCleanup m.store job outcome now) :=
        recordCleanup_spares m.store now job outcome now
      exact fun id => routeOwned_spares hspar (h.routes id)
    · exact recordCleanup_rebinds m.store job outcome now

theorem kept_of_reaches (h : Reaches (MaintenanceStep hashSecret tunnelOrigin limit) .initial m) :
    m.Kept hashSecret :=
  h.invariant (fun _ _ _ hkept hstep => kept_step hkept hstep) kept_initial

theorem recorded_by_last (h : m.Kept hashSecret) {job : CleanupJob} (hjob : job ∈ m.jobs)
    {outcome : CleanupOutcome} {now : Nat}
    (hwrit : recordCleanup m.store job outcome now ≠ m.store) :
    m.jobs.find? (fun other => other.key = job.key) = some job := by
  unfold recordCleanup at hwrit
  split at hwrit
  · exact absurd rfl hwrit
  · next receipt hrec =>
      split at hwrit
      · exact absurd rfl hwrit
      · next hheld =>
          simp only [Bool.or_eq_true, not_or, bne_iff_ne, Decidable.not_not] at hheld
          obtain ⟨last, hlast, hlease⟩ :=
            (h.receipts job.key receipt hrec).lease job.lease hheld.1.2
          -- Leases are drawn once, so the last job with this lease is the one of the result.
          rw [hlast, inj_on_of_nodup_map h.distinct (mem_of_find?_eq_some hlast) hjob hlease]

/-- Maintenance is safe and complete on every run of the authority: what was authorized before
either of its transactions is so after it, a full sweep examines once what is there throughout, and
the result of a cleanup is written for the last lease of its receipt alone. -/
theorem authority_maintenance (hlimit : 0 < limit)
    (h : Reaches (MaintenanceStep hashSecret tunnelOrigin limit) .initial m) :
    (∀ request now, CollisionFree hashSecret (request.digested ++ m.digested) →
      request.deviceLive m.store now = true →
      authorized hashSecret tunnelOrigin m.store now request = true →
      (∀ keys lease, authorized hashSecret tunnelOrigin
        (maintainAuthority hashSecret limit m keys now lease).1.store now request = true) ∧
      ∀ job outcome later, authorized hashSecret tunnelOrigin
        (recordCleanup m.store job outcome later) now request = true) ∧
    (∀ ops key record, startAfter m.cursor = none → recordKey key = some record →
      FullSweep hashSecret tunnelOrigin limit m ops →
      PresentThroughout hashSecret tunnelOrigin limit record m ops →
      (examined hashSecret tunnelOrigin limit m ops).count record = 1) ∧
    ∀ job outcome now, job ∈ m.jobs → recordCleanup m.store job outcome now ≠ m.store →
      m.jobs.find? (fun other => other.key = job.key) = some job := by
  have hkept := kept_of_reaches h
  refine ⟨fun request now hcol hlive hauthorized => ⟨fun keys lease => ?_,
    fun job outcome later => ?_⟩, fun ops key record hstart hrecord hsweep hpresent => ?_,
    fun job outcome now hjob hwrit => ?_⟩
  · exact authorized_of_spares (sweepPage_spares hashSecret m.store _ now lease) hkept.consistent
      hcol hlive hauthorized
  · exact authorized_of_spares (recordCleanup_spares m.store now job outcome later)
      hkept.consistent hcol hlive hauthorized
  · rw [count_examined hlimit hrecord hsweep hpresent, hstart, ahead_none]
  · exact recorded_by_last hkept hjob hwrit

end Invariants

/-! ## A device at the end of its credential -/

namespace LastDay

def device : String := "dddddddddddddddddddddddddddddddd"

def token : String := "tttttttttttttttttttttttttttttttt"

def authorizationId : String := "aaaaaaaaaaaaaaaaaaaaaaaaaaaaaaaa"

def candidate : ConnectorCandidate :=
  ⟨⟨"bbbbbbbbbbbbbbbbbbbbbbbbbbbbbbbb", "work"⟩, "https://a.trycloudflare.com"⟩

def identity : SessionIdentity := ⟨"gggggggggggggggg", "client"⟩

def grant : QueryGrant := ⟨device, device, "work", 0⟩

def exchange (grantType : GrantType) : Request :=
  .exchange grantType ["wenlan:query"] identity grant authorizationId

/-- The records of the enrolled device; its route is good until `routeEnd`. -/
def enrolled (routeEnd : Nat) : Owned where
  device := ⟨device, device, tokenDigest token, true, credentialTtlMs, 0, none⟩
  route := ⟨device, device, "work", 0, true, routeEnd, some candidate.tunnelOrigin, none,
    candidate.backendToken⟩

def enroll : MaintenanceOp := .transaction (.device (.enroll candidate true device token 0))

def consent : MaintenanceOp := .transaction (.replace device "client" authorizationId none)

def claim : MaintenanceOp := .transaction (.claim identity grant authorizationId 0)

/-- The device renews its route in the last moment of its credential. -/
def renew : MaintenanceOp :=
  .transaction (.device (.refresh device token candidate none (enrolled routeTtlMs) true
    (credentialTtlMs - 1) (credentialTtlMs - 1)))

def wait : MaintenanceOp := .transaction (.tick (credentialTtlMs - 1))

def after (ops : List MaintenanceOp) : Maintained :=
  ops.foldl (maintenanceStep tokenDigest some pageSize) .initial

end LastDay

open LastDay in
/-- A claimed grant is refreshed before and after any pass. -/
theorem authority_maintenance_claimed :
    authorized tokenDigest some (after [enroll, consent, claim]).store 1
      (exchange .refreshToken) = true ∧ ∀ keys lease, authorized tokenDigest some
      (maintainAuthority tokenDigest pageSize (after [enroll, consent, claim]) keys 1
        lease).1.store 1 (exchange .refreshToken) = true := by
  have hreach : Reaches (MaintenanceStep tokenDigest some pageSize) .initial
      (after [enroll, consent, claim]) :=
    ⟨[enroll, consent, claim], .cons ⟨trivial, rfl⟩ (.cons ⟨trivial, rfl⟩ (.single ⟨trivial, rfl⟩))⟩
  have hcol : CollisionFree tokenDigest ((exchange .refreshToken).digested ++
      (after [enroll, consent, claim]).digested) := by
    have htexts : (exchange .refreshToken).digested ++ (after [enroll, consent, claim]).digested =
        List.replicate 2 (ownerText "client" device "work" 0) := rfl
    intro text htext text' htext' _
    rw [htexts] at htext htext'
    rw [List.eq_of_mem_replicate htext, List.eq_of_mem_replicate htext']
  have hbef : authorized tokenDigest some (after [enroll, consent, claim]).store 1
      (exchange .refreshToken) = true := by decide
  refine ⟨hbef, fun keys lease => ?_⟩
  exact ((authority_maintenance (by decide) hreach).1 (exchange .refreshToken) 1 hcol rfl
    hbef).1 keys lease

namespace LastDay

def records : List StoreKey := [.connector device, .device device, .client device "client"]

theorem keys_after :
    Keys (after [enroll, renew, wait, consent]).store (records.map StoreKey.text) := by
  have hdevic : (after [enroll, renew, wait, consent]).store.devices =
      put (put (fun _ => none) device (enrolled 0).device) device
        { (enrolled 0).device with revision := 1 } := rfl
  have hrout : (after [enroll, renew, wait, consent]).store.routes =
      put (put (fun _ => none) device (enrolled routeTtlMs).route) device
        (enrolled (credentialTtlMs - 1 + routeTtlMs)).route := rfl
  have hclis : (after [enroll, renew, wait, consent]).store.clients =
      put (fun _ => none) (device, "client")
        ⟨authorizationId, credentialTtlMs - 1 + maxGrantMs, none⟩ := rfl
  apply keys_of_records
  · decide
  · decide
  · intro record
    cases record with
    | device id =>
      by_cases hid : id = device
      · subst hid
        decide
      · simp [Store.has, hdevic, put, records, hid]
    | connector id =>
      by_cases hid : id = device
      · subst hid
        decide
      · simp [Store.has, hrout, put, records, hid]
    | client subject digest =>
      by_cases hkey : (subject, digest) = (device, "client")
      · obtain ⟨rfl, rfl⟩ := Prod.mk.inj hkey
        decide
      · have hne : StoreKey.client subject digest ∉ records := by
          intro hmem
          simp only [records, mem_cons, reduceCtorEq, not_mem_nil, or_false, false_or,
            StoreKey.client.injEq] at hmem
          exact hkey (Prod.ext hmem.1 hmem.2)
        simp [Store.has, hclis, put, hkey, hne]
    | grant | pairing | pairingCode | authorizationPairing | lookupMiss | oauthRequest | session
    | sessionOwner =>
      constructor
      · intro hhas
        cases hhas
      · intro hmem
        simp [records] at hmem

end LastDay

open LastDay in
/-- A code is exchanged on a live route with a current consent, until a pass takes the route away
with the device, whose credential is over. -/
theorem code_exchange_lost :
    ∃ m keys lease, Reaches (MaintenanceStep tokenDigest some pageSize) .initial m ∧
      Keys m.store keys ∧
      authorized tokenDigest some m.store credentialTtlMs (exchange .authorizationCode) = true ∧
      authorized tokenDigest some
        (maintainAuthority tokenDigest pageSize m keys credentialTtlMs lease).1.store
        credentialTtlMs (exchange .authorizationCode) = false := by
  refine ⟨after [enroll, renew, wait, consent], records.map StoreKey.text, "lease",
    ⟨[enroll, renew, wait, consent], ?_⟩, keys_after, by decide, by decide⟩
  exact .cons ⟨trivial, rfl⟩ (.cons ⟨trivial, rfl⟩ (.cons ⟨trivial, rfl⟩ (.single ⟨trivial, rfl⟩)))

end Wenlan.Relay
