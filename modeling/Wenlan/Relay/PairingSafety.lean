import Wenlan.Relay.Pairing
import Wenlan.Relay.Grants
import Wenlan.Relay.DeviceFence

/-!
# The pairing state machine

Pairing operations, device operations and maintenance sweeps in any order, on a
clock that never goes back.  The system keeps a history next to the store: the
secret each pairing was begun with, the route its approval saw, and the times of
each device's missed lookups.  Drawing a pairing id that was drawn before is
excluded, since ids are random secrets.
-/

namespace Wenlan.Relay

open Support.Transition Table

/-- The fixed window that a list of miss times, newest first, has open last: when
it began and how many misses fell into it. -/
def missWindow : List Nat → Option (Nat × Nat)
  | [] => none
  | time :: earlier =>
    match missWindow earlier with
    | none => some (time, 1)
    | some (start, count) =>
      if time < start + lookupMissWindowMs then some (start, count + 1)
      else some (time, 1)

theorem missWindow_first {time : Nat} {earlier : List Nat} (h : missWindow earlier = none) :
    missWindow (time :: earlier) = some (time, 1) := by
  simp only [missWindow, h]

section

variable {time start count : Nat} {earlier : List Nat}
  (h : missWindow earlier = some (start, count))
include h

theorem missWindow_open (hopen : time < start + lookupMissWindowMs) :
    missWindow (time :: earlier) = some (start, count + 1) := by
  simp only [missWindow, h, if_pos hopen]

theorem missWindow_over (hover : ¬time < start + lookupMissWindowMs) :
    missWindow (time :: earlier) = some (time, 1) := by
  simp only [missWindow, h, if_neg hover]

end

def MissStored (window : Option (Nat × Nat)) (stored : Option LookupMisses) (now : Nat) : Prop :=
  match window with
  | none => stored = none
  | some (start, count) => count ≤ lookupMissLimit ∧
      (stored = some ⟨count, start + lookupMissWindowMs⟩ ∨
        stored = none ∧ start + lookupMissWindowMs ≤ now)

/-- What happened to a pairing: its browser secret and the route of its approval. -/
structure PairingHistory where
  browserSecret : String
  route : Option ConnectorRoute

structure PairingSystem where
  store : Store
  clock : Nat
  history : Table String PairingHistory
  missTimes : String → List Nat

def PairingSystem.initial : PairingSystem :=
  ⟨.empty, 0, fun _ => none, fun _ => []⟩

inductive PairingOp where
  | tick (now : Nat)
  | begin_ (intent : AuthorizationIntent) (publicResource : String) (identity : ClientDisplay)
      (pairingId browserSecret : String) (candidates : List String)
  | lookup (deviceId code : String)
  | deny (pairingId deviceId : String)
  | approve (pairingId : String) (device : DeviceIdentity) (consent : Consent) (later : Nat)
  | consume (pairingId browserSecret : String) (later : Nat)
  | cancel (pairingId browserSecret : String)
  | device (op : DeviceOp)
  | sweep (page : List StoreKey) (now : Nat) (lease : String)

section System

variable (hashSecret : String → String) (tunnelOrigin : String → Option String)
  (toUpperCase : List Char → List Char)

def approvedRoute (p : PairingSystem) (device : DeviceIdentity) (consent : Consent)
    (later : Nat) : Option ConnectorRoute :=
  approvableRoute p.store device consent.space later

def pairingStep (p : PairingSystem) : PairingOp → PairingSystem
  | .tick now => { p with clock := now }
  | .begin_ intent publicResource identity pairingId browserSecret candidates =>
    let result := beginPairing hashSecret p.store intent publicResource identity pairingId
      browserSecret candidates p.clock
    { p with
      store := result.1
      history := p.history.put pairingId ⟨browserSecret, none⟩ }
  | .lookup deviceId code =>
    let result := lookupPairing toUpperCase p.store deviceId code p.clock
    { p with
      store := result.1
      missTimes := fun other =>
        if other = deviceId ∧ validSecret deviceId ∧ result.2 = .missing then
          p.clock :: p.missTimes other
        else p.missTimes other }
  | .deny pairingId deviceId =>
    { p with store := (denyPairing p.store pairingId deviceId p.clock).1 }
  | .approve pairingId device consent later =>
    let result := approvePairing p.store pairingId device consent p.clock later
    { p with
      store := result.1
      clock := later
      history := fun id =>
        if id = pairingId ∧ result.2 = true then
          (p.history id).map fun history =>
            { history with route := approvedRoute p device consent later }
        else p.history id }
  | .consume pairingId browserSecret later =>
    { p with
      store := (consumePairing hashSecret p.store pairingId browserSecret p.clock later).1
      clock := later }
  | .cancel pairingId browserSecret =>
    { p with
      store := (cancelPairingRequest hashSecret p.store pairingId browserSecret p.clock).1 }
  | .device op => { p with store := deviceStep hashSecret tunnelOrigin p.store op }
  | .sweep page now lease =>
    { p with store := (sweepPage hashSecret p.store page now lease).1 }

/-- The clock does not go back, and a pairing id is drawn once. -/
def PairingPromised (p : PairingSystem) : PairingOp → Prop
  | .tick now => p.clock ≤ now
  | .begin_ _ _ _ pairingId _ _ => p.history pairingId = none
  | .approve _ _ _ later | .consume _ _ later => p.clock ≤ later
  | .sweep _ now _ => now ≤ p.clock
  | .lookup _ _ | .deny _ _ | .cancel _ _ | .device _ => True

def PairingStep (p : PairingSystem) (op : PairingOp) (q : PairingSystem) : Prop :=
  PairingPromised p op ∧ q = pairingStep hashSecret tunnelOrigin toUpperCase p op

end System

/-! ## The invariant -/

def PairingRecord.codeHeld (record : PairingRecord) : Prop :=
  record.status = .pending ∨ record.status = .approved

/-- What holds between records, code index, miss counters and history. -/
structure PairingInv (hashSecret : String → String) (p : PairingSystem) : Prop where
  recorded : ∀ id record, p.store.pairings id = some record → ∃ history,
    p.history id = some history ∧ record.browserHash = hashSecret history.browserSecret ∧
      record.approval = history.route.map approvalOf
  owned : ∀ id record, p.store.pairings id = some record → record.codeHeld →
    p.clock < record.expiresAt →
    ∃ code, record.userCode = some code ∧ p.store.codes code = some ⟨id, record.expiresAt⟩
  indexed : ∀ code index, p.store.codes code = some index → p.clock < index.expiresAt →
    ∃ record, p.store.pairings index.pairingId = some record ∧ record.codeHeld ∧
      record.userCode = some code ∧ record.expiresAt = index.expiresAt
  missed : ∀ deviceId,
    MissStored (missWindow (p.missTimes deviceId)) (p.store.misses deviceId) p.clock

variable {record : PairingRecord} {codes : Table String CodeIndex}

variable {code : String}

section Invariant

variable {hashSecret : String → String} {p : PairingSystem}

theorem pairingInv_initial : PairingInv hashSecret .initial :=
  ⟨nofun, nofun, nofun, fun _ => rfl⟩

variable {window : Option (Nat × Nat)}

theorem MissStored.later {stored : Option LookupMisses}
    {now later : Nat} (h : MissStored window stored now) (hnow : now ≤ later) :
    MissStored window stored later := by
  cases window with
  | none => exact h
  | some window =>
    refine ⟨h.1, h.2.imp_right fun hgone => ⟨hgone.1, ?_⟩⟩
    exact Nat.le_trans hgone.2 hnow

theorem MissStored.swept {stored stored' : Option LookupMisses}
    {now swept : Nat} (h : MissStored window stored now) (hswept : stored' = stored ∨
      ∃ misses, stored = some misses ∧ misses.expiresAt ≤ swept ∧ stored' = none)
    (hnow : swept ≤ now) : MissStored window stored' now := by
  rcases hswept with rfl | ⟨misses, rfl, hexpir, rfl⟩
  · exact h
  · cases window with
    | none => rfl
    | some window =>
      refine ⟨h.1, .inr ⟨rfl, ?_⟩⟩
      rcases h.2 with hsame | ⟨hnone, _⟩
      · cases hsame
        exact Nat.le_trans hexpir hnow
      · cases hnone

theorem PairingInv.advance (h : PairingInv hashSecret p) {now : Nat} (hnow : p.clock ≤ now) :
    PairingInv hashSecret { p with clock := now } := by
  refine ⟨h.recorded, fun id record hrec hheld hlive => ?_,
    fun code index hindex hlive => ?_, fun deviceId => ?_⟩
  · exact h.owned id record hrec hheld (Nat.lt_of_le_of_lt hnow hlive)
  · exact h.indexed code index hindex (Nat.lt_of_le_of_lt hnow hlive)
  · exact (h.missed deviceId).later hnow

theorem PairingInv.congr {store : Store} (h : PairingInv hashSecret p)
    (hpairs : store.pairings = p.store.pairings) (hcodes : store.codes = p.store.codes)
    (hmisse : store.misses = p.store.misses) : PairingInv hashSecret { p with store } := by
  refine ⟨?_, ?_, ?_, ?_⟩
  · simpa only [hpairs] using h.recorded
  · simpa only [hpairs, hcodes] using h.owned
  · simpa only [hpairs, hcodes] using h.indexed
  · simpa only [hmisse] using h.missed

variable {index : CodeIndex}

theorem dropCode_other {id : String} (hindex : codes code = some index)
    (hother : index.pairingId ≠ id) : dropCode codes record id code = some index := by
  unfold dropCode
  cases hcode : record.userCode with
  | none => exact hindex
  | some dropped =>
    simp only []
    split
    · next hpoints =>
        have hne : code ≠ dropped := by
          rintro rfl
          simp only [hindex, Option.any_some, beq_iff_eq] at hpoints
          exact hother hpoints
        rw [delete_other _ hne, hindex]
    · exact hindex

theorem dropCode_some
    {id : String} (hindex : dropCode codes record id code = some index) :
    codes code = some index ∧ (index.pairingId = id → record.userCode ≠ some code) := by
  unfold dropCode at hindex
  cases hcode : record.userCode with
  | none =>
    simp only [hcode] at hindex
    exact ⟨hindex, by simp⟩
  | some dropped =>
    simp only [hcode] at hindex
    split at hindex
    · by_cases hsame : code = dropped
      · subst hsame
        simp at hindex
      · rw [delete_other _ hsame] at hindex
        exact ⟨hindex, fun _ heq => hsame (Option.some.inj heq).symm⟩
    · next hpoints =>
        refine ⟨hindex, fun hid heq => hpoints ?_⟩
        cases heq
        simp [hindex, hid]

section

variable (h : PairingInv hashSecret p)
include h

/-- Settling a record gives its code back and leaves every other pairing alone. -/
theorem PairingInv.settle {id : String}
    (hrec : p.store.pairings id = some record) {status : PairingStatus}
    (hstat : status ≠ .pending ∧ status ≠ .approved) :
    PairingInv hashSecret { p with store := settlePairing p.store id record status } := by
  refine ⟨fun other r hr => ?_, fun other r hr hheld hlive => ?_,
    fun code index hindex hlive => ?_, h.missed⟩
  · simp only [settlePairing] at hr
    by_cases hid : other = id
    · subst hid
      rw [put_same] at hr
      cases hr
      exact h.recorded other record hrec
    · rw [put_other _ _ hid] at hr
      exact h.recorded other r hr
  · simp only [settlePairing] at hr
    by_cases hid : other = id
    · subst hid
      rw [put_same] at hr
      cases hr
      exact absurd hheld (by simp [PairingRecord.codeHeld, hstat])
    · rw [put_other _ _ hid] at hr
      obtain ⟨code, hcode, hindex⟩ := h.owned other r hr hheld hlive
      exact ⟨code, hcode, dropCode_other hindex hid⟩
  · obtain ⟨hold, hkept⟩ := dropCode_some hindex
    obtain ⟨r, hr, hheld, hcode, hexp⟩ := h.indexed code index hold hlive
    have hid : index.pairingId ≠ id := by
      intro hid
      rw [hid, hrec] at hr
      cases hr
      exact hkept hid hcode
    refine ⟨r, ?_, hheld, hcode, hexp⟩
    simp only [settlePairing]
    rw [put_other _ _ hid]
    exact hr

theorem PairingInv.approve {id : String}
    (hrec : p.store.pairings id = some record) (hheld : record.codeHeld)
    (route : ConnectorRoute) : PairingInv hashSecret { p with
      store := { p.store with
        pairings := p.store.pairings.put id
          { record with status := .approved, approval := some (approvalOf route) } }
      history := fun other =>
        if other = id then (p.history other).map fun history => { history with route := some route }
        else p.history other } := by
  refine ⟨fun other r hr => ?_, fun other r hr hother hlive => ?_,
    fun code index hindex hlive => ?_, h.missed⟩
  · simp only [] at hr ⊢
    by_cases hid : other = id
    · subst hid
      rw [put_same] at hr
      cases hr
      obtain ⟨history, hhist, hhash, _⟩ := h.recorded other record hrec
      refine ⟨{ history with route := some route }, ?_, hhash, rfl⟩
      rw [if_pos rfl, hhist, Option.map_some]
    · rw [put_other _ _ hid] at hr
      rw [if_neg hid]
      exact h.recorded other r hr
  · simp only [] at hr
    by_cases hid : other = id
    · subst hid
      rw [put_same] at hr
      cases hr
      exact h.owned other record hrec hheld hlive
    · rw [put_other _ _ hid] at hr
      exact h.owned other r hr hother hlive
  · obtain ⟨r, hr, hother, hcode, hexp⟩ := h.indexed code index hindex hlive
    simp only []
    by_cases hid : index.pairingId = id
    · rw [hid, hrec] at hr
      cases hr
      refine ⟨{ record with status := .approved, approval := some (approvalOf route) }, ?_,
        .inr rfl, hcode, hexp⟩
      rw [hid, put_same]
    · exact ⟨r, by rw [put_other _ _ hid]; exact hr, hother, hcode, hexp⟩

/-- A new pairing takes a code that no live pairing holds. -/
theorem PairingInv.begin_ {id secret : String} (hfresh : p.history id = none)
    (hfree : codeTaken p.store.codes p.clock code = false)
    (hhash : record.browserHash = hashSecret secret) (happr : record.approval = none)
    (hcode : record.userCode = some code) (hpend : record.status = .pending)
    (authorizationPairings : Table String CodeIndex) : PairingInv hashSecret { p with
      store := { p.store with
        pairings := p.store.pairings.put id record
        authorizationPairings
        codes := p.store.codes.put code ⟨id, record.expiresAt⟩ }
      history := p.history.put id ⟨secret, none⟩ } := by
  have hunus : ∀ other, p.store.pairings id ≠ some other := by
    intro other hother
    obtain ⟨history, hhist, _⟩ := h.recorded id other hother
    simp [hfresh] at hhist
  refine ⟨fun other r hr => ?_, fun other r hr hheld hlive => ?_,
    fun other index hindex hlive => ?_, h.missed⟩
  · simp only [] at hr ⊢
    by_cases hid : other = id
    · subst hid
      rw [put_same] at hr
      cases hr
      exact ⟨_, put_same .., hhash, happr⟩
    · rw [put_other _ _ hid] at hr
      rw [put_other _ _ hid]
      exact h.recorded other r hr
  · simp only [] at hr ⊢
    by_cases hid : other = id
    · subst hid
      rw [put_same] at hr
      cases hr
      exact ⟨code, hcode, put_same ..⟩
    · rw [put_other _ _ hid] at hr
      obtain ⟨held, hheldC, hindex⟩ := h.owned other r hr hheld hlive
      have hne : held ≠ code := by
        rintro rfl
        simp [codeTaken, hindex, hlive] at hfree
      exact ⟨held, hheldC, by rw [put_other _ _ hne]; exact hindex⟩
  · simp only [] at hindex hlive ⊢
    by_cases hsame : other = code
    · subst hsame
      rw [put_same] at hindex
      cases hindex
      exact ⟨record, put_same .., .inl hpend, hcode, rfl⟩
    · rw [put_other _ _ hsame] at hindex
      obtain ⟨r, hr, hheld, hrcode, hexp⟩ := h.indexed other index hindex hlive
      have hid : index.pairingId ≠ id := by
        intro hid
        exact hunus r (hid ▸ hr)
      exact ⟨r, by rw [put_other _ _ hid]; exact hr, hheld, hrcode, hexp⟩

/-- A sweep takes away only what had expired. -/
theorem PairingInv.sweep {store : Store} {now : Nat}
    (hswept : Swept hashSecret p.store now store) (hnow : now ≤ p.clock) :
    PairingInv hashSecret { p with store } := by
  refine ⟨fun id r hr => ?_, fun id r hr hheld hlive => ?_, fun code index hindex hlive => ?_,
    fun deviceId => ?_⟩
  · exact h.recorded id r (hswept.pairings.of_some hr)
  · obtain ⟨code, hcode, hindex⟩ := h.owned id r (hswept.pairings.of_some hr) hheld hlive
    exact ⟨code, hcode, hswept.codes.of_live hindex (Nat.lt_of_le_of_lt hnow hlive)⟩
  · obtain ⟨r, hr, hheld, hcode, hexp⟩ :=
      h.indexed code index (hswept.codes.of_some hindex) hlive
    refine ⟨r, hswept.pairings.of_live hr ?_, hheld, hcode, hexp⟩
    exact hexp ▸ Nat.lt_of_le_of_lt hnow hlive
  · exact (h.missed deviceId).swept (hswept.misses deviceId) hnow

theorem PairingInv.draw {id : String} (hfresh : p.history id = none) (history : PairingHistory) :
    PairingInv hashSecret { p with history := p.history.put id history } := by
  refine ⟨fun other r hr => ?_, h.owned, h.indexed, h.missed⟩
  obtain ⟨known, hknown, hrest⟩ := h.recorded other r hr
  have hne : other ≠ id := by
    rintro rfl
    simp [hfresh] at hknown
  exact ⟨known, (put_other _ _ hne).trans hknown, hrest⟩

end

end Invariant

/-! ## What each operation does -/

variable {deviceId : String}

section Cases

variable (hashSecret : String → String) (toUpperCase : List Char → List Char) (store : Store)
  (id : String)

theorem live_iff {now : Nat} :
    record.live now ↔ now < record.expiresAt ∧ record.codeHeld := by
  simp [PairingRecord.live, PairingRecord.codeHeld]

theorem deny_cases (deviceId : String) (now : Nat) : (denyPairing store id deviceId now).1 = store ∨
      ∃ record, store.pairings id = some record ∧ record.status = .pending ∧
        now < record.expiresAt ∧
        (denyPairing store id deviceId now).1 = settlePairing store id record .denied := by
  unfold denyPairing
  split
  · exact .inl rfl
  · cases hrec : store.pairings id with
    | none => exact .inl rfl
    | some record =>
      simp only []
      split
      · next hadmit =>
          rw [Bool.and_eq_true, live_iff, beq_iff_eq] at hadmit
          exact .inr ⟨record, rfl, hadmit.2, hadmit.1.1, rfl⟩
      · exact .inl rfl

theorem cancel_cases (secret : String) (now : Nat) :
    (cancelPairingRequest hashSecret store id secret now).1 = store ∨
      ∃ record, store.pairings id = some record ∧
        (record.status = .pending ∨ record.status = .approved ∨ record.status = .denied) ∧
        now < record.expiresAt ∧ record.browserHash = hashSecret secret ∧
        (cancelPairingRequest hashSecret store id secret now).1 =
          settlePairing store id record .cancelled := by
  unfold cancelPairingRequest
  split
  · exact .inl rfl
  · cases hrec : store.pairings id with
    | none => exact .inl rfl
    | some record =>
      simp only []
      split
      · next hadmit =>
          simp only [PairingRecord.visible, sameHash, Bool.and_eq_true, Bool.or_eq_true,
            decide_eq_true_eq, beq_iff_eq, or_assoc] at hadmit
          exact .inr ⟨record, rfl, hadmit.1.2, hadmit.1.1, hadmit.2, rfl⟩
      · exact .inl rfl

structure Consumes (hashSecret : String → String) (store : Store) (id secret : String)
    (now later : Nat) (record : PairingRecord) (approval : Approval) : Prop where
  stored : store.pairings id = some record
  approved : record.status = .approved
  granted : record.approval = some approval
  unexpired : now < record.expiresAt ∧ later < record.expiresAt
  browser : record.browserHash = hashSecret secret
  route : matchingRoute (store.routes approval.connectorId) approval later = true
  result : consumePairing hashSecret store id secret now later =
    (settlePairing store id record .consumed,
      some ⟨record.authorizationId, record.clientId, record.resource, record.scopes, approval,
        record.identity⟩)

theorem consume_cases (secret : String) (now later : Nat) :
    consumePairing hashSecret store id secret now later = (store, none) ∨
      ∃ record approval, Consumes hashSecret store id secret now later record approval := by
  have hconsu : ∀ result, consumePairing hashSecret store id secret now later = result →
      result = (store, none) ∨
        ∃ record approval, Consumes hashSecret store id secret now later record approval := by
    intro result hresult
    have hdef := hresult
    unfold consumePairing at hresult
    split at hresult
    · exact .inl hresult.symm
    · cases hrec : store.pairings id with
      | none =>
        simp only [hrec] at hresult
        exact .inl hresult.symm
      | some record =>
        cases happr : record.approval with
        | none =>
          simp only [hrec, happr] at hresult
          exact .inl hresult.symm
        | some approval =>
          simp only [hrec, happr] at hresult
          split at hresult
          · exact .inl hresult.symm
          · next hadmit =>
              simp only [Bool.or_eq_true, not_or, Bool.not_eq_true, Bool.not_eq_false',
                bne_eq_false_iff_eq, live_iff, sameHash, beq_iff_eq] at hadmit
              obtain ⟨⟨⟨⟨hnow, hstat⟩, hhash⟩, hlater⟩, hroute⟩ := hadmit
              exact .inr ⟨record, approval, hrec, hstat, happr,
                ⟨hnow.1, hlater.1⟩, hhash, hroute, hdef.trans hresult.symm⟩
  exact hconsu _ rfl

theorem approve_cases (device : DeviceIdentity) (consent : Consent) (now later : Nat) :
    approvePairing store id device consent now later = (store, false) ∨
      ∃ record route, store.pairings id = some record ∧ record.status = .pending ∧
        now < record.expiresAt ∧ approvableRoute store device consent.space later = some route ∧
        approvePairing store id device consent now later = ({ store with
              pairings := store.pairings.put id
                { record with status := .approved, approval := some (approvalOf route) } },
            true) := by
  unfold approvePairing
  split
  · exact .inl rfl
  · cases hrec : store.pairings id with
    | none => exact .inl rfl
    | some record =>
      simp only []
      split
      · exact .inl rfl
      · next hadmit =>
          simp only [Bool.or_eq_true, not_or, Bool.not_eq_true, Bool.not_eq_false',
            bne_eq_false_iff_eq, live_iff] at hadmit
          obtain ⟨⟨⟨⟨hnow, hstat⟩, _⟩, _⟩, _⟩ := hadmit
          cases hroute : approvableRoute store device consent.space later with
          | none => exact .inl rfl
          | some route => exact .inr ⟨record, route, rfl, hstat, hnow.1, rfl, rfl⟩

theorem freeUserCode_free {candidates : List String}
    {now : Nat} (h : freeUserCode codes candidates now = some code) :
    codeTaken codes now code = false := by
  have hfound := List.find?_some h
  simpa using hfound

theorem begin_cases (intent : AuthorizationIntent) (publicResource : String)
    (identity : ClientDisplay) (secret : String) (candidates : List String) (now : Nat) :
    (beginPairing hashSecret store intent publicResource identity id secret candidates now).1 =
        store ∨
      ∃ record code authorizationPairings, codeTaken store.codes now code = false ∧
        record.browserHash = hashSecret secret ∧ record.approval = none ∧
        record.userCode = some code ∧ record.status = .pending ∧
        (beginPairing hashSecret store intent publicResource identity id secret candidates
          now).1 =
          { store with
            pairings := store.pairings.put id record
            authorizationPairings
            codes := store.codes.put code ⟨id, record.expiresAt⟩ } := by
  unfold beginPairing
  split
  · exact .inl rfl
  · split
    · exact .inl rfl
    · cases hcode : freeUserCode store.codes candidates now with
      | none => exact .inl rfl
      | some code =>
        exact .inr ⟨_, code, _, freeUserCode_free hcode, rfl, rfl, rfl, rfl, rfl⟩

theorem openMisses_open {misses : LookupMisses} {now : Nat}
    (hstor : store.misses deviceId = some misses) (hopen : now < misses.expiresAt)
    (hsafe : isSafeInteger misses.count) : openMisses store deviceId now = some misses := by
  simp [openMisses, hstor, hopen, hsafe]

theorem openMisses_over {now : Nat}
    (hover : ∀ misses, store.misses deviceId = some misses → misses.expiresAt ≤ now) :
    openMisses store deviceId now = none := by
  unfold openMisses
  cases hstor : store.misses deviceId with
  | none => rfl
  | some misses =>
    have hclos := Nat.not_lt.mpr (hover misses hstor)
    simp [hclos]

/-- The entry that a miss writes. -/
def nextMisses (store : Store) (deviceId : String) (now : Nat) : LookupMisses :=
  match openMisses store deviceId now with
  | some window => ⟨window.count + 1, window.expiresAt⟩
  | none => ⟨1, now + lookupMissWindowMs⟩

/-- A lookup misses, and counts it; or it answers otherwise and writes nothing. -/
theorem lookup_cases (deviceId code : String) (now : Nat) :
    ((lookupPairing toUpperCase store deviceId code now).1 = store ∧ ¬(validSecret deviceId ∧
          (lookupPairing toUpperCase store deviceId code now).2 = .missing)) ∨
      (validSecret deviceId ∧
        ((openMisses store deviceId now).all fun misses =>
          decide (misses.count < lookupMissLimit)) ∧
        lookupPairing toUpperCase store deviceId code now =
          ({ store with misses := store.misses.put deviceId (nextMisses store deviceId now) },
            .missing)) := by
  unfold lookupPairing
  by_cases hvalid : validSecret deviceId
  · simp only [hvalid, Bool.not_true, Bool.false_eq_true, if_false, true_and]
    cases hfull : (openMisses store deviceId now).filter fun misses =>
        decide (lookupMissLimit ≤ misses.count) with
    | some full => exact .inl ⟨rfl, by simp⟩
    | none =>
      cases hview : resolveCode store (normalizeUserCode toUpperCase code) now with
      | some view => exact .inl ⟨rfl, by simp⟩
      | none =>
        refine .inr ⟨?_, rfl⟩
        cases hopen : openMisses store deviceId now with
        | none => rfl
        | some window =>
          simp only [hopen, Option.filter_some, decide_eq_true_eq] at hfull
          split at hfull
          · cases hfull
          · next hbelow => simpa using hbelow
  · simp only [hvalid, Bool.not_false, if_true]
    simp

end Cases

/-! ## Steps -/

section Steps

variable {hashSecret : String → String} {tunnelOrigin : String → Option String}
  {toUpperCase : List Char → List Char} {p q : PairingSystem} {op : PairingOp} {id : String}

theorem PairingInv.stored_of_open (h : PairingInv hashSecret p)
    {start count : Nat} (hwind : missWindow (p.missTimes deviceId) = some (start, count))
    (hopen : p.clock < start + lookupMissWindowMs) : count ≤ lookupMissLimit ∧
      openMisses p.store deviceId p.clock = some ⟨count, start + lookupMissWindowMs⟩ := by
  have hmis := h.missed deviceId
  rw [hwind] at hmis
  obtain ⟨hcount, hstor⟩ := hmis
  have hrec : p.store.misses deviceId = some ⟨count, start + lookupMissWindowMs⟩ := by
    rcases hstor with hrec | ⟨_, hover⟩
    · exact hrec
    · exact absurd hopen (Nat.not_lt.mpr hover)
  have hbound : lookupMissLimit ≤ maxSafeInteger := by decide
  exact ⟨hcount, openMisses_open _ hrec hopen (decide_eq_true (Nat.le_trans hcount hbound))⟩

theorem PairingInv.none_of_over (h : PairingInv hashSecret p)
    (hover : ∀ start count, missWindow (p.missTimes deviceId) = some (start, count) →
      start + lookupMissWindowMs ≤ p.clock) : openMisses p.store deviceId p.clock = none := by
  refine openMisses_over _ fun misses hstor => ?_
  have hmis := h.missed deviceId
  cases hwind : missWindow (p.missTimes deviceId) with
  | none =>
    rw [hwind] at hmis
    cases hstor.symm.trans hmis
  | some window =>
    rw [hwind] at hmis
    rcases hmis.2 with hrec | ⟨hnone, _⟩
    · have hsame := Option.mem_unique hstor hrec
      rw [hsame]
      exact hover window.1 window.2 hwind
    · cases hstor.symm.trans hnone

section

variable (h : PairingInv hashSecret p)
  (hbelow : ((openMisses p.store deviceId p.clock).all fun misses =>
    decide (misses.count < lookupMissLimit)))
include h hbelow

theorem PairingInv.miss_stored : MissStored (missWindow (p.clock :: p.missTimes deviceId))
      (some (nextMisses p.store deviceId p.clock)) p.clock := by
  have hone : 1 ≤ lookupMissLimit := by decide
  have hclos : openMisses p.store deviceId p.clock = none →
      nextMisses p.store deviceId p.clock = ⟨1, p.clock + lookupMissWindowMs⟩ := by
    intro hnone
    simp only [nextMisses, hnone]
  cases hwind : missWindow (p.missTimes deviceId) with
  | none =>
    have hnone := h.none_of_over fun start count hopen => nomatch hwind.symm.trans hopen
    rw [missWindow_first hwind, hclos hnone]
    exact ⟨hone, .inl rfl⟩
  | some window =>
    obtain ⟨start, count⟩ := window
    by_cases hopen : p.clock < start + lookupMissWindowMs
    · obtain ⟨_, hwindo⟩ := h.stored_of_open hwind hopen
      have hnext : nextMisses p.store deviceId p.clock =
          ⟨count + 1, start + lookupMissWindowMs⟩ := by
        simp only [nextMisses, hwindo]
      rw [hwindo, Option.all_some, decide_eq_true_eq] at hbelow
      rw [missWindow_open hwind hopen, hnext]
      exact ⟨hbelow, .inl rfl⟩
    · have hnone := h.none_of_over fun start' count' hopen' => by
        obtain ⟨rfl, rfl⟩ := Prod.mk.inj (Option.mem_unique hwind hopen')
        exact Nat.not_lt.mp hopen
      rw [missWindow_over hwind hopen, hclos hnone]
      exact ⟨hone, .inl rfl⟩

theorem PairingInv.miss : PairingInv hashSecret { p with
      store := { p.store with
        misses := p.store.misses.put deviceId (nextMisses p.store deviceId p.clock) }
      missTimes := fun other =>
        if other = deviceId then p.clock :: p.missTimes other else p.missTimes other } := by
  refine ⟨h.recorded, h.owned, h.indexed, fun other => ?_⟩
  by_cases hother : other = deviceId
  · subst hother
    simp only [if_true, put_same]
    exact h.miss_stored hbelow
  · simp only [if_neg hother, put_other _ _ hother]
    exact h.missed other

end

theorem pairingInv_step (hstep : PairingStep hashSecret tunnelOrigin toUpperCase p op q)
    (h : PairingInv hashSecret p) : PairingInv hashSecret q := by
  obtain ⟨hprom, rfl⟩ := hstep
  cases op with
  | tick now => exact h.advance hprom
  | begin_ intent publicResource identity pairingId secret candidates =>
    simp only [pairingStep]
    rcases begin_cases hashSecret p.store pairingId intent publicResource identity secret
      candidates p.clock with hsame |
      ⟨record, code, pairs, hfree, hhash, happr, hcode, hpend, hstore⟩
    · rw [hsame]
      exact h.draw hprom _
    · rw [hstore]
      exact h.begin_ hprom hfree hhash happr hcode hpend pairs
  | lookup deviceId code =>
    simp only [pairingStep]
    rcases lookup_cases toUpperCase p.store deviceId code p.clock with
      ⟨hsame, hansw⟩ | ⟨hvalid, hbelow, hmiss⟩
    · rw [hsame]
      simp only [hansw, and_false, if_false]
      exact h
    · rw [hmiss]
      simp only [hvalid, and_true]
      exact h.miss hbelow
  | deny pairingId deviceId =>
    simp only [pairingStep]
    rcases deny_cases p.store pairingId deviceId p.clock with hsame |
      ⟨record, hrec, _, _, hstore⟩
    · rw [hsame]
      exact h
    · rw [hstore]
      exact h.settle hrec (by decide)
  | approve pairingId device consent later =>
    simp only [pairingStep]
    rcases approve_cases p.store pairingId device consent p.clock later with
      hsame | ⟨record, route, hrec, hpend, _, hroute, hstore⟩
    · rw [hsame]
      simp only [Bool.false_eq_true, and_false, if_false]
      exact h.advance hprom
    · rw [hstore]
      simp only [and_true, approvedRoute, hroute]
      exact (h.approve hrec (.inl hpend) route).advance hprom
  | consume pairingId secret later =>
    simp only [pairingStep]
    rcases consume_cases hashSecret p.store pairingId secret p.clock later with
      hsame | ⟨record, approval, hcons⟩
    · rw [hsame]
      exact h.advance hprom
    · rw [hcons.result]
      exact (h.settle hcons.stored (by decide)).advance hprom
  | cancel pairingId secret =>
    simp only [pairingStep]
    rcases cancel_cases hashSecret p.store pairingId secret p.clock with
      hsame | ⟨record, hrec, _, _, _, hstore⟩
    · rw [hsame]
      exact h
    · rw [hstore]
      exact h.settle hrec (by decide)
  | device op =>
    obtain ⟨devices, routes, hframe⟩ := deviceStep_frame hashSecret tunnelOrigin p.store op
    simp only [pairingStep, hframe]
    exact h.congr rfl rfl rfl
  | sweep page now lease =>
    exact h.sweep (sweepPage_swept hashSecret p.store page now lease) hprom

end Steps

end Wenlan.Relay
