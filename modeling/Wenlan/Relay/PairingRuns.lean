import Wenlan.Relay.PairingSafety

/-!
# Runs of pairing operations

What whole runs keep: a consumed or cancelled pairing stays as it is until a sweep
takes it away, nothing is consumed twice, codes resolve to their owner, and a full
miss window refuses every lookup.
-/

namespace Wenlan.Relay

open Support.Transition

section Runs

variable {hashSecret : String → String} {tunnelOrigin : String → Option String}
  {toUpperCase : List Char → List Char} {p q r : PairingSystem} {op : PairingOp}
  {ops : List PairingOp} {id : String}

theorem clock_step (hstep : PairingStep hashSecret tunnelOrigin toUpperCase p op q) :
    p.clock ≤ q.clock := by
  obtain ⟨hprom, rfl⟩ := hstep
  cases op with
  | tick | approve | consume => exact hprom
  | begin_ | lookup | deny | cancel | device | sweep => exact Nat.le_refl _

theorem history_step (hstep : PairingStep hashSecret tunnelOrigin toUpperCase p op q)
    (hdrawn : p.history id ≠ none) : q.history id ≠ none := by
  obtain ⟨hprom, rfl⟩ := hstep
  cases op with
  | begin_ intent publicResource identity pairingId secret candidates =>
    have hne : id ≠ pairingId := by
      rintro rfl
      exact hdrawn hprom
    simp only [pairingStep, Table.put_other _ _ hne]
    exact hdrawn
  | approve pairingId device consent later =>
    simp only [pairingStep]
    split
    · simpa using hdrawn
    · exact hdrawn
  | tick | lookup | deny | consume | cancel | device | sweep => exact hdrawn

inductive RecordChange (p q : PairingSystem) (id : String) : Prop
  | kept (h : q.store.pairings id = p.store.pairings id)
  | begun (hfresh : p.history id = none)
  | moved (record : PairingRecord) (hold : p.store.pairings id = some record)
      (hopen : record.status = .pending ∨ record.status = .approved ∨ record.status = .denied)
  | swept (record : PairingRecord) (hold : p.store.pairings id = some record)
      (hexpired : record.expiresAt ≤ p.clock) (hgone : q.store.pairings id = none)

variable {record : PairingRecord}

variable {status : PairingStatus}

theorem settlePairing_other {store : Store} {other : String} (hne : id ≠ other) :
    (settlePairing store other record status).pairings id = store.pairings id :=
  Table.put_other _ _ hne

theorem recordChange_settle {pairingId : String} (hrec : p.store.pairings pairingId = some record)
    (hopen : record.status = .pending ∨ record.status = .approved ∨ record.status = .denied)
    (hq : q.store = settlePairing p.store pairingId record status) : RecordChange p q id := by
  by_cases hid : id = pairingId
  · exact .moved record (hid ▸ hrec) hopen
  · refine .kept ?_
    rw [hq, settlePairing_other hid]

theorem recordChange_step (hstep : PairingStep hashSecret tunnelOrigin toUpperCase p op q)
    (id : String) : RecordChange p q id := by
  obtain ⟨hprom, rfl⟩ := hstep
  cases op with
  | tick now => exact .kept rfl
  | begin_ intent publicResource identity pairingId secret candidates =>
    by_cases hid : id = pairingId
    · exact .begun (hid ▸ hprom)
    · refine .kept ?_
      simp only [pairingStep]
      rcases begin_cases hashSecret p.store pairingId intent publicResource identity secret
        candidates p.clock with hsame | ⟨record, code, pairs, _, _, _, _, _, hstore⟩
      · rw [hsame]
      · rw [hstore]
        exact Table.put_other _ _ hid
  | lookup deviceId code =>
    refine .kept ?_
    simp only [pairingStep]
    rcases lookup_cases toUpperCase p.store deviceId code p.clock with ⟨hsame, _⟩ | ⟨_, _, hmiss⟩
    · rw [hsame]
    · rw [hmiss]
  | deny pairingId deviceId =>
    rcases deny_cases p.store pairingId deviceId p.clock with hsame |
      ⟨record, hrec, hpend, _, hstore⟩
    · exact .kept (by simp only [pairingStep, hsame])
    · exact recordChange_settle hrec (.inl hpend) hstore
  | approve pairingId device consent later =>
    rcases approve_cases p.store pairingId device consent p.clock later with hsame |
      ⟨record, route, hrec, hpend, _, _, hstore⟩
    · exact .kept (by simp only [pairingStep, hsame])
    · by_cases hid : id = pairingId
      · exact .moved record (hid ▸ hrec) (.inl hpend)
      · refine .kept ?_
        simp only [pairingStep, hstore, Table.put_other _ _ hid]
  | consume pairingId secret later =>
    rcases consume_cases hashSecret p.store pairingId secret p.clock later with hsame |
      ⟨record, approval, hcons⟩
    · exact .kept (by simp only [pairingStep, hsame])
    · exact recordChange_settle hcons.stored (.inr (.inl hcons.approved))
        (congrArg Prod.fst hcons.result)
  | cancel pairingId secret =>
    rcases cancel_cases hashSecret p.store pairingId secret p.clock with hsame |
      ⟨record, hrec, hopen, _, _, hstore⟩
    · exact .kept (by simp only [pairingStep, hsame])
    · exact recordChange_settle hrec hopen hstore
  | device op =>
    obtain ⟨devices, routes, hframe⟩ := deviceStep_frame hashSecret tunnelOrigin p.store op
    exact .kept (by simp only [pairingStep, hframe])
  | sweep page now lease =>
    have hswept := sweepPage_swept hashSecret p.store page now lease
    rcases hswept.pairings id with hsame | ⟨record, hrec, hexpired, hgone⟩
    · exact .kept hsame
    · exact .swept record hrec (Nat.le_trans hexpired hprom) hgone

theorem pairingInv_of_run (h : Run (PairingStep hashSecret tunnelOrigin toUpperCase) p ops q)
    (hinv : PairingInv hashSecret p) : PairingInv hashSecret q :=
  h.invariant (fun _ _ _ hinv hstep => pairingInv_step hstep hinv) hinv

theorem clock_of_run (h : Run (PairingStep hashSecret tunnelOrigin toUpperCase) p ops q) :
    p.clock ≤ q.clock := by
  induction h with
  | refl => exact Nat.le_refl _
  | cons hstep _ ih => exact Nat.le_trans (clock_step hstep) ih

structure Settled (id : String) (record : PairingRecord) (p : PairingSystem) : Prop where
  drawn : p.history id ≠ none
  stored : p.store.pairings id = some record ∨
    p.store.pairings id = none ∧ record.expiresAt ≤ p.clock

def PairingRecord.settled (record : PairingRecord) : Prop :=
  record.status = .consumed ∨ record.status = .cancelled

theorem PairingInv.settled (h : PairingInv hashSecret p)
    (hrec : p.store.pairings id = some record) : Settled id record p := by
  obtain ⟨history, hhist, _⟩ := h.recorded id record hrec
  exact ⟨by simp [hhist], .inl hrec⟩

theorem settled_step (hstep : PairingStep hashSecret tunnelOrigin toUpperCase p op q)
    (hset : record.settled) (h : Settled id record p) :
    Settled id record q := by
  refine ⟨history_step hstep h.drawn, ?_⟩
  have hclock := clock_step hstep
  have hgone : p.store.pairings id = none ∧ record.expiresAt ≤ p.clock →
      p.store.pairings id = none ∧ record.expiresAt ≤ q.clock :=
    fun hgone => ⟨hgone.1, Nat.le_trans hgone.2 hclock⟩
  cases recordChange_step hstep id with
  | kept hsame =>
    rw [hsame]
    exact h.stored.imp_right hgone
  | begun hfresh => exact absurd hfresh h.drawn
  | moved old hold hopen =>
    rcases h.stored with hrec | ⟨hnone, _⟩
    · obtain rfl := Option.mem_unique hrec hold
      rcases hset with hstatus | hstatus <;> simp [hstatus] at hopen
    · cases hnone.symm.trans hold
  | swept old hold hexpired hnone =>
    rcases h.stored with hrec | ⟨hnone', _⟩
    · obtain rfl := Option.mem_unique hrec hold
      exact .inr ⟨hnone, Nat.le_trans hexpired hclock⟩
    · cases hnone'.symm.trans hold

theorem settled_of_run (h : Run (PairingStep hashSecret tunnelOrigin toUpperCase) p ops q)
    (hset : record.settled) (hp : Settled id record p) :
    Settled id record q :=
  h.invariant (fun _ _ _ hp hstep => settled_step hstep hset hp) hp

theorem Settled.not_consumable (h : Settled id record p)
    (hset : record.settled) (secret : String) (now later : Nat) :
    (consumePairing hashSecret p.store id secret now later).2 = none := by
  rcases consume_cases hashSecret p.store id secret now later with hsame |
    ⟨other, approval, hcons⟩
  · rw [hsame]
  · rcases h.stored with hrec | ⟨hnone, _⟩
    · obtain rfl := Option.mem_unique hrec hcons.stored
      have hstatus := hcons.approved
      rcases hset with hother | hother <;> simp [hother] at hstatus
    · cases hnone.symm.trans hcons.stored

theorem codeHeld_of_live {now : Nat} (h : record.live now) :
    now < record.expiresAt ∧ record.codeHeld := live_iff.mp h

theorem PairingInv.code_unique (h : PairingInv hashSecret p) {other code : String}
    {record' : PairingRecord} (hrec : p.store.pairings id = some record)
    (hlive : record.live p.clock) (hcode : record.userCode = some code)
    (hrec' : p.store.pairings other = some record') (hlive' : record'.live p.clock)
    (hcode' : record'.userCode = some code) : other = id := by
  have hheld := codeHeld_of_live hlive
  have hheld' := codeHeld_of_live hlive'
  obtain ⟨c, hc, hindex⟩ := h.owned id record hrec hheld.2 hheld.1
  obtain ⟨c', hc', hindex'⟩ := h.owned other record' hrec' hheld'.2 hheld'.1
  have hsame : c' = c := by
    rw [hcode] at hc
    rw [hcode'] at hc'
    exact (Option.some.inj hc').symm.trans (Option.some.inj hc)
  rw [hsame, hindex] at hindex'
  exact (congrArg CodeIndex.pairingId (Option.some.inj hindex')).symm

variable {deviceId : String}

theorem lookup_found {store : Store} {code : String} {view : PendingView} {now : Nat}
    (h : (lookupPairing toUpperCase store deviceId code now).2 = .found view) :
    ∃ normalized record, normalizeUserCode toUpperCase code = some normalized ∧
      store.pairings view.pairingId = some record ∧ record.live now ∧
      record.status = .pending ∧ record.userCode = some normalized := by
  have hres : resolveCode store (normalizeUserCode toUpperCase code) now = some view := by
    unfold lookupPairing at h
    split at h
    · cases h
    · simp only [] at h
      split at h
      · cases h
      · split at h
        · next found hfound => rw [hfound, LookupResult.found.inj h]
        · cases h
  unfold resolveCode at hres
  split at hres
  · cases hres
  · next normalized hnorm =>
      split at hres
      · cases hres
      · next index hindex =>
          split at hres
          · obtain ⟨hview, hcode⟩ := Option.filter_eq_some_iff.mp hres
            unfold pendingView at hview
            split at hview
            · cases hview
            · next record hrec =>
                split at hview
                · next hlive =>
                    simp only [Bool.and_eq_true, beq_iff_eq] at hlive
                    cases hview
                    rw [hrec, Option.any_some, beq_iff_eq] at hcode
                    exact ⟨normalized, record, hnorm, hrec, hlive.1, hlive.2, hcode⟩
                · cases hview
          · cases hres

/-- Only lookups by a device with a well-formed id are counted. -/
def CountedValid (p : PairingSystem) : Prop :=
  ∀ deviceId, p.missTimes deviceId ≠ [] → validSecret deviceId = true

theorem countedValid_step (hstep : PairingStep hashSecret tunnelOrigin toUpperCase p op q)
    (h : CountedValid p) : CountedValid q := by
  obtain ⟨_, rfl⟩ := hstep
  intro deviceId hcount
  cases op with
  | lookup other code =>
    simp only [pairingStep] at hcount
    split at hcount
    · next hmiss => exact hmiss.1 ▸ hmiss.2.1
    · exact h deviceId hcount
  | tick | begin_ | deny | approve | consume | cancel | device | sweep =>
    exact h deviceId hcount

theorem countedValid_of_run
    (h : Run (PairingStep hashSecret tunnelOrigin toUpperCase) .initial ops p) : CountedValid p :=
  h.invariant (fun _ _ _ hinv hstep => countedValid_step hstep hinv) fun _ h => absurd rfl h

theorem PairingInv.limited (h : PairingInv hashSecret p)
    {start count : Nat} (hvalid : validSecret deviceId)
    (hwind : missWindow (p.missTimes deviceId) = some (start, count))
    (hfull : lookupMissLimit ≤ count) (hopen : p.clock < start + lookupMissWindowMs)
    (code : String) : ∃ retryAfter, lookupPairing toUpperCase p.store deviceId code p.clock =
        (p.store, .limited retryAfter) := by
  obtain ⟨_, hmisse⟩ := h.stored_of_open hwind hopen
  unfold lookupPairing
  simp only [hvalid, hmisse, Bool.not_true, Bool.false_eq_true, if_false, Option.filter_some,
    hfull, decide_true, if_true]
  exact ⟨_, rfl⟩

theorem fullWindow_step (hstep : PairingStep hashSecret tunnelOrigin toUpperCase p op q)
    (hinv : PairingInv hashSecret p) {start count : Nat} (hfull : lookupMissLimit ≤ count)
    (hwind : missWindow (p.missTimes deviceId) = some (start, count))
    (hopen : p.clock < start + lookupMissWindowMs) :
    missWindow (q.missTimes deviceId) = some (start, count) := by
  obtain ⟨_, rfl⟩ := hstep
  cases op with
  | lookup other code =>
    simp only [pairingStep]
    split
    · next hmiss =>
        obtain ⟨rfl, hvalid, hmis⟩ := hmiss
        obtain ⟨retryAfter, hlim⟩ := hinv.limited hvalid hwind hfull hopen code
        rw [hlim] at hmis
        cases hmis
    · exact hwind
  | tick | begin_ | deny | approve | consume | cancel | device | sweep => exact hwind

theorem fullWindow_of_run (h : Run (PairingStep hashSecret tunnelOrigin toUpperCase) p ops q)
    (hinv : PairingInv hashSecret p) {start count : Nat} (hfull : lookupMissLimit ≤ count)
    (hwind : missWindow (p.missTimes deviceId) = some (start, count))
    (hopen : q.clock < start + lookupMissWindowMs) :
    missWindow (q.missTimes deviceId) = some (start, count) := by
  induction h with
  | refl => exact hwind
  | cons hstep hrest ih =>
    have hmid := Nat.lt_of_le_of_lt (clock_of_run hrest) hopen
    have hstart := Nat.lt_of_le_of_lt (clock_step hstep) hmid
    exact ih (pairingInv_step hstep hinv)
      (fullWindow_step hstep hinv hfull hwind hstart) hopen

/-! ## The state machine -/

theorem PairingInv.consumed (h : PairingInv hashSecret p) {secret : String} {later : Nat}
    {consumed : ConsumedPairing}
    (hconsu : (consumePairing hashSecret p.store id secret p.clock later).2 =
      some consumed) : ∃ record browserSecret route current,
      p.store.pairings id = some record ∧ record.status = .approved ∧
      p.clock < record.expiresAt ∧ later < record.expiresAt ∧
      p.history id = some ⟨browserSecret, some route⟩ ∧
      hashSecret secret = hashSecret browserSecret ∧ consumed.grant = approvalOf route ∧
      p.store.routes route.id = some current ∧ current.enabled ∧
      later < current.expiresAt ∧ approvalOf current = approvalOf route := by
  rcases consume_cases hashSecret p.store id secret p.clock later with hsame |
    ⟨record, approval, hcons⟩
  · simp [hsame] at hconsu
  · obtain ⟨⟨browserSecret, approved⟩, hhist, hhash, happr⟩ :=
      h.recorded id record hcons.stored
    rw [hcons.granted] at happr
    obtain ⟨route, rfl, rfl⟩ := Option.map_eq_some_iff.mp happr.symm
    have hroute := hcons.route
    obtain ⟨current, hcur, hmatch⟩ := Option.any_eq_true _ _ |>.mp hroute
    simp only [Bool.and_eq_true, decide_eq_true_eq, beq_iff_eq] at hmatch
    obtain ⟨⟨⟨⟨⟨henabl, hlive⟩, hid⟩, hsubj⟩, hspace⟩, hgen⟩ := hmatch
    refine ⟨record, browserSecret, route, current, hcons.stored, hcons.approved,
      hcons.unexpired.1, hcons.unexpired.2, hhist,
      hcons.browser.symm.trans hhash, ?_, hcur, henabl, hlive, ?_⟩
    · rw [hcons.result] at hconsu
      exact congrArg ConsumedPairing.grant (Option.some.inj hconsu).symm
    · rw [approvalOf, hid, hsubj, hspace, hgen]

theorem consume_settles {secret : String} {later : Nat} {consumed : ConsumedPairing}
    (hstep : PairingStep hashSecret tunnelOrigin toUpperCase p (.consume id secret later) q)
    (hconsu : (consumePairing hashSecret p.store id secret p.clock later).2 =
      some consumed) : ∃ record, q.store.pairings id = some record ∧ record.settled := by
  obtain ⟨_, rfl⟩ := hstep
  rcases consume_cases hashSecret p.store id secret p.clock later with hsame |
    ⟨record, approval, hcons⟩
  · simp [hsame] at hconsu
  · refine ⟨{ record with status := .consumed }, ?_, .inl rfl⟩
    simp only [pairingStep, hcons.result]
    exact Table.put_same ..

/-- At every reachable state: a consumption that answers finds its pairing approved
and unexpired, is made with the browser secret of the pairing and for the approved
route, and is the only one; a consumed or cancelled pairing keeps its record until
that has expired and is swept; the code index and the lookup lead only to the live
pairing that owns the code; and in a full miss window every lookup is refused. -/
theorem pairing_state_machine
    (h : Run (PairingStep hashSecret tunnelOrigin toUpperCase) .initial ops p) :
    (∀ id secret later consumed q,
      PairingStep hashSecret tunnelOrigin toUpperCase p (.consume id secret later) q →
      (consumePairing hashSecret p.store id secret p.clock later).2 = some consumed →
      (∃ record browserSecret route current,
        p.store.pairings id = some record ∧ record.status = .approved ∧
        p.clock < record.expiresAt ∧ later < record.expiresAt ∧
        p.history id = some ⟨browserSecret, some route⟩ ∧
        hashSecret secret = hashSecret browserSecret ∧
        ((∀ a b, hashSecret a = hashSecret b → a = b) → secret = browserSecret) ∧
        consumed.grant = approvalOf route ∧
        p.store.routes route.id = some current ∧ current.enabled = true ∧
        later < current.expiresAt ∧ approvalOf current = approvalOf route) ∧
      ∀ ops' r secret' later', Run (PairingStep hashSecret tunnelOrigin toUpperCase) q ops' r →
        (consumePairing hashSecret r.store id secret' r.clock later').2 = none) ∧
    (∀ id record, p.store.pairings id = some record →
      record.status = .consumed ∨ record.status = .cancelled →
      ∀ ops' r, Run (PairingStep hashSecret tunnelOrigin toUpperCase) p ops' r →
        r.store.pairings id = some record ∨
          r.store.pairings id = none ∧ record.expiresAt ≤ r.clock) ∧
    (∀ code index, p.store.codes code = some index → p.clock < index.expiresAt →
      ∃ record, p.store.pairings index.pairingId = some record ∧
        record.live p.clock = true ∧ record.userCode = some code ∧
        ∀ other record', p.store.pairings other = some record' →
          record'.live p.clock = true → record'.userCode = some code →
          other = index.pairingId) ∧ (∀ deviceId code view,
      (lookupPairing toUpperCase p.store deviceId code p.clock).2 = .found view →
      ∃ normalized record, normalizeUserCode toUpperCase code = some normalized ∧
        p.store.pairings view.pairingId = some record ∧ record.live p.clock = true ∧
        record.status = .pending ∧ record.userCode = some normalized ∧
        ∀ other record', p.store.pairings other = some record' →
          record'.live p.clock = true → record'.userCode = some normalized →
          other = view.pairingId) ∧
    ∀ deviceId start count, missWindow (p.missTimes deviceId) = some (start, count) →
      lookupMissLimit ≤ count →
      ∀ ops' r code, Run (PairingStep hashSecret tunnelOrigin toUpperCase) p ops' r →
        r.clock < start + lookupMissWindowMs →
        ∃ retryAfter, lookupPairing toUpperCase r.store deviceId code r.clock =
          (r.store, .limited retryAfter) := by
  have hinv : PairingInv hashSecret p := pairingInv_of_run h pairingInv_initial
  refine ⟨?_, ?_, ?_, ?_, ?_⟩
  · intro id secret later consumed q hstep hconsu
    refine ⟨?_, fun ops' r secret' later' hrun => ?_⟩
    · obtain ⟨record, browserSecret, route, current, hrec, hstatus, hnow, hlater, hhist,
        hhash, hrest⟩ := hinv.consumed hconsu
      exact ⟨record, browserSecret, route, current, hrec, hstatus, hnow, hlater, hhist,
        hhash, fun hinj => hinj _ _ hhash, hrest⟩
    · obtain ⟨record, hrec, hset⟩ := consume_settles hstep hconsu
      have hq := (pairingInv_step hstep hinv).settled hrec
      exact (settled_of_run hrun hset hq).not_consumable hset secret' r.clock later'
  · intro id record hrec hset ops' r hrun
    exact (settled_of_run hrun hset (hinv.settled hrec)).stored
  · intro code index hindex hlive
    obtain ⟨record, hrec, hheld, hcode, hexp⟩ := hinv.indexed code index hindex hlive
    have hrecor : record.live p.clock = true := live_iff.mpr ⟨hexp ▸ hlive, hheld⟩
    exact ⟨record, hrec, hrecor, hcode, fun other record' hrec' hlive' hcode' =>
      hinv.code_unique hrec hrecor hcode hrec' hlive' hcode'⟩
  · intro deviceId code view hfound
    obtain ⟨normalized, record, hnorm, hrec, hlive, hpend, hcode⟩ :=
      lookup_found hfound
    exact ⟨normalized, record, hnorm, hrec, hlive, hpend, hcode,
      fun other record' hrec' hlive' hcode' =>
        hinv.code_unique hrec hlive hcode hrec' hlive' hcode'⟩
  · intro deviceId start count hwind hfull ops' r code hrun hopen
    have hwind' := fullWindow_of_run hrun hinv hfull hwind hopen
    have hcount : r.missTimes deviceId ≠ [] := by
      intro hnil
      rw [hnil] at hwind'
      cases hwind'
    have hvalid := countedValid_of_run (h.append hrun) deviceId hcount
    exact (pairingInv_of_run hrun hinv).limited hvalid hwind' hfull hopen code

end Runs

/-- One pairing, begun, approved and consumed by its browser: it stays consumed, and
no later attempt consumes it. -/
theorem pairing_state_machine_consumed : let device := "dddddddddddddddddddddddddddddddd"
    let token := "tttttttttttttttttttttttttttttttt"
    let pairing := "pppppppppppppppppppppppppppppppp"
    let secret := "ssssssssssssssssssssssssssssssss"
    let resource := "https://wenlan.example/mcp"
    let intent : AuthorizationIntent :=
      ⟨"aaaaaaaaaaaaaaaaaaaaaaaaaaaaaaaa", "client", resource, ["wenlan:query"]⟩
    let enroll : PairingOp := .device (.enroll
      ⟨⟨"bbbbbbbbbbbbbbbbbbbbbbbbbbbbbbbb", "work"⟩, "https://a.trycloudflare.com"⟩ true device
      token 0)
    let begin_ : PairingOp :=
      .begin_ intent resource ⟨none, "", false⟩ pairing secret ["23456789"]
    let approve : PairingOp :=
      .approve pairing ⟨device, device, 0, 1000⟩ ⟨"client", resource, "work"⟩ 1
    let apply := pairingStep tokenDigest some id
    let approved := apply (apply (apply .initial enroll) begin_) approve
    let consumed := apply approved (.consume pairing secret 2)
    (consumePairing tokenDigest approved.store pairing secret 1 2).2.isSome = true ∧
      ∀ ops r, Run (PairingStep tokenDigest some id) consumed ops r →
        (∀ secret' later, (consumePairing tokenDigest r.store pairing secret' r.clock later).2 =
          none) ∧
        (r.store.pairings pairing = consumed.store.pairings pairing ∨
          r.store.pairings pairing = none) := by
  intro device token pairing secret resource intent enroll begin_ approve apply approved consumed
  have happro : Run (PairingStep tokenDigest some id) .initial [enroll, begin_, approve]
      approved :=
    .cons ⟨trivial, rfl⟩ (.cons ⟨rfl, rfl⟩ (.single ⟨Nat.zero_le 1, rfl⟩))
  have hstep : PairingStep tokenDigest some id approved (.consume pairing secret 2) consumed :=
    ⟨Nat.le_succ 1, rfl⟩
  have hansw :
      (consumePairing tokenDigest approved.store pairing secret 1 2).2.isSome = true := by
    decide +kernel
  obtain ⟨answer, hanswe⟩ := Option.isSome_iff_exists.mp hansw
  obtain ⟨record, hrec, hset⟩ := consume_settles hstep hanswe
  refine ⟨hansw, fun ops r hrun => ⟨fun secret' later => ?_, ?_⟩⟩
  · exact ((pairing_state_machine happro).1 pairing secret 2 answer consumed hstep
      hanswe).2 ops r secret' later hrun
  · have hconsum := happro.append (.single hstep)
    rw [hrec]
    exact ((pairing_state_machine hconsum).2.1 pairing record hrec hset ops r
      hrun).imp_right And.left

end Wenlan.Relay
