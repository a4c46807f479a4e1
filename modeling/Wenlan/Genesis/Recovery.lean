import Wenlan.Genesis.Effects

/-!
# The startup recovery scan

`m6/recovery.rs`: after a kill, candidates that still hold reservations without a live lease leave
for `stale`, and their groups return to the frontier.  The probe of the projection outbox, which
writes nothing, is left out.
-/

namespace Wenlan.Genesis

open Support (KeyTable)
open Support.Fallible (check)

def recoverableStates : List CandidateState := [.prepared, .inferencing, .validating, .retryWait]

structure RecoveryReport where
  leasesReaped : ℕ
  candidatesStaled : List String
  candidatesLeaseLive : ℕ

namespace Db

/-- The first step of the scan, with how many rows were deleted. -/
def reapLeases (db : Db) : Db × ℕ :=
  let db := db.tick
  ({ db with leases := Leases.reapExpiredM6Phases db.now db.leases },
    (KeyTable.select (Leases.expiredM6 db.now) db.leases).length)

def orphanedCandidates (db : Db) : List String :=
  distinctSorted ((KeyTable.select (fun key claim => claim.releasedAt == none &&
    (db.candidates.lookup key.candidateId).any fun candidate =>
      recoverableStates.contains candidate.state) db.claims).map fun row => row.1.candidateId)

/-- `lease_is_live`, by the token of the candidate. -/
def leaseIsLive (candidate : CandidateRow) (db : Db) : Db × Bool :=
  match candidate.leaseToken with
  | none => (db, false)
  | some token =>
    (db.tick, Leases.owns .genesis candidate.space candidate.inputGeneration token db.tick.now
      db.leases)

def recoverOne (state : Db × RecoveryReport) (candidateId : String) :
    Except GenesisError (Db × RecoveryReport) :=
  match state.1.candidates.lookup candidateId with
  | none => .ok state
  | some candidate =>
    if candidate.state ∉ recoverableStates then .ok state
    else
      let (db, live) := state.1.leaseIsLive candidate
      if live then
        .ok (db, { state.2 with candidatesLeaseLive := state.2.candidatesLeaseLive + 1 })
      else do
        let db ← db.markStale candidateId .leaseLost
        return (db, { state.2 with
          candidatesStaled := state.2.candidatesStaled ++ [candidateId] })

def scan (db : Db) : Except GenesisError (Db × RecoveryReport) :=
  let (db, leasesReaped) := db.reapLeases
  db.orphanedCandidates.foldlM recoverOne (db, ⟨leasesReaped, [], 0⟩)

/-- No open binding was made in the future. -/
def CardsPast (db : Db) : Prop :=
  ∀ key binding, db.cards.lookup key = some binding → binding.closedAt = none →
    binding.createdAt ≤ db.now

def NoLiveLease (db : Db) : Prop :=
  ∀ key lease, db.leases.lookup key = some lease → key.phase = LeasePhase.genesis.asStr →
    lease.expiresAt ≤ db.now

variable {db db' : Db} {candidateId : String} {candidate : CandidateRow}

theorem mem_orphanedCandidates : candidateId ∈ db.orphanedCandidates ↔
      ∃ rootId claim candidate, db.claims.lookup ⟨candidateId, rootId⟩ = some claim ∧
        claim.releasedAt = none ∧ db.candidates.lookup candidateId = some candidate ∧
        candidate.state ∈ recoverableStates := by
  unfold orphanedCandidates
  rw [mem_distinctSorted, List.mem_map]
  constructor
  · rintro ⟨⟨key, claim⟩, hmem, rfl⟩
    obtain ⟨hclaim, hchos⟩ := KeyTable.mem_select.mp hmem
    rw [Bool.and_eq_true, beq_iff_eq, Option.any_eq_true] at hchos
    obtain ⟨hlive, candidate, hcand, hstate⟩ := hchos
    exact ⟨key.rootId, claim, candidate, hclaim, hlive, hcand, List.contains_iff_mem.mp hstate⟩
  · rintro ⟨rootId, claim, candidate, hclaim, hlive, hcand, hstate⟩
    refine ⟨⟨⟨candidateId, rootId⟩, claim⟩, KeyTable.mem_select.mpr ⟨hclaim, ?_⟩, rfl⟩
    rw [Bool.and_eq_true, beq_iff_eq, Option.any_eq_true]
    exact ⟨hlive, candidate, hcand, List.contains_iff_mem.mpr hstate⟩

theorem nodup_distinctSorted (groups : List String) : (distinctSorted groups).Nodup := by
  unfold distinctSorted
  rw [(List.perm_insertionSort _ _).nodup_iff]
  exact List.nodup_dedup _

/-- Only the frontier and the cards moved, the frontier grew and bindings were at most closed. -/
structure CardsExpired (db db' : Db) : Prop where
  now_le : db.now ≤ db'.now
  leases : db'.leases = db.leases
  candidates : db'.candidates = db.candidates
  claims : db'.claims = db.claims
  coverage : db'.coverage = db.coverage
  suppressions : db'.suppressions = db.suppressions
  quarantines : db'.quarantines = db.quarantines
  frontier : ∀ home, home ∈ db.frontier → home ∈ db'.frontier
  past : db.CardsPast → db'.CardsPast

theorem CardsExpired.refl (db : Db) : CardsExpired db db :=
  ⟨Int.le_refl _, rfl, rfl, rfl, rfl, rfl, rfl, fun _ h => h, fun h => h⟩

theorem CardsExpired.trans {db'' : Db} (h : CardsExpired db db') (h' : CardsExpired db' db'') :
    CardsExpired db db'' where
  now_le := h.now_le.trans h'.now_le
  leases := h'.leases.trans h.leases
  candidates := h'.candidates.trans h.candidates
  claims := h'.claims.trans h.claims
  coverage := h'.coverage.trans h.coverage
  suppressions := h'.suppressions.trans h.suppressions
  quarantines := h'.quarantines.trans h.quarantines
  frontier home hmem := h'.frontier home (h.frontier home hmem)
  past hpast := h'.past (h.past hpast)

theorem cardsExpired_of_expire {home : GroupKey} {expired : Bool}
    (h : db.expireCardBindingToFrontier home = .ok (db', expired)) : CardsExpired db db' := by
  rcases expireCardBinding_eq_ok h with ⟨rfl, -⟩ | ⟨key, binding, closing, -, -, -, hclose, rfl⟩
  · exact .refl db'
  · have hclos := (closeBindings_eq_some hclose).2
    have hcards := lookup_closeBindings hclose
    have hnow : db.now ≤ closing.tick.now := by
      refine Int.le_trans ?_ closing.now_le_tick
      rw [hclos]
      exact db.now_le_tick
    refine ⟨hnow, ?_, ?_, ?_, ?_, ?_, ?_, ?_, ?_⟩
    · rw [hclos]
      rfl
    · rw [hclos]
      rfl
    · rw [hclos]
      rfl
    · rw [hclos]
      rfl
    · rw [hclos]
      rfl
    · rw [hclos]
      rfl
    · intro other hmem
      refine KeyTable.mem_insertIfAbsent.mpr (.inr ?_)
      rw [hclos]
      exact hmem
    · intro hpast other row hrow hopen
      have hrow' : closing.cards.lookup other = some row := hrow
      rw [hcards, Option.map_eq_some_iff] at hrow'
      obtain ⟨old, hold, rfl⟩ := hrow'
      split_ifs at hopen ⊢ with hclosed
      exact (hpast other old hold hopen).trans hnow

theorem expireAll_ok (space : String) (coverageEpoch : Int) (groups : List String)
    (hpast : db.CardsPast) : ∃ db', groups.foldlM (fun db group => do
      let (db, _) ← db.expireCardBindingToFrontier ⟨space, group, coverageEpoch⟩
      return db) db = .ok db' ∧ CardsExpired db db' := by
  induction groups generalizing db with
  | nil => exact ⟨db, rfl, .refl db⟩
  | cons group groups ih =>
    obtain ⟨mid, expired, hone⟩ := expireCardBinding_ok ⟨space, group, coverageEpoch⟩ hpast
    have hmid := cardsExpired_of_expire hone
    obtain ⟨db', hrest, hend⟩ := ih (hmid.past hpast)
    refine ⟨db', ?_, hmid.trans hend⟩
    rw [List.foldlM_cons, hone]
    exact hrest

/-! ## One candidate -/

/-- The candidate is `stale` for lease loss and holds nothing, the groups it had reserved are in
the frontier, and other candidates are as before. -/
structure Recovered (candidateId : String) (candidate : CandidateRow) (db db' : Db) : Prop where
  now_le : db.now ≤ db'.now
  leases : db'.leases = db.leases
  stale : ∃ row, db'.candidates.lookup candidateId = some row ∧ row.state = .stale ∧
    row.reason = some "lease_lost"
  released : ∀ rootId claim, db'.claims.lookup ⟨candidateId, rootId⟩ = some claim →
    claim.releasedAt ≠ none
  homes : ∀ rootId claim, db.claims.lookup ⟨candidateId, rootId⟩ = some claim → claim.exclusive →
    (⟨candidate.space, claim.independenceGroupId, candidate.coverageEpoch⟩ : GroupKey) ∈
      db'.frontier
  candidates : ∀ other, other ≠ candidateId →
    db'.candidates.lookup other = db.candidates.lookup other
  claims : ∀ key : ClaimKey, key.candidateId ≠ candidateId →
    db'.claims.lookup key = db.claims.lookup key
  frontier : ∀ home, home ∈ db.frontier → home ∈ db'.frontier
  past : db.CardsPast → db'.CardsPast

theorem markStale_of_settled {settled : Db}
    (hcand : db.candidates.lookup candidateId = some candidate)
    (hstate : candidate.state ∈ recoverableStates)
    (hsettl : db.settleGroupsToFrontier candidateId candidate "lease_lost" = .ok settled)
    (hrow : settled.candidates.lookup candidateId = some candidate) :
    ∃ nextAttemptAt, db.markStale candidateId .leaseLost = .ok (settled.tick.updateCandidate
      candidateId [.observed, .prepared, .inferencing, .validating, .retryWait, .reviewRequired]
      fun row => { row with
        state := .stale, reason := some "lease_lost", leaseToken := none,
        nextAttemptAt := nextAttemptAt }).1 := by
  have hlegal : transitionIsLegal candidate.state .stale := by
    revert hstate
    cases candidate.state <;> decide
  have hsourc : candidate.state ∈ [CandidateState.observed, .prepared, .inferencing, .validating,
      .retryWait, .reviewRequired] := by
    revert hstate
    cases candidate.state <;> decide
  refine ⟨some (settled.tick.now + StaleReason.reEntryDelaySeconds candidate.attempt .leaseLost),
    ?_⟩
  have hrow' : settled.tick.candidates.lookup candidateId = some candidate := hrow
  have hone := updateCandidate_one (fun row => { row with
    state := .stale, reason := some "lease_lost", leaseToken := none,
    nextAttemptAt := some (settled.tick.now +
      StaleReason.reEntryDelaySeconds candidate.attempt .leaseLost) }) hrow' hsourc
  unfold markStale guardTransition requireOneRow
  rw [findCandidate_eq_ok.mpr hcand]
  simp only [bind, Except.bind, check, if_pos hlegal, StaleReason.asStr, hsettl, hone, if_true]
  rfl

theorem markStale_recovers (hcand : db.candidates.lookup candidateId = some candidate)
    (hstate : candidate.state ∈ recoverableStates) (hpast : db.CardsPast) :
    ∃ db', db.markStale candidateId .leaseLost = .ok db' ∧
      Recovered candidateId candidate db db' := by
  have hsourc : candidate.state ∈ [CandidateState.observed, .prepared, .inferencing, .validating,
      .retryWait, .reviewRequired] := by
    revert hstate
    cases candidate.state <;> decide
  -- The claims are released and their groups restored.
  obtain ⟨released, hrel⟩ : ∃ released, released =
    db.releaseClaims candidateId "lease_lost" := ⟨_, rfl⟩
  obtain ⟨restored, hresto⟩ : ∃ restored, restored = released.restoreFrontierRows
    candidate.space candidate.coverageEpoch (db.candidateConceptGroups candidateId true) :=
    ⟨_, rfl⟩
  have honly : OnlyFrontier released restored := by
    rw [hresto]
    exact onlyFrontier_restoreFrontierRows _ _ _ _
  have hnow : db.now ≤ restored.now := by
    refine Int.le_trans ?_ honly.now_le
    rw [hrel]
    exact db.now_le_tick
  have hrestor : restored.CardsPast := by
    intro key binding hbinding hopen
    rw [honly.cards, hrel] at hbinding
    exact (hpast key binding hbinding hopen).trans hnow
  -- Open cards of the groups expire.
  obtain ⟨settled, hset, hexp⟩ := expireAll_ok candidate.space candidate.coverageEpoch
    (restored.candidateConceptGroups candidateId false) hrestor
  have hsettl : db.settleGroupsToFrontier candidateId candidate "lease_lost" = .ok settled := by
    rw [hresto, hrel] at hset
    exact hset
  have hcands : settled.candidates = db.candidates := by
    rw [hexp.candidates, honly.candidates, hrel]
    rfl
  have hclai : settled.claims = released.claims := hexp.claims.trans honly.claims
  obtain ⟨nextAttemptAt, hmark⟩ := markStale_of_settled hcand hstate hsettl
    (by rw [hcands, hcand])
  refine ⟨_, hmark, ?_⟩
  have hlook := lookup_updateCandidate candidateId
    [.observed, .prepared, .inferencing, .validating, .retryWait, .reviewRequired]
    (fun row => { row with
      state := .stale, reason := some "lease_lost", leaseToken := none,
      nextAttemptAt := nextAttemptAt }) settled.tick
  refine ⟨?_, ?_, ?_, ?_, ?_, ?_, ?_, ?_, ?_⟩
  · exact (hnow.trans hexp.now_le).trans settled.now_le_tick
  · exact hexp.leases.trans (honly.leases.trans (by rw [hrel]; rfl))
  · refine ⟨{ candidate with
      state := .stale, reason := some "lease_lost", leaseToken := none,
      nextAttemptAt := nextAttemptAt }, (hlook candidateId).trans ?_, rfl, rfl⟩
    rw [tick_candidates, hcands, hcand, Option.map_some, if_pos ⟨rfl, hsourc⟩]
  · intro rootId claim hclaim
    have hclaim' : settled.claims.lookup ⟨candidateId, rootId⟩ = some claim := hclaim
    rw [hclai, hrel, lookup_releaseClaims, Option.map_eq_some_iff] at hclaim'
    obtain ⟨old, -, rfl⟩ := hclaim'
    split_ifs with hlive
    · simp
    · exact fun hnone => hlive ⟨rfl, hnone⟩
  · intro rootId claim hclaim hexcl
    refine hexp.frontier _ ?_
    rw [hresto, mem_restoreFrontierRows]
    refine .inl ⟨claim.independenceGroupId, ?_, rfl⟩
    exact mem_candidateConceptGroups.mpr
      ⟨rootId, claim, hclaim, hexcl.1, fun _ => hexcl.2, rfl⟩
  · intro other hne
    refine (hlook other).trans ?_
    rw [tick_candidates, hcands]
    simp [hne]
  · intro key hne
    show settled.claims.lookup key = _
    rw [hclai, hrel, lookup_releaseClaims]
    simp [hne]
  · intro home hmem
    refine hexp.frontier home ?_
    rw [hresto, mem_restoreFrontierRows, hrel]
    exact .inr hmem
  · intro _ key binding hbinding hopen
    exact (hexp.past hrestor key binding hbinding hopen).trans settled.now_le_tick

/-! ## The loop -/

theorem leaseIsLive_false (hdead : db.NoLiveLease) (candidate : CandidateRow) :
    (db.leaseIsLive candidate).2 = false := by
  unfold leaseIsLive
  cases candidate.leaseToken with
  | none => rfl
  | some token =>
    rw [Bool.eq_false_iff]
    intro hlive
    obtain ⟨lease, hrow, -, hnow⟩ := Leases.holds_iff.mp hlive
    have hexp := hdead _ lease hrow rfl
    have hle := db.now_le_tick
    omega

theorem leaseIsLive_db (candidate : CandidateRow) (db : Db) :
    (db.leaseIsLive candidate).1 = db ∨ (db.leaseIsLive candidate).1 = db.tick := by
  unfold leaseIsLive
  cases candidate.leaseToken with
  | none => exact .inl rfl
  | some token => exact .inr rfl

theorem NoLiveLease.mono (hdead : db.NoLiveLease) (hleas : db'.leases = db.leases)
    (hnow : db.now ≤ db'.now) : db'.NoLiveLease := by
  intro key lease hrow hphase
  rw [hleas] at hrow
  exact (hdead key lease hrow hphase).trans hnow

theorem recoverOne_recovers (report : RecoveryReport) (hdead : db.NoLiveLease)
    (hcand : db.candidates.lookup candidateId = some candidate)
    (hstate : candidate.state ∈ recoverableStates) (hpast : db.CardsPast) :
    ∃ db' report', recoverOne (db, report) candidateId = .ok (db', report') ∧
      Recovered candidateId candidate db db' := by
  have hcheck : ∃ checked, db.leaseIsLive candidate = (checked, false) ∧
      (checked = db ∨ checked = db.tick) :=
    ⟨(db.leaseIsLive candidate).1, Prod.ext rfl (leaseIsLive_false hdead candidate),
      leaseIsLive_db candidate db⟩
  obtain ⟨checked, hlease, hsame⟩ := hcheck
  -- The check of the lease moves the clock at most.
  have hmark : ∃ db', checked.markStale candidateId .leaseLost = .ok db' ∧
      Recovered candidateId candidate db db' := by
    rcases hsame with rfl | rfl
    · exact markStale_recovers hcand hstate hpast
    · have hcand' : db.tick.candidates.lookup candidateId = some candidate := hcand
      obtain ⟨db', hmark, hrec⟩ := markStale_recovers hcand' hstate
        fun key binding hbinding hopen =>
          (hpast key binding hbinding hopen).trans db.now_le_tick
      refine ⟨db', hmark, ?_⟩
      exact { hrec with
        now_le := db.now_le_tick.trans hrec.now_le
        past := fun _ => hrec.past fun key binding hbinding hopen =>
          (hpast key binding hbinding hopen).trans db.now_le_tick }
  obtain ⟨db', hmark, hrec⟩ := hmark
  refine ⟨db', { report with
    candidatesStaled := report.candidatesStaled ++ [candidateId] }, ?_, hrec⟩
  unfold recoverOne
  simp only [hcand, hlease, hmark, bind, Except.bind, pure, Except.pure,
    if_neg (not_not.mpr hstate)]
  rfl

/-- What the loop over orphaned candidates does: each is recovered, and the others are left
alone. -/
structure AllRecovered (candidateIds : List String) (db db' : Db) : Prop where
  now_le : db.now ≤ db'.now
  leases : db'.leases = db.leases
  recovered : ∀ candidateId ∈ candidateIds, ∀ candidate,
    db.candidates.lookup candidateId = some candidate →
    (∃ row, db'.candidates.lookup candidateId = some row ∧ row.state = .stale ∧
      row.reason = some "lease_lost") ∧
    (∀ rootId claim, db'.claims.lookup ⟨candidateId, rootId⟩ = some claim →
      claim.releasedAt ≠ none) ∧
    ∀ rootId claim, db.claims.lookup ⟨candidateId, rootId⟩ = some claim → claim.exclusive →
      (⟨candidate.space, claim.independenceGroupId, candidate.coverageEpoch⟩ : GroupKey) ∈
        db'.frontier
  candidates : ∀ other, other ∉ candidateIds →
    db'.candidates.lookup other = db.candidates.lookup other
  claims : ∀ key : ClaimKey, key.candidateId ∉ candidateIds →
    db'.claims.lookup key = db.claims.lookup key
  frontier : ∀ home, home ∈ db.frontier → home ∈ db'.frontier

theorem recoverAll_ok {candidateIds : List String} (report : RecoveryReport)
    (hnodup : candidateIds.Nodup) (hdead : db.NoLiveLease) (hpast : db.CardsPast)
    (hrecov : ∀ candidateId ∈ candidateIds, ∃ candidate,
      db.candidates.lookup candidateId = some candidate ∧ candidate.state ∈ recoverableStates) :
    ∃ db' report', candidateIds.foldlM recoverOne (db, report) = .ok (db', report') ∧
      AllRecovered candidateIds db db' := by
  induction candidateIds generalizing db report with
  | nil =>
    refine ⟨db, report, rfl, Int.le_refl _, rfl, ?_, fun _ _ => rfl, fun _ _ => rfl, fun _ h => h⟩
    intro candidateId hmem
    cases hmem
  | cons first rest ih =>
    rw [List.nodup_cons] at hnodup
    obtain ⟨candidate, hcand, hstate⟩ := hrecov first List.mem_cons_self
    obtain ⟨mid, report', hone, hmid⟩ := recoverOne_recovers report hdead hcand
      hstate hpast
    have hother : ∀ candidateId ∈ rest, candidateId ≠ first := by
      rintro candidateId hmem rfl
      exact hnodup.1 hmem
    obtain ⟨db', report'', hrest, hend⟩ := ih report' hnodup.2
      (hdead.mono hmid.leases hmid.now_le) (hmid.past hpast) (by
        intro candidateId hmem
        rw [hmid.candidates candidateId (hother candidateId hmem)]
        exact hrecov candidateId (List.mem_cons_of_mem _ hmem))
    refine ⟨db', report'', ?_, hmid.now_le.trans hend.now_le, hend.leases.trans hmid.leases, ?_,
      ?_, ?_, fun home hmem => hend.frontier home (hmid.frontier home hmem)⟩
    · rw [List.foldlM_cons, hone]
      exact hrest
    · intro candidateId hmem row hrow
      rcases List.mem_cons.mp hmem with rfl | hmem
      · rw [hcand] at hrow
        cases hrow
        refine ⟨?_, ?_, fun rootId claim hclaim hlive =>
          hend.frontier _ (hmid.homes rootId claim hclaim hlive)⟩
        · rw [hend.candidates candidateId hnodup.1]
          exact hmid.stale
        · intro rootId claim hclaim
          rw [hend.claims ⟨candidateId, rootId⟩ hnodup.1] at hclaim
          exact hmid.released rootId claim hclaim
      · have hne := hother candidateId hmem
        rw [← hmid.candidates candidateId hne] at hrow
        obtain ⟨hstale, hrel, hhomes⟩ := hend.recovered candidateId hmem row hrow
        refine ⟨hstale, hrel, fun rootId claim hclaim hlive => ?_⟩
        rw [← hmid.claims ⟨candidateId, rootId⟩ hne] at hclaim
        exact hhomes rootId claim hclaim hlive
    · intro other hother
      rw [List.mem_cons, not_or] at hother
      rw [hend.candidates other hother.2, hmid.candidates other hother.1]
    · intro key hkey
      rw [List.mem_cons, not_or] at hkey
      rw [hend.claims key hkey.2, hmid.claims key hkey.1]

/-! ## The scan -/

theorem lookup_reapLeases (db : Db) (key : LeaseKey) : (db.reapLeases).1.leases.lookup key =
      (db.leases.lookup key).filter fun lease => !Leases.expiredM6 db.tick.now key lease :=
  KeyTable.lookup_deleteWhere _ _ _

theorem scan_recovers (hpast : db.CardsPast) (hdead : db.NoLiveLease) :
    ∃ db' report, db.scan = .ok (db', report) ∧
      AllRecovered db.orphanedCandidates db.reapLeases.1 db' := by
  have hdead' : db.reapLeases.1.NoLiveLease := by
    intro key lease hrow hphase
    rw [lookup_reapLeases, Option.filter_eq_some_iff] at hrow
    exact (hdead key lease hrow.1 hphase).trans db.now_le_tick
  exact recoverAll_ok _ (nodup_distinctSorted _) hdead'
    (fun key binding hbinding hopen => (hpast key binding hbinding hopen).trans db.now_le_tick)
    (fun candidateId hmem => by
      obtain ⟨-, -, candidate, -, -, hcand, hstate⟩ := mem_orphanedCandidates.mp hmem
      exact ⟨candidate, hcand, hstate⟩)

theorem scan_of_none (h : db.orphanedCandidates = []) :
    db.scan = .ok (db.reapLeases.1, ⟨db.reapLeases.2, [], 0⟩) := by
  unfold scan
  have hsame : db.reapLeases.1.orphanedCandidates = [] := h
  dsimp only
  rw [hsame]
  rfl

/-- With no genesis lease live, the scan leaves no recoverable candidate with a reservation: all
that had one are stale for lease loss, with every concept group they had reserved in the frontier.
A second scan finds nothing to do but to delete leases that have run out since. -/
theorem recovery_restores_frontier (db : Db) (hpast : db.CardsPast) (hdead : db.NoLiveLease) :
    ∃ db' report, db.scan = .ok (db', report) ∧
      (∀ candidateId candidate rootId claim, db'.candidates.lookup candidateId = some candidate →
        candidate.state ∈ recoverableStates →
        db'.claims.lookup ⟨candidateId, rootId⟩ = some claim → claim.releasedAt ≠ none) ∧
      (∀ candidateId candidate, db.candidates.lookup candidateId = some candidate →
        candidate.state ∈ recoverableStates →
        (∃ rootId claim, db.claims.lookup ⟨candidateId, rootId⟩ = some claim ∧
          claim.releasedAt = none) →
        (∃ row, db'.candidates.lookup candidateId = some row ∧ row.state = .stale ∧
          row.reason = some "lease_lost") ∧
        ∀ rootId claim, db.claims.lookup ⟨candidateId, rootId⟩ = some claim → claim.exclusive →
          (⟨candidate.space, claim.independenceGroupId, candidate.coverageEpoch⟩ : GroupKey) ∈
            db'.frontier) ∧
      ∃ db'' report', db'.scan = .ok (db'', report') ∧ report'.candidatesStaled = [] ∧
        db'' = { db'.tick with leases := db''.leases } ∧
        ∀ key, db''.leases.lookup key = (db'.leases.lookup key).filter fun lease =>
          !Leases.expiredM6 db''.now key lease := by
  obtain ⟨db', report, hscan, hall⟩ := scan_recovers hpast hdead
  have hnone : ∀ candidateId candidate rootId claim,
      db'.candidates.lookup candidateId = some candidate → candidate.state ∈ recoverableStates →
      db'.claims.lookup ⟨candidateId, rootId⟩ = some claim → claim.releasedAt ≠ none := by
    intro candidateId candidate rootId claim hcand hstate hclaim hlive
    by_cases hmem : candidateId ∈ db.orphanedCandidates
    · obtain ⟨-, -, before, -, -, hbef, -⟩ := mem_orphanedCandidates.mp hmem
      exact (hall.recovered candidateId hmem before hbef).2.1 rootId claim hclaim hlive
    · rw [hall.candidates candidateId hmem] at hcand
      rw [hall.claims ⟨candidateId, rootId⟩ hmem] at hclaim
      exact hmem (mem_orphanedCandidates.mpr
        ⟨rootId, claim, candidate, hclaim, hlive, hcand, hstate⟩)
  have hempty : db'.orphanedCandidates = [] := by
    rw [List.eq_nil_iff_forall_not_mem]
    intro candidateId hmem
    obtain ⟨rootId, claim, candidate, hclaim, hlive, hcand, hstate⟩ :=
      mem_orphanedCandidates.mp hmem
    exact hnone candidateId candidate rootId claim hcand hstate hclaim hlive
  refine ⟨db', report, hscan, hnone, ?_, _, _, scan_of_none hempty, rfl, rfl,
    fun key => lookup_reapLeases db' key⟩
  intro candidateId candidate hcand hstate hheld
  obtain ⟨rootId, claim, hclaim, hlive⟩ := hheld
  have hmem := mem_orphanedCandidates.mpr
    ⟨rootId, claim, candidate, hclaim, hlive, hcand, hstate⟩
  obtain ⟨hstale, -, hhomes⟩ := hall.recovered candidateId hmem candidate hcand
  exact ⟨hstale, hhomes⟩

/-- A prepared candidate of a daemon that was killed: its lease has run out, its claim has not
been released. -/
def afterKill : Db :=
  { oneCandidate { clusterCandidate with state := .prepared, leaseToken := some "lost" } with
    leases := (∅ : Leases).insert ⟨"genesis", "work", 7⟩ ⟨"lost", 900, 0⟩
    claims := (∅ : KeyTable ClaimKey ClaimRow).insert ⟨"c", "r"⟩
      ⟨"g", 1, .concept, none, none, 0⟩ }

theorem recovery_restores_frontier_after_kill : ∃ db' report, afterKill.scan = .ok (db', report) ∧
      (∃ row, db'.candidates.lookup "c" = some row ∧ row.state = .stale ∧
        row.reason = some "lease_lost") ∧
      (⟨"work", "g", 1⟩ : GroupKey) ∈ db'.frontier := by
  obtain ⟨db', report, hscan, -, hrec, -⟩ := recovery_restores_frontier afterKill
    (fun key binding hbinding => by cases hbinding)
    (fun key lease hrow _ => by
      rcases KeyTable.of_lookup_insert hrow with ⟨-, rfl⟩ | hnone
      · decide
      · cases hnone)
  obtain ⟨hstale, hhomes⟩ := hrec "c" _ (AList.lookup_insert _) (by decide)
    ⟨"r", _, AList.lookup_insert _, rfl⟩
  exact ⟨db', report, hscan, hstale, hhomes "r" _ (AList.lookup_insert _) (by decide)⟩

end Db

end Wenlan.Genesis
