import Wenlan.Genesis.ShadowPrepare

/-!
# Candidates and claims across a transition

Only a prepare claims anything, and it claims the roots of its proposal for its candidate.  Every
other transition leaves claims alone or releases them, and no transition changes what a candidate
was observed with.
-/

namespace Wenlan.Genesis

open Support (KeyTable)
open Support.Fallible (bind_ok foldlM_invariant mapError_eq_ok)

namespace Db

variable {db db' : Db} {candidateId : String} {candidate : CandidateRow} {coverageEpoch : Int}
  {role : ClaimRole} {claims : List ClaimReservation} {proposal : Proposal} {digest : Digest}
  {claimed : ClaimKey → Prop}

/-- The candidate exists and is not `observed`. -/
def PastObserved (db : Db) (candidateId : String) : Prop :=
  ∃ candidate, db.candidates.lookup candidateId = some candidate ∧ candidate.state ≠ .observed

/-- Candidates stay, under their digest and past `observed`, and claims are released or left alone,
but for those that may be claimed.  Only a prepare claims anything. -/
structure Transits (claimed : ClaimKey → Prop) (db db' : Db) : Prop where
  candidates : ∀ candidateId row, db.candidates.lookup candidateId = some row →
    ∃ row', db'.candidates.lookup candidateId = some row' ∧
      row'.activeRootDigest = row.activeRootDigest ∧
      (row.state ≠ .observed → row'.state ≠ .observed)
  claims : ∀ key claim, db'.claims.lookup key = some claim →
    (∃ old, db.claims.lookup key = some old ∧
      (claim.releasedAt = none → old.releasedAt = none)) ∨ claimed key

theorem Transits.trans {db'' : Db} (h : Transits claimed db db') (h' : Transits claimed db' db'') :
    Transits claimed db db'' where
  candidates candidateId row hrow := by
    obtain ⟨mid, hmid, hdig, hstate⟩ := h.candidates candidateId row hrow
    obtain ⟨row', hrow', hdig', hstate'⟩ := h'.candidates candidateId mid hmid
    exact ⟨row', hrow', hdig'.trans hdig, fun hne => hstate' (hstate hne)⟩
  claims key claim hclaim := by
    rcases h'.claims key claim hclaim with ⟨mid, hmid, hlive⟩ | hclaimed
    · rcases h.claims key mid hmid with ⟨old, hold, hlive'⟩ | hclaimed
      · exact .inl ⟨old, hold, fun hnone => hlive' (hlive hnone)⟩
      · exact .inr hclaimed
    · exact .inr hclaimed

theorem Transits.mono {claimed' : ClaimKey → Prop} (hmono : ∀ key, claimed key → claimed' key)
    (h : Transits claimed db db') : Transits claimed' db db' where
  candidates := h.candidates
  claims key claim hclaim := (h.claims key claim hclaim).imp_right (hmono key)

theorem transits_of_claims (hclai : db'.claims = db.claims)
    (hcands : ∀ candidateId row, db.candidates.lookup candidateId = some row →
      ∃ row', db'.candidates.lookup candidateId = some row' ∧
        row'.activeRootDigest = row.activeRootDigest ∧
        (row.state ≠ .observed → row'.state ≠ .observed)) : Transits claimed db db' := by
  refine ⟨hcands, fun key claim hclaim => .inl ⟨claim, ?_, id⟩⟩
  rw [← hclai]
  exact hclaim

theorem transits_of_eq (hclai : db'.claims = db.claims)
    (hcands : db'.candidates = db.candidates) : Transits claimed db db' := by
  apply transits_of_claims hclai
  intro candidateId row hrow
  rw [hcands]
  exact ⟨row, hrow, rfl, id⟩

theorem transits_of_claimData (h : db'.claimData = db.claimData) : Transits claimed db db' := by
  obtain ⟨hclai, hrest⟩ := Prod.mk.inj h
  exact transits_of_eq hclai (Prod.mk.inj hrest).1

theorem transits_update (states : List CandidateState) {change : CandidateRow → CandidateRow}
    (hdig : ∀ row, (change row).activeRootDigest = row.activeRootDigest)
    (hstate : ∀ row, row.state ≠ .observed → (change row).state ≠ .observed) :
    Transits claimed db (db.updateCandidate candidateId states change).1 := by
  refine transits_of_claims rfl ?_
  intro other row hrow
  rw [lookup_updateCandidate, hrow, Option.map_some]
  refine ⟨_, rfl, ?_⟩
  split_ifs
  · exact ⟨hdig row, hstate row⟩
  · exact ⟨rfl, id⟩

theorem transits_observe (candidate : ObservedCandidate) (db : Db) :
    Transits claimed db (db.observeCandidate candidate).1 := by
  unfold observeCandidate
  split_ifs with hknown
  · exact transits_of_eq rfl rfl
  · exact transits_of_eq rfl rfl
  · refine transits_of_claims rfl ?_
    intro other row hrow
    exact ⟨row, KeyTable.lookup_insert_of_notMem hknown hrow, rfl, id⟩

/-! ## Candidates that leave -/

theorem transits_release (reason : String) (db : Db) :
    Transits claimed db (db.releaseClaimsToFrontier candidateId candidate reason).1 := by
  have honly := onlyFrontier_restoreFrontierRows candidate.space candidate.coverageEpoch
    (db.candidateConceptGroups candidateId true) (db.releaseClaims candidateId reason)
  have hcands : (db.releaseClaimsToFrontier candidateId candidate reason).1.candidates =
      db.candidates := honly.candidates
  have hclai : (db.releaseClaimsToFrontier candidateId candidate reason).1.claims =
      (db.releaseClaims candidateId reason).claims := honly.claims
  constructor
  · intro other row hrow
    rw [hcands]
    exact ⟨row, hrow, rfl, id⟩
  · intro key claim hclaim
    rw [hclai, lookup_releaseClaims, Option.map_eq_some_iff] at hclaim
    obtain ⟨old, hold, rfl⟩ := hclaim
    refine .inl ⟨old, hold, ?_⟩
    split_ifs
    · intro hnone
      cases hnone
    · exact id

theorem transits_settle {reason : String}
    (h : db.settleGroupsToFrontier candidateId candidate reason = .ok db') :
    Transits claimed db db' := by
  refine foldlM_invariant (P := Transits claimed db) ?_ (transits_release reason db)
    h
  intro group _ current next hcurrent hone
  obtain ⟨⟨after, expired⟩, hexp, hnext⟩ := bind_ok hone
  cases hnext
  exact hcurrent.trans (transits_of_claimData (claimData_expireCard hexp))

theorem transits_tick (db : Db) : Transits claimed db db.tick := transits_of_eq rfl rfl

theorem transits_stale {reason : StaleReason} (h : db.markStale candidateId reason = .ok db') :
    Transits claimed db db' := by
  obtain ⟨candidate, -, h⟩ := bind_ok h
  obtain ⟨u, -, h⟩ := bind_ok h
  obtain ⟨settled, hset, h⟩ := bind_ok h
  obtain ⟨u', -, h⟩ := bind_ok h
  cases h
  have htick : Transits claimed db settled.tick :=
    (transits_settle hset).trans (transits_tick settled)
  exact htick.trans (transits_update _ (fun _ => rfl) fun _ _ => by simp)

theorem transits_superseded (h : db.markSuperseded candidateId = .ok db') :
    Transits claimed db db' := by
  obtain ⟨candidate, -, h⟩ := bind_ok h
  obtain ⟨u, -, h⟩ := bind_ok h
  obtain ⟨settled, hset, h⟩ := bind_ok h
  obtain ⟨u', -, h⟩ := bind_ok h
  cases h
  exact (transits_settle hset).trans (transits_update _ (fun _ => rfl) fun _ _ => by simp)

theorem transits_reviewRequired {cardId : String}
    (h : db.markReviewRequired candidateId cardId = .ok db') : Transits claimed db db' := by
  obtain ⟨candidate, -, h⟩ := bind_ok h
  obtain ⟨u, -, h⟩ := bind_ok h
  obtain ⟨bound, hbound, h⟩ := bind_ok h
  obtain ⟨u', -, h⟩ := bind_ok h
  cases h
  have hrel : Transits claimed db bound := (transits_release "review_required" db).trans
    (transits_of_claimData (claimData_bind (mapError_eq_ok.mp hbound)))
  exact hrel.trans (transits_update _ (fun _ => rfl) fun _ _ => by simp)

theorem transits_suppressed {cardId reason : String}
    (h : db.markSuppressed candidateId cardId reason = .ok db') : Transits claimed db db' := by
  obtain ⟨candidate, -, h⟩ := bind_ok h
  obtain ⟨u, -, h⟩ := bind_ok h
  obtain ⟨dismissed, hdism, h⟩ := bind_ok h
  obtain ⟨u', -, h⟩ := bind_ok h
  cases h
  have hdismi : Transits claimed db dismissed :=
    transits_of_claimData (claimData_dismiss (mapError_eq_ok.mp hdism))
  exact hdismi.trans (transits_update _ (fun _ => rfl) fun _ _ => by simp)

theorem transits_retryWait {charge : RetryCharge}
    (h : db.markRetryWait candidateId charge = .ok db') : Transits claimed db db' := by
  obtain ⟨candidate, -, h⟩ := bind_ok h
  obtain ⟨u, -, h⟩ := bind_ok h
  obtain ⟨u', -, h⟩ := bind_ok h
  cases h
  exact (transits_tick db).trans (transits_update _ (fun _ => rfl) fun _ _ => by simp)

theorem transits_moveState {sources : List CandidateState} {target : CandidateState}
    (htarg : target ≠ .observed) (h : db.moveState candidateId sources target = .ok db') :
    Transits claimed db db' := by
  obtain ⟨candidate, -, h⟩ := bind_ok h
  obtain ⟨u, -, h⟩ := bind_ok h
  obtain ⟨u', -, h⟩ := bind_ok h
  obtain ⟨u₂, -, h⟩ := bind_ok h
  cases h
  exact transits_update _ (fun _ => rfl) fun _ _ => htarg

theorem transits_surface {space spaceId : String} {surfacing : Option Surfacing}
    (h : db.surfaceBelowFloorGroups digest space spaceId coverageEpoch = .ok (db', surfacing)) :
    Transits claimed db db' := by
  unfold surfaceBelowFloorGroups at h
  dsimp only at h
  split_ifs at h
  · cases h
    exact transits_tick db
  · obtain ⟨bound, hbound, h⟩ := bind_ok h
    cases h
    exact (transits_tick db).trans
      (transits_of_claimData (claimData_bind (mapError_eq_ok.mp hbound)))

theorem transits_move {move : Move} (hnot : ∀ candidateId rootIds,
    move ≠ .prepare candidateId rootIds) (h : Step digest db move db') :
    Transits claimed db db' := by
  obtain ⟨-, hnext⟩ := h
  cases move with
  | evidence roots edges =>
    cases hnext
    exact transits_of_eq rfl rfl
  | reconcile space coverageEpoch =>
    obtain ⟨outcome, hok⟩ := toOption_fst hnext
    exact transits_of_claimData (claimData_reconcile hok)
  | defer group delaySeconds =>
    cases hnext
    exact transits_of_eq rfl rfl
  | surface space spaceId coverageEpoch =>
    obtain ⟨surfacing, hok⟩ := toOption_fst hnext
    exact transits_surface hok
  | bind space coverageEpoch cardId groups =>
    exact transits_of_claimData (claimData_bind (toOption_eq_some hnext))
  | expireCard group =>
    obtain ⟨expired, hok⟩ := toOption_fst hnext
    exact transits_of_claimData (claimData_expireCard hok)
  | dismiss cardId reason =>
    exact transits_of_claimData (claimData_dismiss (toOption_eq_some hnext))
  | suppress group pageId reason =>
    exact transits_of_claimData (claimData_suppress (toOption_eq_some hnext))
  | lapse space coverageEpoch =>
    obtain ⟨lapsed, hok⟩ := toOption_fst hnext
    exact transits_of_claimData (claimData_reconcileExpired hok)
  | quarantine group reason =>
    exact transits_of_claimData (claimData_quarantine (toOption_eq_some hnext))
  | lift group => exact transits_of_claimData (claimData_lift (toOption_eq_some hnext))
  | observe candidate =>
    cases hnext
    exact transits_observe candidate db
  | prepare candidateId rootIds => exact absurd rfl (hnot candidateId rootIds)
  | inferencing candidateId => exact transits_moveState (by simp) (toOption_eq_some hnext)
  | validating candidateId => exact transits_moveState (by simp) (toOption_eq_some hnext)
  | retryWait candidateId charge => exact transits_retryWait (toOption_eq_some hnext)
  | stale candidateId reason => exact transits_stale (toOption_eq_some hnext)
  | superseded candidateId => exact transits_superseded (toOption_eq_some hnext)
  | reviewRequired candidateId cardId => exact transits_reviewRequired (toOption_eq_some hnext)
  | suppressCandidate candidateId cardId reason =>
    exact transits_suppressed (toOption_eq_some hnext)

theorem mem_fillGroups {rootIds : List String} {rootId : String} :
    rootId ∈ (db.fillGroups rootIds).map (·.rootId) ↔ rootId ∈ rootIds ∧ rootId ∈ db.roots := by
  rw [List.mem_map, KeyTable.mem_iff]
  constructor
  · rintro ⟨claim, hmem, rfl⟩
    obtain ⟨named, hnamed, hclaim⟩ := List.mem_filterMap.mp hmem
    obtain ⟨root, hroot, rfl⟩ := Option.map_eq_some_iff.mp hclaim
    exact ⟨hnamed, root, hroot⟩
  · rintro ⟨hnamed, root, hroot⟩
    refine ⟨⟨rootId, root.independenceGroupId⟩, List.mem_filterMap.mpr ⟨rootId, hnamed, ?_⟩, rfl⟩
    rw [hroot, Option.map_some]

theorem insertClaims_own {key : ClaimKey} {row : ClaimRow}
    (h : (db.insertClaims candidateId coverageEpoch role claims).1.claims.lookup key = some row) :
    db.claims.lookup key = some row ∨
      key.candidateId = candidateId ∧ key.rootId ∈ claims.map (·.rootId) := by
  induction claims generalizing db with
  | nil => exact .inl h
  | cons claim claims ih =>
    rw [List.map_cons, List.mem_cons]
    rw [insertClaims] at h
    cases hinsert : db.insertClaim candidateId coverageEpoch role claim with
    | none =>
      rw [hinsert] at h
      exact .inl h
    | some next =>
      rw [hinsert] at h
      rcases ih h with hnext | ⟨hown, hroot⟩
      · rw [insertClaim_eq_some hinsert] at hnext
        by_cases hkey : key = ⟨candidateId, claim.rootId⟩
        · subst hkey
          exact .inr ⟨rfl, .inl rfl⟩
        · rw [AList.lookup_insert_ne hkey] at hnext
          exact .inl hnext
      · exact .inr ⟨hown, .inr hroot⟩

def ClaimsOn (candidateId : String) (rootIds : List String) (key : ClaimKey) : Prop :=
  key.candidateId = candidateId ∧ key.rootId ∈ rootIds

theorem transits_insertClaims (role : ClaimRole) (db : Db) :
    Transits (ClaimsOn candidateId (claims.map (·.rootId))) db
      (db.insertClaims candidateId coverageEpoch role claims).1 := by
  constructor
  · intro other row hrow
    rw [insertClaims_candidates]
    exact ⟨row, hrow, rfl, id⟩
  · intro key claim hclaim
    rcases insertClaims_own hclaim with hbef | hown
    · exact .inl ⟨claim, hbef, id⟩
    · exact .inr hown

variable {leaseToken : String}

theorem transits_finishPrepare {outcome : PrepareOutcome}
    (h : db.finishPrepare candidateId candidate claims leaseToken = .ok (db', outcome)) :
    Transits claimed db db' := by
  obtain ⟨u, -, h⟩ := bind_ok h
  cases h
  refine Transits.trans ?_ (transits_update _ (fun _ => rfl) fun _ _ => by simp)
  split_ifs
  · rw [retireFrontierRows_eq]
    exact transits_of_eq rfl rfl
  · exact transits_of_eq rfl rfl

theorem transits_prepareDue {outcome : PrepareOutcome}
    (h : db.prepareDue candidateId candidate claims = .ok (db', outcome)) :
    Transits (ClaimsOn candidateId (claims.map (·.rootId))) db db' := by
  unfold prepareDue at h
  obtain ⟨hleasedClaims, hleasedCandidates⟩ := acquireLease_tables db .genesis candidate.space
    candidate.inputGeneration candidate.attempt
  rcases hleas : db.acquireLease .genesis candidate.space candidate.inputGeneration
    candidate.attempt with ⟨leased, leaseToken⟩
  rw [hleas] at h hleasedClaims hleasedCandidates
  have hlease : Transits (ClaimsOn candidateId (claims.map (·.rootId))) db leased :=
    transits_of_eq hleasedClaims hleasedCandidates
  cases leaseToken with
  | none =>
    cases h
    exact hlease
  | some leaseToken =>
    dsimp only at h
    have hloop := @transits_insertClaims candidateId candidate.coverageEpoch claims
      (claimRoleFor candidate.signalKind) leased
    rcases hins : leased.insertClaims candidateId candidate.coverageEpoch
      (claimRoleFor candidate.signalKind) claims with ⟨inserted, refused⟩
    rw [hins] at h hloop
    cases refused with
    | some rootId =>
      cases h
      exact hlease.trans hloop
    | none => exact (hlease.trans hloop).trans (transits_finishPrepare h)

theorem transits_prepareCandidate {outcome : PrepareOutcome}
    (hrow : db.candidates.lookup candidateId = some candidate)
    (hlegal : transitionIsLegal candidate.state .prepared)
    (h : db.prepareCandidate candidateId claims = .ok (db', outcome)) :
    Transits (ClaimsOn candidateId (claims.map (·.rootId))) db db' := by
  rw [prepareCandidate_eq claims hrow hlegal] at h
  split_ifs at h
  · exact (transits_tick db).trans (transits_prepareDue h)
  · cases h
    exact transits_tick db
  · exact transits_prepareDue h

theorem prepareOne_admitted {turn : Option GenesisTurn} (hadm : db.Admitted proposal)
    (h : db.prepareOne proposal = .ok (db', turn)) :
    ∃ observed, observed.candidates.lookup proposal.candidate.candidateId =
        some (db.readFor proposal) ∧
      Transits (ClaimsOn proposal.candidate.candidateId proposal.rootIds) db observed ∧
      Transits (ClaimsOn proposal.candidate.candidateId proposal.rootIds) observed db' := by
  have hto := @transits_observe (ClaimsOn proposal.candidate.candidateId proposal.rootIds)
    proposal.candidate db
  obtain ⟨observed, outcome, hobs, houtc, -, hread, -⟩ := observe_admitted hadm
  unfold prepareOne at h
  rw [hobs] at h hto
  dsimp only at h hto
  rw [if_neg houtc, hread] at h
  dsimp only at h
  refine ⟨observed, hread, hto, ?_⟩
  split_ifs at h with hexh hlegal
  · obtain ⟨stale, hstale, h⟩ := bind_ok h
    cases h
    exact transits_stale hstale
  · obtain ⟨⟨prepared, answer⟩, hprep, h⟩ := bind_ok h
    cases h
    refine (transits_prepareCandidate hread hlegal hprep).mono ?_
    rintro key ⟨hown, hroot⟩
    exact ⟨hown, (mem_fillGroups.mp hroot).1⟩
  · cases h
    exact transits_of_eq rfl rfl

theorem prepareOne_not_admitted {turn : Option GenesisTurn} (hadm : ¬ db.Admitted proposal)
    (h : db.prepareOne proposal = .ok (db', turn)) : db' = db := by
  unfold prepareOne at h
  rw [observe_refused hadm] at h
  cases h
  rfl

theorem transits_prepareOne {turn : Option GenesisTurn}
    (h : db.prepareOne proposal = .ok (db', turn)) :
    Transits (ClaimsOn proposal.candidate.candidateId proposal.rootIds) db db' := by
  by_cases hadm : db.Admitted proposal
  · obtain ⟨observed, -, hto, hfrom⟩ := prepareOne_admitted hadm h
    exact hto.trans hfrom
  · rw [prepareOne_not_admitted hadm h]
    exact transits_of_eq rfl rfl

/-! ## What a prepare stores -/

theorem insertClaims_rows
    (h : db.insertClaims candidateId coverageEpoch role claims = (db', none)) (rootId : String) :
    (rootId ∈ claims.map (·.rootId) → ∃ row, db'.claims.lookup ⟨candidateId, rootId⟩ = some row ∧
      row.releasedAt = none ∧ row.claimRole = role) ∧ (rootId ∉ claims.map (·.rootId) →
      db'.claims.lookup ⟨candidateId, rootId⟩ = db.claims.lookup ⟨candidateId, rootId⟩) := by
  induction claims generalizing db with
  | nil =>
    cases h
    exact ⟨fun hmem => absurd hmem (by simp), fun _ => rfl⟩
  | cons claim claims ih =>
    rw [insertClaims] at h
    cases hinsert : db.insertClaim candidateId coverageEpoch role claim with
    | none =>
      rw [hinsert] at h
      cases h
    | some next =>
      rw [hinsert] at h
      obtain ⟨hclaimed, hkept⟩ := ih h
      rw [insertClaim_eq_some hinsert] at hkept
      rw [List.map_cons, List.mem_cons]
      by_cases hrest : rootId ∈ claims.map (·.rootId)
      · exact ⟨fun _ => hclaimed hrest, fun hnot => absurd (.inr hrest) hnot⟩
      · rw [hkept hrest]
        by_cases hsame : rootId = claim.rootId
        · subst hsame
          refine ⟨fun _ => ⟨_, AList.lookup_insert _, rfl, rfl⟩, fun hnot => ?_⟩
          exact absurd (.inl rfl) hnot
        · refine ⟨fun hmem => absurd hmem (by simp [hsame, hrest]), fun _ => ?_⟩
          exact AList.lookup_insert_ne fun heq => hsame (congrArg ClaimKey.rootId heq)

def preparedRow (candidate : CandidateRow) (leaseToken : String) : CandidateRow :=
  { candidate with
    state := .prepared, leaseToken := some leaseToken,
    attempt := if candidate.state = .stale then 0 else candidate.attempt, reason := none,
    nextAttemptAt := none }

structure PreparedFrom (candidateId : String) (candidate : CandidateRow)
    (claims : List ClaimReservation) (db db' : Db) : Prop where
  stored : ∃ lease : Lease, db'.leases.lookup (leaseKeyOf candidate) = some lease ∧
    db'.candidates.lookup candidateId = some (preparedRow candidate lease.token)
  roots : db'.roots = db.roots
  claimed : ∀ rootId ∈ claims.map (·.rootId), ∃ row,
    db'.claims.lookup ⟨candidateId, rootId⟩ = some row ∧ row.releasedAt = none ∧
      row.claimRole = claimRoleFor candidate.signalKind
  kept : ∀ rootId, rootId ∉ claims.map (·.rootId) →
    db'.claims.lookup ⟨candidateId, rootId⟩ = db.claims.lookup ⟨candidateId, rootId⟩

theorem PreparedFrom.past (h : PreparedFrom candidateId candidate claims db db') :
    db'.PastObserved candidateId := by
  obtain ⟨lease, -, hrow⟩ := h.stored
  refine ⟨_, hrow, ?_⟩
  intro hobser
  cases hobser

theorem finishPrepare_stores {outcome : PrepareOutcome}
    (hrow : db.candidates.lookup candidateId = some candidate)
    (hlegal : transitionIsLegal candidate.state .prepared)
    (h : db.finishPrepare candidateId candidate claims leaseToken = .ok (db', outcome)) :
    db'.leases = db.leases ∧ db'.roots = db.roots ∧ db'.claims = db.claims ∧
      db'.candidates.lookup candidateId = some (preparedRow candidate leaseToken) := by
  have hstate : candidate.state ∈ [CandidateState.observed, .retryWait, .stale] := by
    revert hlegal
    cases candidate.state <;> decide
  obtain ⟨u, -, h⟩ := bind_ok h
  cases h
  obtain ⟨retired, hret⟩ : ∃ retired, retired = if claimRoleFor candidate.signalKind = .concept then
        db.retireFrontierRows candidate.space candidate.coverageEpoch (distinctGroups claims)
      else db := ⟨_, rfl⟩
  have hsame : retired = { db with frontier := retired.frontier } := by
    rw [hret]
    split_ifs
    · exact retireFrontierRows_eq _ _ _
    · rfl
  rw [← hret]
  have hlook := lookup_updateCandidate candidateId [.observed, .retryWait, .stale]
    (fun row => { row with
      state := .prepared, leaseToken := some leaseToken,
      attempt := if candidate.state = .stale then 0 else candidate.attempt, reason := none,
      nextAttemptAt := none }) retired candidateId
  have hretir : retired.candidates.lookup candidateId = some candidate := by
    rw [hsame]
    exact hrow
  have hchos : candidateId = candidateId ∧
      candidate.state ∈ [CandidateState.observed, .retryWait, .stale] := ⟨rfl, hstate⟩
  rw [hretir, Option.map_some, if_pos hchos] at hlook
  refine ⟨?_, ?_, ?_, hlook⟩
  · show retired.leases = db.leases
    rw [hsame]
  · show retired.roots = db.roots
    rw [hsame]
  · show retired.claims = db.claims
    rw [hsame]

section

variable {token : String} (hrow : db.candidates.lookup candidateId = some candidate)
  (hlegal : transitionIsLegal candidate.state .prepared)
include hrow hlegal

theorem prepareDue_stores
    (h : db.prepareDue candidateId candidate claims = .ok (db', .prepared token)) :
    PreparedFrom candidateId candidate claims db db' := by
  unfold prepareDue at h
  by_cases hfree : db.LeaseFree candidate
  · obtain ⟨leased, lease, hleas, hlease, htoken, -⟩ := acquireLease_new hfree
    have hfst : leased = (db.acquireLease .genesis candidate.space candidate.inputGeneration
        candidate.attempt).1 := by rw [hleas]
    have hsame : leased = { db with
        leases := leased.leases, tokens := leased.tokens, clock := leased.clock } := by
      rw [hfst]
      rfl
    rw [hleas] at h
    dsimp only at h
    have hleases := insertClaims_leases candidateId candidate.coverageEpoch
      (claimRoleFor candidate.signalKind) claims leased
    have hcands := insertClaims_candidates candidateId candidate.coverageEpoch
      (claimRoleFor candidate.signalKind) claims leased
    have hroots := insertClaims_roots candidateId candidate.coverageEpoch
      (claimRoleFor candidate.signalKind) claims leased
    rcases hins : leased.insertClaims candidateId candidate.coverageEpoch
      (claimRoleFor candidate.signalKind) claims with ⟨claimed, refused⟩
    rw [hins] at h hleases hcands hroots
    cases refused with
    | some rootId => cases h
    | none =>
      have hclaime : claimed.candidates.lookup candidateId = some candidate := by
        rw [hcands, hsame]
        exact hrow
      obtain ⟨hstoredLeases, hstoredRoots, hstore, hstor⟩ :=
        finishPrepare_stores hclaime hlegal h
      constructor
      · refine ⟨lease, ?_, ?_⟩
        · rw [hstoredLeases, hleases]
          exact hlease
        · rw [htoken]
          exact hstor
      · rw [hstoredRoots, hroots, hsame]
      · intro rootId hmem
        rw [hstore]
        exact (insertClaims_rows hins rootId).1 hmem
      · intro rootId hnot
        rw [hstore, (insertClaims_rows hins rootId).2 hnot, hsame]
  · obtain ⟨hheld, -⟩ := acquireLease_held hfree
    rcases hleas : db.acquireLease .genesis candidate.space candidate.inputGeneration
      candidate.attempt with ⟨leased, leaseToken⟩
    rw [hleas] at h hheld
    subst hheld
    cases h

theorem prepareCandidate_stores
    (h : db.prepareCandidate candidateId claims = .ok (db', .prepared token)) :
    PreparedFrom candidateId candidate claims db db' := by
  rw [prepareCandidate_eq claims hrow hlegal] at h
  split_ifs at h
  · have hstor := @prepareDue_stores db.tick _ _ _ _ _ hrow hlegal h
    exact ⟨hstor.stored, hstor.roots, hstor.claimed, hstor.kept⟩
  · cases h
  · exact prepareDue_stores hrow hlegal h

end

theorem prepareOne_stores {candidateId : String}
    (h : db.prepareOne proposal = .ok (db', some (.prepared candidateId))) :
    candidateId = proposal.candidate.candidateId ∧
      PreparedFrom candidateId (db.readFor proposal) (db.fillGroups proposal.rootIds) db db' := by
  by_cases hadm : db.Admitted proposal
  · obtain ⟨observed, outcome, hobs, houtc, hobser, hread, -⟩ :=
      observe_admitted hadm
    unfold prepareOne at h
    rw [hobs] at h
    dsimp only at h
    rw [if_neg houtc, hread] at h
    dsimp only at h
    split_ifs at h with hexh hlegal
    · obtain ⟨stale, -, h⟩ := bind_ok h
      cases h
    · obtain ⟨⟨prepared, answer⟩, hprep, h⟩ := bind_ok h
      cases answer with
      | prepared token =>
        cases h
        have hstor := prepareCandidate_stores hread hlegal hprep
        rw [hobser] at hstor
        exact ⟨rfl, hstor.stored, hstor.roots, hstor.claimed, hstor.kept⟩
      | leaseHeld => cases h
      | notDue => cases h
      | claimRefused rootId => cases h
    · cases h
  · unfold prepareOne at h
    rw [observe_refused hadm] at h
    cases h

end Db

end Wenlan.Genesis
