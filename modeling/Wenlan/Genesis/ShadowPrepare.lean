import Wenlan.Genesis.FirstSeen

/-!
# Prepares of a shadow turn

`m6/shadow.rs`: a turn observes and prepares the proposals of a space one after the other, each
in its own transaction.  A prepare that is refused at a claim is committed like the others, with
the lease and the claims it has by then.  The envelope and the counters that a turn writes beside
a prepare are left out.
-/

namespace Wenlan.Genesis

open Support (KeyTable)
open Support.Transition
open Support.Fallible (bind_ok foldlM_invariant)

def retryExhausted (attempt : Int) : Bool := decide (retryAttemptLimit < attempt)

/-- The reports of `GenesisTurn` that a prepare can make. -/
inductive GenesisTurn where
  | prepared (candidateId : String)
  | requeued (candidateId reason : String)
  | parked (candidateId reason : String)
  | refusedBudget
  deriving DecidableEq

/-- `CandidateProposal`, with the candidate as the turn would observe it. -/
structure Proposal where
  candidate : Db.ObservedCandidate
  rootIds : List String

namespace Db

def PrepareOutcome.turn (candidateId : String) : PrepareOutcome → Option GenesisTurn
  | .prepared _ => some (.prepared candidateId)
  | .claimRefused rootId => some (.requeued candidateId ("claim refused on root " ++ rootId))
  | .leaseHeld => none
  | .notDue => none

/-- `prepare_one`: the database is what the caller commits, whichever report comes with it. -/
def prepareOne (proposal : Proposal) (db : Db) : Except GenesisError (Db × Option GenesisTurn) :=
  let candidateId := proposal.candidate.candidateId
  let (db, outcome) := db.observeCandidate proposal.candidate
  if outcome = .refusedPendingCap then .ok (db, some .refusedBudget)
  else
    match db.candidates.lookup candidateId with
    | none => .ok (db, none)
    | some candidate =>
      if candidate.state = .retryWait ∧ retryExhausted candidate.attempt = true then do
        let db ← db.markStale candidateId .retryExhausted
        return (db, some (.parked candidateId StaleReason.retryExhausted.asStr))
      else if transitionIsLegal candidate.state .prepared = true then do
        let (db, outcome) ← db.prepareCandidate candidateId (db.fillGroups proposal.rootIds)
        return (db, outcome.turn candidateId)
      else .ok (db, none)

/-- No lease that was not there, no unreleased claim that was not one, and every frontier row. -/
structure LeavesNothing (db db' : Db) : Prop where
  leases : ∀ key lease, db'.leases.lookup key = some lease → db.leases.lookup key = some lease
  claims : ∀ key claim, db'.claims.lookup key = some claim → claim.releasedAt = none →
    ∃ old, db.claims.lookup key = some old ∧ old.releasedAt = none
  frontier : ∀ home, home ∈ db.frontier → home ∈ db'.frontier

variable {db db' : Db} {candidateId : String} {candidate : CandidateRow} {coverageEpoch : Int}
  {role : ClaimRole} {claim : ClaimReservation} {claims : List ClaimReservation}
  {proposal : Proposal}

theorem LeavesNothing.trans {db'' : Db} (h : LeavesNothing db db') (h' : LeavesNothing db' db'') :
    LeavesNothing db db'' where
  leases key lease hrow := h.leases key lease (h'.leases key lease hrow)
  claims key claim hrow hlive := by
    obtain ⟨old, hold, holdL⟩ := h'.claims key claim hrow hlive
    exact h.claims key old hold holdL
  frontier home hmem := h'.frontier home (h.frontier home hmem)

theorem LeavesNothing.of_eq (hleas : db'.leases = db.leases) (hclai : db'.claims = db.claims)
    (hfront : db'.frontier = db.frontier) : LeavesNothing db db' := by
  constructor
  · intro key lease hrow
    rw [← hleas]
    exact hrow
  · intro key claim hrow hlive
    rw [hclai] at hrow
    exact ⟨claim, hrow, hlive⟩
  · intro home hmem
    rw [hfront]
    exact hmem

theorem leavesNothing_release (reason : String) (db : Db) :
    LeavesNothing db (db.releaseClaimsToFrontier candidateId candidate reason).1 := by
  have honly := onlyFrontier_restoreFrontierRows candidate.space candidate.coverageEpoch
    (db.candidateConceptGroups candidateId true) (db.releaseClaims candidateId reason)
  constructor
  · intro key lease hrow
    have hleas : (db.releaseClaimsToFrontier candidateId candidate reason).1.leases =
        db.leases := honly.leases
    rw [← hleas]
    exact hrow
  · intro key claim hrow hlive
    have hclai : (db.releaseClaimsToFrontier candidateId candidate reason).1.claims =
        (db.releaseClaims candidateId reason).claims := honly.claims
    rw [hclai, lookup_releaseClaims, Option.map_eq_some_iff] at hrow
    obtain ⟨old, hold, hclaim⟩ := hrow
    split_ifs at hclaim with hrelea
    · subst hclaim
      cases hlive
    · exact ⟨claim, hclaim ▸ hold, hlive⟩
  · intro home hmem
    exact mem_restoreFrontierRows.mpr (.inr hmem)

theorem CardsExpired.leavesNothing (h : CardsExpired db db') : LeavesNothing db db' := by
  constructor
  · intro key lease hrow
    rw [← h.leases]
    exact hrow
  · intro key claim hrow hlive
    rw [h.claims] at hrow
    exact ⟨claim, hrow, hlive⟩
  · exact h.frontier

theorem leavesNothing_stale {reason : StaleReason}
    (h : db.markStale candidateId reason = .ok db') : LeavesNothing db db' := by
  obtain ⟨candidate, -, h⟩ := bind_ok h
  obtain ⟨u, -, h⟩ := bind_ok h
  obtain ⟨settled, hset, h⟩ := bind_ok h
  obtain ⟨u', -, h⟩ := bind_ok h
  cases h
  have hrel : LeavesNothing db
      (db.releaseClaimsToFrontier candidateId candidate reason.asStr).1 :=
    leavesNothing_release reason.asStr db
  have hsettl : LeavesNothing db settled := by
    refine foldlM_invariant (P := LeavesNothing db) ?_ hrel hset
    intro group _ current next hcurrent hone
    obtain ⟨⟨after, expired⟩, hexpir, hnext⟩ := bind_ok hone
    cases hnext
    exact hcurrent.trans (cardsExpired_of_expire hexpir).leavesNothing
  exact hsettl.trans (.of_eq rfl rfl rfl)

theorem insertClaim_apart
    (h : db.insertClaim candidateId coverageEpoch .concept claim = some db') {key : ClaimKey}
    {row : ClaimRow} (hrow : db.claims.lookup key = some row) (hlive : row.exclusive)
    (hepoch : row.coverageEpoch = coverageEpoch) (hother : key.candidateId ≠ candidateId) :
    key.rootId ≠ claim.rootId ∧ row.independenceGroupId ≠ claim.independenceGroupId := by
  unfold insertClaim at h
  dsimp only at h
  split_ifs at h with hclash
  rw [Bool.or_eq_true, not_or] at hclash
  obtain ⟨hroot, hgroup⟩ := hclash
  have hne : key ≠ ⟨candidateId, claim.rootId⟩ :=
    fun heq => hother (congrArg ClaimKey.candidateId heq)
  have hexcl : ∀ now own, (claimRow claim coverageEpoch .concept now own).exclusive :=
    fun now own => claimRow_exclusive.mpr rfl
  constructor
  · intro hsame
    apply hroot
    rw [KeyTable.clashes_iff]
    refine ⟨key, row, (claim.rootId, coverageEpoch), hne, hrow, ?_, ?_⟩
    · rw [rootClaim, if_pos (hexcl _ _)]
      rfl
    · rw [rootClaim, if_pos hlive, hsame, hepoch]
  · intro hsame
    apply hgroup
    rw [KeyTable.clashes_iff]
    refine ⟨key, row, (claim.independenceGroupId, coverageEpoch), hne, hrow, ?_, ?_⟩
    · rw [groupClaim, if_pos (hexcl _ _)]
      rfl
    · rw [groupClaim, if_pos hlive, hsame, hepoch]

theorem othersApart_of_insertClaims
    (h : (db.insertClaims candidateId coverageEpoch .concept claims).2 = none) :
    db.OthersApart candidateId coverageEpoch claims := by
  induction claims generalizing db with
  | nil =>
    intro key row _ _ _ _ claim hmem
    cases hmem
  | cons claim claims ih =>
    rw [insertClaims] at h
    cases hinsert : db.insertClaim candidateId coverageEpoch .concept claim with
    | none =>
      rw [hinsert] at h
      cases h
    | some next =>
      rw [hinsert] at h
      have hrest := ih h
      intro key row hrow hlive hepoch hother reservation hmem
      cases hmem with
      | head => exact insertClaim_apart hinsert hrow hlive hepoch hother
      | tail _ hmem =>
        have hnext : next.claims.lookup key = some row := by
          rw [insertClaim_eq_some hinsert]
          rw [AList.lookup_insert_ne
            (fun heq => hother (congrArg ClaimKey.candidateId heq))]
          exact hrow
        exact hrest key row hnext hlive hepoch hother reservation hmem

theorem insertClaims_accepted_iff :
    (db.insertClaims candidateId coverageEpoch .concept claims).2 = none ↔
      db.OthersApart candidateId coverageEpoch claims ∧
        Separate (db.ownGroup candidateId coverageEpoch) claims := by
  constructor
  · intro h
    have hoth := othersApart_of_insertClaims h
    exact ⟨hoth, (insertClaims_concept hoth).mp h⟩
  · rintro ⟨hoth, hsep⟩
    exact (insertClaims_concept hoth).mpr hsep

section

variable (candidateId : String) (coverageEpoch : Int) (role : ClaimRole)
  (claims : List ClaimReservation) (db : Db)

theorem insertClaims_roots :
    (db.insertClaims candidateId coverageEpoch role claims).1.roots = db.roots := by
  induction claims generalizing db with
  | nil => rfl
  | cons claim claims ih =>
    rw [insertClaims]
    split
    · rfl
    · rename_i next hnext
      rw [ih next, insertClaim_eq_some hnext]
      rfl

theorem insertClaims_leases :
    (db.insertClaims candidateId coverageEpoch role claims).1.leases = db.leases := by
  induction claims generalizing db with
  | nil => rfl
  | cons claim claims ih =>
    rw [insertClaims]
    split
    · rfl
    · rename_i next hnext
      rw [ih next, insertClaim_eq_some hnext]
      rfl

end

/-- `genesis` of the candidate's space and generation. -/
def leaseKeyOf (candidate : CandidateRow) : LeaseKey :=
  ⟨LeasePhase.genesis.asStr, candidate.space, candidate.inputGeneration⟩

def LeaseFree (candidate : CandidateRow) (db : Db) : Prop :=
  ∀ lease, db.leases.lookup (leaseKeyOf candidate) = some lease → lease.expiresAt ≤ db.tick.now

theorem mem_reaped_iff {now : Int} :
    leaseKeyOf candidate ∈ KeyTable.deleteWhere (Leases.stale (leaseKeyOf candidate) now)
      db.leases ↔
      ∃ lease, db.leases.lookup (leaseKeyOf candidate) = some lease ∧ now < lease.expiresAt := by
  rw [KeyTable.mem_iff]
  apply exists_congr
  intro lease
  rw [KeyTable.lookup_deleteWhere, Option.filter_eq_some_iff]
  apply and_congr_right
  intro _
  rw [Bool.not_eq_true', Bool.eq_false_iff, Ne, Leases.stale_iff]
  constructor
  · intro hkeep
    by_contra hexp
    exact hkeep ⟨rfl, rfl, .inl (by omega)⟩
  · rintro hlive ⟨-, -, hexp | hmoved⟩
    · omega
    · exact hmoved rfl

theorem acquireLease_held (hheld : ¬ db.LeaseFree candidate) :
    (db.acquireLease .genesis candidate.space candidate.inputGeneration candidate.attempt).2 =
      none ∧
      LeavesNothing db (db.acquireLease .genesis candidate.space candidate.inputGeneration
        candidate.attempt).1 := by
  unfold LeaseFree at hheld
  push Not at hheld
  obtain ⟨lease, hrow, hlive⟩ := hheld
  have hmem : leaseKeyOf candidate ∈ KeyTable.deleteWhere
      (Leases.stale (leaseKeyOf candidate) db.tick.now) db.leases :=
    mem_reaped_iff.mpr ⟨lease, hrow, hlive⟩
  unfold leaseKeyOf at hmem
  unfold acquireLease Leases.acquire
  dsimp only
  rw [if_pos hmem]
  refine ⟨rfl, ?_, fun key claim hclaim hopen => ⟨claim, hclaim, hopen⟩, fun home hhome => hhome⟩
  intro key other hother
  rw [KeyTable.lookup_deleteWhere, Option.filter_eq_some_iff] at hother
  exact hother.1

theorem acquireLease_new (hfree : db.LeaseFree candidate) :
    ∃ leased lease, db.acquireLease .genesis candidate.space candidate.inputGeneration
      candidate.attempt = (leased, some (db.tokens 0)) ∧
      leased.leases.lookup (leaseKeyOf candidate) = some lease ∧
      lease.token = db.tokens 0 ∧
      db.leases.lookup (leaseKeyOf candidate) ≠ some lease := by
  have hmem : leaseKeyOf candidate ∉ KeyTable.deleteWhere
      (Leases.stale (leaseKeyOf candidate) db.tick.now) db.leases := by
    rw [mem_reaped_iff]
    rintro ⟨lease, hrow, hlive⟩
    have hexp := hfree lease hrow
    omega
  refine ⟨(db.acquireLease .genesis candidate.space candidate.inputGeneration
    candidate.attempt).1, ⟨db.tokens 0, db.tick.tick.now + LeasePhase.genesis.ttlSeconds,
      candidate.attempt⟩, ?_, ?_, rfl, ?_⟩
  · unfold leaseKeyOf at hmem
    unfold acquireLease Leases.acquire
    dsimp only
    rw [if_neg hmem]
  · unfold leaseKeyOf at hmem
    unfold acquireLease Leases.acquire leaseKeyOf
    dsimp only
    rw [if_neg hmem]
    exact AList.lookup_insert _
  · intro hrow
    have hexp := hfree _ hrow
    have hle := db.tick.now_le_tick
    have hpos : 0 < LeasePhase.genesis.ttlSeconds := by decide
    dsimp only at hexp
    omega

/-! ## A prepare that does not go through -/

theorem othersApart_congr (h : db'.claims = db.claims) :
    db'.OthersApart candidateId coverageEpoch claims ↔
      db.OthersApart candidateId coverageEpoch claims := by
  unfold OthersApart
  rw [h]

theorem ownGroup_congr (h : db'.claims = db.claims) :
    db'.ownGroup candidateId coverageEpoch = db.ownGroup candidateId coverageEpoch := by
  unfold ownGroup
  rw [h]

def Meets (candidateId : String) (candidate : CandidateRow) (claims : List ClaimReservation)
    (db : Db) : Prop :=
  claimRoleFor candidate.signalKind = .concept ∧
    ¬ (db.OthersApart candidateId candidate.coverageEpoch claims ∧
      Separate (db.ownGroup candidateId candidate.coverageEpoch) claims)

theorem insertClaims_refused_iff :
    (db.insertClaims candidateId candidate.coverageEpoch (claimRoleFor candidate.signalKind)
      claims).2 ≠ none ↔ db.Meets candidateId candidate claims := by
  unfold Meets
  cases claimRoleFor candidate.signalKind with
  | concept =>
    rw [Ne, insertClaims_accepted_iff]
    exact (and_iff_right rfl).symm
  | witness =>
    apply iff_of_false
    · exact fun h => h (insertClaims_witness _ _ _ _)
    · rintro ⟨h, -⟩
      cases h

theorem finishPrepare_outcome {leaseToken : String} {outcome : PrepareOutcome}
    (h : db.finishPrepare candidateId candidate claims leaseToken = .ok (db', outcome)) :
    outcome = .prepared leaseToken := by
  obtain ⟨u, -, h⟩ := bind_ok h
  cases h
  rfl

theorem prepareDue_leaves {outcome : PrepareOutcome}
    (h : db.prepareDue candidateId candidate claims = .ok (db', outcome))
    (hnot : ∀ token, outcome ≠ .prepared token) :
    LeavesNothing db db' ↔ ¬ (db.LeaseFree candidate ∧ db.Meets candidateId candidate claims) := by
  unfold prepareDue at h
  by_cases hfree : db.LeaseFree candidate
  · obtain ⟨leased, lease, hleased, hrow, -, hnew⟩ := acquireLease_new hfree
    have hclai : leased.claims = db.claims := by
      have hfst : leased = (db.acquireLease .genesis candidate.space candidate.inputGeneration
          candidate.attempt).1 := by rw [hleased]
      rw [hfst]
      rfl
    rw [hleased] at h
    dsimp only at h
    have hmeets : leased.Meets candidateId candidate claims ↔
        db.Meets candidateId candidate claims := by
      unfold Meets
      rw [othersApart_congr hclai, ownGroup_congr hclai]
    have hrefus := @insertClaims_refused_iff leased candidateId candidate claims
    have hleas := insertClaims_leases candidateId candidate.coverageEpoch
      (claimRoleFor candidate.signalKind) claims leased
    rcases hins : leased.insertClaims candidateId candidate.coverageEpoch
      (claimRoleFor candidate.signalKind) claims with ⟨claimed, refused⟩
    rw [hins] at h hrefus hleas
    cases refused with
    | none => exact absurd (finishPrepare_outcome h) (hnot _)
    | some rootId =>
      cases h
      apply iff_of_false
      · intro hleav
        have hlease := hleav.leases (leaseKeyOf candidate) lease (hleas ▸ hrow)
        exact hnew hlease
      · rw [not_not]
        exact ⟨hfree, hmeets.mp (hrefus.mp (by simp))⟩
  · obtain ⟨hheld, hleav⟩ := acquireLease_held hfree
    rcases hleased : db.acquireLease .genesis candidate.space candidate.inputGeneration
      candidate.attempt with ⟨leased, token⟩
    rw [hleased] at h hheld hleav
    subst hheld
    cases h
    exact iff_of_true hleav fun hrefus => hfree hrefus.1

/-- The database as the acquisition of the lease meets it. -/
def asked (candidate : CandidateRow) (db : Db) : Db :=
  if reEntry candidate = true then db.tick else db

def Due (candidate : CandidateRow) (db : Db) : Prop :=
  reEntry candidate = true → candidate.nextAttemptAt.getD 0 ≤ db.tick.now

theorem prepareCandidate_leaves {outcome : PrepareOutcome}
    (hrow : db.candidates.lookup candidateId = some candidate)
    (hlegal : transitionIsLegal candidate.state .prepared)
    (h : db.prepareCandidate candidateId claims = .ok (db', outcome))
    (hnot : ∀ token, outcome ≠ .prepared token) :
    LeavesNothing db db' ↔ ¬ (db.Due candidate ∧ (db.asked candidate).LeaseFree candidate ∧
      db.Meets candidateId candidate claims) := by
  rw [prepareCandidate_eq claims hrow hlegal] at h
  unfold asked Due
  by_cases hre : reEntry candidate
  · rw [if_pos hre] at h ⊢
    by_cases hdue : db.tick.backoffElapsed candidate
    · rw [if_pos hdue] at h
      rw [backoffElapsed, decide_eq_true_eq] at hdue
      have hto : LeavesNothing db db.tick := .of_eq rfl rfl rfl
      have hfrom : LeavesNothing db.tick db := .of_eq rfl rfl rfl
      have htick : LeavesNothing db.tick db' ↔ LeavesNothing db db' := ⟨hto.trans, hfrom.trans⟩
      rw [← htick, prepareDue_leaves h hnot, and_iff_right fun _ => hdue]
      exact Iff.rfl
    · rw [if_neg hdue] at h
      cases h
      rw [backoffElapsed, decide_eq_true_eq] at hdue
      exact iff_of_true (.of_eq rfl rfl rfl) fun hrefus => hdue (hrefus.1 hre)
  · rw [if_neg hre] at h ⊢
    rw [prepareDue_leaves h hnot, and_iff_right fun htrue => absurd htrue hre]

/-! ## The transaction of a proposal -/

/-- The row that `observe_candidate` inserts. -/
def ObservedCandidate.row (candidate : ObservedCandidate) : CandidateRow where
  slotId := candidate.slotId
  pageId := candidate.pageId
  space := candidate.space
  signalKind := candidate.signalKind
  coverageEpoch := candidate.coverageEpoch
  inputGeneration := candidate.inputGeneration
  activeRootDigest := candidate.activeRootDigest
  state := .observed
  reason := none
  attempt := 0
  nextAttemptAt := none
  leaseToken := none

def readFor (proposal : Proposal) (db : Db) : CandidateRow :=
  (db.candidates.lookup proposal.candidate.candidateId).getD proposal.candidate.row

def Admitted (proposal : Proposal) (db : Db) : Prop :=
  proposal.candidate.candidateId ∈ db.candidates ∨
    db.pendingCandidateCount proposal.candidate.space < pendingCandidatesPerSpaceCap

structure Refuses (proposal : Proposal) (db : Db) : Prop where
  admitted : db.Admitted proposal
  retries : ¬ ((db.readFor proposal).state = .retryWait ∧
    retryExhausted (db.readFor proposal).attempt = true)
  legal : transitionIsLegal (db.readFor proposal).state .prepared = true
  due : db.Due (db.readFor proposal)
  free : (db.asked (db.readFor proposal)).LeaseFree (db.readFor proposal)
  meets : db.Meets proposal.candidate.candidateId (db.readFor proposal)
    (db.fillGroups proposal.rootIds)

theorem observe_refused (h : ¬ db.Admitted proposal) :
    db.observeCandidate proposal.candidate = (db, .refusedPendingCap) := by
  unfold Admitted at h
  rw [not_or, Nat.not_lt] at h
  rw [observeCandidate, if_neg h.1, if_pos h.2]

theorem observe_admitted (h : db.Admitted proposal) :
    ∃ observed outcome, db.observeCandidate proposal.candidate = (observed, outcome) ∧
      outcome ≠ .refusedPendingCap ∧
      observed = { db with candidates := observed.candidates } ∧
      observed.candidates.lookup proposal.candidate.candidateId = some (db.readFor proposal) ∧
      ∀ other row, db.candidates.lookup other = some row →
        observed.candidates.lookup other = some row := by
  unfold observeCandidate readFor
  by_cases hknown : proposal.candidate.candidateId ∈ db.candidates
  · obtain ⟨row, hrow⟩ := KeyTable.mem_iff.mp hknown
    rw [if_pos hknown]
    refine ⟨db, .alreadyPresent, rfl, by simp, rfl, ?_, fun other row hrow => hrow⟩
    rw [hrow, Option.getD_some]
  · have hcap := h.resolve_left hknown
    rw [if_neg hknown, if_neg (Nat.not_le.mpr hcap)]
    refine ⟨_, .observed, rfl, by simp, rfl, ?_, ?_⟩
    · rw [AList.lookup_eq_none.mpr hknown, Option.getD_none]
      exact AList.lookup_insert _
    · intro other row hrow
      exact KeyTable.lookup_insert_of_notMem hknown hrow

theorem leaseFree_asked (candidates : KeyTable String CandidateRow) (candidate : CandidateRow)
    (db : Db) : (({ db with candidates := candidates } : Db).asked candidate).LeaseFree candidate ↔
      (db.asked candidate).LeaseFree candidate := by
  unfold asked
  split_ifs
  · exact Iff.rfl
  · exact Iff.rfl

/-- What a transaction without a prepared candidate commits is free of leases, claims and lost
frontier rows exactly where it was not refused at a claim. -/
theorem prepareOne_leaves {turn : Option GenesisTurn} (h : db.prepareOne proposal = .ok (db', turn))
    (hnot : ∀ candidateId, turn ≠ some (.prepared candidateId)) :
    LeavesNothing db db' ↔ ¬ db.Refuses proposal := by
  by_cases hadm : db.Admitted proposal
  · obtain ⟨observed, outcome, hobser, houtc, hobs, hread, -⟩ :=
      observe_admitted hadm
    have hto : LeavesNothing db observed := by
      rw [hobs]
      exact .of_eq rfl rfl rfl
    have hfrom : LeavesNothing observed db := by
      rw [hobs]
      exact .of_eq rfl rfl rfl
    unfold prepareOne at h
    rw [hobser] at h
    dsimp only at h
    rw [if_neg houtc, hread] at h
    dsimp only at h
    split_ifs at h with hexh hlegal
    · obtain ⟨stale, hstale, h⟩ := bind_ok h
      cases h
      exact iff_of_true (hto.trans (leavesNothing_stale hstale))
        fun href => href.retries hexh
    · obtain ⟨⟨prepared, answer⟩, hprep, h⟩ := bind_ok h
      cases h
      have hansw : ∀ token, answer ≠ .prepared token := by
        intro token heq
        subst heq
        exact hnot _ rfl
      have hleav := prepareCandidate_leaves hread hlegal hprep hansw
      have hboth : LeavesNothing observed prepared ↔ LeavesNothing db prepared :=
        ⟨hto.trans, hfrom.trans⟩
      rw [← hboth, hleav, hobs, not_iff_not]
      constructor
      · rintro ⟨hdue, hfree, hmeets⟩
        exact ⟨hadm, hexh, hlegal, hdue, (leaseFree_asked _ _ db).mp hfree, hmeets⟩
      · intro href
        exact ⟨href.due, (leaseFree_asked _ _ db).mpr href.free, href.meets⟩
    · cases h
      exact iff_of_true hto fun href => hlegal href.legal
  · unfold prepareOne at h
    rw [observe_refused hadm] at h
    cases h
    exact iff_of_true (.of_eq rfl rfl rfl) fun href => hadm href.admitted

end Db

end Wenlan.Genesis
