import Wenlan.Genesis.Candidates

/-!
# When a reservation list is accepted

A prepare makes its claims root by root, and the index of the groups does not ask whose claim it
meets: a claim is refused where another root of the same candidate holds the group.
-/

namespace Wenlan.Genesis

open Support (KeyTable)
open Support.Fallible (check)

namespace Db

def OthersApart (candidateId : String) (coverageEpoch : Int) (claims : List ClaimReservation)
    (db : Db) : Prop :=
  ∀ key row, db.claims.lookup key = some row → row.exclusive →
    row.coverageEpoch = coverageEpoch → key.candidateId ≠ candidateId →
    ∀ claim ∈ claims, key.rootId ≠ claim.rootId ∧
      row.independenceGroupId ≠ claim.independenceGroupId

def ownGroup (candidateId : String) (coverageEpoch : Int) (db : Db) (rootId : String) :
    Option String :=
  (db.claims.lookup ⟨candidateId, rootId⟩).bind fun row =>
    if row.exclusive ∧ row.coverageEpoch = coverageEpoch then some row.independenceGroupId
    else none

/-- When the turn of a reservation comes, no other root of the candidate holds its group: neither
by an earlier reservation of the list nor from a claim it has kept. -/
def Separate (held : String → Option String) : List ClaimReservation → Prop
  | [] => True
  | claim :: claims =>
    (∀ rootId, rootId ≠ claim.rootId → held rootId ≠ some claim.independenceGroupId) ∧
      Separate (Function.update held claim.rootId (some claim.independenceGroupId)) claims

variable {candidateId : String} {coverageEpoch : Int} {role : ClaimRole}
  {claim : ClaimReservation} {claims : List ClaimReservation} {db db' : Db}

theorem ownGroup_eq_some {rootId group : String} :
    db.ownGroup candidateId coverageEpoch rootId = some group ↔
      ∃ row, db.claims.lookup ⟨candidateId, rootId⟩ = some row ∧ row.exclusive ∧
        row.coverageEpoch = coverageEpoch ∧ row.independenceGroupId = group := by
  unfold ownGroup
  rw [Option.bind_eq_some_iff]
  constructor
  · rintro ⟨row, hrow, hgroup⟩
    split_ifs at hgroup with hlive
    exact ⟨row, hrow, hlive.1, hlive.2, Option.some.inj hgroup⟩
  · rintro ⟨row, hrow, hexcl, hepoch, rfl⟩
    exact ⟨row, hrow, if_pos ⟨hexcl, hepoch⟩⟩

/-! ## One claim -/

theorem claimRow_exclusive {now : Int} {own : Option ClaimRow} :
    (claimRow claim coverageEpoch role now own).exclusive ↔ role = .concept := by
  exact and_iff_left rfl

theorem insertClaim_eq_some (h : db.insertClaim candidateId coverageEpoch role claim = some db') :
    db' = { db.tick with
      claims := db.claims.insert ⟨candidateId, claim.rootId⟩
        (claimRow claim coverageEpoch role db.tick.now
          (db.claims.lookup ⟨candidateId, claim.rootId⟩)) } := by
  unfold insertClaim at h
  dsimp only at h
  split_ifs at h
  exact (Option.some.inj h).symm

theorem insertClaim_witness :
    (db.insertClaim candidateId coverageEpoch .witness claim).isSome := by
  have hnot : ∀ now own, ¬ (claimRow claim coverageEpoch .witness now own).exclusive := by
    intro now own h
    cases claimRow_exclusive.mp h
  unfold insertClaim
  simp [KeyTable.clashes, rootClaim, groupClaim, hnot]

theorem insertClaim_concept (hothers : db.OthersApart candidateId coverageEpoch (claim :: claims)) :
    (db.insertClaim candidateId coverageEpoch .concept claim).isSome ↔
      ∀ rootId, rootId ≠ claim.rootId →
        db.ownGroup candidateId coverageEpoch rootId ≠ some claim.independenceGroupId := by
  have hexcl : ∀ now own, (claimRow claim coverageEpoch .concept now own).exclusive :=
    fun now own => claimRow_exclusive.mpr rfl
  have hroot : ∀ now own, KeyTable.clashes rootClaim ⟨candidateId, claim.rootId⟩
        (claimRow claim coverageEpoch .concept now own) db.claims = false := by
    intro now own
    rw [Bool.eq_false_iff]
    intro hclash
    obtain ⟨key, row, entry, hne, hrow, hentry, hentry'⟩ := KeyTable.clashes_iff.mp hclash
    rw [rootClaim, if_pos (hexcl now own)] at hentry
    cases hentry
    unfold rootClaim at hentry'
    split_ifs at hentry' with hlive
    obtain ⟨hsame, hepoch⟩ := Prod.mk.inj (Option.some.inj hentry')
    by_cases hown : key.candidateId = candidateId
    · exact hne (ClaimKey.ext hown hsame)
    · exact (hothers key row hrow hlive hepoch hown claim List.mem_cons_self).1 hsame
  have hgroup : ∀ now own, KeyTable.clashes groupClaim ⟨candidateId, claim.rootId⟩
        (claimRow claim coverageEpoch .concept now own) db.claims ↔
      ∃ rootId, rootId ≠ claim.rootId ∧
        db.ownGroup candidateId coverageEpoch rootId = some claim.independenceGroupId := by
    intro now own
    rw [KeyTable.clashes_iff]
    constructor
    · rintro ⟨key, row, entry, hne, hrow, hentry, hentry'⟩
      rw [groupClaim, if_pos (hexcl now own)] at hentry
      cases hentry
      unfold groupClaim at hentry'
      split_ifs at hentry' with hlive
      obtain ⟨hsame, hepoch⟩ := Prod.mk.inj (Option.some.inj hentry')
      by_cases hown : key.candidateId = candidateId
      · refine ⟨key.rootId, fun heq => hne (ClaimKey.ext hown heq),
          ownGroup_eq_some.mpr ⟨row, ?_, hlive, hepoch, hsame⟩⟩
        rw [← hown]
        exact hrow
      · exact absurd hsame
          (hothers key row hrow hlive hepoch hown claim List.mem_cons_self).2
    · rintro ⟨rootId, hne, hheld⟩
      obtain ⟨row, hrow, hlive, hepoch, hsame⟩ := ownGroup_eq_some.mp hheld
      refine ⟨⟨candidateId, rootId⟩, row, (claim.independenceGroupId, coverageEpoch), ?_, hrow,
        ?_, ?_⟩
      · intro heq
        exact hne (congrArg ClaimKey.rootId heq)
      · rw [groupClaim, if_pos (hexcl now own)]
        rfl
      · rw [groupClaim, if_pos hlive, hsame, hepoch]
  unfold insertClaim
  dsimp only [tick_claims]
  simp only [hroot, Bool.false_or]
  constructor
  · intro hacc rootId hne hheld
    rw [if_pos ((hgroup _ _).mpr ⟨rootId, hne, hheld⟩)] at hacc
    cases hacc
  · intro hfree
    rw [if_neg, Option.isSome_some]
    intro hclash
    obtain ⟨rootId, hne, hheld⟩ := (hgroup _ _).mp hclash
    exact hfree rootId hne hheld

theorem ownGroup_insertClaim
    (h : db.insertClaim candidateId coverageEpoch .concept claim = some db') :
    db'.ownGroup candidateId coverageEpoch = Function.update
      (db.ownGroup candidateId coverageEpoch) claim.rootId (some claim.independenceGroupId) := by
  have hdb := insertClaim_eq_some h
  subst hdb
  ext rootId : 1
  by_cases hsame : rootId = claim.rootId
  · subst rootId
    rw [Function.update_self, ownGroup]
    rw [AList.lookup_insert, Option.bind_some, if_pos ⟨claimRow_exclusive.mpr rfl, by rfl⟩]
    rfl
  · rw [Function.update_of_ne hsame, ownGroup, ownGroup]
    rw [AList.lookup_insert_ne]
    intro heq
    exact hsame (congrArg ClaimKey.rootId heq)

theorem OthersApart.insertClaim
    (hothers : db.OthersApart candidateId coverageEpoch (claim :: claims))
    (h : db.insertClaim candidateId coverageEpoch role claim = some db') :
    db'.OthersApart candidateId coverageEpoch claims := by
  have hdb := insertClaim_eq_some h
  subst hdb
  intro key row hrow hlive hepoch hother reservation hmem
  rw [AList.lookup_insert_ne (fun heq => hother (congrArg ClaimKey.candidateId heq))] at hrow
  exact hothers key row hrow hlive hepoch hother reservation (List.mem_cons_of_mem _ hmem)

theorem insertClaims_witness (candidateId : String) (coverageEpoch : Int)
    (claims : List ClaimReservation) (db : Db) :
    (db.insertClaims candidateId coverageEpoch .witness claims).2 = none := by
  induction claims generalizing db with
  | nil => rfl
  | cons claim claims ih =>
    obtain ⟨next, hnext⟩ := Option.isSome_iff_exists.mp
      (insertClaim_witness : (db.insertClaim candidateId coverageEpoch .witness claim).isSome)
    rw [insertClaims, hnext]
    exact ih next

theorem insertClaims_concept (hothers : db.OthersApart candidateId coverageEpoch claims) :
    (db.insertClaims candidateId coverageEpoch .concept claims).2 = none ↔
      Separate (db.ownGroup candidateId coverageEpoch) claims := by
  induction claims generalizing db with
  | nil => exact iff_of_true rfl trivial
  | cons claim claims ih =>
    have hone := insertClaim_concept hothers
    rw [insertClaims, Separate, ← hone]
    cases hinsert : db.insertClaim candidateId coverageEpoch .concept claim with
    | none =>
      apply iff_of_false
      · intro h
        cases h
      · rintro ⟨h, -⟩
        cases h
    | some next =>
      rw [ih (hothers.insertClaim hinsert), ownGroup_insertClaim hinsert]
      exact (and_iff_right rfl).symm

theorem insertClaims_candidates (candidateId : String) (coverageEpoch : Int) (role : ClaimRole)
    (claims : List ClaimReservation) (db : Db) :
    (db.insertClaims candidateId coverageEpoch role claims).1.candidates = db.candidates := by
  induction claims generalizing db with
  | nil => rfl
  | cons claim claims ih =>
    rw [insertClaims]
    split
    · rfl
    · rename_i next hnext
      rw [ih next, insertClaim_eq_some hnext]
      rfl

/-! ## The prepare -/

variable {candidate : CandidateRow}

theorem retireFrontierRows_eq (space : String) (groups : List String) (db : Db) :
    db.retireFrontierRows space coverageEpoch groups =
      { db with frontier := (db.retireFrontierRows space coverageEpoch groups).frontier } := by
  unfold retireFrontierRows
  induction groups generalizing db with
  | nil => rfl
  | cons group groups ih =>
    rw [List.foldl_cons]
    exact ih _

theorem updateCandidate_one {states : List CandidateState} (change : CandidateRow → CandidateRow)
    (hrow : db.candidates.lookup candidateId = some candidate) (hstate : candidate.state ∈ states) :
    (db.updateCandidate candidateId states change).2 = 1 := by
  have hone := KeyTable.select_key (fun row : CandidateRow => states.contains row.state) hrow
    (List.contains_iff_mem.mpr hstate)
  unfold updateCandidate
  dsimp only
  rw [hone, List.length_singleton]

theorem finishPrepare_prepared (claims : List ClaimReservation) (leaseToken : String)
    (hrow : db.candidates.lookup candidateId = some candidate)
    (hlegal : transitionIsLegal candidate.state .prepared) :
    ∃ db', db.finishPrepare candidateId candidate claims leaseToken =
      .ok (db', .prepared leaseToken) := by
  have hstate : candidate.state ∈ [CandidateState.observed, .retryWait, .stale] := by
    revert hlegal
    cases candidate.state <;> decide
  unfold finishPrepare
  dsimp only
  have hone : ∀ retired : Db, retired.candidates = db.candidates → ∀ change,
      (retired.updateCandidate candidateId [.observed, .retryWait, .stale] change).2 = 1 := by
    intro retired hretired change
    refine updateCandidate_one change ?_ hstate
    rw [hretired]
    exact hrow
  rw [requireOneRow, check, if_pos (hone _ ?_ _)]
  · exact ⟨_, rfl⟩
  · split_ifs
    · rw [retireFrontierRows_eq]
    · rfl

theorem acquireLease_free {phase : LeasePhase} {space : String} {inputGeneration attempt : Int}
    (hfree : ∀ lease, db.leases.lookup ⟨phase.asStr, space, inputGeneration⟩ = some lease →
      lease.expiresAt ≤ db.now) :
    (db.acquireLease phase space inputGeneration attempt).2 = some (db.tokens 0) := by
  have hreap : (⟨phase.asStr, space, inputGeneration⟩ : LeaseKey) ∉ KeyTable.deleteWhere
      (Leases.stale ⟨phase.asStr, space, inputGeneration⟩ db.tick.now) db.leases := by
    intro hmem
    obtain ⟨lease, hlease⟩ := KeyTable.mem_iff.mp hmem
    rw [KeyTable.lookup_deleteWhere, Option.filter_eq_some_iff] at hlease
    have hexp := (hfree lease hlease.1).trans db.now_le_tick
    rw [Leases.stale_iff.mpr ⟨rfl, rfl, .inl hexp⟩] at hlease
    cases hlease.2
  unfold acquireLease Leases.acquire
  dsimp only
  rw [if_neg hreap]

theorem acquireLease_tables (db : Db) (phase : LeasePhase) (space : String)
    (inputGeneration attempt : Int) :
    (db.acquireLease phase space inputGeneration attempt).1.claims = db.claims ∧
      (db.acquireLease phase space inputGeneration attempt).1.candidates = db.candidates :=
  ⟨rfl, rfl⟩

theorem prepareDue_prepared_iff (hrow : db.candidates.lookup candidateId = some candidate)
    (hlegal : transitionIsLegal candidate.state .prepared)
    (hfree : ∀ lease, db.leases.lookup ⟨LeasePhase.genesis.asStr, candidate.space,
      candidate.inputGeneration⟩ = some lease → lease.expiresAt ≤ db.now)
    (hothers : db.OthersApart candidateId candidate.coverageEpoch claims) :
    (∃ db' leaseToken, db.prepareDue candidateId candidate claims =
      .ok (db', .prepared leaseToken)) ↔
      claimRoleFor candidate.signalKind = .witness ∨
        Separate (db.ownGroup candidateId candidate.coverageEpoch) claims := by
  obtain ⟨leased, hleas⟩ : ∃ leased, db.acquireLease .genesis candidate.space
      candidate.inputGeneration candidate.attempt = (leased, some (db.tokens 0)) :=
    ⟨_, Prod.ext rfl (acquireLease_free hfree)⟩
  have htabl := acquireLease_tables db .genesis candidate.space candidate.inputGeneration
    candidate.attempt
  rw [hleas] at htabl
  obtain ⟨hleasedClaims, hleasedCandidates⟩ := htabl
  have hown : leased.ownGroup candidateId candidate.coverageEpoch =
      db.ownGroup candidateId candidate.coverageEpoch := by
    unfold ownGroup
    rw [hleasedClaims]
  have hoth : leased.OthersApart candidateId candidate.coverageEpoch claims := by
    unfold OthersApart
    rw [hleasedClaims]
    exact hothers
  -- Everything but the answer of the loop is settled.
  have hloop : (leased.insertClaims candidateId candidate.coverageEpoch
      (claimRoleFor candidate.signalKind) claims).2 = none ↔
      claimRoleFor candidate.signalKind = .witness ∨
        Separate (db.ownGroup candidateId candidate.coverageEpoch) claims := by
    cases hrole : claimRoleFor candidate.signalKind with
    | concept =>
      rw [insertClaims_concept hoth, hown]
      exact (or_iff_right (by decide)).symm
    | witness => exact iff_of_true (insertClaims_witness _ _ _ _) (.inl rfl)
  rw [← hloop]
  unfold prepareDue
  rw [hleas]
  dsimp only
  have hcands := insertClaims_candidates candidateId candidate.coverageEpoch
    (claimRoleFor candidate.signalKind) claims leased
  rcases hins : leased.insertClaims candidateId candidate.coverageEpoch
    (claimRoleFor candidate.signalKind) claims with ⟨claimed, refused⟩
  rw [hins] at hcands
  cases refused with
  | none =>
    refine iff_of_true ?_ rfl
    have hclai : claimed.candidates.lookup candidateId = some candidate := by
      rw [hcands, hleasedCandidates, hrow]
    obtain ⟨db', hdb'⟩ := finishPrepare_prepared claims (db.tokens 0) hclai hlegal
    exact ⟨db', _, hdb'⟩
  | some rootId =>
    apply iff_of_false
    · rintro ⟨db', leaseToken, h⟩
      cases h
    · intro h
      cases h

theorem prepareCandidate_eq (claims : List ClaimReservation)
    (hrow : db.candidates.lookup candidateId = some candidate)
    (hlegal : transitionIsLegal candidate.state .prepared) :
    db.prepareCandidate candidateId claims = if reEntry candidate then
        if db.tick.backoffElapsed candidate then
          db.tick.prepareDue candidateId candidate claims
        else .ok (db.tick, .notDue)
      else db.prepareDue candidateId candidate claims := by
  have hfind : db.findCandidate candidateId "prepare" = .ok candidate := by
    rw [findCandidate, hrow]
  unfold prepareCandidate
  rw [hfind]
  simp only [bind, Except.bind, check, if_pos hlegal]
  rfl

/-- A candidate that is due, with its lease free and no claims of others in the way, is prepared
exactly where it makes witness claims or its reservations keep apart. -/
theorem prepare_accepts_iff (hrow : db.candidates.lookup candidateId = some candidate)
    (hlegal : transitionIsLegal candidate.state .prepared = true)
    (hdue : reEntry candidate = true → candidate.nextAttemptAt.getD 0 ≤ db.now)
    (hfree : ∀ lease, db.leases.lookup ⟨LeasePhase.genesis.asStr, candidate.space,
      candidate.inputGeneration⟩ = some lease → lease.expiresAt ≤ db.now)
    (hothers : db.OthersApart candidateId candidate.coverageEpoch claims) :
    (∃ db' leaseToken, db.prepareCandidate candidateId claims = .ok (db', .prepared leaseToken)) ↔
      claimRoleFor candidate.signalKind = .witness ∨
        Separate (db.ownGroup candidateId candidate.coverageEpoch) claims := by
  rw [prepareCandidate_eq claims hrow hlegal]
  by_cases hre : reEntry candidate = true
  · have helaps : db.tick.backoffElapsed candidate = true := by
      rw [backoffElapsed, decide_eq_true_eq]
      exact (hdue hre).trans db.now_le_tick
    rw [if_pos hre, if_pos helaps]
    have hrow' : db.tick.candidates.lookup candidateId = some candidate := hrow
    exact prepareDue_prepared_iff hrow' hlegal
      (fun lease hlease => (hfree lease hlease).trans db.now_le_tick) hothers
  · rw [if_neg hre]
    exact prepareDue_prepared_iff hrow hlegal hfree hothers

/-- A database with one candidate, just observed, and nothing else. -/
def oneCandidate (candidate : CandidateRow) : Db where
  leases := ∅
  candidates := (∅ : KeyTable String CandidateRow).insert "c" candidate
  claims := ∅
  coverage := ∅
  frontier := ∅
  cards := ∅
  suppressions := ∅
  quarantines := ∅
  roots := ∅
  edges := []
  clock := ⟨1000, fun _ => 0⟩
  tokens := fun _ => "token"

def clusterCandidate : CandidateRow where
  slotId := "slot"
  pageId := "page"
  space := "work"
  signalKind := .evidenceCluster
  coverageEpoch := 1
  inputGeneration := 7
  activeRootDigest := "digest"
  state := .observed
  reason := none
  attempt := 0
  nextAttemptAt := none
  leaseToken := none

theorem prepare_accepts_iff_apart :
    (∃ db' leaseToken, (oneCandidate clusterCandidate).prepareCandidate "c"
      [⟨"r1", "g"⟩, ⟨"r2", "h"⟩] = .ok (db', .prepared leaseToken)) ↔
      claimRoleFor clusterCandidate.signalKind = .witness ∨
        Separate ((oneCandidate clusterCandidate).ownGroup "c" 1)
          [⟨"r1", "g"⟩, ⟨"r2", "h"⟩] := by
  refine prepare_accepts_iff (AList.lookup_insert _) (by decide) (by decide) ?_ ?_
  · intro lease hlease
    cases hlease
  · intro key row hrow
    cases hrow

/-- Two roots of one group in a list: the second is refused by the claim on the first. -/
theorem prepare_refuses_its_own_group :
    ¬ ∀ (db : Db) (candidateId : String) (candidate : CandidateRow)
        (claims : List ClaimReservation),
      db.candidates.lookup candidateId = some candidate →
      transitionIsLegal candidate.state .prepared = true →
      (reEntry candidate = true → candidate.nextAttemptAt.getD 0 ≤ db.now) →
      (∀ lease, db.leases.lookup ⟨LeasePhase.genesis.asStr, candidate.space,
        candidate.inputGeneration⟩ = some lease → lease.expiresAt ≤ db.now) →
      db.OthersApart candidateId candidate.coverageEpoch claims →
      ∃ db' leaseToken, db.prepareCandidate candidateId claims =
        .ok (db', .prepared leaseToken) := by
  intro hclaim
  obtain ⟨db', leaseToken, h⟩ := hclaim (oneCandidate clusterCandidate) "c" clusterCandidate
    [⟨"r1", "g"⟩, ⟨"r2", "g"⟩] (AList.lookup_insert _) (by decide) (by decide)
    (fun lease hlease => by cases hlease) (fun key row hrow => by cases hrow)
  have href : ((oneCandidate clusterCandidate).prepareCandidate "c"
      [⟨"r1", "g"⟩, ⟨"r2", "g"⟩]).toOption.map (·.2) = some (.claimRefused "r2") := by
    decide +kernel
  rw [h] at href
  cases href

end Db

end Wenlan.Genesis
