import Wenlan.Genesis.CandidateClocks

/-!
# The clock under a release

A release gives the groups of a candidate back to the frontier, each with the time of its first
claim; a settlement closes the open cards of these groups as well.
-/

namespace Wenlan.Genesis

open Support (KeyTable)
open Support.Fallible (bind_ok mapError_eq_ok foldlM_same)

namespace Db

variable {db db' : Db} {home other : GroupKey} {candidateId : String} {candidate : CandidateRow}

def Returning (candidateId : String) (candidate : CandidateRow) (db : Db) (home : GroupKey) :
    Prop :=
  ∃ group ∈ db.candidateConceptGroups candidateId true,
    home = ⟨candidate.space, group, candidate.coverageEpoch⟩

theorem conceptClaim_releaseClaims (candidateId reason : String) (db : Db) (home : GroupKey)
    (createdAt : Int) : (db.releaseClaims candidateId reason).ConceptClaim home createdAt ↔
      db.ConceptClaim home createdAt := by
  unfold ConceptClaim releaseClaims
  rw [KeyTable.has_update]
  refine KeyTable.has_congr fun key claim => ?_
  split_ifs <;> exact Iff.rfl

section

variable (reason : String) (hfit : db.ClaimsFit)
  (hcand : db.candidates.lookup candidateId = some candidate)
include hfit hcand

theorem reserved_releaseClaims
    (hreserved : db.Reserved home) : (db.releaseClaims candidateId reason).Reserved home ∨
      Returning candidateId candidate db home := by
  obtain ⟨key, claim, hclaim, hspace, hgroup, hepoch, hconc, hlive⟩ := hreserved
  by_cases hown : key.candidateId = candidateId
  · right
    subst hown
    obtain ⟨⟨row, hrow, hrowEp, -⟩, -⟩ := hfit key claim hclaim
    rw [hcand] at hrow
    cases hrow
    obtain ⟨found, hfound, hfoun⟩ := hspace
    rw [hcand] at hfound
    cases hfound
    refine ⟨claim.independenceGroupId,
      mem_candidateConceptGroups.mpr ⟨key.rootId, claim, hclaim, hconc, fun _ => hlive, rfl⟩, ?_⟩
    rw [hfoun, hgroup, ← hrowEp, hepoch]
  · left
    refine ⟨key, claim, ?_, hspace, hgroup, hepoch, hconc, hlive⟩
    rw [lookup_releaseClaims, hclaim, Option.map_some, if_neg fun h => hown h.1]

theorem carries_releaseClaims (home : GroupKey) :
    Carries (Returning candidateId candidate db home) db (db.releaseClaims candidateId reason)
      home where
  now_le := db.now_le_tick
  claims_kept createdAt := (conceptClaim_releaseClaims _ _ _ _ _).mpr
  claims_new createdAt hclaim := .inl ((conceptClaim_releaseClaims _ _ _ _ _).mp hclaim)
  recorded seen hafter := .inl hafter
  recorded_kept seen hbef := .inl ⟨seen, hbef⟩
  live_kept hbef := by
    rcases hbef with hcov | hreserved | hplaced
    · exact .inl (.inl hcov)
    · exact (reserved_releaseClaims reason hfit hcand hreserved).imp_left
        fun hstays => .inr (.inl hstays)
    · exact .inl (.inr (.inr hplaced))
  live_new hafter := by
    left
    rcases hafter with hrec | ⟨createdAt, hclaim⟩
    · exact .inl hrec
    · exact .inr ⟨createdAt, (conceptClaim_releaseClaims _ _ _ _ _).mp hclaim⟩

end

theorem fit_releaseClaims (reason : String) (hfit : db.ClaimsFit) :
    (db.releaseClaims candidateId reason).ClaimsFit := by
  intro key claim hclaim
  rw [lookup_releaseClaims] at hclaim
  obtain ⟨old, hold, rfl⟩ := Option.map_eq_some_iff.mp hclaim
  have hfitOl := hfit key old hold
  split_ifs
  · exact hfitOl
  · exact hfitOl

/-! ## The rows that come back -/

variable {createdAt : Int}

theorem mem_claimTimes (h : db.ConceptClaim home createdAt) :
    createdAt ∈ db.claimTimes home := by
  obtain ⟨key, claim, hclaim, ⟨found, hfound, hspace⟩, hgroup, hepoch, -, rfl⟩ := h
  refine List.mem_map.mpr ⟨⟨key, claim⟩, KeyTable.mem_select.mpr ⟨hclaim, ?_⟩, rfl⟩
  simp [hfound, hspace, hgroup, hepoch]

theorem claimTimes_min_le (h : db.ConceptClaim home createdAt) (default : Int) :
    (db.claimTimes home).min?.getD default ≤ createdAt := by
  have hmem := mem_claimTimes h
  cases hmin : (db.claimTimes home).min? with
  | none =>
    rw [List.min?_eq_none_iff] at hmin
    rw [hmin] at hmem
    cases hmem
  | some first => exact (List.min?_eq_some_iff.mp hmin).2 createdAt hmem

theorem lookup_restoreFrontierRow (home : GroupKey) (db : Db) (other : GroupKey) :
    (db.restoreFrontierRow home).frontier.lookup other =
      if other = home then some ((db.frontier.lookup home).getD
        ⟨(db.claimTimes home).min?.getD db.tick.now, db.tick.now⟩)
      else db.frontier.lookup other :=
  lookup_putFrontierRow home _ db.tick other

theorem carries_restoreFrontierRow (hclai : ∃ createdAt, db.ConceptClaim home createdAt)
    (hpast : ∀ createdAt, db.ConceptClaim home createdAt → createdAt ≤ db.now)
    (other : GroupKey) : Carries False db (db.restoreFrontierRow home) other := by
  have hrow := lookup_restoreFrontierRow home db other
  by_cases hsame : other = home
  · subst hsame
    rw [if_pos rfl] at hrow
    have hlive : (db.restoreFrontierRow other).Live other :=
      .inr (.inr (.inl (KeyTable.mem_iff.mpr ⟨_, hrow⟩)))
    have hnow := db.now_le_tick
    exact {
      now_le := hnow
      claims_kept := fun _ hclaim => hclaim
      claims_new := fun _ hclaim => .inl hclaim
      recorded := fun seen hafter => by
        rcases hafter with ⟨row, haft, rfl⟩ | hretained
        · rw [hrow] at haft
          cases hbef : db.frontier.lookup other with
          | some old =>
            rw [hbef] at haft
            cases haft
            exact .inl (.inl ⟨old, hbef, rfl⟩)
          | none =>
            rw [hbef] at haft
            cases haft
            refine .inr (.inl ⟨hclai, ?_, fun createdAt hclaim =>
              claimTimes_min_le hclaim db.tick.now⟩)
            obtain ⟨createdAt, hclaim⟩ := hclai
            exact (claimTimes_min_le hclaim db.tick.now).trans
              ((hpast createdAt hclaim).trans hnow)
        · exact .inl (.inr hretained)
      recorded_kept := fun _ _ => .inr hclai
      live_kept := fun _ => .inl hlive
      live_new := fun _ => .inr (.inl hlive) }
  · rw [if_neg hsame] at hrow
    have hsam : SameClaims db (db.restoreFrontierRow home) :=
      ⟨db.now_le_tick, rfl, rfl, rfl⟩
    have hrec : ∀ seen, (db.restoreFrontierRow home).Recorded other seen ↔
        db.Recorded other seen := by
      intro seen
      unfold Recorded
      rw [hrow]
      exact Iff.rfl
    refine hsam.carries (fun seen => (hrec seen).mp)
      (fun seen hbef => ⟨seen, (hrec seen).mpr hbef⟩) ?_
    rintro (hmem | hheld)
    · left
      rw [KeyTable.mem_iff, hrow]
      exact KeyTable.mem_iff.mp hmem
    · exact .inr (.inl hheld)

theorem carries_restoreFrontierRows {space : String} {coverageEpoch : Int} {groups : List String}
    (hclai : ∀ group ∈ groups, ∃ createdAt, db.ConceptClaim ⟨space, group, coverageEpoch⟩ createdAt)
    (hpast : ∀ home createdAt, db.ConceptClaim home createdAt → createdAt ≤ db.now)
    (other : GroupKey) :
    Carries False db (db.restoreFrontierRows space coverageEpoch groups) other := by
  unfold restoreFrontierRows
  induction groups generalizing db with
  | nil => exact carries_refl _ other
  | cons group groups ih =>
    rw [List.forall_mem_cons] at hclai
    rw [List.foldl_cons]
    refine (carries_restoreFrontierRow hclai.1 (hpast _) other).then_ (ih hclai.2 ?_)
    intro home createdAt hclaim
    exact (hpast home createdAt hclaim).trans db.now_le_tick

theorem keeps_release (reason : String) (hclock : ∀ home, db.Clocked home)
    (hfit : db.ClaimsFit) (hcand : db.candidates.lookup candidateId = some candidate) :
    Keeps db (db.releaseClaimsToFrontier candidateId candidate reason).1 := by
  have hrel : (db.releaseClaims candidateId reason).ClaimsFit := fit_releaseClaims reason hfit
  have honly := onlyFrontier_restoreFrontierRows candidate.space candidate.coverageEpoch
    (db.candidateConceptGroups candidateId true) (db.releaseClaims candidateId reason)
  constructor
  · intro home
    have hresto : Carries False (db.releaseClaims candidateId reason)
        (db.releaseClaimsToFrontier candidateId candidate reason).1 home :=
      carries_restoreFrontierRows (by
        intro group hmem
        obtain ⟨rootId, claim, hclaim, hconc, -, hgroup⟩ := mem_candidateConceptGroups.mp hmem
        obtain ⟨⟨row, hrow, hepoch, -⟩, -⟩ := hfit _ claim hclaim
        rw [hcand] at hrow
        cases hrow
        exact ⟨claim.createdAt, (conceptClaim_releaseClaims _ _ _ _ _).mpr
          ⟨_, claim, hclaim, ⟨candidate, hcand, rfl⟩, hgroup, hepoch, hconc, rfl⟩⟩) (by
        intro home createdAt hclaim
        have hold := (conceptClaim_releaseClaims _ _ _ _ _).mp hclaim
        exact ((hclock home).claimed_past createdAt hold).trans db.now_le_tick) home
    refine ((carries_releaseClaims reason hfit hcand home).trans hresto).settle ?_
    rintro (hret | hfalse)
    · exact .inr (.inr (.inl (mem_restoreFrontierRows.mpr (.inl hret))))
    · exact hfalse.elim
  · intro key claim hclaim
    have hclaim' : (db.releaseClaims candidateId reason).claims.lookup key = some claim := by
      rw [← honly.claims]
      exact hclaim
    obtain ⟨⟨row, hrow, hepoch⟩, root, hroot, hgroup⟩ := hrel key claim hclaim'
    refine ⟨⟨row, ?_, hepoch⟩, root, ?_, hgroup⟩
    · exact (congrArg (AList.lookup key.candidateId) honly.candidates).trans hrow
    · exact (congrArg (AList.lookup key.rootId) honly.roots).trans hroot

def claimData (db : Db) :
    KeyTable ClaimKey ClaimRow × KeyTable String CandidateRow × KeyTable String ProvenanceRoot :=
  (db.claims, db.candidates, db.roots)

theorem ClaimsFit.of_claimData (hfit : db.ClaimsFit) (h : db'.claimData = db.claimData) :
    db'.ClaimsFit := by
  obtain ⟨hclaims, hrest⟩ := Prod.mk.inj h
  obtain ⟨hcands, hroots⟩ := Prod.mk.inj hrest
  unfold ClaimsFit
  rw [hclaims, hcands, hroots]
  exact hfit

variable {cardId : String}

theorem claimData_bind {space : String} {coverageEpoch : Int} {groups : List CardGroup}
    (h : db.bindFrontierGroupsToCard space coverageEpoch cardId groups = .ok db') :
    db'.claimData = db.claimData := by
  refine foldlM_same claimData ?_ h
  intro group _ mid next hone
  obtain ⟨row, -, -, rfl⟩ := bindGroup_ok hone
  rfl

variable {seen : Int}

theorem claimData_insertSuppression {pageId reason : String}
    (h : db.insertSuppression home pageId reason seen = .ok db') :
    db'.claimData = db.claimData := by
  rw [(insertSuppression_ok h).2]
  rfl

theorem claimData_suppress {pageId reason : String}
    (h : db.suppressFrontierGroup home pageId reason = .ok db') : db'.claimData = db.claimData := by
  obtain ⟨seen, -, h⟩ := bind_ok h
  obtain ⟨u, -, h⟩ := bind_ok h
  rw [claimData_insertSuppression h]
  rfl

theorem claimData_quarantine {reason : String}
    (h : db.quarantineFrontierGroup home reason = .ok db') : db'.claimData = db.claimData := by
  obtain ⟨seen, -, h⟩ := bind_ok h
  obtain ⟨u, -, h⟩ := bind_ok h
  obtain ⟨u', -, h⟩ := bind_ok h
  cases h
  rfl

theorem claimData_insertFrontier (h : db.insertFrontier home seen = .ok db') :
    db'.claimData = db.claimData := by
  rw [(insertFrontier_ok h).2]
  rfl

theorem claimData_reconcileExpired {space : String} {coverageEpoch : Int} {lapsed : ℕ}
    (h : db.reconcileExpiredSuppressions space coverageEpoch = .ok (db', lapsed)) :
    db'.claimData = db.claimData := by
  obtain ⟨after, hfold, h⟩ := bind_ok h
  cases h
  refine (foldlM_same claimData ?_ hfold).trans rfl
  intro expired _ mid next hone
  obtain ⟨u, -, hone⟩ := bind_ok hone
  rw [claimData_insertFrontier hone]
  rfl

theorem claimData_lift (h : db.liftQuarantineToFrontier home = .ok db') :
    db'.claimData = db.claimData := by
  unfold liftQuarantineToFrontier at h
  cases hlive : (KeyTable.select (fun key row => key.home == home && row.liftedAt == none)
      db.quarantines).head? with
  | none =>
    rw [hlive] at h
    cases h
  | some live =>
    rw [hlive] at h
    obtain ⟨u, -, h⟩ := bind_ok h
    rw [claimData_insertFrontier h]
    rfl

theorem claimData_expireCard {expired : Bool}
    (h : db.expireCardBindingToFrontier home = .ok (db', expired)) :
    db'.claimData = db.claimData := by
  rcases expireCardBinding_eq_ok h with ⟨rfl, -⟩ | ⟨key, binding, closing, -, -, -, hclose, rfl⟩
  · rfl
  · have hclos := (closeBindings_eq_some hclose).2
    show closing.claimData = db.claimData
    rw [hclos]
    rfl

theorem claimData_dismiss {reason : String}
    (h : db.dismissCardToSuppression cardId reason = .ok db') : db'.claimData = db.claimData := by
  unfold dismissCardToSuppression at h
  dsimp only at h
  split_ifs at h
  · cases h
    rfl
  · obtain ⟨⟨mid, closed⟩, hclose, h⟩ := bind_ok h
    obtain ⟨u, -, h⟩ := bind_ok h
    have hmid : mid.claimData = db.claimData := by
      cases hclos : db.closeBindings fun key => key.cardId == cardId with
      | none =>
        rw [hclos] at hclose
        cases hclose
      | some result =>
        rw [hclos] at hclose
        cases hclose
        rw [(closeBindings_eq_some hclos).2]
        rfl
    refine (foldlM_same claimData ?_ h).trans hmid
    intro row _ current next hone
    exact claimData_insertSuppression hone

theorem claimData_reconcile {space : String} {coverageEpoch : Int} {outcome : ReconcileOutcome}
    (h : db.reconcileSpace space coverageEpoch = .ok (db', outcome)) :
    db'.claimData = db.claimData := by
  obtain ⟨⟨lapsed, count⟩, hlaps, h⟩ := bind_ok h
  obtain ⟨u, -, h⟩ := bind_ok h
  cases h
  have hrep : ∀ (groups : List String) (start : Db), (groups.foldl (fun db group =>
      db.insertFrontierRow ⟨space, group, coverageEpoch⟩) start).claimData = start.claimData := by
    intro groups
    induction groups with
    | nil => exact fun _ => rfl
    | cons group groups ih => exact fun start => (ih _).trans rfl
  rw [hrep]
  exact claimData_reconcileExpired (mapError_eq_ok.mp hlaps)

theorem keeps_settle {reason : String} (hclock : ∀ home, db.Clocked home) (hfit : db.ClaimsFit)
    (hcand : db.candidates.lookup candidateId = some candidate)
    (h : db.settleGroupsToFrontier candidateId candidate reason = .ok db') : Keeps db db' := by
  have hrel := keeps_release reason hclock hfit hcand
  refine Wenlan.Support.Fallible.foldlM_invariant (P := Keeps db) ?_
    hrel h
  intro group _ current next hcur hone
  obtain ⟨⟨after, expired⟩, hexp, hnext⟩ := bind_ok hone
  cases hnext
  exact hcur.then_ ⟨carries_expireCard hexp, hcur.fit.of_claimData (claimData_expireCard hexp)⟩

theorem keeps_stale {reason : StaleReason} (hclock : ∀ home, db.Clocked home)
    (hfit : db.ClaimsFit) (h : db.markStale candidateId reason = .ok db') : Keeps db db' := by
  obtain ⟨candidate, hfound, h⟩ := bind_ok h
  obtain ⟨u, -, h⟩ := bind_ok h
  obtain ⟨settled, hset, h⟩ := bind_ok h
  obtain ⟨u', -, h⟩ := bind_ok h
  cases h
  have hkeeps := keeps_settle hclock hfit (findCandidate_eq_ok.mp hfound) hset
  have htick := (onlyCandidates_tick settled).keeps hkeeps.fit
  exact (hkeeps.then_ htick).then_ (keeps_update htick.fit _ fun _ => ⟨rfl, rfl, rfl⟩)

theorem keeps_superseded (hclock : ∀ home, db.Clocked home) (hfit : db.ClaimsFit)
    (h : db.markSuperseded candidateId = .ok db') : Keeps db db' := by
  obtain ⟨candidate, hfound, h⟩ := bind_ok h
  obtain ⟨u, -, h⟩ := bind_ok h
  obtain ⟨settled, hset, h⟩ := bind_ok h
  obtain ⟨u', -, h⟩ := bind_ok h
  cases h
  have hkeeps := keeps_settle hclock hfit (findCandidate_eq_ok.mp hfound) hset
  exact hkeeps.then_ (keeps_update hkeeps.fit _ fun _ => ⟨rfl, rfl, rfl⟩)

theorem keeps_reviewRequired (hclock : ∀ home, db.Clocked home)
    (hfit : db.ClaimsFit) (h : db.markReviewRequired candidateId cardId = .ok db') :
    Keeps db db' := by
  obtain ⟨candidate, hfound, h⟩ := bind_ok h
  obtain ⟨u, -, h⟩ := bind_ok h
  obtain ⟨bound, hbound, h⟩ := bind_ok h
  obtain ⟨u', -, h⟩ := bind_ok h
  cases h
  have hrel := keeps_release "review_required" hclock hfit (findCandidate_eq_ok.mp hfound)
  have hbind := mapError_eq_ok.mp hbound
  have hkeeps : Keeps db bound := hrel.then_ ⟨carries_bind hbind,
    hrel.fit.of_claimData (claimData_bind hbind)⟩
  exact hkeeps.then_ (keeps_update hkeeps.fit _ fun _ => ⟨rfl, rfl, rfl⟩)

theorem keeps_suppressed {reason : String} (hfit : db.ClaimsFit)
    (h : db.markSuppressed candidateId cardId reason = .ok db') : Keeps db db' := by
  obtain ⟨candidate, -, h⟩ := bind_ok h
  obtain ⟨u, -, h⟩ := bind_ok h
  obtain ⟨dismissed, hdismi, h⟩ := bind_ok h
  obtain ⟨u', -, h⟩ := bind_ok h
  cases h
  have hdism := mapError_eq_ok.mp hdismi
  have hkeeps : Keeps db dismissed :=
    ⟨carries_dismiss hdism, hfit.of_claimData (claimData_dismiss hdism)⟩
  exact hkeeps.then_ (keeps_update hkeeps.fit _ fun _ => ⟨rfl, rfl, rfl⟩)

end Db

end Wenlan.Genesis
