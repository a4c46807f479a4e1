import Wenlan.Genesis.ClaimTransitions

/-!
# Claims of observed candidates

A candidate makes its claims when it is prepared, so one that was only observed has none, as long
as no refused prepare is committed.
-/

namespace Wenlan.Genesis

open Support (KeyTable)
open Support.Transition

/-- What is committed between two states: a proposal of a shadow turn, a move of one of the other
writers, or a change that leaves claims and the states of candidates alone. -/
inductive ShadowMove where
  | proposal (proposal : Proposal)
  | other (move : Move)
  | elsewhere

namespace Db

/-- Shadow turns are the only callers of `prepare_candidate`. -/
def ShadowStep (digest : Digest) (db : Db) (move : ShadowMove) (db' : Db) : Prop :=
  match move with
  | .proposal proposal => ∃ turn, db.prepareOne proposal = .ok (db', turn)
  | .other move => (∀ candidateId rootIds, move ≠ .prepare candidateId rootIds) ∧
      Step digest db move db'
  | .elsewhere => db'.claims = db.claims ∧ ∀ candidateId,
      (db'.candidates.lookup candidateId).map (·.state) =
        (db.candidates.lookup candidateId).map (·.state)

def Spared (db : Db) : ShadowMove → Prop
  | .proposal proposal => ¬ db.Refuses proposal
  | .other _ => True
  | .elsewhere => True

def ObservedUnclaimed (db : Db) : Prop :=
  ∀ key claim candidate, db.claims.lookup key = some claim →
    db.candidates.lookup key.candidateId = some candidate → candidate.state = .observed →
    claim.releasedAt ≠ none

/-- Every unreleased claim is of a candidate that is past `observed`. -/
def ClaimsPast (db : Db) : Prop :=
  ∀ key claim, db.claims.lookup key = some claim → claim.releasedAt = none →
    db.PastObserved key.candidateId

/-- Candidates stay past `observed`, and new unreleased claims are of such candidates. -/
structure Advances (db db' : Db) : Prop where
  candidates : ∀ candidateId, db.PastObserved candidateId → db'.PastObserved candidateId
  claims : ∀ key claim, db'.claims.lookup key = some claim → claim.releasedAt = none →
    (∃ old, db.claims.lookup key = some old ∧ old.releasedAt = none) ∨
      db'.PastObserved key.candidateId

variable {db db' : Db} {candidateId : String} {candidate : CandidateRow} {coverageEpoch : Int}
  {role : ClaimRole} {claims : List ClaimReservation} {proposal : Proposal} {digest : Digest}
  {claimed : ClaimKey → Prop}

theorem ClaimsPast.advances (hpast : db.ClaimsPast) (h : Advances db db') : db'.ClaimsPast := by
  intro key claim hclaim hlive
  rcases h.claims key claim hclaim hlive with ⟨old, hold, holdL⟩ | hpast'
  · exact h.candidates _ (hpast key old hold holdL)
  · exact hpast'

theorem ClaimsPast.unclaimed (hpast : db.ClaimsPast) : db.ObservedUnclaimed := by
  intro key claim candidate hclaim hcand hobs hlive
  obtain ⟨row, hrow, hstate⟩ := hpast key claim hclaim hlive
  rw [hcand] at hrow
  cases hrow
  exact hstate hobs

theorem Transits.advances (h : Transits (fun _ => False) db db') : Advances db db' where
  candidates candidateId hpast := by
    obtain ⟨row, hrow, hstate⟩ := hpast
    obtain ⟨row', hrow', -, hstate'⟩ := h.candidates candidateId row hrow
    exact ⟨row', hrow', hstate' hstate⟩
  claims key claim hclaim hlive := by
    obtain ⟨old, hold, hopen⟩ := (h.claims key claim hclaim).resolve_right id
    exact .inl ⟨old, hold, hopen hlive⟩

theorem prepareOne_advances {turn : Option GenesisTurn} (hspar : ¬ db.Refuses proposal)
    (h : db.prepareOne proposal = .ok (db', turn)) : Advances db db' := by
  have htrans := transits_prepareOne h
  constructor
  · intro candidateId hpast
    obtain ⟨row, hrow, hstate⟩ := hpast
    obtain ⟨row', hrow', -, hstate'⟩ := htrans.candidates candidateId row hrow
    exact ⟨row', hrow', hstate' hstate⟩
  · intro key claim hclaim hlive
    by_cases hprepared : ∃ candidateId, turn = some (.prepared candidateId)
    · obtain ⟨candidateId, rfl⟩ := hprepared
      obtain ⟨rfl, hstor⟩ := prepareOne_stores h
      rcases htrans.claims key claim hclaim with ⟨old, hold, hopen⟩ | ⟨hown, -⟩
      · exact .inl ⟨old, hold, hopen hlive⟩
      · right
        rw [hown]
        exact hstor.past
    · have hnot : ∀ candidateId, turn ≠ some (.prepared candidateId) :=
        fun candidateId heq => hprepared ⟨candidateId, heq⟩
      exact .inl (((prepareOne_leaves h hnot).mpr hspar).claims key claim hclaim hlive)

theorem advances_shadowStep {move : ShadowMove} (hspar : db.Spared move)
    (h : ShadowStep digest db move db') : Advances db db' := by
  cases move with
  | proposal proposal =>
    obtain ⟨turn, hturn⟩ := h
    exact prepareOne_advances hspar hturn
  | other move => exact (transits_move h.1 h.2).advances
  | elsewhere =>
    obtain ⟨hclai, hstat⟩ := h
    constructor
    · intro candidateId hpast
      obtain ⟨row, hrow, hstate⟩ := hpast
      have hsame := hstat candidateId
      rw [hrow, Option.map_some, Option.map_eq_some_iff] at hsame
      obtain ⟨row', hrow', hsame⟩ := hsame
      exact ⟨row', hrow', by rw [hsame]; exact hstate⟩
    · intro key claim hclaim hlive
      rw [hclai] at hclaim
      exact .inl ⟨claim, hclaim, hlive⟩

theorem Fresh.claimsPast (hfresh : db.Fresh) : db.ClaimsPast := by
  intro key claim hclaim
  rw [hfresh.claims] at hclaim
  cases hclaim

/-- A proposal that is not prepared leaves no lease, no claim and no lost frontier row behind
exactly where its prepare was not refused at a claim; and where no proposal of a run is refused,
no observed candidate ever has an unreleased claim. -/
theorem unprepared_leaves_nothing_iff (digest : Digest) :
    (∀ (proposal : Proposal) (db db' : Db) (turn : Option GenesisTurn),
      db.prepareOne proposal = .ok (db', turn) →
      (∀ candidateId, turn ≠ some (.prepared candidateId)) →
      (LeavesNothing db db' ↔ ¬ db.Refuses proposal)) ∧
    ∀ start db : Db, start.Fresh → Reaches (Restrict (ShadowStep digest) Spared) start db →
      db.ObservedUnclaimed := by
  constructor
  · intro proposal db db' turn hturn hnot
    exact prepareOne_leaves hturn hnot
  · intro start db hfresh hreach
    have hpast : db.ClaimsPast := hreach.invariant
      (fun s move t hs hstep => hs.advances (advances_shadowStep hstep.1 hstep.2))
      hfresh.claimsPast
    exact hpast.unclaimed

def groupedRoots : Db where
  leases := ∅
  candidates := ∅
  claims := ∅
  coverage := ∅
  frontier := ∅
  cards := ∅
  suppressions := ∅
  quarantines := ∅
  roots := (((∅ : KeyTable String ProvenanceRoot).insert "r1" ⟨"g", "active", "document"⟩).insert
    "r2" ⟨"g", "active", "document"⟩).insert "r3" ⟨"h", "active", "document"⟩
  edges := []
  clock := ⟨1000, fun _ => 0⟩
  tokens := fun _ => "token"

def clusterOf (rootIds : List String) : Proposal :=
  ⟨⟨"c", "slot", "page", "work", .evidenceCluster, 1, 7, "digest"⟩, rootIds⟩

/-- Another holder has the operation. -/
def heldByOther : Db :=
  { groupedRoots with
    leases := (∅ : KeyTable LeaseKey Lease).insert ⟨"genesis", "work", 7⟩ ⟨"other", 5000, 0⟩ }

theorem heldByOther_spared : ¬ heldByOther.Refuses (clusterOf ["r1", "r2"]) := by
  intro href
  have hexp := href.free ⟨"other", 5000, 0⟩ rfl
  revert hexp
  decide

theorem unprepared_leaves_nothing_iff_held :
    ∃ db', heldByOther.prepareOne (clusterOf ["r1", "r2"]) = .ok (db', none) ∧
      LeavesNothing heldByOther db' ∧ db'.ObservedUnclaimed := by
  have hrun : (heldByOther.prepareOne (clusterOf ["r1", "r2"])).toOption.map (·.2) =
      some none := by
    decide +kernel
  obtain ⟨⟨db', turn⟩, hturn, rfl⟩ := Option.map_eq_some_iff.mp hrun
  have hok := toOption_eq_some hturn
  have hspar := heldByOther_spared
  refine ⟨db', hok, ?_, ?_⟩
  · exact ((unprepared_leaves_nothing_iff plainDigest).1 _ _ db' none hok (by simp)).mpr hspar
  · have hstep : Restrict (ShadowStep plainDigest) Spared heldByOther
        (.proposal (clusterOf ["r1", "r2"])) db' := ⟨hspar, none, hok⟩
    exact (unprepared_leaves_nothing_iff plainDigest).2 heldByOther db' ⟨rfl, rfl, rfl, rfl, rfl, rfl⟩
      ⟨_, .single hstep⟩

/-- The second root of the group is refused by the claim on the first, and the transaction is
committed with that claim and the lease, while the candidate is still `observed`. -/
theorem refused_prepare_leaks :
    (¬ ∀ (proposal : Proposal) (db db' : Db) (turn : Option GenesisTurn),
      db.prepareOne proposal = .ok (db', turn) →
      (∀ candidateId, turn ≠ some (.prepared candidateId)) → LeavesNothing db db') ∧
    ¬ ∀ start db : Db, start.Fresh → Reaches (ShadowStep plainDigest) start db →
      db.ObservedUnclaimed := by
  have hrun : (groupedRoots.prepareOne (clusterOf ["r1", "r2"])).toOption.any (fun result =>
      decide (result.2 = some (.requeued "c" "claim refused on root r2")) &&
      decide ((result.1.claims.lookup ⟨"c", "r1"⟩).map (·.releasedAt) = some none) &&
      decide ((result.1.candidates.lookup "c").map (·.state) = some .observed)) = true := by
    decide +kernel
  obtain ⟨⟨db', turn⟩, hturn, hholds⟩ := (Option.any_eq_true _ _).mp hrun
  simp only [Bool.and_eq_true, decide_eq_true_eq] at hholds
  obtain ⟨⟨rfl, hclaime⟩, hobs⟩ := hholds
  obtain ⟨claim, hclaim, hlive⟩ := Option.map_eq_some_iff.mp hclaime
  obtain ⟨candidate, hcand, hstate⟩ := Option.map_eq_some_iff.mp hobs
  have hok := toOption_eq_some hturn
  constructor
  · intro hleav
    obtain ⟨old, hold, -⟩ := (hleav _ _ db' _ hok (by simp)).claims _ claim hclaim hlive
    cases hold
  · intro huncl
    have hstep : ShadowStep plainDigest groupedRoots (.proposal (clusterOf ["r1", "r2"])) db' :=
      ⟨_, hok⟩
    exact huncl groupedRoots db' ⟨rfl, rfl, rfl, rfl, rfl, rfl⟩ ⟨_, .single hstep⟩ _ claim
      candidate hclaim hcand hstate hlive

end Db

end Wenlan.Genesis
