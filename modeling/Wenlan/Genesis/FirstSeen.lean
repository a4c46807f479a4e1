import Wenlan.Genesis.ReleaseClocks

/-!
# The first time of a group

Every move carries the clock of every group, so the records of a run bound each other.  The one
approximation is the release of a claim: the time of the first claim takes the place of the record
that the claim retired.
-/

namespace Wenlan.Genesis

open Support (KeyTable)
open Support.Transition
open Support.Fallible (bind_ok mapError_eq_ok)

namespace Db

variable {db db' : Db} {home : GroupKey} {digest : Digest} {move : Move}

theorem keeps_evidence {roots : KeyTable String ProvenanceRoot} {edges : List EvidenceEdge}
    (hfit : db.ClaimsFit) (hroots : db.KeepsGroups roots) :
    Keeps db { db with roots := roots, edges := edges } := by
  have honly : OnlyCandidates db { db with roots := roots, edges := edges } :=
    ⟨Int.le_refl _, fun _ row hrow => ⟨row, hrow, rfl, rfl, rfl⟩, rfl, rfl, rfl, rfl, rfl, rfl,
      hroots⟩
  exact honly.keeps hfit

theorem keeps_defer (group : GroupKey) (delaySeconds : Int) (hfit : db.ClaimsFit) :
    Keeps db (db.deferScan group delaySeconds) := by
  refine ⟨fun other => ?_, hfit⟩
  have hlook : ∃ change : FrontierRow → FrontierRow,
      (∀ row, (change row).firstSeenAt = row.firstSeenAt) ∧
        (db.deferScan group delaySeconds).frontier.lookup other =
          (db.frontier.lookup other).map change := by
    refine ⟨_, ?_, KeyTable.lookup_update _ _ _⟩
    intro row
    split_ifs <;> rfl
  obtain ⟨change, hchang, hlook⟩ := hlook
  have hsame : SameClaims db (db.deferScan group delaySeconds) := ⟨db.now_le_tick, rfl, rfl, rfl⟩
  have hrecorded : ∀ seen, (db.deferScan group delaySeconds).Recorded other seen ↔
      db.Recorded other seen := by
    intro seen
    unfold Recorded
    rw [hlook]
    refine or_congr ?_ Iff.rfl
    constructor
    · rintro ⟨row, hrow, hseen⟩
      obtain ⟨old, hold, rfl⟩ := Option.map_eq_some_iff.mp hrow
      exact ⟨old, hold, (hchang old).symm.trans hseen⟩
    · rintro ⟨row, hrow, hseen⟩
      exact ⟨change row, by rw [hrow, Option.map_some], (hchang row).trans hseen⟩
  refine hsame.carries (fun seen => (hrecorded seen).mp)
    (fun seen hbefore => ⟨seen, (hrecorded seen).mpr hbefore⟩) ?_
  rintro (hmem | hheld)
  · left
    obtain ⟨row, hrow⟩ := KeyTable.mem_iff.mp hmem
    exact KeyTable.mem_iff.mpr ⟨change row, by rw [hlook, hrow, Option.map_some]⟩
  · exact .inr (.inl hheld)

theorem keeps_surface {space spaceId : String} {coverageEpoch : Int}
    {surfacing : Option Surfacing} (hfit : db.ClaimsFit)
    (h : db.surfaceBelowFloorGroups digest space spaceId coverageEpoch = .ok (db', surfacing)) :
    Keeps db db' := by
  have htick := (onlyCandidates_tick db).keeps hfit
  unfold surfaceBelowFloorGroups at h
  dsimp only at h
  split_ifs at h
  · cases h
    exact htick
  · obtain ⟨bound, hbound, h⟩ := bind_ok h
    cases h
    have hbind := mapError_eq_ok.mp hbound
    exact htick.then_ ⟨carries_bind hbind, htick.fit.of_claimData (claimData_bind hbind)⟩

/-! ## Runs -/

theorem toOption_fst {ε α β : Type} {result : Except ε (α × β)} {a : α}
    (h : result.toOption.map (·.1) = some a) : ∃ b, result = .ok (a, b) := by
  cases result with
  | error error => cases h
  | ok pair =>
    cases h
    exact ⟨pair.2, rfl⟩

theorem toOption_eq_some {ε α : Type} {result : Except ε α} {a : α}
    (h : result.toOption = some a) : result = .ok a := by
  cases result with
  | error error => cases h
  | ok value =>
    cases h
    rfl

/-- The clocks of all groups are right, and every claim fits its candidate and its root. -/
structure Timed (db : Db) : Prop where
  clocked : ∀ home, db.Clocked home
  fit : db.ClaimsFit

theorem Timed.keeps (htimed : db.Timed) (h : Keeps db db') : db'.Timed :=
  ⟨fun home => (htimed.clocked home).carries (h.carries home), h.fit⟩

theorem keeps_step (htimed : db.Timed) (h : Step digest db move db') : Keeps db db' := by
  obtain ⟨hallow, hnext⟩ := h
  obtain ⟨hclock, hfit⟩ := htimed
  cases move with
  | evidence roots edges =>
    cases hnext
    exact keeps_evidence hfit hallow
  | reconcile space coverageEpoch =>
    obtain ⟨outcome, hok⟩ := toOption_fst hnext
    exact ⟨carries_reconcile hclock hok, hfit.of_claimData (claimData_reconcile hok)⟩
  | defer group delaySeconds =>
    cases hnext
    exact keeps_defer group delaySeconds hfit
  | surface space spaceId coverageEpoch =>
    obtain ⟨surfacing, hok⟩ := toOption_fst hnext
    exact keeps_surface hfit hok
  | bind space coverageEpoch cardId groups =>
    have hok := toOption_eq_some hnext
    exact ⟨carries_bind hok, hfit.of_claimData (claimData_bind hok)⟩
  | expireCard group =>
    obtain ⟨expired, hok⟩ := toOption_fst hnext
    exact ⟨carries_expireCard hok, hfit.of_claimData (claimData_expireCard hok)⟩
  | dismiss cardId reason =>
    have hok := toOption_eq_some hnext
    exact ⟨carries_dismiss hok, hfit.of_claimData (claimData_dismiss hok)⟩
  | suppress group pageId reason =>
    have hok := toOption_eq_some hnext
    exact ⟨carries_suppress hok, hfit.of_claimData (claimData_suppress hok)⟩
  | lapse space coverageEpoch =>
    obtain ⟨lapsed, hok⟩ := toOption_fst hnext
    exact ⟨carries_reconcileExpired hok, hfit.of_claimData (claimData_reconcileExpired hok)⟩
  | quarantine group reason =>
    have hok := toOption_eq_some hnext
    exact ⟨carries_quarantine hok, hfit.of_claimData (claimData_quarantine hok)⟩
  | lift group =>
    have hok := toOption_eq_some hnext
    exact ⟨carries_lift hok, hfit.of_claimData (claimData_lift hok)⟩
  | observe candidate =>
    cases hnext
    exact (onlyCandidates_observe candidate db).keeps hfit
  | prepare candidateId rootIds =>
    obtain ⟨outcome, hok⟩ := toOption_fst hnext
    exact keeps_prepare hfit hok
  | inferencing candidateId => exact keeps_moveState hfit (toOption_eq_some hnext)
  | validating candidateId => exact keeps_moveState hfit (toOption_eq_some hnext)
  | retryWait candidateId charge => exact keeps_retryWait hfit (toOption_eq_some hnext)
  | stale candidateId reason => exact keeps_stale hclock hfit (toOption_eq_some hnext)
  | superseded candidateId => exact keeps_superseded hclock hfit (toOption_eq_some hnext)
  | reviewRequired candidateId cardId =>
    exact keeps_reviewRequired hclock hfit (toOption_eq_some hnext)
  | suppressCandidate candidateId cardId reason =>
    exact keeps_suppressed hfit (toOption_eq_some hnext)

theorem Fresh.timed (hfresh : db.Fresh) : db.Timed := by
  have hnoCl : ∀ home createdAt, ¬ db.ConceptClaim home createdAt := by
    intro home createdAt
    unfold ConceptClaim
    rw [hfresh.claims]
    exact KeyTable.has_empty
  have hnoR : ∀ home firstSeenAt, ¬ db.Recorded home firstSeenAt := by
    intro home firstSeenAt
    unfold Recorded Retained
    rw [hfresh.frontier, hfresh.cards, hfresh.suppressions, hfresh.quarantines]
    rintro (⟨row, hrow, -⟩ | hcard | hsuppression | hquarantine)
    · cases hrow
    · exact KeyTable.has_empty hcard
    · exact KeyTable.has_empty hsuppression
    · exact KeyTable.has_empty hquarantine
  refine ⟨fun home => ?_, fun key claim hclaim => ?_⟩
  · exact {
      recorded_past := fun seen hrecorded => absurd hrecorded (hnoR home seen)
      claimed_past := fun createdAt hclaim => absurd hclaim (hnoCl home createdAt)
      recorded_le := fun seen _ hrecorded => absurd hrecorded (hnoR home seen)
      live := fun htrack => by
        rcases htrack with ⟨seen, hrecorded⟩ | ⟨createdAt, hclaim⟩
        · exact absurd hrecorded (hnoR home seen)
        · exact absurd hclaim (hnoCl home createdAt)
      unique := fun _ seen _ hrecorded => absurd hrecorded (hnoR home seen) }
  · rw [hfresh.claims] at hclaim
    cases hclaim

theorem keeps_of_reaches (htimed : db.Timed) (h : Reaches (Step digest) db db') : Keeps db db' := by
  obtain ⟨moves, hrun⟩ := h
  induction hrun with
  | refl s => exact ⟨carries_refl s, htimed.fit⟩
  | cons hone _ ih =>
    have hkeeps := keeps_step htimed hone
    exact hkeeps.then_ (ih (htimed.keeps hkeeps))

/-- In every run, what any home of a group records is no later than any concept claim that was
made on the group before; and no later than any first time recorded before, unless a concept
claim has been made, which a release puts in the place of the record. -/
theorem first_seen_bounded (digest : Digest) {start s t : Db} (hfresh : start.Fresh)
    (hs : Reaches (Step digest) start s) (ht : Reaches (Step digest) s t) (home : GroupKey)
    (firstSeenAt : Int) (hrecorded : t.Recorded home firstSeenAt) :
    (∀ createdAt, s.ConceptClaim home createdAt → firstSeenAt ≤ createdAt) ∧
      ∀ earlier, s.Recorded home earlier →
        firstSeenAt ≤ earlier ∨ ∃ createdAt, t.ConceptClaim home createdAt := by
  have htimed := hfresh.timed.keeps (keeps_of_reaches hfresh.timed hs)
  exact (htimed.clocked home).first_seen ((keeps_of_reaches htimed ht).carries home) hrecorded

def workGroup : GroupKey := ⟨"work", "g", 1⟩

def claimedByCandidate : List Move :=
  [.observe ⟨"c", "slot", "page", "work", .evidenceCluster, 1, 1, "digest"⟩, .prepare "c" ["r"]]

theorem recorded_of_frontier {firstSeenAt : Int}
    (h : (db.frontier.lookup home).map (·.firstSeenAt) = some firstSeenAt) :
    db.Recorded home firstSeenAt := by
  obtain ⟨row, hrow, hseen⟩ := Option.map_eq_some_iff.mp h
  exact .inl ⟨row, hrow, hseen⟩

theorem run_plain {moves : List Move} (hallow : ∀ move ∈ moves, ∀ s : Db, s.Allowed move)
    (h : moves.foldlM (next plainDigest) db = some db') : Reaches (Step plainDigest) db db' := by
  have hstep : ∀ s move t, (∀ s : Db, s.Allowed move) → s.next plainDigest move = some t →
      Step plainDigest s move t := fun s move t hallow h => ⟨hallow s, h⟩
  exact ⟨moves, Run.of_foldlM hstep hallow h⟩

theorem oneGroup_fresh : oneGroup.Fresh := ⟨rfl, rfl, rfl, rfl, rfl, rfl⟩

theorem first_seen_bounded_by_claim :
    ∃ s t firstSeenAt createdAt, Reaches (Step plainDigest) oneGroup s ∧
      Reaches (Step plainDigest) s t ∧ s.ConceptClaim workGroup createdAt ∧
      t.Recorded workGroup firstSeenAt ∧ firstSeenAt ≤ createdAt := by
  have hend : (claimedByCandidate.foldlM (next plainDigest) oneGroup).any (fun s =>
      decide ((s.claims.lookup ⟨"c", "r"⟩).map (·.createdAt) = some 51840000) &&
      decide ((s.claims.lookup ⟨"c", "r"⟩).map (fun claim => (claim.independenceGroupId,
        claim.coverageEpoch, claim.claimRole)) = some ("g", 1, .concept)) &&
      decide ((s.candidates.lookup "c").map (·.space) = some "work") &&
      ([Move.stale "c" .inputMoved].foldlM (next plainDigest) s).any fun t =>
        decide ((t.frontier.lookup workGroup).map (·.firstSeenAt) = some 51840000)) = true := by
    decide +kernel
  obtain ⟨s, hs, hholds⟩ := (Option.any_eq_true _ _).mp hend
  simp only [Bool.and_eq_true, decide_eq_true_eq] at hholds
  obtain ⟨⟨⟨hcreat, hclai⟩, hspace⟩, hrest⟩ := hholds
  obtain ⟨t, ht, hseen⟩ := (Option.any_eq_true _ _).mp hrest
  have hreach := run_plain (by simp [claimedByCandidate, Allowed]) hs
  have hreach' := run_plain (by simp [Allowed]) ht
  have hrecorded := recorded_of_frontier (of_decide_eq_true hseen)
  obtain ⟨claim, hclaim, hcrea⟩ := Option.map_eq_some_iff.mp hcreat
  obtain ⟨candidate, hcand, hwork⟩ := Option.map_eq_some_iff.mp hspace
  have hconc : s.ConceptClaim workGroup 51840000 := by
    rw [hclaim, Option.map_some, Option.some.injEq, Prod.mk.injEq, Prod.mk.injEq] at hclai
    exact ⟨_, claim, hclaim, ⟨candidate, hcand, hwork⟩, hclai.1, hclai.2.1, hclai.2.2, hcrea⟩
  exact ⟨s, t, _, _, hreach, hreach', hconc, hrecorded,
    (first_seen_bounded plainDigest oneGroup_fresh hreach hreach' workGroup _ hrecorded).1 _
      hconc⟩

/-- The claim retires the record, and its release puts the later time of the claim there. -/
theorem first_seen_moves_forward :
    ¬ ∀ (digest : Digest) (start s t : Db) (home : GroupKey) (earlier firstSeenAt : Int),
      start.Fresh → Reaches (Step digest) start s → Reaches (Step digest) s t →
      s.Recorded home earlier → t.Recorded home firstSeenAt → firstSeenAt ≤ earlier := by
  intro hclaim
  have hend : ([Move.reconcile "work" 1].foldlM (next plainDigest) oneGroup).any (fun s =>
      decide ((s.frontier.lookup workGroup).map (·.firstSeenAt) = some 34560000) &&
      ((claimedByCandidate ++ [Move.stale "c" .inputMoved]).foldlM (next plainDigest) s).any
        fun t => decide ((t.frontier.lookup workGroup).map (·.firstSeenAt) = some 86400000)) =
      true := by
    decide +kernel
  obtain ⟨s, hs, hholds⟩ := (Option.any_eq_true _ _).mp hend
  rw [Bool.and_eq_true, decide_eq_true_eq] at hholds
  obtain ⟨t, ht, hseen⟩ := (Option.any_eq_true _ _).mp hholds.2
  have hle := hclaim plainDigest oneGroup s t workGroup 34560000 86400000 oneGroup_fresh
    (run_plain (by simp [Allowed]) hs) (run_plain (by simp [claimedByCandidate, Allowed]) ht)
    (recorded_of_frontier hholds.1) (recorded_of_frontier (of_decide_eq_true hseen))
  omega

end Db

end Wenlan.Genesis
