import Wenlan.Genesis.PolicyClocks

/-!
# The clock under claims and their release

A claim takes its group out of the frontier and drops the record with the row; a release puts the
time of the first claim in its place.
-/

namespace Wenlan.Genesis

open Support (KeyTable)
open Support.Fallible (bind_ok)

namespace Db

variable {db db' : Db} {home other : GroupKey} {candidateId : String} {candidate : CandidateRow}
  {pending : Prop}

/-! ## Claims and their candidates -/

/-- A claim has the epoch and the role of its candidate, and the group of its root. -/
def ClaimsFit (db : Db) : Prop :=
  ∀ key claim, db.claims.lookup key = some claim →
    (∃ candidate, db.candidates.lookup key.candidateId = some candidate ∧
      claim.coverageEpoch = candidate.coverageEpoch ∧
      claim.claimRole = claimRoleFor candidate.signalKind) ∧
    ∃ root, db.roots.lookup key.rootId = some root ∧
      root.independenceGroupId = claim.independenceGroupId

def KeepsCandidates (db db' : Db) : Prop :=
  ∀ candidateId candidate, db.candidates.lookup candidateId = some candidate →
    ∃ row, db'.candidates.lookup candidateId = some row ∧ row.space = candidate.space ∧
      row.coverageEpoch = candidate.coverageEpoch ∧ row.signalKind = candidate.signalKind

/-- Nothing but candidates changed, and these kept what their claims go by. -/
structure OnlyCandidates (db db' : Db) : Prop where
  now_le : db.now ≤ db'.now
  candidates : KeepsCandidates db db'
  claims : db'.claims = db.claims
  coverage : db'.coverage = db.coverage
  frontier : db'.frontier = db.frontier
  cards : db'.cards = db.cards
  suppressions : db'.suppressions = db.suppressions
  quarantines : db'.quarantines = db.quarantines
  roots : db.KeepsGroups db'.roots

section

variable (h : OnlyCandidates db db') (hfit : db.ClaimsFit)
include h hfit

theorem OnlyCandidates.claimsFit : db'.ClaimsFit := by
  intro key claim hclaim
  rw [h.claims] at hclaim
  obtain ⟨⟨candidate, hcand, hepoch, hrole⟩, root, hroot, hgroup⟩ := hfit key claim hclaim
  obtain ⟨row, hrow, -, hrowEp, hsign⟩ := h.candidates key.candidateId candidate hcand
  obtain ⟨root', hroot', hgroup'⟩ := h.roots key.rootId root hroot
  exact ⟨⟨row, hrow, hepoch.trans hrowEp.symm, by rw [hrole, hsign]⟩, root', hroot',
    hgroup'.trans hgroup⟩

theorem OnlyCandidates.space_iff
    {key : ClaimKey} {claim : ClaimRow} (hclaim : db.claims.lookup key = some claim)
    (space : String) : (∃ candidate, db'.candidates.lookup key.candidateId = some candidate ∧
      candidate.space = space) ↔
      ∃ candidate, db.candidates.lookup key.candidateId = some candidate ∧
        candidate.space = space := by
  obtain ⟨⟨candidate, hcand, -⟩, -⟩ := hfit key claim hclaim
  obtain ⟨row, hrow, hspace, -⟩ := h.candidates key.candidateId candidate hcand
  constructor
  · rintro ⟨found, hfound, rfl⟩
    rw [hrow] at hfound
    cases hfound
    exact ⟨candidate, hcand, hspace.symm⟩
  · rintro ⟨found, hfound, rfl⟩
    rw [hcand] at hfound
    cases hfound
    exact ⟨row, hrow, hspace⟩

theorem OnlyCandidates.carries (home : GroupKey) : Carries False db db' home := by
  have hclai : ∀ property : ClaimKey → ClaimRow → Prop,
      KeyTable.Has db'.claims (fun key claim =>
        (∃ candidate, db'.candidates.lookup key.candidateId = some candidate ∧
          candidate.space = home.space) ∧ property key claim) ↔
        KeyTable.Has db.claims fun key claim =>
          (∃ candidate, db.candidates.lookup key.candidateId = some candidate ∧
            candidate.space = home.space) ∧ property key claim := by
    intro property
    rw [h.claims]
    exact exists_congr fun key => exists_congr fun claim => and_congr_right fun hclaim =>
      and_congr_left fun _ => h.space_iff hfit hclaim home.space
  have hconc : ∀ createdAt, db'.ConceptClaim home createdAt ↔ db.ConceptClaim home createdAt :=
    fun createdAt => hclai _
  have hrec : ∀ seen, db'.Recorded home seen ↔ db.Recorded home seen := by
    intro seen
    unfold Recorded Retained
    rw [h.frontier, h.cards, h.suppressions, h.quarantines]
  have hlive : db'.Live home ↔ db.Live home := by
    unfold Live Held
    rw [h.coverage, h.frontier, h.cards, h.suppressions, h.quarantines]
    exact or_congr_right (or_congr_left (hclai _))
  have htrack : db'.Tracked home ↔ db.Tracked home := by
    unfold Tracked
    simp only [hconc, hrec]
  exact {
    now_le := h.now_le
    claims_kept := fun createdAt => (hconc createdAt).mpr
    claims_new := fun createdAt hclaim => .inl ((hconc createdAt).mp hclaim)
    recorded := fun seen hafter => .inl ((hrec seen).mp hafter)
    recorded_kept := fun seen hbef => .inl ⟨seen, (hrec seen).mpr hbef⟩
    live_kept := fun hbef => .inl (hlive.mpr hbef)
    live_new := fun hafter => .inl (htrack.mp hafter) }

end

theorem keepsGroups_refl (db : Db) : db.KeepsGroups db.roots :=
  fun _ root hroot => ⟨root, hroot, rfl⟩

theorem onlyCandidates_update (states : List CandidateState) {change : CandidateRow → CandidateRow}
    (hchang : ∀ row, (change row).space = row.space ∧
      (change row).coverageEpoch = row.coverageEpoch ∧ (change row).signalKind = row.signalKind) :
    OnlyCandidates db (db.updateCandidate candidateId states change).1 := by
  refine ⟨Int.le_refl _, ?_, rfl, rfl, rfl, rfl, rfl, rfl, keepsGroups_refl db⟩
  intro other candidate hcand
  rw [lookup_updateCandidate, hcand, Option.map_some]
  refine ⟨_, rfl, ?_⟩
  split_ifs
  · exact hchang candidate
  · exact ⟨rfl, rfl, rfl⟩

theorem onlyCandidates_tick (db : Db) : OnlyCandidates db db.tick :=
  ⟨db.now_le_tick, fun _ candidate hcand => ⟨candidate, hcand, rfl, rfl, rfl⟩, rfl, rfl,
    rfl, rfl, rfl, rfl, keepsGroups_refl db⟩

theorem onlyCandidates_acquireLease (phase : LeasePhase) (space : String)
    (inputGeneration attempt : Int) (db : Db) :
    OnlyCandidates db (db.acquireLease phase space inputGeneration attempt).1 :=
  ⟨db.now_le_tick.trans db.tick.now_le_tick,
    fun _ candidate hcand => ⟨candidate, hcand, rfl, rfl, rfl⟩, rfl, rfl, rfl, rfl, rfl,
    rfl, keepsGroups_refl db⟩

theorem onlyCandidates_observe (candidate : ObservedCandidate) (db : Db) :
    OnlyCandidates db (db.observeCandidate candidate).1 := by
  unfold observeCandidate
  split_ifs with hknown
  · exact ⟨Int.le_refl _, fun _ row hrow => ⟨row, hrow, rfl, rfl, rfl⟩, rfl, rfl, rfl, rfl, rfl,
      rfl, keepsGroups_refl db⟩
  · exact ⟨Int.le_refl _, fun _ row hrow => ⟨row, hrow, rfl, rfl, rfl⟩, rfl, rfl, rfl, rfl, rfl,
      rfl, keepsGroups_refl db⟩
  · refine ⟨Int.le_refl _, fun _ row hrow => ⟨row, ?_, rfl, rfl, rfl⟩, rfl, rfl, rfl, rfl, rfl,
      rfl, keepsGroups_refl db⟩
    exact KeyTable.lookup_insert_of_notMem hknown hrow

/-! ## Claims -/

def SameClaim (claim row : ClaimRow) : Prop :=
  row.independenceGroupId = claim.independenceGroupId ∧ row.coverageEpoch = claim.coverageEpoch ∧
    row.claimRole = claim.claimRole ∧ row.createdAt = claim.createdAt

section Claim

variable {claim : ClaimReservation} {root : ProvenanceRoot} (hfit : db.ClaimsFit)
  (hcand : db.candidates.lookup candidateId = some candidate)
  (hroot : db.roots.lookup claim.rootId = some root)
  (hgroup : root.independenceGroupId = claim.independenceGroupId)
  (h : db.insertClaim candidateId candidate.coverageEpoch (claimRoleFor candidate.signalKind)
    claim = some db')
include hfit hcand hroot hgroup h

theorem insertClaim_row : ∃ row, db'.claims.lookup ⟨candidateId, claim.rootId⟩ = some row ∧
      row.independenceGroupId = claim.independenceGroupId ∧
      row.coverageEpoch = candidate.coverageEpoch ∧
      row.claimRole = claimRoleFor candidate.signalKind ∧ row.releasedAt = none ∧
      ((∃ old, db.claims.lookup ⟨candidateId, claim.rootId⟩ = some old ∧ SameClaim old row) ∨
        row.createdAt = db.tick.now) := by
  have hdb := insertClaim_eq_some h
  refine ⟨claimRow claim candidate.coverageEpoch (claimRoleFor candidate.signalKind) db.tick.now
    (db.claims.lookup ⟨candidateId, claim.rootId⟩), ?_, rfl, rfl, rfl, rfl, ?_⟩
  · rw [hdb]
    exact AList.lookup_insert _
  · cases hown : db.claims.lookup ⟨candidateId, claim.rootId⟩ with
    | none => exact .inr rfl
    | some old =>
      obtain ⟨⟨row, hrow, hepoch, hrole⟩, root', hroot', hgroup'⟩ := hfit _ old hown
      rw [hcand] at hrow
      cases hrow
      rw [hroot] at hroot'
      cases hroot'
      exact .inl ⟨old, rfl, hgroup.symm.trans hgroup', hepoch.symm, hrole.symm, rfl⟩

theorem insertClaim_keeps {key : ClaimKey} {old : ClaimRow}
    (hold : db.claims.lookup key = some old) :
    ∃ row, db'.claims.lookup key = some row ∧ SameClaim old row ∧
      (old.releasedAt = none → row.releasedAt = none) := by
  by_cases hkey : key = ⟨candidateId, claim.rootId⟩
  · subst hkey
    obtain ⟨row, hrow, -, -, -, hlive, ⟨old', hold', hsame⟩ | hnew⟩ :=
      insertClaim_row hfit hcand hroot hgroup h
    · rw [hold] at hold'
      cases hold'
      exact ⟨row, hrow, hsame, fun _ => hlive⟩
    · refine ⟨row, hrow, ?_, fun _ => hlive⟩
      have hdb := insertClaim_eq_some h
      rw [hdb] at hrow
      have hrow' := Option.some.inj ((AList.lookup_insert _).symm.trans hrow)
      subst hrow'
      rw [hold] at hnew
      obtain ⟨⟨found, hfound, hepoch, hrole⟩, root', hroot', hgroup'⟩ := hfit _ old hold
      rw [hcand] at hfound
      cases hfound
      rw [hroot] at hroot'
      cases hroot'
      exact ⟨hgroup.symm.trans hgroup', hepoch.symm, hrole.symm, by rw [hold]; rfl⟩
  · refine ⟨old, ?_, ⟨rfl, rfl, rfl, rfl⟩, id⟩
    rw [insertClaim_eq_some h]
    exact (AList.lookup_insert_ne hkey).trans hold

theorem insertClaim_new {key : ClaimKey} {row : ClaimRow}
    (hrow : db'.claims.lookup key = some row) :
    (∃ old, db.claims.lookup key = some old ∧ SameClaim old row) ∨
      (key = ⟨candidateId, claim.rootId⟩ ∧ row.createdAt = db.tick.now) := by
  by_cases hkey : key = ⟨candidateId, claim.rootId⟩
  · subst hkey
    obtain ⟨row', hrow', -, -, -, -, hown⟩ := insertClaim_row hfit hcand hroot hgroup h
    rw [hrow] at hrow'
    cases hrow'
    exact hown.imp_right fun hnew => ⟨rfl, hnew⟩
  · left
    rw [insertClaim_eq_some h] at hrow
    exact ⟨row, (AList.lookup_insert_ne hkey).symm.trans hrow, rfl, rfl, rfl, rfl⟩

theorem insertClaim_fit : db'.ClaimsFit := by
  have hdb := insertClaim_eq_some h
  have hcands : db'.candidates = db.candidates := by rw [hdb]; rfl
  have hroots : db'.roots = db.roots := by rw [hdb]; rfl
  intro key row hrow
  rw [hcands, hroots]
  rcases insertClaim_new hfit hcand hroot hgroup h hrow with ⟨old, hold, hsame⟩ | ⟨rfl, -⟩
  · obtain ⟨⟨found, hfound, hepoch, hrole⟩, root', hroot', hgroup'⟩ := hfit key old hold
    exact ⟨⟨found, hfound, hsame.2.1.trans hepoch, hsame.2.2.1.trans hrole⟩, root', hroot',
      hgroup'.trans hsame.1.symm⟩
  · obtain ⟨row', hrow', hrowGr, hepoch, hrole, -⟩ :=
      insertClaim_row hfit hcand hroot hgroup h
    rw [hrow] at hrow'
    cases hrow'
    exact ⟨⟨candidate, hcand, hepoch, hrole⟩, root, hroot, hgroup.trans hrowGr.symm⟩

theorem insertClaim_reserved (home : GroupKey) (hreserved : db.Reserved home) :
    db'.Reserved home := by
  obtain ⟨key, old, hold, hspace, holdGr, hepoch, hconc, hlive⟩ := hreserved
  obtain ⟨row, hrow, hsame, hrowL⟩ :=
    insertClaim_keeps hfit hcand hroot hgroup h hold
  have hcands : db'.candidates = db.candidates := by
    rw [insertClaim_eq_some h]
    rfl
  refine ⟨key, row, hrow, ?_, hsame.1.trans holdGr, hsame.2.1.trans hepoch,
    hsame.2.2.1.trans hconc, hrowL hlive⟩
  rw [hcands]
  exact hspace

theorem insertClaim_reserves (hconc : claimRoleFor candidate.signalKind = .concept) :
    db'.Reserved ⟨candidate.space, claim.independenceGroupId, candidate.coverageEpoch⟩ := by
  obtain ⟨row, hrow, hrowGr, hepoch, hrole, hlive, -⟩ :=
    insertClaim_row hfit hcand hroot hgroup h
  refine ⟨_, row, hrow, ⟨candidate, ?_, rfl⟩, hrowGr, hepoch, hrole.trans hconc, hlive⟩
  rw [insertClaim_eq_some h]
  exact hcand

theorem carries_insertClaim (home : GroupKey) : Carries False db db' home := by
  have hdb := insertClaim_eq_some h
  have hcands : db'.candidates = db.candidates := by rw [hdb]; rfl
  have hnow : db'.now = db.tick.now := by rw [hdb]; rfl
  have hrec : ∀ seen, db'.Recorded home seen ↔ db.Recorded home seen := by
    intro seen
    rw [hdb]
    exact Iff.rfl
  have hkept : ∀ createdAt, db.ConceptClaim home createdAt → db'.ConceptClaim home createdAt := by
    rintro createdAt ⟨key, old, hold, hspace, holdGr, hepoch, hconc, hcreat⟩
    obtain ⟨row, hrow, hsame, -⟩ := insertClaim_keeps hfit hcand hroot hgroup h hold
    refine ⟨key, row, hrow, ?_, hsame.1.trans holdGr, hsame.2.1.trans hepoch,
      hsame.2.2.1.trans hconc, hsame.2.2.2.trans hcreat⟩
    rw [hcands]
    exact hspace
  -- A claim that was not there is the one just made, and its group is reserved.
  have hnew : ∀ createdAt, db'.ConceptClaim home createdAt → db.ConceptClaim home createdAt ∨
      (createdAt = db.tick.now ∧ db'.Reserved home) := by
    rintro createdAt ⟨key, row, hrow, hspace, hrowGr, hepoch, hconc, hcreat⟩
    rcases insertClaim_new hfit hcand hroot hgroup h hrow with ⟨old, hold, hsame⟩ |
      ⟨rfl, hnow⟩
    · left
      rw [hcands] at hspace
      exact ⟨key, old, hold, hspace, hsame.1.symm.trans hrowGr, hsame.2.1.symm.trans hepoch,
        hsame.2.2.1.symm.trans hconc, hsame.2.2.2.symm.trans hcreat⟩
    · right
      refine ⟨hcreat.symm.trans hnow, ?_⟩
      obtain ⟨row', hrow', -, -, -, hlive, -⟩ := insertClaim_row hfit hcand hroot hgroup h
      rw [hrow] at hrow'
      cases hrow'
      exact ⟨_, row, hrow, hspace, hrowGr, hepoch, hconc, hlive⟩
  exact {
    now_le := by rw [hnow]; exact db.now_le_tick
    claims_kept := hkept
    claims_new := fun createdAt hclaim => by
      refine (hnew createdAt hclaim).imp_right fun hnow' => ?_
      rw [hnow'.1, hnow]
      exact ⟨db.now_le_tick, Int.le_refl _⟩
    recorded := fun seen hafter => .inl ((hrec seen).mp hafter)
    recorded_kept := fun seen hbef => .inl ⟨seen, (hrec seen).mpr hbef⟩
    live_kept := fun hbef => by
      left
      rcases hbef with hcov | hreserved | hfrontier | hheld
      · refine .inl ?_
        rw [hdb]
        exact hcov
      · exact .inr (.inl (insertClaim_reserved hfit hcand hroot hgroup h home hreserved))
      · refine .inr (.inr (.inl ?_))
        rw [hdb]
        exact hfrontier
      · refine .inr (.inr (.inr ?_))
        rw [hdb]
        exact hheld
    live_new := fun hafter => by
      rcases hafter with ⟨seen, hseen⟩ | ⟨createdAt, hclaim⟩
      · exact .inl (.inl ⟨seen, (hrec seen).mp hseen⟩)
      · rcases hnew createdAt hclaim with hold | ⟨-, hreserved⟩
        · exact .inl (.inr ⟨createdAt, hold⟩)
        · exact .inr (.inl (.inr (.inl hreserved))) }

end Claim

/-- What a transition has to leave behind: the clock of every group and fitting claims. -/
structure Keeps (db db' : Db) : Prop where
  carries : ∀ home, Carries False db db' home
  fit : db'.ClaimsFit

theorem Keeps.then_ {db'' : Db} (h : Keeps db db') (h' : Keeps db' db'') : Keeps db db'' :=
  ⟨fun home => (h.carries home).then_ (h'.carries home), h'.fit⟩

theorem OnlyCandidates.keeps (h : OnlyCandidates db db') (hfit : db.ClaimsFit) : Keeps db db' :=
  ⟨h.carries hfit, h.claimsFit hfit⟩

def Filled (db : Db) (claims : List ClaimReservation) : Prop :=
  ∀ claim ∈ claims, ∃ root, db.roots.lookup claim.rootId = some root ∧
    root.independenceGroupId = claim.independenceGroupId

theorem filled_fillGroups (rootIds : List String) (db : Db) :
    db.Filled (db.fillGroups rootIds) := by
  intro claim hmem
  obtain ⟨rootId, -, hclaim⟩ := List.mem_filterMap.mp hmem
  obtain ⟨root, hroot, rfl⟩ := Option.map_eq_some_iff.mp hclaim
  exact ⟨root, hroot, rfl⟩

/-- The loop keeps what it was given, and one that gets to its end reserves every group. -/
structure Claimed (candidate : CandidateRow) (claims : List ClaimReservation)
    (refused : Option String) (db db' : Db) : Prop where
  keeps : Keeps db db'
  candidates : db'.candidates = db.candidates
  reserved : ∀ home, db.Reserved home → db'.Reserved home
  reserves : refused = none → claimRoleFor candidate.signalKind = .concept → ∀ claim ∈ claims,
      db'.Reserved ⟨candidate.space, claim.independenceGroupId, candidate.coverageEpoch⟩

theorem claimed_insertClaims {claims : List ClaimReservation} {refused : Option String}
    (hfit : db.ClaimsFit) (hcand : db.candidates.lookup candidateId = some candidate)
    (hfil : db.Filled claims)
    (h : db.insertClaims candidateId candidate.coverageEpoch (claimRoleFor candidate.signalKind)
      claims = (db', refused)) : Claimed candidate claims refused db db' := by
  induction claims generalizing db with
  | nil =>
    cases h
    exact ⟨⟨carries_refl _, hfit⟩, rfl, fun _ hreserved => hreserved, by simp⟩
  | cons claim claims ih =>
    rw [insertClaims] at h
    obtain ⟨root, hroot, hgroup⟩ := hfil claim List.mem_cons_self
    cases hinsert : db.insertClaim candidateId candidate.coverageEpoch
        (claimRoleFor candidate.signalKind) claim with
    | none =>
      rw [hinsert] at h
      cases h
      exact ⟨(onlyCandidates_tick db).keeps hfit, rfl, fun _ hreserved => hreserved,
        fun hnone => by cases hnone⟩
    | some mid =>
      rw [hinsert] at h
      have hmid := insertClaim_eq_some hinsert
      have hcands : mid.candidates = db.candidates := by
        rw [hmid]
        rfl
      have hfille : mid.Filled claims := by
        intro next hnext
        rw [hmid]
        exact hfil next (List.mem_cons_of_mem _ hnext)
      have hfitM := insertClaim_fit hfit hcand hroot hgroup hinsert
      obtain ⟨hkeeps, hsame, hstays, hres⟩ :=
        ih hfitM (by rw [hcands]; exact hcand) hfille h
      refine ⟨Keeps.then_ ⟨fun home =>
        carries_insertClaim hfit hcand hroot hgroup hinsert home, hfitM⟩ hkeeps,
        hsame.trans hcands, fun home hreserved => hstays home
          (insertClaim_reserved hfit hcand hroot hgroup hinsert home hreserved), ?_⟩
      intro hnone hconc
      rw [List.forall_mem_cons]
      exact ⟨hstays _ (insertClaim_reserves hfit hcand hroot hgroup hinsert hconc),
        hres hnone hconc⟩

/-! ## The prepare -/

theorem Reserved.conceptClaim (h : db.Reserved home) :
    ∃ createdAt, db.ConceptClaim home createdAt := by
  obtain ⟨key, claim, hclaim, hspace, hgroup, hepoch, hconc, -⟩ := h
  exact ⟨claim.createdAt, key, claim, hclaim, hspace, hgroup, hepoch, hconc, rfl⟩

theorem carries_retireReserved (hreserved : db.Reserved home) (other : GroupKey) :
    Carries False db (db.retireFrontierRow home).1 other where
  now_le := Int.le_refl _
  claims_kept createdAt hclaim := hclaim
  claims_new createdAt hclaim := .inl hclaim
  recorded seen hafter := by
    left
    rcases hafter with ⟨row, hrow, hseen⟩ | hretained
    · refine .inl ⟨row, ?_, hseen⟩
      by_cases hsame : other = home
      · subst hsame
        have hgone : (db.retireFrontierRow other).1.frontier.lookup other = none :=
          AList.lookup_erase _ _
        rw [hgone] at hrow
        cases hrow
      · exact (AList.lookup_erase_ne hsame).symm.trans hrow
    · exact .inr hretained
  recorded_kept seen hbef := by
    by_cases hsame : other = home
    · subst hsame
      exact .inr hreserved.conceptClaim
    · rcases hbef with ⟨row, hrow, hseen⟩ | hretained
      · exact .inl ⟨seen, .inl ⟨row, (AList.lookup_erase_ne hsame).trans hrow, hseen⟩⟩
      · exact .inl ⟨seen, .inr hretained⟩
  live_kept hbef := by
    left
    by_cases hsame : other = home
    · subst hsame
      exact .inr (.inl hreserved)
    · rcases hbef with hcov | hother | hfrontier | hheld
      · exact .inl hcov
      · exact .inr (.inl hother)
      · exact .inr (.inr (.inl (AList.mem_erase.mpr ⟨hsame, hfrontier⟩)))
      · exact .inr (.inr (.inr hheld))
  live_new hafter := by
    left
    rcases hafter with ⟨seen, ⟨row, hrow, hseen⟩ | hretained⟩ | hclaimed
    · refine .inl ⟨seen, .inl ⟨row, ?_, hseen⟩⟩
      by_cases hsame : other = home
      · subst hsame
        have hgone : (db.retireFrontierRow other).1.frontier.lookup other = none :=
          AList.lookup_erase _ _
        rw [hgone] at hrow
        cases hrow
      · exact (AList.lookup_erase_ne hsame).symm.trans hrow
    · exact .inl ⟨seen, .inr hretained⟩
    · exact .inr hclaimed

theorem keeps_retireFrontierRows {space : String} {coverageEpoch : Int} {groups : List String}
    (hfit : db.ClaimsFit)
    (hreserved : ∀ group ∈ groups, db.Reserved ⟨space, group, coverageEpoch⟩) :
    Keeps db (db.retireFrontierRows space coverageEpoch groups) := by
  unfold retireFrontierRows
  induction groups generalizing db with
  | nil => exact ⟨carries_refl _, hfit⟩
  | cons group groups ih =>
    rw [List.forall_mem_cons] at hreserved
    rw [List.foldl_cons]
    exact Keeps.then_ ⟨carries_retireReserved hreserved.1, hfit⟩ (ih hfit hreserved.2)

theorem keeps_update {db : Db} (hfit : db.ClaimsFit) (states : List CandidateState)
    {change : CandidateRow → CandidateRow} (hchang : ∀ row, (change row).space = row.space ∧
      (change row).coverageEpoch = row.coverageEpoch ∧ (change row).signalKind = row.signalKind) :
    Keeps db (db.updateCandidate candidateId states change).1 :=
  (onlyCandidates_update states hchang).keeps hfit

theorem keeps_finishPrepare {claims : List ClaimReservation} {leaseToken : String}
    {outcome : PrepareOutcome} (hfit : db.ClaimsFit)
    (hreserved : claimRoleFor candidate.signalKind = .concept → ∀ claim ∈ claims,
      db.Reserved ⟨candidate.space, claim.independenceGroupId, candidate.coverageEpoch⟩)
    (h : db.finishPrepare candidateId candidate claims leaseToken = .ok (db', outcome)) :
    Keeps db db' := by
  obtain ⟨u, -, h⟩ := bind_ok h
  cases h
  by_cases hconc : claimRoleFor candidate.signalKind = .concept
  · rw [if_pos hconc]
    have hret : Keeps db (db.retireFrontierRows candidate.space candidate.coverageEpoch
        (distinctGroups claims)) := keeps_retireFrontierRows hfit (by
        intro group hmem
        obtain ⟨claim, hclaim, rfl⟩ := List.mem_map.mp (mem_distinctSorted.mp hmem)
        exact hreserved hconc claim hclaim)
    exact hret.then_ (keeps_update hret.fit _ fun _ => ⟨rfl, rfl, rfl⟩)
  · rw [if_neg hconc]
    exact keeps_update hfit _ fun _ => ⟨rfl, rfl, rfl⟩

theorem keeps_prepareDue {claims : List ClaimReservation} {outcome : PrepareOutcome}
    (hfit : db.ClaimsFit) (hcand : db.candidates.lookup candidateId = some candidate)
    (hfil : db.Filled claims)
    (h : db.prepareDue candidateId candidate claims = .ok (db', outcome)) : Keeps db db' := by
  unfold prepareDue at h
  obtain ⟨leased, token, hleas⟩ : ∃ leased token, db.acquireLease .genesis candidate.space
      candidate.inputGeneration candidate.attempt = (leased, token) := ⟨_, _, rfl⟩
  have hacq := onlyCandidates_acquireLease .genesis candidate.space candidate.inputGeneration
    candidate.attempt db
  have hlease : leased.candidates = db.candidates ∧ leased.roots = db.roots := by
    have hfst : leased = (db.acquireLease .genesis candidate.space candidate.inputGeneration
        candidate.attempt).1 := by rw [hleas]
    rw [hfst]
    exact ⟨rfl, rfl⟩
  rw [hleas] at hacq h
  have hkeeps := hacq.keeps hfit
  cases token with
  | none =>
    cases h
    exact hkeeps
  | some leaseToken =>
    dsimp only at h hkeeps
    obtain ⟨mid, refused, hclai⟩ : ∃ mid refused, leased.insertClaims candidateId
        candidate.coverageEpoch (claimRoleFor candidate.signalKind) claims = (mid, refused) :=
      ⟨_, _, rfl⟩
    have hclaimed := claimed_insertClaims hkeeps.fit
      (by rw [hlease.1]; exact hcand)
      (by intro claim hmem; rw [hlease.2]; exact hfil claim hmem) hclai
    rw [hclai] at h
    cases refused with
    | some rootId =>
      cases h
      exact hkeeps.then_ hclaimed.keeps
    | none =>
      refine (hkeeps.then_ hclaimed.keeps).then_ ?_
      exact keeps_finishPrepare hclaimed.keeps.fit (hclaimed.reserves rfl) h

theorem keeps_prepare {rootIds : List String} {outcome : PrepareOutcome} (hfit : db.ClaimsFit)
    (h : db.prepareCandidate candidateId (db.fillGroups rootIds) = .ok (db', outcome)) :
    Keeps db db' := by
  obtain ⟨candidate, hfound, h⟩ := bind_ok h
  have hcand := findCandidate_eq_ok.mp hfound
  obtain ⟨u, -, h⟩ := bind_ok h
  have htick := (onlyCandidates_tick db).keeps hfit
  split_ifs at h
  · exact htick.then_ (keeps_prepareDue htick.fit hcand (filled_fillGroups rootIds db) h)
  · cases h
    exact htick
  · exact keeps_prepareDue hfit hcand (filled_fillGroups rootIds db) h

theorem keeps_moveState {sources : List CandidateState} {target : CandidateState}
    (hfit : db.ClaimsFit) (h : db.moveState candidateId sources target = .ok db') :
    Keeps db db' := by
  obtain ⟨candidate, -, h⟩ := bind_ok h
  obtain ⟨u, -, h⟩ := bind_ok h
  obtain ⟨u', -, h⟩ := bind_ok h
  obtain ⟨u₂, -, h⟩ := bind_ok h
  cases h
  exact keeps_update hfit _ fun _ => ⟨rfl, rfl, rfl⟩

theorem keeps_retryWait {charge : RetryCharge} (hfit : db.ClaimsFit)
    (h : db.markRetryWait candidateId charge = .ok db') : Keeps db db' := by
  obtain ⟨candidate, -, h⟩ := bind_ok h
  obtain ⟨u, -, h⟩ := bind_ok h
  obtain ⟨u', -, h⟩ := bind_ok h
  cases h
  have htick := (onlyCandidates_tick db).keeps hfit
  exact htick.then_ (keeps_update htick.fit _ fun _ => ⟨rfl, rfl, rfl⟩)

end Db

end Wenlan.Genesis
