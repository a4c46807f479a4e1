import Wenlan.Genesis.CardBinding
import Wenlan.Genesis.Reservations

/-!
# What the statements of a transition do

One lemma for each statement and each short sequence of them, by which the transitions are read
from here on.
-/

namespace Wenlan.Genesis

open Support (KeyTable)
open Support.Fallible (bind_ok check check_eq_ok)

namespace Db

variable {db db' : Db} {candidateId : String} {candidate : CandidateRow} {home : GroupKey}

theorem lookup_updateCandidate (candidateId : String) (states : List CandidateState)
    (change : CandidateRow → CandidateRow) (db : Db) (other : String) :
    (db.updateCandidate candidateId states change).1.candidates.lookup other =
      (db.candidates.lookup other).map fun row =>
        if other = candidateId ∧ row.state ∈ states then change row else row := by
  unfold updateCandidate
  rw [KeyTable.lookup_update]
  congr 1
  ext row : 1
  simp

theorem lookup_releaseClaims (candidateId reason : String) (db : Db) (key : ClaimKey) :
    (db.releaseClaims candidateId reason).claims.lookup key =
      (db.claims.lookup key).map fun claim =>
        if key.candidateId = candidateId ∧ claim.releasedAt = none then
          { claim with releasedAt := some db.tick.now, releasedReason := some reason }
        else claim := by
  unfold releaseClaims
  rw [KeyTable.lookup_update]
  congr 1
  ext claim : 1
  simp

theorem mem_candidateConceptGroups {liveOnly : Bool} {group : String} :
    group ∈ db.candidateConceptGroups candidateId liveOnly ↔
      ∃ rootId claim, db.claims.lookup ⟨candidateId, rootId⟩ = some claim ∧
        claim.claimRole = .concept ∧ (liveOnly → claim.releasedAt = none) ∧
        claim.independenceGroupId = group := by
  unfold candidateConceptGroups
  rw [mem_distinctSorted, List.mem_map]
  constructor
  · rintro ⟨⟨key, claim⟩, hmem, rfl⟩
    obtain ⟨hclaim, hchos⟩ := KeyTable.mem_select.mp hmem
    simp only [Bool.and_eq_true, beq_iff_eq, decide_eq_true_eq, Bool.or_eq_true,
      Bool.not_eq_true'] at hchos
    obtain ⟨⟨rfl, hconc⟩, hlive⟩ := hchos
    refine ⟨key.rootId, claim, hclaim, hconc, fun htrue => ?_, rfl⟩
    rcases hlive with hfalse | hlive
    · rw [hfalse] at htrue
      cases htrue
    · exact hlive
  · rintro ⟨rootId, claim, hclaim, hconc, hlive, rfl⟩
    refine ⟨⟨⟨candidateId, rootId⟩, claim⟩, KeyTable.mem_select.mpr ⟨hclaim, ?_⟩, rfl⟩
    cases liveOnly with
    | false => simp [hconc]
    | true => simp [hconc, hlive rfl]

theorem findCandidate_eq_ok {what : String} : db.findCandidate candidateId what = .ok candidate ↔
      db.candidates.lookup candidateId = some candidate := by
  unfold findCandidate
  cases db.candidates.lookup candidateId with
  | none => exact iff_of_false (fun h => by cases h) (fun h => by cases h)
  | some row =>
    rw [Except.ok.injEq, Option.some.injEq]

theorem lookup_putFrontierRow (group : GroupKey) (firstSeenAt : Int) (db : Db) (other : GroupKey) :
    (db.putFrontierRow group firstSeenAt).frontier.lookup other =
      if other = group then some ((db.frontier.lookup group).getD ⟨firstSeenAt, db.now⟩)
      else db.frontier.lookup other := by
  exact KeyTable.lookup_insertIfAbsent _ _ _ _

theorem mem_restoreFrontierRow {group other : GroupKey} :
    other ∈ (db.restoreFrontierRow group).frontier ↔ other = group ∨ other ∈ db.frontier :=
  KeyTable.mem_insertIfAbsent

/-- What the restoring of some groups leaves alone. -/
structure OnlyFrontier (db db' : Db) : Prop where
  now_le : db.now ≤ db'.now
  leases : db'.leases = db.leases
  candidates : db'.candidates = db.candidates
  claims : db'.claims = db.claims
  coverage : db'.coverage = db.coverage
  cards : db'.cards = db.cards
  suppressions : db'.suppressions = db.suppressions
  quarantines : db'.quarantines = db.quarantines
  roots : db'.roots = db.roots

theorem onlyFrontier_restoreFrontierRow (group : GroupKey) (db : Db) :
    OnlyFrontier db (db.restoreFrontierRow group) :=
  ⟨db.now_le_tick, rfl, rfl, rfl, rfl, rfl, rfl, rfl, rfl⟩

theorem OnlyFrontier.refl (db : Db) : OnlyFrontier db db :=
  ⟨Int.le_refl _, rfl, rfl, rfl, rfl, rfl, rfl, rfl, rfl⟩

theorem OnlyFrontier.trans {db'' : Db} (h : OnlyFrontier db db') (h' : OnlyFrontier db' db'') :
    OnlyFrontier db db'' where
  now_le := h.now_le.trans h'.now_le
  leases := h'.leases.trans h.leases
  candidates := h'.candidates.trans h.candidates
  claims := h'.claims.trans h.claims
  coverage := h'.coverage.trans h.coverage
  cards := h'.cards.trans h.cards
  suppressions := h'.suppressions.trans h.suppressions
  quarantines := h'.quarantines.trans h.quarantines
  roots := h'.roots.trans h.roots

theorem onlyFrontier_restoreFrontierRows (space : String) (coverageEpoch : Int)
    (groups : List String) (db : Db) :
    OnlyFrontier db (db.restoreFrontierRows space coverageEpoch groups) := by
  induction groups generalizing db with
  | nil => exact .refl db
  | cons group groups ih => exact (onlyFrontier_restoreFrontierRow _ db).trans (ih _)

theorem mem_restoreFrontierRows {space : String} {coverageEpoch : Int} {groups : List String} :
    home ∈ (db.restoreFrontierRows space coverageEpoch groups).frontier ↔
      (∃ group ∈ groups, home = ⟨space, group, coverageEpoch⟩) ∨ home ∈ db.frontier := by
  unfold restoreFrontierRows
  induction groups generalizing db with
  | nil => simp
  | cons group groups ih =>
    rw [List.foldl_cons, ih, mem_restoreFrontierRow]
    simp only [List.mem_cons, exists_eq_or_imp]
    exact or_left_comm.trans or_assoc.symm

section

variable {chosen : CardKey → Bool} {closed : ℕ} (h : db.closeBindings chosen = some (db', closed))
include h

theorem lookup_closeBindings (key : CardKey) :
    db'.cards.lookup key = (db.cards.lookup key).map fun binding =>
      if chosen key ∧ binding.closedAt = none then
        { binding with closedAt := some db.tick.now }
      else binding := by
  unfold closeBindings at h
  dsimp only at h
  split_ifs at h
  cases h
  rw [KeyTable.lookup_update]
  congr 1
  ext binding : 1
  simp

theorem closeBindings_eq_some :
    closed = (KeyTable.select (fun key binding => chosen key && binding.closedAt == none)
      db.cards).length ∧ db' = { db.tick with cards := db'.cards } := by
  unfold closeBindings at h
  dsimp only at h
  split_ifs at h
  cases h
  exact ⟨rfl, rfl⟩

end

theorem closeBindings_isSome (chosen : CardKey → Bool)
    (hpast : ∀ key binding, db.cards.lookup key = some binding → binding.closedAt = none →
      binding.createdAt ≤ db.now) : (db.closeBindings chosen).isSome := by
  unfold closeBindings
  rw [if_pos, Option.isSome_some]
  rw [List.all_eq_true]
  rintro ⟨key, binding⟩ hmem
  obtain ⟨hbind, hchos⟩ := KeyTable.mem_select.mp hmem
  rw [Bool.and_eq_true, beq_iff_eq] at hchos
  exact decide_eq_true ((hpast key binding hbind hchos.2).trans db.now_le_tick)

theorem mem_openBindings {key : CardKey} {binding : CardBinding} :
    ⟨key, binding⟩ ∈ db.openBindings home ↔
      db.cards.lookup key = some binding ∧ key.home = home ∧ binding.closedAt = none := by
  unfold openBindings
  rw [KeyTable.mem_select, Bool.and_eq_true, beq_iff_eq, beq_iff_eq]

theorem expireCardBinding_eq_ok {expired : Bool}
    (h : db.expireCardBindingToFrontier home = .ok (db', expired)) :
    (db' = db ∧ db.openBindings home = []) ∨
      ∃ key binding closing, db.cards.lookup key = some binding ∧ key.home = home ∧
        binding.closedAt = none ∧
        db.closeBindings (fun other => other == key) = some (closing, 1) ∧
        db' = closing.tick.putFrontierRow home binding.firstSeenAt := by
  unfold expireCardBindingToFrontier at h
  cases hbindings : db.openBindings home with
  | nil =>
    rw [hbindings] at h
    cases h
    exact .inl ⟨rfl, rfl⟩
  | cons row rows =>
    rw [hbindings] at h
    have hmem : row ∈ db.openBindings home := by
      rw [hbindings]
      exact List.mem_cons_self
    obtain ⟨hbind, hhome, hopen⟩ := mem_openBindings.mp hmem
    rw [List.head?_cons] at h
    obtain ⟨⟨closing, closed⟩, hclose, h⟩ := bind_ok h
    obtain ⟨u, hone, h⟩ := bind_ok h
    have hcount : closed = 1 := check_eq_ok.mp hone
    subst hcount
    cases h
    refine .inr ⟨row.1, row.2, closing, hbind, hhome, hopen, ?_, rfl⟩
    revert hclose
    cases db.closeBindings fun other => other == row.1 with
    | none =>
      intro hclose
      cases hclose
    | some result =>
      intro hclose
      exact congrArg some (Except.ok.inj hclose)

/-- With no binding made in the future, an expiry succeeds. -/
theorem expireCardBinding_ok (home : GroupKey)
    (hpast : ∀ key binding, db.cards.lookup key = some binding → binding.closedAt = none →
      binding.createdAt ≤ db.now) :
    ∃ db' expired, db.expireCardBindingToFrontier home = .ok (db', expired) := by
  unfold expireCardBindingToFrontier
  cases hbindings : db.openBindings home with
  | nil => exact ⟨db, false, rfl⟩
  | cons row rows =>
    have hmem : row ∈ db.openBindings home := by
      rw [hbindings]
      exact List.mem_cons_self
    obtain ⟨hbind, -, hopen⟩ := mem_openBindings.mp hmem
    obtain ⟨⟨closing, closed⟩, hclose⟩ := Option.isSome_iff_exists.mp
      (closeBindings_isSome (fun other => other == row.1) hpast)
    have hcount : closed = 1 := by
      rw [(closeBindings_eq_some hclose).1, KeyTable.select_key
        (fun binding : CardBinding => binding.closedAt == none) hbind (beq_iff_eq.mpr hopen),
        List.length_singleton]
    subst hcount
    rw [List.head?_cons]
    refine ⟨closing.tick.putFrontierRow home row.2.firstSeenAt, true, ?_⟩
    simp only [hclose, Option.elim_some, bind, Except.bind, check, if_true]
    rfl

end Db

end Wenlan.Genesis
