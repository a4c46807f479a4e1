import Wenlan.Genesis.Clocks

/-!
# The clock under the frontier policy

The transitions between the frontier, cards, suppressions and quarantines carry the record of a
group with it.
-/

namespace Wenlan.Genesis

open Support (KeyTable)
open Support.Fallible (bind_ok check_eq_ok mapError_eq_ok)

namespace Db

variable {db db' : Db} {home other : GroupKey} {firstSeenAt : Int} {pending : Prop}

/-! ## Transitions that leave the claims alone -/

/-- Claims, candidates and coverage are as before, and the clock did not go back. -/
structure SameClaims (db db' : Db) : Prop where
  now_le : db.now ≤ db'.now
  claims : db'.claims = db.claims
  candidates : db'.candidates = db.candidates
  coverage : db'.coverage = db.coverage

theorem SameClaims.conceptClaim (h : SameClaims db db') (home : GroupKey) (createdAt : Int) :
    db'.ConceptClaim home createdAt ↔ db.ConceptClaim home createdAt := by
  unfold ConceptClaim
  rw [h.claims, h.candidates]

theorem SameClaims.reserved (h : SameClaims db db') (home : GroupKey) :
    db'.Reserved home ↔ db.Reserved home := by
  unfold Reserved
  rw [h.claims, h.candidates]

theorem SameClaims.carries (h : SameClaims db db')
    (hrec : ∀ firstSeenAt, db'.Recorded home firstSeenAt → db.Recorded home firstSeenAt)
    (hkept : ∀ firstSeenAt, db.Recorded home firstSeenAt → ∃ seen, db'.Recorded home seen)
    (hlive : home ∈ db.frontier ∨ db.Held home → home ∈ db'.frontier ∨ db'.Held home ∨ pending) :
    Carries pending db db' home where
  now_le := h.now_le
  claims_kept createdAt hclaim := (h.conceptClaim home createdAt).mpr hclaim
  claims_new createdAt hclaim := .inl ((h.conceptClaim home createdAt).mp hclaim)
  recorded firstSeenAt hafter := .inl (hrec firstSeenAt hafter)
  recorded_kept firstSeenAt hbefore := .inl (hkept firstSeenAt hbefore)
  live_kept hbefore := by
    rcases hbefore with hcov | hreserved | hplaced
    · exact .inl (.inl (h.coverage ▸ hcov))
    · exact .inl (.inr (.inl ((h.reserved home).mpr hreserved)))
    · rcases hlive hplaced with hfront | hheld | hpending
      · exact .inl (.inr (.inr (.inl hfront)))
      · exact .inl (.inr (.inr (.inr hheld)))
      · exact .inr hpending
  live_new htrack := by
    rcases htrack with ⟨firstSeenAt, hafter⟩ | ⟨createdAt, hclaim⟩
    · exact .inl (.inl ⟨firstSeenAt, hrec firstSeenAt hafter⟩)
    · exact .inl (.inr ⟨createdAt, (h.conceptClaim home createdAt).mp hclaim⟩)

theorem SameClaims.carries_same (h : SameClaims db db') (hfront : db'.frontier = db.frontier)
    (hcards : db'.cards = db.cards) (hsuppr : db'.suppressions = db.suppressions)
    (hquar : db'.quarantines = db.quarantines) : Carries False db db' home := by
  have hrec : ∀ seen, db'.Recorded home seen ↔ db.Recorded home seen := by
    intro seen
    unfold Recorded Retained
    rw [hfront, hcards, hsuppr, hquar]
  have hheld : db'.Held home ↔ db.Held home := by
    unfold Held
    rw [hcards, hsuppr, hquar]
  refine h.carries (fun seen => (hrec seen).mp)
    (fun seen hbefore => ⟨seen, (hrec seen).mpr hbefore⟩) ?_
  rw [hfront, hheld, or_false]
  exact id

theorem carries_tick (db : Db) (home : GroupKey) : Carries False db db.tick home :=
  SameClaims.carries_same ⟨db.now_le_tick, rfl, rfl, rfl⟩ rfl rfl rfl rfl

theorem carries_refl (db : Db) (home : GroupKey) : Carries False db db home :=
  SameClaims.carries_same ⟨Int.le_refl _, rfl, rfl, rfl⟩ rfl rfl rfl rfl

theorem carries_retire {row : FrontierRow} (h : SameClaims db db')
    (hrow : db.frontier.lookup home = some row) (hfront : db'.frontier = db.frontier.erase home)
    (hretained : ∀ other seen, db'.Retained other seen ↔
      (home = other ∧ row.firstSeenAt = seen) ∨ db.Retained other seen)
    (hheld : ∀ other, db'.Held other ↔ home = other ∨ db.Held other) (other : GroupKey) :
    Carries False db db' other := by
  refine h.carries ?_ ?_ ?_
  · intro seen hafter
    unfold Recorded at hafter ⊢
    rw [hretained] at hafter
    rcases hafter with ⟨row', hrow', hseen⟩ | ⟨rfl, hseen⟩ | hbefore
    · refine .inl ⟨row', ?_, hseen⟩
      rw [hfront] at hrow'
      by_cases hsame : other = home
      · subst hsame
        rw [AList.lookup_erase] at hrow'
        cases hrow'
      · rw [AList.lookup_erase_ne hsame] at hrow'
        exact hrow'
    · exact .inl ⟨row, hrow, hseen⟩
    · exact .inr hbefore
  · intro seen hbefore
    rcases hbefore with ⟨row', hrow', hseen⟩ | hbefore
    · by_cases hsame : other = home
      · subst hsame
        exact ⟨row.firstSeenAt, .inr ((hretained _ _).mpr (.inl ⟨rfl, rfl⟩))⟩
      · refine ⟨seen, .inl ⟨row', ?_, hseen⟩⟩
        rw [hfront, AList.lookup_erase_ne hsame]
        exact hrow'
    · exact ⟨seen, .inr ((hretained _ _).mpr (.inr hbefore))⟩
  · intro hbefore
    rcases hbefore with hmem | hbefore
    · by_cases hsame : other = home
      · exact .inr (.inl ((hheld other).mpr (.inl hsame.symm)))
      · left
        rw [hfront, AList.mem_erase]
        exact ⟨hsame, hmem⟩
    · exact .inr (.inl ((hheld other).mpr (.inr hbefore)))

theorem carries_return {row : FrontierRow} (h : SameClaims db db')
    (hold : db.Recorded home row.firstSeenAt) (hfront : ∀ other, db'.frontier.lookup other =
      if other = home then some ((db.frontier.lookup home).getD row)
      else db.frontier.lookup other)
    (hretained : ∀ other seen, db'.Retained other seen ↔ db.Retained other seen)
    (hheld : ∀ other, db.Held other → db'.Held other ∨ other = home) (other : GroupKey) :
    Carries False db db' other := by
  have hmem : ∀ other, other ∈ db'.frontier ↔ other = home ∨ other ∈ db.frontier := by
    intro other
    rw [KeyTable.mem_iff, KeyTable.mem_iff, hfront]
    split_ifs with hsame
    · exact iff_of_true ⟨_, rfl⟩ (.inl hsame)
    · exact (or_iff_right hsame).symm
  refine h.carries ?_ ?_ ?_
  · intro seen hafter
    unfold Recorded at hafter
    rw [hretained, hfront] at hafter
    rcases hafter with ⟨row', hrow', hseen⟩ | hbefore
    · split_ifs at hrow' with hsame
      · subst hsame
        cases hlook : db.frontier.lookup other with
        | none =>
          rw [hlook] at hrow'
          cases hrow'
          exact hseen ▸ hold
        | some found =>
          rw [hlook] at hrow'
          cases hrow'
          exact .inl ⟨_, hlook, hseen⟩
      · exact .inl ⟨row', hrow', hseen⟩
    · exact .inr hbefore
  · intro seen hbefore
    rcases hbefore with ⟨row', hrow', hseen⟩ | hbefore
    · by_cases hsame : other = home
      · subst hsame
        refine ⟨seen, .inl ⟨row', ?_, hseen⟩⟩
        rw [hfront, if_pos rfl, hrow', Option.getD_some]
      · refine ⟨seen, .inl ⟨row', ?_, hseen⟩⟩
        rw [hfront, if_neg hsame]
        exact hrow'
    · exact ⟨seen, .inr ((hretained _ _).mpr hbefore)⟩
  · intro hbefore
    rw [hmem]
    rcases hbefore with hfront | hbefore
    · exact .inl (.inr hfront)
    · rcases hheld other hbefore with hafter | hsame
      · exact .inr (.inl hafter)
      · exact .inl (.inl hsame)

def Adds (db db' : Db) (home : GroupKey) (firstSeenAt : Int) : Prop :=
  (∀ other seen, db'.Retained other seen ↔
    (home = other ∧ firstSeenAt = seen) ∨ db.Retained other seen) ∧
  ∀ other, db'.Held other ↔ home = other ∨ db.Held other

theorem adds_card (db db' : Db) (key : CardKey) (row : CardBinding) (hnew : key ∉ db.cards)
    (hopen : row.closedAt = none) (hcards : db'.cards = db.cards.insert key row)
    (hsuppr : db'.suppressions = db.suppressions)
    (hquar : db'.quarantines = db.quarantines) : Adds db db' key.home row.firstSeenAt := by
  unfold Adds Retained Held
  simp [hcards, hsuppr, hquar, KeyTable.has_insert hnew, hopen, or_assoc]

theorem adds_suppression (db db' : Db) (key : SuppressionKey) (row : Suppression)
    (hnew : key ∉ db.suppressions) (hlive : row.lapsedAt = none)
    (hsuppr : db'.suppressions = db.suppressions.insert key row)
    (hcards : db'.cards = db.cards) (hquar : db'.quarantines = db.quarantines) :
    Adds db db' key.home row.firstSeenAt := by
  unfold Adds Retained Held
  simp only [hcards, hsuppr, hquar, KeyTable.has_insert hnew, hlive, and_true]
  refine ⟨fun other seen => ?_, fun other => ?_⟩
  all_goals
    rw [or_assoc]
    exact or_left_comm

theorem adds_quarantine (db db' : Db) (key : QuarantineKey) (row : Quarantine)
    (hnew : key ∉ db.quarantines) (hlive : row.liftedAt = none)
    (hquar : db'.quarantines = db.quarantines.insert key row)
    (hcards : db'.cards = db.cards) (hsuppr : db'.suppressions = db.suppressions) :
    Adds db db' key.home row.firstSeenAt := by
  unfold Adds Retained Held
  simp only [hcards, hsuppr, hquar, KeyTable.has_insert hnew, hlive, and_true]
  exact ⟨fun other seen => (or_congr_right or_left_comm).trans or_left_comm,
    fun other => (or_congr_right or_left_comm).trans or_left_comm⟩

variable {seen : Int}

theorem frontierFirstSeenAt_eq_ok : db.frontierFirstSeenAt home = .ok seen ↔
      ∃ row, db.frontier.lookup home = some row ∧ row.firstSeenAt = seen := by
  unfold frontierFirstSeenAt
  cases db.frontier.lookup home with
  | none => exact iff_of_false (fun h => by cases h) (by simp)
  | some row => simp

section

variable {space cardId : String} {coverageEpoch : Int} {group : CardGroup}
  (h : bindGroup space coverageEpoch cardId db group = .ok db')
include h

theorem bindGroup_ok :
    ∃ row, db.frontier.lookup ⟨space, group.independenceGroupId, coverageEpoch⟩ = some row ∧
      (⟨⟨space, group.independenceGroupId, coverageEpoch⟩, cardId⟩ : CardKey) ∉ db.cards ∧
      db' = db.boundOne cardId ⟨space, group.independenceGroupId, coverageEpoch⟩ group.pageId
        row := by
  obtain ⟨seen, hseen, h⟩ := bind_ok h
  obtain ⟨row, hrow, rfl⟩ := frontierFirstSeenAt_eq_ok.mp hseen
  obtain ⟨u, -, h⟩ := bind_ok h
  obtain ⟨⟨-, -, hnew, -⟩, rfl⟩ := insertBinding_eq_ok.mp h
  exact ⟨row, hrow, hnew, rfl⟩

theorem carries_bindGroup (other : GroupKey) : Carries False db db' other := by
  obtain ⟨row, hrow, hnew, rfl⟩ := bindGroup_ok h
  have hadds := adds_card db (db.boundOne cardId
    ⟨space, group.independenceGroupId, coverageEpoch⟩ group.pageId row)
    ⟨⟨space, group.independenceGroupId, coverageEpoch⟩, cardId⟩
    ⟨group.pageId, row.firstSeenAt, db.tick.now, none⟩ hnew rfl rfl rfl rfl
  refine carries_retire ?_ hrow ?_ hadds.1 hadds.2 other
  · exact ⟨db.now_le_tick, rfl, rfl, rfl⟩
  · rfl

end

theorem carries_bind {space cardId : String} {coverageEpoch : Int} {groups : List CardGroup}
    (h : db.bindFrontierGroupsToCard space coverageEpoch cardId groups = .ok db')
    (other : GroupKey) : Carries False db db' other := by
  unfold bindFrontierGroupsToCard at h
  induction groups generalizing db with
  | nil =>
    cases h
    exact carries_refl _ other
  | cons group groups ih =>
    rw [List.foldlM_cons] at h
    obtain ⟨mid, hone, hrest⟩ := bind_ok h
    exact (carries_bindGroup hone other).then_ (ih hrest)

variable {reason : String}

theorem insertSuppression_ok {pageId : String}
    (h : db.insertSuppression home pageId reason seen = .ok db') :
    (⟨home, db.tick.now⟩ : SuppressionKey) ∉ db.suppressions ∧ db' = { db.tick with
        suppressions := db.suppressions.insert ⟨home, db.tick.now⟩
          ⟨pageId, reason, seen, db.tick.now + suppressionSeconds, none⟩ } := by
  obtain ⟨u, hcheck, h⟩ := bind_ok h
  cases h
  exact ⟨(check_eq_ok.mp hcheck).2.2.1, rfl⟩

theorem carries_suppress {pageId : String}
    (h : db.suppressFrontierGroup home pageId reason = .ok db') (other : GroupKey) :
    Carries False db db' other := by
  obtain ⟨seen, hseen, h⟩ := bind_ok h
  obtain ⟨row, hrow, rfl⟩ := frontierFirstSeenAt_eq_ok.mp hseen
  obtain ⟨u, -, h⟩ := bind_ok h
  obtain ⟨hnew, hdb⟩ := insertSuppression_ok h
  have hadds := adds_suppression db db' ⟨home, db.tick.now⟩
    ⟨pageId, reason, row.firstSeenAt, db.tick.now + suppressionSeconds, none⟩ hnew rfl
    (by rw [hdb]; rfl) (by rw [hdb]; rfl) (by rw [hdb]; rfl)
  subst hdb
  refine carries_retire ?_ hrow rfl hadds.1 hadds.2 other
  exact ⟨db.now_le_tick, rfl, rfl, rfl⟩

theorem carries_quarantine
    (h : db.quarantineFrontierGroup home reason = .ok db') (other : GroupKey) :
    Carries False db db' other := by
  obtain ⟨seen, hseen, h⟩ := bind_ok h
  obtain ⟨row, hrow, rfl⟩ := frontierFirstSeenAt_eq_ok.mp hseen
  obtain ⟨u, -, h⟩ := bind_ok h
  obtain ⟨u', hcheck, h⟩ := bind_ok h
  have hdb := (Except.ok.inj h).symm
  have hadds := adds_quarantine db db' _ ⟨reason, row.firstSeenAt, none⟩
    (check_eq_ok.mp hcheck).2.1 rfl (by rw [hdb]; rfl) (by rw [hdb]; rfl) (by rw [hdb]; rfl)
  subst hdb
  refine carries_retire ?_ hrow rfl hadds.1 hadds.2 other
  exact ⟨db.now_le_tick, rfl, rfl, rfl⟩

/-! ## Back to the frontier -/

theorem insertFrontier_ok (h : db.insertFrontier home seen = .ok db') : home ∉ db.frontier ∧
      db' = { db.tick with frontier := db.frontier.insert home ⟨seen, db.tick.now⟩ } := by
  obtain ⟨u, hcheck, h⟩ := bind_ok h
  cases h
  exact ⟨check_eq_ok.mp hcheck, rfl⟩

theorem lookup_insert_absent {row : FrontierRow} (hnew : home ∉ db.frontier) (other : GroupKey) :
    (db.frontier.insert home row).lookup other =
      if other = home then some ((db.frontier.lookup home).getD row)
      else db.frontier.lookup other := by
  split_ifs with hsame
  · subst hsame
    rw [AList.lookup_insert, AList.lookup_eq_none.mpr hnew, Option.getD_none]
  · exact AList.lookup_insert_ne hsame

/-- Rows that a statement marks keep their first time, and only the groups of these rows may be
let go. -/
structure LetsGo (db db' : Db) (home : GroupKey) : Prop where
  same : SameClaims db db'
  frontier : db'.frontier = db.frontier
  retained : ∀ other seen, db'.Retained other seen ↔ db.Retained other seen
  held : ∀ other, db.Held other → db'.Held other ∨ other = home

theorem LetsGo.carries {mid : Db} (h : LetsGo db mid home) (row : FrontierRow)
    (hsame : SameClaims mid db') (hold : db.Recorded home row.firstSeenAt)
    (hfront : ∀ other, db'.frontier.lookup other =
      if other = home then some ((mid.frontier.lookup home).getD row)
      else mid.frontier.lookup other)
    (hcards : db'.cards = mid.cards) (hsuppr : db'.suppressions = mid.suppressions)
    (hquar : db'.quarantines = mid.quarantines) (other : GroupKey) :
    Carries False db db' other := by
  refine carries_return ?_ hold ?_ ?_ ?_ other
  · exact ⟨h.same.now_le.trans hsame.now_le, hsame.claims.trans h.same.claims,
      hsame.candidates.trans h.same.candidates, hsame.coverage.trans h.same.coverage⟩
  · intro other
    rw [hfront, h.frontier]
  · intro other seen
    rw [← h.retained]
    unfold Retained
    rw [hcards, hsuppr, hquar]
  · intro other hbefore
    rcases h.held other hbefore with hafter | heq
    · left
      unfold Held at hafter ⊢
      rw [hcards, hsuppr, hquar]
      exact hafter
    · exact .inr heq

theorem LetsGo.carries_insert {mid : Db} (h : LetsGo db mid home) (hold : db.Recorded home seen)
    (hins : mid.insertFrontier home seen = .ok db') (other : GroupKey) :
    Carries False db db' other := by
  obtain ⟨hnew, rfl⟩ := insertFrontier_ok hins
  refine h.carries ⟨seen, mid.tick.now⟩ ?_ hold ?_ ?_ ?_ ?_ other
  · exact ⟨mid.now_le_tick, rfl, rfl, rfl⟩
  · exact lookup_insert_absent hnew
  all_goals rfl

theorem carries_lapse {expired : Σ _ : SuppressionKey, Suppression} {row : Suppression}
    (hrow : db.suppressions.lookup expired.1 = some row)
    (hseen : row.firstSeenAt = expired.2.firstSeenAt) (h : lapse db expired = .ok db') :
    (∀ other, Carries False db db' other) ∧ ∀ key row, db.suppressions.lookup key = some row →
        ∃ row', db'.suppressions.lookup key = some row' ∧ row'.firstSeenAt = row.firstSeenAt := by
  obtain ⟨u, -, h⟩ := bind_ok h
  obtain ⟨mid, hmid⟩ : ∃ mid : Db, mid = { db.tick with
      suppressions := KeyTable.update (fun key row =>
        if (key == expired.1 && row.lapsedAt == none && decide (row.expiresAt ≤ db.tick.now))
        then { row with lapsedAt := some db.tick.now } else row) db.suppressions } := ⟨_, rfl⟩
  have hins : mid.insertFrontier expired.1.home expired.2.firstSeenAt = .ok db' := by
    rw [hmid]
    exact h
  have hgo : LetsGo db mid expired.1.home := by
    refine ⟨?_, ?_, ?_, ?_⟩
    · rw [hmid]
      exact ⟨db.now_le_tick, rfl, rfl, rfl⟩
    · rw [hmid]
      rfl
    · intro home seen
      unfold Retained
      rw [hmid]
      rw [KeyTable.has_update]
      refine or_congr_right (or_congr_left (KeyTable.has_congr fun key row => ?_))
      split_ifs <;> exact Iff.rfl
    · intro home hheld
      unfold Held at hheld ⊢
      rw [hmid]
      rw [KeyTable.has_update]
      rcases hheld with hcard | ⟨key, row, hrow, hhome, hlive⟩ | hquarantine
      · exact .inl (.inl hcard)
      · by_cases hsame : key = expired.1
        · exact .inr (by rw [← hhome, hsame])
        · refine .inl (.inr (.inl ⟨key, row, hrow, ?_⟩))
          dsimp only
          rw [if_neg (by simp [hsame])]
          exact ⟨hhome, hlive⟩
      · exact .inl (.inr (.inr hquarantine))
  constructor
  · exact hgo.carries_insert (.inr (.inr (.inl ⟨expired.1, row, hrow, rfl, hseen⟩))) hins
  · intro key row hrow
    rw [(insertFrontier_ok hins).2, hmid]
    refine ⟨_, (KeyTable.lookup_update _ _ _).trans (by rw [hrow, Option.map_some]), ?_⟩
    split_ifs <;> rfl

theorem carries_lapses {expired : List (Σ _ : SuppressionKey, Suppression)}
    (hrows : ∀ entry ∈ expired, ∃ row, db.suppressions.lookup entry.1 = some row ∧
      row.firstSeenAt = entry.2.firstSeenAt)
    (h : expired.foldlM lapse db = .ok db') (other : GroupKey) : Carries False db db' other := by
  induction expired generalizing db with
  | nil =>
    cases h
    exact carries_refl _ other
  | cons entry rest ih =>
    rw [List.foldlM_cons] at h
    obtain ⟨mid, hone, hrest⟩ := bind_ok h
    obtain ⟨row, hrow, hseen⟩ := hrows entry List.mem_cons_self
    obtain ⟨hcar, hrowsM⟩ := carries_lapse hrow hseen hone
    refine (hcar other).then_ (ih ?_ hrest)
    intro next hnext
    obtain ⟨old, hold, holdS⟩ := hrows next (List.mem_cons_of_mem _ hnext)
    obtain ⟨new, hnew, hnewS⟩ := hrowsM next.1 old hold
    exact ⟨new, hnew, hnewS.trans holdS⟩

theorem carries_reconcileExpired {space : String} {coverageEpoch : Int} {lapsed : ℕ}
    (h : db.reconcileExpiredSuppressions space coverageEpoch = .ok (db', lapsed))
    (other : GroupKey) : Carries False db db' other := by
  obtain ⟨after, hfold, h⟩ := bind_ok h
  cases h
  refine (carries_tick db other).then_ (carries_lapses ?_ hfold other)
  rintro ⟨key, row⟩ hmem
  have hrow := (KeyTable.mem_select.mp ((List.mem_insertionSort _).mp hmem)).1
  exact ⟨row, hrow, rfl⟩

theorem carries_lift (h : db.liftQuarantineToFrontier home = .ok db') (other : GroupKey) :
    Carries False db db' other := by
  unfold liftQuarantineToFrontier at h
  cases hlive : KeyTable.select (fun key row => key.home == home && row.liftedAt == none)
      db.quarantines with
  | nil =>
    rw [hlive] at h
    cases h
  | cons live rest =>
    rw [hlive, List.head?_cons] at h
    obtain ⟨u, -, h⟩ := bind_ok h
    have hmem : live ∈ KeyTable.select (fun key row => key.home == home && row.liftedAt == none)
        db.quarantines := by
      rw [hlive]
      exact List.mem_cons_self
    obtain ⟨hrow, hchos⟩ := KeyTable.mem_select.mp hmem
    rw [Bool.and_eq_true, beq_iff_eq] at hchos
    obtain ⟨mid, hmid⟩ : ∃ mid : Db, mid = { db.tick with
        quarantines := KeyTable.update (fun key row =>
          if (key == live.1 && row.liftedAt == none) then
            { row with liftedAt := some (max db.tick.now key.quarantinedAt) }
          else row) db.quarantines } := ⟨_, rfl⟩
    have hins : mid.insertFrontier home live.2.firstSeenAt = .ok db' := by
      rw [hmid]
      exact h
    have hgo : LetsGo db mid home := by
      refine ⟨?_, ?_, ?_, ?_⟩
      · rw [hmid]
        exact ⟨db.now_le_tick, rfl, rfl, rfl⟩
      · rw [hmid]
        rfl
      · intro other seen
        unfold Retained
        rw [hmid]
        rw [KeyTable.has_update]
        refine or_congr_right (or_congr_right (KeyTable.has_congr fun key row => ?_))
        split_ifs <;> exact Iff.rfl
      · intro other hheld
        unfold Held at hheld ⊢
        rw [hmid]
        rw [KeyTable.has_update]
        rcases hheld with hcard | hsuppression | ⟨key, row, hrow, hhome, hopen⟩
        · exact .inl (.inl hcard)
        · exact .inl (.inr (.inl hsuppression))
        · by_cases hsame : key = live.1
          · exact .inr (by rw [← hhome, hsame, hchos.1])
          · refine .inl (.inr (.inr ⟨key, row, hrow, ?_⟩))
            dsimp only
            rw [if_neg (by simp [hsame])]
            exact ⟨hhome, hopen⟩
    exact hgo.carries_insert (.inr (.inr (.inr ⟨live.1, live.2, hrow, hchos.1, rfl⟩))) hins other

theorem letsGo_closeBindings {chosen : CardKey → Bool} {mid : Db} {closed : ℕ}
    (h : db.closeBindings chosen = some (mid, closed)) :
    SameClaims db mid ∧ mid.frontier = db.frontier ∧ mid.suppressions = db.suppressions ∧
      mid.quarantines = db.quarantines ∧
      (∀ other seen, mid.Retained other seen ↔ db.Retained other seen) ∧
      ∀ other, db.Held other → mid.Held other ∨
        KeyTable.Has db.cards fun key row =>
          chosen key ∧ key.home = other ∧ row.closedAt = none := by
  have hmid := (closeBindings_eq_some h).2
  have hlook := lookup_closeBindings h
  have hhas : ∀ property : CardKey → CardBinding → Prop,
      KeyTable.Has mid.cards property ↔ KeyTable.Has db.cards fun key row => property key
        (if chosen key ∧ row.closedAt = none then
          { row with closedAt := some db.tick.now } else row) := by
    intro property
    unfold KeyTable.Has
    simp only [hlook, Option.map_eq_some_iff]
    constructor
    · rintro ⟨key, row, ⟨old, hold, rfl⟩, hprop⟩
      exact ⟨key, old, hold, hprop⟩
    · rintro ⟨key, row, hrow, hprop⟩
      exact ⟨key, _, ⟨row, hrow, rfl⟩, hprop⟩
  have hsuppr : mid.suppressions = db.suppressions := by rw [hmid]; rfl
  have hquar : mid.quarantines = db.quarantines := by rw [hmid]; rfl
  refine ⟨?_, ?_, hsuppr, hquar, ?_, ?_⟩
  · rw [hmid]
    exact ⟨db.now_le_tick, rfl, rfl, rfl⟩
  · rw [hmid]
    rfl
  · intro other seen
    unfold Retained
    rw [hhas, hsuppr, hquar]
    refine or_congr_left (KeyTable.has_congr fun key row => ?_)
    split_ifs <;> exact Iff.rfl
  · intro other hheld
    unfold Held at hheld ⊢
    rw [hhas, hsuppr, hquar]
    rcases hheld with ⟨key, row, hrow, hhome, hopen⟩ | helse
    · by_cases hchos : chosen key
      · exact .inr ⟨key, row, hrow, hchos, hhome, hopen⟩
      · refine .inl (.inl ⟨key, row, hrow, ?_⟩)
        dsimp only
        rw [if_neg (fun hboth => hchos hboth.1)]
        exact ⟨hhome, hopen⟩
    · exact .inl (.inr helse)

theorem carries_expireCard {expired : Bool}
    (h : db.expireCardBindingToFrontier home = .ok (db', expired)) (other : GroupKey) :
    Carries False db db' other := by
  rcases expireCardBinding_eq_ok h with ⟨rfl, -⟩ |
    ⟨key, binding, closing, hbind, hhome, -, hclose, hdb⟩
  · exact carries_refl _ other
  · obtain ⟨hsame, hfront, -, -, hretained, hheld⟩ := letsGo_closeBindings hclose
    have hgo : LetsGo db closing home := by
      refine ⟨hsame, hfront, hretained, fun other hbefore => ?_⟩
      rcases hheld other hbefore with hafter | ⟨key', row', -, hchos, hhome', -⟩
      · exact .inl hafter
      · right
        rw [← hhome', eq_of_beq hchos, hhome]
    rw [hdb]
    refine hgo.carries ⟨binding.firstSeenAt, closing.tick.now⟩ ?_
      (.inr (.inl ⟨key, binding, hbind, hhome, rfl⟩)) ?_ ?_ ?_ ?_ other
    · exact ⟨closing.now_le_tick, rfl, rfl, rfl⟩
    · exact lookup_putFrontierRow home binding.firstSeenAt closing.tick
    all_goals rfl

/-! ## Dismissal -/

/-- A suppression with a first time that is already recorded. -/
theorem carries_insertSuppression {pageId : String}
    (hold : db.Recorded home seen) (h : db.insertSuppression home pageId reason seen = .ok db') :
    (∀ other, Carries False db db' other) ∧ db'.Held home ∧
      (∀ other, db.Held other → db'.Held other) ∧
      ∀ other seen, db.Recorded other seen → db'.Recorded other seen := by
  obtain ⟨hnew, hdb⟩ := insertSuppression_ok h
  obtain ⟨hretained, hheld⟩ := adds_suppression db db' ⟨home, db.tick.now⟩
    ⟨pageId, reason, seen, db.tick.now + suppressionSeconds, none⟩ hnew rfl
    (by rw [hdb]) (by rw [hdb]; rfl) (by rw [hdb]; rfl)
  have hfront : db'.frontier = db.frontier := by
    rw [hdb]
    rfl
  have hkept : ∀ other seen, db.Recorded other seen → db'.Recorded other seen := by
    intro other seen hbefore
    unfold Recorded at hbefore ⊢
    rw [hfront, hretained]
    exact hbefore.imp_right .inr
  have hstays : ∀ other, db.Held other → db'.Held other := fun other hbefore =>
    (hheld other).mpr (.inr hbefore)
  refine ⟨fun other => ?_, (hheld home).mpr (.inl rfl), hstays, hkept⟩
  have hsame : SameClaims db db' := by
    rw [hdb]
    exact ⟨db.now_le_tick, rfl, rfl, rfl⟩
  refine hsame.carries ?_ (fun seen hbefore => ⟨seen, hkept other seen hbefore⟩) ?_
  · intro seen hafter
    unfold Recorded at hafter
    rw [hfront, hretained] at hafter
    rcases hafter with hrow | ⟨rfl, rfl⟩ | hbefore
    · exact .inl hrow
    · exact hold
    · exact .inr hbefore
  · rw [hfront]
    exact fun hplaced => hplaced.imp_right fun hbefore => .inl (hstays other hbefore)

theorem carries_insertSuppressions {rows : List (Σ _ : CardKey, CardBinding)}
    (hrows : ∀ row ∈ rows, db.Recorded row.1.home row.2.firstSeenAt) (h : rows.foldlM (fun db row =>
      db.insertSuppression row.1.home row.2.pageId reason row.2.firstSeenAt) db = .ok db') :
    (∀ other, Carries False db db' other) ∧ (∀ row ∈ rows, db'.Held row.1.home) ∧
      ∀ other, db.Held other → db'.Held other := by
  induction rows generalizing db with
  | nil =>
    cases h
    exact ⟨carries_refl _, by simp, fun _ h => h⟩
  | cons row rest ih =>
    rw [List.foldlM_cons] at h
    obtain ⟨mid, hone, hrest⟩ := bind_ok h
    obtain ⟨hcar, hhome, hstays, hkept⟩ :=
      carries_insertSuppression (hrows row List.mem_cons_self) hone
    obtain ⟨hcar', hhomes', hstays'⟩ := ih (fun next hnext =>
      hkept _ _ (hrows next (List.mem_cons_of_mem _ hnext))) hrest
    refine ⟨fun other => (hcar other).then_ (hcar' other), ?_,
      fun other hbefore => hstays' other (hstays other hbefore)⟩
    rw [List.forall_mem_cons]
    exact ⟨hstays' _ hhome, hhomes'⟩

theorem mem_openCardBindings {cardId : String} {key : CardKey} {binding : CardBinding} :
    ⟨key, binding⟩ ∈ db.openCardBindings cardId ↔
      db.cards.lookup key = some binding ∧ key.cardId = cardId ∧ binding.closedAt = none := by
  unfold openCardBindings
  rw [List.mem_insertionSort, KeyTable.mem_select, Bool.and_eq_true, beq_iff_eq, beq_iff_eq]

theorem carries_dismiss {cardId : String}
    (h : db.dismissCardToSuppression cardId reason = .ok db') (other : GroupKey) :
    Carries False db db' other := by
  unfold dismissCardToSuppression at h
  dsimp only at h
  split_ifs at h with hnone
  · cases h
    exact carries_refl _ other
  · obtain ⟨⟨mid, closed⟩, hclose, h⟩ := bind_ok h
    obtain ⟨u, -, h⟩ := bind_ok h
    have hclos : db.closeBindings (fun key => key.cardId == cardId) = some (mid, closed) := by
      revert hclose
      cases db.closeBindings fun key => key.cardId == cardId with
      | none =>
        intro hclose
        cases hclose
      | some result =>
        intro hclose
        exact congrArg some (Except.ok.inj hclose)
    obtain ⟨hsame, hfront, -, -, hretained, hheld⟩ := letsGo_closeBindings hclos
    have hrec : ∀ home seen, mid.Recorded home seen ↔ db.Recorded home seen := by
      intro home seen
      unfold Recorded
      rw [hfront, hretained]
    obtain ⟨hcar, hhomes, -⟩ := carries_insertSuppressions (fun row hmem => by
      obtain ⟨hbind, -, -⟩ := mem_openCardBindings.mp hmem
      exact (hrec _ _).mpr (.inr (.inl ⟨row.1, row.2, hbind, rfl, rfl⟩))) h
    -- The homes of the closed bindings are pending until their suppressions stand.
    have hmid : Carries (KeyTable.Has db.cards fun key row =>
        (key.cardId == cardId) ∧ key.home = other ∧ row.closedAt = none) db mid other := by
      refine hsame.carries (fun seen => (hrec other seen).mp)
        (fun seen hbefore => ⟨seen, (hrec other seen).mpr hbefore⟩) ?_
      rw [hfront]
      exact fun hplaced => hplaced.imp_right (hheld other)
    refine (hmid.trans (hcar other)).settle ?_
    rintro (⟨key, row, hrow, hcard, hhome, hopen⟩ | hfalse)
    · refine .inr (.inr (.inr ?_))
      rw [← hhome]
      exact hhomes ⟨key, row⟩ (mem_openCardBindings.mpr ⟨hrow, eq_of_beq hcard, hopen⟩)
    · exact hfalse.elim

/-! ## Groups that are seen for the first time -/

theorem carries_insertFrontierRow (hnew : ¬ db.Tracked home) (hnot : home ∉ db.frontier)
    (other : GroupKey) : Carries False db (db.insertFrontierRow home) other := by
  have hsame : SameClaims db (db.insertFrontierRow home) := ⟨db.now_le_tick, rfl, rfl, rfl⟩
  have hfront : ∀ other, (db.insertFrontierRow home).frontier.lookup other =
      if other = home then some ⟨db.tick.now, db.tick.now⟩ else db.frontier.lookup other := by
    intro other
    refine (lookup_putFrontierRow home db.tick.now db.tick other).trans ?_
    rw [tick_frontier, AList.lookup_eq_none.mpr hnot, Option.getD_none]
  by_cases hhome : other = home
  · subst hhome
    have hrec : ∀ seen, (db.insertFrontierRow other).Recorded other seen →
        seen = db.tick.now := by
      rintro seen (⟨row, hrow, hseen⟩ | hretained)
      · rw [hfront, if_pos rfl] at hrow
        cases hrow
        exact hseen.symm
      · exact absurd (.inl ⟨seen, .inr hretained⟩) hnew
    have hnone : ∀ createdAt, ¬ (db.insertFrontierRow other).ConceptClaim other createdAt :=
      fun createdAt hclaim => hnew (.inr ⟨createdAt, (hsame.conceptClaim _ _).mp hclaim⟩)
    have hlive : (db.insertFrontierRow other).Live other := by
      refine .inr (.inr (.inl (KeyTable.mem_iff.mpr ⟨⟨db.tick.now, db.tick.now⟩, ?_⟩)))
      rw [hfront, if_pos rfl]
    exact {
      now_le := hsame.now_le
      claims_kept := fun createdAt hclaim => (hsame.conceptClaim _ _).mpr hclaim
      claims_new := fun createdAt hclaim => absurd hclaim (hnone createdAt)
      recorded := fun seen hafter => by
        have hseen := hrec seen hafter
        refine .inr (.inr ⟨hnew, hnone, ?_, fun earlier hearlier => ?_⟩)
        · rw [hseen]
          exact Int.le_refl _
        · rw [hrec earlier hearlier, hseen]
      recorded_kept := fun seen hbefore => absurd (.inl ⟨seen, hbefore⟩) hnew
      live_kept := fun _ => .inl hlive
      live_new := fun _ => .inr (.inl hlive) }
  · have hrec : ∀ seen, (db.insertFrontierRow home).Recorded other seen ↔
        db.Recorded other seen := by
      intro seen
      unfold Recorded
      rw [hfront, if_neg hhome]
      exact Iff.rfl
    refine hsame.carries (fun seen => (hrec seen).mp)
      (fun seen hbefore => ⟨seen, (hrec seen).mpr hbefore⟩) ?_
    rintro (hmem | hheld)
    · left
      obtain ⟨row, hrow⟩ := KeyTable.mem_iff.mp hmem
      exact KeyTable.mem_iff.mpr ⟨row, by rw [hfront, if_neg hhome, hrow]⟩
    · exact .inr (.inl hheld)

theorem tracked_insertFrontierRow (hne : other ≠ home) :
    (db.insertFrontierRow home).Tracked other ↔ db.Tracked other := by
  have hfront : (db.insertFrontierRow home).frontier.lookup other =
      db.frontier.lookup other := by
    refine (lookup_putFrontierRow home db.tick.now db.tick other).trans ?_
    rw [if_neg hne]
    rfl
  unfold Tracked Recorded
  rw [hfront]
  exact Iff.rfl

theorem carries_repair {space : String} {coverageEpoch : Int} {groups : List String}
    (hnodup : groups.Nodup) (hnew : ∀ group ∈ groups, ¬ db.Tracked ⟨space, group, coverageEpoch⟩)
    (other : GroupKey) : Carries False db (groups.foldl (fun db group =>
      db.insertFrontierRow ⟨space, group, coverageEpoch⟩) db) other := by
  induction groups generalizing db with
  | nil => exact carries_refl _ other
  | cons group groups ih =>
    rw [List.nodup_cons] at hnodup
    have hfirst := hnew group List.mem_cons_self
    have hnot : (⟨space, group, coverageEpoch⟩ : GroupKey) ∉ db.frontier := by
      intro hmem
      obtain ⟨row, hrow⟩ := KeyTable.mem_iff.mp hmem
      exact hfirst (.inl ⟨row.firstSeenAt, .inl ⟨row, hrow, rfl⟩⟩)
    rw [List.foldl_cons]
    refine (carries_insertFrontierRow hfirst hnot other).then_ (ih hnodup.2 ?_)
    intro next hnext htrack
    refine hnew next (List.mem_cons_of_mem _ hnext) ((tracked_insertFrontierRow ?_).mp htrack)
    intro heq
    have hsame : next = group := congrArg GroupKey.independenceGroupId heq
    rw [hsame] at hnext
    exact hnodup.1 hnext

theorem carries_reconcile {space : String} {coverageEpoch : Int} {outcome : ReconcileOutcome}
    (hclock : ∀ home, db.Clocked home)
    (h : db.reconcileSpace space coverageEpoch = .ok (db', outcome)) (other : GroupKey) :
    Carries False db db' other := by
  obtain ⟨⟨lapsed, count⟩, hlaps, h⟩ := bind_ok h
  obtain ⟨u, -, h⟩ := bind_ok h
  cases h
  have hcar : ∀ home, Carries False db lapsed home := by
    exact fun home => carries_reconcileExpired (mapError_eq_ok.mp hlaps) home
  refine (hcar other).then_ (carries_repair ?_ ?_ other)
  · unfold reasonCounts
    rw [List.filter_map, List.map_map]
    refine List.Nodup.map_on ?_ ((nodup_distinctSorted _).filter _)
    intro first _ second _ heq
    exact heq
  · intro group hmem htrack
    obtain ⟨⟨name, count⟩, hcoun, rfl⟩ := List.mem_map.mp hmem
    rw [List.mem_filter, decide_eq_true_eq] at hcoun
    obtain ⟨group, -, heq⟩ := List.mem_map.mp hcoun.1
    obtain ⟨hname, hcount⟩ := Prod.mk.inj heq
    have hzero : lapsed.reasonCount ⟨space, name, coverageEpoch⟩ = 0 := by
      rw [← hname, hcount]
      exact hcoun.2
    exact reasonCount_eq_zero.mp hzero
      (((hclock _).carries (hcar _)).live htrack)

end Db

end Wenlan.Genesis
