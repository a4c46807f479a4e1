import Wenlan.Genesis.Recovery

/-!
# The clock of a group

Every home of a group records when the group was first seen.  `Carries` says what a transition may
do to these records: keep them, restore one from the claims of the group, or begin with a group of
which nothing was known.  Between two statements of a transition a home may be pending.
-/

namespace Wenlan.Genesis

open Support (KeyTable)

namespace Db

def Retained (db : Db) (home : GroupKey) (firstSeenAt : Int) : Prop :=
  KeyTable.Has db.cards (fun key row => key.home = home ∧ row.firstSeenAt = firstSeenAt) ∨
  KeyTable.Has db.suppressions
    (fun key row => key.home = home ∧ row.firstSeenAt = firstSeenAt) ∨
  KeyTable.Has db.quarantines (fun key row => key.home = home ∧ row.firstSeenAt = firstSeenAt)

def Recorded (db : Db) (home : GroupKey) (firstSeenAt : Int) : Prop :=
  (∃ row, db.frontier.lookup home = some row ∧ row.firstSeenAt = firstSeenAt) ∨
  db.Retained home firstSeenAt

def ConceptClaim (db : Db) (home : GroupKey) (createdAt : Int) : Prop :=
  KeyTable.Has db.claims fun key claim =>
    (∃ candidate, db.candidates.lookup key.candidateId = some candidate ∧
      candidate.space = home.space) ∧
    claim.independenceGroupId = home.independenceGroupId ∧
    claim.coverageEpoch = home.coverageEpoch ∧ claim.claimRole = .concept ∧
    claim.createdAt = createdAt

/-- The group is known: it has a record or a concept claim. -/
def Tracked (db : Db) (home : GroupKey) : Prop :=
  (∃ firstSeenAt, db.Recorded home firstSeenAt) ∨ ∃ createdAt, db.ConceptClaim home createdAt

def Held (db : Db) (home : GroupKey) : Prop :=
  KeyTable.Has db.cards (fun key row => key.home = home ∧ row.closedAt = none) ∨
  KeyTable.Has db.suppressions (fun key row => key.home = home ∧ row.lapsedAt = none) ∨
  KeyTable.Has db.quarantines (fun key row => key.home = home ∧ row.liftedAt = none)

/-- A candidate of the space holds a concept claim on the group. -/
def Reserved (db : Db) (home : GroupKey) : Prop :=
  KeyTable.Has db.claims fun key claim =>
    (∃ candidate, db.candidates.lookup key.candidateId = some candidate ∧
      candidate.space = home.space) ∧
    claim.independenceGroupId = home.independenceGroupId ∧
    claim.coverageEpoch = home.coverageEpoch ∧ claim.exclusive

def Live (db : Db) (home : GroupKey) : Prop :=
  home ∈ db.coverage ∨ db.Reserved home ∨ home ∈ db.frontier ∨ db.Held home

variable {db db' db'' : Db} {home : GroupKey} {firstSeenAt createdAt : Int} {pending pending' : Prop}

theorem has_live_iff {κ ρ : Type} [DecidableEq κ] (table : KeyTable κ ρ) (home : GroupKey)
    {index : κ → ρ → Option GroupKey} {property : κ → ρ → Prop}
    (hindex : ∀ key row, index key row = some home ↔ property key row) :
    (table.entries.any fun row => index row.1 row.2 == some home) ↔
      KeyTable.Has table property := by
  rw [List.any_eq_true]
  constructor
  · rintro ⟨⟨key, row⟩, hmem, hlive⟩
    exact ⟨key, row, KeyTable.mem_entries_iff.mp hmem, (hindex key row).mp (beq_iff_eq.mp hlive)⟩
  · rintro ⟨key, row, hrow, hprop⟩
    exact ⟨⟨key, row⟩, KeyTable.mem_entries_iff.mpr hrow,
      beq_iff_eq.mpr ((hindex key row).mpr hprop)⟩

theorem reserved_iff : db.reserved home ↔ db.Reserved home := by
  unfold reserved Reserved
  rw [List.any_eq_true]
  constructor
  · rintro ⟨⟨key, claim⟩, hmem, hchos⟩
    simp only [Bool.and_eq_true, Option.any_eq_true, beq_iff_eq, decide_eq_true_eq] at hchos
    obtain ⟨⟨⟨hspace, hgroup⟩, hepoch⟩, hexcl⟩ := hchos
    exact ⟨key, claim, KeyTable.mem_entries_iff.mp hmem, hspace, hgroup, hepoch, hexcl⟩
  · rintro ⟨key, claim, hclaim, hspace, hgroup, hepoch, hexcl⟩
    refine ⟨⟨key, claim⟩, KeyTable.mem_entries_iff.mpr hclaim, ?_⟩
    simp only [Bool.and_eq_true, Option.any_eq_true, beq_iff_eq, decide_eq_true_eq]
    exact ⟨⟨⟨hspace, hgroup⟩, hepoch⟩, hexcl⟩

theorem reasonCount_eq_zero : db.reasonCount home = 0 ↔ ¬ db.Live home := by
  have hcard := has_live_iff db.cards home
    (fun key row => by unfold liveCard; split_ifs <;> simp_all :
      ∀ key row, liveCard key row = some home ↔ key.home = home ∧ row.closedAt = none)
  have hsuppr := has_live_iff db.suppressions home
    (fun key row => by unfold liveSuppression; split_ifs <;> simp_all :
      ∀ key row, liveSuppression key row = some home ↔ key.home = home ∧ row.lapsedAt = none)
  have hquar := has_live_iff db.quarantines home
    (fun key row => by unfold liveQuarantine; split_ifs <;> simp_all :
      ∀ key row, liveQuarantine key row = some home ↔ key.home = home ∧ row.liftedAt = none)
  unfold reasonCount reasons Live Held
  rw [List.count_eq_zero, ← reserved_iff, ← hcard, ← hsuppr, ← hquar]
  simp [carded, suppressed, quarantined]

/-! ## What a transition may do -/

/-- A record that a release has put back: no later than any concept claim on the group. -/
def Restored (db : Db) (home : GroupKey) (firstSeenAt : Int) : Prop :=
  (∃ createdAt, db.ConceptClaim home createdAt) ∧ firstSeenAt ≤ db.now ∧
    ∀ createdAt, db.ConceptClaim home createdAt → firstSeenAt ≤ createdAt

def Begun (db db' : Db) (home : GroupKey) (firstSeenAt : Int) : Prop :=
  ¬ db.Tracked home ∧ (∀ createdAt, ¬ db'.ConceptClaim home createdAt) ∧ firstSeenAt ≤ db'.now ∧
    ∀ other, db'.Recorded home other → other = firstSeenAt

structure Carries (pending : Prop) (db db' : Db) (home : GroupKey) : Prop where
  now_le : db.now ≤ db'.now
  claims_kept : ∀ createdAt, db.ConceptClaim home createdAt → db'.ConceptClaim home createdAt
  claims_new : ∀ createdAt, db'.ConceptClaim home createdAt →
    db.ConceptClaim home createdAt ∨ (db.now ≤ createdAt ∧ createdAt ≤ db'.now)
  recorded : ∀ firstSeenAt, db'.Recorded home firstSeenAt →
    db.Recorded home firstSeenAt ∨ db'.Restored home firstSeenAt ∨ Begun db db' home firstSeenAt
  recorded_kept : ∀ firstSeenAt, db.Recorded home firstSeenAt → db'.Tracked home
  live_kept : db.Live home → db'.Live home ∨ pending
  live_new : db'.Tracked home → db.Tracked home ∨ db'.Live home ∨ pending

namespace Carries

theorem tracked_kept (h : Carries pending db db' home) (htrack : db.Tracked home) :
    db'.Tracked home := by
  rcases htrack with ⟨firstSeenAt, hrec⟩ | ⟨createdAt, hclaim⟩
  · exact h.recorded_kept firstSeenAt hrec
  · exact .inr ⟨createdAt, h.claims_kept createdAt hclaim⟩

theorem trans (h : Carries pending db db' home) (h' : Carries pending' db' db'' home) :
    Carries (pending ∨ pending') db db'' home where
  now_le := h.now_le.trans h'.now_le
  claims_kept createdAt hclaim := h'.claims_kept createdAt (h.claims_kept createdAt hclaim)
  claims_new createdAt hclaim := by
    have hle := h.now_le
    have hle' := h'.now_le
    rcases h'.claims_new createdAt hclaim with hclaim | hnew
    · rcases h.claims_new createdAt hclaim with hclaim | hnew
      · exact .inl hclaim
      · exact .inr ⟨hnew.1, by omega⟩
    · exact .inr ⟨by omega, hnew.2⟩
  recorded firstSeenAt hrec := by
    have hle := h'.now_le
    -- A time that was in the middle bounds the claims that are made after it.
    have hbound : ∀ seen, seen ≤ db'.now →
        (∀ createdAt, db'.ConceptClaim home createdAt → seen ≤ createdAt) →
        ∀ createdAt, db''.ConceptClaim home createdAt → seen ≤ createdAt := by
      intro seen hseen hclaims createdAt hclaim
      rcases h'.claims_new createdAt hclaim with hclaim | hnew
      · exact hclaims createdAt hclaim
      · omega
    rcases h'.recorded firstSeenAt hrec with hmid | hrestored | hbegun
    · rcases h.recorded firstSeenAt hmid with hold | ⟨⟨createdAt, hclaim⟩, hnow, hclaims⟩ |
        ⟨hnew, hnone, hnow, huniq⟩
      · exact .inl hold
      · exact .inr (.inl ⟨⟨createdAt, h'.claims_kept createdAt hclaim⟩, by omega,
          hbound firstSeenAt hnow hclaims⟩)
      · by_cases hclai : ∃ createdAt, db''.ConceptClaim home createdAt
        · exact .inr (.inl ⟨hclai, by omega, hbound firstSeenAt hnow
            fun createdAt hclaim => absurd hclaim (hnone createdAt)⟩)
        · refine .inr (.inr ⟨hnew, not_exists.mp hclai, by omega, fun other hother => ?_⟩)
          rcases h'.recorded other hother with hmid' | hrestored | hbegun
          · exact huniq other hmid'
          · exact absurd hrestored.1 hclai
          · exact absurd (.inl ⟨firstSeenAt, hmid⟩) hbegun.1
    · exact .inr (.inl hrestored)
    · exact .inr (.inr ⟨fun htrack => hbegun.1 (h.tracked_kept htrack), hbegun.2⟩)
  recorded_kept firstSeenAt hrec := h'.tracked_kept (h.recorded_kept firstSeenAt hrec)
  live_kept hlive := by
    rcases h.live_kept hlive with hlive | hpending
    · rcases h'.live_kept hlive with hlive | hpending
      · exact .inl hlive
      · exact .inr (.inr hpending)
    · exact .inr (.inl hpending)
  live_new htrack := by
    rcases h'.live_new htrack with htrack | hlive | hpending
    · rcases h.live_new htrack with htrack | hlive | hpending
      · exact .inl htrack
      · rcases h'.live_kept hlive with hlive | hpending
        · exact .inr (.inl hlive)
        · exact .inr (.inr (.inr hpending))
      · exact .inr (.inr (.inl hpending))
    · exact .inr (.inl hlive)
    · exact .inr (.inr (.inr hpending))

theorem settle (h : Carries pending db db' home) (hlive : pending → db'.Live home) :
    Carries False db db' home where
  now_le := h.now_le
  claims_kept := h.claims_kept
  claims_new := h.claims_new
  recorded := h.recorded
  recorded_kept := h.recorded_kept
  live_kept hbefore := .inl ((h.live_kept hbefore).elim id hlive)
  live_new htrack := by
    rcases h.live_new htrack with htrack | hafter | hpending
    · exact .inl htrack
    · exact .inr (.inl hafter)
    · exact .inr (.inl (hlive hpending))

theorem then_ (h : Carries False db db' home) (h' : Carries False db' db'' home) :
    Carries False db db'' home :=
  (h.trans h').settle fun hfalse => (or_self_iff.mp hfalse).elim

end Carries

structure Clocked (db : Db) (home : GroupKey) : Prop where
  recorded_past : ∀ firstSeenAt, db.Recorded home firstSeenAt → firstSeenAt ≤ db.now
  claimed_past : ∀ createdAt, db.ConceptClaim home createdAt → createdAt ≤ db.now
  recorded_le : ∀ firstSeenAt createdAt, db.Recorded home firstSeenAt →
    db.ConceptClaim home createdAt → firstSeenAt ≤ createdAt
  live : db.Tracked home → db.Live home
  unique : (∀ createdAt, ¬ db.ConceptClaim home createdAt) → ∀ firstSeenAt other,
    db.Recorded home firstSeenAt → db.Recorded home other → firstSeenAt = other

theorem Clocked.carries (hclock : db.Clocked home) (h : Carries False db db' home) :
    db'.Clocked home where
  recorded_past firstSeenAt hrec := by
    rcases h.recorded firstSeenAt hrec with hold | hrestored | hbegun
    · exact (hclock.recorded_past firstSeenAt hold).trans h.now_le
    · exact hrestored.2.1
    · exact hbegun.2.2.1
  claimed_past createdAt hclaim := by
    rcases h.claims_new createdAt hclaim with hold | hnew
    · exact (hclock.claimed_past createdAt hold).trans h.now_le
    · exact hnew.2
  recorded_le firstSeenAt createdAt hrec hclaim := by
    rcases h.recorded firstSeenAt hrec with hold | hrestored | hbegun
    · rcases h.claims_new createdAt hclaim with holdCl | hnew
      · exact hclock.recorded_le firstSeenAt createdAt hold holdCl
      · exact (hclock.recorded_past firstSeenAt hold).trans hnew.1
    · exact hrestored.2.2 createdAt hclaim
    · exact absurd hclaim (hbegun.2.1 createdAt)
  live htrack := by
    rcases h.live_new htrack with hold | hlive | hfalse
    · exact (h.live_kept (hclock.live hold)).elim id False.elim
    · exact hlive
    · exact hfalse.elim
  unique hnone firstSeenAt other hrec hother := by
    have hnon : ∀ createdAt, ¬ db.ConceptClaim home createdAt := fun createdAt hclaim =>
      hnone createdAt (h.claims_kept createdAt hclaim)
    rcases h.recorded firstSeenAt hrec with hold | hrestored | hbegun
    · rcases h.recorded other hother with hold' | hrestored | hbegun
      · exact hclock.unique hnon firstSeenAt other hold hold'
      · exact absurd hrestored.1 (not_exists.mpr hnone)
      · exact absurd (.inl ⟨firstSeenAt, hold⟩) hbegun.1
    · exact absurd hrestored.1 (not_exists.mpr hnone)
    · exact (hbegun.2.2.2 other hother).symm

/-- What the records say across a stretch of a run that carries them. -/
theorem Clocked.first_seen (hclock : db.Clocked home) (h : Carries False db db' home)
    (hrec : db'.Recorded home firstSeenAt) :
    (∀ createdAt, db.ConceptClaim home createdAt → firstSeenAt ≤ createdAt) ∧
      ∀ earlier, db.Recorded home earlier →
        firstSeenAt ≤ earlier ∨ ∃ createdAt, db'.ConceptClaim home createdAt := by
  refine ⟨fun createdAt hclaim => ?_, fun earlier hearl => ?_⟩
  · exact (hclock.carries h).recorded_le firstSeenAt createdAt hrec
      (h.claims_kept createdAt hclaim)
  · by_cases hclai : ∃ createdAt, db'.ConceptClaim home createdAt
    · exact .inr hclai
    · left
      have hnone : ∀ createdAt, ¬ db.ConceptClaim home createdAt := fun createdAt hclaim =>
        hclai ⟨createdAt, h.claims_kept createdAt hclaim⟩
      rcases h.recorded firstSeenAt hrec with hold | hrestored | hbegun
      · exact (hclock.unique hnone firstSeenAt earlier hold hearl).le
      · exact absurd hrestored.1 hclai
      · exact absurd (.inl ⟨earlier, hearl⟩) hbegun.1

end Db

end Wenlan.Genesis
