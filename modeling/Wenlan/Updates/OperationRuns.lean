import Wenlan.Updates.Receipts

/-!
# Operations over a run

What a delivery is answered when its key has a receipt, and who may change something under a
key, over every run in which deliveries come to look at their receipts.  One run in which a
delivery does not is at the end.
-/

namespace Wenlan.Updates

open Pages PageUpdate

variable {sha256 : List String → String} {u : PageUpdate} {ambient : Ambient} {s : Store}
  {position : Position} {key : String × String} {stored : OperationReceipt}
  {answer : Except WenlanError WriteResult}

/-- The delivery has passed its first check and has not been answered. -/
def Position.isUnderway : Position → Bool
  | .start | .answered _ => false
  | _ => true

theorem validateCanonicalPageContent_eq_ok {content found : String}
    (h : validateCanonicalPageContent content = .ok found) : found = content := by
  unfold validateCanonicalPageContent at h
  split at h
  · cases h
  · exact (Except.ok.inj h).symm

theorem advance_underway (h : (u.advance sha256 ambient s position).1.isUnderway) :
    position.isUnderway ∨
      validateCanonicalPageContent u.req.content = .ok u.req.content := by
  have hnext := advance_follows sha256 u ambient s position
  generalize (u.advance sha256 ambient s position).1 = next at h hnext
  cases hnext with
  | ended => cases h
  | canonical hcanonical =>
    obtain rfl := validateCanonicalPageContent_eq_ok hcanonical
    exact .inr hcanonical
  | _ => exact .inl rfl

theorem PageUpdate.follow_ne_clear (current held : Page) (attempt : Nat) (decision : Decision)
    (result : WriteResult) (replayed : Bool) :
    u.follow current attempt decision ≠ .clear held result replayed := by
  intro h
  cases decision with
  | review =>
    dsimp only [follow] at h
    split at h <;> cases h
  | answer | terminal | acknowledge | write => cases h

/-- A delivery comes to clear staleness after its own card, or after a replay. -/
theorem advance_clear (hkey : u.key = some key) {held : Page} {result : WriteResult}
    {replayed : Bool} (h : (u.advance sha256 ambient s position).1 = .clear held result replayed) :
    (replayed = false ∧ s.receipts.lookup key = none ∧
      (u.advance sha256 ambient s position).2.receipts.lookup key = some
        { requestDigest := u.digest sha256, response := result, createdAt := ambient.now }) ∨
      (replayed ∧ ∃ stored, s.receipts.lookup key = some stored ∧
        stored.response = result ∧ stored.requestDigest = u.digest sha256) := by
  have hnext := advance_follows sha256 u ambient s position
  rw [h] at hnext
  generalize hfollow : Position.clear held result replayed = next at hnext
  cases hnext with
  | card _ _ hins =>
    obtain ⟨-, rfl, rfl⟩ := Position.clear.inj hfollow
    exact .inl ⟨rfl, hins.of_key hkey⟩
  | replayed _ _ hstored hreplayed =>
    obtain ⟨-, rfl, rfl⟩ := Position.clear.inj hfollow
    rw [stored_of_key hkey, Option.map_eq_some_iff] at hstored
    obtain ⟨_, hlookup, hsame⟩ := hstored
    cases hsame
    unfold PageUpdate.replayed at hreplayed
    split at hreplayed
    · cases hreplayed
    · rename_i hdig
      exact .inr ⟨rfl, _, hlookup, Except.ok.inj hreplayed, not_not.mp hdig⟩
  | decided => exact absurd hfollow.symm (follow_ne_clear _ _ _ _ _ _)
  | _ => cases hfollow

/-! ## Answers -/

/-- What is there for a delivery before it answers. -/
structure Ready (sha256 : List String → String) (u : PageUpdate) (s : Store)
    (position : Position) : Prop where
  canonical : position.isUnderway = true →
    validateCanonicalPageContent u.req.content = .ok u.req.content
  /-- Staleness is cleared under the receipt of the card that was staged. -/
  cleared : ∀ key current result replayed, u.key = some key →
    position = .clear current result replayed → ∃ stored,
      s.receipts.lookup key = some stored ∧ stored.response = result ∧
      stored.requestDigest = u.digest sha256
  exists_page : ∀ current, position = .readRevision current →
    (s.pages.lookup u.pageId).isSome = true

theorem givesWay_iff {same : Bool} {result : Except WenlanError (Option Store)} :
    givesWay same result ↔
      result = .ok none ∨ ∃ after, result = .ok (some after) ∧ same = false := by
  constructor
  · intro h
    unfold givesWay at h
    split at h
    · exact .inl rfl
    · rename_i after
      exact .inr ⟨after, rfl, (Bool.not_eq_true' same).mp h⟩
    · cases h
  · rintro (rfl | ⟨after, rfl, rfl⟩) <;> rfl

theorem settles_of_other (hother : stored.requestDigest ≠ u.digest sha256) (message : String) :
    Settles sha256 u stored (.error (.conflict message)) := by
  unfold Settles
  rw [if_neg hother]
  exact ⟨message, rfl⟩

theorem advance_settles (hgrowt : u.pageGrowth = none) (hkey : u.key = some key)
    (hstor : s.receipts.lookup key = some stored) (hready : Ready sha256 u s position)
    (hkeeps : keepsReceipt u (stored.requestDigest == u.digest sha256) ambient s position)
    (hopen : ∀ answer, position ≠ .answered answer)
    (h : (u.advance sha256 ambient s position).1 = .answered answer) :
    Settles sha256 u stored answer := by
  have hthere : u.stored s = some (key, stored) := by
    rw [stored_of_key hkey, hstor]
    rfl
  cases position with
  | start =>
    dsimp only [advance, lookUp] at h
    unfold keepsReceipt at hkeeps
    cases hvalid : u.validate ambient.grounded with
    | error error =>
      rw [hvalid] at hkeeps
      cases hkeeps
    | ok _ =>
    rw [hvalid] at h
    rw [hthere] at h
    obtain rfl := Position.answered.inj h
    exact replayed_settles key
  | load attempt =>
    obtain ⟨current, hcur, hdec⟩ := (Option.any_eq_true _ _).mp hkeeps
    dsimp only [advance, load] at h
    rw [hcur] at h
    dsimp only at h
    cases hdecision : u.decide ambient current with
    | answer found =>
      rw [hdecision] at hdec
      cases hdec
    | review =>
      rw [hdecision] at h
      dsimp only [follow] at h
      split at h <;> cases h
    | terminal _ | acknowledge | write =>
      rw [hdecision] at h
      cases h
  | readRevision current =>
    have hpage := hready.exists_page current rfl
    dsimp only [advance, readRevision] at h
    split at h
    · rename_i hnone
      rw [hnone] at hpage
      cases hpage
    · cases h
  | stage current sourceRevision =>
    exact absurd h (stage_of_stored hkey hstor current sourceRevision answer
      (hready.canonical rfl))
  | clear current result replayed =>
    obtain ⟨found, hfound, hresp, hdig⟩ :=
      hready.cleared key current result replayed hkey rfl
    obtain rfl : stored = found := Option.mem_unique hstor hfound
    obtain rfl := Position.answered.inj h
    unfold Settles
    rw [if_pos hdig, hresp]
  | acknowledge current =>
    dsimp only [advance, acknowledgeStep] at h
    obtain hnone | ⟨after, hsome, hother⟩ := givesWay_iff.mp hkeeps
    · rw [acknowledgeCompile_none hnone] at h
      cases h
    · rw [receipt_of_key hkey, acknowledgeCompile_conflict hsome hstor] at h
      obtain rfl := Position.answered.inj h
      exact settles_of_other (beq_eq_false_iff_ne.mp hother) _
  | terminal result =>
    dsimp only [advance, terminal] at h
    rw [receipt_of_key hkey] at h
    dsimp only [recordOperationReceipt] at h
    rw [insertReceipt_conflict hstor] at h
    dsimp only at h
    rw [afterError_conflict hkey] at h
    cases h
  | replay error staged =>
    dsimp only [advance, replay] at h
    rw [hthere] at h
    dsimp only at h
    have hsettl : Settles sha256 u stored (u.replayed sha256 key stored) :=
      replayed_settles key
    split at h
    · rename_i result current hreplayed
      unfold afterCard at h
      split at h
      · cases h
      · rw [← Position.answered.inj h, ← hreplayed]
        exact hsettl
    · rw [← Position.answered.inj h]
      exact hsettl
  | readChangelog current attempt => cases h
  | write current attempt changelog =>
    dsimp only [advance, write] at h
    obtain hnone | ⟨after, hsome, hother⟩ := givesWay_iff.mp hkeeps
    · rw [commitContent_none hnone] at h
      cases h
    · rw [receipt_of_key hkey, commitContent_conflict hgrowt hsome hstor] at h
      obtain rfl := Position.answered.inj h
      exact settles_of_other (beq_eq_false_iff_ne.mp hother) _
  | reload current attempt =>
    dsimp only [advance, reload] at h
    split at h
    · rename_i hmoved
      unfold keepsReceipt at hkeeps
      rw [Bool.or_eq_true, decide_eq_true_eq, Bool.and_eq_true, beq_iff_eq,
        Bool.not_eq_true'] at hkeeps
      obtain hfew | ⟨hvers, hlock⟩ := hkeeps
      · rw [if_pos hfew] at h
        cases h
      · rw [hlock] at hmoved
        obtain hmoved | hmoved := hmoved
        · exact absurd hvers hmoved
        · cases hmoved
    · cases h
  | answered found => exact absurd rfl (hopen found)

theorem advance_settles_new (hgrowt : u.pageGrowth = none) (hkey : u.key = some key)
    (hnone : s.receipts.lookup key = none)
    (hstor : (u.advance sha256 ambient s position).2.receipts.lookup key = some stored)
    (h : (u.advance sha256 ambient s position).1 = .answered answer) :
    Settles sha256 u stored answer := by
  have hof : ∀ (result : WriteResult) (after : Store),
      InsertsReceipt (u.receipt sha256 result ambient.now) s after →
      after.receipts.lookup key = some stored → Settles sha256 u stored (.ok result) := by
    intro result after hins hafter
    have hthere := (hins.of_key hkey).2
    rw [hafter] at hthere
    rw [Option.some.inj hthere]
    unfold Settles
    rw [if_pos rfl]
  have heff := advance_effect sha256 u ambient s position
  generalize u.advance sha256 ambient s position = result at h hstor heff
  cases heff with
  | idle following =>
    rw [hnone] at hstor
    cases hstor
  | recorded result receipt _ hreceipt _ =>
    obtain rfl := Position.answered.inj h
    rw [receipt_of_key hkey] at hreceipt
    cases hreceipt
    have hthere : stored = _ := Option.some.inj
      (hstor.symm.trans (AList.lookup_insert s.receipts))
    rw [hthere]
    unfold Settles
    rw [if_pos rfl]
  | staged current _ _ after _ _ _ _ _ _ hins =>
    unfold afterCard at h
    split at h
    · cases h
    · obtain rfl := Position.answered.inj h
      exact hof _ after hins hstor
  | cleared current result replayed page _ _ _ =>
    have hsame : s.receipts.lookup key = some stored := hstor
    rw [hnone] at hsame
    cases hsame
  | acknowledged current page after _ _ _ _ _ hins =>
    obtain rfl := Position.answered.inj h
    exact hof _ after hins hstor
  | wrote current attempt changelog page after _ hlanded =>
    obtain rfl := Position.answered.inj h
    have hins := hlanded.receipts
    rw [contentUpdate_receipt hgrowt] at hins
    exact hof _ after hins hstor

end Wenlan.Updates
