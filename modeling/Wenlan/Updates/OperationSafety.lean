import Wenlan.Updates.OperationRuns

/-!
# Exactly once, in every run that keeps receipts

The invariant is that staleness is cleared only under the receipt of the card that was staged,
by the delivery that staged it.
-/

namespace Wenlan.Updates

open Pages PageUpdate

variable {sha256 : List String → String} {u : PageUpdate} {ambient : Ambient}
  {position : Position} {key : String × String} {out : Outside} {s t : System} {job : Nat}
  {delivery : Delivery} {label : Label}

theorem advance_readRevision {store : Store} {current : Page}
    (h : (u.advance sha256 ambient store position).1 = .readRevision current) :
    getPage store u.pageId = some current := by
  have hloade : (u.advance sha256 ambient store position).1.loaded = some current := by
    rw [h]
    rfl
  have hnext := advance_follows sha256 u ambient store position
  rw [h] at hnext
  generalize hfollow : Position.readRevision current = next at hnext
  cases hnext with
  | decided => exact (advance_loaded hloade).resolve_left nofun
  | _ => cases hfollow

theorem Ready.of_step {store after : Store} (h : Ready sha256 u store position)
    (hmoves : store.Moves after) (hkept : ∀ key stored, store.receipts.lookup key = some stored →
      after.receipts.lookup key = some stored) : Ready sha256 u after position where
  canonical := h.canonical
  cleared := by
    intro key current result replayed hkey hpos
    obtain ⟨stored, hstor, hrest⟩ := h.cleared key current result replayed hkey hpos
    exact ⟨stored, hkept key stored hstor, hrest⟩
  exists_page := by
    intro current hpos
    obtain ⟨page, hpage⟩ := Option.isSome_iff_exists.mp (h.exists_page current hpos)
    obtain ⟨later, hlater, -⟩ := hmoves u.pageId page hpage
    rw [hlater]
    rfl

theorem Ready.advance {store : Store} (h : Ready sha256 u store position) :
    Ready sha256 u (u.advance sha256 ambient store position).2
      (u.advance sha256 ambient store position).1 where
  canonical := by
    intro hund
    obtain hold | hcanonical := advance_underway hund
    · exact h.canonical hold
    · exact hcanonical
  cleared := by
    intro key current result replayed hkey hpos
    have heff := advance_effect sha256 u ambient store position
    obtain ⟨-, -, hstor⟩ | ⟨-, stored, hstor, hrest⟩ := advance_clear hkey hpos
    · exact ⟨_, hstor, rfl, rfl⟩
    · exact ⟨stored, heff.receipt_kept hstor, hrest⟩
  exists_page := by
    intro current hpos
    have hpage := getPage_eq_some (advance_readRevision hpos)
    obtain ⟨later, hlater, -⟩ :=
      (advance_effect sha256 u ambient store position).moves u.pageId current hpage
    rw [hlater]
    rfl

theorem ready_start (sha256 : List String → String) (u : PageUpdate) (store : Store) :
    Ready sha256 u store .start where
  canonical := fun h => by cases h
  cleared := fun _ _ _ _ _ h => by cases h
  exists_page := fun _ h => by cases h

/-! ## The invariant -/

def ClearsAt (s : System) (key : String × String) (job : Nat) : Prop :=
  ∃ delivery current result, s.deliveries.lookup job = some delivery ∧
    delivery.update.key = some key ∧ delivery.position = .clear current result false

structure Settled (out : Outside) (s : System) : Prop where
  ready : ∀ job delivery, s.deliveries.lookup job = some delivery →
    Ready out.sha256 delivery.update s.store delivery.position
  alone : ∀ key job job', ClearsAt s key job → ClearsAt s key job' → job = job'

theorem settled_of_quiet (h : Quiet s) : Settled out s where
  ready := by
    intro job delivery hdel
    rw [h.2.1] at hdel
    cases hdel
  alone := by
    rintro key job job' ⟨delivery, _, _, hdel, -⟩ -
    rw [h.2.1] at hdel
    cases hdel

theorem lookup_advanceDelivery (out : Outside) (s : System) (job : Nat) (ambient : Ambient)
    (delivery : Delivery) : (s.advanceDelivery out job ambient delivery).deliveries.lookup job =
      some { delivery with
        position := (delivery.update.advance out.sha256 ambient s.store delivery.position).1 } :=
  AList.lookup_insert s.deliveries

theorem lookup_advanceDelivery_ne (out : Outside) (s : System) (ambient : Ambient)
    (delivery : Delivery) {job other : Nat} (h : other ≠ job) :
    (s.advanceDelivery out job ambient delivery).deliveries.lookup other =
      s.deliveries.lookup other :=
  AList.lookup_insert_ne h

theorem Step.advance_eq (hstep : Step out s (.advance job ambient) t)
    (hjob : s.deliveries.lookup job = some delivery) :
    s.advanceDelivery out job ambient delivery = t := by
  have hnext : (s.deliveries.lookup job).map
    (s.advanceDelivery out job ambient) = some t := hstep
  rw [hjob] at hnext
  exact Option.some.inj hnext

/-- Where a delivery of the new state comes from. -/
theorem Step.delivery_cases (hstep : Step out s label t)
    (h : t.deliveries.lookup job = some delivery) :
    s.deliveries.lookup job = some delivery ∨ delivery.position = .start ∨
      ∃ ambient found, label = .advance job ambient ∧ s.deliveries.lookup job = some found ∧
        t = s.advanceDelivery out job ambient found ∧
        delivery = { found with
          position := (found.update.advance out.sha256 ambient s.store found.position).1 } := by
  have hsteppe := hstep.stepped
  cases hsteppe with
  | deliver started write _ _ _ =>
    by_cases heq : job = started
    · obtain rfl := heq
      right
      left
      have hnew := Option.some.inj ((AList.lookup_insert s.deliveries).symm.trans h)
      rw [← hnew]
    · exact .inl ((AList.lookup_insert_ne heq).symm.trans h)
  | advance advanced ambient found hfound =>
    by_cases heq : job = advanced
    · obtain rfl := heq
      rw [lookup_advanceDelivery] at h
      exact .inr (.inr ⟨ambient, found, rfl, hfound, rfl, (Option.some.inj h).symm⟩)
    · rw [lookup_advanceDelivery_ne out s ambient found heq] at h
      exact .inl h
  | drop dropped =>
    by_cases heq : job = dropped
    · obtain rfl := heq
      rw [AList.lookup_erase] at h
      cases h
    · exact .inl ((AList.lookup_erase_ne heq).symm.trans h)
  | event event now =>
    left
    unfold System.afterEvent at h
    split at h
    · exact h
    · split at h
      · cases h
      · exact h
  | crash => cases h
  | readFence _ _ _ | rewrite _ _ _ | advanceRewrite _ _ _ _ _ => exact .inl h

/-- A delivery comes to clear after its own card only by inserting its receipt. -/
theorem ClearsAt.of_step (hstep : Step out s label t) (h : ClearsAt t key job) :
    ClearsAt s key job ∨ ((∃ ambient, label = .advance job ambient) ∧
      s.store.receipts.lookup key = none) := by
  obtain ⟨delivery, current, result, hdel, hkey, hpos⟩ := h
  obtain hold | hstart | ⟨ambient, found, rfl, hfound, rfl, rfl⟩ := hstep.delivery_cases hdel
  · exact .inl ⟨delivery, current, result, hold, hkey, hpos⟩
  · rw [hstart] at hpos
    cases hpos
  · have hfoun : found.update.key = some key := hkey
    obtain ⟨-, hnone, -⟩ | ⟨hrepl, -⟩ := advance_clear hfoun hpos
    · exact .inr ⟨⟨ambient, rfl⟩, hnone⟩
    · cases hrepl

theorem Settled.receipt_of_clears (h : Settled out s) (hclears : ClearsAt s key job) :
    ∃ stored, s.store.receipts.lookup key = some stored := by
  obtain ⟨delivery, current, result, hdel, hkey, hpos⟩ := hclears
  obtain ⟨stored, hstor, -⟩ := (h.ready job delivery hdel).cleared key current result
    false hkey hpos
  exact ⟨stored, hstor⟩

theorem Settled.step (h : Settled out s) (hstep : Step out s label t) : Settled out t where
  ready := by
    intro job delivery hdel
    obtain hold | hstart | ⟨ambient, found, rfl, hfound, rfl, rfl⟩ :=
      hstep.delivery_cases hdel
    · exact (h.ready job delivery hold).of_step hstep.stepped.moves
        fun _ _ hstor => hstep.receipt_kept hstor
    · rw [hstart]
      exact ready_start _ _ _
    · exact (h.ready job found hfound).advance
  alone := by
    intro key job job' hclears hclears'
    obtain hold | ⟨⟨ambient, hlabel⟩, hnone⟩ := hclears.of_step hstep
    · obtain hold' | ⟨-, hnone⟩ := hclears'.of_step hstep
      · exact h.alone key job job' hold hold'
      · obtain ⟨stored, hstor⟩ := h.receipt_of_clears hold
        rw [hnone] at hstor
        cases hstor
    · obtain hold' | ⟨⟨ambient', hlabel'⟩, -⟩ := hclears'.of_step hstep
      · obtain ⟨stored, hstor⟩ := h.receipt_of_clears hold'
        rw [hnone] at hstor
        cases hstor
      · rw [hlabel] at hlabel'
        exact (Label.advance.inj hlabel').1

/-! ## Effects -/

def succeeds : Except WenlanError (Option Store) → Bool
  | .ok (some _) => true
  | _ => false

def PageUpdate.acts (sha256 : List String → String) (u : PageUpdate) (ambient : Ambient)
    (s : Store) : Position → Bool
  | .stage current sourceRevision =>
    succeeds (u.stageCard current sourceRevision
      (u.receipt sha256 (u.stagedResult ambient.cardId) ambient.now) ambient.cardId s)
  | .clear current _ _ => (u.clearStaleness current s).isSome
  | .acknowledge current =>
    succeeds (u.acknowledgeCompile current
      (u.receipt sha256 u.acknowledgedResult ambient.now) s)
  | .write current _ changelog =>
    succeeds (u.commitContent current changelog
      (u.receipt sha256 (u.wroteResult current) ambient.now) ambient s)
  | _ => false

/-- The step commits what its delivery came to: an effect, or that there is none. -/
def PageUpdate.commits (sha256 : List String → String) (u : PageUpdate) (ambient : Ambient)
    (s : Store) : Position → Bool
  | .clear _ _ _ => false
  | .terminal result => (u.receipt sha256 result ambient.now).any fun receipt =>
    (recordOperationReceipt receipt s).isOk
  | position => u.acts sha256 ambient s position

/-- A step that does not act leaves the tables, but for a receipt that it may leave. -/
theorem advance_idle {store : Store} (h : u.acts sha256 ambient store position = false)
    (hopen : ∀ result, position ≠ .terminal result) :
    (u.advance sha256 ambient store position).2 = store := by
  cases position with
  | stage current sourceRevision =>
    dsimp only [acts] at h
    dsimp only [advance, stage]
    split
    · rename_i after hstag
      rw [hstag] at h
      cases h
    · rfl
    · rfl
  | clear current result replayed =>
    have hnone : u.clearStaleness current store = none := Option.not_isSome_iff_eq_none.mp
      (Bool.eq_false_iff.mp h)
    dsimp only [advance, clear]
    rw [hnone]
    rfl
  | acknowledge current =>
    dsimp only [acts] at h
    dsimp only [advance, acknowledgeStep]
    split
    · rename_i after hackn
      rw [hackn] at h
      cases h
    · rfl
    · rfl
  | write current attempt changelog =>
    dsimp only [acts] at h
    dsimp only [advance, write]
    split
    · rename_i after hwrote
      rw [hwrote] at h
      cases h
    · rfl
    · rfl
  | terminal result => exact absurd rfl (hopen result)
  | start | load _ | readRevision _ | replay _ _ | readChangelog _ _ | reload _ _
  | answered _ => rfl

theorem advance_of_not_acts {store : Store} (h : u.acts sha256 ambient store position = false) :
    (u.advance sha256 ambient store position).2.pages = store.pages ∧
      (u.advance sha256 ambient store position).2.cards = store.cards := by
  by_cases hterminal : ∃ result, position = .terminal result
  · obtain ⟨result, rfl⟩ := hterminal
    have heff := advance_effect sha256 u ambient store (.terminal result)
    generalize u.advance sha256 ambient store (.terminal result) = after at heff ⊢
    cases heff with
    | idle following => exact ⟨rfl, rfl⟩
    | recorded answer receipt _ _ _ => exact ⟨rfl, rfl⟩
    | staged _ _ _ _ hpos | cleared _ _ _ _ hpos | acknowledged _ _ _ hpos
    | wrote _ _ _ _ _ hpos => cases hpos
  · rw [advance_idle h fun result hres => hterminal ⟨result, hres⟩]
    exact ⟨rfl, rfl⟩

theorem PageUpdate.contentUpdate_ownReceipt
    (hgrowt : ∀ key, u.key = some key → u.pageGrowth = none) (current : Page)
    (changelog : Changelog) (result : WriteResult) (now : Int) :
    (u.contentUpdate current changelog (u.receipt sha256 result now)).receipt =
      u.receipt sha256 result now := by
  cases hkey : u.key with
  | some key => exact contentUpdate_receipt (hgrowt key hkey) _ _ _
  | none =>
    have hnone : u.receipt sha256 result now = none := by
      unfold receipt
      rw [hkey]
      rfl
    rw [hnone]
    unfold contentUpdate
    split <;> rfl

theorem succeeds_iff {result : Except WenlanError (Option Store)} :
    succeeds result ↔ ∃ after, result = .ok (some after) := by
  constructor
  · intro h
    unfold succeeds at h
    split at h
    · rename_i after
      exact ⟨after, rfl⟩
    · cases h
  · rintro ⟨after, rfl⟩
    rfl

/-- What acts has its receipt in the same transaction, but for a staleness after a card. -/
theorem advance_inserts {store : Store} (hgrowt : ∀ key, u.key = some key → u.pageGrowth = none)
    (h : u.acts sha256 ambient store position) :
    (∃ result, InsertsReceipt (u.receipt sha256 result ambient.now) store
      (u.advance sha256 ambient store position).2) ∨
      ∃ current result replayed, position = .clear current result replayed := by
  cases position with
  | stage current sourceRevision =>
    left
    obtain ⟨after, hstag⟩ := succeeds_iff.mp h
    obtain ⟨_, -, -, -, -, -, hins⟩ := stageCard_eq_ok hstag
    refine ⟨u.stagedResult ambient.cardId, ?_⟩
    dsimp only [advance, stage]
    rw [hstag]
    exact hins
  | clear current result replayed => exact .inr ⟨current, result, replayed, rfl⟩
  | acknowledge current =>
    left
    obtain ⟨after, hackn⟩ := succeeds_iff.mp h
    obtain ⟨_, -, -, -, -, hins⟩ := acknowledgeCompile_eq_ok hackn
    refine ⟨u.acknowledgedResult, ?_⟩
    dsimp only [advance, acknowledgeStep]
    rw [hackn]
    exact hins
  | write current attempt changelog =>
    left
    obtain ⟨after, hwrote⟩ := succeeds_iff.mp h
    obtain ⟨page, hland⟩ := commitContent_eq_ok hwrote
    have hins := hland.receipts
    rw [contentUpdate_ownReceipt hgrowt] at hins
    refine ⟨u.wroteResult current, ?_⟩
    dsimp only [advance, write]
    rw [hwrote]
    exact hins
  | start | load _ | readRevision _ | terminal _ | replay _ _ | readChangelog _ _ | reload _ _
  | answered _ => cases h

theorem receipt_of_acts {store : Store} (hgrowt : u.pageGrowth = none)
    (hkey : u.key = some key) (h : u.acts sha256 ambient store position) :
    (store.receipts.lookup key = none ∧
        (u.advance sha256 ambient store position).2.receipts.lookup key ≠ none) ∨
      ∃ current result replayed, position = .clear current result replayed := by
  obtain ⟨result, hins⟩ | hclear := advance_inserts (fun _ _ => hgrowt) h
  · left
    obtain ⟨hfresh, hthere⟩ := hins.of_key hkey
    refine ⟨hfresh, ?_⟩
    rw [hthere]
    exact Option.some_ne_none _
  · exact .inr hclear

theorem InsertsReceipt.lookup_iff {store after : Store} {result : WriteResult} {now : Int}
    (h : InsertsReceipt (u.receipt sha256 result now) store after) :
    after.receipts.lookup key ≠ none ↔
      store.receipts.lookup key ≠ none ∨ u.key = some key := by
  cases hkey : u.key with
  | none =>
    have hnone : u.receipt sha256 result now = none := by
      unfold receipt
      rw [hkey]
      rfl
    rw [hnone] at h
    have hsame : after.receipts = store.receipts := h
    rw [hsame]
    simp
  | some own =>
    rw [receipt_of_key hkey] at h
    rw [h.2]
    by_cases heq : key = own
    · obtain rfl := heq
      rw [AList.lookup_insert]
      simp
    · rw [AList.lookup_insert_ne heq]
      simp [Ne.symm heq]

theorem terminal_receipt_iff {store : Store} (result : WriteResult) :
    (u.advance sha256 ambient store (.terminal result)).2.receipts.lookup key ≠ none ↔
      store.receipts.lookup key ≠ none ∨
        (u.key = some key ∧ u.commits sha256 ambient store (.terminal result)) := by
  dsimp only [advance, terminal, commits]
  cases hreceipt : u.receipt sha256 result ambient.now with
  | none => simp
  | some receipt =>
    rw [Option.any_some]
    dsimp only
    cases hrecorded : recordOperationReceipt receipt store with
    | error error => simp [Except.isOk, Except.toBool]
    | ok after =>
      have hins := (insertReceipt_eq_ok hrecorded).1
      rw [← hreceipt] at hins
      dsimp only
      rw [hins.lookup_iff]
      simp [Except.isOk, Except.toBool]

theorem clear_receipts {store : Store} (current : Page) (result : WriteResult) (replayed : Bool) :
    (u.advance sha256 ambient store (.clear current result replayed)).2.receipts =
      store.receipts := by
  have heff := advance_effect sha256 u ambient store (.clear current result replayed)
  generalize u.advance sha256 ambient store (.clear current result replayed) = after
    at heff ⊢
  cases heff with
  | idle following => rfl
  | cleared _ _ _ page _ _ _ => rfl
  | recorded _ _ hpos | staged _ _ _ _ hpos | acknowledged _ _ _ hpos
  | wrote _ _ _ _ _ hpos => cases hpos

theorem advance_receipt_iff {store : Store}
    (hgrowt : ∀ key, u.key = some key → u.pageGrowth = none) :
    (u.advance sha256 ambient store position).2.receipts.lookup key ≠ none ↔
      store.receipts.lookup key ≠ none ∨
        (u.key = some key ∧ u.commits sha256 ambient store position) := by
  by_cases hterminal : ∃ result, position = .terminal result
  · obtain ⟨result, rfl⟩ := hterminal
    exact terminal_receipt_iff result
  · have hopen : ∀ result, position ≠ .terminal result :=
      fun result hres => hterminal ⟨result, hres⟩
    by_cases hclear : ∃ current result replayed, position = .clear current result replayed
    · obtain ⟨current, result, replayed, rfl⟩ := hclear
      rw [clear_receipts]
      simp [commits]
    · have hcom : u.commits sha256 ambient store position =
          u.acts sha256 ambient store position := by
        cases position with
        | terminal result => exact absurd rfl (hopen result)
        | clear current result replayed => exact absurd ⟨_, _, _, rfl⟩ hclear
        | start | load _ | readRevision _ | stage _ _ | acknowledge _ | replay _ _
        | readChangelog _ _ | write _ _ _ | reload _ _ | answered _ => rfl
      rw [hcom]
      cases hacts : u.acts sha256 ambient store position with
      | false =>
        rw [advance_idle hacts hopen]
        simp
      | true =>
        obtain ⟨result, hins⟩ | hclears := advance_inserts hgrowt hacts
        · rw [hins.lookup_iff]
          simp
        · exact absurd hclears hclear

end Wenlan.Updates
