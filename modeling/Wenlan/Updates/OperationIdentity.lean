import Wenlan.Updates.OperationSafety

/-!
# One operation, one effect

What is proved of a step of a delivery with a caller and an operation, in every run in which the
deliveries that have a receipt in the tables come to look at it.  At the end is a run in which
one does not: its version is refused after the same request was written.
-/

namespace Wenlan.Updates

open Pages
open Support.Transition (Run Restrict)

variable {key : String × String} {out : Outside} {start s t : System} {job : Nat}
  {ambient : Ambient} {delivery : Delivery} {label : Label} {labels : List Label}

def committing (out : Outside) (key : String × String) (s : System) : Label → Bool
  | .advance job ambient => (s.deliveries.lookup job).any fun delivery =>
    delivery.update.key == some key &&
      delivery.update.commits out.sha256 ambient s.store delivery.position
  | _ => false

def committed (out : Outside) (key : String × String) : System → List Label → Bool
  | _, [] => false
  | s, label :: labels =>
    committing out key s label || (next out s label).any fun t => committed out key t labels

theorem Tracked.growth (h : Tracked s) (hjob : s.deliveries.lookup job = some delivery) :
    ∀ key, delivery.update.key = some key → delivery.update.pageGrowth = none := by
  intro key hkey
  obtain ⟨write, hwrite⟩ := (h.deliveries job delivery hjob).write
  rw [hwrite] at hkey ⊢
  exact write.growth_of_key hkey

theorem Step.receipt_iff (htrack : Tracked s) (hstep : Step out s label t) :
    t.store.receipts.lookup key ≠ none ↔
      s.store.receipts.lookup key ≠ none ∨ committing out key s label := by
  have hsteppe := hstep.stepped
  cases hsteppe with
  | advance job ambient delivery hjob =>
    unfold committing
    dsimp only
    rw [hjob, Option.any_some, Bool.and_eq_true, beq_iff_eq]
    exact advance_receipt_iff (htrack.growth hjob)
  | advanceRewrite job now rewrite position _ =>
    have hsame : (s.advanceRewriteJob job now rewrite position).store.receipts =
      s.store.receipts := (advance_rewriteEffect rewrite now s.store position).receipts
    rw [hsame]
    simp [committing]
  | event event now =>
    have hsame : (s.afterEvent out event now).store.receipts = s.store.receipts := by
      obtain hsame | hrun := afterEvent_store out s event now
      · rw [hsame]
      · exact Event.receipts hrun
    rw [hsame]
    simp [committing]
  | readFence _ _ _ | deliver _ _ _ _ _ | drop _ | rewrite _ _ _ | crash =>
    simp [committing, System.crashed]

theorem run_receipt_iff (htrack : Tracked s) (hrun : Run (Step out) s labels t) :
    t.store.receipts.lookup key ≠ none ↔
      s.store.receipts.lookup key ≠ none ∨ committed out key s labels := by
  induction hrun with
  | refl s => simp [committed]
  | @cons s m t label labels hstep _ ih =>
    rw [ih (htrack.step hstep), hstep.receipt_iff htrack]
    have hnext : next out s label = some m := hstep
    rw [committed, hnext, Option.any_some, Bool.or_eq_true, or_assoc]

theorem run_receipt_kept {stored : OperationReceipt} (hrun : Run (Step out) s labels t)
    (hstor : s.store.receipts.lookup key = some stored) :
    t.store.receipts.lookup key = some stored := by
  induction hrun with
  | refl => exact hstor
  | cons hstep _ ih => exact ih (hstep.receipt_kept hstor)

/-! ## Exactly once -/

theorem kept_run_settled (hquiet : Quiet start)
    (hrun : Run (Restrict (Step out) (Kept out)) start labels s) : Tracked s ∧ Settled out s := by
  have hplain := hrun.of_restrict
  exact ⟨hplain.invariant (fun _ _ _ hinv hone => hinv.step hone) (tracked_of_quiet hquiet),
    hplain.invariant (fun _ _ _ hinv hone => hinv.step hone) (settled_of_quiet hquiet)⟩

/-- The key has a receipt, and only `job` may still clear staleness under it. -/
structure HeldBy (key : String × String) (job : Nat) (s : System) : Prop where
  receipt : ∃ stored, s.store.receipts.lookup key = some stored
  alone : ∀ other, ClearsAt s key other → other = job

theorem HeldBy.step (h : HeldBy key job s) (hstep : Step out s label t) : HeldBy key job t := by
  obtain ⟨stored, hstor⟩ := h.receipt
  refine ⟨⟨stored, hstep.receipt_kept hstor⟩, fun other hclears => ?_⟩
  obtain hold | ⟨-, hnone⟩ := hclears.of_step hstep
  · exact h.alone other hold
  · rw [hnone] at hstor
    cases hstor

section

variable (htrack : Tracked s) (hset : Settled out s)
  (hkept : Kept out s (.advance job ambient)) (hjob : s.deliveries.lookup job = some delivery)
  (hkey : delivery.update.key = some key)
include htrack hset hkept hjob hkey

theorem clearsAt_of_acts
    (hacts : delivery.update.acts out.sha256 ambient s.store delivery.position) :
    (s.store.receipts.lookup key = none ∧
        (s.advanceDelivery out job ambient delivery).store.receipts.lookup key ≠ none) ∨
      ClearsAt s key job := by
  obtain hnew | ⟨current, result, replayed, hpos⟩ :=
    receipt_of_acts (htrack.growth hjob key hkey) hkey hacts
  · exact .inl hnew
  · right
    cases replayed with
    | false => exact ⟨delivery, current, result, hjob, hkey, hpos⟩
    | true =>
      obtain ⟨stored, hstor, -⟩ := (hset.ready job delivery hjob).cleared key current
        result true hkey hpos
      have hkeeps := hkept.keepsReceipt hjob hkey hstor
      rw [hpos] at hkeeps hacts
      have hnone : (delivery.update.clearStaleness current s.store).isNone := hkeeps
      have hsome : (delivery.update.clearStaleness current s.store).isSome := hacts
      rw [Option.isNone_iff_eq_none] at hnone
      rw [hnone] at hsome
      cases hsome

theorem heldBy_of_acts
    (hstep : Step out s (.advance job ambient) (s.advanceDelivery out job ambient delivery))
    (hacts : delivery.update.acts out.sha256 ambient s.store delivery.position) :
    HeldBy key job (s.advanceDelivery out job ambient delivery) := by
  obtain ⟨hnone, hsome⟩ | hclears := clearsAt_of_acts htrack hset hkept hjob hkey hacts
  · refine ⟨Option.ne_none_iff_exists'.mp hsome, fun other hother => ?_⟩
    obtain hold | ⟨⟨ambient', hlabel⟩, -⟩ := hother.of_step hstep
    · obtain ⟨stored, hstor⟩ := hset.receipt_of_clears hold
      rw [hnone] at hstor
      cases hstor
    · exact (Label.advance.inj hlabel).1.symm
  · have hheld : HeldBy key job s :=
      ⟨hset.receipt_of_clears hclears, fun other hother =>
        hset.alone key other job hother hclears⟩
    exact hheld.step hstep

end

structure DeliversOnce (out : Outside) (s : System) (job : Nat) (ambient : Ambient)
    (delivery : Delivery) (key : String × String) (t : System) : Prop where
  /-- Once it has acted, no other delivery acts under its key. -/
  alone : delivery.update.acts out.sha256 ambient s.store delivery.position = true →
    ∀ labels s' job' ambient' delivery', Run (Restrict (Step out) (Kept out)) t labels s' →
      Kept out s' (.advance job' ambient') → s'.deliveries.lookup job' = some delivery' →
      delivery'.update.key = some key →
      delivery'.update.acts out.sha256 ambient' s'.store delivery'.position = true → job' = job
  /-- A step that does not act changes no page and stages no card. -/
  idle : delivery.update.acts out.sha256 ambient s.store delivery.position = false →
    t.store.pages = s.store.pages ∧ t.store.cards = s.store.cards
  /-- It is answered what the receipt of its key says. -/
  answers : ∀ stored answer, (∀ found, delivery.position ≠ .answered found) →
    (t.deliveries.lookup job).map Delivery.position = some (.answered answer) →
    t.store.receipts.lookup key = some stored →
    Settles out.sha256 delivery.update stored answer
  /-- It does not act under the receipt of another request. -/
  others : ∀ stored, s.store.receipts.lookup key = some stored →
    stored.requestDigest ≠ delivery.update.digest out.sha256 →
    delivery.update.acts out.sha256 ambient s.store delivery.position = false
  /-- The receipt stays as it is. -/
  kept : ∀ stored labels s', t.store.receipts.lookup key = some stored →
    Run (Step out) t labels s' → s'.store.receipts.lookup key = some stored

/-- A page write is exactly once for its caller and operation, in every run in which no delivery
passes the receipt that the tables have for it. -/
theorem page_writes_exactly_once (hquiet : Quiet start)
    (hrun : Run (Restrict (Step out) (Kept out)) start labels s) (key : String × String) :
    (s.store.receipts.lookup key ≠ none ↔
      start.store.receipts.lookup key ≠ none ∨ committed out key start labels = true) ∧
    ∀ job ambient delivery t, s.deliveries.lookup job = some delivery →
      delivery.update.key = some key → Kept out s (.advance job ambient) →
      Step out s (.advance job ambient) t → DeliversOnce out s job ambient delivery key t := by
  obtain ⟨htrack, hset⟩ := kept_run_settled hquiet hrun
  refine ⟨run_receipt_iff (tracked_of_quiet hquiet) hrun.of_restrict, ?_⟩
  intro job ambient delivery t hjob hkey hkept hstep
  obtain rfl := hstep.advance_eq hjob
  have hready := hset.ready job delivery hjob
  have hgrowt := htrack.growth hjob key hkey
  refine
    { alone := ?alone, idle := ?idle, answers := ?answers, others := ?others, kept := ?kept }
  case alone =>
    intro hacts labels' s' job' ambient' delivery' hlater hkept' hjob' hkey' hacts'
    have hheld := heldBy_of_acts htrack hset hkept hjob hkey hstep hacts
    have hall := kept_run_settled hquiet ((hrun.snoc ⟨hkept, hstep⟩).append hlater)
    have hheld' : HeldBy key job s' :=
      hlater.of_restrict.invariant (fun _ _ _ hinv hone => hinv.step hone) hheld
    obtain ⟨hnone, -⟩ | hclears := clearsAt_of_acts hall.1 hall.2 hkept' hjob' hkey' hacts'
    · obtain ⟨stored, hstor⟩ := hheld'.receipt
      rw [hnone] at hstor
      cases hstor
    · exact hheld'.alone job' hclears
  case idle => exact advance_of_not_acts
  case answers =>
    intro stored answer hopen hansw hstor
    rw [lookup_advanceDelivery, Option.map_some] at hansw
    have hpos := Option.some.inj hansw
    cases hbefore : s.store.receipts.lookup key with
    | none => exact advance_settles_new hgrowt hkey hbefore hstor hpos
    | some earlier =>
      have hsame : stored = earlier :=
        Option.some.inj (hstor.symm.trans (hstep.receipt_kept hbefore))
      rw [hsame]
      exact advance_settles hgrowt hkey hbefore hready (hkept.keepsReceipt hjob hkey hbefore)
        hopen hpos
  case others =>
    intro stored hstor hother
    rw [Bool.eq_false_iff]
    intro hacts
    obtain ⟨hnone, -⟩ | ⟨current, result, replayed, hpos⟩ :=
      receipt_of_acts hgrowt hkey hacts
    · rw [hnone] at hstor
      cases hstor
    · obtain ⟨found, hfound, -, hdig⟩ :=
        hready.cleared key current result replayed hkey hpos
      obtain rfl : stored = found := Option.some.inj (hstor.symm.trans hfound)
      exact hother hdig
  case kept =>
    intro stored labels' s' hstor hlater
    exact run_receipt_kept hlater hstor

/-! ## One request, delivered twice -/

def plainPage : Page where
  title := "Notes"
  content := "first words"
  sourceMemoryIds := ["m1"]
  version := 4
  sourceRevision := 2
  incarnation := "i1"
  status := "active"
  kind := "concept"
  creationKind := "distilled"
  reviewStatus := "confirmed"
  space := "work"
  userEdited := false
  reviewRequired := false
  staleReason := none
  refreshBlockedReason := none
  sourcesUpdatedCount := 0
  citations := none
  changelog := []

def twiceStart : System where
  store := { pages := (∅ : AList fun _ : String => Page).insert "p" plainPage, history := ∅
             receipts := ∅, cards := ∅ }
  fences := []
  started := 0
  deliveries := ∅
  rewrites := ∅

def twiceOutside : Outside where
  sha256 fields := ",".intercalate fields
  toLowercase := id

def twiceAmbient : Ambient where
  now := 5
  cardId := "card"
  grounded := true
  shrunkBelow := none
  memoryCurrent := true

/-- An edit of the version that the caller read. -/
def twiceWrite : PageWrite :=
  .update "p"
    { content := "second words", sourceMemoryIds := ["m1"], expectedVersion := some 4
      callerId := some "agent", operationId := some "op" }
    "manual_edit" false none none

def twiceKey : String × String :=
  ("agent", "op")

/-- A delivery is written, and its request delivered again. -/
def retriedLabels : List Label :=
  [.deliver 0 twiceWrite, .advance 0 twiceAmbient, .advance 0 twiceAmbient,
    .advance 0 twiceAmbient, .advance 0 twiceAmbient, .deliver 1 twiceWrite]

/-- Both deliveries look for a receipt before one of them is written. -/
def crossedLabels : List Label :=
  [.deliver 0 twiceWrite, .deliver 1 twiceWrite, .advance 0 twiceAmbient,
    .advance 1 twiceAmbient, .advance 0 twiceAmbient, .advance 0 twiceAmbient,
    .advance 0 twiceAmbient]

def Position.outcome : Position → Option WriteOutcome
  | .answered (.ok result) => some result.outcome
  | _ => none

def keptNext (out : Outside) (s : System) (label : Label) : Option System :=
  if keeps out s label then next out s label else none

theorem restrict_of_keptNext {s t : System} {label : Label}
    (h : keptNext out s label = some t) : Restrict (Step out) (Kept out) s label t := by
  unfold keptNext at h
  split at h
  · rename_i hkeeps
    exact ⟨hkeeps, h⟩
  · cases h

theorem page_writes_exactly_once_retried :
    ∃ s delivery t, Run (Restrict (Step twiceOutside) (Kept twiceOutside)) twiceStart
        retriedLabels s ∧
      DeliversOnce twiceOutside s 1 twiceAmbient delivery twiceKey t ∧
      (t.deliveries.lookup 1).bind (fun delivery => delivery.position.outcome) =
        some .wrote := by
  have hready : (retriedLabels.foldlM (keptNext twiceOutside) twiceStart).any (fun s =>
      decide ((s.deliveries.lookup 1).map Delivery.update = some twiceWrite.toUpdate ∧
        (keptNext twiceOutside s (.advance 1 twiceAmbient)).any (fun t =>
          (t.deliveries.lookup 1).bind (fun delivery => delivery.position.outcome) ==
            some .wrote) = true)) = true := by
    decide +kernel
  have himp : ∀ s label t, keptNext twiceOutside s label = some t →
      Restrict (Step twiceOutside) (Kept twiceOutside) s label t :=
    fun _ _ _ h => restrict_of_keptNext h
  obtain ⟨s, hrun, hupd, hansw⟩ := Run.of_foldlM_any himp hready
  obtain ⟨delivery, hdeliv, hdel⟩ := Option.map_eq_some_iff.mp hupd
  obtain ⟨t, hstep, houtc⟩ := (Option.any_eq_true _ _).mp hansw
  have hkey : delivery.update.key = some twiceKey := by
    rw [hdel]
    decide +kernel
  obtain ⟨hkept, hplain⟩ := restrict_of_keptNext hstep
  have hquiet : Quiet twiceStart := ⟨rfl, rfl, rfl⟩
  have honce := (page_writes_exactly_once hquiet hrun twiceKey).2 1 twiceAmbient delivery t
    hdeliv hkey hkept hplain
  exact ⟨s, delivery, t, hrun, honce, beq_iff_eq.mp houtc⟩

/-- A delivery is refused though the same request has been written and has its receipt. -/
theorem page_writes_not_exactly_once :
    ∃ s delivery stored t, Run (Step twiceOutside) twiceStart crossedLabels s ∧
      s.deliveries.lookup 1 = some delivery ∧ delivery.update.key = some twiceKey ∧
      s.store.receipts.lookup twiceKey = some stored ∧
      stored.requestDigest = delivery.update.digest twiceOutside.sha256 ∧
      stored.response.outcome = .wrote ∧ Step twiceOutside s (.advance 1 twiceAmbient) t ∧
      (t.deliveries.lookup 1).bind (fun delivery => delivery.position.outcome) =
        some .refused := by
  have hready : (crossedLabels.foldlM (next twiceOutside) twiceStart).any (fun s =>
      decide ((s.deliveries.lookup 1).map Delivery.update = some twiceWrite.toUpdate ∧
        (s.store.receipts.lookup twiceKey).any (fun stored =>
          stored.requestDigest == twiceWrite.toUpdate.digest twiceOutside.sha256 &&
            stored.response.outcome == .wrote) = true ∧
        (next twiceOutside s (.advance 1 twiceAmbient)).any (fun t =>
          (t.deliveries.lookup 1).bind (fun delivery => delivery.position.outcome) ==
            some .refused) = true)) = true := by
    decide +kernel
  obtain ⟨s, hrun, hupd, hrec, hansw⟩ := Run.of_foldlM_any (fun _ _ _ h => h) hready
  obtain ⟨delivery, hdeliv, hdel⟩ := Option.map_eq_some_iff.mp hupd
  obtain ⟨stored, hstor, hsame⟩ := (Option.any_eq_true _ _).mp hrec
  obtain ⟨t, hstep, houtc⟩ := (Option.any_eq_true _ _).mp hansw
  rw [Bool.and_eq_true, beq_iff_eq, beq_iff_eq] at hsame
  have hkey : delivery.update.key = some twiceKey := by
    rw [hdel]
    decide +kernel
  rw [← hdel] at hsame
  exact ⟨s, delivery, stored, t, hrun, hdeliv, hkey, hstor, hsame.1, hsame.2, hstep,
    beq_iff_eq.mp houtc⟩

end Wenlan.Updates
