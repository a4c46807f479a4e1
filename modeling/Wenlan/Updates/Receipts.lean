import Wenlan.Updates.Ownership

/-!
# The receipts of page writes

A receipt is inserted in the transaction of the effect it is about, or as the last step of a
delivery that changes nothing; nothing removes one.  `KeepsReceipt` is the condition under which
a delivery that has a receipt in the tables comes to look at it.
-/

namespace Wenlan.Updates

open Pages PageUpdate

variable {sha256 : List String → String} {u : PageUpdate} {ambient : Ambient} {s after : Store}
  {position : Position} {key : String × String} {stored : OperationReceipt}

theorem appendPageHistory_receipts {pageId editedBy : String} {now : Int}
    (h : appendPageHistory pageId editedBy now s = .ok after) : after.receipts = s.receipts := by
  unfold appendPageHistory at h
  split at h
  · rw [← Except.ok.inj h]
  · split at h
    · cases h
    · rw [← Except.ok.inj h]

theorem commitVersion_receipts {pageId editedBy : String} {now : Int} {page : Page}
    (h : commitVersion pageId page editedBy now s = .ok after) : after.receipts = s.receipts := by
  rw [appendPageHistory_receipts h]
  rfl

theorem EventEffect.receipts {interrupted : Bool} (h : EventEffect s interrupted after) :
    after.receipts = s.receipts := by
  cases h with
  | kept after _ _ hreceipts => exact hreceipts
  | created new now _ =>
    unfold insertFirstHistory
    split <;> rfl
  | touched _ _ _ _ _ => rfl
  | committed _ _ _ _ _ _ _ _ hcommit => exact commitVersion_receipts hcommit
  | cutOff _ _ _ _ => rfl
  | merged _ _ _ _ _ _ _ _ _ _ _ hmiddle _ hafter =>
    rw [commitVersion_receipts hafter, commitVersion_receipts hmiddle]

theorem Event.receipts {event : Event} {toLowercase : String → String} {now : Int}
    (h : event.run toLowercase now s = .ok after) : after.receipts = s.receipts :=
  (Event.effect h).receipts

theorem RewriteEffect.receipts {rewrite : Rewrite} {now : Int} {position : RewritePosition}
    (h : RewriteEffect rewrite now s position after) : after.receipts = s.receipts := by
  cases h with
  | idle => rfl
  | requeued _ _ _ => rfl
  | discarded _ => rfl
  | accepted _ _ _ _ _ _ _ _ _ hlanded => exact hlanded.receipts
  | annotated _ _ _ _ _ _ _ _ _ _ _ _ hlanded => exact hlanded.receipts

theorem InsertsReceipt.kept {receipt : Option KeyedReceipt} (h : InsertsReceipt receipt s after)
    (hstor : s.receipts.lookup key = some stored) : after.receipts.lookup key = some stored := by
  unfold InsertsReceipt at h
  split at h
  · rw [h]
    exact hstor
  · rename_i other row
    have hne : key ≠ other := by
      rintro rfl
      rw [h.1] at hstor
      cases hstor
    rw [h.2, AList.lookup_insert_ne hne]
    exact hstor

theorem Effect.receipt_kept {result : Position × Store}
    (h : Effect sha256 u ambient s position result)
    (hstor : s.receipts.lookup key = some stored) :
    result.2.receipts.lookup key = some stored := by
  cases h with
  | idle following => exact hstor
  | recorded answer receipt _ _ hfresh =>
    have hne : key ≠ receipt.1 := by
      rintro rfl
      rw [hfresh] at hstor
      cases hstor
    exact (AList.lookup_insert_ne hne).trans hstor
  | staged _ _ _ _ _ _ _ _ _ _ hinserts => exact hinserts.kept hstor
  | cleared _ _ _ _ _ _ _ => exact hstor
  | acknowledged _ _ _ _ _ _ _ _ hinserts => exact hinserts.kept hstor
  | wrote _ _ _ _ _ _ hlanded => exact hlanded.receipts.kept hstor

variable {out : Outside}

theorem Step.receipt_kept {s t : System} {label : Label}
    (h : Step out s label t) (hstor : s.store.receipts.lookup key = some stored) :
    t.store.receipts.lookup key = some stored := by
  have hstep := h.stepped
  cases hstep with
  | advance job ambient delivery _ =>
    exact (advance_effect out.sha256 delivery.update ambient s.store
      delivery.position).receipt_kept hstor
  | advanceRewrite job now rewrite position _ =>
    have hsame := (advance_rewriteEffect rewrite now s.store position).receipts
    exact (congrArg (AList.lookup key) hsame).trans hstor
  | event event now =>
    obtain hsame | hrun := afterEvent_store out s event now
    · rw [hsame]
      exact hstor
    · rw [Event.receipts hrun]
      exact hstor
  | readFence _ _ _ | deliver _ _ _ _ _ | drop _ | rewrite _ _ _ | crash => exact hstor

/-- Beside a receipt a transaction has to match no row, or be undone for the receipt of another
request. -/
def givesWay (same : Bool) : Except WenlanError (Option Store) → Bool
  | .ok none => true
  | .ok (some _) => !same
  | .error _ => false

def Decision.isAnswer : Decision → Bool
  | .answer _ => true
  | _ => false

/-- A delivery with a receipt in the tables comes to look at it: it is not answered from the row
it loads, it does not find the row it is to write or to acknowledge, it does not give up, and it
does not clear a staleness that another delivery's card was staged for. -/
def keepsReceipt (u : PageUpdate) (same : Bool) (ambient : Ambient) (s : Store) : Position → Bool
  | .start => (u.validate ambient.grounded).isOk
  | .load _ => (getPage s u.pageId).any fun current => !(u.decide ambient current).isAnswer
  | .clear current _ replayed => !replayed || (u.clearStaleness current s).isNone
  | .acknowledge current => givesWay same (u.acknowledgeCompile current none s)
  | .write current _ changelog =>
    givesWay same (u.commitContent current changelog none ambient s)
  | .reload current attempt => decide (attempt < maxCasAttempts) ||
      ((getPage s u.pageId).map Page.version == some current.version &&
        !u.lockAppeared current (getPage s u.pageId))
  | .readRevision _ | .stage _ _ | .terminal _ | .replay _ _ | .readChangelog _ _
  | .answered _ => true

def keeps (out : Outside) (s : System) : Label → Bool
  | .advance job ambient => (s.deliveries.lookup job).all fun delivery =>
    (delivery.update.stored s.store).all fun stored =>
      keepsReceipt delivery.update
        (stored.2.requestDigest == delivery.update.digest out.sha256) ambient s.store
        delivery.position
  | _ => true

/-- The step does not take a delivery past its receipt. -/
def Kept (out : Outside) (s : System) (label : Label) : Prop :=
  keeps out s label = true

theorem receipt_of_key (hkey : u.key = some key) (result : WriteResult) (now : Int) :
    u.receipt sha256 result now =
      some (key, { requestDigest := u.digest sha256, response := result, createdAt := now }) := by
  unfold receipt
  rw [hkey]
  rfl

theorem stored_of_key (hkey : u.key = some key) :
    u.stored s = (s.receipts.lookup key).map fun stored => (key, stored) := by
  unfold stored
  rw [hkey]
  rfl

theorem Kept.keepsReceipt {s : System} {job : Nat} {ambient : Ambient}
    {delivery : Delivery} (h : Kept out s (.advance job ambient))
    (hjob : s.deliveries.lookup job = some delivery) (hkey : delivery.update.key = some key)
    (hstor : s.store.receipts.lookup key = some stored) : keepsReceipt delivery.update
      (stored.requestDigest == delivery.update.digest out.sha256) ambient s.store
      delivery.position := by
  unfold Kept keeps at h
  dsimp only at h
  rw [hjob, Option.all_some, stored_of_key hkey, hstor] at h
  exact h

end Wenlan.Updates

/-!
## A page write happens once for each operation

Of the deliveries with one caller and operation at most one changes anything, and what it was
answered is what the others are answered, as long as they come to look at its receipt.  A
delivery that is refused for the version it expects does not.
-/

namespace Wenlan.Updates

open Pages

variable {sha256 : List String → String} {u : PageUpdate} {ambient : Ambient} {s after : Store}
  {position : Position} {key : String × String} {stored : OperationReceipt}
  {answer : Except WenlanError WriteResult}

def Settles (sha256 : List String → String) (u : PageUpdate) (stored : OperationReceipt)
    (answer : Except WenlanError WriteResult) : Prop :=
  if stored.requestDigest = u.digest sha256 then answer = .ok stored.response
  else ∃ message, answer = .error (.conflict message)

/-! ## One step of a delivery that keeps receipts -/

theorem InsertsReceipt.of_key (hkey : u.key = some key) {result : WriteResult} {now : Int}
    (h : InsertsReceipt (u.receipt sha256 result now) s after) :
    s.receipts.lookup key = none ∧ after.receipts.lookup key =
      some { requestDigest := u.digest sha256, response := result, createdAt := now } := by
  rw [receipt_of_key hkey] at h
  refine ⟨h.1, ?_⟩
  rw [h.2, AList.lookup_insert]

theorem PageWrite.growth_of_key (write : PageWrite) (hkey : write.toUpdate.key = some key) :
    write.toUpdate.pageGrowth = none := by
  cases write with
  | growth pageId content sourceMemoryIds commit citations => cases hkey
  | update | agentUpdate | userForcedUpdate | updatePreservingSources => rfl

theorem PageUpdate.contentUpdate_receipt (hgrowt : u.pageGrowth = none) (current : Page)
    (changelog : Changelog) (receipt : Option KeyedReceipt) :
    (u.contentUpdate current changelog receipt).receipt = receipt := by
  unfold contentUpdate
  rw [hgrowt]
  split
  · rename_i hsome
    cases hsome
  · rfl
  · rfl
  · rfl

theorem PageUpdate.contentUpdate_with (current : Page) (changelog : Changelog)
    (receipt : Option KeyedReceipt) : ∃ kept, u.contentUpdate current changelog receipt =
      { u.contentUpdate current changelog none with receipt := kept } := by
  unfold contentUpdate
  split
  · exact ⟨none, rfl⟩
  all_goals exact ⟨receipt, rfl⟩

theorem ContentUpdate.land_ne_none (update : ContentUpdate) (pageId : String) (now : Int)
    (page : Page) (s : Store) : update.land pageId now page s ≠ .ok none := by
  intro h
  obtain ⟨_, -, h⟩ := bind_eq_ok h
  obtain ⟨_, -, h⟩ := bind_eq_ok h
  obtain ⟨_, -, h⟩ := bind_eq_ok h
  cases h

variable {memoryCurrent : Bool}

theorem tryUpdatePageContent_none_with {update : ContentUpdate} {pageId : String} {now : Int}
    (h : tryUpdatePageContent update pageId now memoryCurrent s = .ok none)
    (kept : Option KeyedReceipt) :
    tryUpdatePageContent { update with receipt := kept } pageId now memoryCurrent s =
      .ok none := by
  obtain ⟨_, hshape, h⟩ := bind_eq_ok h
  obtain ⟨_, hcan, h⟩ := bind_eq_ok h
  obtain ⟨_, hdraft, h⟩ := bind_eq_ok h
  have hshape' : ({ update with receipt := kept } : ContentUpdate).checkShape = .ok () := hshape
  unfold tryUpdatePageContent
  rw [hshape', hcan, hdraft]
  change (if update.pageGrowthGuard.isSome ∧ ¬memoryCurrent then Except.ok none
    else ({ update with receipt := kept } : ContentUpdate).landIfAdmitted pageId now s) = .ok none
  split
  · rfl
  · rename_i hguard
    rw [if_neg hguard] at h
    unfold ContentUpdate.landIfAdmitted at h ⊢
    have hadm : ({ update with receipt := kept } : ContentUpdate).admits = update.admits := rfl
    rw [hadm]
    split at h
    · rfl
    · exact absurd h (ContentUpdate.land_ne_none _ _ _ _ _)

variable {changelog : Changelog}

/-- A write that matches no row matches none with a receipt to record. -/
theorem commitContent_none {current : Page}
    (h : u.commitContent current changelog none ambient s = .ok none)
    (receipt : Option KeyedReceipt) :
    u.commitContent current changelog receipt ambient s = .ok none := by
  obtain ⟨_, hsourc, h⟩ := bind_eq_ok h
  obtain ⟨kept, hwith⟩ := u.contentUpdate_with current changelog receipt
  unfold PageUpdate.commitContent
  rw [hsourc, hwith]
  exact tryUpdatePageContent_none_with h kept

theorem acknowledge_none {fence : CompileFence} {pageId : String}
    (h : acknowledge fence pageId none s = .ok none) (receipt : Option KeyedReceipt) :
    acknowledge fence pageId receipt s = .ok none := by
  unfold acknowledge at h ⊢
  split at h
  · rfl
  · cases h

theorem acknowledgeCompile_none {current : Page}
    (h : u.acknowledgeCompile current none s = .ok none) (receipt : Option KeyedReceipt) :
    u.acknowledgeCompile current receipt s = .ok none := by
  unfold PageUpdate.acknowledgeCompile at h ⊢
  split at h
  · rename_i hfence
    exact acknowledge_none h receipt
  · exact acknowledge_none h receipt

theorem insertReceipt_conflict {collision : String × String → String}
    (hstor : s.receipts.lookup key = some stored) (row : OperationReceipt) :
    insertReceipt collision (some (key, row)) s = .error (.conflict (collision key)) := by
  unfold insertReceipt
  dsimp only
  rw [hstor]
  rfl

theorem PageUpdate.contentUpdate_of_growth (hgrowt : u.pageGrowth = none) (current : Page)
    (changelog : Changelog) (receipt : Option KeyedReceipt) :
    u.contentUpdate current changelog receipt =
      { u.contentUpdate current changelog none with receipt } := by
  obtain ⟨kept, hwith⟩ := u.contentUpdate_with current changelog receipt
  have hrec := contentUpdate_receipt hgrowt current changelog receipt
  rw [hwith] at hrec
  obtain rfl : kept = receipt := hrec
  exact hwith

theorem ContentUpdate.land_conflict {update : ContentUpdate} {pageId : String} {now : Int}
    {page : Page} (hland : update.land pageId now page s = .ok (some after))
    (hstor : s.receipts.lookup key = some stored) (row : OperationReceipt) :
    ({ update with receipt := some (key, row) } : ContentUpdate).land pageId now page s =
      .error (.conflict (alreadyRecorded key)) := by
  obtain ⟨consumed, hcons, h⟩ := bind_eq_ok hland
  obtain ⟨recorded, hrecor, -⟩ := bind_eq_ok h
  have hthere : recorded.receipts.lookup key = some stored := by
    rw [appendPageHistory_receipts hrecor, (consumeRevision_eq_ok hcons).2.2.2]
    exact hstor
  have happ : ({ update with receipt := some (key, row) } : ContentUpdate).applied page =
      update.applied page := rfl
  unfold ContentUpdate.land
  rw [happ, hcons]
  change (appendPageHistory pageId update.linkReason now consumed >>= fun recorded =>
    insertReceipt alreadyRecorded (some (key, row)) recorded >>= fun after =>
      Except.ok (some after)) = _
  rw [hrecor]
  change (insertReceipt alreadyRecorded (some (key, row)) recorded >>= fun after =>
    Except.ok (some after)) = _
  rw [insertReceipt_conflict hthere]
  rfl

theorem tryUpdatePageContent_conflict {update : ContentUpdate} {pageId : String} {now : Int}
    (h : tryUpdatePageContent update pageId now memoryCurrent s = .ok (some after))
    (hstor : s.receipts.lookup key = some stored) (row : OperationReceipt) :
    tryUpdatePageContent { update with receipt := some (key, row) } pageId now memoryCurrent s =
      .error (.conflict (alreadyRecorded key)) := by
  obtain ⟨_, hshape, h⟩ := bind_eq_ok h
  obtain ⟨_, hcan, h⟩ := bind_eq_ok h
  obtain ⟨_, hdraft, h⟩ := bind_eq_ok h
  have hshape' : ({ update with receipt := some (key, row) } : ContentUpdate).checkShape =
    .ok () := hshape
  unfold tryUpdatePageContent
  rw [hshape', hcan, hdraft]
  change (if update.pageGrowthGuard.isSome ∧ ¬memoryCurrent then Except.ok none
    else ({ update with receipt := some (key, row) } : ContentUpdate).landIfAdmitted pageId now
      s) = _
  split at h
  · cases h
  · rename_i hguard
    rw [if_neg hguard]
    unfold ContentUpdate.landIfAdmitted at h ⊢
    have hadm : ({ update with receipt := some (key, row) } : ContentUpdate).admits =
      update.admits := rfl
    rw [hadm]
    split at h
    · cases h
    · exact ContentUpdate.land_conflict h hstor row

/-- A write that would land is undone for the receipt that is there. -/
theorem commitContent_conflict (hgrowt : u.pageGrowth = none) {current : Page}
    (h : u.commitContent current changelog none ambient s = .ok (some after))
    (hstor : s.receipts.lookup key = some stored) (row : OperationReceipt) :
    u.commitContent current changelog (some (key, row)) ambient s =
      .error (.conflict (alreadyRecorded key)) := by
  obtain ⟨_, hsourc, h⟩ := bind_eq_ok h
  unfold PageUpdate.commitContent
  rw [hsourc, PageUpdate.contentUpdate_of_growth hgrowt]
  exact tryUpdatePageContent_conflict h hstor row

theorem acknowledge_conflict {fence : CompileFence} {pageId : String}
    (h : acknowledge fence pageId none s = .ok (some after))
    (hstor : s.receipts.lookup key = some stored) (row : OperationReceipt) :
    acknowledge fence pageId (some (key, row)) s = .error (.conflict (alreadyUsed key)) := by
  unfold acknowledge at h ⊢
  split at h
  · cases h
  · rename_i cleared hcleared
    obtain ⟨page, -, rfl⟩ := clearStale_eq_some hcleared
    have hthere : (s.setPage pageId page.compiled).receipts.lookup key = some stored := hstor
    rw [insertReceipt_conflict hthere]
    rfl

theorem acknowledgeCompile_conflict {current : Page}
    (h : u.acknowledgeCompile current none s = .ok (some after))
    (hstor : s.receipts.lookup key = some stored) (row : OperationReceipt) :
    u.acknowledgeCompile current (some (key, row)) s = .error (.conflict (alreadyUsed key)) := by
  unfold PageUpdate.acknowledgeCompile at h ⊢
  split at h
  · rename_i hfence
    exact acknowledge_conflict h hstor row
  · exact acknowledge_conflict h hstor row

theorem PageUpdate.afterError_conflict (hkey : u.key = some key) (message : String)
    (staged : Option Page) :
    u.afterError (.conflict message) staged = .replay (.conflict message) staged := by
  unfold afterError
  rw [hkey]

theorem PageUpdate.replayed_settles (key : String × String) :
    Settles sha256 u stored (u.replayed sha256 key stored) := by
  unfold Settles replayed
  by_cases hdigest : stored.requestDigest = u.digest sha256
  · rw [if_pos hdigest, if_neg (not_not.mpr hdigest)]
  · rw [if_neg hdigest, if_pos hdigest]
    exact ⟨_, rfl⟩

theorem stage_of_stored (hkey : u.key = some key)
    (hstor : s.receipts.lookup key = some stored) (current : Page) (sourceRevision : Int)
    (answer : Except WenlanError WriteResult)
    (hcan : validateCanonicalPageContent u.req.content = .ok u.req.content) :
    (u.stage sha256 ambient s current sourceRevision).1 ≠ .answered answer := by
  have hups : ∀ (card : RevisionCard) (row : OperationReceipt),
      upsertCard ambient.cardId card (some (key, row)) s =
        .error (.conflict (alreadyUsed key)) := by
    intro card row
    have hthere : ({ s with cards := s.cards.insert ambient.cardId card } :
        Store).receipts.lookup key = some stored := hstor
    unfold upsertCard
    rw [insertReceipt_conflict hthere row]
    rfl
  have hrow : ∀ row : OperationReceipt,
      u.upsertRevisionCard current sourceRevision (some (key, row)) ambient.cardId s = .ok none ∨
      u.upsertRevisionCard current sourceRevision (some (key, row)) ambient.cardId s =
        .error (.conflict (alreadyUsed key)) := by
    intro row
    unfold PageUpdate.upsertRevisionCard upsertCardAtPageFence
    split
    · split
      · exact .inr (hups _ row)
      · exact .inl rfl
    · exact .inr (hups _ row)
  have hstage : u.stageCard current sourceRevision
      (u.receipt sha256 (u.stagedResult ambient.cardId) ambient.now) ambient.cardId s =
      u.upsertRevisionCard current sourceRevision (some (key,
        { requestDigest := u.digest sha256, response := u.stagedResult ambient.cardId
          createdAt := ambient.now })) ambient.cardId s := by
    unfold PageUpdate.stageCard
    rw [hcan, receipt_of_key hkey]
    rfl
  unfold PageUpdate.stage
  dsimp only
  rw [hstage]
  obtain hnone | hconflict := hrow
    { requestDigest := u.digest sha256, response := u.stagedResult ambient.cardId
      createdAt := ambient.now }
  · rw [hnone]
    intro h
    cases h
  · rw [hconflict]
    dsimp only
    rw [PageUpdate.afterError_conflict hkey]
    intro h
    cases h

end Wenlan.Updates
