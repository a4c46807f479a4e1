import Wenlan.Briefs.Requests

/-!
# Brief updates over a run

Deliveries come in any order and as often as they like; what one of them was answered stands for
all that come later under its key.
-/

namespace Wenlan.Briefs

open Pages

variable {digest : BriefUpdateRequest → String} {delivery later : Delivery} {s start : BriefStore}
  {receipt : BriefUpdateReceipt} {before between deliveries : List Delivery}

theorem applyAll_append (digest : BriefUpdateRequest → String) (s : BriefStore)
    (before after : List Delivery) :
    applyAll digest s (before ++ after) = applyAll digest (applyAll digest s before) after :=
  List.foldl_append

theorem applyAll_cons (digest : BriefUpdateRequest → String) (s : BriefStore)
    (delivery : Delivery) (deliveries : List Delivery) :
    applyAll digest s (delivery :: deliveries) =
      applyAll digest (applyBriefUpdate digest delivery s).2 deliveries :=
  rfl

section

variable {key : String × String} {stored : OperationReceipt}
  (h : s.receipts.lookup key = some stored)
include h

/-- A receipt is never replaced. -/
theorem applyBriefUpdate_receipt :
    (applyBriefUpdate digest delivery s).2.receipts.lookup key = some stored := by
  have hansw := applyBriefUpdate_answered digest delivery s
  generalize (applyBriefUpdate digest delivery s).1 = answer at hansw
  generalize (applyBriefUpdate digest delivery s).2 = after at hansw
  cases hansw with
  | refused error => exact h
  | replayed _ _ _ => exact h
  | performed _ _ hperf =>
    have hne : key ≠ delivery.key := by
      intro heq
      rw [heq, hperf.fresh] at h
      cases h
    rw [hperf.receipts, AList.lookup_insert_ne hne]
    exact h

theorem applyAll_receipt : (applyAll digest s deliveries).receipts.lookup key = some stored := by
  induction deliveries generalizing s with
  | nil => exact h
  | cons delivery deliveries ih =>
    rw [applyAll_cons]
    exact ih (applyBriefUpdate_receipt h)

end

/-- The row of history was written by one of the deliveries, with the Brief as it stood right
after it. -/
def RecordedBy (digest : BriefUpdateRequest → String) (start : BriefStore)
    (deliveries : List Delivery) (key : String × Int) (row : BriefHistoryRow) : Prop :=
  ∃ before delivery later, deliveries = before ++ delivery :: later ∧
    (row.callerId, row.operationId) = delivery.key ∧
    readBrief (applyAll digest start (before ++ [delivery])) (trim delivery.request.space) =
      some row.snapshot ∧
    (row.snapshot.spaceId, row.snapshot.version) = key

theorem RecordedBy.snoc {key : String × Int} {row : BriefHistoryRow}
    (h : RecordedBy digest start deliveries key row) :
    RecordedBy digest start (deliveries ++ [delivery]) key row := by
  obtain ⟨before, recorded, later, rfl, hkey, hread, hvers⟩ := h
  refine ⟨before, recorded, later ++ [delivery], ?_, hkey, hread, hvers⟩
  rw [List.append_assoc, List.cons_append]

theorem applyAll_history {key : String × Int} {row : BriefHistoryRow}
    (h : (applyAll digest start deliveries).history.lookup key = some row) :
    start.history.lookup key = some row ∨ RecordedBy digest start deliveries key row := by
  induction deliveries using List.reverseRecOn with
  | nil => exact .inl h
  | append_singleton before delivery ih =>
    have hlast : applyAll digest start (before ++ [delivery]) =
        (applyBriefUpdate digest delivery (applyAll digest start before)).2 :=
      applyAll_append digest start before [delivery]
    have hansw := applyBriefUpdate_answered digest delivery (applyAll digest start before)
    rw [← hlast] at hansw
    have hkept : (applyAll digest start before).history.lookup key = some row →
        start.history.lookup key = some row ∨
          RecordedBy digest start (before ++ [delivery]) key row := fun hold =>
      (ih hold).imp_right RecordedBy.snoc
    generalize hafter : applyAll digest start (before ++ [delivery]) = after at h hansw
    generalize (applyBriefUpdate digest delivery (applyAll digest start before)).1 = answer
      at hansw
    cases hansw with
    | refused error => exact hkept h
    | replayed _ _ _ => exact hkept h
    | performed receipt _ hperf =>
      obtain ⟨-, hsame⟩ | ⟨snapshot, hread, hspace, hvers, -, hins⟩ :=
        hperf.history
      · rw [hsame] at h
        exact hkept h
      · rw [hins] at h
        by_cases hkey : key = (spaceIdOf delivery (applyAll digest start before),
            receipt.briefVersion)
        · rw [hkey, AList.lookup_insert] at h
          refine .inr ⟨before, delivery, [], rfl, ?_, ?_, ?_⟩
          · rw [← Option.some.inj h]
            rfl
          · rw [hafter, ← Option.some.inj h]
            exact hread
          · rw [← Option.some.inj h, hkey, ← hspace, ← hvers]
        · rw [AList.lookup_insert_ne hkey] at h
          exact hkept h

/-- Whatever comes under the key of a delivery that was answered well changes nothing, and the
same request is answered in the same way. -/
def SettledBy (digest : BriefUpdateRequest → String) (start : BriefStore)
    (before : List Delivery) (delivery : Delivery) (receipt : BriefUpdateReceipt) : Prop :=
  ∀ between later, later.key = delivery.key →
    (applyBriefUpdate digest later (applyAll digest start (before ++ delivery :: between))).2 =
        applyAll digest start (before ++ delivery :: between) ∧
      (later.request = delivery.request → (applyBriefUpdate digest later
          (applyAll digest start (before ++ delivery :: between))).1 = .ok receipt) ∧
      (digest later.request ≠ digest delivery.request → ∃ error, (applyBriefUpdate digest later
          (applyAll digest start (before ++ delivery :: between))).1 = .error error)

theorem settledBy_of_ok
    (h : (applyBriefUpdate digest delivery (applyAll digest start before)).1 = .ok receipt) :
    SettledBy digest start before delivery receipt := by
  intro between later hkey
  obtain ⟨hvalid, stored, hstor, hdig, hresp⟩ := applyBriefUpdate_ok h
  have hthere : (applyAll digest start (before ++ delivery :: between)).receipts.lookup later.key =
      some stored := by
    rw [applyAll_append, applyAll_cons, hkey]
    exact applyAll_receipt hstor
  obtain ⟨hsame, hanswe⟩ := applyBriefUpdate_received digest later hthere
  refine ⟨hsame, ?_, ?_⟩
  · intro hreq
    rw [hanswe (by rw [hreq]; exact hvalid), hreq, if_pos hdig, hresp]
  · intro hother
    cases hvalidLater : validateUpdateRequest later.request with
    | error error =>
      refine ⟨error, ?_⟩
      unfold applyBriefUpdate
      rw [hvalidLater]
    | ok _ =>
      rw [hanswe hvalidLater, hdig, if_neg (Ne.symm hother)]
      exact ⟨_, rfl⟩

def replayStart : BriefStore where
  spaces := ∅
  briefs := ∅
  items := ∅
  receipts := ∅
  history := ∅

def replayDigest (request : BriefUpdateRequest) : String :=
  request.space ++ toString request.mutations.length

def replayRequest (operationId : String) (mutations : List BriefMutation) : BriefUpdateRequest where
  space := "work"
  callerId := "cli"
  operationId
  summary := none
  mutations

def replayDelivery (operationId itemId : String) (mutations : List BriefMutation) : Delivery where
  request := replayRequest operationId mutations
  now := 100
  spaceId := "space"
  itemIds index := itemId ++ toString index

def replayAdd : Delivery := replayDelivery "op1" "a" [.add "Ship it" .active none none]

/-- Two changes of one item on the version they both saw, then one that comes too late. -/
def replayComplete : Delivery :=
  replayDelivery "op2" "b" [.edit "a0" 1 "Ship it now", .complete "a0" 1, .move "a0" 1 .backlog]

end Wenlan.Briefs
