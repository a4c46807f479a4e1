import Wenlan.Briefs.Mutations

/-!
# What one delivery of an update does

A delivery is refused, answered with what is stored under its key, or performed; `Performed`
says all that a performed one leaves in the tables.
-/

namespace Wenlan.Briefs

open Pages

variable {digest : BriefUpdateRequest → String} {delivery : Delivery} {s after : BriefStore}
  {receipt : BriefUpdateReceipt} {index : Nat}

def spaceIdOf (delivery : Delivery) (s : BriefStore) : String :=
  ((s.spaces.lookup (trim delivery.request.space)).map SpaceRow.id).getD delivery.spaceId

def versionBefore (delivery : Delivery) (s : BriefStore) (itemId : String) : Option Int :=
  itemVersion s.items (spaceIdOf delivery s) itemId

def createsBrief (delivery : Delivery) (s : BriefStore) : Bool :=
  (s.briefs.lookup (spaceIdOf delivery s)).isNone

def summaryOf (delivery : Delivery) (s : BriefStore) : Summarized :=
  applySummary delivery.now (createsBrief delivery s)
    (startingBrief delivery.now (s.briefs.lookup (spaceIdOf delivery s))) delivery.request.summary

def versionAfter (delivery : Delivery) (s : BriefStore) (done : Progress) : Int :=
  finalBriefVersion (createsBrief delivery s) done.changed
    (startingBrief delivery.now (s.briefs.lookup (spaceIdOf delivery s))).version

theorem ensureSpace_eq_ok {spaces : AList fun _ : String => SpaceRow} {spaceId : String}
    {found : AList fun _ : String => SpaceRow} (hspac : s.spaces = found)
    (h : ensureSpace delivery found = .ok (spaceId, spaces)) : spaceId = spaceIdOf delivery s ∧
      ∃ row, spaces.lookup (trim delivery.request.space) = some row ∧ row.id = spaceId := by
  unfold ensureSpace at h
  unfold spaceIdOf
  rw [hspac]
  split at h
  · rename_i row hrow
    cases h
    refine ⟨?_, row, hrow, rfl⟩
    rw [hrow]
    rfl
  · rename_i hnone
    obtain ⟨_, -, h⟩ := bind_eq_ok h
    obtain ⟨_, -, h⟩ := bind_eq_ok h
    cases h
    refine ⟨?_, _, AList.lookup_insert found, rfl⟩
    rw [hnone]
    rfl

section

variable (now : Int) (created : Bool) (brief : BriefRow) (summary : Option BriefSummaryUpdate)

theorem applySummary_version :
    (applySummary now created brief summary).brief.version = brief.version := by
  cases summary with
  | none => rfl
  | some summary =>
    dsimp only [applySummary]
    split <;> split <;> rfl

theorem applySummary_applied : ∀ entry ∈ (applySummary now created brief summary).applied,
      entry.mutationIndex = none ∧ entry.itemId = none := by
  cases summary with
  | none => simp [applySummary]
  | some summary =>
    dsimp only [applySummary]
    split <;> split <;> simp

end

theorem stampSummary_mutationIndex (version : Int) (entry : BriefAppliedMutation) :
    (stampSummary version entry).mutationIndex = entry.mutationIndex := by
  unfold stampSummary
  split <;> rfl

theorem stampSummary_itemId (version : Int) (entry : BriefAppliedMutation) :
    (stampSummary version entry).itemId = entry.itemId := by
  unfold stampSummary
  split <;> rfl

theorem hasIndex_receipt {summarized added : List BriefAppliedMutation} (version : Int)
    (hsum : ∀ entry ∈ summarized, entry.mutationIndex = none ∧ entry.itemId = none) :
    hasIndex ((summarized ++ added).map (stampSummary version)) index = hasIndex added index := by
  have hnone : hasIndex summarized index = false := by
    rw [Bool.eq_false_iff, ne_eq, hasIndex_iff]
    rintro ⟨entry, hentry, hindex⟩
    rw [(hsum entry hentry).1] at hindex
    cases hindex
  have hstamp : hasIndex ((summarized ++ added).map (stampSummary version)) index =
      hasIndex (summarized ++ added) index := by
    unfold hasIndex
    rw [List.any_map]
    congr 1
    funext entry
    rw [Function.comp_apply, stampSummary_mutationIndex]
  rw [hstamp, hasIndex_append, hnone, Bool.false_or]

/-! ## A performed request -/

structure Performed (digest : BriefUpdateRequest → String) (delivery : Delivery) (s : BriefStore)
    (receipt : BriefUpdateReceipt) (after : BriefStore) : Prop where
  fresh : s.receipts.lookup delivery.key = none
  receipts : after.receipts = s.receipts.insert delivery.key
    { requestDigest := digest delivery.request, response := receipt, createdAt := delivery.now }
  /-- A mutation of an item is applied exactly when it expects the version before the request
  and no earlier mutation of the request has completed the item. -/
  targets : (∀ i, s.items.lookup (delivery.itemIds i) = none) →
    ∀ i mutation id expected, delivery.request.mutations[i]? = some mutation →
      mutation.target = some (id, expected) →
      (hasIndex receipt.applied i = true ↔ versionBefore delivery s id = some expected ∧
        ∀ j < i, ¬completes delivery.request.mutations receipt.applied 0 j id)
  /-- The items are what the applied mutations make of them. -/
  items : ∀ id, after.items.lookup id =
    effects delivery.now (spaceIdOf delivery s) delivery.itemIds receipt.applied id 0
      delivery.request.mutations (s.items.lookup id)
  unnamed : ∀ id, (∀ entry ∈ receipt.applied, entry.itemId ≠ some id) →
    after.items.lookup id = s.items.lookup id
  version : ∀ brief, s.briefs.lookup (spaceIdOf delivery s) = some brief →
    ∃ updated, after.briefs.lookup (spaceIdOf delivery s) = some updated ∧
      updated.version = brief.version + (if receipt.applied.isEmpty then 0 else 1)
  otherBriefs : ∀ id ≠ spaceIdOf delivery s, after.briefs.lookup id = s.briefs.lookup id
  history : receipt.applied = [] ∧ after.history = s.history ∨
    ∃ snapshot, readBrief after (trim delivery.request.space) = some snapshot ∧
      snapshot.spaceId = spaceIdOf delivery s ∧ snapshot.version = receipt.briefVersion ∧
      s.history.lookup (spaceIdOf delivery s, receipt.briefVersion) = none ∧
      after.history = s.history.insert (spaceIdOf delivery s, receipt.briefVersion)
        { createdAt := delivery.now, callerId := delivery.request.callerId
          operationId := delivery.request.operationId, summary := snapshot.lastSessionSummary
          mutations := receipt.applied, snapshot }

theorem tracked_start (items : AList fun _ : String => BriefItemRow) (spaceId : String)
    (applied : List BriefAppliedMutation) (conflicts : List BriefMutationConflict)
    (changed : Bool) : Tracked spaceId (itemVersion items spaceId) (fun _ => False)
      { items, applied, conflicts, changed } := by
  intro id version h
  obtain ⟨row, hrow, -⟩ := Option.map_eq_some_iff.mp h
  have hpres := (filter_present items spaceId id row).mp hrow
  exact iff_of_true ⟨row, hpres⟩ not_false

variable {items : AList fun _ : String => BriefItemRow}

theorem itemVersion_of_none {spaceId id : String}
    (h : items.lookup id = none) : itemVersion items spaceId id = none := by
  unfold itemVersion
  rw [h]
  rfl

theorem isEmpty_receipt {summarized added : List BriefAppliedMutation} (version : Int) :
    ((summarized ++ added).map (stampSummary version)).isEmpty =
      (summarized.isEmpty && added.isEmpty) := by
  rw [List.isEmpty_map]
  cases summarized <;> rfl

theorem recordHistory_eq_ok {spaceId : String}
    {history : AList fun _ : String × Int => BriefHistoryRow}
    (h : recordHistory delivery spaceId receipt s = .ok history) :
    receipt.applied = [] ∧ history = s.history ∨
      ∃ snapshot, readBrief s (trim delivery.request.space) = some snapshot ∧
        s.history.lookup (spaceId, receipt.briefVersion) = none ∧
        history = s.history.insert (spaceId, receipt.briefVersion)
          { createdAt := delivery.now, callerId := delivery.request.callerId
            operationId := delivery.request.operationId, summary := snapshot.lastSessionSummary
            mutations := receipt.applied, snapshot } := by
  unfold recordHistory at h
  split at h
  · rename_i hempty
    exact .inl ⟨List.isEmpty_iff.mp hempty, (Except.ok.inj h).symm⟩
  · split at h
    · cases h
    · rename_i snapshot hsnaps
      split at h
      · rename_i hfree
        exact .inr ⟨snapshot, hsnaps, hfree, (Except.ok.inj h).symm⟩
      · cases h

theorem readBrief_congr {t : BriefStore} (space : String) (hspac : t.spaces = s.spaces)
    (hbrie : t.briefs = s.briefs) (hitems : t.items = s.items) :
    readBrief t space = readBrief s space := by
  unfold readBrief
  rw [hspac, hbrie, hitems]

theorem readBrief_eq {space : String} {row : SpaceRow} {brief : BriefRow} {snapshot : Brief}
    (hrow : s.spaces.lookup space = some row) (hbrief : s.briefs.lookup row.id = some brief)
    (h : readBrief s space = some snapshot) :
    snapshot.spaceId = row.id ∧ snapshot.version = brief.version := by
  unfold readBrief at h
  rw [hrow] at h
  change ((s.briefs.lookup row.id).bind fun brief => some _) = some snapshot at h
  rw [hbrief] at h
  rw [← Option.some.inj h]
  exact ⟨rfl, rfl⟩

theorem finishBrief_version {now starting : Int} {created changed : Bool} {brief : BriefRow}
    (h : brief.version = starting) :
    (finishBrief now (finalBriefVersion created changed starting) changed brief).version =
      finalBriefVersion created changed starting := by
  cases changed with
  | true => rfl
  | false => exact h

theorem completes_congr {mutations : List BriefMutation}
    {applied other : List BriefAppliedMutation} {base : Nat} {id : String}
    (h : ∀ i, hasIndex applied i = hasIndex other i) :
    completes mutations applied base index id ↔ completes mutations other base index id := by
  unfold completes
  rw [h]

structure MutationsDone (delivery : Delivery) (spaceId : String) (summarized : Summarized)
    (created : Bool) (items : AList fun _ : String => BriefItemRow)
    (added : List BriefAppliedMutation) (done : Progress) : Prop where
  applied : done.applied = summarized.applied ++ added
  changed : done.changed = (created || !summarized.applied.isEmpty || !added.isEmpty)
  unnamed : ∀ id, (∀ entry ∈ added, entry.itemId ≠ some id) → done.items.lookup id = items.lookup id
  targets : (∀ i, items.lookup (delivery.itemIds i) = none) →
    ∀ i mutation id expected, delivery.request.mutations[i]? = some mutation →
      mutation.target = some (id, expected) →
      (hasIndex added i = true ↔ itemVersion items spaceId id = some expected ∧
        ∀ j < i, ¬completes delivery.request.mutations added 0 j id)
  effects : ∀ id, done.items.lookup id =
    effects delivery.now spaceId delivery.itemIds added id 0 delivery.request.mutations
      (items.lookup id)

theorem mutateBrief_done {spaceId : String} {summarized : Summarized} {created : Bool}
    {done : Progress}
    (h : mutateBrief delivery spaceId summarized created items = .ok done) :
    ∃ added, MutationsDone delivery spaceId summarized created items added done := by
  obtain ⟨added, hadded⟩ := applyMutations_recorded h
  refine ⟨added, hadded.applied, hadded.changed, hadded.unchanged, ?_, ?_⟩
  · intro hfresh i mutation id expected hi htarget
    have hnew : ∀ i, itemVersion items spaceId (delivery.itemIds i) = none := fun i =>
      itemVersion_of_none (hfresh i)
    have htrack := tracked_start items spaceId summarized.applied summarized.conflicts
      (created || !summarized.applied.isEmpty)
    obtain ⟨same, hsame, -, htarg⟩ := applyMutations_target hnew htrack h
    obtain rfl := List.append_cancel_left (hadded.applied.symm.trans hsame)
    have hiff := htarg i mutation id expected hi htarget
    rw [Nat.zero_add] at hiff
    rw [hiff]
    exact and_congr_right fun _ => and_iff_right not_false
  · obtain ⟨same, hsame, -, heff⟩ := applyMutations_effects h
    obtain rfl := List.append_cancel_left (hadded.applied.symm.trans hsame)
    exact heff

theorem performUpdate_eq_ok (h : performUpdate digest delivery s = .ok (receipt, after)) :
    ∃ spaces done history, (∃ row, spaces.lookup (trim delivery.request.space) = some row ∧
        row.id = spaceIdOf delivery s) ∧
      mutateBrief delivery (spaceIdOf delivery s) (summaryOf delivery s) (createsBrief delivery s)
        s.items = .ok done ∧
      receipt = receiptOf delivery.request (versionAfter delivery s done) done ∧
      recordHistory delivery (spaceIdOf delivery s) receipt
        (updateTables delivery (spaceIdOf delivery s) spaces (summaryOf delivery s)
          (versionAfter delivery s done) done s) = .ok history ∧
      after = { updateTables delivery (spaceIdOf delivery s) spaces (summaryOf delivery s)
            (versionAfter delivery s done) done s with
          history
          receipts := s.receipts.insert delivery.key
            { requestDigest := digest delivery.request, response := receipt
              createdAt := delivery.now } } := by
  obtain ⟨⟨spaceId, spaces⟩, hspace, h⟩ := bind_eq_ok h
  obtain ⟨done, hdone, h⟩ := bind_eq_ok h
  obtain ⟨history, hhist, h⟩ := bind_eq_ok h
  obtain ⟨hrec, hafter⟩ := Prod.mk.inj (Except.ok.inj h)
  obtain ⟨hid, hrow⟩ := ensureSpace_eq_ok rfl hspace
  subst hrec
  subst hid
  exact ⟨spaces, done, history, hrow, hdone, rfl, hhist, hafter.symm⟩

theorem performUpdate_performed (hfresh : s.receipts.lookup delivery.key = none)
    (h : performUpdate digest delivery s = .ok (receipt, after)) :
    Performed digest delivery s receipt after := by
  obtain ⟨spaces, done, history, ⟨row, hrow, hrowId⟩, hdone, hrec, hhist, hafter⟩ :=
    performUpdate_eq_ok h
  obtain ⟨added, hadded⟩ := mutateBrief_done hdone
  have hsum : ∀ entry ∈ (summaryOf delivery s).applied,
      entry.mutationIndex = none ∧ entry.itemId = none := applySummary_applied _ _ _ _
  have happ : receipt.applied = ((summaryOf delivery s).applied ++ added).map
      (stampSummary (versionAfter delivery s done)) := by
    rw [hrec, ← hadded.applied]
    rfl
  have hindex : ∀ i, hasIndex receipt.applied i = hasIndex added i := fun i => by
    rw [happ, hasIndex_receipt _ hsum]
  have hitems : after.items = done.items := by
    rw [hafter]
    rfl
  have hbrie : after.briefs = s.briefs.insert (spaceIdOf delivery s)
      (finishBrief delivery.now (versionAfter delivery s done) done.changed
        (summaryOf delivery s).brief) := by
    rw [hafter]
    rfl
  have hvers : (finishBrief delivery.now (versionAfter delivery s done) done.changed
      (summaryOf delivery s).brief).version = versionAfter delivery s done :=
    finishBrief_version (applySummary_version _ _ _ _)
  have hchang : done.changed = (createsBrief delivery s || !receipt.applied.isEmpty) := by
    rw [hadded.changed, happ, isEmpty_receipt, Bool.not_and, Bool.or_assoc]
  refine ⟨hfresh, ?_, ?_, ?_, ?_, ?_, ?_, ?_⟩
  · rw [hafter]
  · intro hnew i mutation id expected hi htarget
    rw [hindex, hadded.targets hnew i mutation id expected hi htarget]
    have hcompl : ∀ j, completes delivery.request.mutations receipt.applied 0 j id ↔
        completes delivery.request.mutations added 0 j id := fun j => completes_congr hindex
    simp only [hcompl]
    rfl
  · intro id
    rw [hitems, hadded.effects id]
    exact effects_congr fun i _ => (hindex i).symm
  · intro id hid
    rw [hitems]
    refine hadded.unnamed id fun entry hentry => ?_
    have hmem : stampSummary (versionAfter delivery s done) entry ∈ receipt.applied := by
      rw [happ]
      exact List.mem_map_of_mem (List.mem_append_right _ hentry)
    have hne := hid _ hmem
    rwa [stampSummary_itemId] at hne
  · intro brief hbrief
    refine ⟨_, by rw [hbrie, AList.lookup_insert], ?_⟩
    have hcreat : createsBrief delivery s = false := by
      unfold createsBrief
      rw [hbrief]
      rfl
    rw [hvers, versionAfter, hchang, hcreat, hbrief]
    cases receipt.applied.isEmpty <;> simp [finalBriefVersion, startingBrief]
  · intro id hid
    rw [hbrie, AList.lookup_insert_ne hid]
  · obtain ⟨hempty, hsame⟩ | ⟨snapshot, hsnaps, hfree, hins⟩ := recordHistory_eq_ok hhist
    · refine .inl ⟨hempty, ?_⟩
      rw [hafter]
      exact hsame
    · have hread : readBrief after (trim delivery.request.space) = some snapshot := by
        rw [← hsnaps, hafter]
        exact readBrief_congr _ rfl rfl rfl
      have hspac : after.spaces.lookup (trim delivery.request.space) = some row := by
        rw [hafter]
        exact hrow
      have hbrief : after.briefs.lookup row.id =
          some (finishBrief delivery.now (versionAfter delivery s done) done.changed
            (summaryOf delivery s).brief) := by
        rw [hrowId, hbrie, AList.lookup_insert]
      obtain ⟨hspaceI, hbriefV⟩ := readBrief_eq hspac hbrief hread
      refine .inr ⟨snapshot, hread, hspaceI.trans hrowId, ?_, hfree, ?_⟩
      · rw [hbriefV, hvers, hrec]
        rfl
      · rw [hafter]
        exact hins

inductive Answered (digest : BriefUpdateRequest → String) (delivery : Delivery) (s : BriefStore) :
    Except WenlanError BriefUpdateReceipt → BriefStore → Prop where
  | refused (error : WenlanError) : Answered digest delivery s (.error error) s
  | replayed (stored : OperationReceipt)
      (hstored : s.receipts.lookup delivery.key = some stored)
      (hdigest : stored.requestDigest = digest delivery.request) :
      Answered digest delivery s (.ok stored.response) s
  | performed (receipt : BriefUpdateReceipt) (after : BriefStore)
      (h : Performed digest delivery s receipt after) :
      Answered digest delivery s (.ok receipt) after

theorem applyBriefUpdate_answered (digest : BriefUpdateRequest → String) (delivery : Delivery)
    (s : BriefStore) : Answered digest delivery s (applyBriefUpdate digest delivery s).1
      (applyBriefUpdate digest delivery s).2 := by
  unfold applyBriefUpdate
  split
  · exact .refused _
  · split
    · rename_i stored hstored
      split
      · exact .refused _
      · rename_i hdigest
        exact .replayed stored hstored (not_not.mp hdigest)
    · rename_i hfresh
      split
      · rename_i receipt after hperform
        exact .performed receipt after (performUpdate_performed hfresh hperform)
      · exact .refused _

/-- A key that has a receipt is answered from it, and nothing changes. -/
theorem applyBriefUpdate_received (digest : BriefUpdateRequest → String) (delivery : Delivery)
    {stored : OperationReceipt} (hstored : s.receipts.lookup delivery.key = some stored) :
    (applyBriefUpdate digest delivery s).2 = s ∧ (validateUpdateRequest delivery.request = .ok () →
        (applyBriefUpdate digest delivery s).1 =
          if stored.requestDigest = digest delivery.request then .ok stored.response
          else .error (alreadyUsed delivery.request)) := by
  unfold applyBriefUpdate
  split
  · rename_i error herror
    refine ⟨rfl, fun hvalid => ?_⟩
    cases herror.symm.trans hvalid
  · rw [hstored]
    by_cases hdigest : stored.requestDigest = digest delivery.request
    · simp [hdigest]
    · simp [hdigest]

/-- What is answered well leaves its receipt. -/
theorem applyBriefUpdate_ok (h : (applyBriefUpdate digest delivery s).1 = .ok receipt) :
    validateUpdateRequest delivery.request = .ok () ∧
      ∃ stored, (applyBriefUpdate digest delivery s).2.receipts.lookup delivery.key = some stored ∧
        stored.requestDigest = digest delivery.request ∧ stored.response = receipt := by
  have hvalid : validateUpdateRequest delivery.request = .ok () := by
    unfold applyBriefUpdate at h
    split at h
    · cases h
    · assumption
  refine ⟨hvalid, ?_⟩
  have hansw := applyBriefUpdate_answered digest delivery s
  rw [h] at hansw
  generalize (applyBriefUpdate digest delivery s).2 = after at hansw
  cases hansw with
  | replayed stored hstored hdigest => exact ⟨stored, hstored, hdigest, rfl⟩
  | performed _ _ hperformed =>
    rw [hperformed.receipts, AList.lookup_insert]
    exact ⟨_, rfl, rfl, rfl⟩

end Wenlan.Briefs
