import Wenlan.Pages.Drafts

/-!
# The tables of Briefs

The rows of `db/brief.rs` and the requests that `apply_brief_update` takes.  A table is a map
from its primary key, and what is stored as JSON is stored as the value.
-/

namespace Wenlan.Briefs

open Pages

inductive BriefItemState where
  | active
  | backlog
  deriving DecidableEq

structure BriefSummaryUpdate where
  text : String
  expectedVersion : Int
  deriving DecidableEq

inductive BriefMutation where
  | add (text : String) (state : BriefItemState) (addedAt : Option Int) (gate : Option String)
  | edit (itemId : String) (expectedVersion : Int) (text : String)
  | move (itemId : String) (expectedVersion : Int) (state : BriefItemState)
  | setGate (itemId : String) (expectedVersion : Int) (gate : Option String)
  | complete (itemId : String) (expectedVersion : Int)
  deriving DecidableEq

structure BriefUpdateRequest where
  space : String
  callerId : String
  operationId : String
  summary : Option BriefSummaryUpdate
  mutations : List BriefMutation
  deriving DecidableEq

inductive BriefMutationKind where
  | summary
  | add
  | edit
  | move
  | setGate
  | complete
  deriving DecidableEq

def BriefMutation.kind : BriefMutation → BriefMutationKind
  | .add _ _ _ _ => .add
  | .edit _ _ _ => .edit
  | .move _ _ _ => .move
  | .setGate _ _ _ => .setGate
  | .complete _ _ => .complete

def BriefMutation.target : BriefMutation → Option (String × Int)
  | .add _ _ _ _ => none
  | .edit itemId expected _ | .move itemId expected _ | .setGate itemId expected _
  | .complete itemId expected => some (itemId, expected)

def BriefMutation.itemId (mutation : BriefMutation) : Option String :=
  mutation.target.map Prod.fst

structure BriefAppliedMutation where
  mutationIndex : Option Nat
  kind : BriefMutationKind
  itemId : Option String
  version : Option Int
  deriving DecidableEq

inductive BriefConflictReason where
  | briefVersionMismatch
  | versionMismatch
  | itemNotFound
  deriving DecidableEq

structure BriefMutationConflict where
  mutationIndex : Option Nat
  itemId : Option String
  reason : BriefConflictReason
  currentVersion : Option Int
  deriving DecidableEq

structure BriefUpdateReceipt where
  space : String
  briefVersion : Int
  applied : List BriefAppliedMutation
  conflicts : List BriefMutationConflict
  projectionPath : Option String
  warnings : List String
  deriving DecidableEq

structure SpaceRow where
  id : String
  sortOrder : Int
  createdAt : Int

structure BriefRow where
  lastSessionSummary : String
  lastHandoffAt : Option Int
  version : Int
  updatedAt : Int

structure BriefItemRow where
  spaceId : String
  text : String
  state : BriefItemState
  addedAt : Int
  gate : Option String
  version : Int
  updatedAt : Int

structure BriefItem where
  id : String
  text : String
  state : BriefItemState
  addedAt : Int
  gate : Option String
  version : Int

structure Brief where
  spaceId : String
  space : String
  lastSessionSummary : String
  lastHandoffAt : Option Int
  version : Int
  active : List BriefItem
  backlog : List BriefItem

structure OperationReceipt where
  requestDigest : String
  response : BriefUpdateReceipt
  createdAt : Int

structure BriefHistoryRow where
  createdAt : Int
  callerId : String
  operationId : String
  summary : String
  mutations : List BriefAppliedMutation
  snapshot : Brief

/-- `spaces` are by their names, `briefs` by the ids of their spaces, `receipts` by caller and
operation, `history` by space and version. -/
structure BriefStore where
  spaces : AList fun _ : String => SpaceRow
  briefs : AList fun _ : String => BriefRow
  items : AList fun _ : String => BriefItemRow
  receipts : AList fun _ : String × String => OperationReceipt
  history : AList fun _ : String × Int => BriefHistoryRow

def itemVersion (items : AList fun _ : String => BriefItemRow) (spaceId itemId : String) :
    Option Int :=
  ((items.lookup itemId).filter fun row => row.spaceId == spaceId).map BriefItemRow.version

/-- Items of one state by the time they were added, then by their ids. -/
def BriefItem.before (a b : BriefItem) : Bool :=
  decide (a.addedAt < b.addedAt) || (decide (a.addedAt = b.addedAt) && decide (a.id ≤ b.id))

def itemsOf (items : AList fun _ : String => BriefItemRow) (spaceId : String)
    (state : BriefItemState) : List BriefItem :=
  (items.entries.filterMap fun entry =>
    if entry.2.spaceId = spaceId ∧ entry.2.state = state then
      some
        { id := entry.1, text := entry.2.text, state, addedAt := entry.2.addedAt
          gate := entry.2.gate, version := entry.2.version }
    else none).insertionSort fun a b => a.before b

def readBrief (s : BriefStore) (space : String) : Option Brief := do
  let row ← s.spaces.lookup space
  let brief ← s.briefs.lookup row.id
  return {
    spaceId := row.id
    space
    lastSessionSummary := brief.lastSessionSummary
    lastHandoffAt := brief.lastHandoffAt
    version := brief.version
    active := itemsOf s.items row.id .active
    backlog := itemsOf s.items row.id .backlog }

end Wenlan.Briefs

/-!
## Updating a Brief

`apply_brief_update` as one transaction: a request either commits with its receipt or leaves the
tables as they are.
-/

namespace Wenlan.Briefs

open Pages

def emptyItemText : WenlanError := .validation "brief item text must not be empty"

def expectedVersionNotPositive : WenlanError :=
  .validation "brief item expected_version must be positive"

def validateMutation : BriefMutation → Except WenlanError Unit
  | .add text _ addedAt _ => do
    refuseIf (trim text = "") emptyItemText
    refuseIf (∃ value ∈ addedAt, value ≤ 0) (.validation "brief item added_at must be positive")
  | .edit _ expected text => do
    refuseIf (trim text = "") emptyItemText
    refuseIf (expected < 1) expectedVersionNotPositive
  | .move _ expected _ | .setGate _ expected _ | .complete _ expected =>
    refuseIf (expected < 1) expectedVersionNotPositive

def validateSummary : Option BriefSummaryUpdate → Except WenlanError Unit
  | none => .ok ()
  | some summary => do
    refuseIf (trim summary.text = "") (.validation "brief summary must not be empty")
    refuseIf (summary.expectedVersion < 0)
      (.validation "brief summary expected_version must be non-negative")

def validateUpdateRequest (request : BriefUpdateRequest) : Except WenlanError Unit := do
  refuseIf (trim request.space = "") (.validation "brief update requires a non-empty space")
  refuseIf (trim request.callerId = "" ∨ trim request.operationId = "")
    (.validation "brief update requires caller_id and operation_id")
  validateSummary request.summary
  request.mutations.forM validateMutation

def unfiledSpaceId : String := "00000000-0000-4000-8000-000000000001"

def wholeLibraryScope : String := "*"

def rejectReservedSpaceName (name : String) : Except WenlanError Unit := do
  refuseIf (trim name = unfiledSpaceId) (.validation
    ("space name \"" ++ unfiledSpaceId ++ "\" is reserved for the uncategorized sentinel"))
  refuseIf (trim name = wholeLibraryScope) (.validation
    ("space name \"" ++ wholeLibraryScope ++ "\" is reserved for whole-library web access"))

/-- `CHECK(length(trim(text)) > 0)`: only blanks are trimmed, and a text ends at a NUL. -/
def storableText (text : String) : Bool :=
  ((text.toList.dropWhile fun c => c == ' ').head?).any fun c => c != Char.ofNat 0

structure Delivery where
  request : BriefUpdateRequest
  now : Int
  spaceId : String
  itemIds : Nat → String

def Delivery.key (delivery : Delivery) : String × String :=
  (delivery.request.callerId, delivery.request.operationId)

def gateText (gate : Option String) : Option String :=
  (gate.map trim).filter fun value => value != ""

def BriefMutation.change (now : Int) : BriefMutation → BriefItemRow → Option BriefItemRow
  | .add _ _ _ _, row => some row
  | .edit _ _ text, row =>
    some { row with text := trim text, version := row.version + 1, updatedAt := now }
  | .move _ _ state, row => some { row with state, version := row.version + 1, updatedAt := now }
  | .setGate _ _ gate, row =>
    some { row with gate := gateText gate, version := row.version + 1, updatedAt := now }
  | .complete _ _, _ => none

def BriefMutation.storable : BriefMutation → Bool
  | .add text _ _ _ | .edit _ _ text => storableText (trim text)
  | _ => true

structure Progress where
  items : AList fun _ : String => BriefItemRow
  applied : List BriefAppliedMutation
  conflicts : List BriefMutationConflict
  changed : Bool

def itemConflict (index : Nat) (itemId : String) (currentVersion : Option Int) :
    BriefMutationConflict where
  mutationIndex := some index
  itemId := some itemId
  reason := if currentVersion.isSome then .versionMismatch else .itemNotFound
  currentVersion

def Progress.conflict (p : Progress) (conflict : BriefMutationConflict) : Progress :=
  { p with conflicts := p.conflicts ++ [conflict] }

def Progress.apply (p : Progress) (items : AList fun _ : String => BriefItemRow)
    (applied : BriefAppliedMutation) : Progress :=
  { p with items, applied := p.applied ++ [applied], changed := true }

def replaceItem (items : AList fun _ : String => BriefItemRow) (itemId : String) :
    Option BriefItemRow → AList fun _ : String => BriefItemRow
  | some row => items.insert itemId row
  | none => items.erase itemId

section Apply

variable (now : Int) (spaceId : String) (snapshot : String → Option Int)

/-- A mutation of an item compares with the version before the request; what it finds then may
be what an earlier mutation has left. -/
def mutateItem (index : Nat) (mutation : BriefMutation) (itemId : String) (expected : Int)
    (p : Progress) : Except WenlanError Progress :=
  if snapshot itemId ≠ some expected then
    .ok (p.conflict (itemConflict index itemId (snapshot itemId)))
  else
    match (p.items.lookup itemId).filter fun row => row.spaceId == spaceId with
    | none => .ok (p.conflict (itemConflict index itemId none))
    | some row =>
      if mutation.storable then
        let items := replaceItem p.items itemId (mutation.change now row)
        .ok (p.apply items
          { mutationIndex := some index, kind := mutation.kind, itemId := some itemId
            version := itemVersion items spaceId itemId })
      else .error (.vectorDb "brief edit item")

def addItem (index : Nat) (newId text : String) (state : BriefItemState)
    (addedAt : Option Int) (gate : Option String) (p : Progress) : Except WenlanError Progress :=
  if p.items.lookup newId = none ∧ storableText (trim text) then
    .ok (p.apply
      (p.items.insert newId
        { spaceId, text := trim text, state, addedAt := addedAt.getD now, gate := gateText gate
          version := 1, updatedAt := now })
      { mutationIndex := some index, kind := .add, itemId := some newId, version := some 1 })
  else .error (.vectorDb "brief add item")

def applyMutation (newId : String) (index : Nat) (mutation : BriefMutation) (p : Progress) :
    Except WenlanError Progress :=
  match mutation with
  | .add text state addedAt gate => addItem now spaceId index newId text state addedAt gate p
  | .edit itemId expected _ | .move itemId expected _ | .setGate itemId expected _
  | .complete itemId expected => mutateItem now spaceId snapshot index mutation itemId expected p

def applyMutations (newIds : Nat → String) :
    Nat → List BriefMutation → Progress → Except WenlanError Progress
  | _, [], p => .ok p
  | index, mutation :: rest, p => do
    let p ← applyMutation now spaceId snapshot (newIds index) index mutation p
    applyMutations newIds (index + 1) rest p

end Apply

/-! ## The update -/

/-- `MAX(sort_order) + 1` -/
def nextSortOrder (spaces : AList fun _ : String => SpaceRow) : Int :=
  spaces.entries.foldl (fun order entry => max order (entry.2.sortOrder + 1)) 0

/-- The id of the space, which is made when there is none of the name. -/
def ensureSpace (delivery : Delivery) (spaces : AList fun _ : String => SpaceRow) :
    Except WenlanError (String × AList fun _ : String => SpaceRow) :=
  match spaces.lookup (trim delivery.request.space) with
  | some row => .ok (row.id, spaces)
  | none => do
    rejectReservedSpaceName delivery.request.space
    refuseIf (spaces.entries.any fun entry => entry.2.id == delivery.spaceId)
      (.vectorDb "brief create space")
    return (delivery.spaceId, spaces.insert (trim delivery.request.space)
      { id := delivery.spaceId, sortOrder := nextSortOrder spaces, createdAt := delivery.now })

/-- The outcome of the summary: the Brief, what was applied, and what was not. -/
structure Summarized where
  brief : BriefRow
  applied : List BriefAppliedMutation
  conflicts : List BriefMutationConflict

def applySummary (now : Int) (created : Bool) (brief : BriefRow) :
    Option BriefSummaryUpdate → Summarized
  | none => { brief, applied := [], conflicts := [] }
  | some summary =>
    let matched :=
      if created then summary.expectedVersion = 0 else summary.expectedVersion = brief.version
    if matched then
      { brief := { brief with lastSessionSummary := trim summary.text, updatedAt := now }
        applied :=
          [{ mutationIndex := none, kind := .summary, itemId := none, version := none }]
        conflicts := [] }
    else
      { brief, applied := []
        conflicts :=
          [{ mutationIndex := none, itemId := none, reason := .briefVersionMismatch
             currentVersion := some brief.version }] }

def stampSummary (version : Int) (applied : BriefAppliedMutation) : BriefAppliedMutation :=
  if applied.kind = .summary then { applied with version := some version } else applied

def finalBriefVersion (created changed : Bool) (starting : Int) : Int :=
  if changed && !created then starting + 1 else starting

def finishBrief (now version : Int) (changed : Bool) (brief : BriefRow) : BriefRow :=
  if changed then { brief with version, lastHandoffAt := some now, updatedAt := now } else brief

def recordHistory (delivery : Delivery) (spaceId : String) (receipt : BriefUpdateReceipt)
    (after : BriefStore) : Except WenlanError (AList fun _ : String × Int => BriefHistoryRow) :=
  if receipt.applied.isEmpty then .ok after.history
  else
    match readBrief after (trim delivery.request.space) with
    | none => .error (.vectorDb "brief missing after update")
    | some snapshot =>
      if after.history.lookup (spaceId, receipt.briefVersion) = none then
        .ok (after.history.insert (spaceId, receipt.briefVersion)
          { createdAt := delivery.now, callerId := delivery.request.callerId
            operationId := delivery.request.operationId
            summary := snapshot.lastSessionSummary, mutations := receipt.applied, snapshot })
      else .error (.vectorDb "brief history insert")

def receiptOf (request : BriefUpdateRequest) (briefVersion : Int) (done : Progress) :
    BriefUpdateReceipt where
  space := trim request.space
  briefVersion
  applied := done.applied.map (stampSummary briefVersion)
  conflicts := done.conflicts
  projectionPath := none
  warnings := []

/-- The row that is updated; a space gets its Brief on first use. -/
def startingBrief (now : Int) (existing : Option BriefRow) : BriefRow :=
  existing.getD { lastSessionSummary := "", lastHandoffAt := none, version := 1, updatedAt := now }

def mutateBrief (delivery : Delivery) (spaceId : String) (summarized : Summarized)
    (created : Bool) (items : AList fun _ : String => BriefItemRow) : Except WenlanError Progress :=
  applyMutations delivery.now spaceId (itemVersion items spaceId) delivery.itemIds 0
    delivery.request.mutations
    { items, applied := summarized.applied, conflicts := summarized.conflicts
      changed := created || !summarized.applied.isEmpty }

def updateTables (delivery : Delivery) (spaceId : String)
    (spaces : AList fun _ : String => SpaceRow) (summarized : Summarized) (version : Int)
    (done : Progress) (s : BriefStore) : BriefStore :=
  { s with
    spaces
    briefs := s.briefs.insert spaceId
      (finishBrief delivery.now version done.changed summarized.brief)
    items := done.items }

def performUpdate (digest : BriefUpdateRequest → String) (delivery : Delivery) (s : BriefStore) :
    Except WenlanError (BriefUpdateReceipt × BriefStore) := do
  let (spaceId, spaces) ← ensureSpace delivery s.spaces
  let existing := s.briefs.lookup spaceId
  let starting := startingBrief delivery.now existing
  let summarized :=
    applySummary delivery.now existing.isNone starting delivery.request.summary
  let done ← mutateBrief delivery spaceId summarized existing.isNone s.items
  let version := finalBriefVersion existing.isNone done.changed starting.version
  let receipt := receiptOf delivery.request version done
  let after := updateTables delivery spaceId spaces summarized version done s
  let history ← recordHistory delivery spaceId receipt after
  return (receipt, { after with
      history
      receipts := s.receipts.insert delivery.key
        { requestDigest := digest delivery.request, response := receipt
          createdAt := delivery.now } })

def alreadyUsed (request : BriefUpdateRequest) : WenlanError :=
  .conflict ("operation id '" ++ request.operationId ++ "' for '" ++ request.callerId ++
    "' was already used with a different request")

/-- The answer to a delivery, and the tables after it; `digest` is the hash of a serialized
request. -/
def applyBriefUpdate (digest : BriefUpdateRequest → String) (delivery : Delivery)
    (s : BriefStore) : Except WenlanError BriefUpdateReceipt × BriefStore :=
  match validateUpdateRequest delivery.request with
  | .error error => (.error error, s)
  | .ok () =>
    match s.receipts.lookup delivery.key with
    | some receipt =>
      if receipt.requestDigest ≠ digest delivery.request then
        (.error (alreadyUsed delivery.request), s)
      else (.ok receipt.response, s)
    | none =>
      match performUpdate digest delivery s with
      | .ok (receipt, after) => (.ok receipt, after)
      | .error error => (.error error, s)

/-- The tables after deliveries, one transaction after another. -/
def applyAll (digest : BriefUpdateRequest → String) (s : BriefStore)
    (deliveries : List Delivery) : BriefStore :=
  deliveries.foldl (fun s delivery => (applyBriefUpdate digest delivery s).2) s

end Wenlan.Briefs
