import Wenlan.Updates.Events

/-!
# A page write from its first check to its answer

`update_page_db_impl` as positions between its transactions: a delivery is validated, looks for
its receipt, loads the page and decides from the loaded row, and then takes the transactions of
what it decided.  What it reads outside the modelled tables comes from `Ambient`.
-/

namespace Wenlan.Updates

open Pages

structure UpdatePageRequest where
  content : String
  sourceMemoryIds : List String
  expectedVersion : Option Int
  callerId : Option String
  operationId : Option String
  deriving DecidableEq

structure PageGrowthCommit where
  sourceId : String
  expectedMemoryVersion : Int
  expectedPageVersion : Int
  expectedSourceRevision : Int
  deriving DecidableEq

/-- The arguments of `update_page_impl`. -/
structure PageUpdate where
  pageId : String
  req : UpdatePageRequest
  editedBy : String
  requireStale : Bool
  expectedSourceRevision : Option Int
  citations : Option (String × String)
  pageGrowth : Option PageGrowthCommit
  preserveSources : Bool
  userForced : Bool
  pageFence : Option PageFence
  agent : Option String
  deriving DecidableEq

/-- The ways into `update_page_impl`.  Page growth sends no ids of its own. -/
inductive PageWrite where
  | update (pageId : String) (req : UpdatePageRequest) (editedBy : String) (requireStale : Bool)
      (expectedSourceRevision : Option Int) (citations : Option (String × String))
  | agentUpdate (pageId : String) (req : UpdatePageRequest) (agent : Option String)
      (expectedSourceRevision : Int)
  | userForcedUpdate (pageId : String) (req : UpdatePageRequest) (editedBy : String)
      (expectedFence : PageFence) (citations : Option (String × String))
  | updatePreservingSources (pageId : String) (req : UpdatePageRequest) (editedBy : String)
  | growth (pageId content : String) (sourceMemoryIds : List String) (commit : PageGrowthCommit)
      (citations : Option (String × String))

def PageWrite.toUpdate : PageWrite → PageUpdate
  | .update pageId req editedBy requireStale expectedSourceRevision citations =>
    { pageId, req, editedBy, requireStale, expectedSourceRevision, citations
      pageGrowth := none, preserveSources := false, userForced := false, pageFence := none
      agent := none }
  | .agentUpdate pageId req agent expectedSourceRevision =>
    { pageId, req, editedBy := "agent_refresh", requireStale := false
      expectedSourceRevision := some expectedSourceRevision, citations := none
      pageGrowth := none, preserveSources := false, userForced := false, pageFence := none
      agent }
  | .userForcedUpdate pageId req editedBy expectedFence citations =>
    { pageId, req, editedBy, requireStale := false
      expectedSourceRevision := some expectedFence.sourceRevision, citations
      pageGrowth := none, preserveSources := false, userForced := true
      pageFence := some expectedFence, agent := none }
  | .updatePreservingSources pageId req editedBy =>
    { pageId, req, editedBy, requireStale := false, expectedSourceRevision := none
      citations := none, pageGrowth := none, preserveSources := true, userForced := false
      pageFence := none, agent := none }
  | .growth pageId content sourceMemoryIds commit citations =>
    { pageId
      req := { content, sourceMemoryIds, expectedVersion := none, callerId := none
               operationId := none }
      editedBy := "page_growth", requireStale := false, expectedSourceRevision := none
      citations, pageGrowth := some commit, preserveSources := false, userForced := false
      pageFence := none, agent := none }

/-- What a step reads outside the tables: the clock, a new id, whether the body is close to its
sources, the percentage it was refused for shrinking below, and whether the memory of page
growth is current. -/
structure Ambient where
  now : Int
  cardId : String
  grounded : Bool
  shrunkBelow : Option Nat
  memoryCurrent : Bool

/-! ## The gate -/

def machineWriteRequiresReview (writer : Writer) (page : Page) (versionChecked userForced : Bool) :
    Bool :=
  if !writer.isMachine then false
  else if page.reviewRequired then true
  else if writer.isAgent && versionChecked then false
  else if userForced then page.creationKind == "authored"
  else pageIsHumanOwned page

namespace PageUpdate

variable (u : PageUpdate)

def writer : Writer :=
  Writer.classify u.editedBy

def validate (grounded : Bool) : Except WenlanError Unit := do
  refuseIf (trim u.req.content = "") (.validation "page content must not be empty")
  refuseIf (u.userForced = true ∧ (u.writer.isMachine = false ∨ u.preserveSources = true ∨
      u.requireStale = true ∨ u.expectedSourceRevision = none ∨
      u.pageFence.map PageFence.sourceRevision ≠ u.expectedSourceRevision ∨
      u.pageGrowth.isSome = true))
    (.validation ("a user-forced page rebuild requires a machine write under a " ++
      "source-revision fence"))
  refuseIf (u.userForced = false ∧ u.pageFence.isSome = true)
    (.validation "a page incarnation fence is only carried by a user-forced page rebuild")
  refuseIf (u.preserveSources = true ∧ u.writer.isMachine = true)
    (.validation "only human Page writes may preserve server-owned sources")
  refuseIf (u.preserveSources = false ∧ u.writer.skipsHallucinationGuard = false ∧ grounded = false)
    (.validation "page body diverges from cited sources (cos sim < 0.6)")

def pageWriteFields : List String :=
  [u.pageId, u.req.content, u.editedBy] ++
  (if u.preserveSources then ["preserve-sources"]
    else ["replace-sources", toString u.req.sourceMemoryIds.length] ++ u.req.sourceMemoryIds) ++
  match u.req.expectedVersion with
  | some version => ["v", toString version]
  | none => ["-"]

/-- The caller and the operation of a delivery that has both. -/
def key : Option (String × String) :=
  match u.req.callerId, u.req.operationId with
  | some caller, some operation =>
    if caller ≠ "" ∧ operation ≠ "" then some (caller, operation) else none
  | _, _ => none

def noOp (outcome : WriteOutcome) (warnings : List String) : WriteResult where
  id := u.pageId
  warnings := warnings
  wrote := false
  revisionCardId := none
  gated := false
  acknowledged := false
  outcome := outcome

def effectiveSources (current : Page) : List String :=
  if u.preserveSources then current.sourceMemoryIds else u.req.sourceMemoryIds

def deltaSummary (current : Page) : Option String :=
  computePageDeltaSummary current.content current.sourceMemoryIds u.req.content
    (u.effectiveSources current) u.editedBy

def isUnchanged (current : Page) : Bool :=
  (u.deltaSummary current).isNone &&
    sameSources current.sourceMemoryIds (u.effectiveSources current)

/-- The write is the compile of a stale page, or one that a person forced. -/
def settlesStaleness : Bool :=
  u.requireStale || u.userForced

def requiresReview (current : Page) : Bool :=
  machineWriteRequiresReview u.writer current u.req.expectedVersion.isSome u.userForced

/-- What the loaded row is answered with at once, without a look for a receipt. -/
def refusal (ambient : Ambient) (current : Page) : Option (Except WenlanError WriteResult) :=
  if u.preserveSources = false ∧ u.req.sourceMemoryIds = [] ∧ u.writer.isMachine = true ∧
      current.sourceMemoryIds ≠ [] then
    some (.error (.validation "page must cite at least one source memory"))
  else if u.preserveSources = true ∧ u.writer.skipsHallucinationGuard = false ∧
      ambient.grounded = false then
    some (.error (.validation "page body diverges from cited sources (cos sim < 0.6)"))
  else if u.pageGrowth.any (fun guard => current.version != guard.expectedPageVersion) then
    some (.ok (u.noOp .refused []))
  else none

/-- The page is skipped: growth leaves a page that a person holds, a compile one that is not
stale. -/
def isSkipped (current : Page) : Bool :=
  (u.pageGrowth.isSome && (pageIsHumanOwned current || current.reviewRequired)) ||
    (u.requireStale && current.staleReason.isNone)

def versionRefusal (current : Page) : Option WriteResult :=
  match u.req.expectedVersion with
  | none => none
  | some expected =>
    if expected ≠ current.version then
      some (u.noOp .refused
        [s!"page moved to v{current.version} (expected v{expected}); write refused"])
    else none

def shrinkRefusal (ambient : Ambient) : Option WenlanError :=
  if u.writer.isLlmRewrite then
    ambient.shrunkBelow.map fun percent => .validation
      s!"page body shrank below {percent}% of original (shrink-guard); update rejected"
  else none

end PageUpdate

inductive Decision where
  | answer (answer : Except WenlanError WriteResult)
  | terminal (result : WriteResult)
  | review
  | acknowledge
  | write

def PageUpdate.decide (u : PageUpdate) (ambient : Ambient) (current : Page) : Decision :=
  match u.refusal ambient current with
  | some answer => .answer answer
  | none =>
    if u.isSkipped current then .terminal (u.noOp .unchanged [])
    else
      match u.versionRefusal current with
      | some result => .answer (.ok result)
      | none =>
        if u.requiresReview current then .review
        else
          match u.shrinkRefusal ambient with
          | some error => .answer (.error error)
          | none =>
            if u.isUnchanged current then
              if u.settlesStaleness then .acknowledge
              else .terminal (u.noOp .unchanged [])
            else .write

/-! ## What the transactions are given -/

namespace PageUpdate

variable (u : PageUpdate)

def changelogEntry (current : Page) (now : Int) : ChangelogEntry where
  version := current.version + 1
  writtenAt := now
  editedBy := u.editedBy
  deltaSummary := u.deltaSummary current
  incomingSourceIds := some (difference (u.effectiveSources current) current.sourceMemoryIds)
  counts := some (pageDeltaCounts current.content current.sourceMemoryIds u.req.content
    (u.effectiveSources current))
  agent := u.agent
  citationsSummary := u.citations.map Prod.snd

def writeWarnings (deltaSummary : Option String) (fromVersion toVersion : Int) : List String :=
  match deltaSummary with
  | some summary => [s!"v{fromVersion} → v{toVersion}: {summary}"]
  | none => []

def wroteResult (current : Page) : WriteResult where
  id := u.pageId
  warnings := writeWarnings (u.deltaSummary current) current.version (current.version + 1)
  wrote := true
  revisionCardId := none
  gated := false
  acknowledged := false
  outcome := .wrote

def contentUpdate (current : Page) (changelog : Changelog) (receipt : Option KeyedReceipt) :
    ContentUpdate :=
  let base : ContentUpdate :=
    { content := u.req.content
      sourceMemoryIds := u.effectiveSources current
      linkReason := u.editedBy
      requireStale := false
      changelog
      citations := u.citations.map Prod.fst
      expectedVersion := none
      expectedSourceRevision := none
      expectedIncarnation := none
      consumeRevisionId := none
      receipt
      pageGrowthGuard := none
      machineOwnedOnly := false
      userForced := false }
  match u.pageGrowth, u.userForced, u.pageFence, u.expectedSourceRevision with
  | some guard, _, _, _ =>
    { base with
      linkReason := "page_growth"
      expectedVersion := some guard.expectedPageVersion
      expectedSourceRevision := some guard.expectedSourceRevision
      receipt := none
      pageGrowthGuard := some (guard.sourceId, guard.expectedMemoryVersion)
      machineOwnedOnly := true }
  | none, true, some fence, _ =>
    { base with
      expectedSourceRevision := some fence.sourceRevision
      expectedIncarnation := some fence.incarnation
      userForced := true }
  | none, _, _, some revision =>
    { base with
      requireStale := u.requireStale
      expectedSourceRevision := some revision
      expectedVersion := if u.writer.isAgent then u.req.expectedVersion else none }
  | none, _, _, none =>
    { base with requireStale := u.requireStale, expectedVersion := some current.version }

def checkGrowthSources (current : Page) : Except WenlanError Unit :=
  match u.pageGrowth with
  | none => .ok ()
  | some guard =>
    refuseIf (guard.sourceId ∉ u.effectiveSources current)
      (.validation s!"page growth source list omitted triggering memory {guard.sourceId}")

def commitContent (current : Page) (changelog : Changelog) (receipt : Option KeyedReceipt)
    (ambient : Ambient) (s : Store) : Except WenlanError (Option Store) := do
  u.checkGrowthSources current
  tryUpdatePageContent (u.contentUpdate current changelog receipt) u.pageId ambient.now
    ambient.memoryCurrent s

/-- Who the person sees on a card. -/
def proposer : Option String :=
  let named := if u.pageFence.isSome then none else
    (u.agent.map trim).filter fun name => name != ""
  match named, u.writer with
  | some name, _ => some name
  | none, .pipeline _ => some "wenlan"
  | none, _ => none

def reviewReason (current : Page) : String :=
  if current.reviewRequired then "locked"
  else
    match u.writer with
    | .pipeline _ => "background"
    | _ => "owned"

def revisionCard (current : Page) (sourceRevision : Int) : RevisionCard where
  pageId := u.pageId
  pageVersion := some current.version
  sourceRevision := some sourceRevision
  content := u.req.content
  sourceMemoryIds := u.effectiveSources current
  editedBy := u.editedBy
  proposer := u.proposer
  reviewReason := u.reviewReason current
  title := String.ofList ((s!"Revision: {current.title}".toList).take 80)
  space := current.space

def stagedResult (cardId : String) : WriteResult where
  id := u.pageId
  warnings := ["human-owned page; staged revision card instead of overwriting content"]
  wrote := false
  revisionCardId := some cardId
  gated := true
  acknowledged := false
  outcome := .gated

def upsertRevisionCard (current : Page) (sourceRevision : Int) (receipt : Option KeyedReceipt)
    (cardId : String) (s : Store) : Except WenlanError (Option Store) :=
  match u.pageFence with
  | some fence =>
    upsertCardAtPageFence cardId (u.revisionCard current fence.sourceRevision) u.pageId
      current.version fence receipt s
  | none => upsertCard cardId (u.revisionCard current sourceRevision) receipt s

def stageCard (current : Page) (sourceRevision : Int) (receipt : Option KeyedReceipt)
    (cardId : String) (s : Store) : Except WenlanError (Option Store) := do
  let _ ← validateCanonicalPageContent u.req.content
  u.upsertRevisionCard current sourceRevision receipt cardId s

def clearStaleness (current : Page) (s : Store) : Option Store :=
  match u.pageFence with
  | some fence => clearPageStalenessAtFence u.pageId current.version fence s
  | none => clearPageStalenessAtSourceRevision u.pageId current.version u.expectedSourceRevision s

def acknowledgedResult : WriteResult :=
  { u.noOp .unchanged [] with acknowledged := true }

def acknowledgeCompile (current : Page) (receipt : Option KeyedReceipt) (s : Store) :
    Except WenlanError (Option Store) :=
  match u.pageFence with
  | some fence => acknowledgePageCompileAtFence u.pageId current.version fence receipt s
  | none =>
    acknowledgePageCompile u.pageId current.version u.expectedSourceRevision receipt s

end PageUpdate

end Wenlan.Updates
