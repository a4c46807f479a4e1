import Wenlan.Claims.Provenance

/-!
# Support edges

`write_support_edge` and the retractions that the schema's triggers and the derivation
make, over the tables they read.  The table `edges` is cut down to its `supports` rows, in
which a claim revision is the source and a memory the destination; a row keeps the fields
of its payload, and a score as the text written for it.  A double stands for one score.
-/

namespace Wenlan.Claims

open Support (Json)

structure Page where
  space : Option String

structure ClaimRevision where
  claimId : String
  canonicalTextDigest : String

/-- One row of `memories`: a document is several rows that share `sourceId`. -/
structure Memory where
  id : String
  sourceId : String
  chunkIndex : Int
  content : String
  space : Option String
  version : Option Int

structure ProvenanceRoot where
  identityVersion : Int
  identityDigest : String
  rootKind : String
  status : String

structure CacheKey where
  claimTextDigest : String
  sourceSpanDigest : String
  modelId : String
  modelVersion : String
  promptVersion : String
  deriving DecidableEq

structure CacheRow (Score : Type) where
  score : Score
  thresholdAtWrite : Score
  backend : String

structure PageVersionClaim where
  pageId : String
  pageVersion : Int
  claimRevisionId : String

/-- Where a claim revision is supported: the exact bytes of one chunk of one memory. -/
structure SupportLocator where
  claimRevisionId : String
  memorySourceId : String
  chunkIndex : Int
  spanStart : Int
  spanEnd : Int
  spanDigest : String
  deriving DecidableEq

structure RunCandidate where
  pageId : String
  pageVersion : Int
  runGeneration : Int
  locator : SupportLocator
  deriving DecidableEq

structure SupportPayload where
  chunkIndex : Int
  sourceVersion : Int
  spanStart : Int
  spanEnd : Int
  spanDigest : String
  modelId : String
  modelVersion : String
  promptVersion : String
  score : String
  thresholdAtWrite : String
  deriving DecidableEq

structure Edge where
  srcId : String
  dstId : String
  rootId : String
  space : String
  payload : SupportPayload
  createdAt : Int
  supersededBy : Option String
  validUntil : Option Int
  deriving DecidableEq

def Edge.locator (edge : Edge) : SupportLocator where
  claimRevisionId := edge.srcId
  memorySourceId := edge.dstId
  chunkIndex := edge.payload.chunkIndex
  spanStart := edge.payload.spanStart
  spanEnd := edge.payload.spanEnd
  spanDigest := edge.payload.spanDigest

structure Database (Score : Type) where
  pages : String → Option Page
  /-- The page of a claim. -/
  claims : String → Option String
  claimRevisions : String → Option ClaimRevision
  memories : List Memory
  provenanceRoots : String → Option ProvenanceRoot
  entailmentCache : CacheKey → Option (CacheRow Score)
  pageVersionClaims : List PageVersionClaim
  runCandidates : List RunCandidate
  edges : String → Option Edge

/-! ## Verification -/

structure SupportVerdict (Score : Type) where
  chunkIndex : Int
  sourceVersion : Int
  spanStart : Int
  spanEnd : Int
  spanDigest : String
  modelId : String
  modelVersion : String
  promptVersion : String
  score : Score
  thresholdAtWrite : Score

structure SupportCall (Score : Type) where
  claimRevisionId : String
  memorySourceId : String
  rootId : String
  verdict : SupportVerdict Score
  now : Int

/-- Why an edge is not written; the last two are refusals of the database. -/
inductive SupportError where
  | verdictBelowThreshold
  | claimUnknown
  | evidenceUnknown
  | evidenceAmbiguous
  | rootUnknown
  | rootInactive
  | rootIdentityVersion
  | rootNotEvidenceRoot
  | sourceVersionStale
  | spanUnreadable
  | spanMoved
  | verdictUncached
  | verdictAltered
  | verdictSupersedesExisting
  | fenceOnReactivation
  | fenceOnWrite

def unfiledSpaceId : String := "00000000-0000-4000-8000-000000000001"

/-- `M5_CLAIM_ENTAILMENT_CACHE_BACKEND` -/
def entailmentCacheBackend : String := "on_device"

variable {Score : Type} (rt : Runtime Score)

namespace SupportCall

variable (call : SupportCall Score)

def locator : SupportLocator where
  claimRevisionId := call.claimRevisionId
  memorySourceId := call.memorySourceId
  chunkIndex := call.verdict.chunkIndex
  spanStart := call.verdict.spanStart
  spanEnd := call.verdict.spanEnd
  spanDigest := call.verdict.spanDigest

def cacheKey (claimTextDigest : String) : CacheKey where
  claimTextDigest := claimTextDigest
  sourceSpanDigest := call.verdict.spanDigest
  modelId := call.verdict.modelId
  modelVersion := call.verdict.modelVersion
  promptVersion := call.verdict.promptVersion

def spanLocator : String :=
  let v := call.verdict
  s!"{v.chunkIndex}:{v.sourceVersion}:{v.spanStart}:{v.spanEnd}:{v.spanDigest}"

/-- The judge is a part of the id and the score is not: another score of the same judge is
a conflict, another judge is another edge. -/
def judgmentLocator : String :=
  Json.stringify (.arr [.str call.spanLocator, .str call.verdict.modelId,
    .str call.verdict.modelVersion, .str call.verdict.promptVersion])

def edgeId : String :=
  computeEdgeId rt "supports" "claim_revision" call.claimRevisionId "memory"
    call.memorySourceId call.judgmentLocator

def payload : SupportPayload where
  chunkIndex := call.verdict.chunkIndex
  sourceVersion := call.verdict.sourceVersion
  spanStart := call.verdict.spanStart
  spanEnd := call.verdict.spanEnd
  spanDigest := call.verdict.spanDigest
  modelId := call.verdict.modelId
  modelVersion := call.verdict.modelVersion
  promptVersion := call.verdict.promptVersion
  score := rt.text call.verdict.score
  thresholdAtWrite := rt.text call.verdict.thresholdAtWrite

def newEdge (space : String) : Edge where
  srcId := call.claimRevisionId
  dstId := call.memorySourceId
  rootId := call.rootId
  space := space
  payload := call.payload rt
  createdAt := call.now
  supersededBy := none
  validUntil := none

end SupportCall

/-- `SELECT … FROM memories WHERE source_id = ?1 AND chunk_index = ?3 LIMIT 2`: a second
row is read for, and refused. -/
def resolveEvidence (db : Database Score) (call : SupportCall Score) : Except SupportError Memory :=
  match db.memories.filter fun row =>
      row.sourceId == call.memorySourceId && row.chunkIndex == call.verdict.chunkIndex with
  | [] => .error .evidenceUnknown
  | [row] => .ok row
  | _ => .error .evidenceAmbiguous

def verifyRoot (db : Database Score) (call : SupportCall Score) (content : String) :
    Except SupportError Unit :=
  match db.provenanceRoots call.rootId with
  | none => .error .rootUnknown
  | some root =>
    if root.status != "active" then .error .rootInactive
    else if root.identityVersion != identityVersion then .error .rootIdentityVersion
    else if identityDigest rt root.rootKind content != root.identityDigest then
      .error .rootNotEvidenceRoot
    else .ok ()

def verifySpan (call : SupportCall Score) (row : Memory) : Except SupportError Unit :=
  if row.version.getD 1 != call.verdict.sourceVersion then .error .sourceVersionStale
  else
    match spanText row.content call.verdict.spanStart call.verdict.spanEnd with
    | none => .error .spanUnreadable
    | some span =>
      if revisionContentDigest rt span != call.verdict.spanDigest then .error .spanMoved
      else .ok ()

def verifyVerdict (db : Database Score) (call : SupportCall Score) (claimTextDigest : String) :
    Except SupportError Unit :=
  match db.entailmentCache (call.cacheKey claimTextDigest) with
  | none => .error .verdictUncached
  | some cached =>
    if cached.backend != entailmentCacheBackend then .error .verdictUncached
    else if !rt.same cached.score call.verdict.score ||
        !rt.same cached.thresholdAtWrite call.verdict.thresholdAtWrite then
      .error .verdictAltered
    else .ok ()

/-- Everything that is checked before a row is looked for; the answer is the space of the
evidence. -/
def verifySupport (db : Database Score) (call : SupportCall Score) :
    Except SupportError String := do
  -- not `score < bar`, so that a score that is no number is refused too
  if !rt.ge call.verdict.score call.verdict.thresholdAtWrite then
    throw .verdictBelowThreshold
  let some revision := db.claimRevisions call.claimRevisionId | throw .claimUnknown
  let row ← resolveEvidence db call
  verifyRoot rt db call row.content
  verifySpan rt call row
  verifyVerdict rt db call revision.canonicalTextDigest
  return row.space.getD unfiledSpaceId

def Database.revisionPage (db : Database Score) (claimRevisionId : String) : Option String :=
  (db.claimRevisions claimRevisionId).bind fun revision => db.claims revision.claimId

def Database.revisionSpace (db : Database Score) (claimRevisionId : String) : Option String :=
  ((db.revisionPage claimRevisionId).bind db.pages).bind Page.space

def Database.memorySpace (db : Database Score) (sourceId : String) : Option String :=
  (db.memories.find? fun row => row.sourceId == sourceId).bind Memory.space

/-- `edges_space_fence`: both ends of the edge are in its space. -/
def Database.fenced (db : Database Score) (edge : Edge) : Bool :=
  db.revisionSpace edge.srcId == some edge.space && db.memorySpace edge.dstId == some edge.space

/-- `UPDATE edges … WHERE edge_id = ?1` on a row that is there. -/
def Database.putEdge (db : Database Score) (id : String) (edge : Edge) : Database Score :=
  { db with edges := fun key => if key = id then some edge else db.edges key }

/-- Clear the end of a row that was retracted and never replaced. -/
def Edge.reactivated (edge : Edge) : Edge :=
  { edge with validUntil := none, supersededBy := none }

/-- The `WHERE` of the supersede statement. -/
def Edge.superseded (edge : Edge) (id : String) (locator : SupportLocator) (now : Int) : Edge :=
  if edge.validUntil.isNone && edge.supersededBy.isNone && edge.locator == locator then
    { edge with supersededBy := some id, validUntil := some now }
  else edge

/-- Insert the new row and retire every active one of the same place, in one transaction. -/
def Database.insertEdge (db : Database Score) (id : String) (edge : Edge)
    (locator : SupportLocator) (now : Int) : Database Score :=
  { db with
    edges := fun key =>
      if key = id then some edge else (db.edges key).map fun row => row.superseded id locator now }

def writeSupportEdge (db : Database Score) (call : SupportCall Score) :
    Except SupportError String × Database Score :=
  match verifySupport rt db call with
  | .error error => (.error error, db)
  | .ok space =>
    let id := call.edgeId rt
    match db.edges id with
    | some stored =>
      if stored.payload = call.payload rt then
        -- judge replacement sets `superseded_by`, and such a row remains dead
        if stored.validUntil.isSome && stored.supersededBy.isNone then
          if db.fenced stored then (.ok id, db.putEdge id stored.reactivated)
          else (.error .fenceOnReactivation, db)
        else (.ok id, db)
      else (.error .verdictSupersedesExisting, db)
    | none =>
      if db.fenced (call.newEdge rt space) then
        (.ok id, db.insertEdge id (call.newEdge rt space) call.locator call.now)
      else (.error .fenceOnWrite, db)

/-- End the active rows that meet a condition; nothing replaces them. -/
def Database.retract (db : Database Score) (dependent : Edge → Bool) (now : Int) : Database Score :=
  { db with
    edges := fun key => (db.edges key).map fun row =>
      if row.validUntil.isNone && dependent row then
        { row with validUntil := some now, supersededBy := none }
      else row }

def Database.dependsOnPage (db : Database Score) (pageId : String) (edge : Edge) : Bool :=
  db.revisionPage edge.srcId == some pageId

/-- An update of `pages.space`, with `m5_retract_claim_edges_on_page_space_move`. -/
def movePage (db : Database Score) (pageId : String) (space : Option String) (now : Int) :
    Database Score :=
  match db.pages pageId with
  | none => db
  | some page =>
    let moved := { db with
      pages := fun key => if key = pageId then some { page with space } else db.pages key }
    if page.space = space then moved else moved.retract (moved.dependsOnPage pageId) now

/-- A delete of a page, with `m5_retract_claim_edges_on_page_delete` before it and the
cascades of the foreign keys after. -/
def deletePage (db : Database Score) (pageId : String) (now : Int) : Database Score :=
  let retracted := db.retract (db.dependsOnPage pageId) now
  let gone := fun revision => db.revisionPage revision == some pageId
  { retracted with
    pages := fun key => if key = pageId then none else db.pages key
    claims := fun key => (db.claims key).filter fun page => page != pageId
    claimRevisions := fun key => if gone key then none else db.claimRevisions key
    pageVersionClaims := db.pageVersionClaims.filter fun row =>
      row.pageId != pageId && !gone row.claimRevisionId
    runCandidates := db.runCandidates.filter fun row =>
      row.pageId != pageId && !gone row.locator.claimRevisionId }

/-- An update of the space of one row of `memories`, with
`m5_retract_support_on_memory_space_move`. -/
def moveMemory (db : Database Score) (rowId : String) (space : Option String)
    (version : Option Int) (now : Int) : Database Score :=
  match db.memories.find? fun row => row.id == rowId with
  | none => db
  | some row =>
    let moved := { db with
      memories := db.memories.map fun other =>
        if other.id == rowId then { other with space, version } else other }
    if row.space = space then moved
    else moved.retract (fun edge => edge.dstId == row.sourceId) now

/-- A delete of one row of `memories`, with `m5_retract_support_on_memory_delete`: only the
last chunk of a document takes its edges along. -/
def deleteMemory (db : Database Score) (rowId : String) (now : Int) : Database Score :=
  match db.memories.find? fun row => row.id == rowId with
  | none => db
  | some row =>
    let last := !db.memories.any fun other =>
      other.sourceId == row.sourceId && other.id != rowId
    let retracted :=
      if last then db.retract (fun edge => edge.dstId == row.sourceId) now else db
    { retracted with memories := db.memories.filter fun other => other.id != rowId }

/-- `rebind_source_id`, with `retract_support_for_rebound_source`. -/
def rebindSource (db : Database Score) (oldSourceId newSourceId : String) (now : Int) :
    Database Score :=
  if oldSourceId = newSourceId ||
      db.memories.any (fun row => row.sourceId == newSourceId) then db
  else
    { db.retract (fun edge => edge.dstId == oldSourceId) now with
      memories := db.memories.map fun row =>
        if row.sourceId == oldSourceId then { row with sourceId := newSourceId } else row }

/-- The statement of `persist_run_judgments` that retires the edges of a page version whose
place is not in the sealed inventory of the run. -/
def retireStaleSupport (db : Database Score) (pageId : String) (pageVersion : Int)
    (runGeneration : Int) (now : Int) : Database Score :=
  db.retract (fun edge =>
    (db.pageVersionClaims.any fun row => row.pageId == pageId &&
      row.pageVersion == pageVersion && row.claimRevisionId == edge.srcId) &&
    !db.runCandidates.any fun row => row.pageId == pageId && row.pageVersion == pageVersion &&
      row.runGeneration == runGeneration && row.locator == edge.locator) now

end Wenlan.Claims
