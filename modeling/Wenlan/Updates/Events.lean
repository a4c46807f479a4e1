import Wenlan.Updates.Content

/-!
# The other transactions on a page

What commits beside the writes of a body: compiles that are acknowledged, cards that are staged,
and the operations that create, rename, attach to, lock, archive and merge pages.  The checks of
an operation that look outside these tables only refuse it, and are left to its caller.
-/

namespace Wenlan.Updates

open Pages

def Page.compiled (page : Page) : Page :=
  { page with staleReason := none, refreshBlockedReason := none, sourcesUpdatedCount := 0 }

structure CompileFence where
  version : Int
  sourceRevision : Option Int
  incarnation : Option String

def CompileFence.admits (fence : CompileFence) (page : Page) : Bool :=
  page.version == fence.version && page.staleReason.isSome &&
    fence.sourceRevision.all (fun revision => page.sourceRevision == revision) &&
    fence.incarnation.all fun incarnation => page.incarnation == incarnation

def clearStale (fence : CompileFence) (pageId : String) (s : Store) : Option Store :=
  ((s.pages.lookup pageId).filter fence.admits).map fun page => s.setPage pageId page.compiled

def acknowledge (fence : CompileFence) (pageId : String) (receipt : Option KeyedReceipt)
    (s : Store) : Except WenlanError (Option Store) :=
  match clearStale fence pageId s with
  | none => .ok none
  | some cleared => (insertReceipt alreadyUsed receipt cleared).map some

def acknowledgePageCompile (pageId : String) (version : Int) (sourceRevision : Option Int)
    (receipt : Option KeyedReceipt) (s : Store) : Except WenlanError (Option Store) :=
  acknowledge { version, sourceRevision, incarnation := none } pageId receipt s

def acknowledgePageCompileAtFence (pageId : String) (version : Int) (fence : PageFence)
    (receipt : Option KeyedReceipt) (s : Store) : Except WenlanError (Option Store) :=
  acknowledge { version, sourceRevision := some fence.sourceRevision
                incarnation := some fence.incarnation } pageId receipt s

def clearPageStalenessAtSourceRevision (pageId : String) (version : Int)
    (sourceRevision : Option Int) (s : Store) : Option Store :=
  clearStale { version, sourceRevision, incarnation := none } pageId s

def clearPageStalenessAtFence (pageId : String) (version : Int) (fence : PageFence)
    (s : Store) : Option Store :=
  clearStale { version, sourceRevision := some fence.sourceRevision
               incarnation := some fence.incarnation } pageId s

def cardFenceHolds (pageId : String) (version : Int) (fence : PageFence) (s : Store) : Bool :=
  (s.pages.lookup pageId).any fun page =>
    page.status == "active" && page.version == version && page.fence == fence

def upsertCard (cardId : String) (card : RevisionCard) (receipt : Option KeyedReceipt)
    (s : Store) : Except WenlanError (Option Store) :=
  (insertReceipt alreadyUsed receipt { s with cards := s.cards.insert cardId card }).map some

def upsertCardAtPageFence (cardId : String) (card : RevisionCard) (pageId : String)
    (version : Int) (fence : PageFence) (receipt : Option KeyedReceipt) (s : Store) :
    Except WenlanError (Option Store) :=
  if cardFenceHolds pageId version fence s then upsertCard cardId card receipt s else .ok none

def recordOperationReceipt (receipt : KeyedReceipt) (s : Store) : Except WenlanError Store :=
  insertReceipt alreadyUsed (some receipt) s

/-! ## Operations -/

def commitVersion (pageId : String) (page : Page) (editedBy : String) (now : Int) (s : Store) :
    Except WenlanError Store :=
  appendPageHistory pageId editedBy now
    (s.setPage pageId { page with version := page.version + 1 })

structure NewPage where
  pageId : String
  title : String
  content : String
  sourceMemoryIds : List String
  space : String
  creationKind : String
  reviewStatus : String
  citations : Option String
  incarnation : String

def NewPage.row (new : NewPage) : Page where
  title := new.title
  content := new.content
  sourceMemoryIds := new.sourceMemoryIds
  version := 1
  sourceRevision := 0
  incarnation := new.incarnation
  status := "active"
  kind := pageKindFor new.title new.creationKind "active"
  creationKind := new.creationKind
  reviewStatus := new.reviewStatus
  space := new.space
  userEdited := false
  reviewRequired := false
  staleReason := none
  refreshBlockedReason := none
  sourcesUpdatedCount := 0
  citations := new.citations
  changelog := []

/-- `INSERT OR IGNORE` of the first row of history. -/
def insertFirstHistory (pageId : String) (page : Page) (now : Int) (s : Store) : Store :=
  if (s.history.lookup (pageId, page.version)).isSome then s
  else { s with
    history := s.history.insert (pageId, page.version) (page.historyRow "create" now) }

def insertPage (new : NewPage) (now : Int) (s : Store) : Except WenlanError Store :=
  if (s.pages.lookup new.pageId).isSome then
    .error (.vectorDb "insert_page: UNIQUE constraint failed: pages.id")
  else .ok (insertFirstHistory new.pageId new.row now (s.setPage new.pageId new.row))

def pageTitleMaxChars : Nat := 500

def validatePageTitle (title : String) : Except WenlanError String := do
  let trimmed := trim title
  refuseIf (trimmed.length = 0 ∨ pageTitleMaxChars < trimmed.length ∨
      trimmed.toList.any isControl = true)
    (.validation "title must be a non-empty single line of at most 500 characters")
  return trimmed

structure Rename where
  pageId : String
  title : String
  expectedVersion : Int
  /-- The scope of the caller has the page. -/
  visible : Bool

def isRenamable (page : Page) : Bool :=
  page.status == "active" && page.kind != "entity" && page.creationKind != "entity" &&
    page.creationKind != "source" && page.creationKind != "imported"

def renameEntry (page : Page) (title : String) (now : Int) : ChangelogEntry where
  version := page.version + 1
  writtenAt := now
  editedBy := "title_rename"
  deltaSummary := some s!"Title changed from ‘{page.title}’ to ‘{title}’"
  incomingSourceIds := none
  counts := none
  agent := none
  citationsSummary := none

def retitled (page : Page) (title : String) (now : Int) : Page :=
  { page with
    title
    kind := pageKindFor title page.creationKind page.status
    changelog := appendChangelogEntry page.changelog (renameEntry page title now) }

section Titles

variable (toLowercase : String → String)

def titleTaken (pageId : String) (page : Page) (title : String) (s : Store) : Bool :=
  s.pages.entries.any fun entry =>
    entry.1 != pageId && entry.2.status == "active" && entry.2.space == page.space &&
      pageTitleKey toLowercase entry.2.title == pageTitleKey toLowercase title

def requirePage (pageId : String) (s : Store) : Except WenlanError Page :=
  match s.pages.lookup pageId with
  | some page => .ok page
  | none => .error (.notFound "page not found")

def renamePage (request : Rename) (now : Int) (s : Store) : Except WenlanError Store := do
  let title ← validatePageTitle request.title
  refuseIf (request.expectedVersion < 1)
    (.validation "expected_version must be at least 1")
  let page ← requirePage request.pageId s
  refuseIf (request.visible = false) (.notFound "page not found")
  refuseIf (isRenamable page = false)
    (.validation "only active knowledge pages can be renamed")
  refuseIf (page.version ≠ request.expectedVersion) (.conflict "page version conflict")
  if page.title = title then .ok s
  else do
    refuseIf (titleTaken toLowercase request.pageId page title s = true)
      (.conflict "page title already exists")
    commitVersion request.pageId (retitled page title now) "title_rename" now s

end Titles

def resourced (sourceIds : List String) (page : Page) : Page :=
  { page with
    sourceMemoryIds := sourceIds
    citations := none
    staleReason := some "source_updated"
    sourcesUpdatedCount := page.sourcesUpdatedCount + 1
    sourceRevision := page.sourceRevision + 1 }

/-- `sourceIds` are the memories that the page cites after the attachment. -/
def linkPageSource (pageId : String) (sourceIds : List String) (s : Store) :
    Except WenlanError Store := do
  rejectPageDraft pageId s
  match s.pages.lookup pageId with
  | none => .error (.notFound s!"page {pageId} not found")
  | some page =>
    if sourceIds ≠ page.sourceMemoryIds then .ok (s.setPage pageId (resourced sourceIds page))
    else .ok s

/-- `moved` tells that what the page cites is not what it was. -/
def replacePageSources (pageId : String) (sourceIds : List String) (moved : Bool) (s : Store) :
    Except WenlanError Store := do
  rejectPageDraft pageId s
  match s.pages.lookup pageId with
  | none => .ok s
  | some page => if moved then .ok (s.setPage pageId (resourced sourceIds page)) else .ok s

def updatePage (pageId : String) (set : Page → Page) (s : Store) : Store :=
  match s.pages.lookup pageId with
  | none => s
  | some page => s.setPage pageId (set page)

def setPageStale (pageId reason : String) (s : Store) : Except WenlanError Store := do
  rejectPageDraft pageId s
  .ok (updatePage pageId (fun page => { page with
    staleReason := some reason
    refreshBlockedReason := none
    sourceRevision := page.sourceRevision + 1 }) s)

def incrementPageSourcesUpdated (pageId : String) (s : Store) : Except WenlanError Store := do
  rejectPageDraft pageId s
  .ok (updatePage pageId (fun page => { page with
    sourcesUpdatedCount := page.sourcesUpdatedCount + 1
    sourceRevision := page.sourceRevision + 1 }) s)

def setPageRefreshBlockedReason (pageId reason : String) (s : Store) : Store :=
  updatePage pageId (fun page => { page with refreshBlockedReason := some reason }) s

def setPageReviewRequired (pageId : String) (required : Bool) (s : Store) : Store :=
  updatePage pageId
    (fun page => if page.kind = "entity" then page else { page with reviewRequired := required }) s

structure SourceReplacement where
  pageId : String
  title : String
  content : String
  sourceMemoryIds : List String
  linkReason : String
  expectedPageVersion : Option Int

def SourceReplacement.admits (r : SourceReplacement) (page : Page) : Bool :=
  r.expectedPageVersion.all (fun version => page.version == version) &&
    page.status == "active" && page.creationKind == "source" && !page.userEdited &&
    !page.reviewRequired

def SourceReplacement.applied (r : SourceReplacement) (page : Page) : Page :=
  { page with
    title := r.title
    content := r.content
    sourceMemoryIds := r.sourceMemoryIds
    citations := none
    sourceRevision := page.sourceRevision + 1 }

def replaceSourcePage (r : SourceReplacement) (now : Int) (s : Store) : Except WenlanError Store :=
  match (s.pages.lookup r.pageId).filter r.admits with
  | none => .error (.conflict s!"source Page {r.pageId} changed ownership before replacement")
  | some page => commitVersion r.pageId (r.applied page) r.linkReason now s

/-- The first statement of `archive_page`, which commits by itself. -/
def archiveRow (pageId : String) (s : Store) : Option Store :=
  ((s.pages.lookup pageId).filter fun page => page.status == "active").map fun page =>
    s.setPage pageId { page with status := "archived", version := page.version + 1 }

/-- The text of the source names the entity that the page stands for. -/
def rejectEntityShadowPage (pageId : String) (s : Store) : Except WenlanError Unit :=
  refuseIf ((s.pages.lookup pageId).any (fun page => page.kind == "entity") = true)
    (.validation s!"Page {pageId} is an entity page")

/-- `interrupted` tells that the process went down after the first statement. -/
def archivePage (pageId : String) (now : Int) (interrupted : Bool) (s : Store) :
    Except WenlanError Store := do
  rejectEntityShadowPage pageId s
  rejectPageDraft pageId s
  match archiveRow pageId s with
  | none => .ok s
  | some archived =>
    if interrupted then .ok archived else appendPageHistory pageId "archive" now archived

def unionWith (sources more : List String) : List String :=
  more.foldl (fun union source => if union.contains source then union else union ++ [source])
    sources

structure PageMerge where
  survivorId : String
  absorbedId : String
  /-- The memories that the two pages cite by their edges. -/
  citedIds : List String

def PageMerge.union (m : PageMerge) (survivor absorbed : Page) : List String :=
  unionWith (unionWith survivor.sourceMemoryIds absorbed.sourceMemoryIds) m.citedIds

def PageMerge.surviving (m : PageMerge) (survivor absorbed : Page) : Page :=
  let union := m.union survivor absorbed
  let added := (union.filter fun source => !survivor.sourceMemoryIds.contains source).length
  { survivor with
    sourceMemoryIds := union
    citations := none
    staleReason := some "source_updated"
    sourcesUpdatedCount := survivor.sourcesUpdatedCount + max added 1
    sourceRevision := survivor.sourceRevision + 1 }

def pageMergeRow (pageId : String) (s : Store) : Except WenlanError Page :=
  match s.pages.lookup pageId with
  | some page => .ok page
  | none => .error (.notFound s!"page {pageId} not found")

def acceptPageMerge (m : PageMerge) (now : Int) (s : Store) : Except WenlanError Store := do
  refuseIf (m.survivorId = m.absorbedId)
    (.validation "page_merge requires two distinct page ids")
  let survivor ← pageMergeRow m.survivorId s
  let absorbed ← pageMergeRow m.absorbedId s
  refuseIf (survivor.status ≠ "active")
    (.validation s!"page_merge survivor {m.survivorId} is not active")
  refuseIf (absorbed.status ≠ "active")
    (.validation s!"page_merge absorbed page {m.absorbedId} is not active")
  let merged ← commitVersion m.survivorId (m.surviving survivor absorbed) "page_merge" now s
  commitVersion m.absorbedId { absorbed with status := "archived" } "archive" now merged

/-- What the other parts of the program do to pages and cards, a transaction each. -/
inductive Event where
  | insertPage (new : NewPage)
  | renamePage (request : Rename)
  | linkPageSource (pageId : String) (sourceIds : List String)
  | replacePageSources (pageId : String) (sourceIds : List String) (moved : Bool)
  | setPageStale (pageId reason : String)
  | incrementPageSourcesUpdated (pageId : String)
  | setPageRefreshBlockedReason (pageId reason : String)
  | setPageReviewRequired (pageId : String) (required : Bool)
  | replaceSourcePage (replacement : SourceReplacement)
  | archivePage (pageId : String) (interrupted : Bool)
  | acceptPageMerge (merge : PageMerge)
  | dismissCard (cardId : String)

def Event.isInterrupted : Event → Bool
  | .archivePage _ interrupted => interrupted
  | _ => false

def Event.run (toLowercase : String → String) (now : Int) (s : Store) :
    Event → Except WenlanError Store
  | .insertPage new => Updates.insertPage new now s
  | .renamePage request => Updates.renamePage toLowercase request now s
  | .linkPageSource pageId sourceIds => Updates.linkPageSource pageId sourceIds s
  | .replacePageSources pageId sourceIds moved =>
    Updates.replacePageSources pageId sourceIds moved s
  | .setPageStale pageId reason => Updates.setPageStale pageId reason s
  | .incrementPageSourcesUpdated pageId => Updates.incrementPageSourcesUpdated pageId s
  | .setPageRefreshBlockedReason pageId reason =>
    .ok (Updates.setPageRefreshBlockedReason pageId reason s)
  | .setPageReviewRequired pageId required =>
    .ok (Updates.setPageReviewRequired pageId required s)
  | .replaceSourcePage replacement => Updates.replaceSourcePage replacement now s
  | .archivePage pageId interrupted => Updates.archivePage pageId now interrupted s
  | .acceptPageMerge merge => Updates.acceptPageMerge merge now s
  | .dismissCard cardId => .ok { s with cards := s.cards.erase cardId }

end Wenlan.Updates
