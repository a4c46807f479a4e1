import Wenlan.Pages.Drafts

/-!
# The rows that a page write reads and writes

`pages`, `page_history`, `operation_receipts` and the pending revision cards, with the changelog
that a page carries.  A table is a map from its primary key, and what is stored as JSON is
stored as the value.
-/

namespace Wenlan.Updates

open Pages
open Claims (isWhitespace)

inductive PipelineStage where
  | distill
  | reDistill
  | pageGrowth
  | refineryMerge
  | unknown (editedBy : String)

inductive Writer where
  | human (editedBy : String)
  | agent (editedBy : String)
  | pipeline (stage : PipelineStage)

def Writer.classify (editedBy : String) : Writer :=
  if editedBy = "manual_edit" ∨ editedBy = "fs_edit" then .human editedBy
  else if editedBy = "agent_refresh" then .agent editedBy
  else if editedBy = "distill" then .pipeline .distill
  else if editedBy = "re_distill" then .pipeline .reDistill
  else if editedBy = "page_growth" then .pipeline .pageGrowth
  else if editedBy = "refinery_merge" then .pipeline .refineryMerge
  else .pipeline (.unknown editedBy)

def Writer.isMachine : Writer → Bool
  | .human _ => false
  | .agent _ | .pipeline _ => true

def Writer.isAgent : Writer → Bool
  | .agent _ => true
  | .human _ | .pipeline _ => false

/-- A recognized stage; the shrink guard never rejects a writer it does not know. -/
def Writer.isLlmRewrite : Writer → Bool
  | .pipeline (.unknown _) => false
  | .pipeline _ => true
  | .human _ | .agent _ => false

def Writer.skipsHallucinationGuard (writer : Writer) : Bool :=
  writer.isAgent || writer.isLlmRewrite

/-- The names that the SQL of a page write knows a person by. -/
def isHumanEdit (linkReason : String) : Bool :=
  linkReason == "manual_edit" || linkReason == "fs_edit"

theorem Writer.isMachine_classify (editedBy : String) :
    (classify editedBy).isMachine = !isHumanEdit editedBy := by
  unfold classify isHumanEdit
  by_cases hhuman : editedBy = "manual_edit" ∨ editedBy = "fs_edit"
  · rw [if_pos hhuman]
    obtain rfl | rfl := hhuman <;> rfl
  · rw [if_neg hhuman]
    split_ifs <;> simp_all [isMachine]

structure DeltaCounts where
  charDelta : Int
  sourcesAdded : Int
  sourcesRemoved : Int
  deriving DecidableEq

structure ChangelogEntry where
  version : Int
  writtenAt : Int
  editedBy : String
  deltaSummary : Option String
  incomingSourceIds : Option (List String)
  counts : Option DeltaCounts
  agent : Option String
  citationsSummary : Option String
  deriving DecidableEq

abbrev Changelog := List ChangelogEntry

/-- Drop from the front until `excess` entries are gone, passing over what a person wrote. -/
def trimChangelog : Nat → Changelog → Changelog
  | 0, entries => entries
  | _ + 1, [] => []
  | excess + 1, entry :: entries =>
    if isHumanEdit entry.editedBy then entry :: trimChangelog (excess + 1) entries
    else trimChangelog excess entries

def defaultChangelogCap : Nat := 20

def appendChangelogEntry (existing : Changelog) (entry : ChangelogEntry) : Changelog :=
  trimChangelog ((existing ++ [entry]).length - defaultChangelogCap) (existing ++ [entry])

/-- The members of a list that another one lacks, once each and in order. -/
def difference (left right : List String) : List String :=
  ((left.filter fun source => !right.contains source).dedup).insertionSort (· ≤ ·)

def sameSources (left right : List String) : Bool :=
  (difference left right).isEmpty && (difference right left).isEmpty

def wordCount (text : String) : Nat :=
  ((text.toList.splitOnP isWhitespace).filter fun word => !word.isEmpty).length

def signed (n : Int) : String :=
  if 0 ≤ n then s!"+{n}" else s!"{n}"

def formatIds (sign : String) (ids : List String) : String :=
  let shown := ", ".intercalate ((ids.take 3).map fun id => sign ++ id)
  if 3 < ids.length then s!"{shown} (+ {ids.length - 3} more)" else shown

def charDelta (oldContent newContent : String) : Int :=
  newContent.length - oldContent.length

def wordDelta (oldContent newContent : String) : Int :=
  wordCount newContent - wordCount oldContent

/-- The parts of a summary: sources first, then characters, then words when there are five. -/
def deltaParts (oldContent newContent : String) (added removed : List String) : List String :=
  (if added.isEmpty then [] else [formatIds "+" added]) ++
  (if removed.isEmpty then [] else [formatIds "-" removed]) ++
  (if oldContent ≠ newContent then [s!"{signed (charDelta oldContent newContent)} chars"]
    else []) ++
  (if 5 ≤ (wordDelta oldContent newContent).natAbs then
    [s!"{signed (wordDelta oldContent newContent)} words"] else [])

/-- The parts with what says who wrote. -/
def tagDelta (body editedBy : String) : String :=
  if isHumanEdit editedBy then
    if body.isEmpty then "User-edited" else s!"User-edited; {body}"
  else if editedBy = "refinery_merge" then
    if body.isEmpty then "Merged" else s!"Merged; {body}"
  else if editedBy = "" then body
  else if body.isEmpty then s!"({editedBy})" else s!"{body} ({editedBy})"

def computePageDeltaSummary (oldContent : String) (oldSourceIds : List String)
    (newContent : String) (newSourceIds : List String) (editedBy : String) : Option String :=
  let added := difference newSourceIds oldSourceIds
  let removed := difference oldSourceIds newSourceIds
  if added.isEmpty ∧ removed.isEmpty ∧ oldContent = newContent then none
  else if oldContent.isEmpty ∧ editedBy = "distill" then
    some s!"Synthesized from {newSourceIds.length} sources"
  else some (tagDelta ("; ".intercalate (deltaParts oldContent newContent added removed)) editedBy)

def pageDeltaCounts (oldContent : String) (oldSourceIds : List String) (newContent : String)
    (newSourceIds : List String) : DeltaCounts where
  charDelta := charDelta oldContent newContent
  sourcesAdded := (difference newSourceIds oldSourceIds).length
  sourcesRemoved := (difference oldSourceIds newSourceIds).length

/-- A row of `pages`; a column that may be NULL has its default where the code reads one. -/
structure Page where
  title : String
  content : String
  sourceMemoryIds : List String
  version : Int
  sourceRevision : Int
  incarnation : String
  status : String
  kind : String
  creationKind : String
  reviewStatus : String
  space : String
  userEdited : Bool
  reviewRequired : Bool
  staleReason : Option String
  refreshBlockedReason : Option String
  sourcesUpdatedCount : Int
  citations : Option String
  changelog : Changelog

structure PageFence where
  sourceRevision : Int
  incarnation : String
  deriving DecidableEq

def Page.fence (page : Page) : PageFence where
  sourceRevision := page.sourceRevision
  incarnation := page.incarnation

def pageIsHumanOwned (page : Page) : Bool :=
  page.userEdited || page.creationKind == "authored"

structure HistoryRow where
  title : String
  content : String
  sourceMemoryIds : List String
  editedBy : String
  createdAt : Int

/-- A pending card: a staged body with the counters it was staged at. -/
structure RevisionCard where
  pageId : String
  pageVersion : Option Int
  sourceRevision : Option Int
  content : String
  sourceMemoryIds : List String
  editedBy : String
  proposer : Option String
  reviewReason : String
  title : String
  space : String

inductive WriteOutcome where
  | wrote
  | unchanged
  | refused
  | contended
  | gated
  deriving DecidableEq

structure WriteResult where
  id : String
  warnings : List String
  wrote : Bool
  revisionCardId : Option String
  gated : Bool
  acknowledged : Bool
  outcome : WriteOutcome

structure OperationReceipt where
  requestDigest : String
  response : WriteResult
  createdAt : Int

structure Store where
  pages : AList fun _ : String => Page
  /-- Keyed by page and version, of which a row is unique. -/
  history : AList fun _ : String × Int => HistoryRow
  receipts : AList fun _ : String × String => OperationReceipt
  cards : AList fun _ : String => RevisionCard

def Store.setPage (s : Store) (pageId : String) (page : Page) : Store :=
  { s with pages := s.pages.insert pageId page }

section

variable (s : Store) (pageId : String) (page : Page)

@[simp] theorem Store.setPage_history : (s.setPage pageId page).history = s.history :=
  rfl

@[simp] theorem Store.lookup_setPage : (s.setPage pageId page).pages.lookup pageId = some page :=
  AList.lookup_insert s.pages

end

theorem Store.lookup_setPage_ne (s : Store) {pageId other : String} (page : Page)
    (h : other ≠ pageId) : (s.setPage pageId page).pages.lookup other = s.pages.lookup other :=
  AList.lookup_insert_ne h

/-- A page as `get_page` reads it, which does not see the shadow page of an entity. -/
def getPage (s : Store) (pageId : String) : Option Page :=
  (s.pages.lookup pageId).filter fun page => page.kind != "entity"

theorem getPage_eq_some {s : Store} {pageId : String} {page : Page}
    (h : getPage s pageId = some page) : s.pages.lookup pageId = some page :=
  (Option.filter_eq_some_iff.mp h).1

def getPageChangelog (s : Store) (pageId : String) : Changelog :=
  ((s.pages.lookup pageId).map Page.changelog).getD []

def getPageFence (s : Store) (pageId : String) : Option PageFence :=
  (s.pages.lookup pageId).map Page.fence

end Wenlan.Updates
