import Wenlan.Spaces.Statements

/-!
# The contents of a space deleted

The `delete` action of `delete_space`: the memories and episodes of the space go with their sources,
the pages that used them become stale, the entities go with their pages, and what stays is
unfiled.  Queues, summaries, tags and vectors are left out.
-/

namespace Wenlan.Spaces

open Pages (WenlanError)

/-- The logical source of a memory, `source` and `source_id`. -/
abbrev SourceId := String × String

def sourceInventory (name : String) (db : Database) : List SourceId :=
  (((db.memories.filter fun memory => memory.space == name &&
      (memory.source == "memory" || memory.source == "episode")).map
    fun memory => (memory.source, memory.sourceId)).dedup).mergeSort
      fun a b => a.1 = "memory" ∧ b.1 ≠ "memory" ∨ ((a.1 = "memory" ↔ b.1 = "memory") ∧ a.2 ≤ b.2)

def physicalIds (db : Database) (source : SourceId) : List String :=
  (db.memories.filter fun memory => (memory.source, memory.sourceId) == source).map MemoryRow.id

def locators (db : Database) (source : SourceId) : List String :=
  source.2 :: physicalIds db source

def citesLive (db : Database) (condition : Edge → Bool) : Bool :=
  (db.rows .edges).any fun row =>
    row.columns.type == .cites && row.columns.isLive && condition row.columns

def dependsOn (db : Database) (page : PageRow) (source : SourceId) : Bool :=
  !(physicalIds db source).isEmpty &&
    (citesLive db (fun edge => edge.targetKind == .memory && edge.sourceId == page.id &&
        (locators db source).contains edge.targetId) ||
      page.sourceMemoryIds.any (locators db source).contains)

def changedSources (db : Database) (sources : List SourceId) (page : PageRow) : Nat :=
  ((sources.filter fun source => source.1 != "episode").dedup.filter (dependsOn db page)).length

/-- `mark_pages_depending_on_memory_sources` -/
def markPages (now : Int) (sources : List SourceId) (db : Database) : Except WenlanError Database :=
  updatePages (fun text => .vectorDb s!"invalidate page for dependent memory sources: {text}") now
    (fun page => changedSources db sources page != 0)
    (fun page => { page with
      staleReason := some "source_updated"
      refreshBlockedReason := none
      sourcesUpdatedCount := page.sourcesUpdatedCount + changedSources db sources page
      sourceRevision := page.sourceRevision + 1
      citations := none }) db

def namesSource (db : Database) (source : SourceId) (page : PageRow) : Bool :=
  let named := (locators db source).contains
  (db.pageSources.any fun entry => entry.1 == page.id && named entry.2) ||
    (db.pageEvidence.any fun entry => entry.1 == page.id && named entry.2) ||
    page.sourceMemoryIds.any named

/-- The targets of the live citations of a page, the oldest first. -/
def citedMemories (db : Database) (pageId : String) : List String :=
  (((db.rows .edges).map Row.columns).filter fun edge =>
    edge.type == .cites && edge.sourceKind == .page && edge.sourceId == pageId &&
      edge.targetKind == .memory && edge.isLive).mergeSort
    (fun a b => a.linkedAt.getD 0 < b.linkedAt.getD 0 ∨
      (a.linkedAt.getD 0 = b.linkedAt.getD 0 ∧ a.targetId ≤ b.targetId)) |>.map Edge.targetId

def remainingSources (db : Database) (deleted : List String) (page : PageRow) : List String :=
  (page.sourceMemoryIds ++ citedMemories db page.id).foldl (fun remaining id =>
    if deleted.contains id || remaining.contains id then remaining else remaining ++ [id]) []

def prunePages (now : Int) (source : SourceId) (db : Database) : Except WenlanError Database :=
  if source.1 = "episode" ∨ physicalIds db source = [] ∨ !db.pages.any (namesSource db source) then
    .ok db
  else do
    let deleted := locators db source
    let pruned ← endEdges (fun text => .vectorDb s!"delete Page cites edges: {text}") now
      (fun edge => edge.type == .cites && edge.sourceKind == .page &&
        edge.targetKind == .memory && deleted.contains edge.targetId) db
    updatePages (fun text => .vectorDb s!"delete Page legacy provenance: {text}") now
      (namesSource db source)
      (fun page => { page with
        sourceMemoryIds := remainingSources pruned deleted page
        staleReason := some "source_removed"
        refreshBlockedReason := none }) pruned

def withoutMemory (db : Database) (row : MemoryRow) : Database :=
  { db with memories := db.memories.filter fun memory => memory.id != row.id }

/-- The support that the last row of a source gives ends with the row. -/
def deleteMemory (failed : String → WenlanError) (now : Int) (db : Database) (row : MemoryRow) :
    Except WenlanError Database := do
  let last := !db.memories.any fun memory =>
    memory.sourceId == row.sourceId && memory.id != row.id
  let ended ← if last then endEdges failed now (supportOf row.sourceId) db else .ok db
  pure (withoutMemory ended row)

def deleteMemories (failed : String → WenlanError) (now : Int) (selected : MemoryRow → Bool)
    (db : Database) : Except WenlanError Database :=
  (db.memories.filter selected).foldlM (deleteMemory failed now) db

def endRelations (now : Int) (sourceId : String) (db : Database) : Except WenlanError Database :=
  endEdges (fun text => .vectorDb s!"delete source relation edges: {text}") now
    (fun edge => edge.type == .relates && edge.sourceKind == .entity &&
      edge.targetKind == .entity && edge.sourceMemory == some sourceId) db

/-- `delete_by_source_id_in_transaction` for a source whose pages are marked. -/
def deleteBySourceId (now : Int) (db : Database) (source : SourceId) :
    Except WenlanError Database := do
  let db ← prunePages now source db
  let db ← endRelations now source.2 db
  let db ← deleteMemories (fun text => .vectorDb s!"delete_by_source_id: {text}") now
    (fun memory => (memory.source, memory.sourceId) == source) db
  if source.1 = "memory" then
    deleteMemories (fun text => .vectorDb s!"delete episodes: {text}") now
      (fun memory => memory.source == "episode" &&
        (memory.sourceId == source.2 || memory.episodeOf == some source.2)) db
  else .ok db

def spaceEntities (name : String) (db : Database) : List String :=
  (db.entityPageMap.filter fun entry =>
    db.pages.any fun page => page.id == entry.2 && page.space == some name).map Prod.fst

def clearEntity (entities : List String) (entityId : Option String) : Option String :=
  if entityId.any entities.contains then none else entityId

def MemoryRow.cleared (entities : List String) (memory : MemoryRow) : MemoryRow :=
  { memory with entityId := clearEntity entities memory.entityId }

def PageRow.cleared (entities : List String) (page : PageRow) : PageRow :=
  { page with entityId := clearEntity entities page.entityId }

def withoutPage (db : Database) (page : PageRow) : Database :=
  let kept := db.setRows .pageCommunityAssignments
    ((db.rows .pageCommunityAssignments).filter fun row => row.columns.pageId != page.id)
  let kept := kept.setRows .pageCommunityRouteInputs
    ((kept.rows .pageCommunityRouteInputs).filter fun row => row.columns != page.id)
  { kept with
    pages := kept.pages.filter fun other => other.id != page.id
    entityPageMap := kept.entityPageMap.filter fun entry => entry.2 != page.id
    pageSources := kept.pageSources.filter fun entry => entry.1 != page.id
    pageEvidence := kept.pageEvidence.filter fun entry => entry.1 != page.id
    claimPages := kept.claimPages.filter fun entry => entry.2 != page.id }

def deletePage (now : Int) (db : Database) (page : PageRow) : Except WenlanError Database := do
  let db ← endEdges (fun text => .vectorDb s!"delete_space delete shadow pages: {text}") now
    (claimEdgeOf db page.id) db
  let left := withoutPage db page
  pure (if page.kind = "entity" then page.space.elim left fun space => markDirty space left
    else left)

def deleteEntities (now : Int) (name : String) (db : Database) : Except WenlanError Database := do
  let entities := spaceEntities name db
  let db := { db with memories := db.memories.map (MemoryRow.cleared entities) }
  let db ← updatePages
    (fun text => .vectorDb s!"delete_space delete null pages entity_id: {text}") now
    (fun page => page.entityId.any entities.contains) (PageRow.cleared entities) db
  let db := { db with
    entityPageMap := db.entityPageMap.filter fun entry => !entities.contains entry.1 }
  (db.pages.filter fun page => page.kind == "entity" && page.space == some name).foldlM
    (deletePage now) db

end Wenlan.Spaces
