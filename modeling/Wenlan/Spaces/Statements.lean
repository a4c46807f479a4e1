import Wenlan.Spaces.Tables
import Wenlan.Support.Transition

/-!
# Statements, fences and triggers

The `UPDATE` and `DELETE` statements of a space operation, each with the triggers that abort it
and the triggers it fires.  A statement that is aborted fails with the text of its trigger, in the
words of the operation.
-/

namespace Wenlan.Spaces

open Pages (WenlanError refuseIf unfiledSpaceId)

def Edge.isLive (edge : Edge) : Bool :=
  edge.validUntil.isNone

def pageSpace (db : Database) (id : String) : Option String :=
  (db.pages.find? fun page => page.id == id).bind PageRow.space

/-- The `CASE` of `edges_space_fence`. -/
def endpointSpace (db : Database) (kind : NodeKind) (id : String) : Option String :=
  match kind with
  | .page => pageSpace db id
  | .memory => (db.memories.find? fun memory => memory.sourceId == id).map MemoryRow.space
  | .entity =>
    (db.entityPageMap.find? fun entry => entry.1 == id).bind fun entry =>
      (db.pages.find? fun page => page.id == entry.2 && page.kind == "entity").bind
        PageRow.space
  | .claimRevision =>
    (db.claimPages.find? fun entry => entry.1 == id).bind fun entry => pageSpace db entry.2
  | .external => none
  | .root => none

/-- The body of `edges_space_fence`. -/
def crossesSpaces (db : Database) (edge : Edge) (space : String) : Bool :=
  (!(edge.type == .attests && edge.sourceKind == .root) &&
    endpointSpace db edge.sourceKind edge.sourceId != some space) ||
  (!(edge.type == .cites && edge.targetKind == .external) &&
    endpointSpace db edge.targetKind edge.targetId != some space)

/-- `edges_attests_requires_human_root_update` -/
def attestsByMachine (db : Database) (edge : Edge) : Bool :=
  edge.type == .attests && !db.provenanceRoots.any fun root =>
    root.rootId == edge.sourceId &&
      (root.rootKind == "human_capture" || root.rootKind == "human_edit_delta")

def edgeFence (db : Database) (space : String) (edge : Edge) : Option String :=
  if attestsByMachine db edge then some "attests requires a human provenance root"
  else if edge.lineage != .legacy && edge.isLive && crossesSpaces db edge space then
    some "edges_space_fence: cross-space edge rejected"
  else none

def liveCommunity (db : Database) (space communityId : String) : Bool :=
  (db.rows .communities).any fun row =>
    row.columns.communityId == communityId && row.space == space && row.columns.retiredAt.isNone

def spaceIs (db : Database) (id name : String) : Bool :=
  db.spaces.any fun space => space.id == id && space.name == name

/-- What aborts an `UPDATE` that gives a row another space. -/
def updateFence (db : Database) (space : String) :
    (table : ClosureTable) → Columns table → Option String
  | .communityMembers => fun communityId =>
    if liveCommunity db space communityId then none
    else some "community_members: community is missing, retired, or cross-space"
  | .pageCommunityAssignments => fun assignment =>
    if assignment.communityId.all (liveCommunity db space) then none
    else some "page_community_assignments: community is missing, retired, or cross-space"
  | .edges => edgeFence db space
  | .genesisCoverageState => fun spaceId =>
    if spaceIs db spaceId space && !(db.rows .genesisCoverageState).any fun row =>
        row.space == space && row.columns != spaceId then none
    else some "genesis mutation proof identity change is unauthorized"
  | .m6Counters => fun counter =>
    if spaceIs db counter.spaceId space && !(db.rows .m6Counters).any fun row =>
        row.space == space && row.columns.name == counter.name &&
          row.columns.spaceId != counter.spaceId then none
    else some "M6 counter identity change is unauthorized"
  | _ => fun _ => none

/-- What aborts a `DELETE`. -/
def deleteFence : ClosureTable → Option String
  | .genesisCoverageState => some "m6_mutation_count cannot be erased"
  | .m6Counters => some "M6 counter cannot be erased"
  | _ => none

def markDirty (space : String) (db : Database) : Database :=
  db.setRows .spaceGraphState ((db.rows .spaceGraphState).map fun row =>
    if row.space = space then { row with columns := true } else row)

/-- An `INSERT` whose conflict marks the row. -/
def upsertDirty (space : String) (db : Database) : Database :=
  if db.names .spaceGraphState space then markDirty space db
  else db.setRows .spaceGraphState (db.rows .spaceGraphState ++ [⟨space, true⟩])

def Edge.isGrouped (edge : Edge) : Bool :=
  edge.type == .relates && edge.isLive && edge.sourceKind == .entity &&
    edge.targetKind == .entity && edge.lineage == .assertion

def touchGrouping (edge : Edge) (space : String) (db : Database) : Database :=
  if edge.grounded then upsertDirty space db else markDirty space db

/-- `m4_grouping_edge_update` for an edge that goes to another space. -/
def afterEdgeMove (old new : String) (db : Database) (edge : Edge) : Database :=
  if edge.isGrouped then touchGrouping edge new (touchGrouping edge old db) else db

/-- `m4_grouping_edge_update` for an edge that ends. -/
def afterEdgeEnd (db : Database) (row : Row .edges) : Database :=
  if row.columns.isGrouped then touchGrouping row.columns row.space db else db

def Row.rekey {table : ClosureTable} (old new : String) (row : Row table) : Row table :=
  if row.space = old then { row with space := new } else row

def afterMove (old new : String) : (table : ClosureTable) → List (Row table) → Database → Database
  | .edges, moved, db => (moved.map Row.columns).foldl (afterEdgeMove old new) db
  | _, _, db => db

/-- `UPDATE table SET space = new WHERE space = old` -/
def updateSpace (failed : String → WenlanError) (old new : String) (table : ClosureTable)
    (db : Database) : Except WenlanError Database :=
  let moved := (db.rows table).filter fun row => row.space == old
  match moved.findSome? fun row => updateFence db new table row.columns with
  | some text => .error (failed text)
  | none => .ok (afterMove old new table moved
      (db.setRows table ((db.rows table).map (Row.rekey old new))))

/-- `DELETE FROM table WHERE space = name` -/
def deleteSpaceRows (failed : String → WenlanError) (name : String) (table : ClosureTable)
    (db : Database) : Except WenlanError Database :=
  match (deleteFence table).filter fun _ => db.names table name with
  | some text => .error (failed text)
  | none => .ok (db.setRows table ((db.rows table).filter fun row => row.space != name))

def Edge.endAt (now : Int) (edge : Edge) : Edge :=
  { edge with validUntil := some now }

def endEdges (failed : String → WenlanError) (now : Int) (condition : Edge → Bool)
    (db : Database) : Except WenlanError Database :=
  let ends := fun row : Row .edges => row.columns.isLive && condition row.columns
  let ended := (db.rows .edges).filter ends
  if ended.any fun row => attestsByMachine db row.columns then
    .error (failed "attests requires a human provenance root")
  else
    .ok (ended.foldl afterEdgeEnd (db.setRows .edges ((db.rows .edges).map fun row =>
      if ends row then { row with columns := row.columns.endAt now } else row)))

/-- The edges of the claims of a page, as `page_retraction_body` finds them. -/
def claimEdgeOf (db : Database) (pageId : String) (edge : Edge) : Bool :=
  let revision :=
    if edge.type = .supports ∧ edge.sourceKind = .claimRevision then some edge.sourceId
    else if edge.type = .attests ∧ edge.targetKind = .claimRevision then some edge.targetId
    else none
  revision.any fun id => db.claimPages.contains (id, pageId)

def supportOf (sourceId : String) (edge : Edge) : Bool :=
  edge.type == .supports && edge.targetKind == .memory && edge.targetId == sourceId

/-- `m4_page_community_page_invalidate` -/
def invalidateRoutes (before after : PageRow) (db : Database) : Database :=
  if before.version = after.version ∧ before.space = after.space ∧
      before.status = after.status ∧ before.sourceRevision = after.sourceRevision ∧
      before.entityId = after.entityId ∧ before.kind = after.kind then db
  else
    let space := after.space.getD unfiledSpaceId
    let known := if db.names .communityRouteSpaceInputs space then db
      else db.setRows .communityRouteSpaceInputs
        (db.rows .communityRouteSpaceInputs ++ [⟨space, ()⟩])
    known.setRows .pageCommunityRouteInputs ((known.rows .pageCommunityRouteInputs).map fun row =>
      if row.columns = after.id then { row with space } else row)

/-- `m4_grouping_entity_update` -/
def regroupEntity (before after : PageRow) (db : Database) : Database :=
  if (before.kind = "entity" ∨ after.kind = "entity") ∧
      (before.space ≠ after.space ∨ before.status ≠ after.status ∨ before.kind ≠ after.kind) then
    let left := if before.space = after.space then db
      else before.space.elim db fun space => markDirty space db
    after.space.elim left fun space => upsertDirty space left
  else db

def afterPageUpdate (failed : String → WenlanError) (now : Int) (after : PageRow → PageRow)
    (db : Database) (before : PageRow) : Except WenlanError Database :=
  let updated := regroupEntity before (after before) (invalidateRoutes before (after before) db)
  if before.space = (after before).space then .ok updated
  else endEdges failed now (claimEdgeOf updated before.id) updated

/-- `UPDATE pages SET .. WHERE ..` -/
def updatePages (failed : String → WenlanError) (now : Int) (selected : PageRow → Bool)
    (after : PageRow → PageRow) (db : Database) : Except WenlanError Database :=
  (db.pages.filter selected).foldlM (afterPageUpdate failed now after)
    { db with pages := db.pages.map fun page => if selected page then after page else page }

/-- `UPDATE memories SET space = .., version = .., last_modified = .. WHERE space = old` -/
def updateMemories (failed : String → WenlanError) (now : Int) (old : String)
    (after : MemoryRow → MemoryRow) (db : Database) : Except WenlanError Database :=
  (db.memories.filter fun memory => memory.space == old).foldlM
    (fun db memory =>
      if (after memory).space = memory.space then .ok db
      else endEdges failed now (supportOf memory.sourceId) db)
    { db with memories := db.memories.map fun memory =>
        if memory.space = old then after memory else memory }

end Wenlan.Spaces

/-!
## A space renamed and two spaces merged

`cascade_space_rename` and `cascade_space_merge`, inside the caller's transaction.
-/

namespace Wenlan.Spaces

open Pages (WenlanError refuseIf)

/-- What `{:?}` shows of a name. -/
def debugText (text : String) : String :=
  let escaped := text.toList.flatMap fun c =>
    if c = '"' then ['\\', '"']
    else if c = '\\' then ['\\', '\\']
    else if c = '\n' then ['\\', 'n']
    else if c = '\r' then ['\\', 'r']
    else if c = '\t' then ['\\', 't']
    else [c]
  String.ofList (['"'] ++ escaped ++ ['"'])

def refuseDestination (newName : String) (db : Database) (table : ClosureTable) :
    Except WenlanError Unit :=
  refuseIf (db.names table newName = true) (.validation
    s!"destination genesis table {table.name} already has rows for space {debugText newName}")

def retireOrphans (name : String) (db : Database) (table : ClosureTable) :
    Except WenlanError Database :=
  deleteSpaceRows
    (fun text => .vectorDb s!"update_space retire orphan {table.name} rows: {text}") name table db

def cascadeRow (oldName newName : String) (db : Database) (table : ClosureTable) :
    Except WenlanError Database :=
  updateSpace (fun text => .vectorDb s!"update_space cascade {table.name}: {text}")
    oldName newName table db

def cascadeSpaceRename (oldName newName : String) (db : Database) :
    Except WenlanError Database := do
  permanentGenesisTables.forM (refuseDestination newName db)
  let db ← destinationOrphansToRetire.foldlM (retireOrphans newName) db
  let db ← ((closure.filter Prod.snd).map Prod.fst).foldlM (retireOrphans newName) db
  (closure.map Prod.fst).foldlM (cascadeRow oldName newName) db

def refuseSplice (oldName targetName : String) (db : Database) (table : ClosureTable) :
    Except WenlanError Unit :=
  refuseIf (mergeRetainedTables.contains table = false ∧
      db.names table oldName = true ∧ db.names table targetName = true)
    (.validation <| s!"both {debugText oldName} and {debugText targetName} carry permanent " ++
      s!"genesis rows in {table.name}; refusing to merge their histories")

def retireCommunities (now : Int) (name : String) (db : Database) : Database :=
  db.setRows .communities ((db.rows .communities).map fun row =>
    if row.space = name ∧ row.columns.retiredAt = none then
      { row with columns := { row.columns with retiredAt := some now, updatedAt := now } }
    else row)

def moveRow (oldName targetName : String) (table : ClosureTable) (db : Database) :
    Except WenlanError Database :=
  updateSpace (fun text => .vectorDb s!"space merge cascade {table.name}: {text}")
    oldName targetName table db

def mergeTable (now : Int) (oldName targetName : String) (db : Database)
    (table : ClosureTable) : Except WenlanError Database :=
  if table = .edges then .ok db
  else if table = .communities then .ok (retireCommunities now oldName db)
  else if mergeRetainedTables.contains table then .ok db
  else if permanentGenesisTables.contains table then moveRow oldName targetName table db
  else deleteSpaceRows
    (fun text => .vectorDb s!"space merge retire {table.name}: {text}") oldName table db

def cascadeSpaceMerge (now : Int) (oldName targetName : String) (db : Database) :
    Except WenlanError Database := do
  permanentGenesisTables.forM (refuseSplice oldName targetName db)
  let db ← moveRow oldName targetName .edges db
  let db ← (closure.map Prod.fst).foldlM (mergeTable now oldName targetName) db
  pure (upsertDirty targetName db)

end Wenlan.Spaces
