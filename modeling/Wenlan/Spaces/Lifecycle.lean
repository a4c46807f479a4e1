import Wenlan.Spaces.Annotations
import Wenlan.Spaces.Deletion

/-!
# The operations on a space

`update_space`, `reassign_memories_space` and `delete_space`.  Each is one transaction under the
space write lock: a step that fails leaves the database as it was.
-/

namespace Wenlan.Spaces

open Pages (WenlanError refuseIf unfiledSpaceId)

structure Clock where
  now : Int
  pageNow : String
  annotationsNow : Int

def wholeLibraryScope : String := "*"

def rejectReservedSpaceName (name : String) : Except WenlanError Unit := do
  refuseIf (Pages.trim name = unfiledSpaceId) (.validation <|
    s!"space name {debugText unfiledSpaceId} is reserved for the uncategorized sentinel")
  refuseIf (Pages.trim name = wholeLibraryScope) (.validation <|
    s!"space name {debugText wholeLibraryScope} is reserved for whole-library web access")

def getSpace (name : String) (db : Database) : Option Space :=
  db.spaces.find? fun space => space.name == name

def spaceId (name : String) (db : Database) : String :=
  ((getSpace name db).map Space.id).getD ""

def movedMemory (clock : Clock) (new : String) (memory : MemoryRow) : MemoryRow :=
  { memory with
    space := new
    version := memory.version + 1
    lastModified :=
      if memory.lastModified ≥ clock.now then memory.lastModified + 1 else clock.now }

def inScope (name : String) (page : PageRow) : Bool :=
  page.space == some name || page.workspace == some name

def rescoped (old new : String) (scope : Option String) : Option String :=
  if scope = some old then some new else scope

def movedPage (clock : Clock) (old new : String) (page : PageRow) : PageRow :=
  { page with
    version := if page.status = "draft" then page.version + 1 else page.version
    lastModified := if page.status = "draft" then clock.pageNow else page.lastModified
    space := rescoped old new page.space
    workspace := rescoped old new page.workspace }

def moveMemories (failed : String → WenlanError) (clock : Clock) (old new : String)
    (db : Database) : Except WenlanError Database :=
  updateMemories failed clock.now old (movedMemory clock new) db

def movePages (failed : String → WenlanError) (clock : Clock) (old new : String)
    (db : Database) : Except WenlanError Database :=
  updatePages failed clock.now (inScope old) (movedPage clock old new) db

def moveAnnotations (clock : Clock) (fromContext toContext : String) (db : Database) :
    Except WenlanError Database :=
  (moveContext clock.annotationsNow fromContext toContext db.annotations).map
    fun annotations => { db with annotations }

def renameRow (clock : Clock) (name newName : String) (description : Option String)
    (space : Space) : Space :=
  if space.name = name then
    { space with name := newName, description, updatedAt := clock.now }
  else space

def cascadeRename (clock : Clock) (name newName : String) (db : Database) :
    Except WenlanError Database := do
  let db ← moveMemories (fun text => .vectorDb s!"update_space cascade memories: {text}")
    clock name newName db
  let db ← movePages (fun text => .vectorDb s!"update_space cascade pages scope: {text}")
    clock name newName db
  cascadeSpaceRename name newName db

/-- The transaction of `update_space`. -/
def renameSpace (clock : Clock) (name newName : String) (description : Option String)
    (db : Database) : Except WenlanError Database := do
  rejectReservedSpaceName newName
  refuseIf (∃ space ∈ db.spaces, space.name = name ∧ ∃ other ∈ db.spaces,
      other.name = newName ∧ other.id ≠ space.id)
    (.vectorDb "update_space: UNIQUE constraint failed: spaces.name")
  refuseIf (getSpace name db = none) (.notFound s!"space '{name}' not found")
  let db := { db with spaces := db.spaces.map (renameRow clock name newName description) }
  if name = newName then pure db else cascadeRename clock name newName db

def mergeInto (memoriesFailed pagesFailed : String → WenlanError) (clock : Clock)
    (name target sourceId targetId : String) (db : Database) : Except WenlanError Database := do
  let db ← moveAnnotations clock sourceId targetId db
  let db ← moveMemories memoriesFailed clock name target db
  let db ← movePages pagesFailed clock name target db
  cascadeSpaceMerge clock.now name target db

/-- The transaction of `reassign_memories_space`. -/
def reassignSpace (clock : Clock) (source target : String) (db : Database) :
    Except WenlanError Database := do
  refuseIf (source = target)
    (.validation "destination space must differ from source space")
  refuseIf (spaceId source db = "") (.vectorDb s!"source space not found: {source}")
  refuseIf (spaceId target db = "") (.vectorDb s!"destination space not found: {target}")
  mergeInto (fun text => .vectorDb s!"reassign memories: {text}")
    (fun text => .vectorDb s!"reassign pages scope: {text}")
    clock source target (spaceId source db) (spaceId target db) db

def moveTarget (memoryAction : String) : Option String :=
  if "move:".toList <+: memoryAction.toList then
    some (String.ofList (memoryAction.toList.drop 5))
  else none

def keepContents (clock : Clock) (name : String) (db : Database) : Except WenlanError Database :=
  moveAnnotations clock (spaceId name db) (orphanedSpaceContextKey name) db

def unassignContents (clock : Clock) (name : String) (db : Database) :
    Except WenlanError Database := do
  refuseIf (contextHasAnnotations (spaceId name db) db.annotations = true)
    (.conflict <| "cannot unassign a Space while source annotations exist; " ++
      "move or clear the annotations first")
  let db ← moveMemories (fun text => .vectorDb s!"delete_space unassign memories: {text}")
    clock name unfiledSpaceId db
  movePages (fun text => .vectorDb s!"delete_space unassign pages scope: {text}")
    clock name unfiledSpaceId db

def deleteContents (clock : Clock) (name : String) (db : Database) :
    Except WenlanError Database := do
  let sources := sourceInventory name db
  let db ← markPages clock.now sources db
  let db ← sources.foldlM (deleteBySourceId clock.now) db
  let db ← deleteEntities clock.now name db
  movePages (fun text => .vectorDb s!"delete_space delete pages scope: {text}")
    clock name unfiledSpaceId db

def moveContents (clock : Clock) (name target : String) (db : Database) :
    Except WenlanError Database := do
  refuseIf (target = name) (.validation "destination space must differ from source space")
  refuseIf (spaceId target db = "") (.vectorDb s!"destination space not found: {target}")
  mergeInto (fun text => .vectorDb s!"delete_space move memories: {text}")
    (fun text => .vectorDb s!"delete_space move pages scope: {text}")
    clock name target (spaceId name db) (spaceId target db) db

def applyMemoryAction (clock : Clock) (name memoryAction : String) (db : Database) :
    Except WenlanError Database :=
  if memoryAction = "keep" then keepContents clock name db
  else if memoryAction = "unassign" then unassignContents clock name db
  else if memoryAction = "delete" then deleteContents clock name db
  else match moveTarget memoryAction with
    | some target => moveContents clock name target db
    | none => keepContents clock name db

/-- The transaction of `delete_space`. -/
def deleteSpace (clock : Clock) (name memoryAction : String) (db : Database) :
    Except WenlanError Database := do
  refuseIf (spaceId name db = "") (.notFound s!"space '{name}' not found")
  let db ← applyMemoryAction clock name memoryAction db
  refuseIf ((db.spaces.filter fun space => space.name == name).length ≠ 1)
    (.notFound s!"space '{name}' not found")
  pure { db with spaces := db.spaces.filter fun space => space.name != name }

inductive SpaceOperation where
  | updateSpace (name newName : String) (description : Option String)
  | reassignMemoriesSpace (source target : String)
  | deleteSpace (name memoryAction : String)

inductive SpaceReply where
  | updated (space : Space)
  | reassigned (memories : Nat)
  | deleted
  deriving DecidableEq

def SpaceOperation.transaction (clock : Clock) (db : Database) :
    SpaceOperation → Except WenlanError Database
  | .updateSpace name newName description => renameSpace clock name newName description db
  | .reassignMemoriesSpace source target => reassignSpace clock source target db
  | .deleteSpace name memoryAction => Spaces.deleteSpace clock name memoryAction db

/-- What is answered after the commit; the space of an update is read back. -/
def SpaceOperation.reply (before after : Database) : SpaceOperation → Except WenlanError SpaceReply
  | .updateSpace _ newName _ =>
    match getSpace newName after with
    | some space => .ok (.updated space)
    | none => .error (.vectorDb "space not found after update")
  | .reassignMemoriesSpace source _ =>
    .ok (.reassigned (before.memories.filter fun memory => memory.space == source).length)
  | .deleteSpace .. => .ok .deleted

def SpaceOperation.exec (clock : Clock) (operation : SpaceOperation) (db : Database) :
    Except WenlanError SpaceReply × Database :=
  match operation.transaction clock db with
  | .error error => (.error error, db)
  | .ok after => (operation.reply db after, after)

end Wenlan.Spaces
