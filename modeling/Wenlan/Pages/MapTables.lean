import Wenlan.Claims.Provenance
import Wenlan.Support.Spine

/-!
# The page map tables

`page_map.rs`: the mind map of a page is a row of `page_maps`, a spine of nodes and some
cross links.  Every operation is one transaction under the connection's lock, so it is a
function that answers with an error and the old tables, or with a reply and new ones.  The
numbers that only a display reads (`rank` and the layout) are of any type.
-/

namespace Wenlan.Pages

open Claims (trimBlanks)

/-- `std::io::ErrorKind`, as far as the code tells the kinds apart. -/
inductive IoErrorKind where
  | notFound
  | alreadyExists
  | other
  deriving DecidableEq

/-- What the operations answer instead of a reply. -/
inductive WenlanError where
  | validation (message : String)
  | notFound (message : String)
  | conflict (message : String)
  | vectorDb (message : String)
  | pageDraftIdConflict (id : String)
  | io (kind : IoErrorKind)
  deriving DecidableEq

theorem bind_eq_ok {α β : Type} {first : Except WenlanError α} {rest : α → Except WenlanError β}
    {b : β} (h : (first >>= rest) = .ok b) : ∃ a, first = .ok a ∧ rest a = .ok b := by
  cases first with
  | error error => simp [bind, Except.bind] at h
  | ok a => exact ⟨a, rfl, h⟩

def refuseIf (failed : Prop) [Decidable failed] (error : WenlanError) : Except WenlanError Unit :=
  if failed then .error error else .ok ()

theorem refuseIf_eq_ok {failed : Prop} [Decidable failed] {error : WenlanError} {u : Unit}
    (h : refuseIf failed error = .ok u) : ¬ failed := by
  intro hfail
  rw [refuseIf, if_pos hfail] at h
  simp at h

inductive MapStatus where
  | suggested
  | active
  | dismissed
  deriving DecidableEq

def MapStatus.asStr : MapStatus → String
  | .suggested => "suggested"
  | .active => "active"
  | .dismissed => "dismissed"

/-- The transitions a patch may make: `suggested` to `active` or `dismissed`, and `active` to
`dismissed`. -/
def MapStatus.transition : MapStatus → String → Option MapStatus
  | .suggested, "active" => some .active
  | .suggested, "dismissed" => some .dismissed
  | .active, "dismissed" => some .dismissed
  | _, _ => none

/-- A `page_maps` row. -/
structure PageMap where
  pageId : String
  revision : Int
  mapSchema : Int
  viewport : Option String
  generatedAt : Option String
  createdAt : String
  updatedAt : String

/-- A `page_map_nodes` row.  Only the root has no parent. -/
structure PageMapNode (F : Type) where
  id : String
  pageId : String
  parentId : Option String
  rank : F
  refKind : String
  refId : String
  label : Option String
  status : MapStatus
  pinned : Bool
  placed : Bool
  collapsed : Bool
  x : Option F
  y : Option F
  width : Option F
  height : Option F
  fingerprint : String
  provenance : Option String
  createdAt : String
  updatedAt : String

/-- A `page_map_edges` row. -/
structure PageMapEdge where
  id : String
  pageId : String
  fromNode : String
  toNode : String
  kind : String
  label : Option String
  status : MapStatus
  provenance : Option String
  createdAt : String

/-- Fields a node patch may touch; `none` leaves a field alone. -/
structure NodePatch (F : Type) where
  label : Option (Option String) := none
  pinned : Option Bool := none
  status : Option String := none
  rank : Option F := none
  parentId : Option String := none

structure EdgePatch where
  label : Option (Option String) := none
  status : Option String := none

structure NodeLayout (F : Type) where
  nodeId : String
  x : F
  y : F
  width : F
  height : F
  collapsed : Bool

/-- A conflicting row that is dismissed is a tombstone; any other is a duplicate. -/
inductive CreateOutcome (Row : Type) where
  | created (row : Row)
  | duplicate (row : Row)
  | tombstoned

/-- `pages` is the status of each page; the row of a page's map is found by the page. -/
structure Tables (F : Type) where
  pages : String → Option String
  maps : String → Option PageMap
  nodes : List (PageMapNode F)
  edges : List PageMapEdge

variable {F : Type}

def fingerprintSep : Char := '\x1f'

def fingerprintFor (refKind refId parentRef : String) : String :=
  refKind ++ String.singleton fingerprintSep ++ refId ++ String.singleton fingerprintSep ++
    parentRef

/-- A node's own reference as used in a child's fingerprint; `~` for the root. -/
def parentRefToken (node : PageMapNode F) : String :=
  if node.parentId.isNone then "~"
  else node.refKind ++ String.singleton fingerprintSep ++ node.refId

def validateRefComponent (refKind refId : String) : Except WenlanError Unit :=
  if fingerprintSep ∈ refKind.toList ∨ fingerprintSep ∈ refId.toList then
    .error (.validation "ref_kind/ref_id must not contain the fingerprint separator")
  else .ok ()

def validateIdeaLabel (label : Option String) : Except WenlanError Unit :=
  if label.any fun value => !(trimBlanks value.toList).isEmpty then .ok ()
  else .error (.validation "idea label must be non-empty")

/-- The canonical text of an idea's UUID; `parseUuid` is the parser of the UUID library. -/
def canonicalIdeaId (parseUuid : String → Option String) (refId : String)
    (label : Option String) : Except WenlanError String := do
  validateIdeaLabel label
  match parseUuid refId with
  | some canonical => .ok canonical
  | none => .error (.validation "idea ref_id must be a UUID")

namespace Tables

def readMapNode (db : Tables F) (pageId nodeId : String) : Option (PageMapNode F) :=
  db.nodes.find? fun node => node.pageId == pageId && node.id == nodeId

def readMapNodeByFingerprint (db : Tables F) (pageId fingerprint : String) :
    Option (PageMapNode F) :=
  db.nodes.find? fun node => node.pageId == pageId && node.fingerprint == fingerprint

def readMapEdge (db : Tables F) (pageId edgeId : String) : Option PageMapEdge :=
  db.edges.find? fun edge => edge.pageId == pageId && edge.id == edgeId

def readMapEdgeByKey (db : Tables F) (pageId fromNode toNode kind : String) : Option PageMapEdge :=
  db.edges.find? fun edge => edge.pageId == pageId && edge.fromNode == fromNode &&
    edge.toNode == toNode && edge.kind == kind

def countLiveChildren (db : Tables F) (pageId nodeId : String) : Nat :=
  db.nodes.countP fun node => node.pageId == pageId && node.parentId == some nodeId &&
    node.status != .dismissed

/-- A node that is not in this map: nowhere at all, or in another page's map. -/
def missingNodeError (db : Tables F) (nodeId : String) : WenlanError :=
  if db.nodes.any fun node => node.id == nodeId then
    .validation s!"node {nodeId} is not part of this page's map"
  else .notFound s!"node {nodeId} not found"

def up (db : Tables F) (pageId nodeId : String) : Option String :=
  (db.readMapNode pageId nodeId).bind PageMapNode.parentId

/-- A walk of at most 10,000 nodes from the new parent; a longer one counts as a cycle. -/
def nodeWouldCycle (db : Tables F) (pageId nodeId newParentId : String) : Bool :=
  Wenlan.Support.Spine.meets (db.up pageId) nodeId 10000 newParentId

def ensurePageMapOwnerActive (db : Tables F) (pageId : String) : Except WenlanError Unit :=
  match db.pages pageId with
  | none => .error (.notFound s!"Page {pageId}")
  | some status =>
    if status ≠ "active" then .error (.validation s!"Page {pageId} is not active") else .ok ()

/-- The checks every conditional write opens with: the page is active, it has a map, and the
map is at the revision the caller saw. -/
def openAt (db : Tables F) (pageId : String) (baseRevision : Int) : Except WenlanError PageMap := do
  db.ensurePageMapOwnerActive pageId
  match db.maps pageId with
  | none => .error (.notFound s!"no page_map for page {pageId}")
  | some map =>
    if map.revision ≠ baseRevision then
      .error (.conflict
        s!"page_map for {pageId} is at revision {map.revision}, expected {baseRevision}")
    else .ok map

def liveNode (db : Tables F) (pageId nodeId role : String) : Except WenlanError (PageMapNode F) :=
  match db.readMapNode pageId nodeId with
  | none => .error (db.missingNodeError nodeId)
  | some node =>
    if node.status = .dismissed then .error (.validation s!"{role} {nodeId} is dismissed")
    else .ok node

end Tables

end Wenlan.Pages
