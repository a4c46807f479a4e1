import Wenlan.Pages.MapTables

/-!
# Page map operations

Every operation of `page_map.rs` that writes, and the run of such operations.  `now` is the
clock of the statement and an id that an operation draws at random is an argument of it; an
insert under an id that is taken fails as a statement, as any other violated key does.
-/

namespace Wenlan.Pages

variable {F : Type}

inductive MapReply (F : Type) where
  | data (nodes : List (PageMapNode F)) (created : Bool)
  | node (node : PageMapNode F)
  | edge (edge : PageMapEdge)
  | createdNode (outcome : CreateOutcome (PageMapNode F))
  | createdEdge (outcome : CreateOutcome PageMapEdge)
  | done

/-- A label that an idea is given is checked as at its creation. -/
def PageMapNode.validatePatch (node : PageMapNode F) (patch : NodePatch F) :
    Except WenlanError Unit :=
  match patch.label with
  | some label => if node.refKind = "idea" then validateIdeaLabel label else .ok ()
  | none => .ok ()

namespace Tables

/-- `UPDATE page_maps SET … WHERE page_id = ?` -/
def updateMap (db : Tables F) (pageId : String) (set : PageMap → PageMap) : Tables F :=
  { db with maps := fun key => if key = pageId then (db.maps key).map set else db.maps key }

/-- `UPDATE page_map_nodes SET … WHERE page_id = ? AND id = ?` -/
def updateNode (db : Tables F) (pageId nodeId : String)
    (set : PageMapNode F → PageMapNode F) : Tables F :=
  { db with nodes := db.nodes.map fun node =>
      if node.pageId == pageId && node.id == nodeId then set node else node }

def updateEdge (db : Tables F) (pageId edgeId : String) (set : PageMapEdge → PageMapEdge) :
    Tables F :=
  { db with edges := db.edges.map fun edge =>
      if edge.pageId == pageId && edge.id == edgeId then set edge else edge }

/-- `INSERT INTO page_map_nodes … ON CONFLICT(page_id, fingerprint) DO NOTHING`; `none` is no
row inserted. -/
def insertNode (db : Tables F) (node : PageMapNode F) : Except WenlanError (Option (Tables F)) :=
  if db.nodes.any fun row => row.id == node.id then
    .error (.vectorDb "UNIQUE constraint failed: page_map_nodes.id")
  else if (db.readMapNodeByFingerprint node.pageId node.fingerprint).isSome then .ok none
  else .ok (some { db with nodes := db.nodes ++ [node] })

/-- The same for `page_map_edges` and its key. -/
def insertEdge (db : Tables F) (edge : PageMapEdge) : Except WenlanError (Option (Tables F)) :=
  if db.edges.any fun row => row.id == edge.id then
    .error (.vectorDb "UNIQUE constraint failed: page_map_edges.id")
  else if (db.readMapEdgeByKey edge.pageId edge.fromNode edge.toNode edge.kind).isSome then
    .ok none
  else .ok (some { db with edges := db.edges ++ [edge] })

def bumpRevision (db : Tables F) (pageId : String) (baseRevision : Int) (now : String) :
    Except WenlanError (Tables F) :=
  if (db.maps pageId).any fun map => map.revision == baseRevision then
    .ok (db.updateMap pageId fun map =>
      { map with revision := map.revision + 1, updatedAt := now })
  else
    .error (.conflict
      s!"page_map for {pageId} changed concurrently (expected revision {baseRevision})")

def conflicting {Row : Type} (status : Row → MapStatus) (row : Row) : CreateOutcome Row :=
  if status row = .dismissed then .tombstoned else .duplicate row

def rootNode (zero : F) (pageId rootId now : String) : PageMapNode F where
  id := rootId
  pageId := pageId
  parentId := none
  rank := zero
  refKind := "page"
  refId := pageId
  label := none
  status := .active
  pinned := false
  placed := false
  collapsed := false
  x := none
  y := none
  width := none
  height := none
  fingerprint := fingerprintFor "page" pageId "~"
  provenance := none
  createdAt := now
  updatedAt := now

def mapNodes (db : Tables F) (pageId : String) : List (PageMapNode F) :=
  db.nodes.filter fun node => node.pageId == pageId

/-- `init_page_map`: the row and the root, unless there is a map already. -/
def initPageMap (db : Tables F) (zero : F) (pageId rootId now : String) :
    Except WenlanError (MapReply F × Tables F) := do
  db.ensurePageMapOwnerActive pageId
  if (db.maps pageId).isSome then return (.data (db.mapNodes pageId) false, db)
  let map : PageMap :=
    { pageId, revision := 0, mapSchema := 1, viewport := none, generatedAt := none,
      createdAt := now, updatedAt := now }
  let db := { db with maps := fun key => if key = pageId then some map else db.maps key }
  match ← db.insertNode (rootNode zero pageId rootId now) with
  | none => .error (.vectorDb "UNIQUE constraint failed: idx_pmn_fp")
  | some db =>
    let db := db.updateMap pageId fun map => { map with revision := 1, updatedAt := now }
    return (.data (db.mapNodes pageId) true, db)

/-- `reset_page_map`: the row goes, and its nodes and edges with it. -/
def resetPageMap (db : Tables F) (pageId : String) :
    Except WenlanError (MapReply F × Tables F) := do
  db.ensurePageMapOwnerActive pageId
  return (.done, { db with
      maps := fun key => if key = pageId then none else db.maps key
      nodes := db.nodes.filter fun node => node.pageId != pageId
      edges := db.edges.filter fun edge => edge.pageId != pageId })

/-- `stamp_page_map_generated_at`: a watermark of the server, not a change of the map. -/
def stampPageMapGeneratedAt (db : Tables F) (pageId generatedAt : String) :
    Except WenlanError (MapReply F × Tables F) := do
  db.ensurePageMapOwnerActive pageId
  return (.done, db.updateMap pageId fun map => { map with generatedAt := some generatedAt })

/-! ## Nodes -/

structure NodeRequest (F : Type) where
  parentId : String
  refKind : String
  refId : String
  label : Option String
  rank : F

/-- The row that a create inserts under `parent`. -/
def newNode (pageId : String) (parent : PageMapNode F) (request : NodeRequest F)
    (status : MapStatus) (provenance : Option String) (nodeId now : String) : PageMapNode F where
  id := nodeId
  pageId := pageId
  parentId := some request.parentId
  rank := request.rank
  refKind := request.refKind
  refId := request.refId
  label := request.label
  status := status
  pinned := false
  placed := false
  collapsed := false
  x := none
  y := none
  width := none
  height := none
  fingerprint := fingerprintFor request.refKind request.refId (parentRefToken parent)
  provenance := provenance
  createdAt := now
  updatedAt := now

/-- The part that both creates share: open the map, find a live parent, and insert; `op` is
the name in the text of a statement that fails. -/
def addNode (op : String) (db : Tables F) (pageId : String) (baseRevision : Int)
    (request : NodeRequest F) (status : MapStatus) (provenance : Option String)
    (nodeId now : String) : Except WenlanError (MapReply F × Tables F) := do
  let map ← db.openAt pageId baseRevision
  let parent ← db.liveNode pageId request.parentId "parent"
  let node := newNode pageId parent request status provenance nodeId now
  match ← db.insertNode node with
  | none =>
    match db.readMapNodeByFingerprint pageId node.fingerprint with
    | none => .error (.vectorDb s!"{op}: conflicting row vanished")
    | some row => return (.createdNode (conflicting PageMapNode.status row), db)
  | some db =>
    let db ← db.bumpRevision pageId map.revision now
    let db :=
      if request.refKind = "idea" then
        db.updateMap pageId fun map => { map with mapSchema := max map.mapSchema 2 }
      else db
    return (.createdNode (.created node), db)

def NodeRequest.storedRefId (parseUuid : String → Option String) (request : NodeRequest F) :
    Except WenlanError String :=
  if request.refKind = "idea" then canonicalIdeaId parseUuid request.refId request.label
  else .ok request.refId

/-- `create_map_node`: an idea's reference is the canonical text of its UUID. -/
def createMapNode (parseUuid : String → Option String) (db : Tables F) (pageId : String)
    (baseRevision : Int) (request : NodeRequest F) (nodeId now : String) :
    Except WenlanError (MapReply F × Tables F) := do
  refuseIf (!(["memory", "entity", "page", "section", "idea"].contains request.refKind))
    (.validation s!"unknown ref_kind '{request.refKind}'")
  let refId ← request.storedRefId parseUuid
  validateRefComponent request.refKind refId
  addNode "create_map_node" db pageId baseRevision { request with refId := refId } .active none
    nodeId now

def createSuggestedMapNode (db : Tables F) (pageId : String) (baseRevision : Int)
    (request : NodeRequest F) (provenance nodeId now : String) :
    Except WenlanError (MapReply F × Tables F) := do
  refuseIf (!(["memory", "entity", "page", "section"].contains request.refKind))
    (.validation s!"unknown ref_kind '{request.refKind}'")
  validateRefComponent request.refKind request.refId
  addNode "create_suggested_map_node" db pageId baseRevision request .suggested
    (some provenance) nodeId now

def patchStatus (db : Tables F) (node : PageMapNode F) (status : Option String) :
    Except WenlanError MapStatus :=
  match status with
  | none => .ok node.status
  | some newStatus =>
    if node.parentId = none ∧ newStatus = "dismissed" then
      .error (.validation "root node cannot be dismissed")
    else
      match node.status.transition newStatus with
      | none =>
        .error (.validation
          s!"invalid status transition {node.status.asStr} -> {newStatus}")
      | some status =>
        if newStatus = "dismissed" ∧ 0 < db.countLiveChildren node.pageId node.id then
          .error (.validation "node has live children and cannot be dismissed")
        else .ok status

def patchParent (db : Tables F) (node : PageMapNode F) (parentId : Option String) :
    Except WenlanError (Option String × String) :=
  match parentId with
  | none => .ok (node.parentId, node.fingerprint)
  | some target => do
    refuseIf (node.parentId = none) (.validation "root node cannot be re-parented")
    refuseIf (target = node.id) (.validation "node cannot be its own parent")
    let parent ← db.liveNode node.pageId target "parent"
    refuseIf (db.nodeWouldCycle node.pageId node.id target)
      (.validation "re-parent would create a cycle")
    let fingerprint := fingerprintFor node.refKind node.refId (parentRefToken parent)
    refuseIf (fingerprint ≠ node.fingerprint ∧
        (db.readMapNodeByFingerprint node.pageId fingerprint).any fun row => row.id != node.id)
      (.validation "re-parent collides with an existing node under the new parent")
    return (some target, fingerprint)

/-- `patch_map_node`: a touched field pins the node, unless the patch says otherwise. -/
def patchMapNode (db : Tables F) (pageId : String) (baseRevision : Int) (nodeId : String)
    (patch : NodePatch F) (now : String) : Except WenlanError (MapReply F × Tables F) := do
  let map ← db.openAt pageId baseRevision
  match db.readMapNode pageId nodeId with
  | none => .error (.notFound s!"node {nodeId} not found")
  | some node =>
    node.validatePatch patch
    refuseIf (node.status = .dismissed)
      (.validation "node is dismissed and cannot be modified")
    let status ← db.patchStatus node patch.status
    let place ← db.patchParent node patch.parentId
    let touched := patch.label.isSome || patch.status.isSome || patch.rank.isSome ||
      patch.parentId.isSome
    let patched : PageMapNode F :=
      { node with
        parentId := place.1, rank := patch.rank.getD node.rank
        label := patch.label.getD node.label, status
        pinned := patch.pinned.getD (touched || node.pinned), fingerprint := place.2
        updatedAt := now }
    let db ← (db.updateNode pageId nodeId fun _ => patched).bumpRevision pageId
      map.revision now
    return (.node patched, db)

/-- `delete_map_node`: a dismissal. -/
def deleteMapNode (db : Tables F) (pageId : String) (baseRevision : Int) (nodeId now : String) :
    Except WenlanError (MapReply F × Tables F) :=
  db.patchMapNode pageId baseRevision nodeId { status := some "dismissed" } now

structure EdgeRequest where
  fromNode : String
  toNode : String
  kind : String
  label : Option String

def addEdge (op : String) (db : Tables F) (pageId : String) (baseRevision : Int)
    (request : EdgeRequest) (status : MapStatus) (provenance : Option String)
    (edgeId now : String) : Except WenlanError (MapReply F × Tables F) := do
  refuseIf (!(["link", "suggested"].contains request.kind))
    (.validation s!"unknown edge kind '{request.kind}'")
  refuseIf (request.fromNode = request.toNode)
    (.validation "edge cannot connect a node to itself")
  let map ← db.openAt pageId baseRevision
  let _ ← db.liveNode pageId request.fromNode "node"
  let _ ← db.liveNode pageId request.toNode "node"
  let edge : PageMapEdge :=
    { id := edgeId, pageId, fromNode := request.fromNode, toNode := request.toNode
      kind := request.kind, label := request.label, status, provenance, createdAt := now }
  match ← db.insertEdge edge with
  | none =>
    match db.readMapEdgeByKey pageId request.fromNode request.toNode request.kind with
    | none => .error (.vectorDb s!"{op}: conflicting row vanished")
    | some row => return (.createdEdge (conflicting PageMapEdge.status row), db)
  | some db =>
    let db ← db.bumpRevision pageId map.revision now
    return (.createdEdge (.created edge), db)

def createMapEdge (db : Tables F) (pageId : String) (baseRevision : Int) (request : EdgeRequest)
    (edgeId now : String) : Except WenlanError (MapReply F × Tables F) :=
  addEdge "create_map_edge" db pageId baseRevision request .active none edgeId now

def createSuggestedMapEdge (db : Tables F) (pageId : String) (baseRevision : Int)
    (request : EdgeRequest) (provenance edgeId now : String) :
    Except WenlanError (MapReply F × Tables F) :=
  addEdge "create_suggested_map_edge" db pageId baseRevision request .suggested
    (some provenance) edgeId now

def patchEdgeStatus (edge : PageMapEdge) (status : Option String) : Except WenlanError MapStatus :=
  match status with
  | none => .ok edge.status
  | some newStatus =>
    match edge.status.transition newStatus with
    | none =>
      .error (.validation s!"invalid status transition {edge.status.asStr} -> {newStatus}")
    | some status => .ok status

def patchMapEdge (db : Tables F) (pageId : String) (baseRevision : Int) (edgeId : String)
    (patch : EdgePatch) (now : String) : Except WenlanError (MapReply F × Tables F) := do
  let map ← db.openAt pageId baseRevision
  match db.readMapEdge pageId edgeId with
  | none => .error (.notFound s!"edge {edgeId} not found")
  | some edge =>
    refuseIf (edge.status = .dismissed)
      (.validation "edge is dismissed and cannot be modified")
    let status ← patchEdgeStatus edge patch.status
    let patched := { edge with label := patch.label.getD edge.label, status }
    let db ← (db.updateEdge pageId edgeId fun _ => patched).bumpRevision pageId
      map.revision now
    return (.edge patched, db)

def deleteMapEdge (db : Tables F) (pageId : String) (baseRevision : Int) (edgeId now : String) :
    Except WenlanError (MapReply F × Tables F) :=
  db.patchMapEdge pageId baseRevision edgeId { status := some "dismissed" } now

def placeNode (pageId now : String) (db : Tables F) (pos : NodeLayout F) :
    Except WenlanError (Tables F) :=
  match db.readMapNode pageId pos.nodeId with
  | none => .error (db.missingNodeError pos.nodeId)
  | some _ =>
    .ok (db.updateNode pageId pos.nodeId fun node =>
      { node with
        x := some pos.x, y := some pos.y, width := some pos.width, height := some pos.height
        collapsed := pos.collapsed, placed := true, pinned := true, updatedAt := now })

def putPageMapLayout (db : Tables F) (pageId : String) (baseRevision : Int)
    (viewport : Option String) (positions : List (NodeLayout F)) (now : String) :
    Except WenlanError (MapReply F × Tables F) := do
  let map ← db.openAt pageId baseRevision
  let db ← positions.foldlM (placeNode pageId now) db
  let db := db.updateMap pageId fun map => { map with viewport, updatedAt := now }
  let db ← db.bumpRevision pageId map.revision now
  return (.data (db.mapNodes pageId) false, db)

end Tables

/-- What can happen to the tables: a page map operation with everything it draws, or the page
itself changing its status. -/
inductive MapOp (F : Type) where
  | initPageMap (zero : F) (rootId : String)
  | resetPageMap
  | stampPageMapGeneratedAt (generatedAt : String)
  | createMapNode (baseRevision : Int) (request : Tables.NodeRequest F) (nodeId : String)
  | createSuggestedMapNode (baseRevision : Int) (request : Tables.NodeRequest F)
      (provenance nodeId : String)
  | patchMapNode (baseRevision : Int) (nodeId : String) (patch : NodePatch F)
  | deleteMapNode (baseRevision : Int) (nodeId : String)
  | createMapEdge (baseRevision : Int) (request : Tables.EdgeRequest) (edgeId : String)
  | createSuggestedMapEdge (baseRevision : Int) (request : Tables.EdgeRequest)
      (provenance edgeId : String)
  | patchMapEdge (baseRevision : Int) (edgeId : String) (patch : EdgePatch)
  | deleteMapEdge (baseRevision : Int) (edgeId : String)
  | putPageMapLayout (baseRevision : Int) (viewport : Option String)
      (positions : List (NodeLayout F))

namespace MapOp

def body (parseUuid : String → Option String) (db : Tables F) (pageId now : String) :
    MapOp F → Except WenlanError (MapReply F × Tables F)
  | .initPageMap zero rootId => db.initPageMap zero pageId rootId now
  | .resetPageMap => db.resetPageMap pageId
  | .stampPageMapGeneratedAt generatedAt => db.stampPageMapGeneratedAt pageId generatedAt
  | .createMapNode baseRevision request nodeId =>
    db.createMapNode parseUuid pageId baseRevision request nodeId now
  | .createSuggestedMapNode baseRevision request provenance nodeId =>
    db.createSuggestedMapNode pageId baseRevision request provenance nodeId now
  | .patchMapNode baseRevision nodeId patch => db.patchMapNode pageId baseRevision nodeId patch now
  | .deleteMapNode baseRevision nodeId => db.deleteMapNode pageId baseRevision nodeId now
  | .createMapEdge baseRevision request edgeId =>
    db.createMapEdge pageId baseRevision request edgeId now
  | .createSuggestedMapEdge baseRevision request provenance edgeId =>
    db.createSuggestedMapEdge pageId baseRevision request provenance edgeId now
  | .patchMapEdge baseRevision edgeId patch => db.patchMapEdge pageId baseRevision edgeId patch now
  | .deleteMapEdge baseRevision edgeId => db.deleteMapEdge pageId baseRevision edgeId now
  | .putPageMapLayout baseRevision viewport positions =>
    db.putPageMapLayout pageId baseRevision viewport positions now

/-- An operation commits what its body leaves, or rolls back. -/
def exec (parseUuid : String → Option String) (db : Tables F) (pageId now : String)
    (op : MapOp F) : Except WenlanError (MapReply F) × Tables F :=
  match op.body parseUuid db pageId now with
  | .ok (reply, db') => (.ok reply, db')
  | .error error => (.error error, db)

end MapOp

end Wenlan.Pages
