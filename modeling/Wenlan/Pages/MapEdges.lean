import Wenlan.Pages.MapRuns

/-!
# The cross links of a page map

Links and the nodes at their ends carry a status each.  A link is made between live nodes; a node
is dismissed by a patch that looks at its children and not at its links.
-/

namespace Wenlan.Pages

open Tables

variable {F : Type}

variable {db db' : Tables F}

namespace Tables

/-- The order of the rows, which only a display uses, is left out. -/
def getPageMap (db : Tables F) (pageId : String) (includeDismissed : Bool) :
    Option (PageMap × List (PageMapNode F) × List PageMapEdge) :=
  (db.maps pageId).map fun map =>
    (map, (db.mapNodes pageId).filter fun node => includeDismissed || node.status != .dismissed,
      db.edges.filter fun edge =>
        edge.pageId == pageId && (includeDismissed || edge.status != .dismissed))

/-- Every link that is not dismissed is between live nodes. -/
def Joined (db : Tables F) : Prop :=
  ∀ edge ∈ db.edges, edge.status ≠ .dismissed →
    db.live edge.pageId edge.fromNode ∧ db.live edge.pageId edge.toNode

/-- The checks of `patchMapNode`, passed by a patch that dismisses the node. -/
def Dismisses (db : Tables F) (pageId : String) (baseRevision : Int) (nodeId : String)
    (patch : NodePatch F) : Prop :=
  ∃ map node place, db.openAt pageId baseRevision = .ok map ∧
    db.readMapNode pageId nodeId = some node ∧ node.validatePatch patch = .ok () ∧
    node.status ≠ .dismissed ∧ db.patchStatus node patch.status = .ok .dismissed ∧
    db.patchParent node patch.parentId = .ok place

/-- Nodes were added and links left alone. -/
def Extends (db db' : Tables F) : Prop :=
  (∃ added, db'.bones = db.bones ++ added) ∧ db'.edges = db.edges

theorem Extends.of_nodes (hnodes : db'.nodes = db.nodes)
    (hedges : db'.edges = db.edges) : Extends db db' :=
  ⟨⟨[], by rw [bones, bones, hnodes, List.append_nil]⟩, hedges⟩

theorem live_of_nodes (hnodes : db'.nodes = db.nodes) {pageId id : String}
    (h : db.live pageId id) : db'.live pageId id := by
  rw [live, hnodes]
  exact h

theorem live_of_bones {added : List Bone}
    (hbones : db'.bones = db.bones ++ added) {pageId id : String} (h : db.live pageId id) :
    db'.live pageId id := by
  rw [← live_iff] at h ⊢
  obtain ⟨b, hb, hkey⟩ := h
  exact ⟨b, hbones ▸ List.mem_append_left _ hb, hkey⟩

theorem Joined.extend (h : db.Joined) (hext : Extends db db') : db'.Joined := by
  obtain ⟨⟨added, hbones⟩, hedges⟩ := hext
  intro edge hedge hstat
  obtain ⟨hfrom, hto⟩ := h edge (hedges ▸ hedge) hstat
  exact ⟨live_of_bones hbones hfrom, live_of_bones hbones hto⟩

/-! ### Rows of the operations -/

variable {baseRevision : Int}

theorem bumpRevision_rows {pageId now : String}
    (h : db.bumpRevision pageId baseRevision now = .ok db') :
    db'.nodes = db.nodes ∧ db'.edges = db.edges := by
  unfold bumpRevision at h
  split at h
  · cases h
    exact ⟨rfl, rfl⟩
  · simp at h

theorem initPageMap_extends {zero : F} {pageId rootId now : String}
    {reply : MapReply F} (h : db.initPageMap zero pageId rootId now = .ok (reply, db')) :
    Extends db db' := by
  obtain ⟨-, -, h⟩ := bind_eq_ok h
  split at h
  · obtain ⟨-, rfl⟩ := Prod.mk.inj (Except.ok.inj h)
    exact .of_nodes rfl rfl
  · obtain ⟨inserted, hins, h⟩ := bind_eq_ok h
    cases inserted with
    | none => simp at h
    | some inserted =>
      obtain ⟨rfl, -⟩ := insertNode_ok hins
      obtain ⟨-, rfl⟩ := Prod.mk.inj (Except.ok.inj h)
      exact ⟨⟨_, List.map_append⟩, rfl⟩

variable {provenance : Option String} {status : MapStatus}

theorem addNode_extends {op pageId : String}
    {request : NodeRequest F}
    {nodeId now : String} {reply : MapReply F}
    (h : addNode op db pageId baseRevision request status provenance nodeId now =
      .ok (reply, db')) : Extends db db' := by
  obtain ⟨map, -, h⟩ := bind_eq_ok h
  obtain ⟨parent, -, h⟩ := bind_eq_ok h
  obtain ⟨inserted, hins, h⟩ := bind_eq_ok h
  cases inserted with
  | none =>
    dsimp only at h
    split at h
    · simp at h
    · obtain ⟨-, rfl⟩ := Prod.mk.inj (Except.ok.inj h)
      exact .of_nodes rfl rfl
  | some inserted =>
    obtain ⟨rfl, -⟩ := insertNode_ok hins
    obtain ⟨bumped, hbump, h⟩ := bind_eq_ok h
    obtain ⟨-, rfl⟩ := Prod.mk.inj (Except.ok.inj h)
    obtain ⟨hnodes, hedges⟩ := bumpRevision_rows hbump
    have hext : Extends db bumped := ⟨⟨_, by rw [bones, hnodes]; exact List.map_append⟩, hedges⟩
    split
    · exact hext
    · exact hext

theorem placeNodes_edges {pageId now : String} {positions : List (NodeLayout F)}
    (h : positions.foldlM (placeNode pageId now) db = .ok db') :
    db'.edges = db.edges := by
  induction positions generalizing db with
  | nil =>
    cases h
    rfl
  | cons pos rest ih =>
    rw [List.foldlM_cons] at h
    obtain ⟨placed, hplace, hrest⟩ := bind_eq_ok h
    rw [ih hrest]
    unfold placeNode at hplace
    split at hplace
    · simp at hplace
    · cases hplace
      rfl

theorem putPageMapLayout_extends {pageId : String}
    {viewport : Option String} {positions : List (NodeLayout F)} {now : String} {reply : MapReply F}
    (h : db.putPageMapLayout pageId baseRevision viewport positions now = .ok (reply, db')) :
    Extends db db' := by
  obtain ⟨map, -, h⟩ := bind_eq_ok h
  obtain ⟨placed, hplac, h⟩ := bind_eq_ok h
  obtain ⟨bumped, hbump, h⟩ := bind_eq_ok h
  obtain ⟨-, rfl⟩ := Prod.mk.inj (Except.ok.inj h)
  obtain ⟨hnodes, hedges⟩ := bumpRevision_rows hbump
  have hplacedEdges := placeNodes_edges hplac
  refine ⟨⟨[], ?_⟩, hedges.trans hplacedEdges⟩
  rw [List.append_nil, ← (placeNodes_ok hplac).2, bones, bones, hnodes]
  rfl

/-- A link is made while both of its ends are live. -/
theorem addEdge_joined {op pageId : String}
    {request : EdgeRequest}
    {edgeId now : String} {reply : MapReply F}
    (h : addEdge op db pageId baseRevision request status provenance edgeId now =
      .ok (reply, db')) (hjoin : db.Joined) : db'.Joined := by
  obtain ⟨-, -, h⟩ := bind_eq_ok h
  obtain ⟨-, -, h⟩ := bind_eq_ok h
  obtain ⟨map, -, h⟩ := bind_eq_ok h
  obtain ⟨source, hfrom, h⟩ := bind_eq_ok h
  obtain ⟨target, hto, h⟩ := bind_eq_ok h
  obtain ⟨inserted, hins, h⟩ := bind_eq_ok h
  cases inserted with
  | none =>
    dsimp only at h
    split at h
    · simp at h
    · obtain ⟨-, rfl⟩ := Prod.mk.inj (Except.ok.inj h)
      exact hjoin
  | some inserted =>
    obtain rfl := insertEdge_ok hins
    obtain ⟨bumped, hbump, h⟩ := bind_eq_ok h
    obtain ⟨-, rfl⟩ := Prod.mk.inj (Except.ok.inj h)
    obtain ⟨hnodes, hedges⟩ := bumpRevision_rows hbump
    have hends : ∀ {id role node}, db.liveNode pageId id role = .ok node →
        bumped.live pageId id := by
      intro id role node hnode
      obtain ⟨hread, hlive⟩ := liveNode_ok hnode
      obtain ⟨hmem, hpage, hid⟩ := readMapNode_some hread
      exact ⟨node, hnodes ▸ hmem, hpage, hid, hlive⟩
    intro edge hedge hstat
    rw [hedges] at hedge
    rcases List.mem_append.mp hedge with hold | hnew
    · obtain ⟨hsourc, htarg⟩ := hjoin edge hold hstat
      exact ⟨live_of_nodes hnodes hsourc, live_of_nodes hnodes htarg⟩
    · obtain rfl := List.mem_singleton.mp hnew
      exact ⟨hends hfrom, hends hto⟩

theorem patchMapEdge_joined {pageId : String}
    {edgeId now : String} {patch : EdgePatch} {reply : MapReply F}
    (h : db.patchMapEdge pageId baseRevision edgeId patch now = .ok (reply, db'))
    (hjoin : db.Joined) : db'.Joined := by
  obtain ⟨map, -, h⟩ := bind_eq_ok h
  cases hread : db.readMapEdge pageId edgeId with
  | none => simp [hread] at h
  | some old =>
    rw [hread] at h
    obtain ⟨_, hlive, h⟩ := bind_eq_ok h
    obtain ⟨status, -, h⟩ := bind_eq_ok h
    obtain ⟨bumped, hbump, h⟩ := bind_eq_ok h
    obtain ⟨-, rfl⟩ := Prod.mk.inj (Except.ok.inj h)
    obtain ⟨hnodes, hedges⟩ := bumpRevision_rows hbump
    intro edge hedge hstat
    rw [hedges] at hedge
    obtain ⟨row, hrow, rfl⟩ := List.mem_map.mp hedge
    by_cases hkey : (row.pageId == pageId && row.id == edgeId)
    · rw [if_pos hkey] at hstat ⊢
      have hends := hjoin old (List.mem_of_find?_eq_some hread) (refuseIf_eq_ok hlive)
      exact ⟨live_of_nodes hnodes hends.1, live_of_nodes hnodes hends.2⟩
    · rw [if_neg hkey] at hstat ⊢
      have hends := hjoin row hrow hstat
      exact ⟨live_of_nodes hnodes hends.1, live_of_nodes hnodes hends.2⟩

theorem live_updateNode {patched : PageMapNode F} {pageId nodeId : String}
    (hpage : patched.pageId = pageId) (hid : patched.id = nodeId) {page id : String}
    (h : db.live page id) (hends : page = pageId → id = nodeId → patched.status ≠ .dismissed) :
    (db.updateNode pageId nodeId fun _ => patched).live page id := by
  obtain ⟨row, hrow, rfl, rfl, hlive⟩ := h
  refine ⟨_, List.mem_map_of_mem hrow, ?_⟩
  by_cases hkey : (row.pageId == pageId && row.id == nodeId)
  · rw [if_pos hkey]
    simp only [Bool.and_eq_true, beq_iff_eq] at hkey
    exact ⟨hpage.trans hkey.1.symm, hid.trans hkey.2.symm, hends hkey.1 hkey.2⟩
  · rw [if_neg hkey]
    exact ⟨rfl, rfl, hlive⟩

theorem patchMapNode_joined {pageId : String}
    {nodeId now : String} {patch : NodePatch F} {reply : MapReply F}
    (h : db.patchMapNode pageId baseRevision nodeId patch now = .ok (reply, db'))
    (hspare : ∀ edge ∈ db.edges, edge.status ≠ .dismissed → edge.pageId = pageId →
      (edge.fromNode = nodeId ∨ edge.toNode = nodeId) →
      ¬ db.Dismisses pageId baseRevision nodeId patch) (hjoin : db.Joined) : db'.Joined := by
  obtain ⟨map, hopen, h⟩ := bind_eq_ok h
  cases hread : db.readMapNode pageId nodeId with
  | none => simp [hread] at h
  | some node =>
    rw [hread] at h
    obtain ⟨_, hvalid, h⟩ := bind_eq_ok h
    obtain ⟨_, hlive, h⟩ := bind_eq_ok h
    obtain ⟨status, hstat, h⟩ := bind_eq_ok h
    obtain ⟨place, hplace, h⟩ := bind_eq_ok h
    obtain ⟨bumped, hbump, h⟩ := bind_eq_ok h
    obtain ⟨-, rfl⟩ := Prod.mk.inj (Except.ok.inj h)
    obtain ⟨hnodes, hedges⟩ := bumpRevision_rows hbump
    obtain ⟨-, rfl, rfl⟩ := readMapNode_some hread
    intro edge hedge hedgelive
    rw [hedges] at hedge
    have hends := hjoin edge hedge hedgelive
    have hfree : edge.pageId = node.pageId → (edge.fromNode = node.id ∨ edge.toNode = node.id) →
        status ≠ .dismissed := by
      rintro hpage hend rfl
      exact hspare edge hedge hedgelive hpage hend
        ⟨map, node, place, hopen, hread, hvalid, refuseIf_eq_ok hlive, hstat, hplace⟩
    have hpatch : ∀ {id}, db.live edge.pageId id → (edge.fromNode = id ∨ edge.toNode = id) →
        bumped.live edge.pageId id := by
      rintro id hid hend
      apply live_of_nodes hnodes
      refine live_updateNode ?_ ?_ hid ?_
      · rfl
      · rfl
      · rintro hpage rfl
        exact hfree hpage hend
    exact ⟨hpatch hends.1 (Or.inl rfl), hpatch hends.2 (Or.inr rfl)⟩

theorem resetPageMap_joined {pageId : String} {reply : MapReply F}
    (h : db.resetPageMap pageId = .ok (reply, db')) (hjoin : db.Joined) : db'.Joined := by
  obtain ⟨-, -, h⟩ := bind_eq_ok h
  obtain ⟨-, rfl⟩ := Prod.mk.inj (Except.ok.inj h)
  intro edge hedge hstat
  obtain ⟨hold, hpage⟩ := List.mem_filter.mp hedge
  have hkept : ∀ {id}, db.live edge.pageId id →
      ∃ node ∈ db.nodes.filter (fun node => node.pageId != pageId),
        node.pageId = edge.pageId ∧ node.id = id ∧ node.status ≠ .dismissed := by
    rintro id ⟨node, hnode, hnod, hrest⟩
    refine ⟨node, List.mem_filter.mpr ⟨hnode, ?_⟩, hnod, hrest⟩
    rw [hnod]
    exact hpage
  exact ⟨hkept (hjoin edge hold hstat).1, hkept (hjoin edge hold hstat).2⟩

end Tables

/-! ## Runs -/

def MapOp.dismisses (db : Tables F) (pageId nodeId : String) : MapOp F → Prop
  | .patchMapNode baseRevision id patch =>
    id = nodeId ∧ db.Dismisses pageId baseRevision id patch
  | .deleteMapNode baseRevision id =>
    id = nodeId ∧ db.Dismisses pageId baseRevision id { status := some "dismissed" }
  | _ => False

/-- No node is dismissed that a live link of its page ends at. -/
def MapEvent.SparesLinks (db : Tables F) : MapEvent F → Prop
  | .request pageId _ op => ∀ edge ∈ db.edges, edge.status ≠ .dismissed → edge.pageId = pageId →
      ¬ op.dismisses db pageId edge.fromNode ∧ ¬ op.dismisses db pageId edge.toNode
  | .pages _ => True

def SparesLinks (parseUuid : String → Option String) : Tables F → List (MapEvent F) → Prop
  | _, [] => True
  | db, event :: rest =>
    event.SparesLinks db ∧ SparesLinks parseUuid (event.apply parseUuid db) rest

theorem body_joined {parseUuid : String → Option String}
    {pageId now : String} {op : MapOp F} {reply : MapReply F}
    (h : op.body parseUuid db pageId now = .ok (reply, db'))
    (hspar : (MapEvent.request pageId now op).SparesLinks db) (hjoin : db.Joined) :
    db'.Joined := by
  cases op with
  | initPageMap => exact hjoin.extend (initPageMap_extends h)
  | resetPageMap => exact resetPageMap_joined h hjoin
  | stampPageMapGeneratedAt =>
    obtain ⟨-, -, h⟩ := bind_eq_ok h
    obtain ⟨-, rfl⟩ := Prod.mk.inj (Except.ok.inj h)
    exact hjoin
  | createMapNode =>
    obtain ⟨-, -, h⟩ := bind_eq_ok h
    obtain ⟨refId, -, h⟩ := bind_eq_ok h
    obtain ⟨-, -, h⟩ := bind_eq_ok h
    exact hjoin.extend (addNode_extends h)
  | createSuggestedMapNode =>
    obtain ⟨-, -, h⟩ := bind_eq_ok h
    obtain ⟨-, -, h⟩ := bind_eq_ok h
    exact hjoin.extend (addNode_extends h)
  | patchMapNode baseRevision nodeId patch =>
    refine patchMapNode_joined h ?_ hjoin
    rintro edge hedge hlive hpage (rfl | rfl) hdism
    · exact (hspar edge hedge hlive hpage).1 ⟨rfl, hdism⟩
    · exact (hspar edge hedge hlive hpage).2 ⟨rfl, hdism⟩
  | deleteMapNode baseRevision nodeId =>
    refine patchMapNode_joined h ?_ hjoin
    rintro edge hedge hlive hpage (rfl | rfl) hdism
    · exact (hspar edge hedge hlive hpage).1 ⟨rfl, hdism⟩
    · exact (hspar edge hedge hlive hpage).2 ⟨rfl, hdism⟩
  | createMapEdge => exact addEdge_joined h hjoin
  | createSuggestedMapEdge => exact addEdge_joined h hjoin
  | patchMapEdge => exact patchMapEdge_joined h hjoin
  | deleteMapEdge => exact patchMapEdge_joined h hjoin
  | putPageMapLayout => exact hjoin.extend (putPageMapLayout_extends h)

theorem apply_joined (parseUuid : String → Option String) {event : MapEvent F}
    (hspar : event.SparesLinks db) (hjoin : db.Joined) : (event.apply parseUuid db).Joined := by
  cases event with
  | pages status => exact hjoin
  | request pageId now op =>
    rw [MapEvent.apply, MapOp.exec]
    cases hbody : op.body parseUuid db pageId now with
    | error error => exact hjoin
    | ok outcome => exact body_joined hbody hspar hjoin

theorem run_joined (parseUuid : String → Option String) (events : List (MapEvent F)) :
    ∀ {db : Tables F}, SparesLinks parseUuid db events → db.Joined →
      (runEvents parseUuid db events).Joined := by
  induction events with
  | nil => exact fun _ hjoin => hjoin
  | cons event rest ih =>
    intro db hspar hjoin
    exact ih hspar.2 (apply_joined parseUuid hspar.1 hjoin)

/-- While no node with a live link is dismissed, live links are between live nodes, and a read
shows both ends of every link that it shows. -/
theorem links_joined {parseUuid : String → Option String} {pages : String → Option String}
    {events : List (MapEvent F)} (h : SparesLinks parseUuid (.empty pages) events) :
    (runEvents parseUuid (.empty pages) events).Joined ∧ ∀ pageId map nodes edges,
      (runEvents parseUuid (.empty pages) events).getPageMap pageId false =
        some (map, nodes, edges) →
      ∀ edge ∈ edges, (∃ node ∈ nodes, node.id = edge.fromNode) ∧
        ∃ node ∈ nodes, node.id = edge.toNode := by
  have hjoin := run_joined parseUuid events h fun edge hedge =>
    absurd hedge (List.not_mem_nil)
  refine ⟨hjoin, ?_⟩
  intro pageId map nodes edges hread edge hedge
  obtain ⟨_, -, hread⟩ := Option.map_eq_some_iff.mp hread
  obtain ⟨-, hread⟩ := Prod.mk.inj hread
  obtain ⟨rfl, rfl⟩ := Prod.mk.inj hread
  obtain ⟨hmem, hkeep⟩ := List.mem_filter.mp hedge
  simp only [Bool.false_or, Bool.and_eq_true, beq_iff_eq, bne_iff_ne] at hkeep
  obtain ⟨rfl, hstat⟩ := hkeep
  have hshown : ∀ {id}, live (runEvents parseUuid (.empty pages) events) edge.pageId id →
      ∃ node ∈ (mapNodes (runEvents parseUuid (.empty pages) events)
        edge.pageId).filter (fun node => false || node.status != .dismissed), node.id = id := by
    rintro id ⟨node, hnode, hpage, hid, hlive⟩
    refine ⟨node, List.mem_filter.mpr ⟨List.mem_filter.mpr ⟨hnode, by simpa using hpage⟩, ?_⟩, hid⟩
    simpa using hlive
  exact ⟨hshown (hjoin edge hmem hstat).1, hshown (hjoin edge hmem hstat).2⟩

/-- A map of a root and two sections with a link from the root to the first; the second goes. -/
def linkedEvents (dismissed : String) : List (MapEvent Nat) :=
  [.request "p" "t0" (.initPageMap 0 "root"),
    .request "p" "t1" (.createMapNode 1 ⟨"root", "section", "intro", none, 0⟩ "n1"),
    .request "p" "t2" (.createMapNode 2 ⟨"root", "section", "notes", none, 1⟩ "n2"),
    .request "p" "t3" (.createMapEdge 3 ⟨"root", "n1", "link", none⟩ "e1"),
    .request "p" "t4" (.deleteMapNode 4 dismissed)]

theorem links_joined_unlinked :
    (runEvents some (.empty fun _ => some "active") (linkedEvents "n2")).Joined := by
  refine (links_joined ?_).1
  refine ⟨fun _ _ _ _ => ⟨id, id⟩, fun _ _ _ _ => ⟨id, id⟩, fun _ _ _ _ => ⟨id, id⟩,
    fun _ _ _ _ => ⟨id, id⟩, fun edge hedge _ _ => ?_, trivial⟩
  have hends : ∀ edge ∈ (runEvents some (.empty fun _ => some "active")
      ((linkedEvents "n2").take 4)).edges, edge.fromNode ≠ "n2" ∧ edge.toNode ≠ "n2" := by
    decide +kernel
  exact ⟨fun h => (hends edge hedge).1 h.1.symm, fun h => (hends edge hedge).2 h.1.symm⟩

/-- The first section goes, and the read shows the link to it. -/
theorem dangling_link :
    ((runEvents some (.empty fun _ => some "active") (linkedEvents "n1")).getPageMap "p"
      false).any (fun read => read.2.2.any fun edge =>
        read.2.1.all fun node => node.id != edge.toNode) = true := by
  decide +kernel

end Wenlan.Pages
