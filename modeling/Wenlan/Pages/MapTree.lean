import Wenlan.Pages.MapSpine
import Wenlan.Pages.MapOperations
import Wenlan.Support.Transition

/-!
# The page map stays a tree

What each operation does to the spine and to the revision, and from it what every run of
operations leaves: one active root, every live node under it, fingerprints that say where
a node is, and dismissed nodes that stay dismissed until their map is reset.
-/

namespace Wenlan.Pages

open Support.Spine List
open Support.Transition

variable {F : Type}

def PageMapNode.bone (node : PageMapNode F) : Bone where
  id := node.id
  pageId := node.pageId
  parentId := node.parentId
  refKind := node.refKind
  refId := node.refId
  status := node.status
  fingerprint := node.fingerprint

variable {db : Tables F} {node : PageMapNode F}

variable {nodeId : String}

namespace Tables

def bones (db : Tables F) : List Bone := db.nodes.map PageMapNode.bone

def mapped (db : Tables F) (pageId : String) : Prop := (db.maps pageId).isSome = true

theorem readMapNode_some {pageId : String} (h : db.readMapNode pageId nodeId = some node) :
    node ∈ db.nodes ∧ node.pageId = pageId ∧ node.id = nodeId := by
  have hkey := find?_some h
  simp only [Bool.and_eq_true, beq_iff_eq] at hkey
  exact ⟨mem_of_find?_eq_some h, hkey.1, hkey.2⟩

theorem findBone_bones (db : Tables F) (pageId id : String) :
    findBone db.bones pageId id = (db.readMapNode pageId id).map PageMapNode.bone := by
  rw [findBone, bones, find?_map, readMapNode]
  rfl

theorem up_eq (db : Tables F) (pageId : String) : db.up pageId = upOf db.bones pageId := by
  funext id
  rw [up, upOf, findBone_bones, Option.bind_map]
  rfl

theorem not_mem_of_fingerprint {pageId fingerprint : String}
    (h : db.readMapNodeByFingerprint pageId fingerprint = none) :
    ∀ b ∈ db.bones, b.pageId = pageId → b.fingerprint ≠ fingerprint := by
  intro b hb hpage hprint
  obtain ⟨node, hnode, rfl⟩ := mem_map.mp hb
  have hnone := find?_eq_none.mp h node hnode
  simp only [Bool.and_eq_true, beq_iff_eq, not_and] at hnone
  exact hnone hpage hprint

theorem bones_updateNode_congr (db : Tables F) (pageId nodeId : String)
    {set : PageMapNode F → PageMapNode F} (h : ∀ node, (set node).bone = node.bone) :
    (db.updateNode pageId nodeId set).bones = db.bones := by
  rw [bones, updateNode, bones, map_map]
  apply map_congr_left
  intro node _
  by_cases hkey : (node.pageId == pageId && node.id == nodeId)
  · rw [Function.comp_apply, if_pos hkey, h]
  · rw [Function.comp_apply, if_neg hkey]

theorem bones_updateNode (db : Tables F) (patched : PageMapNode F) :
    (db.updateNode node.pageId node.id fun _ => patched).bones =
      replaceBone db.bones node.bone patched.bone := by
  rw [bones, updateNode, bones, replaceBone, map_map, map_map]
  apply map_congr_left
  intro x _
  by_cases hkey : (x.pageId == node.pageId && x.id == node.id)
  · rw [Function.comp_apply, Function.comp_apply, if_pos hkey]
    exact (if_pos hkey).symm
  · rw [Function.comp_apply, Function.comp_apply, if_neg hkey]
    exact (if_neg hkey).symm

end Tables

/-! ## What an operation does -/

/-- The revision of a page's map went up by one, and no other map changed. -/
def Bumped (db db' : Tables F) (pageId : String) : Prop :=
  (∃ map map', db.maps pageId = some map ∧ db'.maps pageId = some map' ∧
    map'.revision = map.revision + 1) ∧
  ∀ other ≠ pageId, db'.maps other = db.maps other

inductive EffectKind where
  | kept
  | bumped
  | planted
  | stamped
  | cleared

/-- What an operation that answers with success has done. -/
inductive MapEffect (pageId : String) (db : Tables F) : EffectKind → Tables F → Prop
  | kept : MapEffect pageId db .kept db
  | bumped (db' : Tables F) (hspine : SpineStep db.bones db'.bones)
      (hbumped : Bumped db db' pageId) : MapEffect pageId db .bumped db'
  | planted (db' : Tables F) (root : Bone) (hnone : db.maps pageId = none)
      (hpage : root.pageId = pageId) (hparent : root.parentId = none)
      (hactive : root.status = .active)
      (hprint : root.fingerprint = fingerprintFor root.refKind root.refId "~")
      (hid : ∀ a ∈ db.bones, a.id ≠ root.id) (hbones : db'.bones = db.bones ++ [root])
      (hmap : (db'.maps pageId).map PageMap.revision = some 1)
      (hother : ∀ other ≠ pageId, db'.maps other = db.maps other) :
      MapEffect pageId db .planted db'
  | stamped (db' : Tables F) (hnodes : db'.nodes = db.nodes) (hedges : db'.edges = db.edges)
      (hmaps : ∀ other, (db'.maps other).map PageMap.revision =
        (db.maps other).map PageMap.revision) : MapEffect pageId db .stamped db'
  | cleared (db' : Tables F) (hbones : db'.bones = clearPage db.bones pageId)
      (hmap : db'.maps pageId = none) (hother : ∀ other ≠ pageId, db'.maps other = db.maps other) :
      MapEffect pageId db .cleared db'

def reported : MapOp F → MapReply F → EffectKind
  | .initPageMap _ _, .data _ created => if created then .planted else .kept
  | .resetPageMap, _ => .cleared
  | .stampPageMapGeneratedAt _, _ => .stamped
  | _, .createdNode (.created _) => .bumped
  | _, .createdNode _ => .kept
  | _, .createdEdge (.created _) => .bumped
  | _, .createdEdge _ => .kept
  | _, _ => .bumped

namespace Tables

variable {baseRevision : Int}

variable {map : PageMap}

theorem openAt_ok {pageId : String} (h : db.openAt pageId baseRevision = .ok map) :
    db.maps pageId = some map ∧ map.revision = baseRevision := by
  obtain ⟨_, -, h⟩ := bind_eq_ok h
  split at h
  · simp at h
  · rename_i map' hmap
    split at h
    · simp at h
    · rename_i hrev
      cases h
      exact ⟨hmap, not_not.mp hrev⟩

theorem liveNode_ok {pageId role : String} (h : db.liveNode pageId nodeId role = .ok node) :
    db.readMapNode pageId nodeId = some node ∧ node.status ≠ .dismissed := by
  unfold liveNode at h
  cases hread : db.readMapNode pageId nodeId with
  | none => simp [hread] at h
  | some node' =>
    by_cases hdism : node'.status = .dismissed
    · simp [hread, hdism] at h
    · simp only [hread, hdism, if_false, Except.ok.injEq] at h
      rw [h] at hdism
      exact ⟨by rw [h], hdism⟩

variable {db' : Tables F}

variable {db'' : Tables F}

theorem bumpRevision_ok {pageId now : String} {map' : PageMap}
    (h : db'.bumpRevision pageId map.revision now = .ok db'')
    (hmap : db.maps pageId = some map) (hmap' : db'.maps pageId = some map')
    (hrev : map'.revision = map.revision)
    (hother : ∀ other ≠ pageId, db'.maps other = db.maps other) :
    Bumped db db'' pageId ∧ db''.nodes = db'.nodes := by
  unfold bumpRevision at h
  rw [hmap'] at h
  simp only [Option.any_some, hrev, beq_self_eq_true, if_true, Except.ok.injEq] at h
  subst h
  refine ⟨⟨⟨map, { map' with revision := map'.revision + 1, updatedAt := now }, hmap, ?_, ?_⟩, ?_⟩,
    rfl⟩
  · simp [updateMap, hmap']
  · simp [hrev]
  · intro other hne
    simp [updateMap, hne, hother other hne]

theorem bumped_of_bumpRevision {pageId now : String}
    (h : db'.bumpRevision pageId map.revision now = .ok db'')
    (hmap : db.maps pageId = some map) (hmaps : db'.maps = db.maps)
    (hspine : SpineStep db.bones db'.bones) : MapEffect pageId db .bumped db'' := by
  obtain ⟨hbumped, hnodes⟩ :=
    bumpRevision_ok h hmap (by rw [hmaps, hmap]) rfl fun other _ => by rw [hmaps]
  refine .bumped db'' ?_ hbumped
  rw [show db''.bones = db'.bones by rw [bones, bones, hnodes]]
  exact hspine

theorem bumped_updateMap {pageId : String} {set : PageMap → PageMap}
    (h : Bumped db db' pageId) (hset : ∀ map, (set map).revision = map.revision) :
    Bumped db (db'.updateMap pageId set) pageId := by
  obtain ⟨⟨map, map', hmap, hmap', hrev⟩, hother⟩ := h
  refine ⟨⟨map, set map', hmap, by simp [updateMap, hmap'], (hset map').trans hrev⟩, ?_⟩
  intro other hne
  simp [updateMap, hne, hother other hne]

theorem insertNode_ok (h : db.insertNode node = .ok (some db')) :
    db' = { db with nodes := db.nodes ++ [node] } ∧ (∀ b ∈ db.bones, b.id ≠ node.id) ∧
      ∀ b ∈ db.bones, b.pageId = node.pageId → b.fingerprint ≠ node.fingerprint := by
  unfold insertNode at h
  split at h
  · simp at h
  · rename_i hid
    split at h
    · simp at h
    · rename_i hprint
      obtain rfl := Option.some.inj (Except.ok.inj h)
      refine ⟨rfl, ?_, not_mem_of_fingerprint (by simpa using hprint)⟩
      intro b hb heq
      obtain ⟨row, hrow, rfl⟩ := mem_map.mp hb
      exact hid (any_eq_true.mpr ⟨row, hrow, beq_iff_eq.mpr heq⟩)

variable {status : MapStatus}

variable {provenance : Option String}

theorem addNode_effect {op pageId : String} {request : NodeRequest F}
    {now : String} {reply : MapReply F}
    (h : addNode op db pageId baseRevision request status provenance nodeId now =
      .ok (reply, db')) : ∃ outcome, reply = .createdNode outcome ∧
      MapEffect pageId db (match outcome with | .created _ => .bumped | _ => .kept) db' := by
  obtain ⟨map, hopen, h⟩ := bind_eq_ok h
  obtain ⟨parent, hlive, h⟩ := bind_eq_ok h
  obtain ⟨inserted, hins, h⟩ := bind_eq_ok h
  obtain ⟨hmap, -⟩ := openAt_ok hopen
  obtain ⟨hread, hpar⟩ := liveNode_ok hlive
  obtain ⟨hparent, hparen, hpare⟩ := readMapNode_some hread
  cases inserted with
  | none =>
    dsimp only at h
    split at h
    · simp at h
    · rename_i row _
      cases h
      refine ⟨_, rfl, ?_⟩
      by_cases hdism : row.status = .dismissed
      · rw [conflicting, if_pos hdism]
        exact .kept
      · rw [conflicting, if_neg hdism]
        exact .kept
  | some inserted =>
    obtain ⟨rfl, hid, hfresh⟩ := insertNode_ok hins
    obtain ⟨bumped, hbump, h⟩ := bind_eq_ok h
    obtain ⟨rfl, hdb⟩ := Prod.mk.inj (Except.ok.inj h)
    refine ⟨_, rfl, ?_⟩
    obtain ⟨hbumped, hnodes⟩ := bumpRevision_ok hbump hmap hmap rfl fun _ _ => rfl
    have hlater : Bumped db db' pageId ∧ db'.bones = bumped.bones := by
      rw [← hdb]
      split
      · exact ⟨bumped_updateMap hbumped fun _ => rfl, rfl⟩
      · exact ⟨hbumped, rfl⟩
    have hbones : db'.bones = db.bones ++
        [(newNode pageId parent request status provenance nodeId now).bone] := by
      rw [hlater.2, bones, hnodes, map_append]
      rfl
    refine .bumped db' ?_ hlater.1
    rw [hbones]
    exact .grow parent.bone _ (mem_map_of_mem hparent) hpar hparen.symm
      (congrArg some hpare.symm) rfl hid hfresh

theorem createMapNode_effect {parseUuid : String → Option String}
    {pageId : String} {request : NodeRequest F} {now : String} {reply : MapReply F}
    (h : db.createMapNode parseUuid pageId baseRevision request nodeId now = .ok (reply, db')) :
    ∃ outcome, reply = .createdNode outcome ∧
      MapEffect pageId db (match outcome with | .created _ => .bumped | _ => .kept) db' := by
  obtain ⟨-, -, h⟩ := bind_eq_ok h
  obtain ⟨refId, -, h⟩ := bind_eq_ok h
  obtain ⟨-, -, h⟩ := bind_eq_ok h
  exact addNode_effect h

theorem createSuggestedMapNode_effect {pageId : String}
    {request : NodeRequest F} {provenance now : String} {reply : MapReply F}
    (h : db.createSuggestedMapNode pageId baseRevision request provenance nodeId now =
      .ok (reply, db')) : ∃ outcome, reply = .createdNode outcome ∧
      MapEffect pageId db (match outcome with | .created _ => .bumped | _ => .kept) db' := by
  obtain ⟨-, -, h⟩ := bind_eq_ok h
  obtain ⟨-, -, h⟩ := bind_eq_ok h
  exact addNode_effect h

/-! ### Patches -/

theorem transition_some {status' : MapStatus} {newStatus : String}
    (h : status.transition newStatus = some status') :
    (status' = .dismissed → newStatus = "dismissed") ∧
      (status = .active → newStatus = "dismissed") := by
  unfold MapStatus.transition at h
  split at h <;> cases h <;> simp

theorem countLiveChildren_eq_zero {pageId : String} (h : db.countLiveChildren pageId nodeId = 0) :
    ∀ c ∈ db.bones, c.pageId = pageId → c.parentId = some nodeId → ¬ c.isLive := by
  intro c hc hpage hparent hlive
  obtain ⟨node, hnode, rfl⟩ := mem_map.mp hc
  have hnone := countP_eq_zero.mp h node hnode
  simp only [Bool.and_eq_true, beq_iff_eq, bne_iff_ne] at hnone
  exact hnone ⟨⟨hpage, hparent⟩, hlive⟩

variable {newStatus : Option String}

theorem patchStatus_ok (h : db.patchStatus node newStatus = .ok status)
    (hlive : node.status ≠ .dismissed) (hroot : node.parentId = none → node.status = .active) :
    (node.parentId = none → status = node.status) ∧
      (status = .dismissed → ∀ c ∈ db.bones, c.pageId = node.pageId → c.parentId = some node.id →
        ¬ c.isLive) := by
  unfold patchStatus at h
  split at h
  · cases h
    exact ⟨fun _ => rfl, fun hdism => absurd hdism hlive⟩
  · rename_i wanted
    split at h
    · simp at h
    · rename_i hnotr
      split at h
      · simp at h
      · rename_i status' htransition
        obtain ⟨hdism, hactive⟩ := transition_some htransition
        split at h
        · simp at h
        · rename_i hchild
          cases h
          constructor
          · intro hnone
            exact absurd ⟨hnone, hactive (hroot hnone)⟩ hnotr
          · intro hstat
            have hcount : db.countLiveChildren node.pageId node.id = 0 := by
              by_contra hne
              exact hchild ⟨hdism hstat, Nat.pos_of_ne_zero hne⟩
            exact countLiveChildren_eq_zero hcount

variable {wanted : Option String}

theorem patchParent_ok
    {place : Option String × String} (h : db.patchParent node wanted = .ok place) :
    place = (node.parentId, node.fingerprint) ∨
      (node.parentId ≠ none ∧ ∃ target ∈ db.nodes, target.pageId = node.pageId ∧
        target.status ≠ .dismissed ∧ place.1 = some target.id ∧
        place.2 = fingerprintFor node.refKind node.refId (parentRefToken target) ∧
        db.nodeWouldCycle node.pageId node.id target.id = false ∧
        (place.2 = node.fingerprint ∨ ∀ row,
          db.readMapNodeByFingerprint node.pageId place.2 = some row → row.id = node.id)) := by
  unfold patchParent at h
  split at h
  · exact Or.inl (Except.ok.inj h).symm
  · rename_i target
    obtain ⟨_, hroot, h⟩ := bind_eq_ok h
    obtain ⟨-, -, h⟩ := bind_eq_ok h
    obtain ⟨parent, hlive, h⟩ := bind_eq_ok h
    obtain ⟨_, hcycle, h⟩ := bind_eq_ok h
    obtain ⟨_, hcol, h⟩ := bind_eq_ok h
    replace hroot := refuseIf_eq_ok hroot
    replace hcycle := refuseIf_eq_ok hcycle
    replace hcol := refuseIf_eq_ok hcol
    cases h
    obtain ⟨hread, hpar⟩ := liveNode_ok hlive
    obtain ⟨hparent, hpage, rfl⟩ := readMapNode_some hread
    refine Or.inr ⟨hroot, parent, hparent, hpage, hpar, rfl, rfl, by simpa using hcycle, ?_⟩
    rw [or_iff_not_imp_left]
    intro hne row hrow
    by_contra hid
    exact hcol ⟨hne, by rw [hrow]; simpa using hid⟩

theorem patched_of_checks {mapped : String → Prop} (hsound : Sound db.bones mapped)
    (hnode : node ∈ db.nodes) (hlive : node.status ≠ .dismissed)
    (hstat : db.patchStatus node newStatus = .ok status)
    {place : Option String × String} (hplace : db.patchParent node wanted = .ok place) :
    Patched db.bones node.bone
      { node.bone with parentId := place.1, status, fingerprint := place.2 } := by
  have hmem : node.bone ∈ db.bones := mem_map_of_mem hnode
  have hroot : node.parentId = none → node.status = .active := by
    intro hnone
    obtain ⟨r, -, -, -, hactive, honly⟩ := hsound.root node.pageId (hsound.housed _ hmem)
    rw [← honly node.bone hmem rfl hnone] at hactive
    exact hactive
  obtain ⟨hkeep, hchild⟩ := patchStatus_ok hstat hlive hroot
  have hchil : status = .dismissed → ∀ c ∈ db.bones, c.pageId = node.pageId →
      c.parentId = some node.id → ¬ c.isLive := hchild
  rcases patchParent_ok hplace with rfl | ⟨hnotr, target, htarg, hpage, htlive, hlink, hprint,
    hcycle, hfree⟩
  · exact ⟨⟨rfl, rfl, rfl, rfl, rfl⟩, hmem, hlive, hkeep,
      fun hdead => hchil (not_not.mp hdead), Or.inl ⟨rfl, rfl⟩⟩
  · refine ⟨⟨rfl, rfl, rfl, rfl, ?_⟩, hmem, hlive, fun hnone => absurd hnone hnotr,
      fun hdead => hchil (not_not.mp hdead),
      Or.inr ⟨target.bone, mem_map_of_mem htarg, hpage, htlive, hlink, hprint,
        ⟨10000, ?_⟩, ?_⟩⟩
    · rw [hlink, Option.isNone_some]
      exact (Option.isNone_eq_false_iff.mpr (Option.isSome_iff_ne_none.mpr hnotr)).symm
    · rw [← up_eq]
      exact hcycle
    · intro a ha hapage hapr
      rcases hfree with hsame | hfree
      · exact hsound.prints a ha _ hmem hapage (hapr.trans hsame)
      · cases hread : db.readMapNodeByFingerprint node.pageId place.2 with
        | none => exact absurd hapr (not_mem_of_fingerprint hread a ha hapage)
        | some row =>
          have hkey := find?_some hread
          simp only [Bool.and_eq_true, beq_iff_eq] at hkey
          have hrow : row.bone ∈ db.bones :=
            mem_map_of_mem (mem_of_find?_eq_some hread)
          rw [hsound.prints a ha row.bone hrow (hapage.trans hkey.1.symm)
            (hapr.trans hkey.2.symm)]
          exact eq_of_id hsound.ids hrow hmem (hfree row hread)

theorem patchMapNode_effect {mapped : String → Prop}
    (hsound : Sound db.bones mapped) {pageId : String} {now : String}
    {patch : NodePatch F} {reply : MapReply F}
    (h : db.patchMapNode pageId baseRevision nodeId patch now = .ok (reply, db')) :
    (∃ node, reply = .node node) ∧ MapEffect pageId db .bumped db' := by
  obtain ⟨map, hopen, h⟩ := bind_eq_ok h
  obtain ⟨hmap, -⟩ := openAt_ok hopen
  cases hread : db.readMapNode pageId nodeId with
  | none => simp [hread] at h
  | some node =>
    rw [hread] at h
    obtain ⟨hnode, rfl, rfl⟩ := readMapNode_some hread
    obtain ⟨-, -, h⟩ := bind_eq_ok h
    obtain ⟨_, hlive, h⟩ := bind_eq_ok h
    obtain ⟨status, hstat, h⟩ := bind_eq_ok h
    obtain ⟨place, hplace, h⟩ := bind_eq_ok h
    obtain ⟨bumped, hbump, h⟩ := bind_eq_ok h
    cases h
    refine ⟨⟨_, rfl⟩, bumped_of_bumpRevision hbump hmap rfl ?_⟩
    rw [bones_updateNode]
    exact .patch _ _ (patched_of_checks hsound hnode (refuseIf_eq_ok hlive) hstat hplace)

theorem insertEdge_ok {edge : PageMapEdge}
    (h : db.insertEdge edge = .ok (some db')) : db' = { db with edges := db.edges ++ [edge] } := by
  unfold insertEdge at h
  split at h
  · simp at h
  · split at h
    · simp at h
    · exact (Option.some.inj (Except.ok.inj h)).symm

theorem addEdge_effect {op pageId : String} {request : EdgeRequest}
    {edgeId now : String} {reply : MapReply F}
    (h : addEdge op db pageId baseRevision request status provenance edgeId now =
      .ok (reply, db')) : ∃ outcome, reply = .createdEdge outcome ∧
      MapEffect pageId db (match outcome with | .created _ => .bumped | _ => .kept) db' := by
  obtain ⟨-, -, h⟩ := bind_eq_ok h
  obtain ⟨-, -, h⟩ := bind_eq_ok h
  obtain ⟨map, hopen, h⟩ := bind_eq_ok h
  obtain ⟨-, -, h⟩ := bind_eq_ok h
  obtain ⟨-, -, h⟩ := bind_eq_ok h
  obtain ⟨inserted, hins, h⟩ := bind_eq_ok h
  obtain ⟨hmap, -⟩ := openAt_ok hopen
  cases inserted with
  | none =>
    dsimp only at h
    split at h
    · simp at h
    · rename_i row _
      cases h
      refine ⟨_, rfl, ?_⟩
      by_cases hdism : row.status = .dismissed
      · rw [conflicting, if_pos hdism]
        exact .kept
      · rw [conflicting, if_neg hdism]
        exact .kept
  | some inserted =>
    obtain rfl := insertEdge_ok hins
    obtain ⟨bumped, hbump, h⟩ := bind_eq_ok h
    cases h
    exact ⟨_, rfl, bumped_of_bumpRevision hbump hmap rfl .same⟩

theorem patchMapEdge_effect {pageId : String}
    {edgeId now : String} {patch : EdgePatch} {reply : MapReply F}
    (h : db.patchMapEdge pageId baseRevision edgeId patch now = .ok (reply, db')) :
    (∃ edge, reply = .edge edge) ∧ MapEffect pageId db .bumped db' := by
  obtain ⟨map, hopen, h⟩ := bind_eq_ok h
  obtain ⟨hmap, -⟩ := openAt_ok hopen
  cases hread : db.readMapEdge pageId edgeId with
  | none => simp [hread] at h
  | some edge =>
    rw [hread] at h
    obtain ⟨-, -, h⟩ := bind_eq_ok h
    obtain ⟨status, -, h⟩ := bind_eq_ok h
    obtain ⟨bumped, hbump, h⟩ := bind_eq_ok h
    cases h
    exact ⟨⟨_, rfl⟩, bumped_of_bumpRevision hbump hmap rfl .same⟩

theorem placeNodes_ok {pageId now : String} {positions : List (NodeLayout F)}
    (h : positions.foldlM (placeNode pageId now) db = .ok db') :
    db'.maps = db.maps ∧ db'.bones = db.bones := by
  induction positions generalizing db with
  | nil =>
    cases h
    exact ⟨rfl, rfl⟩
  | cons pos rest ih =>
    rw [foldlM_cons] at h
    obtain ⟨placed, hplace, hrest⟩ := bind_eq_ok h
    obtain ⟨hmaps, hbones⟩ := ih hrest
    unfold placeNode at hplace
    split at hplace
    · simp at hplace
    · cases hplace
      exact ⟨hmaps, hbones.trans (bones_updateNode_congr db pageId pos.nodeId fun _ => rfl)⟩

theorem putPageMapLayout_effect {pageId : String}
    {viewport : Option String} {positions : List (NodeLayout F)} {now : String} {reply : MapReply F}
    (h : db.putPageMapLayout pageId baseRevision viewport positions now = .ok (reply, db')) :
    (∃ nodes created, reply = .data nodes created) ∧ MapEffect pageId db .bumped db' := by
  obtain ⟨map, hopen, h⟩ := bind_eq_ok h
  obtain ⟨placed, hplac, h⟩ := bind_eq_ok h
  obtain ⟨bumped, hbump, h⟩ := bind_eq_ok h
  obtain ⟨rfl, rfl⟩ := Prod.mk.inj (Except.ok.inj h)
  obtain ⟨hmap, -⟩ := openAt_ok hopen
  obtain ⟨hmaps, hbones⟩ := placeNodes_ok hplac
  have hmap' : (placed.updateMap pageId fun map => { map with viewport, updatedAt := now }).maps
      pageId = some { map with viewport, updatedAt := now } := by
    simp [updateMap, hmaps, hmap]
  obtain ⟨hbumped, hnodes⟩ := bumpRevision_ok hbump hmap hmap' rfl
    fun other hne => by simp [updateMap, hmaps, hne]
  refine ⟨⟨_, _, rfl⟩, .bumped _ ?_ hbumped⟩
  rw [show bumped.bones = db.bones by rw [← hbones, bones, bones, hnodes]; rfl]
  exact .same

theorem initPageMap_effect {zero : F} {pageId rootId now : String}
    {reply : MapReply F} (h : db.initPageMap zero pageId rootId now = .ok (reply, db')) :
    ∃ nodes created, reply = .data nodes created ∧
      MapEffect pageId db (if created then .planted else .kept) db' := by
  obtain ⟨-, -, h⟩ := bind_eq_ok h
  by_cases hmap : (db.maps pageId).isSome
  · rw [if_pos hmap] at h
    cases h
    exact ⟨_, _, rfl, .kept⟩
  · rw [if_neg hmap] at h
    obtain ⟨inserted, hins, h⟩ := bind_eq_ok h
    cases inserted with
    | none => simp at h
    | some inserted =>
      obtain ⟨rfl, hid, -⟩ := insertNode_ok hins
      cases h
      refine ⟨_, _, rfl, ?_⟩
      rw [if_pos rfl]
      refine .planted _ (rootNode zero pageId rootId now).bone
        (Option.not_isSome_iff_eq_none.mp hmap) rfl rfl rfl rfl hid ?_ ?_ ?_
      · exact map_append
      · simp [updateMap]
      · intro other hne
        simp [updateMap, hne]

theorem resetPageMap_effect {pageId : String} {reply : MapReply F}
    (h : db.resetPageMap pageId = .ok (reply, db')) : MapEffect pageId db .cleared db' := by
  obtain ⟨-, -, h⟩ := bind_eq_ok h
  obtain ⟨-, rfl⟩ := Prod.mk.inj (Except.ok.inj h)
  refine .cleared _ ?_ (if_pos rfl) fun other hne => if_neg hne
  rw [clearPage, bones, bones, filter_map]
  rfl

theorem stampPageMapGeneratedAt_effect {pageId generatedAt : String}
    {reply : MapReply F} (h : db.stampPageMapGeneratedAt pageId generatedAt = .ok (reply, db')) :
    MapEffect pageId db .stamped db' := by
  obtain ⟨-, -, h⟩ := bind_eq_ok h
  obtain ⟨-, rfl⟩ := Prod.mk.inj (Except.ok.inj h)
  refine .stamped _ rfl rfl fun other => ?_
  by_cases hpage : other = pageId
  · rw [hpage]
    cases hmap : db.maps pageId with
    | none => simp [updateMap, hmap]
    | some map => simp [updateMap, hmap]
  · simp [updateMap, hpage]

end Tables

end Wenlan.Pages
