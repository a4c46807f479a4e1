import Wenlan.Pages.MapTree

/-!
# Runs of page map operations

From the effect of one operation to every run of them on any number of pages, with the
pages changing their own status in between.
-/

namespace Wenlan.Pages

open Support.Spine Tables

variable {F : Type}

def Tables.empty (pages : String → Option String) : Tables F :=
  { pages, maps := fun _ => none, nodes := [], edges := [] }

/-- A request for a page's map, or a change of the pages themselves. -/
inductive MapEvent (F : Type) where
  | request (pageId now : String) (op : MapOp F)
  | pages (status : String → Option String)

def MapEvent.apply (parseUuid : String → Option String) (db : Tables F) : MapEvent F → Tables F
  | .request pageId now op => (op.exec parseUuid db pageId now).2
  | .pages status => { db with pages := status }

def runEvents (parseUuid : String → Option String) (db : Tables F) (events : List (MapEvent F)) :
    Tables F :=
  events.foldl (MapEvent.apply parseUuid) db

def MapEvent.resets (pageId : String) : MapEvent F → Prop
  | .request other _ .resetPageMap => other = pageId
  | _ => False

variable {parseUuid : String → Option String} {db : Tables F}

variable {op : MapOp F}

theorem body_effect {db' : Tables F}
    {mapped : String → Prop} (hsound : Sound db.bones mapped) {pageId now : String}
    {reply : MapReply F} (h : op.body parseUuid db pageId now = .ok (reply, db')) :
    MapEffect pageId db (reported op reply) db' := by
  cases op with
  | initPageMap =>
    obtain ⟨nodes, created, rfl, heff⟩ := initPageMap_effect h
    exact heff
  | resetPageMap => exact resetPageMap_effect h
  | stampPageMapGeneratedAt => exact stampPageMapGeneratedAt_effect h
  | createMapNode =>
    obtain ⟨outcome, rfl, heff⟩ := createMapNode_effect h
    cases outcome <;> exact heff
  | createSuggestedMapNode =>
    obtain ⟨outcome, rfl, heff⟩ := createSuggestedMapNode_effect h
    cases outcome <;> exact heff
  | patchMapNode =>
    obtain ⟨⟨node, rfl⟩, heff⟩ := patchMapNode_effect hsound h
    exact heff
  | deleteMapNode =>
    obtain ⟨⟨node, rfl⟩, heff⟩ := patchMapNode_effect hsound h
    exact heff
  | createMapEdge =>
    obtain ⟨outcome, rfl, heff⟩ := addEdge_effect h
    cases outcome <;> exact heff
  | createSuggestedMapEdge =>
    obtain ⟨outcome, rfl, heff⟩ := addEdge_effect h
    cases outcome <;> exact heff
  | patchMapEdge =>
    obtain ⟨⟨edge, rfl⟩, heff⟩ := patchMapEdge_effect h
    exact heff
  | deleteMapEdge =>
    obtain ⟨⟨edge, rfl⟩, heff⟩ := patchMapEdge_effect h
    exact heff
  | putPageMapLayout =>
    obtain ⟨⟨nodes, created, rfl⟩, heff⟩ := putPageMapLayout_effect h
    exact heff

theorem reported_cleared {reply : MapReply F} (h : reported op reply = .cleared) :
    op = .resetPageMap := by
  unfold reported at h
  split at h
  · split at h <;> simp at h
  · rfl
  all_goals simp at h

section

variable {pageId : String} {db' : Tables F} {kind : EffectKind}
  (heff : MapEffect pageId db kind db') (h : Sound db.bones db.mapped)
include heff h

theorem MapEffect.sound : Sound db'.bones db'.mapped := by
  have hmaps : ∀ {db₁ db₂ : Tables F}, (∀ other ≠ pageId, db₂.maps other = db₁.maps other) →
      ((db₂.maps pageId).isSome ↔ (db₁.maps pageId).isSome) → db₂.mapped = db₁.mapped := by
    intro db₁ db₂ hother hself
    funext other
    by_cases hpage : other = pageId
    · rw [hpage]
      exact propext hself
    · exact congrArg (fun map : Option PageMap => map.isSome = true) (hother other hpage)
  cases heff with
  | kept => exact h
  | bumped _ hspine hbumped =>
    obtain ⟨⟨map, map', hmap, hmap', -⟩, hother⟩ := hbumped
    rw [hmaps hother (by simp [hmap, hmap'])]
    exact hspine.sound h
  | planted _ root hnone hpage hparent hactive hprint hid hbones hmap hother =>
    have hfresh : ¬ db.mapped root.pageId := by
      rw [hpage, mapped, hnone]
      simp
    rw [hbones]
    have hplant := h.plant hfresh hparent hactive hprint hid
    have hmappe : db'.mapped = fun other => other = root.pageId ∨ db.mapped other := by
      funext other
      apply propext
      by_cases hne : other = pageId
      · have hsome : (db'.maps other).isSome := by
          rw [hne, ← Option.isSome_map (f := PageMap.revision), hmap]
          rfl
        exact ⟨fun _ => Or.inl (hne.trans hpage.symm), fun _ => hsome⟩
      · rw [mapped, mapped, hother other hne, hpage]
        exact ⟨Or.inr, fun h => h.resolve_left hne⟩
    rw [hmappe]
    exact hplant
  | stamped _ hnodes hedges hrev =>
    have hmappe : db'.mapped = db.mapped := by
      funext other
      have hsame := congrArg Option.isSome (hrev other)
      rw [Option.isSome_map, Option.isSome_map] at hsame
      rw [mapped, mapped, hsame]
    rw [hmappe, bones, hnodes]
    exact h
  | cleared _ hbones hmap hother =>
    have hmappe : db'.mapped = fun other => other ≠ pageId ∧ db.mapped other := by
      funext other
      apply propext
      by_cases hne : other = pageId
      · rw [hne, mapped, hmap]
        simp
      · rw [mapped, hother other hne]
        exact ⟨fun h => ⟨hne, h⟩, And.right⟩
    rw [hbones, hmappe]
    exact h.clear pageId

theorem MapEffect.dismissed {b : Bone} (hb : b ∈ db.bones) (hdism : b.status = .dismissed)
    (hkept : kind = .cleared → b.pageId ≠ pageId) : b ∈ db'.bones := by
  cases heff with
  | kept => exact hb
  | bumped _ hspine _ => exact hspine.dismissed h.ids hb hdism
  | planted _ root _ _ _ _ _ _ hbones _ _ =>
    rw [hbones]
    exact List.mem_append_left _ hb
  | stamped _ hnodes _ _ =>
    rw [bones, hnodes]
    exact hb
  | cleared _ hbones _ _ =>
    rw [hbones]
    exact mem_clearPage.mpr ⟨hb, hkept rfl⟩

end

section

variable (parseUuid : String → Option String)

theorem apply_effect (db : Tables F) (h : Sound db.bones db.mapped) (event : MapEvent F) :
    (∃ pages, event.apply parseUuid db = { db with pages }) ∨
      ∃ pageId kind, MapEffect pageId db kind (event.apply parseUuid db) ∧
        (kind = .cleared → event.resets pageId) := by
  cases event with
  | pages status => exact Or.inl ⟨status, rfl⟩
  | request pageId now op =>
    rw [MapEvent.apply, MapOp.exec]
    cases hbody : op.body parseUuid db pageId now with
    | error error => exact Or.inl ⟨db.pages, rfl⟩
    | ok outcome =>
      refine Or.inr ⟨pageId, reported op outcome.1, body_effect h hbody, fun hclea => ?_⟩
      rw [reported_cleared hclea]
      rfl

theorem apply_sound (h : Sound db.bones db.mapped) (event : MapEvent F) :
    Sound (event.apply parseUuid db).bones (event.apply parseUuid db).mapped := by
  rcases apply_effect parseUuid db h event with ⟨pages, happly⟩ | ⟨pageId, kind, heff, -⟩
  · rw [happly]
    exact h
  · exact heff.sound h

theorem run_sound (events : List (MapEvent F)) : ∀ {db : Tables F}, Sound db.bones db.mapped →
      Sound (runEvents parseUuid db events).bones (runEvents parseUuid db events).mapped := by
  induction events with
  | nil => exact fun h => h
  | cons event rest ih =>
    intro db h
    exact ih (apply_sound parseUuid h event)

theorem run_dismissed (events : List (MapEvent F)) {b : Bone}
    (hdism : b.status = .dismissed) : ∀ {db : Tables F}, Sound db.bones db.mapped →
      (∀ event ∈ events, ¬ event.resets b.pageId) → b ∈ db.bones →
      b ∈ (runEvents parseUuid db events).bones := by
  induction events with
  | nil => exact fun _ _ hb => hb
  | cons event rest ih =>
    intro db h hresets hb
    rw [List.forall_mem_cons] at hresets
    refine ih (apply_sound parseUuid h event) hresets.2 ?_
    rcases apply_effect parseUuid db h event with ⟨pages, happly⟩ | ⟨pageId, kind, heff, hclear⟩
    · rw [happly]
      exact hb
    · refine heff.dismissed h hb hdism ?_
      rintro hclea hpage
      rw [← hpage] at hclear
      exact hresets.1 (hclear hclea)

end

theorem empty_sound (pages : String → Option String) :
    Sound (empty (F := F) pages).bones (empty (F := F) pages).mapped := by
  refine ⟨List.nodup_nil, ?_, ?_, ?_, ?_, ?_, ?_⟩
  · intro a ha
    exact absurd ha List.not_mem_nil
  · intro a ha
    exact absurd ha List.not_mem_nil
  · intro pageId hmappe
    exact absurd hmappe (by simp [empty, mapped])
  all_goals
    intro a ha
    exact absurd ha List.not_mem_nil

def Tables.live (db : Tables F) (pageId id : String) : Prop :=
  ∃ node ∈ db.nodes, node.pageId = pageId ∧ node.id = id ∧ node.status ≠ .dismissed

/-- One active root; every live node reaches it through live nodes; every fingerprint is that
of the node's own reference under its current parent, and no two are the same. -/
structure MapTree (db : Tables F) (pageId : String) : Prop where
  root : ∃ root ∈ db.nodes, root.pageId = pageId ∧ root.parentId = none ∧ root.status = .active ∧
    (∀ node ∈ db.nodes, node.pageId = pageId → node.parentId = none → node = root) ∧
    ∀ node ∈ db.nodes, node.pageId = pageId → node.status ≠ .dismissed →
      Climbs (db.up pageId) (db.live pageId) root.id node.id
  located : ∀ node ∈ db.nodes, node.pageId = pageId →
    (node.parentId = none ∧ node.fingerprint = fingerprintFor node.refKind node.refId "~") ∨
    ∃ parent ∈ db.nodes, parent.pageId = pageId ∧ node.parentId = some parent.id ∧
      node.fingerprint = fingerprintFor node.refKind node.refId (parentRefToken parent)
  unique : ∀ a ∈ db.nodes, ∀ b ∈ db.nodes, a.pageId = pageId → b.pageId = pageId →
    a.fingerprint = b.fingerprint → a = b

theorem eq_of_bone (hids : (db.bones.map Bone.id).Nodup) {a b : PageMapNode F}
    (ha : a ∈ db.nodes) (hb : b ∈ db.nodes) (h : a.bone = b.bone) : a = b := by
  rw [bones, List.map_map] at hids
  exact List.inj_on_of_nodup_map hids ha hb (congrArg Bone.id h)

theorem live_iff (db : Tables F) (pageId id : String) :
    liveIn db.bones pageId id ↔ db.live pageId id := by
  constructor
  · rintro ⟨b, hb, hpage, hid, hlive⟩
    obtain ⟨node, hnode, rfl⟩ := List.mem_map.mp hb
    exact ⟨node, hnode, hpage, hid, hlive⟩
  · rintro ⟨node, hnode, hpage, hid, hlive⟩
    exact ⟨node.bone, List.mem_map_of_mem hnode, hpage, hid, hlive⟩

theorem Sound.mapTree (h : Sound db.bones db.mapped) {pageId : String}
    (hmappe : db.mapped pageId) : MapTree db pageId := by
  refine ⟨?_, ?_, ?_⟩
  · obtain ⟨r, hr, hrpage, hrnone, hract, honly⟩ := h.root pageId hmappe
    obtain ⟨root, hroot, rfl⟩ := List.mem_map.mp hr
    refine ⟨root, hroot, hrpage, hrnone, hract, ?_, ?_⟩
    · intro node hnode hpage hnone
      exact eq_of_bone h.ids hnode hroot
        (honly node.bone (List.mem_map_of_mem hnode) hpage hnone)
    · intro node hnode hpage hlive
      have hclimb := h.climbs root.bone hr hrnone node.bone (List.mem_map_of_mem hnode)
        (hpage.trans hrpage.symm) hlive
      rw [show root.bone.pageId = pageId from hrpage] at hclimb
      refine hclimb.mono (fun id hid => (live_iff db pageId id).mp hid) fun id _ => ?_
      rw [up_eq]
  · intro node hnode hpage
    have hmem : node.bone ∈ db.bones := List.mem_map_of_mem hnode
    cases hparent : node.parentId with
    | none => exact Or.inl ⟨rfl, h.rootPrint node.bone hmem hparent⟩
    | some p =>
      obtain ⟨m, hm, hmpage, hmid, hprint⟩ := h.linked node.bone hmem p hparent
      obtain ⟨parent, hp, rfl⟩ := List.mem_map.mp hm
      exact Or.inr ⟨parent, hp, hmpage.trans hpage, congrArg some hmid.symm, hprint⟩
  · intro a ha b hb hapage hbpage hprint
    exact eq_of_bone h.ids ha hb (h.prints a.bone (List.mem_map_of_mem ha) b.bone
      (List.mem_map_of_mem hb) (hapage.trans hbpage.symm) hprint)

def ReachableTables (parseUuid : String → Option String) (db : Tables F) : Prop :=
  ∃ pages events, db = runEvents parseUuid (.empty pages) events

theorem ReachableTables.sound (h : ReachableTables parseUuid db) : Sound db.bones db.mapped := by
  obtain ⟨pages, events, rfl⟩ := h
  exact run_sound parseUuid events (empty_sound pages)

/-- What a successful operation does to the revisions, by what it answers.  A duplicate, a
tombstone and the map that is there already change nothing. -/
def RevisionLaw (pageId : String) (db db' : Tables F) : EffectKind → Prop
  | .kept => db' = db
  | .bumped => Bumped db db' pageId
  | .planted => db.maps pageId = none ∧ (db'.maps pageId).map PageMap.revision = some 1 ∧
      ∀ other ≠ pageId, db'.maps other = db.maps other
  | .stamped => db'.nodes = db.nodes ∧ db'.edges = db.edges ∧
      ∀ other, (db'.maps other).map PageMap.revision = (db.maps other).map PageMap.revision
  | .cleared => db'.maps pageId = none ∧ ∀ other ≠ pageId, db'.maps other = db.maps other

theorem MapEffect.revisionLaw {pageId : String} {db' : Tables F} {kind : EffectKind}
    (heff : MapEffect pageId db kind db') : RevisionLaw pageId db db' kind := by
  cases heff with
  | kept => rfl
  | bumped _ _ hbumped => exact hbumped
  | planted _ _ hnone _ _ _ _ _ _ hmap hother => exact ⟨hnone, hmap, hother⟩
  | stamped _ hnodes hedges hmaps => exact ⟨hnodes, hedges, hmaps⟩
  | cleared _ _ hmap hother => exact ⟨hmap, hother⟩

theorem exec_error {pageId now : String} {error : WenlanError}
    (h : (op.exec parseUuid db pageId now).1 = .error error) :
    (op.exec parseUuid db pageId now).2 = db := by
  unfold MapOp.exec at h ⊢
  split at h
  · simp at h
  · rfl

theorem exec_ok {pageId now : String} {reply : MapReply F}
    (h : (op.exec parseUuid db pageId now).1 = .ok reply) :
    op.body parseUuid db pageId now = .ok (reply, (op.exec parseUuid db pageId now).2) := by
  unfold MapOp.exec at h ⊢
  cases hbody : op.body parseUuid db pageId now with
  | error error => simp [hbody] at h
  | ok outcome =>
    rw [hbody] at h
    rw [← Except.ok.inj h]

/-- After any run every map is a tree; a dismissed node is dismissed, with a fingerprint that
no live node has, until its map is reset; a failed operation changes nothing; and an operation
that changes the map's contents moves its revision up by one. -/
theorem page_map_tree {parseUuid : String → Option String} {db : Tables F}
    (hdb : ReachableTables parseUuid db) :
    (∀ pageId, (db.maps pageId).isSome = true → MapTree db pageId) ∧
    (∀ later : List (MapEvent F), ∀ node ∈ db.nodes, node.status = .dismissed →
      (∀ event ∈ later, ¬ event.resets node.pageId) →
      (∃ node' ∈ (runEvents parseUuid db later).nodes, node'.id = node.id ∧
        node'.pageId = node.pageId ∧ node'.status = .dismissed ∧
        node'.fingerprint = node.fingerprint) ∧
      ∀ live ∈ (runEvents parseUuid db later).nodes, live.pageId = node.pageId →
        live.status ≠ .dismissed → live.fingerprint ≠ node.fingerprint) ∧
    (∀ (pageId now : String) (op : MapOp F) error, (op.exec parseUuid db pageId now).1 = .error error →
      (op.exec parseUuid db pageId now).2 = db) ∧
    ∀ (pageId now : String) (op : MapOp F) reply, (op.exec parseUuid db pageId now).1 = .ok reply →
      RevisionLaw pageId db (op.exec parseUuid db pageId now).2 (reported op reply) := by
  have hsound := hdb.sound
  refine ⟨fun pageId hmappe => hsound.mapTree hmappe, ?_, fun _ _ _ _ => exec_error, ?_⟩
  · intro later node hnode hdism hresets
    have hkept := run_dismissed parseUuid later (b := node.bone) hdism hsound hresets
      (List.mem_map_of_mem hnode)
    have hlater := run_sound parseUuid later hsound
    obtain ⟨node', hnode', hbone⟩ := List.mem_map.mp hkept
    refine ⟨⟨node', hnode', congrArg Bone.id hbone, congrArg Bone.pageId hbone, ?_,
      congrArg Bone.fingerprint hbone⟩, ?_⟩
    · exact (congrArg Bone.status hbone).trans hdism
    · intro live hlive hpage hstatus hprint
      have heq := hlater.prints live.bone (List.mem_map_of_mem hlive) node.bone hkept hpage hprint
      exact hstatus ((congrArg Bone.status heq).trans hdism)
  · intro pageId now op reply hreply
    exact (body_effect hsound (exec_ok hreply)).revisionLaw

/-- A page, its map, a section under the root, and the section dismissed. -/
def tombstoneEvents : List (MapEvent Nat) :=
  [.request "p" "t0" (.initPageMap 0 "root"),
    .request "p" "t1" (.createMapNode 1 ⟨"root", "section", "intro", none, 0⟩ "n1"),
    .request "p" "t2" (.deleteMapNode 2 "n1")]

def tombstoneTables : Tables Nat :=
  runEvents some (.empty fun _ => some "active") tombstoneEvents

/-- The map is at revision 3 with a live root and a dismissed node. -/
theorem page_map_tree_tombstone : (tombstoneTables.maps "p").map PageMap.revision = some 3 ∧
    tombstoneTables.nodes.map PageMapNode.status = [.active, .dismissed] ∧
    MapTree tombstoneTables "p" := by
  refine ⟨by decide +kernel, by decide +kernel, ?_⟩
  exact (page_map_tree ⟨fun _ => some "active", tombstoneEvents, rfl⟩).1 "p" (by decide +kernel)

/-- The section is created again, under another id: the answer is a success, and the revision
is what it was. -/
theorem tombstoned_create_keeps_revision : ¬ ∀ (db : Tables Nat), ReachableTables some db →
      ∀ (pageId now : String) (op : MapOp Nat) reply, (op.exec some db pageId now).1 = .ok reply →
        Bumped db (op.exec some db pageId now).2 pageId := by
  intro hall
  let op : MapOp Nat := .createMapNode 3 ⟨"root", "section", "intro", none, 0⟩ "n2"
  have hok : (op.exec some tombstoneTables "p" "t3").1.toBool = true := by decide +kernel
  have hrevis : ((op.exec some tombstoneTables "p" "t3").2.maps "p").map PageMap.revision =
      (tombstoneTables.maps "p").map PageMap.revision := by decide +kernel
  cases hreply : (op.exec some tombstoneTables "p" "t3").1 with
  | error error =>
    rw [hreply] at hok
    simp [Except.toBool] at hok
  | ok reply =>
    obtain ⟨⟨map, map', hmap, hmap', hnext⟩, -⟩ :=
      hall tombstoneTables ⟨fun _ => some "active", tombstoneEvents, rfl⟩ "p" "t3" op reply hreply
    rw [hmap, hmap', Option.map_some, Option.map_some, Option.some.injEq] at hrevis
    omega

end Wenlan.Pages
