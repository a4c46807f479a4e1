import Wenlan.Pages.MapTables

/-!
# The spine of a map

What of a node decides the shape of the tree: its page, its parent, its reference, its
status and its fingerprint.  The spines of all pages lie in one list.  There are four ways
to change it, and a sound spine stays sound under each of them.
-/

namespace Wenlan.Pages

open Support.Spine List

/-- A node without what only a display reads. -/
structure Bone where
  id : String
  pageId : String
  parentId : Option String
  refKind : String
  refId : String
  status : MapStatus
  fingerprint : String

variable {b : Bone}

variable {b' : Bone}

namespace Bone

/-- The token of `parentRefToken`. -/
def token (b : Bone) : String :=
  if b.parentId.isNone then "~" else b.refKind ++ String.singleton fingerprintSep ++ b.refId

def isLive (b : Bone) : Prop := b.status ≠ .dismissed

/-- The two bones are the same node at two times: its reference and its being the root never
change. -/
structure SameNode (b b' : Bone) : Prop where
  id : b'.id = b.id
  pageId : b'.pageId = b.pageId
  refKind : b'.refKind = b.refKind
  refId : b'.refId = b.refId
  root : b'.parentId.isNone = b.parentId.isNone

theorem SameNode.token_eq (h : SameNode b b') : b'.token = b.token := by
  rw [token, token, h.root, h.refKind, h.refId]

end Bone

/-- The node of `pageId`'s map with that id. -/
def findBone (bones : List Bone) (pageId id : String) : Option Bone :=
  bones.find? fun b => b.pageId == pageId && b.id == id

def upOf (bones : List Bone) (pageId id : String) : Option String :=
  (findBone bones pageId id).bind Bone.parentId

def liveIn (bones : List Bone) (pageId id : String) : Prop :=
  ∃ b ∈ bones, b.pageId = pageId ∧ b.id = id ∧ b.isLive

/-- The tree invariant; `mapped` says which pages have a map. -/
structure Sound (bones : List Bone) (mapped : String → Prop) : Prop where
  ids : (bones.map Bone.id).Nodup
  prints : ∀ a ∈ bones, ∀ b ∈ bones, a.pageId = b.pageId → a.fingerprint = b.fingerprint → a = b
  housed : ∀ b ∈ bones, mapped b.pageId
  root : ∀ pageId, mapped pageId → ∃ r ∈ bones, r.pageId = pageId ∧ r.parentId = none ∧
    r.status = .active ∧ ∀ b ∈ bones, b.pageId = pageId → b.parentId = none → b = r
  linked : ∀ b ∈ bones, ∀ p, b.parentId = some p → ∃ m ∈ bones, m.pageId = b.pageId ∧ m.id = p ∧
    b.fingerprint = fingerprintFor b.refKind b.refId m.token
  rootPrint : ∀ b ∈ bones, b.parentId = none → b.fingerprint = fingerprintFor b.refKind b.refId "~"
  climbs : ∀ r ∈ bones, r.parentId = none → ∀ b ∈ bones, b.pageId = r.pageId → b.isLive →
    Climbs (upOf bones r.pageId) (liveIn bones r.pageId) r.id b.id

variable {bones : List Bone} {mapped : String → Prop}

theorem eq_of_id (hids : (bones.map Bone.id).Nodup) {a : Bone} (ha : a ∈ bones) (hb : b ∈ bones)
    (h : a.id = b.id) : a = b :=
  inj_on_of_nodup_map hids ha hb h

theorem findBone_eq_some (hids : (bones.map Bone.id).Nodup) {pageId id : String} :
    findBone bones pageId id = some b ↔ b ∈ bones ∧ b.pageId = pageId ∧ b.id = id := by
  constructor
  · intro h
    have hkey := find?_some h
    simp only [Bool.and_eq_true, beq_iff_eq] at hkey
    exact ⟨mem_of_find?_eq_some h, hkey.1, hkey.2⟩
  · rintro ⟨hmem, hpage, hid⟩
    cases hfind : findBone bones pageId id with
    | none =>
      have hnone := find?_eq_none.mp hfind b hmem
      simp [hpage, hid] at hnone
    | some b' =>
      have hkey := find?_some hfind
      simp only [Bool.and_eq_true, beq_iff_eq] at hkey
      have heq := eq_of_id hids (mem_of_find?_eq_some hfind) hmem (hkey.2.trans hid.symm)
      rw [heq]

theorem upOf_of_mem (hids : (bones.map Bone.id).Nodup) (hmem : b ∈ bones) :
    upOf bones b.pageId b.id = b.parentId := by
  rw [upOf, (findBone_eq_some hids).mpr ⟨hmem, rfl, rfl⟩, Option.bind_some]

/-! ## A new node -/

theorem nodup_append_ids (hids : (bones.map Bone.id).Nodup)
    (hid : ∀ a ∈ bones, a.id ≠ b.id) : ((bones ++ [b]).map Bone.id).Nodup := by
  rw [map_append, nodup_append]
  refine ⟨hids, by simp, ?_⟩
  intro x hx y hy
  obtain ⟨a, ha, rfl⟩ := mem_map.mp hx
  simp only [map_cons, map_nil, mem_singleton] at hy
  rw [hy]
  exact hid a ha

theorem upOf_append {pageId id : String} (hne : id ≠ b.id) :
    upOf (bones ++ [b]) pageId id = upOf bones pageId id := by
  have hfind : findBone (bones ++ [b]) pageId id = findBone bones pageId id := by
    rw [findBone, find?_append, findBone]
    have hnone : [b].find? (fun b => b.pageId == pageId && b.id == id) = none := by
      simp [Ne.symm hne]
    rw [hnone, Option.or_none]
  rw [upOf, hfind, upOf]

variable {x : Bone}

theorem mem_snoc (h : x ∈ bones ++ [b]) : x ∈ bones ∨ x = b := by simpa using h

theorem Sound.climbs_append (h : Sound bones mapped) {r : Bone}
    (hid : ∀ a ∈ bones, a.id ≠ b.id) (hr : r ∈ bones) (hrnone : r.parentId = none)
    (hx : x ∈ bones) (hxpage : x.pageId = r.pageId) (hxlive : x.isLive) :
    Climbs (upOf (bones ++ [b]) r.pageId) (liveIn (bones ++ [b]) r.pageId) r.id x.id := by
  refine (h.climbs r hr hrnone x hx hxpage hxlive).mono ?_ ?_
  · rintro id ⟨z, hz, hzpage, hzid, hzlive⟩
    exact ⟨z, mem_append_left _ hz, hzpage, hzid, hzlive⟩
  · rintro id ⟨z, hz, -, rfl, -⟩
    exact upOf_append (hid z hz)

theorem Sound.grow (h : Sound bones mapped) {parent : Bone} (hparent : parent ∈ bones)
    (hlive : parent.isLive) (hpage : b.pageId = parent.pageId) (hlink : b.parentId = some parent.id)
    (hprint : b.fingerprint = fingerprintFor b.refKind b.refId parent.token)
    (hid : ∀ a ∈ bones, a.id ≠ b.id)
    (hfresh : ∀ a ∈ bones, a.pageId = b.pageId → a.fingerprint ≠ b.fingerprint) :
    Sound (bones ++ [b]) mapped := by
  have hids := nodup_append_ids h.ids hid
  refine ⟨hids, ?_, ?_, ?_, ?_, ?_, ?_⟩
  · intro x hx y hy hpages hprints
    replace hx := mem_snoc hx
    replace hy := mem_snoc hy
    rcases hx with hx | rfl <;> rcases hy with hy | rfl
    · exact h.prints x hx y hy hpages hprints
    · exact absurd hprints (hfresh x hx hpages)
    · exact absurd hprints.symm (hfresh y hy hpages.symm)
    · rfl
  · intro x hx
    rcases mem_snoc hx with hx | rfl
    · exact h.housed x hx
    · rw [hpage]
      exact h.housed parent hparent
  · intro pageId hmap
    obtain ⟨r, hr, hrpage, hrnone, hract, hronly⟩ := h.root pageId hmap
    refine ⟨r, mem_append_left _ hr, hrpage, hrnone, hract, ?_⟩
    intro x hx hxpage hxnone
    rcases mem_snoc hx with hx | rfl
    · exact hronly x hx hxpage hxnone
    · rw [hlink] at hxnone
      simp at hxnone
  · intro x hx p hp
    rcases mem_snoc hx with hx | rfl
    · obtain ⟨m, hm, hmpage, hmid, hmpr⟩ := h.linked x hx p hp
      exact ⟨m, mem_append_left _ hm, hmpage, hmid, hmpr⟩
    · rw [hlink, Option.some.injEq] at hp
      exact ⟨parent, mem_append_left _ hparent, hpage.symm, hp, hprint⟩
  · intro x hx hnone
    rcases mem_snoc hx with hx | rfl
    · exact h.rootPrint x hx hnone
    · rw [hlink] at hnone
      simp at hnone
  · intro r hr hrnone x hx hxpage hxlive
    have hr' : r ∈ bones := by
      rcases mem_snoc hr with hr | rfl
      · exact hr
      · rw [hlink] at hrnone
        simp at hrnone
    rcases mem_snoc hx with hx | rfl
    · exact h.climbs_append hid hr' hrnone hx hxpage hxlive
    · refine .step ⟨x, by simp, hxpage, rfl, hxlive⟩ ?_
        (h.climbs_append hid hr' hrnone hparent (hpage.symm.trans hxpage) hlive)
      rw [← hxpage, upOf_of_mem hids (by simp), hlink]

/-- The root of a page that has no map yet. -/
theorem Sound.plant (h : Sound bones mapped) (hfresh : ¬ mapped b.pageId)
    (hnone : b.parentId = none) (hact : b.status = .active)
    (hprint : b.fingerprint = fingerprintFor b.refKind b.refId "~")
    (hid : ∀ a ∈ bones, a.id ≠ b.id) :
    Sound (bones ++ [b]) fun pageId => pageId = b.pageId ∨ mapped pageId := by
  have hids := nodup_append_ids h.ids hid
  have hapart : ∀ a ∈ bones, a.pageId ≠ b.pageId := by
    intro a ha hpage
    have := h.housed a ha
    rw [hpage] at this
    exact hfresh this
  refine ⟨hids, ?_, ?_, ?_, ?_, ?_, ?_⟩
  · intro x hx y hy hpages hprints
    replace hx := mem_snoc hx
    replace hy := mem_snoc hy
    rcases hx with hx | rfl <;> rcases hy with hy | rfl
    · exact h.prints x hx y hy hpages hprints
    · exact absurd hpages (hapart x hx)
    · exact absurd hpages.symm (hapart y hy)
    · rfl
  · intro x hx
    rcases mem_snoc hx with hx | rfl
    · exact Or.inr (h.housed x hx)
    · exact Or.inl rfl
  · intro pageId hmap
    by_cases hpage : pageId = b.pageId
    · refine ⟨b, by simp, hpage.symm, hnone, hact, ?_⟩
      intro x hx hxpage _
      rcases mem_snoc hx with hx | rfl
      · exact absurd (hxpage.trans hpage) (hapart x hx)
      · rfl
    · obtain ⟨r, hr, hrpage, hrnone, hract, hronly⟩ := h.root pageId (hmap.resolve_left hpage)
      refine ⟨r, mem_append_left _ hr, hrpage, hrnone, hract, ?_⟩
      intro x hx hxpage hxnone
      rcases mem_snoc hx with hx | rfl
      · exact hronly x hx hxpage hxnone
      · exact absurd hxpage.symm hpage
  · intro x hx p hp
    rcases mem_snoc hx with hx | rfl
    · obtain ⟨m, hm, hmpage, hmid, hmpr⟩ := h.linked x hx p hp
      exact ⟨m, mem_append_left _ hm, hmpage, hmid, hmpr⟩
    · rw [hnone] at hp
      simp at hp
  · intro x hx hxnone
    rcases mem_snoc hx with hx | rfl
    · exact h.rootPrint x hx hxnone
    · exact hprint
  · intro r hr hrnone x hx hxpage hxlive
    replace hr := mem_snoc hr
    replace hx := mem_snoc hx
    rcases hr with hr | rfl <;> rcases hx with hx | rfl
    · exact h.climbs_append hid hr hrnone hx hxpage hxlive
    · exact absurd hxpage.symm (hapart r hr)
    · exact absurd hxpage (hapart x hx)
    · exact .root ⟨x, by simp, rfl, rfl, hxlive⟩ (by rw [upOf_of_mem hids (by simp), hnone])

def clearPage (bones : List Bone) (pageId : String) : List Bone :=
  bones.filter fun b => b.pageId != pageId

theorem mem_clearPage {pageId : String} :
    b ∈ clearPage bones pageId ↔ b ∈ bones ∧ b.pageId ≠ pageId := by
  simp [clearPage]

theorem Sound.clear (h : Sound bones mapped) (pageId : String) :
    Sound (clearPage bones pageId) fun other => other ≠ pageId ∧ mapped other := by
  have hids : ((clearPage bones pageId).map Bone.id).Nodup :=
    h.ids.sublist (filter_sublist.map _)
  refine ⟨hids, ?_, ?_, ?_, ?_, ?_, ?_⟩
  · intro x hx y hy
    exact h.prints x (mem_clearPage.mp hx).1 y (mem_clearPage.mp hy).1
  · intro x hx
    exact ⟨(mem_clearPage.mp hx).2, h.housed x (mem_clearPage.mp hx).1⟩
  · rintro other ⟨hne, hmap⟩
    obtain ⟨r, hr, hrpage, hrnone, hract, hronly⟩ := h.root other hmap
    refine ⟨r, mem_clearPage.mpr ⟨hr, by rw [hrpage]; exact hne⟩, hrpage, hrnone, hract, ?_⟩
    intro x hx
    exact hronly x (mem_clearPage.mp hx).1
  · intro x hx p hp
    obtain ⟨hx, hxne⟩ := mem_clearPage.mp hx
    obtain ⟨m, hm, hmpage, hmid, hmpr⟩ := h.linked x hx p hp
    exact ⟨m, mem_clearPage.mpr ⟨hm, by rw [hmpage]; exact hxne⟩, hmpage, hmid, hmpr⟩
  · intro x hx
    exact h.rootPrint x (mem_clearPage.mp hx).1
  · intro r hr hrnone x hx hxpage hxlive
    obtain ⟨hr, hrne⟩ := mem_clearPage.mp hr
    obtain ⟨hx, -⟩ := mem_clearPage.mp hx
    refine (h.climbs r hr hrnone x hx hxpage hxlive).mono ?_ ?_
    · rintro id ⟨z, hz, hzpage, hzid, hzlive⟩
      exact ⟨z, mem_clearPage.mpr ⟨hz, by rw [hzpage]; exact hrne⟩, hzpage, hzid, hzlive⟩
    · rintro id ⟨z, hz, hzpage, rfl, -⟩
      have hz' : z ∈ clearPage bones pageId :=
        mem_clearPage.mpr ⟨hz, by rw [hzpage]; exact hrne⟩
      rw [← hzpage, upOf_of_mem hids hz', upOf_of_mem h.ids hz]

/-! ## A changed node -/

/-- `b` becomes `b'` in place. -/
def replaceBone (bones : List Bone) (b b' : Bone) : List Bone :=
  bones.map fun x => if x.pageId == b.pageId && x.id == b.id then b' else x

theorem mem_replaceBone (hids : (bones.map Bone.id).Nodup) (hb : b ∈ bones) :
    x ∈ replaceBone bones b b' ↔ x = b' ∨ (x ∈ bones ∧ x.id ≠ b.id) := by
  rw [replaceBone, mem_map]
  constructor
  · rintro ⟨y, hy, rfl⟩
    by_cases hkey : (y.pageId == b.pageId && y.id == b.id)
    · rw [if_pos hkey]
      exact Or.inl rfl
    · rw [if_neg hkey]
      refine Or.inr ⟨hy, fun hid => hkey ?_⟩
      rw [eq_of_id hids hy hb hid]
      simp
  · rintro (rfl | ⟨hx, hne⟩)
    · exact ⟨b, hb, by simp⟩
    · exact ⟨x, hx, by simp [hne]⟩

theorem replaceBone_ids (hid : b'.id = b.id) :
    (replaceBone bones b b').map Bone.id = bones.map Bone.id := by
  rw [replaceBone, map_map]
  apply map_congr_left
  intro x _
  by_cases hkey : (x.pageId == b.pageId && x.id == b.id)
  · simp only [Function.comp_apply, if_pos hkey]
    simp only [Bool.and_eq_true, beq_iff_eq] at hkey
    rw [hid, hkey.2]
  · simp only [Function.comp_apply, if_neg hkey]

theorem upOf_replaceBone (hsame : Bone.SameNode b b') {pageId id : String}
    (hne : id ≠ b.id) : upOf (replaceBone bones b b') pageId id = upOf bones pageId id := by
  have hfind : findBone (replaceBone bones b b') pageId id = findBone bones pageId id := by
    induction bones with
    | nil => rfl
    | cons x rest ih =>
      by_cases hkey : (x.pageId == b.pageId && x.id == b.id)
      · have hxid : x.id = b.id := by
          simp only [Bool.and_eq_true, beq_iff_eq] at hkey
          exact hkey.2
        simp only [findBone, replaceBone, map_cons, if_pos hkey] at ih ⊢
        rw [find?_cons_of_neg (by simp [hsame.id, Ne.symm hne]),
          find?_cons_of_neg (by simp [hxid, Ne.symm hne])]
        exact ih
      · simp only [findBone, replaceBone, map_cons, if_neg hkey] at ih ⊢
        rw [find?_cons, find?_cons, ih]
  rw [upOf, hfind, upOf]

/-- What a patch may make of a live node: a status it may go to, and a place in the tree that
the checks let it have. -/
structure Patched (bones : List Bone) (b b' : Bone) : Prop where
  same : Bone.SameNode b b'
  mem : b ∈ bones
  live : b.isLive
  root_status : b.parentId = none → b'.status = b.status
  childless : ¬ b'.isLive → ∀ c ∈ bones, c.pageId = b.pageId → c.parentId = some b.id → ¬ c.isLive
  place : (b'.parentId = b.parentId ∧ b'.fingerprint = b.fingerprint) ∨
    ∃ target ∈ bones, target.pageId = b.pageId ∧ target.isLive ∧ b'.parentId = some target.id ∧
      b'.fingerprint = fingerprintFor b.refKind b.refId target.token ∧
      (∃ fuel, meets (upOf bones b.pageId) b.id fuel target.id = false) ∧
      ∀ a ∈ bones, a.pageId = b.pageId → a.fingerprint = b'.fingerprint → a = b

theorem Patched.root_iff (hp : Patched bones b b') : b'.parentId = none ↔ b.parentId = none := by
  rw [← Option.isNone_iff_eq_none, ← Option.isNone_iff_eq_none, hp.same.root]

theorem Sound.patch_climbs (h : Sound bones mapped) (hp : Patched bones b b')
    {r : Bone} (hr : r ∈ bones) (hrnone : r.parentId = none) (hx : x ∈ bones)
    (hxpage : x.pageId = r.pageId) (hxlive : x.isLive) (hkept : x = b → b'.isLive) :
    Climbs (upOf (replaceBone bones b b') r.pageId) (liveIn (replaceBone bones b b') r.pageId)
      r.id x.id := by
  have hclimb := h.climbs r hr hrnone x hx hxpage hxlive
  have hids' : ((replaceBone bones b b').map Bone.id).Nodup := by
    rw [replaceBone_ids hp.same.id]
    exact h.ids
  have hother : ∀ id ≠ b.id, liveIn bones r.pageId id →
      liveIn (replaceBone bones b b') r.pageId id := by
    rintro id hne ⟨z, hz, hzpage, rfl, hzlive⟩
    exact ⟨z, (mem_replaceBone h.ids hp.mem).mpr (Or.inr ⟨hz, hne⟩), hzpage, rfl, hzlive⟩
  have hup : ∀ id ≠ b.id, upOf (replaceBone bones b b') r.pageId id = upOf bones r.pageId id :=
    fun id hne => upOf_replaceBone hp.same hne
  by_cases hpage : b.pageId = r.pageId
  · by_cases hb' : b'.isLive
    · -- the node stays live, at its old place or at a new one
      have hself : liveIn (replaceBone bones b b') r.pageId b.id :=
        ⟨b', (mem_replaceBone h.ids hp.mem).mpr (Or.inl rfl), hp.same.pageId.trans hpage,
          hp.same.id, hb'⟩
      have hlive : ∀ id, liveIn bones r.pageId id → liveIn (replaceBone bones b b') r.pageId id := by
        intro id hid
        by_cases hne : id = b.id
        · rw [hne]
          exact hself
        · exact hother id hne hid
      have hups : upOf (replaceBone bones b b') r.pageId b.id = b'.parentId := by
        rw [← hpage, ← hp.same.pageId, ← hp.same.id]
        exact upOf_of_mem hids' ((mem_replaceBone h.ids hp.mem).mpr (Or.inl rfl))
      rcases hp.place with ⟨hsame, -⟩ | ⟨target, htarg, htpage, htlive, htlink, -, ⟨fuel, hmeets⟩, -⟩
      · refine hclimb.mono hlive fun id _ => ?_
        by_cases hne : id = b.id
        · rw [hne, hups, hsame, ← hpage, upOf_of_mem h.ids hp.mem]
        · exact hup id hne
      · rw [hpage] at hmeets
        exact hclimb.reparent
          (h.climbs r hr hrnone target htarg (htpage.trans hpage) htlive) hmeets hself hlive hup
          (hups.trans htlink)
    · -- a dismissed node was on nobody's way up
      have hne : x.id ≠ b.id := fun hid => hb' (hkept (eq_of_id h.ids hx hp.mem hid))
      refine hclimb.of_childless hne ?_ hother hup
      rintro id ⟨z, hz, hzpage, rfl, hzlive⟩ hzup
      rw [← hzpage, upOf_of_mem h.ids hz] at hzup
      exact hp.childless hb' z hz (hzpage.trans hpage.symm) hzup hzlive
  · -- another page's map
    have hlive : ∀ id, liveIn bones r.pageId id → id ≠ b.id := by
      rintro id ⟨z, hz, hzpage, rfl, -⟩ hid
      rw [eq_of_id h.ids hz hp.mem hid] at hzpage
      exact hpage hzpage
    exact hclimb.mono (fun id hid => hother id (hlive id hid) hid)
      fun id hid => hup id (hlive id hid)

theorem Sound.patch (h : Sound bones mapped) (hp : Patched bones b b') :
    Sound (replaceBone bones b b') mapped := by
  have hmem : ∀ {x : Bone}, x ∈ replaceBone bones b b' ↔ x = b' ∨ (x ∈ bones ∧ x.id ≠ b.id) :=
    mem_replaceBone h.ids hp.mem
  -- the place of a node among the new ones
  have hmoved : ∀ m ∈ bones, ∃ m' ∈ replaceBone bones b b', m'.pageId = m.pageId ∧ m'.id = m.id ∧
      m'.token = m.token := by
    intro m hm
    by_cases hid : m.id = b.id
    · rw [eq_of_id h.ids hm hp.mem hid]
      exact ⟨b', hmem.mpr (Or.inl rfl), hp.same.pageId, hp.same.id, hp.same.token_eq⟩
    · exact ⟨m, hmem.mpr (Or.inr ⟨hm, hid⟩), rfl, rfl, rfl⟩
  have hprint : ∀ a ∈ bones, a.pageId = b.pageId → a.fingerprint = b'.fingerprint → a = b := by
    intro a ha hpage hprint
    rcases hp.place with ⟨-, hsame⟩ | ⟨_, -, -, -, -, -, -, hfree⟩
    · exact h.prints a ha b hp.mem hpage (hprint.trans hsame)
    · exact hfree a ha hpage hprint
  refine ⟨?_, ?_, ?_, ?_, ?_, ?_, ?_⟩
  · rw [replaceBone_ids hp.same.id]
    exact h.ids
  · intro x hx y hy hpages hprints
    rcases hmem.mp hx with hxb | ⟨hx', hxid⟩ <;> rcases hmem.mp hy with hyb | ⟨hy', hyid⟩
    · rw [hxb, hyb]
    · rw [hxb] at hpages hprints
      rw [hp.same.pageId] at hpages
      exact absurd (congrArg Bone.id (hprint y hy' hpages.symm hprints.symm)) hyid
    · rw [hyb] at hpages hprints
      rw [hp.same.pageId] at hpages
      exact absurd (congrArg Bone.id (hprint x hx' hpages hprints)) hxid
    · exact h.prints x hx' y hy' hpages hprints
  · intro x hx
    rcases hmem.mp hx with rfl | ⟨hx, -⟩
    · rw [hp.same.pageId]
      exact h.housed b hp.mem
    · exact h.housed x hx
  · intro pageId hmap
    obtain ⟨r, hr, hrpage, hrnone, hract, hronly⟩ := h.root pageId hmap
    by_cases hid : r.id = b.id
    · have hrb := eq_of_id h.ids hr hp.mem hid
      rw [hrb] at hrpage hrnone hract hronly
      refine ⟨b', hmem.mpr (Or.inl rfl), hp.same.pageId.trans hrpage, hp.root_iff.mpr hrnone,
        (hp.root_status hrnone).trans hract, ?_⟩
      intro x hx hxpage hxnone
      rcases hmem.mp hx with rfl | ⟨hx, hxid⟩
      · rfl
      · exact absurd (congrArg Bone.id (hronly x hx hxpage hxnone)) hxid
    · refine ⟨r, hmem.mpr (Or.inr ⟨hr, hid⟩), hrpage, hrnone, hract, ?_⟩
      intro x hx hxpage hxnone
      rcases hmem.mp hx with rfl | ⟨hx, -⟩
      · rw [hp.same.pageId] at hxpage
        have hb := hronly b hp.mem hxpage (hp.root_iff.mp hxnone)
        exact absurd (congrArg Bone.id hb).symm hid
      · exact hronly x hx hxpage hxnone
  · intro x hx p hxp
    rcases hmem.mp hx with rfl | ⟨hx, -⟩
    · have hplac : ∃ m ∈ bones, m.pageId = b.pageId ∧ m.id = p ∧
          x.fingerprint = fingerprintFor b.refKind b.refId m.token := by
        rcases hp.place with ⟨hsame, hprint⟩ | ⟨target, ht, htpage, -, htlink, htpr, -, -⟩
        · rw [hsame] at hxp
          obtain ⟨m, hm, hmpage, hmid, hmpr⟩ := h.linked b hp.mem p hxp
          exact ⟨m, hm, hmpage, hmid, hprint.trans hmpr⟩
        · rw [htlink, Option.some.injEq] at hxp
          exact ⟨target, ht, htpage, hxp, htpr⟩
      obtain ⟨m, hm, hmpage, hmid, hmpr⟩ := hplac
      obtain ⟨m', hm', hpage', hid', htoken⟩ := hmoved m hm
      refine ⟨m', hm', hpage'.trans (hmpage.trans hp.same.pageId.symm), hid'.trans hmid, ?_⟩
      rw [hmpr, htoken, hp.same.refKind, hp.same.refId]
    · obtain ⟨m, hm, hmpage, hmid, hmpr⟩ := h.linked x hx p hxp
      obtain ⟨m', hm', hpage', hid', htoken⟩ := hmoved m hm
      exact ⟨m', hm', hpage'.trans hmpage, hid'.trans hmid, by rw [htoken]; exact hmpr⟩
  · intro x hx hnone
    rcases hmem.mp hx with rfl | ⟨hx, -⟩
    · rcases hp.place with ⟨-, hsame⟩ | ⟨target, -, -, -, htlink, -⟩
      · rw [hsame, hp.same.refKind, hp.same.refId]
        exact h.rootPrint b hp.mem (hp.root_iff.mp hnone)
      · rw [htlink] at hnone
        simp at hnone
    · exact h.rootPrint x hx hnone
  · intro r hr hrnone x hx hxpage hxlive
    -- both ends as they were before the patch
    have hbef : ∀ y ∈ replaceBone bones b b', ∃ y₀ ∈ bones, y₀.id = y.id ∧
        y₀.pageId = y.pageId ∧ (y.parentId = none → y₀.parentId = none) ∧
        (y.isLive → y₀.isLive ∧ (y₀ = b → b'.isLive)) := by
      intro y hy
      rcases hmem.mp hy with rfl | ⟨hy, hyid⟩
      · exact ⟨b, hp.mem, hp.same.id.symm, hp.same.pageId.symm, hp.root_iff.mp,
          fun hlive => ⟨hp.live, fun _ => hlive⟩⟩
      · exact ⟨y, hy, rfl, rfl, id, fun hlive => ⟨hlive, fun hyb => absurd (by rw [hyb]) hyid⟩⟩
    obtain ⟨r₀, hr₀, hrid, hrpage₀, hrnone₀, -⟩ := hbef r hr
    obtain ⟨x₀, hx₀, hxid, hxpage₀, -, hxlive₀⟩ := hbef x hx
    have hclimb := h.patch_climbs hp hr₀ (hrnone₀ hrnone) hx₀
      (hxpage₀.trans (hxpage.trans hrpage₀.symm)) (hxlive₀ hxlive).1 (hxlive₀ hxlive).2
    rw [hrid, hxid, hrpage₀] at hclimb
    exact hclimb

inductive SpineStep (bones : List Bone) : List Bone → Prop
  | same : SpineStep bones bones
  | grow (parent b : Bone) (hparent : parent ∈ bones) (hlive : parent.isLive)
      (hpage : b.pageId = parent.pageId) (hlink : b.parentId = some parent.id)
      (hprint : b.fingerprint = fingerprintFor b.refKind b.refId parent.token)
      (hid : ∀ a ∈ bones, a.id ≠ b.id)
      (hfresh : ∀ a ∈ bones, a.pageId = b.pageId → a.fingerprint ≠ b.fingerprint) :
      SpineStep bones (bones ++ [b])
  | patch (b b' : Bone) (hp : Patched bones b b') : SpineStep bones (replaceBone bones b b')

variable {bones' : List Bone}

theorem SpineStep.sound (hstep : SpineStep bones bones')
    (h : Sound bones mapped) : Sound bones' mapped := by
  cases hstep with
  | same => exact h
  | grow parent b hparent hlive hpage hlink hprint hid hfresh =>
    exact h.grow hparent hlive hpage hlink hprint hid hfresh
  | patch b b' hp => exact h.patch hp

/-- A dismissed node is there for good, as it is. -/
theorem SpineStep.dismissed (hstep : SpineStep bones bones')
    (hids : (bones.map Bone.id).Nodup) (hx : x ∈ bones)
    (hdism : x.status = .dismissed) : x ∈ bones' := by
  cases hstep with
  | same => exact hx
  | grow => exact mem_append_left _ hx
  | patch b b' hp =>
    refine (mem_replaceBone hids hp.mem).mpr (Or.inr ⟨hx, fun hid => ?_⟩)
    rw [eq_of_id hids hx hp.mem hid] at hdism
    exact hp.live hdism

end Wenlan.Pages
