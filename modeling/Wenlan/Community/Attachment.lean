import Wenlan.Community.Grouping
import Wenlan.Support.PointerChase

/-!
# Attached nodes

The nodes that `community_grouping.rs` attaches to the communities of the grounded graph: through
the strongest ungrounded neighbour, or to the nearest centroid.  And the prediction of who takes
part, from which the consistency report counts missing and unexpected members.
-/

namespace Wenlan.Community

open Std

/-- The further operations of `f64`.  Embeddings hold `f32` numbers, which are read as `f64`. -/
class Measure (W : Type) extends Weight W where
  sqrt : W → W
  totalCmp : W → W → Ordering

/-- The key that `total_cmp` compares: the bits, inverted below zero and above them from zero. -/
def totalKey (x : Float) : UInt64 :=
  if x.toBits >>> 63 = 1 then ~~~ x.toBits else x.toBits ||| 0x8000000000000000

instance : Measure Float where
  sqrt := Float.sqrt
  totalCmp left right := compare (totalKey left) (totalKey right)

instance : Measure ℚ where
  sqrt := Rat.sqrt
  totalCmp := compare

variable {W : Type} [Measure W] [DecidableLT W] [DecidableLE W]

abbrev StrongestNeighbor (W : Type) := ExtTreeMap String (W × String)

abbrev CoreCommunity := ExtTreeMap String String

def updateStrongestNeighbor (strongest : StrongestNeighbor W) (nodeId neighborId : String)
    (weight : W) : StrongestNeighbor W :=
  let replace : Bool := match strongest[nodeId]? with
    | none => true
    | some current =>
      Measure.totalCmp weight current.1 == .gt ||
        (Measure.totalCmp weight current.1 == .eq && neighborId < current.2)
  if replace then strongest.insert nodeId (weight, neighborId) else strongest

def strongestNeighbors (ungroundedEdges : List ProjectionInputEdge) : StrongestNeighbor W :=
  let ungrounded : ProjectedGraph W := projectGroundedRelates ungroundedEdges .default
  ungrounded.edges.foldl (fun strongest edge =>
    let src := ungrounded.nodeIds.getD edge.src ""
    let dst := ungrounded.nodeIds.getD edge.dst ""
    updateStrongestNeighbor (updateStrongestNeighbor strongest src dst edge.weight) dst src
      edge.weight) ∅

/-- What was found for a node: its community, or that it has none. -/
abbrev Resolved := ExtTreeMap String (Option String)

section Resolve

variable (strongest : StrongestNeighbor W) (core : CoreCommunity)

/-- Follow the neighbours from `cursor` until the core, a cached node, a node of the path or the
end.  Nothing if so many rounds do not do. -/
def chase (resolved : Resolved) : Nat → List String → String → Option (List String × Option String)
  | 0, _, _ => none
  | fuel + 1, path, cursor =>
    match core[cursor]? with
    | some communityId => some (path, some communityId)
    | none =>
      match resolved[cursor]? with
      | some cached => some (path, cached)
      | none =>
        if cursor ∈ path then some (path, none)
        else
          match strongest[cursor]? with
          | none => some (path ++ [cursor], none)
          | some (_, neighbor) => chase resolved fuel (path ++ [cursor]) neighbor

/-- One node: what its chain comes to is noted for the whole path. -/
def resolveNode (fuel : Nat) (resolved : Resolved) (nodeId : String) : Option Resolved :=
  if nodeId ∈ core ∨ nodeId ∈ resolved then some resolved
  else
    (chase strongest core resolved fuel [] nodeId).map fun (path, result) =>
      path.foldl (fun resolved visited => resolved.insert visited result) resolved

def resolveWithin (fuel : Nat) (nodeIds : List String) : Option (ExtTreeMap String String) :=
  (nodeIds.foldlM (resolveNode strongest core fuel) ∅).map
    (·.filterMap fun _ communityId => communityId)

/-- A path has no more nodes than there are neighbours to look up, and one more. -/
def resolveUngroundedCommunities (nodeIds : List String) : ExtTreeMap String String :=
  (resolveWithin strongest core (strongest.size + 1) nodeIds).getD ∅

end Resolve

abbrev Embeddings (W : Type) := ExtTreeMap String (List W)

def embeddingOf (embeddings : Embeddings W) (nodeId : String) : Option (List W) :=
  embeddings[nodeId]?.filter fun embedding => !embedding.isEmpty

/-- One core node: its embedding is added to the sum of its community if the lengths agree. -/
def addToCentroid (embeddings : Embeddings W) (sums : ExtTreeMap String (List W × Nat))
    (member : String × String) : ExtTreeMap String (List W × Nat) :=
  match embeddingOf embeddings member.1 with
  | none => sums
  | some embedding =>
    let entry := sums.getD member.2 (List.replicate embedding.length 0, 0)
    if entry.1.length ≠ embedding.length then sums.insert member.2 entry
    else sums.insert member.2 (entry.1.zipWith (· + ·) embedding, entry.2 + 1)

def communityCentroids (core : CoreCommunity) (embeddings : Embeddings W) :
    ExtTreeMap String (List W) :=
  (core.toList.foldl (addToCentroid embeddings) ∅).filterMap fun _ (sum, count) =>
    if count = 0 then none else some (sum.map (· / (count : W)))

def sumOf (values : List W) : W := values.foldl (· + ·) 0

/-- `map(|value| value * value).sum()` -/
def normSquare (values : List W) : W := sumOf (values.map square)

def Comparable (centroid embedding : List W) : Prop :=
  centroid.length = embedding.length ∧ ¬ normSquare centroid ≤ 0 ∧ ¬ normSquare embedding ≤ 0

instance (centroid embedding : List W) : Decidable (Comparable centroid embedding) :=
  inferInstanceAs (Decidable (_ ∧ _))

def cosine (centroid embedding : List W) : W :=
  sumOf (centroid.zipWith (· * ·) embedding) /
    (Measure.sqrt (normSquare centroid) * Measure.sqrt (normSquare embedding))

def considerCentroid (embedding : List W) (best : Option (W × String))
    (entry : String × List W) : Option (W × String) :=
  if Comparable entry.2 embedding then
    let cosine := cosine entry.2 embedding
    let replace : Bool := match best with
      | none => true
      | some current =>
        Measure.totalCmp cosine current.1 == .gt ||
          (Measure.totalCmp cosine current.1 == .eq && entry.1 < current.2)
    if replace then some (cosine, entry.1) else best
  else best

def nearestCentroid (embedding : List W) (centroids : ExtTreeMap String (List W)) : Option String :=
  if embedding.isEmpty then none
  else (centroids.toList.foldl (considerCentroid embedding) none).map Prod.snd

inductive Attachment where
  | core
  | isolatedUngrounded
  | isolatedEmbedding

structure ComputedCommunityMember where
  nodeId : String
  communityId : String
  attachment : Attachment

def coreCommunityOf (coreMembers : List ComputedCommunityMember) : CoreCommunity :=
  .ofList (coreMembers.map fun member => (member.nodeId, member.communityId))

def attachmentOf (ungroundedCommunities : ExtTreeMap String String)
    (centroids : ExtTreeMap String (List W)) (nodeId : String) (embedding : List W) :
    Option ComputedCommunityMember :=
  match ungroundedCommunities[nodeId]? with
  | some communityId => some ⟨nodeId, communityId, .isolatedUngrounded⟩
  | none =>
    (nearestCentroid embedding centroids).map fun communityId =>
      ⟨nodeId, communityId, .isolatedEmbedding⟩

def posthocIsolatedAttachments (coreMembers : List ComputedCommunityMember)
    (ungroundedEdges : List ProjectionInputEdge) (entityEmbeddings : Embeddings W) :
    List ComputedCommunityMember :=
  let core := coreCommunityOf coreMembers
  let centroids := communityCentroids core entityEmbeddings
  let ungroundedCommunities := resolveUngroundedCommunities
    (strongestNeighbors ungroundedEdges : StrongestNeighbor W) core entityEmbeddings.keys
  entityEmbeddings.toList.filterMap fun (nodeId, embedding) =>
    if nodeId ∈ core then none
    else attachmentOf ungroundedCommunities centroids nodeId embedding

/-- The members that a cycle publishes: the core members of the graph and those attached, or none
below the floor. -/
def groupedMembers (coreMembers : List ComputedCommunityMember)
    (ungroundedEdges : List ProjectionInputEdge) (entityEmbeddings : Embeddings W) :
    List ComputedCommunityMember :=
  if coreMembers.length < minCommunityParticipants then []
  else coreMembers ++ posthocIsolatedAttachments coreMembers ungroundedEdges entityEmbeddings

def hasCentroid (core : List String) (entityEmbeddings : Embeddings W) : Bool :=
  core.any fun nodeId => (embeddingOf entityEmbeddings nodeId).isSome

def expectedCommunityParticipantIds (groundedEdges ungroundedEdges : List ProjectionInputEdge)
    (entityEmbeddings : Embeddings W) : ExtTreeSet String :=
  let grounded : ProjectedGraph W := projectGroundedRelates groundedEdges .default
  if grounded.nodeIds.length < minCommunityParticipants then ∅
  else
    let core := grounded.nodeIds
    let coreCommunity : CoreCommunity :=
      .ofList (core.map fun nodeId => (nodeId, "__coverage-core"))
    let resolved := resolveUngroundedCommunities
      (strongestNeighbors ungroundedEdges : StrongestNeighbor W) coreCommunity entityEmbeddings.keys
    let expected := (ExtTreeSet.ofList core).insertMany resolved.keys
    if hasCentroid core entityEmbeddings then
      expected.insertMany
        (entityEmbeddings.toList.filterMap fun (nodeId, embedding) =>
          if embedding.isEmpty then none else some nodeId)
    else expected

end Wenlan.Community

/-!
## Resolved communities

Following the strongest neighbours ends, also on a cycle.  The cache holds, for every node outside
the core that a chain from one of the nodes passes, the community that its chain leads to.
-/

namespace Wenlan.Community

open Std Support.PointerChase

variable {W : Type} {strongest : StrongestNeighbor W} {core : CoreCommunity}

def pointer (strongest : StrongestNeighbor W) (nodeId : String) : Option String :=
  strongest[nodeId]?.map Prod.snd

def LeadsTo (strongest : StrongestNeighbor W) (core : CoreCommunity) : String → String → Prop :=
  Leads (pointer strongest) fun nodeId => core[nodeId]?

def Passes (strongest : StrongestNeighbor W) (core : CoreCommunity) : String → String → Prop :=
  Relation.ReflTransGen (Step (pointer strongest) fun nodeId => core[nodeId]?)

/-! ## The cache -/

/-- The cache after some nodes: what the chains from them pass, with what these lead to. -/
structure Cached (strongest : StrongestNeighbor W) (core : CoreCommunity) (nodeIds : List String)
    (resolved : Resolved) : Prop where
  leads : ∀ nodeId result, resolved[nodeId]? = some result →
    ∀ communityId, result = some communityId ↔ LeadsTo strongest core nodeId communityId
  passed : ∀ nodeId, nodeId ∈ resolved ↔
    core[nodeId]? = none ∧ ∃ start ∈ nodeIds, Passes strongest core start nodeId

/-- A path under way: its nodes lead to the cursor. -/
structure OnPath (strongest : StrongestNeighbor W) (core : CoreCommunity) (start : String)
    (path : List String) (cursor : String) : Prop where
  started : start ∈ path ∨ start = cursor
  outside : ∀ nodeId ∈ path, core[nodeId]? = none
  reached : Passes strongest core start cursor
  onward : ∀ nodeId ∈ path, Passes strongest core start nodeId ∧
    Relation.TransGen (Step (pointer strongest) fun nodeId => core[nodeId]?) nodeId cursor
  next : ∀ nodeId ∈ path, ∀ other, pointer strongest nodeId = some other →
    other ∈ path ∨ other = cursor

theorem OnPath.first (start : String) : OnPath strongest core start [] start where
  started := .inr rfl
  outside := by simp
  reached := .refl
  onward := by simp
  next := by simp

variable {path : List String}

theorem OnPath.push {start cursor neighbor : String}
    (h : OnPath strongest core start path cursor) (hcore : core[cursor]? = none)
    (hnext : pointer strongest cursor = some neighbor) :
    OnPath strongest core start (path ++ [cursor]) neighbor := by
  have hstep : Step (pointer strongest) (fun nodeId => core[nodeId]?) cursor neighbor :=
    ⟨hcore, hnext⟩
  refine ⟨?_, ?_, h.reached.tail hstep, ?_, ?_⟩
  · left
    rw [List.mem_append, List.mem_singleton]
    exact h.started
  · intro nodeId hnode
    rcases List.mem_append.mp hnode with hold | hlast
    · exact h.outside nodeId hold
    · rw [List.mem_singleton.mp hlast]
      exact hcore
  · intro nodeId hnode
    rcases List.mem_append.mp hnode with hold | hlast
    · exact ⟨(h.onward nodeId hold).1, (h.onward nodeId hold).2.tail hstep⟩
    · rw [List.mem_singleton.mp hlast]
      exact ⟨h.reached, .single hstep⟩
  · intro nodeId hnode other hother
    rw [List.mem_append, List.mem_singleton]
    rcases List.mem_append.mp hnode with hold | hlast
    · exact .inl (h.next nodeId hold other hother)
    · rw [List.mem_singleton.mp hlast, hnext] at hother
      exact .inr (Option.some.inj hother).symm

/-- A path that has ended: all its nodes lead to the result. -/
structure Chased (strongest : StrongestNeighbor W) (core : CoreCommunity) (resolved : Resolved)
    (start : String) (path : List String) (result : Option String) : Prop where
  started : start ∈ path
  outside : ∀ nodeId ∈ path, core[nodeId]? = none ∧ Passes strongest core start nodeId
  leads : ∀ nodeId ∈ path, ∀ communityId,
    result = some communityId ↔ LeadsTo strongest core nodeId communityId
  next : ∀ nodeId ∈ path, ∀ other, pointer strongest nodeId = some other →
    other ∈ path ∨ other ∈ resolved ∨ other ∈ core

variable {resolved : Resolved}

variable {result : Option String}

theorem OnPath.ended {start cursor : String} (h : OnPath strongest core start path cursor)
    (hstar : start ∈ path)
    (hleads : ∀ communityId, result = some communityId ↔ LeadsTo strongest core cursor communityId)
    (hcurs : cursor ∈ path ∨ cursor ∈ resolved ∨ cursor ∈ core) :
    Chased strongest core resolved start path result := by
  refine ⟨hstar, fun nodeId hnode => ⟨h.outside nodeId hnode, (h.onward nodeId hnode).1⟩, ?_, ?_⟩
  · intro nodeId hnode communityId
    rw [hleads]
    exact (leads_iff_of_path (h.onward nodeId hnode).2.to_reflTransGen communityId).symm
  · intro nodeId hnode other hother
    rcases h.next nodeId hnode other hother with hold | rfl
    · exact .inl hold
    · exact hcurs

variable {fuel : Nat}

theorem chase_chased {start : String} (hcore : core[start]? = none) (hfresh : start ∉ resolved)
    (hcach : ∀ nodeId result, resolved[nodeId]? = some result →
      ∀ communityId, result = some communityId ↔ LeadsTo strongest core nodeId communityId)
    {found : List String} {cursor : String}
    (h : OnPath strongest core start path cursor)
    (hchase : chase strongest core resolved fuel path cursor = some (found, result)) :
    Chased strongest core resolved start found result := by
  induction fuel generalizing path cursor with
  | zero => cases hchase
  | succ fuel ih =>
    unfold chase at hchase
    split at hchase
    · rename_i communityId hcom
      cases hchase
      apply h.ended
      · apply h.started.resolve_right
        rintro rfl
        rw [hcore] at hcom
        cases hcom
      · intro other
        unfold LeadsTo
        rw [leads_goal hcom, Option.some.injEq, eq_comm]
      · right; right
        rw [ExtTreeMap.mem_iff_isSome_getElem?, hcom]
        rfl
    · rename_i hnone
      split at hchase
      · rename_i cached hknown
        cases hchase
        have hmem : cursor ∈ resolved := by
          rw [ExtTreeMap.mem_iff_isSome_getElem?, hknown]
          rfl
        apply h.ended
        · apply h.started.resolve_right
          rintro rfl
          exact hfresh hmem
        · exact hcach cursor result hknown
        · exact .inr (.inl hmem)
      · split at hchase
        · rename_i hrev
          cases hchase
          apply h.ended
          · rcases h.started with hold | rfl
            · exact hold
            · exact hrev
          · intro communityId
            refine ⟨nofun, fun hleads => ?_⟩
            exact absurd hleads (not_leads_of_cycle (h.onward cursor hrev).2 communityId)
          · exact .inl hrev
        · split at hchase
          · rename_i hpoint
            cases hchase
            have hend : pointer strongest cursor = none := by
              rw [pointer, hpoint]
              rfl
            have hnowh : ∀ communityId, none = some communityId ↔
                LeadsTo strongest core cursor communityId := by
              intro communityId
              refine ⟨nofun, fun hleads => ?_⟩
              exact absurd hleads (not_leads_of_deadEnd hnone hend communityId)
            refine ⟨?_, ?_, ?_, ?_⟩
            · rw [List.mem_append, List.mem_singleton]
              exact h.started
            · intro nodeId hnode
              rcases List.mem_append.mp hnode with hold | hlast
              · exact ⟨h.outside nodeId hold, (h.onward nodeId hold).1⟩
              · rw [List.mem_singleton.mp hlast]
                exact ⟨hnone, h.reached⟩
            · intro nodeId hnode communityId
              rw [hnowh]
              rcases List.mem_append.mp hnode with hold | hlast
              · exact (leads_iff_of_path (h.onward nodeId hold).2.to_reflTransGen
                  communityId).symm
              · rw [List.mem_singleton.mp hlast]
            · intro nodeId hnode other hother
              rw [List.mem_append, List.mem_singleton]
              rcases List.mem_append.mp hnode with hold | hlast
              · exact .inl (h.next nodeId hold other hother)
              · rw [List.mem_singleton.mp hlast, hend] at hother
                cases hother
          · rename_i weight neighbor hpoint
            refine ih (h.push hnone ?_) hchase
            rw [pointer, hpoint]
            rfl

theorem chase_isSome (strongest : StrongestNeighbor W) (core : CoreCommunity)
    (resolved : Resolved) (cursor : String)
    (hnodup : path.Nodup) (hpath : ∀ nodeId ∈ path, nodeId ∈ strongest)
    (hfuel : strongest.size < fuel + path.length) :
    (chase strongest core resolved fuel path cursor).isSome := by
  induction fuel generalizing path cursor with
  | zero =>
    have hsubs : path ⊆ strongest.keys := fun nodeId hnode =>
      ExtTreeMap.mem_keys.mpr (hpath nodeId hnode)
    have hlen := (List.subperm_of_subset hnodup hsubs).length_le
    rw [ExtTreeMap.length_keys] at hlen
    omega
  | succ fuel ih =>
    unfold chase
    split
    · rfl
    · split
      · rfl
      · split
        · rfl
        · rename_i hnew
          split
          · rfl
          · rename_i weight neighbor hpoint
            apply ih
            · rw [List.nodup_append]
              refine ⟨hnodup, List.nodup_singleton _, ?_⟩
              intro nodeId hnode other hother hsame
              rw [List.mem_singleton] at hother
              exact hnew (hother ▸ hsame ▸ hnode)
            · intro nodeId hnode
              rcases List.mem_append.mp hnode with hold | hlast
              · exact hpath nodeId hold
              · rw [List.mem_singleton.mp hlast, ExtTreeMap.mem_iff_isSome_getElem?, hpoint]
                rfl
            · rw [List.length_append, List.length_singleton]
              omega

/-! ## Resolving -/

theorem getElem?_noted (path : List String) (resolved : Resolved) (result : Option String)
    (nodeId : String) :
    (path.foldl (fun resolved visited => resolved.insert visited result) resolved)[nodeId]? =
      if nodeId ∈ path then some result else resolved[nodeId]? := by
  induction path using List.reverseRecOn with
  | nil => simp
  | append_singleton path last ih =>
    rw [List.foldl_concat, ExtTreeMap.getElem?_insert, ih]
    by_cases hlast : last = nodeId
    · simp [hlast]
    · have hother : nodeId ∈ path ++ [last] ↔ nodeId ∈ path := by
        rw [List.mem_append, List.mem_singleton, or_iff_left (Ne.symm hlast)]
      rw [if_neg (mt LawfulEqCmp.compare_eq_iff_eq.mp hlast)]
      exact if_congr hother.symm rfl rfl

variable {nodeIds : List String} {nodeId : String}

theorem Chased.passes {start : String}
    (h : Chased strongest core resolved start path result)
    (hcach : Cached strongest core nodeIds resolved)
    (hpas : Passes strongest core start nodeId) (houts : core[nodeId]? = none) :
    nodeId ∈ path ∨ nodeId ∈ resolved := by
  induction hpas with
  | refl => exact .inl h.started
  | tail hbefore hstep ih =>
    rename_i before other
    rcases ih hstep.1 with hpath | hknown
    · rcases h.next before hpath other hstep.2 with hmem | hmem | hmem
      · exact .inl hmem
      · exact .inr hmem
      · rw [ExtTreeMap.mem_iff_isSome_getElem?, houts] at hmem
        cases hmem
    · obtain ⟨-, source, hsourc, hpath⟩ := (hcach.passed before).mp hknown
      exact .inr ((hcach.passed other).mpr ⟨houts, source, hsourc, hpath.tail hstep⟩)

theorem resolveNode_cached
    {next : Resolved} (h : Cached strongest core nodeIds resolved)
    (hstep : resolveNode strongest core fuel resolved nodeId = some next) :
    Cached strongest core (nodeIds ++ [nodeId]) next := by
  have hmore : ∀ id, (∃ start ∈ nodeIds ++ [nodeId], Passes strongest core start id) ↔
      (∃ start ∈ nodeIds, Passes strongest core start id) ∨ Passes strongest core nodeId id := by
    intro id
    simp [or_and_right, exists_or]
  unfold resolveNode at hstep
  split at hstep
  · rename_i hskip
    cases hstep
    refine ⟨h.leads, fun id => ?_⟩
    rw [h.passed, hmore]
    refine and_congr_right fun houts => (or_iff_left_of_imp fun hpas => ?_).symm
    rcases hskip with hcore | hknown
    · -- A chain from a core node passes nothing else.
      cases Relation.ReflTransGen.cases_head hpas with
      | inl hsame =>
        subst hsame
        rw [ExtTreeMap.mem_iff_isSome_getElem?, houts] at hcore
        cases hcore
      | inr hfirst =>
        obtain ⟨_, ⟨hnone, -⟩, -⟩ := hfirst
        dsimp only at hnone
        rw [ExtTreeMap.mem_iff_isSome_getElem?, hnone] at hcore
        cases hcore
    · obtain ⟨-, start, hstart, hpath⟩ := (h.passed nodeId).mp hknown
      exact ⟨start, hstart, hpath.trans hpas⟩
  · rename_i hfresh
    rw [not_or] at hfresh
    have hcore : core[nodeId]? = none := ExtTreeMap.getElem?_eq_none hfresh.1
    obtain ⟨⟨path, result⟩, hchase, rfl⟩ := Option.map_eq_some_iff.mp hstep
    have hchas := chase_chased hcore hfresh.2 h.leads (.first nodeId) hchase
    refine ⟨?_, ?_⟩
    · intro id value hvalue
      rw [getElem?_noted] at hvalue
      split at hvalue
      · rename_i hpath
        cases hvalue
        exact hchas.leads id hpath
      · exact h.leads id value hvalue
    · intro id
      rw [ExtTreeMap.mem_iff_isSome_getElem?, getElem?_noted, hmore]
      by_cases hpath : id ∈ path
      · rw [if_pos hpath]
        obtain ⟨houts, hpas⟩ := hchas.outside id hpath
        exact ⟨fun _ => ⟨houts, .inr hpas⟩, fun _ => rfl⟩
      · rw [if_neg hpath, ← ExtTreeMap.mem_iff_isSome_getElem?, h.passed]
        refine and_congr_right fun houts => (or_iff_left_of_imp fun hpas => ?_).symm
        have hknown := (hchas.passes h hpas houts).resolve_left hpath
        exact ((h.passed id).mp hknown).2

theorem resolveNodes_cached {before : List String}
    {final : Resolved} (h : Cached strongest core before resolved)
    (hrun : nodeIds.foldlM (resolveNode strongest core fuel) resolved = some final) :
    Cached strongest core (before ++ nodeIds) final := by
  induction nodeIds generalizing before resolved with
  | nil =>
    cases hrun
    rw [List.append_nil]
    exact h
  | cons nodeId nodeIds ih =>
    rw [List.foldlM_cons] at hrun
    obtain ⟨next, hstep, hrest⟩ := Option.bind_eq_some_iff.mp hrun
    rw [List.append_cons]
    exact ih (resolveNode_cached h hstep) hrest

theorem Cached.empty : Cached strongest core [] (∅ : Resolved) where
  leads nodeId result hres := by simp at hres
  passed nodeId := by simp

section

variable (strongest : StrongestNeighbor W) (core : CoreCommunity)

theorem resolveNodes_isSome
    (hfuel : strongest.size < fuel) (nodeIds : List String) (resolved : Resolved) :
    (nodeIds.foldlM (resolveNode strongest core fuel) resolved).isSome := by
  induction nodeIds generalizing resolved with
  | nil => rfl
  | cons nodeId nodeIds ih =>
    rw [List.foldlM_cons]
    have hone : (resolveNode strongest core fuel resolved nodeId).isSome := by
      unfold resolveNode
      split
      · rfl
      · rw [Option.isSome_map]
        exact chase_isSome strongest core resolved nodeId List.nodup_nil (by simp) hfuel
    obtain ⟨next, hnext⟩ := Option.isSome_iff_exists.mp hone
    rw [hnext]
    exact ih next

theorem resolveWithin_spec (hfuel : strongest.size < fuel) (nodeIds : List String) :
    ∃ communities, resolveWithin strongest core fuel nodeIds = some communities ∧
      ∀ nodeId communityId : String, communities[nodeId]? = some communityId ↔
        core[nodeId]? = none ∧ (∃ start ∈ nodeIds, Passes strongest core start nodeId) ∧
          LeadsTo strongest core nodeId communityId := by
  obtain ⟨resolved, hrun⟩ := Option.isSome_iff_exists.mp
    (resolveNodes_isSome strongest core hfuel nodeIds ∅)
  have hcach : Cached strongest core nodeIds resolved := by
    have hfinal := resolveNodes_cached .empty hrun
    rwa [List.nil_append] at hfinal
  refine ⟨resolved.filterMap fun _ communityId => communityId, ?_, ?_⟩
  · rw [resolveWithin, hrun]
    rfl
  · intro nodeId communityId
    rw [ExtTreeMap.getElem?_filterMap', ← and_assoc, ← hcach.passed]
    cases hvalue : resolved[nodeId]? with
    | none =>
      have hnot : nodeId ∉ resolved := by
        rw [ExtTreeMap.mem_iff_isSome_getElem?, hvalue]
        exact Bool.false_ne_true
      simp [hnot]
    | some value =>
      have hmem : nodeId ∈ resolved := by
        rw [ExtTreeMap.mem_iff_isSome_getElem?, hvalue]
        rfl
      rw [Option.bind_some, hcach.leads nodeId value hvalue communityId]
      exact (and_iff_right hmem).symm

/-- The resolved communities do not depend on the rounds, once there are enough, nor on the order of
the nodes. -/
theorem resolveUngroundedCommunities_spec
    (nodeIds : List String) : (∀ fuel, strongest.size < fuel → ∀ others : List String,
      (∀ nodeId, nodeId ∈ others ↔ nodeId ∈ nodeIds) → resolveWithin strongest core fuel others =
          some (resolveUngroundedCommunities strongest core nodeIds)) ∧
      ∀ nodeId communityId : String,
        (resolveUngroundedCommunities strongest core nodeIds)[nodeId]? = some communityId ↔
          core[nodeId]? = none ∧ (∃ start ∈ nodeIds, Passes strongest core start nodeId) ∧
            LeadsTo strongest core nodeId communityId := by
  obtain ⟨communities, hrun, hspec⟩ :=
    resolveWithin_spec strongest core (Nat.lt_succ_self strongest.size) nodeIds
  have hres : resolveUngroundedCommunities strongest core nodeIds = communities := by
    rw [resolveUngroundedCommunities, hrun]
    rfl
  rw [hres]
  refine ⟨?_, hspec⟩
  intro fuel hfuel others hothers
  obtain ⟨found, hfound, hfoun⟩ := resolveWithin_spec strongest core hfuel others
  rw [hfound]
  congr 1
  apply ExtTreeMap.ext_getElem?
  intro nodeId
  ext communityId
  rw [hfoun, hspec]
  simp only [hothers]

end

end Wenlan.Community
