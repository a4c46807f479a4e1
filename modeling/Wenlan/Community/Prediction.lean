import Wenlan.Community.Attachment

/-!
# Predicted participants

The consistency report counts members as missing that `expected_community_participant_ids` names
and a cycle does not publish.  The prediction names every node on a chain to the core and every node
with an embedding; a cycle publishes the ones among the entities, and by their embedding only those
that can be compared with a centroid.
-/

namespace Wenlan.Community

open Std Support.PointerChase

set_option linter.unusedSectionVars false

variable {W : Type} [Measure W] [DecidableLT W] [DecidableLE W]

theorem considerCentroids_isSome (embedding : List W) (centroids : List (String × List W))
    (best : Option (W × String)) : (centroids.foldl (considerCentroid embedding) best).isSome ↔
      best.isSome ∨ ∃ entry ∈ centroids, Comparable entry.2 embedding := by
  induction centroids generalizing best with
  | nil => simp
  | cons entry centroids ih =>
    rw [List.foldl_cons, ih]
    have hone : (considerCentroid embedding best entry).isSome ↔
        best.isSome ∨ Comparable entry.2 embedding := by
      unfold considerCentroid
      by_cases hcomparable : Comparable entry.2 embedding
      · rw [if_pos hcomparable]
        cases best with
        | none => simp [hcomparable]
        | some current =>
          dsimp only
          split
          · simp
          · simp
      · rw [if_neg hcomparable, or_iff_left hcomparable]
    simp [hone, or_assoc]

theorem nearestCentroid_isSome {embedding : List W} {centroids : ExtTreeMap String (List W)} :
    (nearestCentroid embedding centroids).isSome ↔
      embedding ≠ [] ∧ ∃ entry ∈ centroids.toList, Comparable entry.2 embedding := by
  unfold nearestCentroid
  cases embedding with
  | nil => simp
  | cons value values =>
    rw [List.isEmpty_cons, if_neg Bool.false_ne_true, Option.isSome_map, considerCentroids_isSome]
    simp

theorem exists_embedding_of_sum {core : List (String × String)} {embeddings : Embeddings W}
    {communityId : String} (h : communityId ∈ core.foldl (addToCentroid embeddings) ∅) :
    ∃ member ∈ core, (embeddingOf embeddings member.1).isSome := by
  induction core using List.reverseRecOn with
  | nil => simp at h
  | append_singleton core member ih =>
    rw [List.foldl_concat] at h
    by_cases hemb : (embeddingOf embeddings member.1).isSome
    · exact ⟨member, List.mem_append_right _ (List.mem_singleton_self _), hemb⟩
    · have hnone : embeddingOf embeddings member.1 = none := by simpa using hemb
      unfold addToCentroid at h
      rw [hnone] at h
      obtain ⟨other, hother, hsome⟩ := ih h
      exact ⟨other, List.mem_append_left _ hother, hsome⟩

theorem exists_embedding_of_centroid {core : CoreCommunity} {embeddings : Embeddings W}
    {entry : String × List W} (h : entry ∈ (communityCentroids core embeddings).toList) :
    ∃ nodeId, nodeId ∈ core ∧ (embeddingOf embeddings nodeId).isSome := by
  have hmem : entry.1 ∈ communityCentroids core embeddings := by
    rw [ExtTreeMap.mem_iff_isSome_getElem?, ExtTreeMap.mem_toList_iff_getElem?_eq_some.mp h]
    rfl
  obtain ⟨member, hmemb, hsome⟩ :=
    exists_embedding_of_sum (ExtTreeMap.mem_of_mem_filterMap hmem)
  refine ⟨member.1, ?_, hsome⟩
  rw [ExtTreeMap.mem_iff_isSome_getElem?, ExtTreeMap.mem_toList_iff_getElem?_eq_some.mp hmemb]
  rfl

theorem getElem?_eq_none_iff {V : Type} {map : ExtTreeMap String V} {key : String} :
    map[key]? = none ↔ key ∉ map := by
  rw [ExtTreeMap.mem_iff_isSome_getElem?, Option.not_isSome_iff_eq_none]

variable {nodeId : String}

theorem mem_coreCommunityOf {coreMembers : List ComputedCommunityMember} :
    nodeId ∈ coreCommunityOf coreMembers ↔ nodeId ∈ coreMembers.map (·.nodeId) := by
  rw [coreCommunityOf, ExtTreeMap.mem_ofList, List.contains_iff_mem, List.map_map]
  rfl

theorem mem_coverageCore {core : List String} :
    nodeId ∈ (ExtTreeMap.ofList (core.map fun nodeId => (nodeId, "__coverage-core")) :
      CoreCommunity) ↔ nodeId ∈ core := by
  rw [ExtTreeMap.mem_ofList, List.contains_iff_mem, List.map_map]
  have hsame : core.map (Prod.fst ∘ fun nodeId => (nodeId, "__coverage-core")) = core :=
    List.map_id core
  rw [hsame]

/-- Which nodes a chain passes and whether it comes to the core depends on the nodes of the core
only, not on their communities. -/
theorem resolved_congr {strongest : StrongestNeighbor W} {core other : CoreCommunity}
    (hsame : ∀ nodeId, nodeId ∈ core ↔ nodeId ∈ other) (nodeIds : List String) (nodeId : String) :
    nodeId ∈ resolveUngroundedCommunities strongest core nodeIds ↔
      nodeId ∈ resolveUngroundedCommunities strongest other nodeIds := by
  have hnone : ∀ id : String, core[id]? = none ↔ other[id]? = none := by
    intro id
    rw [getElem?_eq_none_iff, getElem?_eq_none_iff, hsame]
  have hstep : Step (pointer strongest) (fun id : String => core[id]?) =
      Step (pointer strongest) fun id : String => other[id]? := by
    funext place target
    exact propext (and_congr_left fun _ => hnone place)
  have hpas : ∀ start,
      Passes strongest core start nodeId ↔ Passes strongest other start nodeId := by
    intro start
    unfold Passes
    rw [hstep]
  have hleads : (∃ communityId, LeadsTo strongest core nodeId communityId) ↔
      ∃ communityId, LeadsTo strongest other nodeId communityId := by
    unfold LeadsTo Leads
    rw [hstep]
    have hgoal : ∀ last : String, (∃ communityId, core[last]? = some communityId) ↔
        ∃ communityId, other[last]? = some communityId := by
      intro last
      rw [← Option.isSome_iff_exists, ← Option.isSome_iff_exists,
        ← ExtTreeMap.mem_iff_isSome_getElem?, ← ExtTreeMap.mem_iff_isSome_getElem?, hsame]
    constructor
    · rintro ⟨communityId, last, hpath, hlast⟩
      obtain ⟨found, hfound⟩ := (hgoal last).mp ⟨communityId, hlast⟩
      exact ⟨found, last, hpath, hfound⟩
    · rintro ⟨communityId, last, hpath, hlast⟩
      obtain ⟨found, hfound⟩ := (hgoal last).mpr ⟨communityId, hlast⟩
      exact ⟨found, last, hpath, hfound⟩
  rw [ExtTreeMap.mem_iff_isSome_getElem?, ExtTreeMap.mem_iff_isSome_getElem?,
    Option.isSome_iff_exists, Option.isSome_iff_exists]
  simp [(resolveUngroundedCommunities_spec _ _ _).2, hnone, hpas, hleads]

/-! ## Who takes part -/

section Participants

variable {groundedEdges ungroundedEdges : List ProjectionInputEdge} {embeddings : Embeddings W}
  {coreMembers : List ComputedCommunityMember}

def chainCommunities (coreMembers : List ComputedCommunityMember)
    (ungroundedEdges : List ProjectionInputEdge) (embeddings : Embeddings W) :
    ExtTreeMap String String :=
  resolveUngroundedCommunities (strongestNeighbors ungroundedEdges : StrongestNeighbor W)
    (coreCommunityOf coreMembers) embeddings.keys

theorem mem_chainCommunities : nodeId ∈ chainCommunities coreMembers ungroundedEdges embeddings ↔
      nodeId ∉ coreCommunityOf coreMembers ∧
      (∃ start ∈ embeddings.keys, Passes (strongestNeighbors ungroundedEdges : StrongestNeighbor W)
        (coreCommunityOf coreMembers) start nodeId) ∧
      ∃ communityId, LeadsTo (strongestNeighbors ungroundedEdges : StrongestNeighbor W)
        (coreCommunityOf coreMembers) nodeId communityId := by
  rw [ExtTreeMap.mem_iff_isSome_getElem?, Option.isSome_iff_exists, chainCommunities]
  simp only [(resolveUngroundedCommunities_spec _ _ _).2, exists_and_left, getElem?_eq_none_iff]

theorem mem_posthoc :
    nodeId ∈ (posthocIsolatedAttachments coreMembers ungroundedEdges embeddings).map (·.nodeId) ↔
      nodeId ∉ coreCommunityOf coreMembers ∧ ∃ embedding, embeddings[nodeId]? = some embedding ∧
        (nodeId ∈ chainCommunities coreMembers ungroundedEdges embeddings ∨
          (nearestCentroid embedding
            (communityCentroids (coreCommunityOf coreMembers) embeddings)).isSome) := by
  have hatt : ∀ (id : String) (embedding : List W),
      ((attachmentOf (chainCommunities coreMembers ungroundedEdges embeddings)
        (communityCentroids (coreCommunityOf coreMembers) embeddings) id embedding).map
          (·.nodeId) = some nodeId) ↔ id = nodeId ∧
        (id ∈ chainCommunities coreMembers ungroundedEdges embeddings ∨ (nearestCentroid embedding
            (communityCentroids (coreCommunityOf coreMembers) embeddings)).isSome) := by
    intro id embedding
    unfold attachmentOf
    cases hchain : (chainCommunities coreMembers ungroundedEdges embeddings)[id]? with
    | some communityId =>
      have hmem : id ∈ chainCommunities coreMembers ungroundedEdges embeddings := by
        rw [ExtTreeMap.mem_iff_isSome_getElem?, hchain]
        rfl
      simp [hmem]
    | none =>
      have hnot : id ∉ chainCommunities coreMembers ungroundedEdges embeddings := by
        rw [ExtTreeMap.mem_iff_isSome_getElem?, hchain]
        exact Bool.false_ne_true
      cases nearestCentroid embedding
        (communityCentroids (coreCommunityOf coreMembers) embeddings) with
      | none => simp [hnot]
      | some communityId => simp
  rw [List.mem_map]
  constructor
  · rintro ⟨member, hmemb, rfl⟩
    obtain ⟨⟨id, embedding⟩, hentry, hsome⟩ := List.mem_filterMap.mp hmemb
    dsimp only at hsome
    split at hsome
    · cases hsome
    · rename_i hcore
      obtain ⟨hid, hplac⟩ := (hatt id embedding).mp (congrArg (Option.map _) hsome)
      rw [← hid]
      exact ⟨hcore, embedding, ExtTreeMap.mem_toList_iff_getElem?_eq_some.mp hentry, hplac⟩
  · rintro ⟨hcore, embedding, hentry, hplac⟩
    obtain ⟨member, hmemb, hid⟩ :=
      Option.map_eq_some_iff.mp ((hatt nodeId embedding).mpr ⟨rfl, hplac⟩)
    refine ⟨member, List.mem_filterMap.mpr ⟨(nodeId, embedding),
      ExtTreeMap.mem_toList_iff_getElem?_eq_some.mpr hentry, ?_⟩, hid⟩
    exact (if_neg hcore).trans hmemb

theorem mem_expected (hcore : coreMembers.map (·.nodeId) =
      (projectGroundedRelates groundedEdges .default : ProjectedGraph W).nodeIds) :
    nodeId ∈ expectedCommunityParticipantIds groundedEdges ungroundedEdges embeddings ↔
      ¬ coreMembers.length < minCommunityParticipants ∧ (nodeId ∈ coreCommunityOf coreMembers ∨
          nodeId ∈ chainCommunities coreMembers ungroundedEdges embeddings ∨
          hasCentroid (coreMembers.map (·.nodeId)) embeddings ∧
            ∃ embedding, embeddings[nodeId]? = some embedding ∧ embedding ≠ []) := by
  have hlen : coreMembers.length =
      (projectGroundedRelates groundedEdges .default : ProjectedGraph W).nodeIds.length := by
    rw [← hcore, List.length_map]
  have hres : nodeId ∈ (resolveUngroundedCommunities
      (strongestNeighbors ungroundedEdges : StrongestNeighbor W)
      (.ofList ((coreMembers.map (·.nodeId)).map fun nodeId => (nodeId, "__coverage-core")))
      embeddings.keys).keys ↔
        nodeId ∈ chainCommunities coreMembers ungroundedEdges embeddings := by
    rw [ExtTreeMap.mem_keys]
    apply resolved_congr
    intro id
    rw [mem_coverageCore, mem_coreCommunityOf]
  have hembed : nodeId ∈ (embeddings.toList.filterMap fun entry =>
      if entry.2.isEmpty then none else some entry.1) ↔
        ∃ embedding, embeddings[nodeId]? = some embedding ∧ embedding ≠ [] := by
    rw [List.mem_filterMap]
    constructor
    · rintro ⟨⟨id, embedding⟩, hentry, hsome⟩
      split at hsome
      · cases hsome
      · rename_i hempty
        cases hsome
        exact ⟨embedding, ExtTreeMap.mem_toList_iff_getElem?_eq_some.mp hentry,
          mt List.isEmpty_iff.mpr hempty⟩
    · rintro ⟨embedding, hentry, hempty⟩
      exact ⟨(nodeId, embedding), ExtTreeMap.mem_toList_iff_getElem?_eq_some.mpr hentry,
        if_neg (mt List.isEmpty_iff.mp hempty)⟩
  have hmany : ∀ (set : ExtTreeSet String) (ids : List String),
      nodeId ∈ set.insertMany ids ↔ nodeId ∈ set ∨ nodeId ∈ ids := by
    intro set ids
    rw [ExtTreeSet.mem_insertMany_list, List.contains_iff_mem]
  unfold expectedCommunityParticipantIds
  dsimp only
  rw [← hlen, ← hcore]
  by_cases hfloor : coreMembers.length < minCommunityParticipants
  · rw [if_pos hfloor]
    exact ⟨fun hmem => absurd hmem ExtTreeSet.not_mem_empty, fun hmem => absurd hfloor hmem.1⟩
  · rw [if_neg hfloor, and_iff_right hfloor, mem_coreCommunityOf]
    by_cases hcentr : hasCentroid (coreMembers.map (·.nodeId)) embeddings
    · rw [if_pos hcentr, hmany, hmany, hres, hembed, ExtTreeSet.mem_ofList,
        List.contains_iff_mem, and_iff_right hcentr, or_assoc]
    · rw [if_neg hcentr, hmany, hres, ExtTreeSet.mem_ofList, List.contains_iff_mem]
      tauto

end Participants

/-! ## Agreement -/

/-- Chains are followed to their end: in so many rounds whatever the order of the nodes, to the
community of the core node that is met first, and to nothing from a cycle or a dead end. -/
structure Resolves (strongest : StrongestNeighbor W) (core : CoreCommunity)
    (nodeIds : List String) : Prop where
  ends : ∀ fuel, strongest.size < fuel → ∀ others : List String,
    (∀ nodeId, nodeId ∈ others ↔ nodeId ∈ nodeIds) → resolveWithin strongest core fuel others =
        some (resolveUngroundedCommunities strongest core nodeIds)
  community : ∀ nodeId ∈ nodeIds, nodeId ∉ core → ∀ communityId : String,
    (resolveUngroundedCommunities strongest core nodeIds)[nodeId]? = some communityId ↔
      LeadsTo strongest core nodeId communityId
  cycle : ∀ nodeId last, Passes strongest core nodeId last →
    Relation.TransGen (Step (pointer strongest) fun id => core[id]?) last last →
      (resolveUngroundedCommunities strongest core nodeIds)[nodeId]? = none
  deadEnd : ∀ nodeId last, Passes strongest core nodeId last → core[last]? = none →
    pointer strongest last = none →
      (resolveUngroundedCommunities strongest core nodeIds)[nodeId]? = none

omit [Measure W] [DecidableLT W] [DecidableLE W] in
theorem resolves (strongest : StrongestNeighbor W) (core : CoreCommunity) (nodeIds : List String) :
    Resolves strongest core nodeIds := by
  obtain ⟨hends, hspec⟩ := resolveUngroundedCommunities_spec strongest core nodeIds
  have hnone : ∀ nodeId, (∀ communityId, ¬ LeadsTo strongest core nodeId communityId) →
      (resolveUngroundedCommunities strongest core nodeIds)[nodeId]? = none := by
    intro nodeId hnowh
    apply Option.eq_none_iff_forall_not_mem.mpr
    intro communityId hsome
    exact hnowh communityId ((hspec nodeId communityId).mp hsome).2.2
  refine ⟨hends, ?_, ?_, ?_⟩
  · intro nodeId hnode houts communityId
    rw [hspec, getElem?_eq_none_iff]
    exact ⟨fun h => h.2.2, fun h => ⟨houts, ⟨nodeId, hnode, .refl⟩, h⟩⟩
  · intro nodeId last hpath hcycle
    apply hnone
    intro communityId hleads
    exact not_leads_of_cycle hcycle communityId ((leads_iff_of_path hpath communityId).mp hleads)
  · intro nodeId last hpath hcore hpoint
    apply hnone
    intro communityId hleads
    exact not_leads_of_deadEnd hcore hpoint communityId
      ((leads_iff_of_path hpath communityId).mp hleads)

section Agreement

variable (groundedEdges ungroundedEdges : List ProjectionInputEdge)
  (coreMembers : List ComputedCommunityMember) (embeddings : Embeddings W)

/-- Chains are resolved, and those who take part are those predicted. -/
structure AttachmentAgrees : Prop where
  resolves : ∀ (strongest : StrongestNeighbor W) (core : CoreCommunity) (nodeIds : List String),
    Resolves strongest core nodeIds
  predicted : ∀ nodeId,
    nodeId ∈ expectedCommunityParticipantIds groundedEdges ungroundedEdges embeddings ↔
      nodeId ∈ (groupedMembers coreMembers ungroundedEdges embeddings).map (·.nodeId)

/-- Chains pass entities only, and every entity with an embedding can be attached: it is in the
core, or its chain leads there, or it can be compared with a centroid. -/
structure Attachable : Prop where
  entities : ∀ nodeId, nodeId ∉ coreCommunityOf coreMembers →
    (∃ start ∈ embeddings.keys, Passes (strongestNeighbors ungroundedEdges : StrongestNeighbor W)
      (coreCommunityOf coreMembers) start nodeId) →
    (∃ communityId, LeadsTo (strongestNeighbors ungroundedEdges : StrongestNeighbor W)
      (coreCommunityOf coreMembers) nodeId communityId) → nodeId ∈ embeddings
  comparable : hasCentroid (coreMembers.map (·.nodeId)) embeddings = true →
    ∀ nodeId embedding, embeddings[nodeId]? = some embedding → embedding ≠ [] →
      nodeId ∉ coreCommunityOf coreMembers →
      (¬ ∃ communityId, LeadsTo (strongestNeighbors ungroundedEdges : StrongestNeighbor W)
        (coreCommunityOf coreMembers) nodeId communityId) →
      ∃ entry ∈ (communityCentroids (coreCommunityOf coreMembers) embeddings).toList,
        Comparable entry.2 embedding

variable {groundedEdges ungroundedEdges coreMembers embeddings}

theorem hasCentroid_of_centroid {entry : String × List W}
    (h : entry ∈ (communityCentroids (coreCommunityOf coreMembers) embeddings).toList) :
    hasCentroid (coreMembers.map (·.nodeId)) embeddings := by
  obtain ⟨nodeId, hmem, hsome⟩ := exists_embedding_of_centroid h
  exact List.any_eq_true.mpr ⟨nodeId, mem_coreCommunityOf.mp hmem, hsome⟩

end Agreement

def rowOfTen : List ProjectionInputEdge :=
  [⟨"e0", "n0", "n1"⟩, ⟨"e1", "n1", "n2"⟩, ⟨"e2", "n2", "n3"⟩, ⟨"e3", "n3", "n4"⟩,
    ⟨"e4", "n4", "n5"⟩, ⟨"e5", "n5", "n6"⟩, ⟨"e6", "n6", "n7"⟩, ⟨"e7", "n7", "n8"⟩,
    ⟨"e8", "n8", "n9"⟩]

def rowMembers : List ComputedCommunityMember :=
  ["n0", "n1", "n2", "n3", "n4", "n5", "n6", "n7", "n8", "n9"].map fun nodeId =>
    ⟨nodeId, "row", .core⟩

def rowEmbeddings (embedding : List ℚ) : Embeddings ℚ :=
  .ofList [("n0", [3, 4]), ("z", embedding)]

theorem rowMembers_core : rowMembers.map (·.nodeId) =
    (projectGroundedRelates rowOfTen .default : ProjectedGraph ℚ).nodeIds := by decide +kernel

end Wenlan.Community
