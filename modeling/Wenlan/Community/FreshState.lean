import Wenlan.Community.GraphSums

/-!
# Updated states and fresh ones

A fresh state describes its graph, an update leads from a state of the old graph to one that
describes the new graph, and two states that describe one graph under one membership agree.
-/

namespace Wenlan.Community

open Std Finset Support.MapSum Support.WeightedPartition IncrementalPartitionState

theorem zipIdx_sum (membership : List Nat) (f : Nat → Nat → ℚ) :
    (membership.zipIdx.map fun entry => f entry.1 entry.2).sum =
      ∑ node ∈ range membership.length, f (membership.getD node 0) node := by
  induction membership using List.reverseRecOn with
  | nil => rfl
  | append_singleton membership community ih =>
    have hkept : ∀ node ∈ range membership.length,
        f ((membership ++ [community]).getD node 0) node =
          f (membership.getD node 0) node := by
      intro node hnode
      rw [List.getD_append _ _ _ _ (mem_range.mp hnode)]
    rw [List.zipIdx_append, List.map_append, List.sum_append, ih, List.length_append,
      List.length_singleton, sum_range_succ, sum_congr rfl hkept]
    simp

theorem communityDegreesOf_getD (degrees : List ℚ) (membership : List Nat) (c : Nat) :
    (communityDegreesOf degrees membership).getD c 0 =
      ∑ node ∈ range membership.length with membership.getD node 0 = c, degrees.getD node 0 := by
  have hsum := getD_foldl_insert (fun entry : Nat × Nat => entry.1)
    (fun entry => degrees.getD entry.2 0) membership.zipIdx ∅ c
  rw [sum_filter, ← zipIdx_sum membership fun community node =>
    if community = c then degrees.getD node 0 else 0]
  exact hsum.trans (zero_add _)

section Fresh

variable {graph : ProjectedGraph ℚ} {A : Nat → Nat → ℚ} {membership : List Nat}

theorem fresh_row (h : Represents graph A) (node neighbor : Nat) :
    ((fresh graph membership).adjacency.getD node ∅).getD neighbor 0 =
      entryWeight id neighbor (graph.adjacency.getD node []) := by
  rw [← insertAll_eq_entryWeight (h.nodup node)]
  unfold fresh
  rw [List.getD_eq_getElem?_getD, List.getD_eq_getElem?_getD, List.getElem?_map]
  cases graph.adjacency[node]? with
  | none => rfl
  | some entries => rfl

theorem fresh_describes (h : Represents graph A)
    (hlen : membership.length = graph.nodeIds.length) :
    Describes A (fresh graph membership) := by
  have hnodes : (fresh graph membership).nodes = range graph.nodeIds.length := congrArg range hlen
  refine ⟨?_, h.degrees_length.trans hlen.symm, ?_, ?_, ?_, ?_, rfl, ?_, ?_, ?_⟩
  · unfold fresh
    rw [List.length_map, h.adjacency_length, hlen]
  · rw [hnodes]
    exact h.undirected
  · intro node neighbor
    rw [fresh_row h, h.entry]
  · intro node hnode
    rw [hnodes]
    exact h.degrees node (hlen ▸ hnode)
  · intro c
    rw [hnodes]
    refine (communityDegreesOf_getD _ _ _).trans ?_
    rw [hlen]
    refine sum_congr rfl fun node hnode => ?_
    exact h.degrees node (mem_range.mp (mem_filter.mp hnode).1)
  · rw [hnodes]
    exact h.total
  · rw [hnodes]
    exact h.internal (membership.getD · 0)
  · intro node hnode
    exact Nat.lt_succ_of_le (le_foldl_max (communityOf_mem hnode))

end Fresh

/-! ## Patching -/

section Patch

variable {graph : ProjectedGraph ℚ} {A B : Nat → Nat → ℚ}

theorem patchPair_partition (graph : ProjectedGraph ℚ) (update : Update ℚ) (pair : Nat × Nat) :
    (patchPair graph update pair).state.partition = update.state.partition := by
  unfold patchPair
  dsimp only
  split
  · rfl
  · rfl

/-- Patching moves no node. -/
theorem applyProjectionDeltas_membership (graph : ProjectedGraph ℚ)
    (start : IncrementalPartitionState ℚ) (dirty : ExtTreeSet Nat) :
    (applyProjectionDeltas graph start dirty).state.partition.membership =
      start.partition.membership := by
  refine List.foldlRecOn _ (patchPair graph) (motive := fun (update : Update ℚ) =>
    update.state.partition.membership = start.partition.membership) rfl ?_
  intro update hsame pair _
  rw [patchPair_partition]
  exact hsame

/-- Patching pairs puts the new weight at each of them and leaves the others. -/
theorem patchPairs_describes (hgraph : Represents graph B) {pairs : List (Nat × Nat)}
    {update : Update ℚ} (h : Describes A update.state)
    (hpairs : ∀ pair ∈ pairs, pair.1 < update.state.partition.membership.length ∧
      pair.2 < update.state.partition.membership.length ∧ pair.1 ≠ pair.2) :
    ∃ C, Describes C (pairs.foldl (patchPair graph) update).state ∧
      ∀ i j, C i j = if (i, j) ∈ pairs ∨ (j, i) ∈ pairs then B i j else A i j := by
  induction pairs generalizing A update with
  | nil => exact ⟨A, h, fun i j => by simp⟩
  | cons pair pairs ih =>
    obtain ⟨src, dst⟩ := pair
    rw [List.forall_mem_cons] at hpairs
    obtain ⟨⟨hsrc, hdst, hne⟩, hlater⟩ := hpairs
    have hone := patchPair_describes graph h hsrc hdst hne
    rw [hgraph.weightBetween] at hone
    have hpart := patchPair_partition graph update (src, dst)
    obtain ⟨C, hC, hvalue⟩ := ih hone (by rw [hpart]; exact hlater)
    refine ⟨C, hC, ?_⟩
    intro i j
    have hbump : bump A src dst (B src dst - A src dst) i j =
        if i = src ∧ j = dst ∨ i = dst ∧ j = src then B i j else A i j := by
      unfold bump
      split
      · rename_i hpair
        rcases hpair with ⟨rfl, rfl⟩ | ⟨rfl, rfl⟩
        · ring
        · rw [h.undirected.symm j i, hgraph.undirected.symm j i]
          ring
      · ring
    rw [hvalue, hbump]
    by_cases hmem : (i, j) ∈ pairs ∨ (j, i) ∈ pairs
    · have hcons : (i, j) ∈ (src, dst) :: pairs ∨ (j, i) ∈ (src, dst) :: pairs :=
        hmem.imp (List.mem_cons_of_mem _) (List.mem_cons_of_mem _)
      rw [if_pos hmem, if_pos hcons]
    · rw [if_neg hmem]
      refine if_congr ?_ rfl rfl
      simp only [List.mem_cons, Prod.mk.injEq]
      tauto

variable {start : IncrementalPartitionState ℚ} {dirtyNodes : List Nat}
  {dirty frontier : ExtTreeSet Nat}

/-- A node with weight between it and a dirty node is on one of the pairs to patch. -/
theorem mem_changedPairs (hgraph : Represents graph B) (h : Describes A start) {i j : Nat}
    (hdirty : i ∈ dirty) (hchanged : A i j ≠ B i j) :
    (i, j) ∈ changedPairs graph start dirty ∨ (j, i) ∈ changedPairs graph start dirty := by
  have hneigh : j ∈ start.neighborsOf i ++ graph.neighborsOf i := by
    by_contra hnone
    rw [List.mem_append, not_or] at hnone
    have hold : A i j = 0 := by
      rw [← h.rows]
      exact ExtTreeMap.getD_eq_fallback fun hmem => hnone.1 (ExtTreeMap.mem_keys.mpr hmem)
    have hnew : B i j = 0 := by
      rw [← hgraph.entry]
      exact entryWeight_absent hnone.2
    exact hchanged (hold.trans hnew.symm)
  have hpair : orderedPair i j ∈ changedPairs graph start dirty :=
    mem_gather.mpr (.inr ⟨i, hdirty, List.mem_map_of_mem hneigh⟩)
  unfold orderedPair at hpair
  split at hpair
  · exact .inl hpair
  · exact .inr hpair

theorem changedPairs_ne (hgraph : Represents graph B)
    (hstart : ∀ node, ∀ neighbor ∈ start.neighborsOf node, neighbor ≠ node) :
    ∀ pair ∈ changedPairs graph start dirty, pair.1 ≠ pair.2 := by
  intro pair hpair
  rcases mem_gather.mp hpair with hempty | ⟨node, -, hnode⟩
  · simp at hempty
  · obtain ⟨neighbor, hneigh, rfl⟩ := List.mem_map.mp hnode
    have hne : neighbor ≠ node := by
      rcases List.mem_append.mp hneigh with hold | hnew
      · exact hstart node neighbor hold
      · exact hgraph.loopless node neighbor hnew
    unfold orderedPair
    split
    · exact hne.symm
    · exact hne

theorem Describes.refreshModularity {state : IncrementalPartitionState ℚ} (h : Describes A state) :
    Describes A state.refreshModularity :=
  ⟨h.adjacency_length, h.degrees_length, h.undirected, h.rows, h.degrees, h.volumes, h.squares,
    h.total, h.internal, h.below_next⟩

/-- Patching what the dirty nodes are joined to leads to the new graph, if every weight that
changed has a dirty end. -/
theorem applyProjectionDeltas_describes (hgraph : Represents graph B) (h : Describes A start)
    (hstart : ∀ node, ∀ neighbor ∈ start.neighborsOf node, neighbor ≠ node)
    (hwith : ∀ pair ∈ changedPairs graph start dirty,
      pair.1 < start.partition.membership.length ∧ pair.2 < start.partition.membership.length)
    (hchanged : ∀ i j, A i j ≠ B i j → i ∈ dirty ∨ j ∈ dirty) :
    Describes B (applyProjectionDeltas graph start dirty).state := by
  have hpairs : ∀ pair ∈ (changedPairs graph start dirty).toList,
      pair.1 < start.partition.membership.length ∧
        pair.2 < start.partition.membership.length ∧ pair.1 ≠ pair.2 := by
    intro pair hpair
    have hmem := ExtTreeSet.mem_toList.mp hpair
    exact ⟨(hwith pair hmem).1, (hwith pair hmem).2, changedPairs_ne hgraph hstart pair hmem⟩
  have hunp : Describes A (Update.mk start ∅).state := h
  obtain ⟨C, hC, hvalue⟩ := patchPairs_describes hgraph hunp hpairs
  have hsame : C = B := by
    funext i j
    rw [hvalue]
    split
    · rfl
    · rename_i hnone
      rw [ExtTreeSet.mem_toList, ExtTreeSet.mem_toList] at hnone
      by_contra hne
      rcases hchanged i j hne with hi | hj
      · exact hnone (mem_changedPairs hgraph h hi hne)
      · rw [h.undirected.symm i j, hgraph.undirected.symm i j] at hne
        exact hnone (mem_changedPairs hgraph h hj hne).symm
  rw [hsame] at hC
  exact hC.refreshModularity

end Patch

def Refreshed (state : IncrementalPartitionState ℚ) : Prop :=
  state.partition.modularity = modularityFromTotals state.totalEdgeWeight
    state.totalInternalWeight state.sumCommunityDegreeSquares

section Move

variable {graph : ProjectedGraph ℚ} {B : Nat → Nat → ℚ}

theorem incidentByCommunity_getD (hgraph : Represents graph B)
    (state : IncrementalPartitionState ℚ) (node c : Nat) :
    (incidentByCommunity graph state node).getD c 0 =
      incident (range graph.nodeIds.length) B state.communityOf node c := by
  have hsum := getD_foldl_insert (fun entry : Nat × ℚ => state.communityOf entry.1)
    (fun entry => entry.2) (graph.adjacency.getD node []) ∅ c
  rw [← hgraph.entries]
  unfold incidentByCommunity
  rw [getD_insert]
  split
  · rename_i hnext
    rw [hnext]
    exact hsum.trans (zero_add _)
  · exact hsum.trans (zero_add _)

structure Current (graph : ProjectedGraph ℚ) (B : Nat → Nat → ℚ)
    (state : IncrementalPartitionState ℚ) : Prop where
  describes : Describes B state
  refreshed : Refreshed state
  membership_length : state.partition.membership.length = graph.nodeIds.length

theorem refineNode_current (hgraph : Represents graph B) (hbound : Bounded graph)
    {epsilon : ℚ} {pass : Update ℚ × Bool} {node : Nat} (hnode : node < graph.nodeIds.length)
    (h : Current graph B pass.1.state) :
    Current graph B (refineNode graph epsilon pass node).1.state := by
  unfold refineNode
  dsimp only
  split
  · exact h
  · rename_i candidate gain hbest
    have hnodes : pass.1.state.nodes = range graph.nodeIds.length :=
      congrArg range h.membership_length
    have hcand : candidate ≤ pass.1.state.nextCommunity := by
      rcases mem_incidentByCommunity (bestMove_some hbest).1 with rfl | ⟨neighbor, hmem, rfl⟩
      · exact Nat.le_refl _
      · refine Nat.le_of_lt (h.describes.below_next neighbor ?_)
        rw [h.membership_length]
        exact hbound.neighbor_lt node neighbor hmem
    refine ⟨moveNode_describes h.describes ?_ ?_ hcand, rfl, ?_⟩
    · rw [h.membership_length]
      exact hnode
    · intro c
      rw [hnodes]
      exact incidentByCommunity_getD hgraph _ node c
    · exact List.length_set.trans h.membership_length

end Move

theorem updateFrontier_current {graph : ProjectedGraph ℚ} {A B : Nat → Nat → ℚ}
    {start : IncrementalPartitionState ℚ} {dirtyNodes : List Nat} {dirty frontier : ExtTreeSet Nat}
    (config : IncrementalConfig ℚ) (hgraph : Represents graph B) (hbound : Bounded graph)
    (hacc : Accounted start) (h : Describes A start)
    (hstart : ∀ node, ∀ neighbor ∈ start.neighborsOf node, neighbor ≠ node)
    (hfront : FrontierOf graph start dirtyNodes dirty frontier)
    (hchanged : ∀ i j, A i j ≠ B i j → i ∈ dirtyNodes ∨ j ∈ dirtyNodes) :
    Current graph B (updateFrontier graph start dirty frontier config).state := by
  have hlt := hfront.frontier_lt hbound hacc
  have hpatch : Describes B (applyProjectionDeltas graph start dirty).state := by
    refine applyProjectionDeltas_describes hgraph h hstart ?_ ?_
    · intro pair hpair
      obtain ⟨hsrc, hdst⟩ := hfront.changedPairs_mem pair hpair
      exact ⟨hlt _ hsrc, hlt _ hdst⟩
    · intro i j hne
      rw [hfront.mem_dirty, hfront.mem_dirty]
      exact hchanged i j hne
  have hcur : Current graph B (applyProjectionDeltas graph start dirty).state := by
    refine ⟨hpatch, rfl, ?_⟩
    rw [applyProjectionDeltas_membership]
    exact hfront.membership_length
  refine updateFrontier_keeps config hcur fun pass node hnode hpass => ?_
  refine refineNode_current hgraph hbound ?_ hpass
  rw [← hfront.membership_length]
  exact hlt node hnode

/-! ## Agreement -/

structure Agrees (state other : IncrementalPartitionState ℚ) : Prop where
  fingerprint : state.nodeOrderFingerprint = other.nodeOrderFingerprint
  partition : state.partition = other.partition
  adjacency_length : state.adjacency.length = other.adjacency.length
  weights : ∀ i j, (state.adjacency.getD i ∅).getD j 0 = (other.adjacency.getD i ∅).getD j 0
  weightedDegrees : state.weightedDegrees = other.weightedDegrees
  communityDegrees : ∀ c ∈ state.partition.membership,
    state.communityDegrees[c]? = other.communityDegrees[c]?
  totalInternalWeight : state.totalInternalWeight = other.totalInternalWeight
  sumCommunityDegreeSquares :
    state.sumCommunityDegreeSquares = other.sumCommunityDegreeSquares
  totalEdgeWeight : state.totalEdgeWeight = other.totalEdgeWeight

section Agree

variable {A : Nat → Nat → ℚ} {state other : IncrementalPartitionState ℚ}

theorem getElem?_eq_of_getD {left right : ExtTreeMap Nat ℚ} {key : Nat} (hleft : key ∈ left)
    (hright : key ∈ right) (h : left.getD key 0 = right.getD key 0) : left[key]? = right[key]? := by
  rw [ExtTreeMap.getD_eq_getD_getElem?, ExtTreeMap.getD_eq_getD_getElem?,
    ExtTreeMap.getElem?_eq_some_getElem hleft, ExtTreeMap.getElem?_eq_some_getElem hright] at h
  rw [ExtTreeMap.getElem?_eq_some_getElem hleft, ExtTreeMap.getElem?_eq_some_getElem hright]
  exact congrArg some h

theorem Describes.agrees (h : Describes A state) (h' : Describes A other)
    (hmemb : state.partition.membership = other.partition.membership)
    (hfing : state.nodeOrderFingerprint = other.nodeOrderFingerprint)
    (hrefr : Refreshed state) (hrefr' : Refreshed other)
    (hacc : Accounted state) (hacc' : Accounted other) : Agrees state other := by
  have hnodes : state.nodes = other.nodes := congrArg (fun m => range (List.length m)) hmemb
  have hcom : state.communityOf = other.communityOf :=
    congrArg (fun m => fun node => List.getD m node 0) hmemb
  have hvol : ∀ c, state.communityDegrees.getD c 0 = other.communityDegrees.getD c 0 := by
    intro c
    rw [h.volumes, h'.volumes, hnodes, hcom]
  have hsquar : state.sumCommunityDegreeSquares = other.sumCommunityDegreeSquares := by
    rw [h.squares, h'.squares]
    exact entrySum_congr (fun _ => square_zero) hvol
  have htotal : state.totalEdgeWeight = other.totalEdgeWeight := by
    have hleft := h.total
    have hright := h'.total
    rw [hnodes] at hleft
    linarith
  have hinter : state.totalInternalWeight = other.totalInternalWeight := by
    have hleft := h.internal
    have hright := h'.internal
    rw [hnodes, hcom] at hleft
    linarith
  have hmod : state.partition.modularity = other.partition.modularity := by
    rw [hrefr, hrefr', htotal, hinter, hsquar]
  have hdegr : state.weightedDegrees.length = other.weightedDegrees.length := by
    rw [h.degrees_length, h'.degrees_length, hmemb]
  refine ⟨hfing, ?_, ?_, ?_, ?_, ?_, hinter, hsquar, htotal⟩
  · calc state.partition = ⟨state.partition.membership, state.partition.modularity⟩ := rfl
      _ = ⟨other.partition.membership, other.partition.modularity⟩ := by
          rw [hmemb, hmod]
      _ = other.partition := rfl
  · rw [h.adjacency_length, h'.adjacency_length, hmemb]
  · intro i j
    rw [h.rows, h'.rows]
  · refine List.ext_getElem hdegr fun i hi hi' => ?_
    have hleft := h.degrees i (h.degrees_length ▸ hi)
    have hright := h'.degrees i (h'.degrees_length ▸ hi')
    rw [List.getD_eq_getElem _ _ hi, hnodes] at hleft
    rw [List.getD_eq_getElem _ _ hi'] at hright
    exact hleft.trans hright.symm
  · intro c hc
    exact getElem?_eq_of_getD (hacc.recorded c hc)
      (hacc'.recorded c (hmemb ▸ hc)) (hvol c)

def Sparse (adjacency : List (ExtTreeMap Nat ℚ)) : Prop :=
  ∀ i j, j ∈ adjacency.getD i ∅ → (adjacency.getD i ∅).getD j 0 ≠ 0

theorem Agrees.adjacency (h : Agrees state other) (hspars : Sparse state.adjacency)
    (hspars' : Sparse other.adjacency) : state.adjacency = other.adjacency := by
  have hmem : ∀ {adjacency : List (ExtTreeMap Nat ℚ)}, Sparse adjacency → ∀ i j,
      j ∈ adjacency.getD i ∅ ↔ (adjacency.getD i ∅).getD j 0 ≠ 0 := by
    intro adjacency hadj i j
    refine ⟨hadj i j, fun hne => ?_⟩
    by_contra hnone
    exact hne (ExtTreeMap.getD_eq_fallback hnone)
  have hrows : ∀ i, state.adjacency.getD i ∅ = other.adjacency.getD i ∅ := by
    intro i
    apply ExtTreeMap.ext_getElem?
    intro j
    by_cases hj : j ∈ state.adjacency.getD i ∅
    · have hj' : j ∈ other.adjacency.getD i ∅ := by
        rw [hmem hspars', ← h.weights]
        exact (hmem hspars i j).mp hj
      exact getElem?_eq_of_getD hj hj' (h.weights i j)
    · have hj' : j ∉ other.adjacency.getD i ∅ := by
        rw [hmem hspars', ← h.weights]
        exact fun hne => hj ((hmem hspars i j).mpr hne)
      rw [ExtTreeMap.getElem?_eq_none hj, ExtTreeMap.getElem?_eq_none hj']
  refine List.ext_getElem h.adjacency_length fun i hi hi' => ?_
  have hrow := hrows i
  rwa [List.getD_eq_getElem _ _ hi, List.getD_eq_getElem _ _ hi'] at hrow

end Agree

theorem Sparse.setNeighborWeight {adjacency : List (ExtTreeMap Nat ℚ)} (h : Sparse adjacency)
    (node neighbor : Nat) (weight : ℚ) :
    Sparse (setNeighborWeight adjacency node neighbor weight) := by
  intro i j hmem
  have hold := h i j
  unfold Community.setNeighborWeight at hmem ⊢
  rw [List.getD_eq_getElem?_getD] at hmem hold ⊢
  by_cases hi : node = i
  · subst hi
    rw [List.getElem?_modify_eq] at hmem ⊢
    cases hrow : adjacency[node]? with
    | none =>
      rw [hrow] at hmem
      simp at hmem
    | some known =>
      rw [hrow] at hmem hold
      simp only [Option.map_eq_map, Option.map_some, Option.getD_some, beq_iff_eq]
        at hmem hold ⊢
      split at hmem
      · rename_i hzero
        rw [ExtTreeMap.mem_erase, Ne, Nat.compare_eq_eq] at hmem
        have hne : ¬ compare neighbor j = .eq := by
          rw [Nat.compare_eq_eq]
          exact hmem.1
        rw [if_pos hzero, ExtTreeMap.getD_erase, if_neg hne]
        exact hold hmem.2
      · rename_i hnonz
        rw [ExtTreeMap.mem_insert, Nat.compare_eq_eq] at hmem
        rw [if_neg hnonz, getD_insert]
        split
        · exact hnonz
        · rename_i hne
          exact hold (hmem.resolve_left hne)
  · rw [List.getElem?_modify_ne _ _ hi] at hmem ⊢
    exact hold hmem

theorem fresh_sparse {graph : ProjectedGraph ℚ} {A : Nat → Nat → ℚ} (h : Represents graph A)
    (hedges : ∀ edge ∈ graph.edges, edge.weight ≠ 0) (membership : List Nat) :
    Sparse (fresh graph membership).adjacency := by
  intro i j hmem
  have hneigh : j ∈ graph.neighborsOf i :=
    neighborsOf_fresh.mp (ExtTreeMap.mem_keys.mpr hmem)
  obtain ⟨entry, hentry, rfl⟩ := List.mem_map.mp hneigh
  obtain ⟨edge, hedge, hweigh⟩ := h.weights i entry hentry
  rw [fresh_row h, entryWeight_mem (h.nodup i) hentry, ← hweigh]
  exact hedges edge hedge

theorem patchPair_sparse {graph : ProjectedGraph ℚ} {update : Update ℚ} (pair : Nat × Nat)
    (h : Sparse update.state.adjacency) : Sparse (patchPair graph update pair).state.adjacency := by
  unfold patchPair
  dsimp only
  split
  · exact h
  · exact (h.setNeighborWeight _ _ _).setNeighborWeight _ _ _

theorem updateFrontier_sparse {graph : ProjectedGraph ℚ} {start : IncrementalPartitionState ℚ}
    {dirty frontier : ExtTreeSet Nat} (config : IncrementalConfig ℚ) (h : Sparse start.adjacency) :
    Sparse (updateFrontier graph start dirty frontier config).state.adjacency := by
  refine updateFrontier_keeps (P := fun state => Sparse state.adjacency) config ?_ ?_
  · exact List.foldlRecOn _ (patchPair graph) (motive := fun (update : Update ℚ) =>
      Sparse update.state.adjacency) h fun update hupdate pair _ => patchPair_sparse pair hupdate
  · intro pass node _ hpass
    unfold refineNode
    dsimp only
    split
    · exact hpass
    · exact hpass

/-! ## Updates -/

theorem modularity_fresh {graph : ProjectedGraph ℚ} {B : Nat → Nat → ℚ} (h : Represents graph B)
    {membership : List Nat} (hlen : membership.length = graph.nodeIds.length) :
    (fresh graph membership).partition.modularity =
      modularity graph membership := by
  have hdescr := fresh_describes h hlen
  have hsquar : squareSum (fresh graph membership).communityDegrees =
      squareSum (degreeWeightOf (membership.getD · 0) graph.edges) := by
    refine entrySum_congr (fun _ => square_zero) fun c => ?_
    rw [hdescr.volumes, h.volumes, ← hlen]
    rfl
  rw [modularity_eq, ← hsquar]
  rfl

/-- Whatever the input and the configuration of the two projections: if the dirty nodes cover
the weights that changed, an accepted update gives the state that is computed afresh.  Only an
edge of weight zero can tell the two apart, for the update keeps no entry for it. -/
theorem incremental_update_is_fresh {oldInput newInput : List ProjectionInputEdge}
    {oldConfig newConfig : ProjectionConfig ℚ} {membership : List Nat}
    {state : IncrementalPartitionState ℚ} {dirtyNodes : List Nat} {config : IncrementalConfig ℚ}
    {output : IncrementalOutput ℚ} {rollback : IncrementalPartitionRollback ℚ}
    (hstate : new (projectGroundedRelates oldInput oldConfig)
      membership = .ok state)
    (hchanged : ∀ i j, (projectGroundedRelates oldInput oldConfig).weightBetween i j ≠
      (projectGroundedRelates newInput newConfig).weightBetween i j →
      i ∈ dirtyNodes ∨ j ∈ dirtyNodes)
    (hupdate : incrementalPartitionRecoverable (projectGroundedRelates newInput newConfig) state
      dirtyNodes config = .ok (output, rollback)) :
    ∃ fresh, new (projectGroundedRelates newInput newConfig)
        output.partition.membership = .ok fresh ∧
      Agrees output.state fresh ∧
      ((∀ edge ∈ (projectGroundedRelates oldInput oldConfig).edges, edge.weight ≠ 0) →
        (∀ edge ∈ (projectGroundedRelates newInput newConfig).edges, edge.weight ≠ 0) →
        output.state.adjacency = fresh.adjacency) ∧
      output.partition.modularity =
        modularity (projectGroundedRelates newInput newConfig) output.partition.membership := by
  obtain ⟨A, hold⟩ := projectGroundedRelates_represents oldInput oldConfig
  obtain ⟨B, hnew⟩ := projectGroundedRelates_represents newInput newConfig
  have hboun := projectGroundedRelates_bounded oldInput oldConfig
  have hbound := projectGroundedRelates_bounded newInput newConfig
  obtain ⟨hlen, rfl⟩ := new_ok hstate
  have hstart := fresh_accounted hboun hlen
  obtain ⟨dirty, frontier, hfront, houtp, -⟩ := incrementalPartitionRecoverable_ok hupdate
  have hcur := updateFrontier_current config hnew hbound hstart (fresh_describes hold hlen)
    (fun node neighbor hmem => hold.loopless node neighbor (neighborsOf_fresh.mp hmem))
    hfront fun i j hne => hchanged i j (by rwa [hold.weightBetween, hnew.weightBetween])
  have hkept := updateFrontier_kept config hbound hstart hfront
  rw [← houtp] at hcur hkept
  have hcov : output.partition.membership.length =
      (projectGroundedRelates newInput newConfig).nodeIds.length := hcur.membership_length
  have hagr : Agrees output.state (fresh
      (projectGroundedRelates newInput newConfig) output.partition.membership) :=
    hcur.describes.agrees (fresh_describes hnew hcov) rfl
      (hkept.1.fingerprint.trans hfront.fingerprint) hcur.refreshed rfl hkept.2
      (fresh_accounted hbound hcov)
  refine ⟨_, if_neg (not_not.mpr hcov), hagr, ?_, ?_⟩
  · intro holdEd hnewEdges
    refine hagr.adjacency ?_ (fresh_sparse hnew hnewEdges _)
    rw [houtp]
    exact updateFrontier_sparse config (fresh_sparse hold holdEd _)
  · rw [← modularity_fresh hnew hcov]
    exact congrArg PartitionOutput.modularity hagr.partition

/-- Five nodes in a row, and then with a triangle at the end. -/
def rowInput : List ProjectionInputEdge :=
  [⟨"e1", "a", "b"⟩, ⟨"e2", "b", "c"⟩, ⟨"e3", "c", "d"⟩, ⟨"e4", "d", "e"⟩]

def triangleInput : List ProjectionInputEdge := rowInput ++ [⟨"e5", "e", "c"⟩]

def wholeConfig : IncrementalConfig ℚ := ⟨1, 1, 100, 1 / 1000⟩

theorem covers_of_rows (graph other : ProjectedGraph ℚ) (dirtyNodes : List Nat) (bound : Nat)
    (hlen : graph.adjacency.length ≤ bound) (hlen' : other.adjacency.length ≤ bound)
    (hrows : ∀ i < bound, i ∉ dirtyNodes →
      graph.adjacency.getD i [] = other.adjacency.getD i []) (i j : Nat)
    (hne : graph.weightBetween i j ≠ other.weightBetween i j) :
    i ∈ dirtyNodes ∨ j ∈ dirtyNodes := by
  by_contra hclean
  rw [not_or] at hclean
  have hrow : graph.adjacency.getD i [] = other.adjacency.getD i [] := by
    by_cases hi : i < bound
    · exact hrows i hi hclean.1
    · have hle := Nat.le_of_not_lt hi
      rw [List.getD_eq_default _ _ (hlen.trans hle), List.getD_eq_default _ _ (hlen'.trans hle)]
  refine hne ?_
  unfold ProjectedGraph.weightBetween
  rw [hrow]

theorem exists_ok {ε α β : Type} {result : Except ε α} {f : α → β} {value : β}
    (h : result.toOption.map f = some value) : ∃ found, result = .ok found ∧ f found = value := by
  cases result with
  | error failure => cases h
  | ok found => exact ⟨found, rfl, Option.some.inj h⟩

/-- Closing the triangle moves its third node, and one community is left empty. -/
theorem incremental_update_is_fresh_triangle : ∃ state output rollback fresh,
      new (projectGroundedRelates (W := ℚ) rowInput .default)
        [0, 0, 1, 1, 2] = .ok state ∧
      incrementalPartitionRecoverable (projectGroundedRelates triangleInput .default) state [2, 4]
        wholeConfig = .ok (output, rollback) ∧
      output.partition.membership = [0, 0, 2, 2, 2] ∧
      new (projectGroundedRelates triangleInput .default)
        output.partition.membership = .ok fresh ∧
      Agrees output.state fresh ∧ output.state.adjacency = fresh.adjacency ∧
      output.partition.modularity =
        modularity (projectGroundedRelates triangleInput .default) output.partition.membership := by
  have hstate : new (projectGroundedRelates (W := ℚ) rowInput .default)
      [0, 0, 1, 1, 2] = .ok (.fresh (projectGroundedRelates rowInput .default) [0, 0, 1, 1, 2]) :=
    if_neg (by decide +kernel)
  have hupd : (incrementalPartitionRecoverable (projectGroundedRelates triangleInput .default)
      (.fresh (projectGroundedRelates rowInput .default) [0, 0, 1, 1, 2]) [2, 4]
      wholeConfig).toOption.map (fun result => result.1.partition.membership) =
        some [0, 0, 2, 2, 2] := by
    decide +kernel
  obtain ⟨⟨output, rollback⟩, hupdate, hmemb⟩ := exists_ok hupd
  have hcov := covers_of_rows (projectGroundedRelates rowInput .default)
    (projectGroundedRelates triangleInput .default) [2, 4] 5
    (by decide +kernel) (by decide +kernel) (by decide +kernel)
  obtain ⟨fresh, hfresh, hagr, hadj, hmod⟩ :=
    incremental_update_is_fresh hstate hcov hupdate
  have hpos : ∀ input : List ProjectionInputEdge,
      ∀ edge ∈ (projectGroundedRelates (W := ℚ) input .default).edges, edge.weight ≠ 0 :=
    fun _ edge hedge => (projectGroundedRelates_weight_pos (by decide +kernel)
      (by decide +kernel) (by decide +kernel) edge hedge).ne'
  exact ⟨_, output, rollback, fresh, hstate, hupdate, hmemb, hfresh, hagr,
    hadj (hpos _) (hpos _), hmod⟩

def weightlessConfig : ProjectionConfig ℚ := ⟨0, 3, 50⟩

/-- An update drops the entries of an edge that has lost its weight; a fresh state keeps them. -/
theorem weightless_entries_dropped : ∃ state output rollback fresh,
      new (projectGroundedRelates (W := ℚ) [⟨"e", "a", "b"⟩] .default)
        [0, 0] = .ok state ∧
      (projectGroundedRelates [⟨"e", "a", "b"⟩] weightlessConfig).nodeIds =
        (projectGroundedRelates (W := ℚ) [⟨"e", "a", "b"⟩] .default).nodeIds ∧
      (∀ i j, (projectGroundedRelates (W := ℚ) [⟨"e", "a", "b"⟩] .default).weightBetween i j ≠
        (projectGroundedRelates [⟨"e", "a", "b"⟩] weightlessConfig).weightBetween i j →
          i ∈ [0, 1] ∨ j ∈ [0, 1]) ∧
      incrementalPartitionRecoverable
        (projectGroundedRelates [⟨"e", "a", "b"⟩] weightlessConfig) state [0, 1] wholeConfig =
          .ok (output, rollback) ∧
      new (projectGroundedRelates [⟨"e", "a", "b"⟩] weightlessConfig)
        output.partition.membership = .ok fresh ∧
      output.state.adjacency ≠ fresh.adjacency := by
  have hupd : (incrementalPartitionRecoverable
      (projectGroundedRelates [⟨"e", "a", "b"⟩] weightlessConfig)
      (.fresh (projectGroundedRelates [⟨"e", "a", "b"⟩] .default) [0, 0]) [0, 1]
      wholeConfig).toOption.map (fun result =>
        (result.1.partition.membership, result.1.state.adjacency.map (·.toList))) =
        some ([0, 0], [[], []]) := by
    decide +kernel
  obtain ⟨⟨output, rollback⟩, hupdate, hocc⟩ := exists_ok hupd
  obtain ⟨hmemb, hadj⟩ := Prod.mk.inj hocc
  refine ⟨_, output, rollback,
    .fresh (projectGroundedRelates [⟨"e", "a", "b"⟩] weightlessConfig) output.partition.membership,
    if_neg (by decide +kernel), by decide +kernel, ?_, hupdate, ?_, ?_⟩
  · exact covers_of_rows _ _ _ 2 (by decide +kernel) (by decide +kernel) (by decide +kernel)
  · rw [hmemb]
    exact if_neg (by decide +kernel)
  · intro hsame
    rw [hsame, hmemb] at hadj
    exact absurd hadj (by decide +kernel)

end Wenlan.Community
