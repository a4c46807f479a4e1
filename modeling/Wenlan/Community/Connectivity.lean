import Wenlan.Community.DirtySet
import Wenlan.Community.Refinement
import Wenlan.Support.DepthFirst

/-!
# Connected communities

A community is connected when every two of its nodes are joined by a path inside it.  The
depth-first search of `community_is_connected` decides this.
-/

namespace Wenlan.Community

open Std Support.DepthFirst List

set_option linter.unusedSectionVars false

variable {W : Type} [Weight W] [DecidableLT W] [DecidableLE W]

def communityNeighbors (graph : ProjectedGraph W) (membership : List Nat) (community node : Nat) :
    List Nat :=
  (graph.neighborsOf node).filter fun neighbor => membership.getD neighbor 0 = community

def members (membership : List Nat) (community : Nat) : List Nat :=
  (List.range membership.length).filter fun node => membership.getD node 0 = community

/-- Every two nodes of the community are joined by a path inside it. -/
def Connected (graph : ProjectedGraph W) (membership : List Nat) (community : Nat) : Prop :=
  ∀ node ∈ members membership community, ∀ other ∈ members membership community,
    Reaches (communityNeighbors graph membership community) node other

section

variable {graph : ProjectedGraph W} {membership : List Nat} {community : Nat}

theorem mem_members {node : Nat} : node ∈ members membership community ↔
    node < membership.length ∧ membership.getD node 0 = community := by
  rw [members, mem_filter, mem_range, decide_eq_true_eq]

theorem mem_communityNeighbors {node neighbor : Nat} :
    neighbor ∈ communityNeighbors graph membership community node ↔
      neighbor ∈ graph.neighborsOf node ∧ membership.getD neighbor 0 = community := by
  rw [communityNeighbors, mem_filter, decide_eq_true_eq]

theorem visitCommunity_eq (fuel : Nat) (visited : ExtTreeSet Nat) (stack : List Nat) :
    visitCommunity graph membership community fuel visited stack =
      visit (fun node => (communityNeighbors graph membership community node).reverse) fuel visited
        stack := by
  induction fuel generalizing visited stack with
  | zero => rfl
  | succ fuel ih =>
    cases stack with
    | nil => rfl
    | cons node stack =>
      have hneig : ∀ entries : List (Nat × W), (entries.filterMap fun entry =>
          if membership.getD entry.1 0 = community then some entry.1 else none) =
            (entries.map Prod.fst).filter fun neighbor =>
              membership.getD neighbor 0 = community := by
        intro entries
        induction entries with
        | nil => rfl
        | cons entry entries hents =>
          rw [filterMap_cons, map_cons, filter_cons, hents]
          by_cases hsame : membership.getD entry.1 0 = community
          · rw [if_pos hsame, if_pos (decide_eq_true hsame)]
          · rw [if_neg hsame, if_neg (mt of_decide_eq_true hsame)]
      unfold visitCommunity visit
      split
      · exact ih _ _
      · rw [hneig]
        exact ih _ _

theorem members_length : (members membership community).length = membership.count community := by
  induction membership using reverseRecOn with
  | nil => rfl
  | append_singleton membership last ih =>
    have hkept : (range membership.length).filter
        (fun node => (membership ++ [last]).getD node 0 = community) =
          members membership community := by
      apply filter_congr
      intro node hnode
      rw [getD_append _ _ _ _ (mem_range.mp hnode)]
    have hlast : (membership ++ [last]).getD membership.length 0 = last := by
      rw [getD_append_right _ _ _ _ (Nat.le_refl _), Nat.sub_self]
      rfl
    rw [members, length_append, length_singleton, range_succ, filter_append,
      hkept, length_append, ih, count_append]
    congr 1
    by_cases hsame : last = community
    · simp [hsame]
    · simp [hsame]

theorem toList_nodup (set : ExtTreeSet Nat) : set.toList.Nodup :=
  ExtTreeSet.distinct_toList.imp fun hne hsame => hne (Nat.compare_eq_eq.mpr hsame)

theorem members_nodup : (members membership community).Nodup := nodup_range.filter _

theorem rows_length {α : Type} (rows : List (List α)) :
    (rows.map length).sum = ∑ node ∈ Finset.range rows.length, (rows.getD node []).length := by
  induction rows using reverseRecOn with
  | nil => rfl
  | append_singleton rows row ih =>
    have hkept : ∀ node ∈ Finset.range rows.length,
        ((rows ++ [row]).getD node []).length = (rows.getD node []).length := by
      intro node hnode
      rw [getD_append _ _ _ _ (Finset.mem_range.mp hnode)]
    rw [map_append, sum_append, ih, length_append, length_singleton,
      Finset.sum_range_succ, Finset.sum_congr rfl hkept]
    simp

section

variable (hgraph : Bounded graph) (hlen : membership.length = graph.nodeIds.length)
include hgraph hlen

theorem communityNeighbors_length : ∑ node ∈ Finset.range membership.length,
        ((communityNeighbors graph membership community node).reverse).length ≤
      (graph.adjacency.map length).sum := by
  rw [rows_length, hgraph.adjacency_length, hlen]
  apply Finset.sum_le_sum
  intro node _
  rw [length_reverse, communityNeighbors, ProjectedGraph.neighborsOf]
  exact (length_filter_le _ _).trans_eq (length_map _)

theorem mem_visitCommunity {first : Nat} (hfirst : first < membership.length) (node : Nat) :
    node ∈ visitCommunity graph membership community
        (1 + (graph.adjacency.map length).sum) ∅ [first] ↔
      Reaches (communityNeighbors graph membership community) first node := by
  have hrev : (fun node other =>
      other ∈ (communityNeighbors graph membership community node).reverse) =
        fun node other => other ∈ communityNeighbors graph membership community node := by
    funext node other
    rw [mem_reverse]
  have hclos : ∀ node ∈ Finset.range membership.length,
      ∀ other ∈ (communityNeighbors graph membership community node).reverse,
        other ∈ Finset.range membership.length := by
    intro node _ other hother
    rw [Finset.mem_range, hlen]
    exact hgraph.neighbor_lt node other
      (mem_communityNeighbors.mp (mem_reverse.mp hother)).1
  have hfuel := Nat.add_le_add_left
    (@communityNeighbors_length _ _ _ _ _ _ community hgraph hlen) 1
  rw [visitCommunity_eq, mem_visit_iff hclos (Finset.mem_range.mpr hfirst) hfuel]
  unfold Reaches
  rw [hrev]

theorem Reaches.members {node other : Nat} (hnode : node ∈ members membership community)
    (h : Reaches (communityNeighbors graph membership community) node other) :
    other ∈ members membership community := by
  cases Relation.ReflTransGen.cases_tail h with
  | inl hsame => exact hsame ▸ hnode
  | inr hstep =>
    obtain ⟨before, -, hlast⟩ := hstep
    obtain ⟨hneigh, hcom⟩ := mem_communityNeighbors.mp hlast
    refine mem_members.mpr ⟨?_, hcom⟩
    rw [hlen]
    exact hgraph.neighbor_lt before other hneigh

end

/-- Every node is among the neighbours of its neighbours. -/
def Mutual (graph : ProjectedGraph W) : Prop :=
  ∀ node, ∀ neighbor ∈ graph.neighborsOf node, node ∈ graph.neighborsOf neighbor

theorem Reaches.back (hmut : Mutual graph) {node other : Nat}
    (hnode : membership.getD node 0 = community)
    (h : Reaches (communityNeighbors graph membership community) node other) :
    Reaches (communityNeighbors graph membership community) other node := by
  induction h with
  | refl => exact .refl
  | tail hbefore hlast ih =>
    rename_i before last
    obtain ⟨hneigh, -⟩ := mem_communityNeighbors.mp hlast
    have hcom : membership.getD before 0 = community := by
      cases Relation.ReflTransGen.cases_tail hbefore with
      | inl hsame => exact hsame ▸ hnode
      | inr hstep =>
        obtain ⟨_, -, hstep⟩ := hstep
        exact (mem_communityNeighbors.mp hstep).2
    exact ih.head (mem_communityNeighbors.mpr ⟨hmut before last hneigh, hcom⟩)

theorem communityIsConnected_iff (hgraph : Bounded graph) (hmut : Mutual graph)
    (hlen : membership.length = graph.nodeIds.length) :
    communityIsConnected graph membership community ↔
      Connected graph membership community := by
  unfold communityIsConnected
  split
  · rename_i hmem
    have hfirst : membership.idxOf community < membership.length := idxOf_lt_length_iff.mpr hmem
    have hvalue : membership.getD (membership.idxOf community) 0 = community := by
      rw [getD_eq_getElem _ _ hfirst, getElem_idxOf hfirst]
    have hmemb : membership.idxOf community ∈ members membership community :=
      mem_members.mpr ⟨hfirst, hvalue⟩
    rw [beq_iff_eq, ← members_length, ← ExtTreeSet.length_toList]
    have hvis : ∀ node, node ∈ (visitCommunity graph membership community
        (1 + (graph.adjacency.map length).sum) ∅ [membership.idxOf community]).toList ↔
          Reaches (communityNeighbors graph membership community) (membership.idxOf community)
            node := by
      intro node
      rw [ExtTreeSet.mem_toList]
      exact mem_visitCommunity hgraph hlen hfirst node
    have hsubs : (visitCommunity graph membership community
        (1 + (graph.adjacency.map length).sum) ∅ [membership.idxOf community]).toList ⊆
          members membership community := by
      intro node hnode
      exact Reaches.members hgraph hlen hmemb ((hvis node).mp hnode)
    constructor
    · intro hsize node hnode other hother
      have hperm := (subperm_of_subset (toList_nodup _) hsubs).perm_of_length_le
        hsize.ge
      have hthere := (hvis node).mp (hperm.mem_iff.mpr hnode)
      have hthat := (hvis other).mp (hperm.mem_iff.mpr hother)
      exact (Reaches.back hmut hvalue hthere).trans hthat
    · intro hconnected
      apply List.Perm.length_eq
      rw [perm_ext_iff_of_nodup (toList_nodup _) members_nodup]
      intro node
      rw [hvis]
      exact ⟨Reaches.members hgraph hlen hmemb, hconnected _ hmemb node⟩
  · rename_i hmem
    refine ⟨fun _ node hnode => ?_, fun _ => rfl⟩
    obtain ⟨hlt, hcom⟩ := mem_members.mp hnode
    rw [getD_eq_getElem _ _ hlt] at hcom
    exact absurd (hcom ▸ getElem_mem hlt) hmem

end

theorem projectGroundedRelates_mutual (input : List ProjectionInputEdge)
    (config : ProjectionConfig W) : Mutual (projectGroundedRelates input config) := by
  intro node neighbor hneigh
  obtain ⟨entry, hentry, rfl⟩ := mem_map.mp hneigh
  have hbound := projectGroundedRelates_bounded input config
  have hnode : node < (projectGroundedRelates input config).nodeIds.length := by
    rw [← hbound.adjacency_length]
    by_contra hout
    rw [getD_eq_default _ _ (Nat.le_of_not_lt hout)] at hentry
    cases hentry
  have hlt := hbound.neighbor_lt node entry.1 hneigh
  obtain ⟨pair, folded, hsome, hends, hweigh⟩ := (mem_projectedRow hnode).mp hentry
  exact mem_map.mpr ⟨(node, entry.2),
    (mem_projectedRow hlt).mpr ⟨pair, folded, hsome, hends.symm.imp And.symm And.symm, hweigh⟩, rfl⟩

end Wenlan.Community

/-!
## Updates keep communities connected

An update checks the communities that have lost an edge inside them and those that a node has left
or joined.  Any other community has the members it had and all its edges.
-/

namespace Wenlan.Community

open Std Support.DepthFirst Support.WeightedPartition

/-! ## What patching touches -/

section Patch

variable {graph : ProjectedGraph ℚ} {A B : Nat → Nat → ℚ} {start : IncrementalPartitionState ℚ}
  {dirty : ExtTreeSet Nat}

theorem patchPair_touched (update : Update ℚ) (pair : Nat × Nat) {community : Nat}
    (h : community ∈ update.touched) : community ∈ (patchPair graph update pair).touched := by
  unfold patchPair
  dsimp only
  split
  · exact h
  · dsimp only
    split
    · exact ExtTreeSet.mem_insert.mpr (.inr h)
    · exact h

theorem patchPair_removed {update : Update ℚ} {src dst : Nat} (h : Describes A update.state)
    (hold : 0 < A src dst) (hnew : graph.weightBetween src dst = 0)
    (hsame : update.state.communityOf src = update.state.communityOf dst) :
    update.state.communityOf src ∈ (patchPair graph update (src, dst)).touched := by
  unfold patchPair
  dsimp only
  rw [h.rows, hnew]
  have hdelta : ¬ ((0 - A src dst == 0)) := by
    rw [beq_iff_eq]
    linarith
  have hrem : 0 < A src dst ∧ ((0 : ℚ) == 0) ∧
      update.state.communityOf src = update.state.communityOf dst := ⟨hold, rfl, hsame⟩
  rw [if_neg hdelta, if_pos hrem]
  exact ExtTreeSet.mem_insert_self

theorem patchPairs_removed {pairs : List (Nat × Nat)} {update : Update ℚ} {src dst : Nat}
    (h : Describes A update.state)
    (hpairs : ∀ pair ∈ pairs, pair.1 < update.state.partition.membership.length ∧
      pair.2 < update.state.partition.membership.length ∧ pair.1 < pair.2)
    (hmem : (src, dst) ∈ pairs) (hold : 0 < A src dst) (hnew : graph.weightBetween src dst = 0)
    (hsame : update.state.communityOf src = update.state.communityOf dst) :
    update.state.communityOf src ∈ (pairs.foldl (patchPair graph) update).touched := by
  induction pairs generalizing A update with
  | nil => cases hmem
  | cons pair pairs ih =>
    obtain ⟨left, right⟩ := pair
    have hlast := hpairs _ hmem
    rw [List.forall_mem_cons] at hpairs
    obtain ⟨⟨hleft, hright, hlt⟩, hlater⟩ := hpairs
    rw [List.foldl_cons]
    by_cases hhead : (left, right) = (src, dst)
    · cases hhead
      refine List.foldlRecOn pairs (patchPair graph) (motive := fun (later : Update ℚ) =>
        update.state.communityOf src ∈ later.touched) (patchPair_removed h hold hnew hsame) ?_
      exact fun later hlater pair _ => patchPair_touched later pair hlater
    · have hpart := patchPair_partition graph update (left, right)
      have hcom : (patchPair graph update (left, right)).state.communityOf =
          update.state.communityOf := by
        funext node
        unfold IncrementalPartitionState.communityOf
        rw [hpart]
      have hkept : bump A left right (graph.weightBetween left right - A left right) src dst =
          A src dst := by
        unfold bump
        rw [if_neg, add_zero]
        rintro (⟨rfl, rfl⟩ | ⟨rfl, rfl⟩)
        · exact hhead rfl
        · exact absurd hlast.2.2 (Nat.lt_asymm hlt)
      have hmem' : (src, dst) ∈ pairs := by
        rcases List.mem_cons.mp hmem with hsrc | hrest
        · exact absurd hsrc.symm hhead
        · exact hrest
      rw [← hcom]
      refine ih (patchPair_describes graph h hleft hright hlt.ne) ?_ hmem' ?_ ?_
      · rw [hpart]
        exact hlater
      · rw [hkept]
        exact hold
      · rw [hcom]
        exact hsame

/-- The state of another graph, patched: an edge that the new graph lacks touches the community it
was inside of. -/
theorem applyProjectionDeltas_removed (hgraph : Represents graph B) (h : Describes A start)
    (hstart : Loopfree start) (hwith : ∀ pair ∈ changedPairs graph start dirty,
      pair.1 < start.partition.membership.length ∧ pair.2 < start.partition.membership.length)
    {i j : Nat} (hdirty : i ∈ dirty ∨ j ∈ dirty) (hold : 0 < A i j) (hnew : B i j = 0)
    (hsame : start.communityOf i = start.communityOf j) :
    start.communityOf i ∈ (applyProjectionDeltas graph start dirty).touched := by
  have hpairs : ∀ pair ∈ (changedPairs graph start dirty).toList,
      pair.1 < start.partition.membership.length ∧
        pair.2 < start.partition.membership.length ∧ pair.1 < pair.2 := by
    intro pair hpair
    have hmem := ExtTreeSet.mem_toList.mp hpair
    refine ⟨(hwith pair hmem).1, (hwith pair hmem).2, ?_⟩
    have hne := changedPairs_ne hgraph hstart pair hmem
    rcases mem_gather.mp hmem with hempty | ⟨node, -, hnode⟩
    · simp at hempty
    · obtain ⟨neighbor, -, rfl⟩ := List.mem_map.mp hnode
      unfold orderedPair at hne ⊢
      split
      · assumption
      · rename_i hnot
        rw [if_neg hnot] at hne
        exact Nat.lt_of_le_of_ne (Nat.le_of_not_lt hnot) hne
  have hback : A j i = A i j := h.undirected.symm j i
  have hnewB : B j i = B i j := hgraph.undirected.symm j i
  have hpair : (i, j) ∈ changedPairs graph start dirty ∨
      (j, i) ∈ changedPairs graph start dirty := by
    rcases hdirty with hi | hj
    · exact mem_changedPairs hgraph h hi (by linarith)
    · exact (mem_changedPairs hgraph h hj (by linarith)).symm
  have hunp : Describes A (Update.mk start ∅).state := h
  rcases hpair with hforth | hbackward
  · refine patchPairs_removed hunp hpairs (ExtTreeSet.mem_toList.mpr hforth) hold ?_ hsame
    rw [hgraph.weightBetween, hnew]
  · rw [hsame]
    refine patchPairs_removed hunp hpairs (ExtTreeSet.mem_toList.mpr hbackward) ?_ ?_
      hsame.symm
    · rw [hback]
      exact hold
    · rw [hgraph.weightBetween, hnewB, hnew]

end Patch

/-- Every community that a node has left or joined since `start` is touched. -/
structure Traced (start update : Update ℚ) : Prop where
  touched : ∀ community ∈ start.touched, community ∈ update.touched
  moved : ∀ node, update.state.communityOf node ≠ start.state.communityOf node →
    update.state.communityOf node ∈ update.touched ∧ start.state.communityOf node ∈ update.touched

theorem Traced.refl (update : Update ℚ) : Traced update update where
  touched _ h := h
  moved _ h := absurd rfl h

theorem refineNode_traced (graph : ProjectedGraph ℚ) (epsilon : ℚ) {start : Update ℚ}
    {pass : Update ℚ × Bool} (node : Nat) (h : Traced start pass.1) :
    Traced start (refineNode graph epsilon pass node).1 := by
  unfold refineNode
  dsimp only
  split
  · exact h
  · rename_i candidate gain hbest
    have hins : ∀ community, community ∈ (pass.1.touched.insert
        (pass.1.state.communityOf node)).insert candidate ↔ community = candidate ∨
          community = pass.1.state.communityOf node ∨ community ∈ pass.1.touched := by
      intro community
      rw [Support.DepthFirst.mem_insert_iff, Support.DepthFirst.mem_insert_iff]
    refine ⟨?_, ?_⟩
    · intro community hcom
      exact (hins community).mpr (.inr (.inr (h.touched community hcom)))
    · intro other hmoved
      have hset : (moveNode pass.1.state (incidentByCommunity graph pass.1.state node) node
          candidate).communityOf other =
            if node = other ∧ node < pass.1.state.partition.membership.length then candidate
            else pass.1.state.communityOf other := communityOf_set
      rw [hins, hins]
      rw [hset] at hmoved ⊢
      split at hmoved
      · rename_i hnode
        refine ⟨.inl (if_pos hnode), ?_⟩
        obtain ⟨rfl, -⟩ := hnode
        by_cases hkept : pass.1.state.communityOf node = start.state.communityOf node
        · exact .inr (.inl hkept.symm)
        · exact .inr (.inr (h.moved node hkept).2)
      · rename_i hnode
        rw [if_neg hnode]
        obtain ⟨hnow, hthen⟩ := h.moved other hmoved
        exact ⟨.inr (.inr hnow), .inr (.inr hthen)⟩

theorem updateFrontier_traced (graph : ProjectedGraph ℚ) (state : IncrementalPartitionState ℚ)
    (dirty frontier : ExtTreeSet Nat) (config : IncrementalConfig ℚ) :
    Traced (applyProjectionDeltas graph state dirty)
      (updateFrontier graph state dirty frontier config) := by
  unfold updateFrontier
  dsimp only
  split
  · exact refine_holds (fun pass node _ hpass => refineNode_traced graph _ node hpass) _ (.refl _)
  · exact .refl _

/-! ## The update -/

theorem incrementalPartitionRecoverable_checked {graph : ProjectedGraph ℚ}
    {state : IncrementalPartitionState ℚ} {dirtyNodes : List Nat} {config : IncrementalConfig ℚ}
    {output : IncrementalOutput ℚ} {rollback : IncrementalPartitionRollback ℚ}
    (h : incrementalPartitionRecoverable graph state dirtyNodes config = .ok (output, rollback)) :
    ∃ dirty frontier, FrontierOf graph state dirtyNodes dirty frontier ∧
      output.state = (updateFrontier graph state dirty frontier config).state ∧
      ∀ community ∈ (updateFrontier graph state dirty frontier config).touched,
        communityIsConnected graph output.partition.membership community := by
  unfold incrementalPartitionRecoverable at h
  split at h
  · cases h
  · rename_i dirty frontier hfront
    dsimp only at h
    split at h
    · cases h
    · rename_i hcheck
      obtain ⟨houtp, -⟩ := Prod.ext_iff.mp (Except.ok.inj h)
      dsimp only at houtp
      refine ⟨dirty, frontier, incrementalFrontier_ok hfront, ?_, ?_⟩
      · rw [← houtp]
      · intro community hcom
        rw [← houtp]
        by_contra hnot
        apply hcheck
        rw [List.any_eq_true]
        refine ⟨community, ExtTreeSet.mem_toList.mpr hcom, ?_⟩
        rw [Bool.not_eq_true']
        exact Bool.eq_false_iff.mpr hnot

theorem weightBetween_pos {input : List ProjectionInputEdge} {config : ProjectionConfig ℚ}
    (hrelates : 0 < config.relatesWeight) (hcap : 0 < config.parallelEdgeCapMultiplier)
    (hhub : 0 < config.hubDegreeCap) {node neighbor : Nat}
    (hneigh : neighbor ∈ (projectGroundedRelates input config).neighborsOf node) :
    0 < (projectGroundedRelates input config).weightBetween node neighbor := by
  obtain ⟨A, hgraph⟩ := projectGroundedRelates_represents input config
  obtain ⟨entry, hentry, rfl⟩ := List.mem_map.mp hneigh
  obtain ⟨edge, hedge, hweigh⟩ := hgraph.weights node entry hentry
  rw [hgraph.weightBetween, ← hgraph.entry, entryWeight_mem (hgraph.nodup node) hentry, ← hweigh]
  exact projectGroundedRelates_weight_pos hrelates hcap hhub edge hedge

end Wenlan.Community
