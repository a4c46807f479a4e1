import Wenlan.Community.FreshState

/-!
# Local refinement

A move that the passes accept changes the modularity of the partition by the gain that was computed
for it before the move.  The gains are above `epsilon`, so the passes never lower modularity.
-/

namespace Wenlan.Community

open Std Finset Support.MapSum Support.WeightedPartition IncrementalPartitionState

/-! ## States of a graph -/

/-- The states of a graph that updates lead to: those computed afresh from a membership, those
patched from a state of another graph, and those in which a node has been refined. -/
inductive Held : ProjectedGraph ℚ → IncrementalPartitionState ℚ → Prop
  | fresh {input : List ProjectionInputEdge} {config : ProjectionConfig ℚ} {membership : List Nat}
      {state : IncrementalPartitionState ℚ}
      (hnew : new (projectGroundedRelates input config) membership = .ok state) :
      Held (projectGroundedRelates input config) state
  | patched {graph : ProjectedGraph ℚ} {state : IncrementalPartitionState ℚ}
      {input : List ProjectionInputEdge} {projection : ProjectionConfig ℚ} {dirtyNodes : List Nat}
      {config : IncrementalConfig ℚ} {dirty frontier : ExtTreeSet Nat} (hheld : Held graph state)
      (hfrontier : state.incrementalFrontier (projectGroundedRelates input projection) dirtyNodes
        config = .ok (dirty, frontier))
      (hchanged : ∀ i j, graph.weightBetween i j ≠
        (projectGroundedRelates input projection).weightBetween i j →
          i ∈ dirtyNodes ∨ j ∈ dirtyNodes) :
      Held (projectGroundedRelates input projection)
        (applyProjectionDeltas (projectGroundedRelates input projection) state dirty).state
  | refined {graph : ProjectedGraph ℚ} {pass : Update ℚ × Bool} {node : Nat} (epsilon : ℚ)
      (hheld : Held graph pass.1.state) (hnode : node < graph.nodeIds.length) :
      Held graph (refineNode graph epsilon pass node).1.state

def Loopfree (state : IncrementalPartitionState ℚ) : Prop :=
  ∀ node, ∀ neighbor ∈ state.neighborsOf node, neighbor ≠ node

theorem patchPair_loopfree (graph : ProjectedGraph ℚ) {update : Update ℚ} {pair : Nat × Nat}
    (h : Loopfree update.state) (hpair : pair.1 ≠ pair.2) :
    Loopfree (patchPair graph update pair).state := by
  obtain ⟨src, dst⟩ := pair
  unfold patchPair
  dsimp only
  split
  · exact h
  · intro node neighbor hneighbor
    rcases neighbor_of_setNeighborWeight hneighbor with ⟨rfl, rfl⟩ | hneighbor
    · exact hpair
    · rcases neighbor_of_setNeighborWeight hneighbor with ⟨rfl, rfl⟩ | hneighbor
      · exact hpair.symm
      · exact h node neighbor hneighbor

theorem refineNode_adjacency (graph : ProjectedGraph ℚ) (epsilon : ℚ) (pass : Update ℚ × Bool)
    (node : Nat) :
    (refineNode graph epsilon pass node).1.state.adjacency = pass.1.state.adjacency := by
  unfold refineNode
  dsimp only
  split
  · rfl
  · rfl

structure Sound (graph : ProjectedGraph ℚ) (B : Nat → Nat → ℚ)
    (state : IncrementalPartitionState ℚ) : Prop where
  represents : Represents graph B
  bounded : Bounded graph
  current : Current graph B state
  accounted : Accounted state
  loopfree : Loopfree state

theorem Held.sound {graph : ProjectedGraph ℚ} {state : IncrementalPartitionState ℚ}
    (h : Held graph state) : ∃ B, Sound graph B state := by
  induction h with
  | @fresh input config membership state hnew =>
    obtain ⟨B, hgraph⟩ := projectGroundedRelates_represents input config
    have hbound := projectGroundedRelates_bounded input config
    obtain ⟨hlen, rfl⟩ := new_ok hnew
    refine ⟨B, hgraph, hbound, ⟨fresh_describes hgraph hlen, rfl, hlen⟩,
      fresh_accounted hbound hlen, ?_⟩
    intro node neighbor hneighbor
    exact hgraph.loopless node neighbor (neighborsOf_fresh.mp hneighbor)
  | @patched graph state input projection dirtyNodes config dirty frontier hheld hfrontier hchanged
      ih =>
      obtain ⟨A, hold⟩ := ih
      obtain ⟨B, hgraph⟩ := projectGroundedRelates_represents input projection
      have hbound := projectGroundedRelates_bounded input projection
      have hfound := incrementalFrontier_ok hfrontier
      have hlt := hfound.frontier_lt hbound hold.accounted
      have hnear : Near (projectGroundedRelates input projection) frontier
          (state.touchedCommunities (projectGroundedRelates input projection) dirty frontier)
          state := near_touchedCommunities
      have hkept := applyProjectionDeltas_kept hfound.changedPairs_mem hlt
        ⟨within_start hnear, hold.accounted⟩
      refine ⟨B, hgraph, hbound, ⟨?_, rfl, ?_⟩, hkept.2, ?_⟩
      · apply applyProjectionDeltas_describes hgraph hold.current.describes hold.loopfree
        · intro pair hpair
          obtain ⟨hsrc, hdst⟩ := hfound.changedPairs_mem pair hpair
          exact ⟨hlt _ hsrc, hlt _ hdst⟩
        · intro i j hne
          rw [hfound.mem_dirty, hfound.mem_dirty]
          apply hchanged i j
          rwa [hold.represents.weightBetween, hgraph.weightBetween]
      · rw [hkept.1.membership_length]
        exact hfound.membership_length
      · have hpairs : Loopfree ((changedPairs (projectGroundedRelates input projection) state
            dirty).toList.foldl (patchPair (projectGroundedRelates input projection))
            ⟨state, ∅⟩).state := by
          refine List.foldlRecOn _ _
            (motive := fun (update : Update ℚ) => Loopfree update.state) hold.loopfree ?_
          intro update hupd pair hpair
          exact patchPair_loopfree _ hupd
            (changedPairs_ne hgraph hold.loopfree pair (ExtTreeSet.mem_toList.mp hpair))
        exact hpairs
  | @refined graph pass node epsilon hheld hnode ih =>
    obtain ⟨B, hold⟩ := ih
    have hlen := hold.current.membership_length
    refine ⟨B, hold.represents, hold.bounded,
      refineNode_current hold.represents hold.bounded hnode hold.current,
      refineNode_accounted hold.accounted ?_ ?_, ?_⟩
    · rw [hlen]
      exact hnode
    · intro neighbor hmem
      rw [hlen]
      exact hold.bounded.neighbor_lt node neighbor hmem
    · intro other neighbor hneighbor
      unfold neighborsOf at hneighbor
      rw [refineNode_adjacency] at hneighbor
      exact hold.loopfree other neighbor hneighbor

theorem Held.updated {graph : ProjectedGraph ℚ} {state : IncrementalPartitionState ℚ}
    {input : List ProjectionInputEdge} {projection : ProjectionConfig ℚ} {dirtyNodes : List Nat}
    {config : IncrementalConfig ℚ} {output : IncrementalOutput ℚ}
    {rollback : IncrementalPartitionRollback ℚ} (hheld : Held graph state)
    (hchanged : ∀ i j, graph.weightBetween i j ≠
      (projectGroundedRelates input projection).weightBetween i j → i ∈ dirtyNodes ∨ j ∈ dirtyNodes)
    (hupd : incrementalPartitionRecoverable (projectGroundedRelates input projection) state
      dirtyNodes config = .ok (output, rollback)) :
    Held (projectGroundedRelates input projection) output.state := by
  obtain ⟨A, hold⟩ := hheld.sound
  have hbound := projectGroundedRelates_bounded input projection
  unfold incrementalPartitionRecoverable at hupd
  split at hupd
  · cases hupd
  · rename_i dirty frontier hfrontier
    have hfound := incrementalFrontier_ok hfrontier
    dsimp only at hupd
    split at hupd
    · cases hupd
    · obtain ⟨houtp, -⟩ := Prod.ext_iff.mp (Except.ok.inj hupd)
      dsimp only at houtp
      rw [← houtp]
      refine updateFrontier_keeps (P := Held (projectGroundedRelates input projection)) config
        (.patched hheld hfrontier hchanged) ?_
      intro pass node hnode hpass
      apply Held.refined config.epsilon hpass
      rw [← hfound.membership_length]
      exact hfound.frontier_lt hbound hold.accounted node hnode

theorem Current.modularity_eq {graph : ProjectedGraph ℚ} {B : Nat → Nat → ℚ}
    {state : IncrementalPartitionState ℚ} (hgraph : Represents graph B)
    (h : Current graph B state) :
    state.partition.modularity = modularity graph state.partition.membership := by
  have hfresh := fresh_describes hgraph h.membership_length
  have hvol : ∀ c, state.communityDegrees.getD c 0 = (fresh graph
        state.partition.membership).communityDegrees.getD c 0 := by
    intro c
    rw [h.describes.volumes, hfresh.volumes]
    rfl
  have hsquar : state.sumCommunityDegreeSquares = (fresh graph
      state.partition.membership).sumCommunityDegreeSquares := by
    rw [h.describes.squares, hfresh.squares]
    exact entrySum_congr (fun _ => square_zero) hvol
  have htotal : state.totalEdgeWeight = graph.totalEdgeWeight := by
    have hleft := h.describes.total
    have hright : 2 * graph.totalEdgeWeight = total state.nodes B := hfresh.total
    linarith
  have hinter : state.totalInternalWeight = (fresh graph
      state.partition.membership).totalInternalWeight := by
    have hleft := h.describes.internal
    have hright : 2 * (fresh graph
        state.partition.membership).totalInternalWeight =
          internal state.nodes B state.communityOf := hfresh.internal
    linarith
  rw [← modularity_fresh hgraph h.membership_length, h.refreshed, htotal, hinter, hsquar]
  rfl

theorem moveNode_modularity {state : IncrementalPartitionState ℚ} {incident : ExtTreeMap Nat ℚ}
    {node candidate : Nat} (hrefr : Refreshed state) (hpositive : 0 < state.totalEdgeWeight)
    (hother : candidate ≠ state.communityOf node) :
    (moveNode state incident node candidate).partition.modularity =
      state.partition.modularity + moveGain state incident node candidate := by
  have hcand : ((state.communityDegrees.insert (state.communityOf node)
      (state.communityDegrees.getD (state.communityOf node) 0 +
        -state.weightedDegrees.getD node 0)).getD candidate 0) =
      state.communityDegrees.getD candidate 0 := by
    rw [getD_insert, if_neg hother.symm]
  have hmoved : (moveNode state incident node candidate).partition.modularity =
      modularityFromTotals state.totalEdgeWeight
        (state.totalInternalWeight + (incident.getD candidate 0 -
          incident.getD (state.communityOf node) 0))
        (state.sumCommunityDegreeSquares -
          square (state.communityDegrees.getD (state.communityOf node) 0) +
          square (state.communityDegrees.getD (state.communityOf node) 0 +
            -state.weightedDegrees.getD node 0) -
          square (state.communityDegrees.getD candidate 0) +
          square (state.communityDegrees.getD candidate 0 +
            state.weightedDegrees.getD node 0)) := by
    rw [← hcand]
    rfl
  have hnonz : state.totalEdgeWeight ≠ 0 := hpositive.ne'
  rw [hmoved, hrefr]
  unfold moveGain modularityMoveDelta modularityFromTotals square
  rw [if_neg hpositive.not_ge, if_neg hpositive.not_ge]
  field_simp
  ring

/-! ## Accepted moves -/

/-- A move that a pass makes, with the state before it and the gain computed there. -/
structure AcceptedMove where
  before : IncrementalPartitionState ℚ
  node : Nat
  candidate : Nat
  delta : ℚ

def AcceptedMove.after (graph : ProjectedGraph ℚ) (move : AcceptedMove) :
    IncrementalPartitionState ℚ :=
  moveNode move.before (incidentByCommunity graph move.before move.node) move.node move.candidate

def acceptedMove (graph : ProjectedGraph ℚ) (epsilon : ℚ) (state : IncrementalPartitionState ℚ)
    (node : Nat) : Option AcceptedMove :=
  (bestMove state epsilon (incidentByCommunity graph state node) node).map
    fun (candidate, delta) => ⟨state, node, candidate, delta⟩

def passMoves (graph : ProjectedGraph ℚ) (epsilon : ℚ) :
    List Nat → Update ℚ × Bool → List AcceptedMove
  | [], _ => []
  | node :: nodes, pass =>
    (acceptedMove graph epsilon pass.1.state node).toList ++
      passMoves graph epsilon nodes (refineNode graph epsilon pass node)

def refineMoves (graph : ProjectedGraph ℚ) (epsilon : ℚ) (nodes : List Nat) :
    Nat → Update ℚ → List AcceptedMove
  | 0, _ => []
  | passes + 1, update =>
    passMoves graph epsilon nodes (update, false) ++
      match nodes.foldl (refineNode graph epsilon) (update, false) with
      | (refined, true) => refineMoves graph epsilon nodes passes refined
      | (_, false) => []

structure Gained (graph : ProjectedGraph ℚ) (epsilon : ℚ) (frontier : List Nat)
    (start : IncrementalPartitionState ℚ) (moves : List AcceptedMove)
    (finish : IncrementalPartitionState ℚ) : Prop where
  each : ∀ move ∈ moves, move.node ∈ frontier ∧ epsilon < move.delta ∧
    modularity graph (move.after graph).partition.membership =
      modularity graph move.before.partition.membership + move.delta
  total : modularity graph finish.partition.membership =
    modularity graph start.partition.membership + (moves.map AcceptedMove.delta).sum
  kept : ∀ node, node ∉ frontier → finish.communityOf node = start.communityOf node

section Moves

variable {graph : ProjectedGraph ℚ} {epsilon : ℚ} {frontier : List Nat}
  {start middle finish : IncrementalPartitionState ℚ} {moves later : List AcceptedMove}

theorem Gained.none : Gained graph epsilon frontier start [] start where
  each := by simp
  total := by simp
  kept _ _ := rfl

theorem Gained.append (h : Gained graph epsilon frontier start moves middle)
    (h' : Gained graph epsilon frontier middle later finish) :
    Gained graph epsilon frontier start (moves ++ later) finish where
  each move hmove := by
    rcases List.mem_append.mp hmove with hfirst | hlater
    · exact h.each move hfirst
    · exact h'.each move hlater
  total := by
    rw [h'.total, h.total, List.map_append, List.sum_append, add_assoc]
  kept node hnode := (h'.kept node hnode).trans (h.kept node hnode)

theorem Gained.le (h : Gained graph epsilon frontier start moves finish) :
    modularity graph start.partition.membership + moves.length * epsilon ≤
      modularity graph finish.partition.membership := by
  have hsum : moves.length * epsilon ≤ (moves.map AcceptedMove.delta).sum := by
    have hcard := List.card_nsmul_le_sum (moves.map AcceptedMove.delta) epsilon ?_
    · rwa [List.length_map, nsmul_eq_mul] at hcard
    · intro delta hdelta
      obtain ⟨move, hmove, rfl⟩ := List.mem_map.mp hdelta
      exact (h.each move hmove).2.1.le
  rw [h.total]
  linarith

def Weighed (graph : ProjectedGraph ℚ) (state : IncrementalPartitionState ℚ) : Prop :=
  Held graph state ∧ 0 < state.totalEdgeWeight

theorem refineNode_state (graph : ProjectedGraph ℚ) (epsilon : ℚ) (pass : Update ℚ × Bool)
    (node : Nat) : (refineNode graph epsilon pass node).1.state =
      ((acceptedMove graph epsilon pass.1.state node).map (AcceptedMove.after graph)).getD
        pass.1.state := by
  unfold refineNode acceptedMove
  dsimp only
  cases bestMove pass.1.state epsilon (incidentByCommunity graph pass.1.state node) node with
  | none => rfl
  | some best => rfl

theorem refineNode_gained {pass : Update ℚ × Bool} {node : Nat}
    (hfrontier : ∀ node ∈ frontier, node < graph.nodeIds.length) (hnode : node ∈ frontier)
    (h : Weighed graph pass.1.state) : Gained graph epsilon frontier pass.1.state
        (acceptedMove graph epsilon pass.1.state node).toList
        (refineNode graph epsilon pass node).1.state ∧
      Weighed graph (refineNode graph epsilon pass node).1.state := by
  have hheld : Held graph (refineNode graph epsilon pass node).1.state :=
    .refined epsilon h.1 (hfrontier node hnode)
  rw [refineNode_state] at hheld ⊢
  cases hmove : acceptedMove graph epsilon pass.1.state node with
  | none => exact ⟨.none, h⟩
  | some move =>
    rw [hmove, Option.map_some, Option.getD_some] at hheld
    rw [Option.map_some, Option.getD_some, Option.toList_some]
    obtain ⟨⟨candidate, delta⟩, hbest, rfl⟩ := Option.map_eq_some_iff.mp hmove
    obtain ⟨-, hother, hdelta, hgain⟩ := bestMove_some hbest
    obtain ⟨B, hbef⟩ := h.1.sound
    obtain ⟨C, hafter⟩ := hheld.sound
    have hmod := @moveNode_modularity _ (incidentByCommunity graph pass.1.state node) _ _
      hbef.current.refreshed h.2 hother
    have hchang : modularity graph (AcceptedMove.after graph
          ⟨pass.1.state, node, candidate, delta⟩).partition.membership =
        modularity graph pass.1.state.partition.membership + delta := by
      rw [← hafter.current.modularity_eq hafter.represents,
        ← hbef.current.modularity_eq hbef.represents, hdelta]
      exact hmod
    refine ⟨⟨?_, ?_, ?_⟩, hheld, h.2⟩
    · intro move hmem
      rw [List.mem_singleton] at hmem
      subst hmem
      exact ⟨hnode, hgain, hchang⟩
    · rw [hchang, List.map_singleton, List.sum_singleton]
    · intro other houtside
      refine communityOf_set.trans (if_neg ?_)
      rintro ⟨rfl, -⟩
      exact houtside hnode

theorem passMoves_gained (hfrontier : ∀ node ∈ frontier, node < graph.nodeIds.length)
    {nodes : List Nat} (hnodes : nodes ⊆ frontier) {pass : Update ℚ × Bool}
    (h : Weighed graph pass.1.state) :
    Gained graph epsilon frontier pass.1.state (passMoves graph epsilon nodes pass)
        (nodes.foldl (refineNode graph epsilon) pass).1.state ∧
      Weighed graph (nodes.foldl (refineNode graph epsilon) pass).1.state := by
  induction nodes generalizing pass with
  | nil => exact ⟨.none, h⟩
  | cons node nodes ih =>
    rw [List.cons_subset] at hnodes
    obtain ⟨hfirst, hweigh⟩ := @refineNode_gained graph epsilon frontier _ _ hfrontier hnodes.1 h
    obtain ⟨hlater, hfinal⟩ := ih hnodes.2 hweigh
    exact ⟨hfirst.append hlater, hfinal⟩

theorem passMoves_length (graph : ProjectedGraph ℚ) (epsilon : ℚ) (nodes : List Nat)
    (pass : Update ℚ × Bool) : (passMoves graph epsilon nodes pass).length ≤ nodes.length := by
  induction nodes generalizing pass with
  | nil => exact Nat.le_refl 0
  | cons node nodes ih =>
    have hone : (acceptedMove graph epsilon pass.1.state node).toList.length ≤ 1 :=
      Option.length_toList_le
    have hlater := ih (refineNode graph epsilon pass node)
    rw [passMoves, List.length_append, List.length_cons]
    omega

theorem refineMoves_gained (hfrontier : ∀ node ∈ frontier, node < graph.nodeIds.length)
    (passes : Nat) {update : Update ℚ} (h : Weighed graph update.state) :
    Gained graph epsilon frontier update.state (refineMoves graph epsilon frontier passes update)
      (refine graph epsilon frontier passes update).state := by
  induction passes generalizing update with
  | zero => exact .none
  | succ passes ih =>
    have hpass : Weighed graph (update, false).1.state := h
    obtain ⟨hfirst, hweigh⟩ :=
      @passMoves_gained graph epsilon frontier hfrontier _ (List.Subset.refl frontier) _ hpass
    unfold refineMoves refine
    generalize frontier.foldl (refineNode graph epsilon) (update, false) = result
      at hfirst hweigh ⊢
    obtain ⟨refined, moved⟩ := result
    cases moved with
    | true => exact hfirst.append (ih hweigh)
    | false =>
      rw [List.append_nil]
      exact hfirst

theorem refineMoves_length (graph : ProjectedGraph ℚ) (epsilon : ℚ) (frontier : List Nat)
    (passes : Nat) (update : Update ℚ) :
    (refineMoves graph epsilon frontier passes update).length ≤ passes * frontier.length := by
  induction passes generalizing update with
  | zero => exact Nat.zero_le _
  | succ passes ih =>
    have hpass := passMoves_length graph epsilon frontier (update, false)
    rw [refineMoves, List.length_append, Nat.succ_mul]
    split
    · rename_i refined heq
      have hlater := ih refined
      omega
    · rw [List.length_nil]
      omega

end Moves

/-- Every accepted move changes modularity by the gain computed for it, which is above `epsilon`.
The passes add these gains up, make so many moves at most and leave the other nodes where they
are. -/
theorem refine_never_lowers {graph : ProjectedGraph ℚ} {state : IncrementalPartitionState ℚ}
    (hheld : Held graph state) (hpositive : 0 < state.totalEdgeWeight) {frontier : List Nat}
    (hfrontier : ∀ node ∈ frontier, node < graph.nodeIds.length) (epsilon : ℚ) (passes : Nat)
    (touched : ExtTreeSet Nat) : Gained graph epsilon frontier state
        (refineMoves graph epsilon frontier passes ⟨state, touched⟩)
        (refine graph epsilon frontier passes ⟨state, touched⟩).state ∧
      (0 ≤ epsilon → modularity graph state.partition.membership ≤ modularity graph
        (refine graph epsilon frontier passes ⟨state, touched⟩).state.partition.membership) ∧
      (refineMoves graph epsilon frontier passes ⟨state, touched⟩).length ≤
        passes * frontier.length := by
  have hweigh : Weighed graph (Update.mk state touched).state := ⟨hheld, hpositive⟩
  have hgaine := @refineMoves_gained graph epsilon frontier hfrontier passes _ hweigh
  refine ⟨hgaine, ?_, refineMoves_length _ _ _ _ _⟩
  intro heps
  have hmoves : 0 ≤ ((refineMoves graph epsilon frontier passes ⟨state, touched⟩).length : ℚ) *
      epsilon := mul_nonneg (Nat.cast_nonneg _) heps
  exact (le_add_of_nonneg_right hmoves).trans hgaine.le

def triangleGraph : ProjectedGraph ℚ := projectGroundedRelates triangleInput .default

/-- The third node joins the other two of the triangle, and the community it leaves is empty. -/
theorem refine_never_lowers_triangle : (refineMoves triangleGraph (1 / 1000) [2, 4] 100
        ⟨.fresh triangleGraph [0, 0, 1, 2, 2], ∅⟩).map
          (fun move => (move.node, move.candidate, move.delta)) = [(2, 2, 4 / 25)] ∧
      modularity triangleGraph [0, 0, 1, 2, 2] ≤ modularity triangleGraph
        (refine triangleGraph (1 / 1000) [2, 4] 100
          ⟨.fresh triangleGraph [0, 0, 1, 2, 2], ∅⟩).state.partition.membership := by
  have hnew : new triangleGraph [0, 0, 1, 2, 2] =
      .ok (.fresh triangleGraph [0, 0, 1, 2, 2]) := if_neg (by decide +kernel)
  have hheld : Held triangleGraph (.fresh triangleGraph [0, 0, 1, 2, 2]) := .fresh hnew
  have hpositive : 0 < (fresh triangleGraph
      [0, 0, 1, 2, 2]).totalEdgeWeight := by decide +kernel
  have hfrontier : ∀ node ∈ [2, 4], node < triangleGraph.nodeIds.length := by decide +kernel
  have hmoves := refine_never_lowers hheld hpositive hfrontier (1 / 1000) 100 ∅
  exact ⟨by decide +kernel, hmoves.2.1 (by norm_num)⟩

end Wenlan.Community
