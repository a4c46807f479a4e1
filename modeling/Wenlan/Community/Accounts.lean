import Wenlan.Community.Rollback

/-!
# States keep their accounts

A projected graph is bounded by its nodes, a state computed from it has every community on
record, and an update keeps it so.
-/

namespace Wenlan.Community

open Std IncrementalPartitionState List

set_option linter.unusedSectionVars false

variable {W : Type} [Weight W] [DecidableLT W] [DecidableLE W]

/-! ## Projected graphs -/

def EdgesWithin (nodeCount : Nat) (edges : List (ProjectedEdge W)) : Prop :=
  ∀ edge ∈ edges, edge.src < nodeCount ∧ edge.dst < nodeCount

theorem linkedEdges_length (edges : List (ProjectedEdge W)) (adjacency : List (List (Nat × W))) :
    (edges.foldl linkEdge adjacency).length = adjacency.length := by
  refine foldlRecOn edges linkEdge
    (motive := fun (linked : List (List (Nat × W))) => linked.length = adjacency.length) rfl ?_
  intro linked hlen edge _
  unfold linkEdge
  rw [length_modify, length_modify, hlen]

theorem weighedEdges_length (edges : List (ProjectedEdge W)) (degrees : List W) :
    (edges.foldl weighEdge degrees).length = degrees.length := by
  refine foldlRecOn edges weighEdge
    (motive := fun (weighed : List W) => weighed.length = degrees.length) rfl ?_
  intro weighed hlen edge _
  unfold weighEdge
  rw [length_modify, length_modify, hlen]

def EntriesWithin (nodeCount : Nat) (adjacency : List (List (Nat × W))) : Prop :=
  ∀ node, ∀ entry ∈ adjacency.getD node [], entry.1 < nodeCount

theorem EntriesWithin.append {nodeCount : Nat} {adjacency : List (List (Nat × W))}
    (h : EntriesWithin nodeCount adjacency) (node : Nat) (entry : Nat × W)
    (hentry : entry.1 < nodeCount) :
    EntriesWithin nodeCount (adjacency.modify node (· ++ [entry])) := by
  intro other found hfound
  have hother := h other
  rw [getD_eq_getElem?_getD] at hfound hother
  by_cases hne : node = other
  · subst hne
    rw [getElem?_modify_eq] at hfound
    cases hlist : adjacency[node]? with
    | none =>
      rw [hlist] at hfound
      simp at hfound
    | some entries =>
      rw [hlist] at hfound hother
      rcases mem_append.mp hfound with hold | hnew
      · exact hother found hold
      · rw [mem_singleton.mp hnew]
        exact hentry
  · rw [getElem?_modify_ne _ _ hne] at hfound
    exact hother found hfound

theorem ofEdges_bounded {nodeIds : List String} {edges : List (ProjectedEdge W)}
    (hedges : EdgesWithin nodeIds.length edges) :
    Bounded (ProjectedGraph.ofEdges nodeIds edges) := by
  have hents : EntriesWithin nodeIds.length
      (edges.foldl linkEdge (replicate nodeIds.length [])) := by
    refine foldlRecOn edges linkEdge
      (motive := fun (linked : List (List (Nat × W))) => EntriesWithin nodeIds.length linked)
      ?_ ?_
    · intro node entry hentry
      rw [getD_eq_getElem?_getD, getElem?_getD_replicate_default_eq] at hentry
      simp at hentry
    · intro linked hlink edge hedge
      obtain ⟨hsrc, hdst⟩ := hedges edge hedge
      exact (hlink.append edge.src (edge.dst, edge.weight) hdst).append edge.dst
        (edge.src, edge.weight) hsrc
  refine ⟨?_, ?_, ?_⟩
  · unfold ProjectedGraph.ofEdges
    rw [length_map, linkedEdges_length, length_replicate]
  · unfold ProjectedGraph.ofEdges
    rw [weighedEdges_length, length_replicate]
  · intro node neighbor hneighbor
    obtain ⟨entry, hentry, rfl⟩ := mem_map.mp hneighbor
    have hbound := hents node
    unfold ProjectedGraph.ofEdges at hentry ⊢
    dsimp only at hentry ⊢
    rw [getD_eq_getElem?_getD, getElem?_map] at hentry
    rw [getD_eq_getElem?_getD] at hbound
    cases hfound : (edges.foldl linkEdge (replicate nodeIds.length []))[node]? with
    | none =>
      rw [hfound] at hentry
      simp at hentry
    | some entries =>
      rw [hfound] at hentry hbound
      exact hbound entry ((mem_insertionSort _).mp hentry)

section

variable (input : List ProjectionInputEdge) (config : ProjectionConfig W)

/-- Both ends of a folded pair are among the node ids. -/
theorem foldedInput_nodes :
    ∀ pair ∈ (foldedInput input config).2,
      pair.1 ∈ (foldedInput input config).1 ∧ pair.2 ∈ (foldedInput input config).1 := by
  refine foldlRecOn _ (foldInputEdge config)
    (motive := fun (folded : ExtTreeSet String × FoldedWeights W) =>
      ∀ pair ∈ folded.2, pair.1 ∈ folded.1 ∧ pair.2 ∈ folded.1) ?_ ?_
  · intro pair hpair
    simp at hpair
  · intro folded hfolde edge _ pair hpair
    unfold foldInputEdge at hpair ⊢
    split at hpair
    · rename_i hloop
      rw [if_pos hloop]
      exact hfolde pair hpair
    · rename_i hloop
      rw [if_neg hloop]
      have hkept : ∀ id ∈ folded.1, id ∈ (folded.1.insert edge.srcId).insert edge.dstId :=
        fun id hid => ExtTreeSet.mem_insert.mpr (.inr (ExtTreeSet.mem_insert.mpr (.inr hid)))
      have hsrc : edge.srcId ∈ (folded.1.insert edge.srcId).insert edge.dstId :=
        ExtTreeSet.mem_insert.mpr (.inr ExtTreeSet.mem_insert_self)
      have hdst : edge.dstId ∈ (folded.1.insert edge.srcId).insert edge.dstId :=
        ExtTreeSet.mem_insert_self
      rw [ExtTreeMap.mem_insert, LawfulEqCmp.compare_eq_iff_eq] at hpair
      rcases hpair with rfl | hpair
      · split
        · exact ⟨hsrc, hdst⟩
        · exact ⟨hdst, hsrc⟩
      · exact ⟨hkept _ (hfolde pair hpair).1, hkept _ (hfolde pair hpair).2⟩

theorem projectGroundedRelates_bounded : Bounded (projectGroundedRelates input config) := by
  refine ofEdges_bounded ?_
  intro edge hedge
  obtain ⟨⟨pair, weight⟩, hpair, rfl⟩ := mem_map.mp hedge
  have hmem : pair ∈ (foldedInput input config).2 := by
    rw [ExtTreeMap.mem_iff_isSome_getElem?, ExtTreeMap.mem_toList_iff_getElem?_eq_some.mp hpair]
    rfl
  obtain ⟨hsrc, hdst⟩ := foldedInput_nodes input config pair hmem
  exact ⟨idxOf_lt_length_iff.mpr (ExtTreeSet.mem_toList.mpr hsrc),
    idxOf_lt_length_iff.mpr (ExtTreeSet.mem_toList.mpr hdst)⟩

end

variable {membership : List Nat}

theorem new_ok {graph : ProjectedGraph W} {state : IncrementalPartitionState W}
    (h : new graph membership = .ok state) :
    membership.length = graph.nodeIds.length ∧
      state = fresh graph membership := by
  unfold new at h
  split at h
  · cases h
  · rename_i hlen
    exact ⟨not_not.mp hlen, (Except.ok.inj h).symm⟩

variable {community : Nat}

theorem mem_communityDegreesOf {degrees : List W} :
    community ∈ communityDegreesOf degrees membership ↔ community ∈ membership := by
  have hfold : ∀ (entries : List (Nat × Nat)) (map : ExtTreeMap Nat W),
      community ∈ entries.foldl (fun degreeOf entry =>
        addAt degreeOf entry.1 (degrees.getD entry.2 0)) map ↔
      community ∈ entries.map Prod.fst ∨ community ∈ map := by
    intro entries
    induction entries with
    | nil => simp
    | cons entry entries ih =>
      intro map
      rw [foldl_cons, ih, mem_addAt, map_cons, mem_cons]
      constructor
      · rintro (hlater | rfl | hmap)
        · exact .inl (.inr hlater)
        · exact .inl (.inl rfl)
        · exact .inr hmap
      · rintro ((rfl | hlater) | hmap)
        · exact .inr (.inl rfl)
        · exact .inl hlater
        · exact .inr (.inr hmap)
  refine (hfold membership.zipIdx ∅).trans ?_
  rw [zipIdx_map_fst]
  simp

theorem le_foldl_max {values : List Nat} {start value : Nat} (h : value ∈ values) :
    value ≤ values.foldl max start := by
  induction values generalizing start with
  | nil => simp at h
  | cons head values ih =>
    rw [foldl_cons]
    rcases mem_cons.mp h with rfl | hmem
    · have hstart : max start value ≤ values.foldl max (max start value) := by
        refine foldlRecOn values max
          (motive := fun (bound : Nat) => max start value ≤ bound) (Nat.le_refl _) ?_
        intro bound hbound other _
        omega
      omega
    · exact ih hmem

theorem mem_insertAll {entries : List (Nat × W)} {key : Nat} :
    key ∈ entries.foldl (fun (known : ExtTreeMap Nat W) (neighbor, weight) =>
      known.insert neighbor weight) ∅ ↔ key ∈ entries.map Prod.fst := by
  have hfold : ∀ (map : ExtTreeMap Nat W),
      key ∈ entries.foldl (fun (known : ExtTreeMap Nat W) (neighbor, weight) =>
        known.insert neighbor weight) map ↔ key ∈ entries.map Prod.fst ∨ key ∈ map := by
    induction entries with
    | nil => simp
    | cons entry entries ih =>
      intro map
      rw [foldl_cons, ih, ExtTreeMap.mem_insert, Nat.compare_eq_eq, map_cons,
        mem_cons]
      constructor
      · rintro (hlater | rfl | hmap)
        · exact .inl (.inr hlater)
        · exact .inl (.inl rfl)
        · exact .inr hmap
      · rintro ((rfl | hlater) | hmap)
        · exact .inr (.inl rfl)
        · exact .inl hlater
        · exact .inr (.inr hmap)
  rw [hfold]
  simp

variable {node : Nat}

theorem neighborsOf_fresh {graph : ProjectedGraph W} {neighbor : Nat} :
    neighbor ∈ (fresh graph membership).neighborsOf node ↔
      neighbor ∈ graph.neighborsOf node := by
  unfold neighborsOf fresh
    ProjectedGraph.neighborsOf
  rw [ExtTreeMap.mem_keys, getD_eq_getElem?_getD, getD_eq_getElem?_getD,
    getElem?_map]
  cases graph.adjacency[node]? with
  | none => simp
  | some entries => exact mem_insertAll

theorem fresh_accounted {graph : ProjectedGraph W} (hgraph : Bounded graph)
    (hlen : membership.length = graph.nodeIds.length) :
    Accounted (fresh graph membership) where
  adjacency_length := by
    unfold fresh
    rw [length_map, hgraph.adjacency_length, hlen]
  degrees_length := hgraph.degrees_length.trans hlen.symm
  recorded _ hmem := mem_communityDegreesOf.mpr hmem
  below_next _ hmem := Nat.lt_succ_of_le (le_foldl_max (mem_communityDegreesOf.mp hmem))
  neighbor_lt node neighbor hneighbor :=
    Nat.lt_of_lt_of_eq (hgraph.neighbor_lt node neighbor (neighborsOf_fresh.mp hneighbor))
      hlen.symm

/-! ## Updates -/

section Updates

variable {graph : ProjectedGraph W} {state : IncrementalPartitionState W}

theorem neighbor_of_setNeighborWeight {adjacency : List (ExtTreeMap Nat W)}
    {neighbor other found : Nat} {weight : W}
    (h : found ∈ ((setNeighborWeight adjacency node neighbor weight).getD other ∅).keys) :
    (other = node ∧ found = neighbor) ∨ found ∈ (adjacency.getD other ∅).keys := by
  unfold setNeighborWeight at h
  rw [ExtTreeMap.mem_keys, getD_eq_getElem?_getD] at h
  rw [ExtTreeMap.mem_keys, getD_eq_getElem?_getD]
  by_cases hne : node = other
  · subst hne
    rw [getElem?_modify_eq] at h
    cases hknown : adjacency[node]? with
    | none =>
      rw [hknown] at h
      simp at h
    | some known =>
      rw [hknown] at h
      simp only [Option.map_eq_map, Option.map_some, Option.getD_some] at h ⊢
      split at h
      · exact .inr (ExtTreeMap.mem_of_mem_erase h)
      · rw [ExtTreeMap.mem_insert, Nat.compare_eq_eq] at h
        exact h.imp_left fun hsame => ⟨trivial, hsame.symm⟩
  · rw [getElem?_modify_ne _ _ hne] at h
    exact .inr h

theorem adjustCommunityDegree_mem {other : Nat} {delta : W} :
    other ∈ (state.adjustCommunityDegree community delta).communityDegrees ↔
      community = other ∨ other ∈ state.communityDegrees := by
  unfold adjustCommunityDegree
  rw [ExtTreeMap.mem_insert, Nat.compare_eq_eq]

theorem Accounted.adjustCommunityDegree (h : Accounted state)
    (hrec : community ∈ state.communityDegrees) (delta : W) :
    Accounted (state.adjustCommunityDegree community delta) := by
  have hsame : ∀ other, other ∈ (state.adjustCommunityDegree community delta).communityDegrees ↔
        other ∈ state.communityDegrees := by
    intro other
    rw [adjustCommunityDegree_mem, or_iff_right_of_imp]
    rintro rfl
    exact hrec
  exact { h with
    recorded := fun other hmem => (hsame other).mpr (h.recorded other hmem)
    below_next := fun other hmem => h.below_next other ((hsame other).mp hmem) }

theorem patchPair_accounted {update : Update W} {pair : Nat × Nat} (h : Accounted update.state)
    (hsrc : pair.1 < update.state.partition.membership.length)
    (hdst : pair.2 < update.state.partition.membership.length) :
    Accounted (patchPair graph update pair).state := by
  obtain ⟨src, dst⟩ := pair
  unfold patchPair
  dsimp only at hsrc hdst ⊢
  split
  · exact h
  · have hweigh : Accounted { update.state with
        weightedDegrees := (update.state.weightedDegrees.modify src
          (· + (graph.weightBetween src dst -
            (update.state.adjacency.getD src ∅).getD dst 0))).modify dst
          (· + (graph.weightBetween src dst -
            (update.state.adjacency.getD src ∅).getD dst 0)) } := by
      refine { h with degrees_length := ?_ }
      rw [length_modify, length_modify]
      exact h.degrees_length
    have hadj := (hweigh.adjustCommunityDegree (h.communityOf_recorded hsrc)
      (graph.weightBetween src dst -
        (update.state.adjacency.getD src ∅).getD dst 0)).adjustCommunityDegree
      (adjustCommunityDegree_mem.mpr (.inr (h.communityOf_recorded hdst)))
      (graph.weightBetween src dst - (update.state.adjacency.getD src ∅).getD dst 0)
    refine { hadj with adjacency_length := ?_, neighbor_lt := ?_ }
    · unfold setNeighborWeight
      rw [length_modify, length_modify]
      exact h.adjacency_length
    · intro node neighbor hneighbor
      rcases neighbor_of_setNeighborWeight hneighbor with ⟨-, rfl⟩ | hneighbor
      · exact hsrc
      · rcases neighbor_of_setNeighborWeight hneighbor with ⟨-, rfl⟩ | hneighbor
        · exact hdst
        · exact h.neighbor_lt node neighbor hneighbor

theorem moveNode_accounted (h : Accounted state) {incident : ExtTreeMap Nat W}
    {candidate : Nat} (hnode : node < state.partition.membership.length)
    (hcand : candidate ∈ state.communityDegrees ∨ candidate = state.nextCommunity) :
    Accounted (moveNode state incident node candidate) := by
  have hmem : ∀ other, other ∈ (moveNode state incident node candidate).communityDegrees ↔
      other = candidate ∨ other ∈ state.communityDegrees := by
    intro other
    refine adjustCommunityDegree_mem.trans ?_
    rw [adjustCommunityDegree_mem]
    constructor
    · rintro (rfl | rfl | hold)
      · exact .inl rfl
      · exact .inr (h.communityOf_recorded hnode)
      · exact .inr hold
    · rintro (rfl | hold)
      · exact .inl rfl
      · exact .inr (.inr hold)
  have hlen : (moveNode state incident node candidate).partition.membership.length =
      state.partition.membership.length := length_set
  refine ⟨?_, ?_, ?_, ?_, ?_⟩
  · rw [hlen]
    exact h.adjacency_length
  · rw [hlen]
    exact h.degrees_length
  · intro community hcommunity
    rw [hmem]
    rcases mem_or_eq_of_mem_set hcommunity with hold | rfl
    · exact .inr (h.recorded community hold)
    · exact .inl rfl
  · intro community hcommunity
    have hnext : (moveNode state incident node candidate).nextCommunity =
        if candidate = state.nextCommunity then state.nextCommunity + 1
        else state.nextCommunity := rfl
    rw [hnext]
    rcases (hmem community).mp hcommunity with rfl | hold
    · rcases hcand with hrec | rfl
      · have hbelow := h.below_next _ hrec
        split <;> omega
      · rw [if_pos rfl]
        omega
    · have hbelow := h.below_next _ hold
      split <;> omega
  · intro other neighbor hneighbor
    rw [hlen]
    exact h.neighbor_lt other neighbor hneighbor

variable {pass : Update W × Bool} {epsilon : W}

theorem refineNode_accounted
    (h : Accounted pass.1.state) (hnode : node < pass.1.state.partition.membership.length)
    (hneighbor : ∀ neighbor ∈ graph.neighborsOf node,
      neighbor < pass.1.state.partition.membership.length) :
    Accounted (refineNode graph epsilon pass node).1.state := by
  unfold refineNode
  dsimp only
  split
  · exact h
  · rename_i candidate gain hbest
    refine moveNode_accounted h hnode ?_
    rcases mem_incidentByCommunity (bestMove_some hbest).1 with rfl | ⟨neighbor, hmem, rfl⟩
    · exact .inr rfl
    · exact .inl (h.communityOf_recorded (hneighbor neighbor hmem))

/-- Kept along an update: the state stays within the frontier, with its accounts in order. -/
def Kept (frontier near : ExtTreeSet Nat) (start state : IncrementalPartitionState W) : Prop :=
  Within frontier near start state ∧ Accounted state

variable {start : IncrementalPartitionState W} {dirty frontier near : ExtTreeSet Nat}

theorem refineNode_kept
    (hnear : Near graph frontier near start) (hnode : node ∈ frontier)
    (hfront : ∀ node ∈ frontier, node < start.partition.membership.length)
    (hneighbor : ∀ node, ∀ neighbor ∈ graph.neighborsOf node,
      neighbor < start.partition.membership.length) (h : Kept frontier near start pass.1.state) :
    Kept frontier near start (refineNode graph epsilon pass node).1.state := by
  have hlen := h.1.membership_length
  refine ⟨refineNode_within hnear hnode h.1, refineNode_accounted h.2 ?_ ?_⟩
  · rw [hlen]
    exact hfront node hnode
  · intro neighbor hmem
    rw [hlen]
    exact hneighbor node neighbor hmem

theorem applyProjectionDeltas_kept
    (hpairs : ∀ pair ∈ changedPairs graph start dirty, pair.1 ∈ frontier ∧ pair.2 ∈ frontier)
    (hfront : ∀ node ∈ frontier, node < start.partition.membership.length)
    (h : Kept frontier near start start) :
    Kept frontier near start (applyProjectionDeltas graph start dirty).state := by
  have hpatch : Kept frontier near start
      ((changedPairs graph start dirty).toList.foldl (patchPair graph) ⟨start, ∅⟩).state := by
    refine foldlRecOn _ _
      (motive := fun (update : Update W) => Kept frontier near start update.state) h ?_
    intro update hupdate pair hpair
    have hboth := hpairs pair (ExtTreeSet.mem_toList.mp hpair)
    have hlen := hupdate.1.membership_length
    refine ⟨patchPair_within hupdate.1 hboth.1 hboth.2, patchPair_accounted hupdate.2 ?_ ?_⟩
    · rw [hlen]
      exact hfront _ hboth.1
    · rw [hlen]
      exact hfront _ hboth.2
  exact ⟨hpatch.1.refreshModularity, { hpatch.2 with }⟩

section

variable {dirtyNodes : List Nat} (config : IncrementalConfig W) (hgraph : Bounded graph)
  (hstart : Accounted start) (h : FrontierOf graph start dirtyNodes dirty frontier)
include hgraph hstart h

/-- The state an update works on: the start changed within the frontier, accounts in order. -/
theorem updateFrontier_kept : Kept frontier (start.touchedCommunities graph dirty frontier) start
      (updateFrontier graph start dirty frontier config).state := by
  have hnear : Near graph frontier (start.touchedCommunities graph dirty frontier) start :=
    near_touchedCommunities
  have hfront := h.frontier_lt hgraph hstart
  have hneighbor : ∀ node, ∀ neighbor ∈ graph.neighborsOf node,
      neighbor < start.partition.membership.length := by
    intro node neighbor hmem
    rw [h.membership_length]
    exact hgraph.neighbor_lt node neighbor hmem
  have hpatch := applyProjectionDeltas_kept h.changedPairs_mem hfront
    ⟨within_start hnear, hstart⟩
  exact updateFrontier_keeps config hpatch fun pass node hnode hpass =>
    refineNode_kept hnear hnode hfront hneighbor hpass

theorem updateFrontier_undone : (updateFrontier graph start dirty frontier config).state.restore
      (start.rollbackSnapshot graph dirty frontier) = start := by
  have hfront := h.frontier_lt hgraph hstart
  refine restore_rollbackSnapshot hstart (touched_recorded hstart ?_ hfront ?_) hfront
    (updateFrontier_kept config hgraph hstart h).1
  · intro node neighbor hmem
    rw [h.membership_length]
    exact hgraph.neighbor_lt node neighbor hmem
  · intro node hnode
    rw [h.membership_length]
    exact h.dirty_lt node hnode

end

/-- A rejected update gives the state back as it was. -/
theorem incrementalPartitionRecoverable_error {dirtyNodes : List Nat}
    {config : IncrementalConfig W} {error : IncrementalPartitionError W}
    (hgraph : Bounded graph) (hstart : Accounted start)
    (h : incrementalPartitionRecoverable graph start dirtyNodes config =
      .error (error, state)) : state = start := by
  unfold incrementalPartitionRecoverable at h
  split at h
  · exact (Prod.ext_iff.mp (Except.error.inj h)).2.symm
  · rename_i dirty frontier hfront
    dsimp only at h
    split at h
    · rw [updateFrontier_undone config hgraph hstart (incrementalFrontier_ok hfront)] at h
      exact (Prod.ext_iff.mp (Except.error.inj h)).2.symm
    · cases h

/-- An accepted update: what was computed, from which frontier, and what undoes it. -/
theorem incrementalPartitionRecoverable_ok {dirtyNodes : List Nat}
    {config : IncrementalConfig W} {output : IncrementalOutput W}
    {rollback : IncrementalPartitionRollback W}
    (h : incrementalPartitionRecoverable graph start dirtyNodes config =
      .ok (output, rollback)) : ∃ dirty frontier, FrontierOf graph start dirtyNodes dirty frontier ∧
      output.state = (updateFrontier graph start dirty frontier config).state ∧
      rollback = start.rollbackSnapshot graph dirty frontier := by
  unfold incrementalPartitionRecoverable at h
  split at h
  · cases h
  · rename_i dirty frontier hfront
    dsimp only at h
    split at h
    · cases h
    · obtain ⟨houtp, hrollb⟩ := Prod.ext_iff.mp (Except.ok.inj h)
      exact ⟨dirty, frontier, incrementalFrontier_ok hfront,
        congrArg IncrementalOutput.state houtp.symm, hrollb.symm⟩

end Updates

end Wenlan.Community
