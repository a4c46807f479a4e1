import Wenlan.Community.Incremental

/-!
# Undoing an update

An update changes the frontier's entries and the degrees of the communities near it, and
what the snapshot saved is enough to write all of it back.
-/

namespace Wenlan.Community

open Std IncrementalPartitionState List

set_option linter.unusedSectionVars false

variable {α : Type}

theorem mem_gather [BEq α] [LawfulBEq α] {cmp : α → α → Ordering} [TransCmp cmp]
    [LawfulEqCmp cmp] {start : ExtTreeSet α cmp} {nodes : ExtTreeSet Nat}
    {found : Nat → List α} {value : α} : value ∈ gather start nodes found ↔
      value ∈ start ∨ ∃ node ∈ nodes, value ∈ found node := by
  have hfold : ∀ (list : List Nat) (set : ExtTreeSet α cmp),
      value ∈ list.foldl (fun set node => set.insertMany (found node)) set ↔
        value ∈ set ∨ ∃ node ∈ list, value ∈ found node := by
    intro list
    induction list with
    | nil => simp
    | cons node list ih =>
      intro set
      rw [foldl_cons, ih, ExtTreeSet.mem_insertMany_list, contains_iff_mem]
      simp [exists_eq_or_imp, or_assoc]
  unfold gather
  rw [hfold]
  simp only [ExtTreeSet.mem_toList]

variable {original : List α}

theorem writeBack_eq {values : List α} {saved : List (Nat × α)}
    (hlen : values.length = original.length)
    (hsaved : ∀ entry ∈ saved, original[entry.1]? = some entry.2)
    (hkept : ∀ i, (∀ entry ∈ saved, entry.1 ≠ i) → values[i]? = original[i]?) :
    writeBack values saved = original := by
  unfold writeBack
  induction saved generalizing values with
  | nil => exact ext_getElem? fun i => hkept i (by simp)
  | cons entry saved ih =>
    obtain ⟨index, value⟩ := entry
    rw [forall_mem_cons] at hsaved
    rw [foldl_cons]
    refine ih ?_ hsaved.2 ?_
    · rw [length_set, hlen]
    · intro i hother
      by_cases hi : index = i
      · subst hi
        have hvalue := hsaved.1
        have hlt : index < values.length := by
          rw [hlen]
          exact (List.getElem?_eq_some_iff.mp hvalue).1
        rw [getElem?_set_self hlt, hvalue]
      · rw [getElem?_set_ne hi]
        refine hkept i ?_
        rw [forall_mem_cons]
        exact ⟨hi, hother⟩

section Inserts

variable {V : Type} {saved : List (Nat × V)} {key : Nat}

theorem getElem?_inserts_of_notMem (hkey : ∀ entry ∈ saved, entry.1 ≠ key)
    (map : ExtTreeMap Nat V) :
    (saved.foldl (fun map (key, value) => map.insert key value) map)[key]? = map[key]? := by
  induction saved generalizing map with
  | nil => rfl
  | cons entry saved ih =>
    rw [forall_mem_cons] at hkey
    have hne : ¬ compare entry.1 key = .eq := by
      rw [Nat.compare_eq_eq]
      exact hkey.1
    rw [foldl_cons, ih hkey.2, ExtTreeMap.getElem?_insert, if_neg hne]

theorem getElem?_inserts_of_mem (original : Nat → Option V)
    (hsaved : ∀ entry ∈ saved, original entry.1 = some entry.2)
    (hkey : ∃ entry ∈ saved, entry.1 = key) (map : ExtTreeMap Nat V) :
    (saved.foldl (fun map (key, value) => map.insert key value) map)[key]? = original key := by
  induction saved generalizing map with
  | nil => simp at hkey
  | cons entry saved ih =>
    rw [forall_mem_cons] at hsaved
    rw [foldl_cons]
    by_cases hlater : ∃ entry ∈ saved, entry.1 = key
    · exact ih hsaved.2 hlater _
    · have hnone : ∀ entry ∈ saved, entry.1 ≠ key := by
        intro other hmem heq
        exact hlater ⟨other, hmem, heq⟩
      obtain ⟨other, hmem, rfl⟩ := hkey
      rcases mem_cons.mp hmem with rfl | hmem
      · rw [getElem?_inserts_of_notMem hnone, ExtTreeMap.getElem?_insert, if_pos compare_self]
        exact hsaved.1.symm
      · exact absurd rfl (hnone other hmem)

end Inserts

variable {W : Type} [Weight W] [DecidableLT W] [DecidableLE W]

/-- Every node has its entries, and neighbours are nodes. -/
structure Bounded (graph : ProjectedGraph W) : Prop where
  adjacency_length : graph.adjacency.length = graph.nodeIds.length
  degrees_length : graph.weightedDegrees.length = graph.nodeIds.length
  neighbor_lt : ∀ node, ∀ neighbor ∈ graph.neighborsOf node, neighbor < graph.nodeIds.length

/-- Every community with a member has its degree on record, under a number below the next
free one, and neighbours are nodes. -/
structure Accounted (state : IncrementalPartitionState W) : Prop where
  adjacency_length : state.adjacency.length = state.partition.membership.length
  degrees_length : state.weightedDegrees.length = state.partition.membership.length
  recorded : ∀ community ∈ state.partition.membership, community ∈ state.communityDegrees
  below_next : ∀ community ∈ state.communityDegrees, community < state.nextCommunity
  neighbor_lt : ∀ node, ∀ neighbor ∈ state.neighborsOf node,
    neighbor < state.partition.membership.length

variable {node : Nat}

theorem communityOf_mem {state : IncrementalPartitionState W}
    (hnode : node < state.partition.membership.length) :
    state.communityOf node ∈ state.partition.membership := by
  unfold communityOf
  rw [getD_eq_getElem _ _ hnode]
  exact getElem_mem hnode

theorem Accounted.communityOf_recorded {state : IncrementalPartitionState W}
    (h : Accounted state) (hnode : node < state.partition.membership.length) :
    state.communityOf node ∈ state.communityDegrees :=
  h.recorded _ (communityOf_mem hnode)

/-- `state` differs from `start` only at the frontier, and in communities that are near it or
new. -/
structure Within (frontier near : ExtTreeSet Nat) (start state : IncrementalPartitionState W) :
    Prop where
  membership_length : state.partition.membership.length = start.partition.membership.length
  adjacency_length : state.adjacency.length = start.adjacency.length
  degrees_length : state.weightedDegrees.length = start.weightedDegrees.length
  fingerprint : state.nodeOrderFingerprint = start.nodeOrderFingerprint
  membership_kept : ∀ node, node ∉ frontier →
    state.partition.membership[node]? = start.partition.membership[node]?
  adjacency_kept : ∀ node, node ∉ frontier → state.adjacency[node]? = start.adjacency[node]?
  degrees_kept : ∀ node, node ∉ frontier →
    state.weightedDegrees[node]? = start.weightedDegrees[node]?
  community_kept : ∀ community, community < start.nextCommunity → community ∉ near →
    state.communityDegrees[community]? = start.communityDegrees[community]?
  community_near : ∀ node ∈ frontier,
    state.communityOf node ∈ near ∨ start.nextCommunity ≤ state.communityOf node
  next_le : start.nextCommunity ≤ state.nextCommunity

variable {community : Nat}

namespace Within

variable {frontier near : ExtTreeSet Nat} {start state : IncrementalPartitionState W}

section

variable (h : Within frontier near start state)
include h

theorem communityOf_kept
    (hnode : node ∉ frontier) : state.communityOf node = start.communityOf node := by
  unfold communityOf
  rw [getD_eq_getElem?_getD, getD_eq_getElem?_getD, h.membership_kept node hnode]

theorem community_of_neighbor {neighbor : Nat} (hneigh : start.communityOf neighbor ∈ near) :
    state.communityOf neighbor ∈ near ∨ start.nextCommunity ≤ state.communityOf neighbor := by
  by_cases hfront : neighbor ∈ frontier
  · exact h.community_near neighbor hfront
  · rw [h.communityOf_kept hfront]
    exact .inl hneigh

theorem adjustCommunityDegree
    (hnear : community ∈ near ∨ start.nextCommunity ≤ community) (delta : W) :
    Within frontier near start (state.adjustCommunityDegree community delta) := by
  refine { h with community_kept := ?_ }
  intro other hbelow hfar
  have hne : ¬ compare community other = .eq := by
    rw [Nat.compare_eq_eq]
    rintro rfl
    rcases hnear with hmem | hnew
    · exact hfar hmem
    · omega
  unfold IncrementalPartitionState.adjustCommunityDegree
  rw [ExtTreeMap.getElem?_insert, if_neg hne]
  exact h.community_kept other hbelow hfar

theorem refreshModularity : Within frontier near start state.refreshModularity :=
  { h with }

end

end Within

/-! ## One step -/

section Steps

variable {graph : ProjectedGraph W} {dirty frontier near : ExtTreeSet Nat}
  {start : IncrementalPartitionState W}

theorem ne_of_notMem {other : Nat} (hnode : node ∈ frontier) (hother : other ∉ frontier) :
    node ≠ other := by
  rintro rfl
  exact hother hnode

theorem patchPair_within {update : Update W} {pair : Nat × Nat}
    (h : Within frontier near start update.state) (hsrc : pair.1 ∈ frontier)
    (hdst : pair.2 ∈ frontier) :
    Within frontier near start (patchPair graph update pair).state := by
  obtain ⟨src, dst⟩ := pair
  unfold patchPair
  dsimp only at hsrc hdst ⊢
  split
  · exact h
  · have hweigh : Within frontier near start { update.state with
        weightedDegrees := (update.state.weightedDegrees.modify src
          (· + (graph.weightBetween src dst -
            (update.state.adjacency.getD src ∅).getD dst 0))).modify dst
          (· + (graph.weightBetween src dst -
            (update.state.adjacency.getD src ∅).getD dst 0)) } := by
      refine { h with degrees_length := ?_, degrees_kept := ?_ }
      · rw [length_modify, length_modify]
        exact h.degrees_length
      · intro node hnode
        rw [getElem?_modify_ne _ _ (ne_of_notMem hdst hnode),
          getElem?_modify_ne _ _ (ne_of_notMem hsrc hnode)]
        exact h.degrees_kept node hnode
    have hadj := (hweigh.adjustCommunityDegree (h.community_near src hsrc)
      (graph.weightBetween src dst -
        (update.state.adjacency.getD src ∅).getD dst 0)).adjustCommunityDegree
      (h.community_near dst hdst)
      (graph.weightBetween src dst - (update.state.adjacency.getD src ∅).getD dst 0)
    refine { hadj with adjacency_length := ?_, adjacency_kept := ?_ }
    · unfold setNeighborWeight
      rw [length_modify, length_modify]
      exact h.adjacency_length
    · intro node hnode
      unfold setNeighborWeight
      rw [getElem?_modify_ne _ _ (ne_of_notMem hdst hnode),
        getElem?_modify_ne _ _ (ne_of_notMem hsrc hnode)]
      exact h.adjacency_kept node hnode

theorem communityOf_set {state : IncrementalPartitionState W} {candidate other : Nat} :
    (state.partition.membership.set node candidate).getD other 0 =
      if node = other ∧ node < state.partition.membership.length then candidate
      else state.communityOf other := by
  unfold communityOf
  rw [getD_eq_getElem?_getD, getD_eq_getElem?_getD, getElem?_set]
  by_cases hsame : node = other
  · subst hsame
    by_cases hlt : node < state.partition.membership.length
    · simp [hlt]
    · simp [hlt]
  · simp [hsame]

theorem moveNode_within {state : IncrementalPartitionState W} {incident : ExtTreeMap Nat W}
    {candidate : Nat} (h : Within frontier near start state) (hnode : node ∈ frontier)
    (hcand : candidate ∈ near ∨ start.nextCommunity ≤ candidate) :
    Within frontier near start (moveNode state incident node candidate) := by
  have hmoved : Within frontier near start { state with
      partition.membership := state.partition.membership.set node candidate } := by
    refine { h with membership_length := ?_, membership_kept := ?_, community_near := ?_ }
    · rw [length_set]
      exact h.membership_length
    · intro other hother
      rw [getElem?_set_ne (ne_of_notMem hnode hother)]
      exact h.membership_kept other hother
    · intro other hother
      have hset : ({ state with partition.membership :=
          state.partition.membership.set node candidate } :
            IncrementalPartitionState W).communityOf other =
          if node = other ∧ node < state.partition.membership.length then candidate
          else state.communityOf other := communityOf_set
      rw [hset]
      split
      · exact hcand
      · exact h.community_near other hother
  have hadj := (hmoved.adjustCommunityDegree (h.community_near node hnode)
    (-(state.weightedDegrees.getD node 0))).adjustCommunityDegree hcand
    (state.weightedDegrees.getD node 0)
  refine { hadj with next_le := ?_ }
  unfold moveNode
  dsimp only
  have hnext := h.next_le
  split <;> omega

theorem mem_addAt {map : ExtTreeMap Nat W} {key other : Nat} {weight : W} :
    other ∈ addAt map key weight ↔ key = other ∨ other ∈ map := by
  unfold addAt
  rw [ExtTreeMap.mem_insert, Nat.compare_eq_eq]

theorem mem_incidentByCommunity {state : IncrementalPartitionState W}
    (h : community ∈ incidentByCommunity graph state node) : community = state.nextCommunity ∨
      ∃ neighbor ∈ graph.neighborsOf node, state.communityOf neighbor = community := by
  have hfold := foldlRecOn (graph.adjacency.getD node [])
    (fun (incident : ExtTreeMap Nat W) (neighbor, weight) =>
      addAt incident (state.communityOf neighbor) weight) (b := ∅)
    (motive := fun map => community ∈ map →
      ∃ neighbor ∈ graph.neighborsOf node, state.communityOf neighbor = community)
    (by simp) fun map ih entry hentry hmem => by
      rcases mem_addAt.mp hmem with rfl | hmem
      · exact ⟨entry.1, mem_map_of_mem hentry, rfl⟩
      · exact ih hmem
  unfold incidentByCommunity at h
  rw [ExtTreeMap.mem_insert, Nat.compare_eq_eq] at h
  rcases h with rfl | hmem
  · exact .inl rfl
  · exact .inr (hfold hmem)

variable {epsilon : W}

theorem bestMove_some {state : IncrementalPartitionState W} {delta : W}
    {incident : ExtTreeMap Nat W} {candidate : Nat}
    (h : bestMove state epsilon incident node = some (candidate, delta)) :
    candidate ∈ incident ∧ candidate ≠ state.communityOf node ∧
      delta = moveGain state incident node candidate ∧ epsilon < delta := by
  revert h
  refine foldlRecOn incident.keys (considerMove state epsilon incident node)
    (motive := fun best => best = some (candidate, delta) → _)
    (nofun) ?_
  intro best ih key hkey hstep
  unfold considerMove at hstep
  split at hstep
  · exact ih hstep
  · rename_i hother
    dsimp only at hstep
    split at hstep
    · rename_i hgain
      obtain ⟨rfl, rfl⟩ := hstep
      exact ⟨ExtTreeMap.mem_keys.mp hkey, hother, rfl, hgain.1⟩
    · exact ih hstep

/-- What the steps rely on: the frontier's communities and those of its neighbours are near. -/
structure Near (graph : ProjectedGraph W) (frontier near : ExtTreeSet Nat)
    (start : IncrementalPartitionState W) : Prop where
  own : ∀ node ∈ frontier, start.communityOf node ∈ near
  neighbor : ∀ node ∈ frontier, ∀ neighbor ∈ graph.neighborsOf node,
    start.communityOf neighbor ∈ near

theorem refineNode_within {pass : Update W × Bool}
    (hnear : Near graph frontier near start) (hnode : node ∈ frontier)
    (h : Within frontier near start pass.1.state) :
    Within frontier near start (refineNode graph epsilon pass node).1.state := by
  unfold refineNode
  dsimp only
  split
  · exact h
  · rename_i candidate gain hbest
    refine moveNode_within h hnode ?_
    rcases mem_incidentByCommunity (bestMove_some hbest).1 with rfl | ⟨neighbor, hmem, rfl⟩
    · exact .inr h.next_le
    · exact h.community_of_neighbor (hnear.neighbor node hnode neighbor hmem)

theorem refine_holds {P : Update W → Prop} {nodes : List Nat}
    (hstep : ∀ pass : Update W × Bool, ∀ node ∈ nodes, P pass.1 →
      P (refineNode graph epsilon pass node).1) (passes : Nat) {update : Update W} (h : P update) :
    P (refine graph epsilon nodes passes update) := by
  induction passes generalizing update with
  | zero => exact h
  | succ passes ih =>
    have href : P (nodes.foldl (refineNode graph epsilon) (update, false)).1 :=
      foldlRecOn nodes _ (motive := fun (pass : Update W × Bool) => P pass.1) h
        fun pass hpass node hnode => hstep pass node hnode hpass
    unfold refine
    split
    · rename_i refined heq
      rw [heq] at href
      exact ih href
    · rename_i refined heq
      rw [heq] at href
      exact href

variable {P : IncrementalPartitionState W → Prop}

theorem refine_keeps {nodes : List Nat}
    (hstep : ∀ pass : Update W × Bool, ∀ node ∈ nodes, P pass.1.state →
      P (refineNode graph epsilon pass node).1.state)
    (passes : Nat) {update : Update W} (h : P update.state) :
    P (refine graph epsilon nodes passes update).state :=
  refine_holds (P := fun update => P update.state) hstep passes h

/-- What holds once the changes are patched in and is kept by every move holds at the end. -/
theorem updateFrontier_keeps (config : IncrementalConfig W)
    (hpatch : P (applyProjectionDeltas graph start dirty).state)
    (hstep : ∀ pass : Update W × Bool, ∀ node ∈ frontier, P pass.1.state →
      P (refineNode graph config.epsilon pass node).1.state) :
    P (updateFrontier graph start dirty frontier config).state := by
  unfold updateFrontier
  dsimp only
  split
  · refine refine_keeps ?_ config.maxPasses hpatch
    exact fun pass node hnode => hstep pass node (ExtTreeSet.mem_toList.mp hnode)
  · exact hpatch

end Steps

/-- A frontier was found: what was checked, and what it is made of. -/
structure FrontierOf (graph : ProjectedGraph W) (state : IncrementalPartitionState W)
    (dirtyNodes : List Nat) (dirty frontier : ExtTreeSet Nat) : Prop where
  membership_length : state.partition.membership.length = graph.nodeIds.length
  fingerprint : state.nodeOrderFingerprint = graph.nodeOrderFingerprint
  dirty_lt : ∀ node ∈ dirty, node < graph.nodeIds.length
  mem_dirty : ∀ node, node ∈ dirty ↔ node ∈ dirtyNodes
  mem_frontier : ∀ node, node ∈ frontier ↔ node ∈ dirty ∨ ∃ center ∈ dirty,
    node ∈ state.neighborsOf center ++ graph.neighborsOf center

theorem incrementalFrontier_ok {graph : ProjectedGraph W} {state : IncrementalPartitionState W}
    {dirtyNodes : List Nat} {config : IncrementalConfig W} {dirty frontier : ExtTreeSet Nat}
    (h : state.incrementalFrontier graph dirtyNodes config = .ok (dirty, frontier)) :
    FrontierOf graph state dirtyNodes dirty frontier := by
  unfold incrementalFrontier at h
  dsimp only at h
  split at h
  · cases h
  · rename_i hlen
    split at h
    · cases h
    · rename_i hfing
      split at h
      · cases h
      · rename_i hdirty
        split at h
        · cases h
        · split at h
          · cases h
          · obtain ⟨rfl, rfl⟩ := h
            refine ⟨not_not.mp hlen, not_not.mp hfing, ?_, ?_, ?_⟩
            · intro node hnode
              have hfound := find?_eq_none.mp hdirty node (ExtTreeSet.mem_toList.mpr hnode)
              simpa using hfound
            · intro node
              rw [ExtTreeSet.mem_ofList, contains_iff_mem]
            · exact fun node => mem_gather

namespace FrontierOf

variable {graph : ProjectedGraph W} {state : IncrementalPartitionState W}
  {dirtyNodes : List Nat} {dirty frontier : ExtTreeSet Nat}

theorem frontier_lt (h : FrontierOf graph state dirtyNodes dirty frontier)
    (hgraph : Bounded graph) (hstate : Accounted state) :
    ∀ node ∈ frontier, node < state.partition.membership.length := by
  intro node hnode
  rcases (h.mem_frontier node).mp hnode with hdirty | ⟨center, hcent, hneigh⟩
  · rw [h.membership_length]
    exact h.dirty_lt node hdirty
  · rcases mem_append.mp hneigh with hold | hnew
    · exact hstate.neighbor_lt center node hold
    · rw [h.membership_length]
      exact hgraph.neighbor_lt center node hnew

theorem changedPairs_mem (h : FrontierOf graph state dirtyNodes dirty frontier) :
    ∀ pair ∈ changedPairs graph state dirty, pair.1 ∈ frontier ∧ pair.2 ∈ frontier := by
  intro pair hpair
  rcases mem_gather.mp hpair with hempty | ⟨center, hcent, hpair⟩
  · simp at hempty
  · obtain ⟨neighbor, hneigh, rfl⟩ := mem_map.mp hpair
    have hcente := (h.mem_frontier center).mpr (.inl hcent)
    have hneig := (h.mem_frontier neighbor).mpr (.inr ⟨center, hcent, hneigh⟩)
    unfold orderedPair
    split
    · exact ⟨hcente, hneig⟩
    · exact ⟨hneig, hcente⟩

end FrontierOf

/-! ## Going back -/

section Restore

variable {graph : ProjectedGraph W} {start state : IncrementalPartitionState W}
  {dirty frontier : ExtTreeSet Nat}

theorem mem_touchedCommunities : community ∈ start.touchedCommunities graph dirty frontier ↔
      (∃ node ∈ frontier, community = start.communityOf node ∨
        ∃ neighbor ∈ start.neighborsOf node ++ graph.neighborsOf node,
          start.communityOf neighbor = community) ∨
      ∃ node ∈ dirty, community = start.communityOf node := by
  unfold touchedCommunities
  rw [mem_gather, mem_gather]
  simp only [ExtTreeSet.not_mem_empty, false_or, mem_cons, mem_map,
    not_mem_nil, or_false]

theorem near_touchedCommunities :
    Near graph frontier (start.touchedCommunities graph dirty frontier) start := by
  refine ⟨?_, ?_⟩
  · intro node hnode
    exact mem_touchedCommunities.mpr (.inl ⟨node, hnode, .inl rfl⟩)
  · intro node hnode neighbor hneigh
    refine mem_touchedCommunities.mpr (.inl ⟨node, hnode, .inr ⟨neighbor, ?_, rfl⟩⟩)
    exact mem_append_right _ hneigh

theorem within_start {near : ExtTreeSet Nat} (hnear : Near graph frontier near start) :
    Within frontier near start start where
  membership_length := rfl
  adjacency_length := rfl
  degrees_length := rfl
  fingerprint := rfl
  membership_kept _ _ := rfl
  adjacency_kept _ _ := rfl
  degrees_kept _ _ := rfl
  community_kept _ _ _ := rfl
  community_near node hnode := .inl (hnear.own node hnode)
  next_le := Nat.le_refl _

theorem writeBack_frontier {values : List α} (default : α)
    (hlen : values.length = original.length) (hbound : ∀ node ∈ frontier, node < original.length)
    (hkept : ∀ node, node ∉ frontier → values[node]? = original[node]?) :
    writeBack values
      (frontier.toList.map fun node => (node, original.getD node default)) = original := by
  refine writeBack_eq hlen ?_ ?_
  · intro entry hentry
    obtain ⟨node, hnode, rfl⟩ := mem_map.mp hentry
    have hlt := hbound node (ExtTreeSet.mem_toList.mp hnode)
    rw [getD_eq_getElem _ _ hlt, getElem?_eq_getElem hlt]
  · intro node hother
    refine hkept node fun hnode => ?_
    exact hother _ (mem_map_of_mem (ExtTreeSet.mem_toList.mpr hnode)) rfl

theorem touched_recorded (hstart : Accounted start)
    (hneigh : ∀ node, ∀ neighbor ∈ graph.neighborsOf node,
      neighbor < start.partition.membership.length)
    (hfront : ∀ node ∈ frontier, node < start.partition.membership.length)
    (hdirty : ∀ node ∈ dirty, node < start.partition.membership.length) :
    ∀ community ∈ start.touchedCommunities graph dirty frontier,
      community ∈ start.communityDegrees := by
  intro community hcommunity
  rcases mem_touchedCommunities.mp hcommunity with
    ⟨node, hnode, rfl | ⟨neighbor, hmem, rfl⟩⟩ | ⟨node, hnode, rfl⟩
  · exact hstart.communityOf_recorded (hfront node hnode)
  · rcases mem_append.mp hmem with hold | hnew
    · exact hstart.communityOf_recorded (hstart.neighbor_lt node neighbor hold)
    · exact hstart.communityOf_recorded (hneigh node neighbor hnew)
  · exact hstart.communityOf_recorded (hdirty node hnode)

section

variable (hstart : Accounted start)
  (hrec : ∀ community ∈ start.touchedCommunities graph dirty frontier,
    community ∈ start.communityDegrees)
include hstart hrec

/-- The saved degrees and the cut at the next free number bring the degrees back. -/
theorem restore_communityDegrees
    (hwith : Within frontier (start.touchedCommunities graph dirty frontier) start state) :
    (state.restore (start.rollbackSnapshot graph dirty frontier)).communityDegrees =
      start.communityDegrees := by
  have hsaved : ∀ entry ∈ (start.touchedCommunities graph dirty frontier).toList.filterMap
      (fun community => start.communityDegrees[community]?.map (community, ·)),
      start.communityDegrees[entry.1]? = some entry.2 := by
    intro entry hentry
    obtain ⟨community, _, hfound⟩ := mem_filterMap.mp hentry
    obtain ⟨degree, hdegr, rfl⟩ := Option.map_eq_some_iff.mp hfound
    exact hdegr
  apply ExtTreeMap.ext_getElem?
  intro community
  unfold restore rollbackSnapshot
  by_cases htouched : community ∈ start.touchedCommunities graph dirty frontier
  · refine getElem?_inserts_of_mem (fun c => start.communityDegrees[c]?) hsaved ?_ _
    have hsome := ExtTreeMap.mem_iff_isSome_getElem?.mp (hrec community htouched)
    obtain ⟨degree, hdegr⟩ := Option.isSome_iff_exists.mp hsome
    refine ⟨(community, degree), ?_, rfl⟩
    refine mem_filterMap.mpr ⟨community, ExtTreeSet.mem_toList.mpr htouched, ?_⟩
    rw [hdegr]
    rfl
  · have hother : ∀ entry ∈ (start.touchedCommunities graph dirty frontier).toList.filterMap
        (fun community => start.communityDegrees[community]?.map (community, ·)),
        entry.1 ≠ community := by
      intro entry hentry heq
      obtain ⟨other, hmem, hfound⟩ := mem_filterMap.mp hentry
      obtain ⟨degree, _, rfl⟩ := Option.map_eq_some_iff.mp hfound
      subst heq
      exact htouched (ExtTreeSet.mem_toList.mp hmem)
    rw [getElem?_inserts_of_notMem hother, ExtTreeMap.getElem?_filter']
    by_cases hbelow : community < start.nextCommunity
    · rw [hwith.community_kept community hbelow htouched]
      cases start.communityDegrees[community]? with
      | none => rfl
      | some degree => simp [hbelow]
    · have hnone : start.communityDegrees[community]? = none :=
        ExtTreeMap.getElem?_eq_none fun hmem => hbelow (hstart.below_next community hmem)
      rw [hnone]
      cases state.communityDegrees[community]? with
      | none => rfl
      | some degree => simp [hbelow]

/-- An update that stayed within the frontier is undone exactly. -/
theorem restore_rollbackSnapshot
    (hfront : ∀ node ∈ frontier, node < start.partition.membership.length)
    (hwith : Within frontier (start.touchedCommunities graph dirty frontier) start state) :
    state.restore (start.rollbackSnapshot graph dirty frontier) = start := by
  have hdegre := restore_communityDegrees hstart hrec hwith
  have hmemb : writeBack state.partition.membership
      (frontier.toList.map fun node => (node, start.communityOf node)) =
        start.partition.membership :=
    writeBack_frontier 0 hwith.membership_length hfront hwith.membership_kept
  have hadjac : writeBack state.adjacency
      (frontier.toList.map fun node => (node, start.adjacency.getD node ∅)) = start.adjacency :=
    writeBack_frontier ∅ hwith.adjacency_length
      (fun node hnode => hstart.adjacency_length ▸ hfront node hnode)
      hwith.adjacency_kept
  have hweig : writeBack state.weightedDegrees
      (frontier.toList.map fun node => (node, start.weightedDegrees.getD node 0)) =
        start.weightedDegrees :=
    writeBack_frontier 0 hwith.degrees_length
      (fun node hnode => hstart.degrees_length ▸ hfront node hnode) hwith.degrees_kept
  unfold restore rollbackSnapshot
    at hdegre ⊢
  dsimp only at hdegre ⊢
  rw [hdegre, hmemb, hadjac, hweig, hwith.fingerprint]

end

end Restore

end Wenlan.Community
