import Wenlan.Community.FreshState

/-!
# The nodes near a change

The nodes that a change of the raw edges makes dirty are the ends of the edges added and removed.
A projected weight depends on the number of parallel edges of its pair and on the degrees of the
two ends, so it can only change at a dirty node.
-/

namespace Wenlan.Community

open Std List

set_option linter.unusedSectionVars false

variable {W : Type} [Weight W] [DecidableLT W] [DecidableLE W]

def edgePair (edge : ProjectionInputEdge) : String × String :=
  if edge.srcId < edge.dstId then (edge.srcId, edge.dstId) else (edge.dstId, edge.srcId)

def edgePairs (input : List ProjectionInputEdge) : Multiset (String × String) :=
  input.map edgePair

/-- The ends of the edges that were added or removed. -/
def dirtyNodeIds (old new : List ProjectionInputEdge) : Finset String :=
  ((edgePairs new - edgePairs old) + (edgePairs old - edgePairs new)).toFinset.biUnion
    fun pair => {pair.1, pair.2}

def dirtyNodes (graph : ProjectedGraph W) (ids : Finset String) : List Nat :=
  (List.range graph.nodeIds.length).filter fun node => graph.nodeIds.getD node "" ∈ ids

theorem count_eq_of_notMem {old new : List ProjectionInputEdge} {pair : String × String}
    (hclean : pair.1 ∉ dirtyNodeIds old new ∨ pair.2 ∉ dirtyNodeIds old new) :
    (edgePairs old).count pair = (edgePairs new).count pair := by
  by_contra hne
  have hchanged : pair ∈ (edgePairs new - edgePairs old) + (edgePairs old - edgePairs new) := by
    rw [Multiset.mem_add, ← Multiset.count_pos, ← Multiset.count_pos, Multiset.count_sub,
      Multiset.count_sub]
    omega
  have hmem : ∀ id, id = pair.1 ∨ id = pair.2 → id ∈ dirtyNodeIds old new := by
    intro id hid
    rw [dirtyNodeIds, Finset.mem_biUnion]
    refine ⟨pair, Multiset.mem_toFinset.mpr hchanged, ?_⟩
    rw [Finset.mem_insert, Finset.mem_singleton]
    exact hid
  rcases hclean with hfirst | hsecond
  · exact hfirst (hmem _ (.inl rfl))
  · exact hsecond (hmem _ (.inr rfl))

def foldedWeight (config : ProjectionConfig W) : Nat → W
  | 0 => 0
  | count + 1 =>
    let cap := config.parallelEdgeCapMultiplier * config.relatesWeight
    let weight := foldedWeight config count + config.relatesWeight
    if weight ≤ cap then weight else cap

section Folded

variable {config : ProjectionConfig W}

omit [DecidableLT W] in
theorem foldInputEdges_getElem? (input : List ProjectionInputEdge) (pair : String × String) :
    (input.foldl (foldInputEdge config) (∅, ∅)).2[pair]? =
      if pair.1 ≠ pair.2 ∧ 0 < (edgePairs input).count pair then
        some (foldedWeight config ((edgePairs input).count pair)) else none := by
  induction input using reverseRecOn with
  | nil => simp [edgePairs]
  | append_singleton input edge ih =>
    have hcount : (edgePairs (input ++ [edge])).count pair =
        (edgePairs input).count pair + if edgePair edge = pair then 1 else 0 := by
      have hparts : edgePairs (input ++ [edge]) = edgePairs input + {edgePair edge} := by
        rw [edgePairs, map_append]
        rfl
      rw [hparts, Multiset.count_add, Multiset.count_singleton]
      exact congrArg _ (if_congr eq_comm rfl rfl)
    rw [foldl_concat, foldInputEdge]
    by_cases hloop : edge.srcId = edge.dstId
    · rw [if_pos hloop, ih]
      have hends : (edgePair edge).1 = (edgePair edge).2 := by
        rw [edgePair, hloop]
        split <;> rfl
      by_cases hsame : edgePair edge = pair
      · have hpair : ¬ pair.1 ≠ pair.2 := by
          rw [← hsame]
          exact not_not.mpr hends
        rw [if_neg fun h => hpair h.1, if_neg fun h => hpair h.1]
      · rw [hcount, if_neg hsame, Nat.add_zero]
    · rw [if_neg hloop]
      rw [← edgePair]
      have hends : (edgePair edge).1 ≠ (edgePair edge).2 := by
        rw [edgePair]
        split
        · exact hloop
        · exact Ne.symm hloop
      have hins : ∀ (map : FoldedWeights W) (weight : W),
          (map.insert (edgePair edge) weight)[pair]? =
            if edgePair edge = pair then some weight else map[pair]? := fun map weight =>
        ExtTreeMap.getElem?_insert.trans (if_congr LawfulEqCmp.compare_eq_iff_eq rfl rfl)
      rw [hins, hcount]
      by_cases hsame : edgePair edge = pair
      · subst hsame
        have hbef : (input.foldl (foldInputEdge config) (∅, ∅)).2.getD (edgePair edge) 0 =
            foldedWeight config ((edgePairs input).count (edgePair edge)) := by
          rw [ExtTreeMap.getD_eq_getD_getElem?, ih]
          by_cases hthere : 0 < (edgePairs input).count (edgePair edge)
          · rw [if_pos ⟨hends, hthere⟩]
            rfl
          · have hzero : (edgePairs input).count (edgePair edge) = 0 := by omega
            rw [if_neg fun h => hthere h.2, hzero]
            rfl
        have hnow : (edgePair edge).1 ≠ (edgePair edge).2 ∧
            0 < (edgePairs input).count (edgePair edge) + 1 := ⟨hends, Nat.succ_pos _⟩
        rw [if_pos rfl, if_pos rfl, if_pos hnow, hbef]
        rfl
      · rw [if_neg hsame, if_neg hsame, Nat.add_zero, ih]

omit [DecidableLT W] in
theorem foldedInput_getElem? (input : List ProjectionInputEdge) (pair : String × String) :
    (foldedInput input config).2[pair]? = if pair.1 ≠ pair.2 ∧ 0 < (edgePairs input).count pair then
        some (foldedWeight config ((edgePairs input).count pair)) else none := by
  have hperm : edgePairs (input.insertionSort fun left right => left.edgeId ≤ right.edgeId) =
      edgePairs input :=
    Multiset.coe_eq_coe.mpr ((perm_insertionSort _ _).map _)
  rw [foldedInput, foldInputEdges_getElem?, hperm]

end Folded

omit [Weight W] [DecidableLT W] [DecidableLE W] in
theorem foldedDegrees_congr {nodeIds : List String} {folded other : FoldedWeights W} {node : Nat}
    (hnode : node < nodeIds.length)
    (hsame : ∀ pair : String × String, nodeIds.idxOf pair.1 = node ∨ nodeIds.idxOf pair.2 = node →
      (pair ∈ folded ↔ pair ∈ other)) :
    (foldedDegrees nodeIds folded).getD node 0 = (foldedDegrees nodeIds other).getD node 0 := by
  have hcount : ∀ at_end : String × String → Bool,
      (∀ pair, at_end pair → nodeIds.idxOf pair.1 = node ∨ nodeIds.idxOf pair.2 = node) →
      folded.keys.countP at_end = other.keys.countP at_end := by
    intro at_end hends
    rw [countP_eq_length_filter, countP_eq_length_filter]
    apply List.Perm.length_eq
    rw [perm_ext_iff_of_nodup (ExtTreeMap.nodup_keys.filter _)
      (ExtTreeMap.nodup_keys.filter _)]
    intro pair
    rw [mem_filter, mem_filter, ExtTreeMap.mem_keys, ExtTreeMap.mem_keys]
    exact and_congr_left fun hend => hsame pair (hends pair hend)
  rw [foldedDegrees_getD nodeIds folded hnode, foldedDegrees_getD nodeIds other hnode,
    hcount _ fun pair hend => .inl (of_decide_eq_true hend),
    hcount _ fun pair hend => .inr (of_decide_eq_true hend)]

def Joined (edges : List (ProjectedEdge W)) (node neighbor : Nat) (weight : W) : Prop :=
  ∃ edge ∈ edges, edge.weight = weight ∧
    (edge.src = node ∧ edge.dst = neighbor ∨ edge.dst = node ∧ edge.src = neighbor)

theorem mem_linkedEdges {edges : List (ProjectedEdge W)} {nodeCount node neighbor : Nat}
    {weight : W} (hedges : EdgesWithin nodeCount edges) (hnode : node < nodeCount) :
    (neighbor, weight) ∈ (edges.foldl linkEdge (replicate nodeCount [])).getD node [] ↔
      Joined edges node neighbor weight := by
  induction edges using reverseRecOn with
  | nil =>
    rw [foldl_nil, getD_replicate _ hnode]
    simp [Joined]
  | append_singleton edges edge ih =>
    have hbef := ih fun other hother => hedges other (mem_append_left _ hother)
    obtain ⟨hsrc, hdst⟩ := hedges edge (mem_append_right _ (mem_singleton_self _))
    have hlen : (edges.foldl linkEdge (replicate nodeCount [])).length = nodeCount := by
      rw [linkedEdges_length, length_replicate]
    have hjoin : Joined (edges ++ [edge]) node neighbor weight ↔
        Joined edges node neighbor weight ∨ edge.weight = weight ∧
          (edge.src = node ∧ edge.dst = neighbor ∨ edge.dst = node ∧ edge.src = neighbor) := by
      simp [Joined, or_and_right, exists_or]
    rw [foldl_concat, linkEdge, getD_modify (by rw [length_modify, hlen]; exact hdst),
      getD_modify (by rw [hlen]; exact hsrc), hjoin, ← hbef]
    have hentry : ∀ (row : List (Nat × W)) (last : Nat),
        (neighbor, weight) ∈ row ++ [(last, edge.weight)] ↔
          (neighbor, weight) ∈ row ∨ edge.weight = weight ∧ last = neighbor := by
      intro row last
      rw [mem_append, mem_singleton, Prod.mk.injEq, eq_comm (a := neighbor),
        eq_comm (a := weight), and_comm (a := last = neighbor)]
    by_cases hd : edge.dst = node <;> by_cases hs : edge.src = node
    · rw [if_pos hd, if_pos hs, hentry, hentry]
      tauto
    · rw [if_pos hd, if_neg hs, hentry]
      tauto
    · rw [if_neg hd, if_pos hs, hentry]
      tauto
    · rw [if_neg hd, if_neg hs]
      tauto

omit [Weight W] [DecidableLT W] [DecidableLE W] in
theorem lookup_iff_mem {entries : List (Nat × W)} {key : Nat} {weight : W}
    (hagree : ∀ first second, (key, first) ∈ entries → (key, second) ∈ entries → first = second) :
    entries.lookup key = some weight ↔ (key, weight) ∈ entries := by
  constructor
  · intro hlook
    obtain ⟨front, rest, rfl, -⟩ := lookup_eq_some_iff.mp hlook
    exact mem_append_right _ mem_cons_self
  · intro hmem
    cases hlook : entries.lookup key with
    | none =>
      have hnone := lookup_eq_none_iff.mp hlook (key, weight) hmem
      simp at hnone
    | some found =>
      obtain ⟨front, rest, rfl, -⟩ := lookup_eq_some_iff.mp hlook
      exact congrArg some (hagree _ _ (mem_append_right _ mem_cons_self) hmem)

/-! ## Projected weights -/

section Projected

variable {config : ProjectionConfig W} {input : List ProjectionInputEdge}

theorem foldedInput_ends {pair : String × String} (hpair : pair ∈ (foldedInput input config).2) :
    pair.1 ≠ pair.2 ∧ pair.1 ∈ (projectGroundedRelates input config).nodeIds ∧
      pair.2 ∈ (projectGroundedRelates input config).nodeIds := by
  obtain ⟨hfirst, hsecond⟩ := foldedInput_nodes input config pair hpair
  have hends : pair.1 ≠ pair.2 := by
    intro hsame
    rw [ExtTreeMap.mem_iff_isSome_getElem?, foldedInput_getElem?, if_neg fun h => h.1 hsame]
      at hpair
    cases hpair
  exact ⟨hends, ExtTreeSet.mem_toList.mpr hfirst, ExtTreeSet.mem_toList.mpr hsecond⟩

def projectedWeight (input : List ProjectionInputEdge) (config : ProjectionConfig W)
    (src dst : Nat) (weight : W) : W :=
  let degrees := foldedDegrees (projectGroundedRelates input config).nodeIds
    (foldedInput input config).2
  weight * hubFactor config (degrees.getD src 0) * hubFactor config (degrees.getD dst 0)

theorem mem_projectedEdges {edge : ProjectedEdge W} :
    edge ∈ (projectGroundedRelates input config).edges ↔ ∃ (pair : String × String) (weight : W),
        (foldedInput input config).2[pair]? = some weight ∧
        edge.src = (projectGroundedRelates input config).nodeIds.idxOf pair.1 ∧
        edge.dst = (projectGroundedRelates input config).nodeIds.idxOf pair.2 ∧
        edge.weight = projectedWeight input config edge.src edge.dst weight := by
  have hedges : (projectGroundedRelates input config).edges =
      (foldedInput input config).2.toList.map fun entry =>
        ⟨(projectGroundedRelates input config).nodeIds.idxOf entry.1.1,
          (projectGroundedRelates input config).nodeIds.idxOf entry.1.2,
          projectedWeight input config
            ((projectGroundedRelates input config).nodeIds.idxOf entry.1.1)
            ((projectGroundedRelates input config).nodeIds.idxOf entry.1.2) entry.2⟩ := rfl
  rw [hedges, mem_map]
  constructor
  · rintro ⟨⟨pair, weight⟩, hentry, rfl⟩
    exact ⟨pair, weight, ExtTreeMap.mem_toList_iff_getElem?_eq_some.mp hentry, rfl, rfl, rfl⟩
  · rintro ⟨pair, weight, hsome, hsrc, hdst, hweigh⟩
    refine ⟨(pair, weight), ExtTreeMap.mem_toList_iff_getElem?_eq_some.mpr hsome, ?_⟩
    obtain ⟨src, dst, total⟩ := edge
    dsimp only at hsrc hdst hweigh
    rw [hweigh, hsrc, hdst]

def Joins (input : List ProjectionInputEdge) (config : ProjectionConfig W) (node neighbor : Nat)
    (pair : String × String) : Prop :=
  (projectGroundedRelates input config).nodeIds.idxOf pair.1 = node ∧
      (projectGroundedRelates input config).nodeIds.idxOf pair.2 = neighbor ∨
    (projectGroundedRelates input config).nodeIds.idxOf pair.2 = node ∧
      (projectGroundedRelates input config).nodeIds.idxOf pair.1 = neighbor

theorem foldedInput_lt {pair : String × String} (hpair : pair ∈ (foldedInput input config).2) :
    pair.1 < pair.2 := by
  rw [ExtTreeMap.mem_iff_isSome_getElem?, foldedInput_getElem?] at hpair
  split_ifs at hpair with hcount
  · have hmem : pair ∈ input.map edgePair := Multiset.mem_coe.mp (Multiset.count_pos.mp hcount.2)
    obtain ⟨edge, -, rfl⟩ := mem_map.mp hmem
    have hne := hcount.1
    rw [edgePair] at hne ⊢
    split_ifs at hne ⊢ with hlt
    · exact hlt
    · exact (le_of_not_gt hlt).lt_of_ne hne
  · cases hpair

theorem Joins.eq {node neighbor : Nat} {first second : String × String}
    (hfirst : first ∈ (foldedInput input config).2)
    (hsecond : second ∈ (foldedInput input config).2)
    (h : Joins input config node neighbor first) (h' : Joins input config node neighbor second) :
    first = second := by
  obtain ⟨-, hleft, hright⟩ := foldedInput_ends hfirst
  have hlt := foldedInput_lt hfirst
  have hlt' := foldedInput_lt hsecond
  rcases h with ⟨hnode, hneigh⟩ | ⟨hnode, hneigh⟩ <;>
    rcases h' with ⟨hnode', hneigh'⟩ | ⟨hnode', hneigh'⟩
  · exact Prod.ext ((idxOf_inj hleft).mp (hnode.trans hnode'.symm))
      ((idxOf_inj hright).mp (hneigh.trans hneigh'.symm))
  · have hforth := (idxOf_inj hleft).mp (hnode.trans hnode'.symm)
    have hback := (idxOf_inj hright).mp (hneigh.trans hneigh'.symm)
    rw [hforth, hback] at hlt
    exact absurd hlt (lt_asymm hlt')
  · have hforth := (idxOf_inj hright).mp (hnode.trans hnode'.symm)
    have hback := (idxOf_inj hleft).mp (hneigh.trans hneigh'.symm)
    rw [hforth, hback] at hlt
    exact absurd hlt (lt_asymm hlt')
  · exact Prod.ext ((idxOf_inj hleft).mp (hneigh.trans hneigh'.symm))
      ((idxOf_inj hright).mp (hnode.trans hnode'.symm))

theorem mem_of_getElem? {pair : String × String} {weight : W}
    (hsome : (foldedInput input config).2[pair]? = some weight) :
    pair ∈ (foldedInput input config).2 := by
  rw [ExtTreeMap.mem_iff_isSome_getElem?, hsome]
  rfl

theorem mem_projectedRow {node neighbor : Nat} {weight : W}
    (hnode : node < (projectGroundedRelates input config).nodeIds.length) :
    (neighbor, weight) ∈ (projectGroundedRelates input config).adjacency.getD node [] ↔
      ∃ (pair : String × String) (folded : W), (foldedInput input config).2[pair]? = some folded ∧
        Joins input config node neighbor pair ∧
        weight = projectedWeight input config
          ((projectGroundedRelates input config).nodeIds.idxOf pair.1)
          ((projectGroundedRelates input config).nodeIds.idxOf pair.2) folded := by
  have hwith : EdgesWithin (projectGroundedRelates input config).nodeIds.length
      (projectGroundedRelates input config).edges := by
    intro edge hedge
    obtain ⟨pair, folded, hsome, hsrc, hdst, -⟩ := mem_projectedEdges.mp hedge
    obtain ⟨-, hleft, hright⟩ := foldedInput_ends (mem_of_getElem? hsome)
    rw [hsrc, hdst]
    exact ⟨idxOf_lt_length_iff.mpr hleft, idxOf_lt_length_iff.mpr hright⟩
  have hrow : (projectGroundedRelates input config).adjacency =
      ((projectGroundedRelates input config).edges.foldl linkEdge
        (replicate (projectGroundedRelates input config).nodeIds.length [])).map
        (·.insertionSort fun left right => left.1 ≤ right.1) := rfl
  have hlen : node < ((projectGroundedRelates input config).edges.foldl linkEdge
      (replicate (projectGroundedRelates input config).nodeIds.length [])).length := by
    rw [linkedEdges_length, length_replicate]
    exact hnode
  have hents := @mem_linkedEdges W _ _ _ _ _ _ neighbor weight hwith hnode
  rw [getD_eq_getElem?_getD, getElem?_eq_getElem hlen, Option.getD_some] at hents
  rw [hrow, getD_eq_getElem?_getD, getElem?_map, getElem?_eq_getElem hlen,
    Option.map_some, Option.getD_some, mem_insertionSort, hents]
  constructor
  · rintro ⟨edge, hedge, rfl, hends⟩
    obtain ⟨pair, folded, hsome, hsrc, hdst, hweigh⟩ := mem_projectedEdges.mp hedge
    refine ⟨pair, folded, hsome, ?_, ?_⟩
    · rw [Joins, ← hsrc, ← hdst]
      exact hends
    · rw [hweigh, hsrc, hdst]
  · rintro ⟨pair, folded, hsome, hends, rfl⟩
    let edge : ProjectedEdge W := ⟨(projectGroundedRelates input config).nodeIds.idxOf pair.1,
      (projectGroundedRelates input config).nodeIds.idxOf pair.2, projectedWeight input config
      ((projectGroundedRelates input config).nodeIds.idxOf pair.1)
      ((projectGroundedRelates input config).nodeIds.idxOf pair.2) folded⟩
    exact ⟨edge, mem_projectedEdges.mpr ⟨pair, folded, hsome, rfl, rfl, rfl⟩, rfl, hends⟩

theorem lookup_projectedRow {node neighbor : Nat} {weight : W}
    (hnode : node < (projectGroundedRelates input config).nodeIds.length) :
    ((projectGroundedRelates input config).adjacency.getD node []).lookup neighbor = some weight ↔
      ∃ (pair : String × String) (folded : W), (foldedInput input config).2[pair]? = some folded ∧
        Joins input config node neighbor pair ∧
        weight = projectedWeight input config
          ((projectGroundedRelates input config).nodeIds.idxOf pair.1)
          ((projectGroundedRelates input config).nodeIds.idxOf pair.2) folded := by
  rw [lookup_iff_mem, mem_projectedRow hnode]
  intro first second hfirst hsecond
  obtain ⟨pair, folded, hsome, hjoins, rfl⟩ := (mem_projectedRow hnode).mp hfirst
  obtain ⟨pair', folded', hsome', hjoins', rfl⟩ := (mem_projectedRow hnode).mp hsecond
  have hsame := hjoins.eq (mem_of_getElem? hsome) (mem_of_getElem? hsome') hjoins'
  subst hsame
  rw [hsome] at hsome'
  cases hsome'
  rfl

end Projected

/-! ## Changed weights -/

section Changed

variable {old new : List ProjectionInputEdge}

omit [DecidableLT W] in
theorem folded_eq_of_notMem (config : ProjectionConfig W) {pair : String × String}
    (hclean : pair.1 ∉ dirtyNodeIds old new ∨ pair.2 ∉ dirtyNodeIds old new) :
    (foldedInput old config).2[pair]? = (foldedInput new config).2[pair]? := by
  rw [foldedInput_getElem?, foldedInput_getElem?, count_eq_of_notMem hclean]

theorem degree_eq_of_notMem (config : ProjectionConfig W) {nodeIds : List String} {node : Nat}
    (hnode : node < nodeIds.length) (hclean : nodeIds.getD node "" ∉ dirtyNodeIds old new) :
    (foldedDegrees nodeIds (foldedInput old config).2).getD node 0 =
      (foldedDegrees nodeIds (foldedInput new config).2).getD node 0 := by
  have hid : ∀ id : String, nodeIds.idxOf id = node → id ∉ dirtyNodeIds old new := by
    intro id hidx
    subst hidx
    rw [getD_eq_getElem?_getD, getElem?_eq_getElem hnode, Option.getD_some,
      getElem_idxOf hnode] at hclean
    exact hclean
  apply foldedDegrees_congr hnode
  intro pair hends
  have hsame := folded_eq_of_notMem config (hends.imp (hid pair.1) (hid pair.2))
  rw [ExtTreeMap.mem_iff_isSome_getElem?, ExtTreeMap.mem_iff_isSome_getElem?, hsame]

variable {config : ProjectionConfig W}

/-- The entries between two nodes that are not dirty are the same. -/
theorem lookup_eq_of_notMem (hnodes : (projectGroundedRelates old config).nodeIds =
      (projectGroundedRelates new config).nodeIds) {node neighbor : Nat}
    (hnode : node < (projectGroundedRelates new config).nodeIds.length)
    (hneigh : neighbor < (projectGroundedRelates new config).nodeIds.length)
    (hclean : (projectGroundedRelates new config).nodeIds.getD node "" ∉ dirtyNodeIds old new)
    (hclean' : (projectGroundedRelates new config).nodeIds.getD neighbor "" ∉
      dirtyNodeIds old new) :
    ((projectGroundedRelates old config).adjacency.getD node []).lookup neighbor =
      ((projectGroundedRelates new config).adjacency.getD node []).lookup neighbor := by
  -- The weights of a pair that joins the two nodes are the same before and after.
  have hweigh : ∀ (pair : String × String) (folded : W), Joins new config node neighbor pair →
      projectedWeight old config ((projectGroundedRelates new config).nodeIds.idxOf pair.1)
        ((projectGroundedRelates new config).nodeIds.idxOf pair.2) folded =
      projectedWeight new config ((projectGroundedRelates new config).nodeIds.idxOf pair.1)
        ((projectGroundedRelates new config).nodeIds.idxOf pair.2) folded := by
    intro pair folded hjoins
    have hdegr := degree_eq_of_notMem config hnode hclean
    have hdegr' := degree_eq_of_notMem config hneigh hclean'
    unfold projectedWeight
    dsimp only
    rw [hnodes]
    rcases hjoins with ⟨hfirst, hsecond⟩ | ⟨hsecond, hfirst⟩
    all_goals rw [hfirst, hsecond, hdegr, hdegr']
  have hpair : ∀ pair : String × String, Joins new config node neighbor pair →
      (foldedInput old config).2[pair]? = (foldedInput new config).2[pair]? := by
    intro pair hjoins
    apply folded_eq_of_notMem
    rcases hjoins with ⟨hfirst, -⟩ | ⟨hsecond, -⟩
    · left
      rw [← hfirst, getD_eq_getElem?_getD] at hclean
      rw [← hfirst] at hnode
      rwa [getElem?_eq_getElem hnode, Option.getD_some, getElem_idxOf hnode] at hclean
    · right
      rw [← hsecond, getD_eq_getElem?_getD] at hclean
      rw [← hsecond] at hnode
      rwa [getElem?_eq_getElem hnode, Option.getD_some, getElem_idxOf hnode] at hclean
  have hjoins : ∀ pair,
      Joins old config node neighbor pair ↔ Joins new config node neighbor pair := by
    intro pair
    rw [Joins, Joins, hnodes]
  have hold : node < (projectGroundedRelates old config).nodeIds.length := by
    rw [hnodes]
    exact hnode
  ext weight
  rw [lookup_projectedRow hold, lookup_projectedRow hnode, hnodes]
  constructor
  · rintro ⟨pair, folded, hsome, hends, rfl⟩
    have hends' := (hjoins pair).mp hends
    exact ⟨pair, folded, (hpair pair hends').symm.trans hsome, hends', hweigh pair folded hends'⟩
  · rintro ⟨pair, folded, hsome, hends, rfl⟩
    exact ⟨pair, folded, (hpair pair hends).trans hsome, (hjoins pair).mpr hends,
      (hweigh pair folded hends).symm⟩

theorem lookup_out_of_range {input : List ProjectionInputEdge} {node neighbor : Nat}
    (hout : (projectGroundedRelates input config).nodeIds.length ≤ node ∨
      (projectGroundedRelates input config).nodeIds.length ≤ neighbor) :
    ((projectGroundedRelates input config).adjacency.getD node []).lookup neighbor = none := by
  by_cases hnode : node < (projectGroundedRelates input config).nodeIds.length
  · have hneigh := hout.resolve_left (Nat.not_le.mpr hnode)
    cases hlook : ((projectGroundedRelates input config).adjacency.getD node []).lookup neighbor
    with
    | none => rfl
    | some weight =>
      obtain ⟨pair, folded, hsome, hends, -⟩ := (lookup_projectedRow hnode).mp hlook
      obtain ⟨-, hleft, hright⟩ := foldedInput_ends (mem_of_getElem? hsome)
      have hfirst := idxOf_lt_length_iff.mpr hleft
      have hsecond := idxOf_lt_length_iff.mpr hright
      rcases hends with ⟨-, hend⟩ | ⟨-, hend⟩ <;> omega
  · have hlen : (projectGroundedRelates input config).adjacency.length =
        (projectGroundedRelates input config).nodeIds.length := by
      have hrows : (projectGroundedRelates input config).adjacency =
          ((projectGroundedRelates input config).edges.foldl linkEdge
            (replicate (projectGroundedRelates input config).nodeIds.length [])).map
            (·.insertionSort fun left right => left.1 ≤ right.1) := rfl
      rw [hrows, length_map, linkedEdges_length, length_replicate]
    rw [getD_eq_default _ _ (hlen.trans_le (Nat.le_of_not_lt hnode))]
    rfl

/-- The weight between two nodes changes only where one of them is an end of an edge that was added
or removed. -/
theorem changed_weights_are_dirty (hnodes : (projectGroundedRelates old config).nodeIds =
      (projectGroundedRelates new config).nodeIds) {node neighbor : Nat}
    (hchanged : (projectGroundedRelates old config).weightBetween node neighbor ≠
      (projectGroundedRelates new config).weightBetween node neighbor) :
    node ∈ dirtyNodes (projectGroundedRelates new config) (dirtyNodeIds old new) ∨
      neighbor ∈ dirtyNodes (projectGroundedRelates new config) (dirtyNodeIds old new) := by
  by_contra hclean
  rw [not_or] at hclean
  apply hchanged
  unfold ProjectedGraph.weightBetween
  by_cases hout : (projectGroundedRelates new config).nodeIds.length ≤ node ∨
      (projectGroundedRelates new config).nodeIds.length ≤ neighbor
  · have hbef : (projectGroundedRelates old config).nodeIds.length ≤ node ∨
        (projectGroundedRelates old config).nodeIds.length ≤ neighbor := by
      rw [hnodes]
      exact hout
    rw [lookup_out_of_range hout, lookup_out_of_range hbef]
  · have hnode : node < (projectGroundedRelates new config).nodeIds.length := by omega
    have hneigh : neighbor < (projectGroundedRelates new config).nodeIds.length := by omega
    have hclea : ∀ i < (projectGroundedRelates new config).nodeIds.length,
        i ∉ dirtyNodes (projectGroundedRelates new config) (dirtyNodeIds old new) →
          (projectGroundedRelates new config).nodeIds.getD i "" ∉ dirtyNodeIds old new := by
      intro i hi hnot hdirty
      apply hnot
      rw [dirtyNodes, List.mem_filter, List.mem_range]
      exact ⟨hi, decide_eq_true hdirty⟩
    rw [lookup_eq_of_notMem hnodes hnode hneigh (hclea _ hnode hclean.1)
      (hclea _ hneigh hclean.2)]

end Changed

/-- With room for one edge at each node, an edge from `a` to `c` takes weight from the edge between
`a` and `b`. -/
theorem changed_weights_are_dirty_hub : (projectGroundedRelates [⟨"e1", "a", "b"⟩, ⟨"e2", "c", "d"⟩]
        (⟨1, 3, 1⟩ : ProjectionConfig ℚ)).weightBetween 0 1 = 1 ∧
      (projectGroundedRelates [⟨"e1", "a", "b"⟩, ⟨"e2", "c", "d"⟩, ⟨"e3", "a", "c"⟩]
        (⟨1, 3, 1⟩ : ProjectionConfig ℚ)).weightBetween 0 1 = 1 / 2 ∧
      ∃ node ∈ [0, 1], node ∈ dirtyNodes
        (projectGroundedRelates [⟨"e1", "a", "b"⟩, ⟨"e2", "c", "d"⟩, ⟨"e3", "a", "c"⟩]
          (⟨1, 3, 1⟩ : ProjectionConfig ℚ))
        (dirtyNodeIds [⟨"e1", "a", "b"⟩, ⟨"e2", "c", "d"⟩]
          [⟨"e1", "a", "b"⟩, ⟨"e2", "c", "d"⟩, ⟨"e3", "a", "c"⟩]) := by
  refine ⟨by decide +kernel, by decide +kernel, ?_⟩
  have hdirty := @changed_weights_are_dirty ℚ _ _ _ [⟨"e1", "a", "b"⟩, ⟨"e2", "c", "d"⟩]
    [⟨"e1", "a", "b"⟩, ⟨"e2", "c", "d"⟩, ⟨"e3", "a", "c"⟩] ⟨1, 3, 1⟩ (by decide +kernel) 0 1
    (by decide +kernel)
  rcases hdirty with hfirst | hsecond
  · exact ⟨0, by decide, hfirst⟩
  · exact ⟨1, by decide, hsecond⟩

end Wenlan.Community
