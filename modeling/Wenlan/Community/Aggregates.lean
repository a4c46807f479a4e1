import Wenlan.Community.Accounts
import Wenlan.Support.MapSum
import Wenlan.Support.WeightedPartition

/-!
# States and the graphs they describe

Over exact weights a state describes a weighted graph and a partition of it when its six
aggregates are the graph's own sums.  Patching one pair and moving one node keep it so, for
the graph with that weight changed and the partition with that node moved.
-/

namespace Wenlan.Community

open Std Finset Support.MapSum Support.WeightedPartition

def squareSum (map : ExtTreeMap Nat ℚ) : ℚ := entrySum (fun _ value => square value) map

theorem square_zero : square (0 : ℚ) = 0 := mul_zero 0

/-! ## Describing a graph -/

def IncrementalPartitionState.nodes (state : IncrementalPartitionState ℚ) : Finset Nat :=
  range state.partition.membership.length

/-- The state's aggregates are the sums of the graph with weights `A` under its own
membership. -/
structure Describes (A : Nat → Nat → ℚ) (state : IncrementalPartitionState ℚ) : Prop where
  adjacency_length : state.adjacency.length = state.partition.membership.length
  degrees_length : state.weightedDegrees.length = state.partition.membership.length
  undirected : Undirected state.nodes A
  rows : ∀ i j, (state.adjacency.getD i ∅).getD j 0 = A i j
  degrees : ∀ i, i < state.partition.membership.length →
    state.weightedDegrees.getD i 0 = degree state.nodes A i
  volumes : ∀ c, state.communityDegrees.getD c 0 = volume state.nodes A state.communityOf c
  squares : state.sumCommunityDegreeSquares = squareSum state.communityDegrees
  total : 2 * state.totalEdgeWeight = total state.nodes A
  internal : 2 * state.totalInternalWeight = internal state.nodes A state.communityOf
  below_next : ∀ i, i < state.partition.membership.length →
    state.communityOf i < state.nextCommunity

section Steps

variable {A : Nat → Nat → ℚ} {state : IncrementalPartitionState ℚ}

theorem adjusted_getD (community other : Nat) (delta : ℚ) :
    (state.adjustCommunityDegree community delta).communityDegrees.getD other 0 =
      state.communityDegrees.getD other 0 + if community = other then delta else 0 := by
  unfold IncrementalPartitionState.adjustCommunityDegree
  rw [getD_insert]
  split
  · rename_i heq
    rw [heq]
  · rw [add_zero]

theorem adjusted_squares (community : Nat) (delta : ℚ)
    (h : state.sumCommunityDegreeSquares = squareSum state.communityDegrees) :
    (state.adjustCommunityDegree community delta).sumCommunityDegreeSquares =
      squareSum (state.adjustCommunityDegree community delta).communityDegrees := by
  unfold IncrementalPartitionState.adjustCommunityDegree
  unfold squareSum at h ⊢
  rw [entrySum_insert fun _ => square_zero, h]

theorem getD_modify {α : Type} {values : List α} {i : Nat} (hi : i < values.length) (j : Nat)
    (f : α → α) (absent : α) : (values.modify i f).getD j absent =
      if i = j then f (values.getD j absent) else values.getD j absent := by
  rw [List.getD_eq_getElem?_getD, List.getD_eq_getElem?_getD]
  by_cases hij : i = j
  · subst hij
    rw [List.getElem?_modify_eq, List.getElem?_eq_getElem hi, if_pos rfl]
    rfl
  · rw [List.getElem?_modify_ne _ _ hij, if_neg hij]

theorem getD_modify_both {degrees : List ℚ} {src dst : Nat} (hsrc : src < degrees.length)
    (hdst : dst < degrees.length) (hne : src ≠ dst) (delta : ℚ) (i : Nat) :
    ((degrees.modify src (· + delta)).modify dst (· + delta)).getD i 0 =
      degrees.getD i 0 + ((if i = src then delta else 0) + if i = dst then delta else 0) := by
  have hdst' : dst < (degrees.modify src (· + delta)).length := by
    rw [List.length_modify]
    exact hdst
  rw [getD_modify hdst', getD_modify hsrc]
  by_cases his : i = src
  · subst his
    rw [if_neg hne.symm, if_pos rfl, if_pos rfl, if_neg hne, add_zero]
  · rw [if_neg (Ne.symm his), if_neg his, zero_add]
    by_cases hit : i = dst
    · rw [if_pos hit.symm, if_pos hit]
    · rw [if_neg (Ne.symm hit), if_neg hit, add_zero]

variable {node : Nat}

theorem row_setNeighborWeight {adjacency : List (ExtTreeMap Nat ℚ)}
    (hnode : node < adjacency.length) (neighbor : Nat) (weight : ℚ) (i j : Nat) :
    ((setNeighborWeight adjacency node neighbor weight).getD i ∅).getD j 0 =
      if i = node ∧ j = neighbor then weight else (adjacency.getD i ∅).getD j 0 := by
  unfold setNeighborWeight
  rw [List.getD_eq_getElem?_getD, List.getD_eq_getElem?_getD]
  by_cases hi : node = i
  · subst hi
    rw [List.getElem?_modify_eq, List.getElem?_eq_getElem hnode]
    simp only [Option.map_eq_map, Option.map_some, Option.getD_some, true_and, beq_iff_eq]
    by_cases hweigh : weight = 0
    · rw [if_pos hweigh, ExtTreeMap.getD_erase, hweigh]
      exact if_congr (Nat.compare_eq_eq.trans eq_comm) rfl rfl
    · rw [if_neg hweigh, getD_insert]
      exact if_congr eq_comm rfl rfl
  · rw [List.getElem?_modify_ne _ _ hi, if_neg fun h => hi h.1.symm]

theorem patchPair_describes (graph : ProjectedGraph ℚ) {update : Update ℚ} {src dst : Nat}
    (h : Describes A update.state) (hsrc : src < update.state.partition.membership.length)
    (hdst : dst < update.state.partition.membership.length) (hne : src ≠ dst) :
    Describes (bump A src dst (graph.weightBetween src dst - A src dst))
      (patchPair graph update (src, dst)).state := by
  have hold := h.rows src dst
  have hsrcN : src ∈ update.state.nodes := mem_range.mpr hsrc
  have hdstN : dst ∈ update.state.nodes := mem_range.mpr hdst
  unfold patchPair
  dsimp only
  rw [hold]
  split
  · rename_i hzero
    have hdelta : graph.weightBetween src dst - A src dst = 0 := by simpa using hzero
    have hsame : bump A src dst (graph.weightBetween src dst - A src dst) = A := by
      funext i j
      unfold bump
      rw [hdelta, ite_self, add_zero]
    rw [hsame]
    exact h
  · generalize hdelta : graph.weightBetween src dst - A src dst = delta
    have hnew : graph.weightBetween src dst = A src dst + delta := by
      rw [← hdelta]
      ring
    rw [hnew]
    refine ⟨?_, ?_, h.undirected.bump delta hsrcN hdstN hne, ?_, ?_, ?_, ?_, ?_, ?_, h.below_next⟩
    · unfold setNeighborWeight
      rw [List.length_modify, List.length_modify]
      exact h.adjacency_length
    · unfold IncrementalPartitionState.adjustCommunityDegree
      rw [List.length_modify, List.length_modify]
      exact h.degrees_length
    · intro i j
      have hsrcLt : src < update.state.adjacency.length := h.adjacency_length ▸ hsrc
      have hdstLt : dst < (setNeighborWeight update.state.adjacency src dst
          (A src dst + delta)).length := by
        unfold setNeighborWeight
        rw [List.length_modify, h.adjacency_length]
        exact hdst
      rw [row_setNeighborWeight hdstLt, row_setNeighborWeight hsrcLt, h.rows]
      unfold bump
      by_cases hforth : i = src ∧ j = dst
      · obtain ⟨rfl, rfl⟩ := hforth
        simp [hne]
      · by_cases hback : i = dst ∧ j = src
        · obtain ⟨rfl, rfl⟩ := hback
          simp [h.undirected.symm i j]
        · have hoff : ¬ (i = src ∧ j = dst ∨ i = dst ∧ j = src) := by
            rintro (hpair | hpair)
            · exact hforth hpair
            · exact hback hpair
          rw [if_neg hback, if_neg hforth, if_neg hoff, add_zero]
    · intro i hi
      have hsrcLt : src < update.state.weightedDegrees.length := h.degrees_length ▸ hsrc
      have hdstLt : dst < update.state.weightedDegrees.length := h.degrees_length ▸ hdst
      refine Eq.trans ?_ (degree_bump delta hsrcN hdstN hne i).symm
      refine Eq.trans ?_ (congrArg (· + _) (h.degrees i hi))
      exact getD_modify_both hsrcLt hdstLt hne delta i
    · intro c
      refine (adjusted_getD _ _ _).trans ?_
      rw [adjusted_getD]
      refine Eq.trans ?_ (volume_bump delta hsrcN hdstN hne c).symm
      have hvol := h.volumes c
      rw [hvol, add_assoc]
      rfl
    · exact adjusted_squares _ _ (adjusted_squares _ _ h.squares)
    · refine Eq.trans ?_ (total_bump delta hsrcN hdstN hne).symm
      have htotal := h.total
      linarith
    · have hinter := h.internal
      have hbump := internal_bump (m := update.state.communityOf) delta hsrcN hdstN hne
        (A := A)
      refine Eq.trans ?_ hbump.symm
      by_cases hsame : update.state.communityOf src = update.state.communityOf dst
      · rw [if_pos hsame, if_pos hsame]
        linarith
      · rw [if_neg hsame, if_neg hsame]
        linarith

theorem communityOf_moveNode (incident : ExtTreeMap Nat ℚ) (candidate : Nat)
    (hnode : node < state.partition.membership.length) :
    (moveNode state incident node candidate).communityOf =
      Function.update state.communityOf node candidate := by
  funext other
  have hset : (moveNode state incident node candidate).communityOf other =
      if node = other ∧ node < state.partition.membership.length then candidate
      else state.communityOf other := communityOf_set
  rw [hset, Function.update_apply]
  exact if_congr ⟨fun h => h.1.symm, fun h => ⟨h.symm, hnode⟩⟩ rfl rfl

/-- Moving a node changes the partition and not the graph. -/
theorem moveNode_describes (h : Describes A state) {map : ExtTreeMap Nat ℚ}
    {candidate : Nat} (hnode : node < state.partition.membership.length)
    (hinc : ∀ c, map.getD c 0 = incident state.nodes A state.communityOf node c)
    (hcand : candidate ≤ state.nextCommunity) :
    Describes A (moveNode state map node candidate) := by
  have hmemb : node ∈ state.nodes := mem_range.mpr hnode
  have hlen : (moveNode state map node candidate).partition.membership.length =
      state.partition.membership.length := List.length_set
  have hnodes : (moveNode state map node candidate).nodes = state.nodes :=
    congrArg range hlen
  have hcom := communityOf_moveNode map candidate hnode
  refine ⟨?_, ?_, ?_, h.rows, ?_, ?_, ?_, ?_, ?_, ?_⟩
  · rw [hlen]
    exact h.adjacency_length
  · rw [hlen]
    exact h.degrees_length
  · rw [hnodes]
    exact h.undirected
  · intro i hi
    rw [hnodes]
    exact h.degrees i (hlen ▸ hi)
  · intro c
    rw [hnodes, hcom, volume_update hmemb]
    refine (adjusted_getD _ _ _).trans ?_
    rw [adjusted_getD]
    have hvol := h.volumes c
    have hdegr := h.degrees node hnode
    rw [hvol, hdegr]
    by_cases hold : state.communityOf node = c
    · rw [if_pos hold, if_pos hold]
      ring
    · rw [if_neg hold, if_neg hold]
      ring
  · exact adjusted_squares _ _ (adjusted_squares _ _ h.squares)
  · rw [hnodes]
    exact h.total
  · rw [hnodes, hcom, internal_update h.undirected hmemb, ← hinc, ← hinc]
    have hinter := h.internal
    change 2 * (state.totalInternalWeight +
      (map.getD candidate 0 - map.getD (state.communityOf node) 0)) = _
    linarith
  · intro i hi
    have hbelow := h.below_next i (hlen ▸ hi)
    have hnext : (moveNode state map node candidate).nextCommunity =
        if candidate = state.nextCommunity then state.nextCommunity + 1
        else state.nextCommunity := rfl
    rw [hcom, Function.update_apply, hnext]
    split
    all_goals split <;> omega

end Steps

end Wenlan.Community
