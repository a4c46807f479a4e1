import Wenlan.Community.Aggregates

/-!
# The weights of a projected graph

The edges of a projected graph as a matrix of weights.  What the code adds up edge by edge
are the sums of that matrix.
-/

namespace Wenlan.Community

open Std Finset Support.MapSum Support.WeightedPartition

def entryWeight (m : Nat → Nat) (c : Nat) (entries : List (Nat × ℚ)) : ℚ :=
  (entries.map fun entry => if m entry.1 = c then entry.2 else 0).sum

section Entries

variable {entries : List (Nat × ℚ)} {key : Nat}

theorem entryWeight_cons (other : Nat) (weight : ℚ) :
    entryWeight id key ((other, weight) :: entries) =
      (if other = key then weight else 0) + entryWeight id key entries := by
  unfold entryWeight
  rw [List.map_cons, List.sum_cons]
  rfl

theorem entryWeight_append (m : Nat → Nat) (c : Nat) (entry : Nat × ℚ) :
    entryWeight m c (entries ++ [entry]) =
      entryWeight m c entries + if m entry.1 = c then entry.2 else 0 := by
  unfold entryWeight
  rw [List.map_append, List.sum_append, List.map_singleton, List.sum_singleton]

theorem entryWeight_perm {m : Nat → Nat} {c : Nat} {other : List (Nat × ℚ)}
    (h : entries.Perm other) : entryWeight m c entries = entryWeight m c other :=
  (h.map _).sum_eq

theorem entryWeight_absent (h : key ∉ entries.map Prod.fst) : entryWeight id key entries = 0 := by
  refine List.sum_eq_zero fun value hvalue => ?_
  obtain ⟨entry, hentry, rfl⟩ := List.mem_map.mp hvalue
  refine if_neg fun hsame => h ?_
  exact List.mem_map.mpr ⟨entry, hentry, hsame⟩

section

variable (hnodup : (entries.map Prod.fst).Nodup)
include hnodup

theorem entryWeight_mem {entry : Nat × ℚ}
    (hentry : entry ∈ entries) : entryWeight id entry.1 entries = entry.2 := by
  induction entries with
  | nil => simp at hentry
  | cons head entries ih =>
    rw [List.map_cons, List.nodup_cons] at hnodup
    rw [entryWeight_cons head.1 head.2]
    rcases List.mem_cons.mp hentry with rfl | hlater
    · rw [if_pos rfl, entryWeight_absent hnodup.1, add_zero]
    · have hne : head.1 ≠ entry.1 := by
        intro hsame
        exact hnodup.1 (hsame ▸ List.mem_map_of_mem hlater)
      rw [if_neg hne, zero_add, ih hnodup.2 hlater]

theorem lookup_eq_entryWeight :
    (entries.lookup key).getD 0 = entryWeight id key entries := by
  induction entries with
  | nil => rfl
  | cons entry entries ih =>
    obtain ⟨other, weight⟩ := entry
    rw [List.map_cons, List.nodup_cons] at hnodup
    rw [entryWeight_cons]
    by_cases hkey : other = key
    · subst hkey
      rw [List.lookup_cons_self, if_pos rfl, entryWeight_absent hnodup.1, add_zero]
      rfl
    · have hne : (key == other) = false := beq_eq_false_iff_ne.mpr (Ne.symm hkey)
      rw [List.lookup_cons, hne, if_neg hkey, zero_add]
      exact ih hnodup.2

/-- A map filled from distinct keys holds what the entries add up to. -/
theorem insertAll_eq_entryWeight :
    (entries.foldl (fun (known : ExtTreeMap Nat ℚ) (neighbor, weight) =>
      known.insert neighbor weight) ∅).getD key 0 = entryWeight id key entries := by
  have hfold : ∀ (map : ExtTreeMap Nat ℚ),
      (entries.foldl (fun (known : ExtTreeMap Nat ℚ) (neighbor, weight) =>
        known.insert neighbor weight) map).getD key 0 =
        if key ∈ entries.map Prod.fst then entryWeight id key entries else map.getD key 0 := by
    induction entries with
    | nil => intro map; rfl
    | cons entry entries ih =>
      obtain ⟨other, weight⟩ := entry
      intro map
      rw [List.map_cons, List.nodup_cons] at hnodup
      rw [List.foldl_cons, ih hnodup.2, List.map_cons, entryWeight_cons]
      by_cases hlater : key ∈ entries.map Prod.fst
      · have hne : other ≠ key := by
          rintro rfl
          exact hnodup.1 hlater
        rw [if_pos hlater, if_pos (List.mem_cons_of_mem _ hlater), if_neg hne, zero_add]
      · rw [if_neg hlater, getD_insert, entryWeight_absent hlater, add_zero]
        by_cases hkey : other = key
        · rw [if_pos hkey, if_pos hkey, if_pos (List.mem_cons.mpr (.inl hkey.symm))]
        · have hnone : key ∉ other :: entries.map Prod.fst := by
            intro hmem
            rcases List.mem_cons.mp hmem with heq | hmem
            · exact hkey heq.symm
            · exact hlater hmem
          rw [if_neg hkey, if_neg hnone]
  rw [hfold]
  by_cases hmem : key ∈ entries.map Prod.fst
  · rw [if_pos hmem]
  · rw [if_neg hmem, entryWeight_absent hmem]
    rfl

end

end Entries

/-! ## The matrix of the edges -/

def Loopless (nodeCount : Nat) (edges : List (ProjectedEdge ℚ)) : Prop :=
  ∀ edge ∈ edges, edge.src < nodeCount ∧ edge.dst < nodeCount ∧ edge.src ≠ edge.dst

def ProjectedEdge.Joins (edge : ProjectedEdge ℚ) (node neighbor : Nat) : Prop :=
  edge.src = node ∧ edge.dst = neighbor ∨ edge.src = neighbor ∧ edge.dst = node

/-- Two edges between the same nodes. -/
def Parallel (left right : ProjectedEdge ℚ) : Prop := left.Joins right.src right.dst

def edgeMatrix (edges : List (ProjectedEdge ℚ)) : Nat → Nat → ℚ :=
  edges.foldl (fun A edge => bump A edge.src edge.dst edge.weight) fun _ _ => 0

section Matrix

variable {nodeCount : Nat} {edges : List (ProjectedEdge ℚ)} {edge : ProjectedEdge ℚ}

theorem edgeMatrix_concat :
    edgeMatrix (edges ++ [edge]) = bump (edgeMatrix edges) edge.src edge.dst edge.weight :=
  List.foldl_concat _ _ _ _

theorem Loopless.init (h : Loopless nodeCount (edges ++ [edge])) : Loopless nodeCount edges :=
  fun other hother => h other (List.mem_append_left _ hother)

theorem Loopless.last (h : Loopless nodeCount (edges ++ [edge])) :
    edge.src ∈ range nodeCount ∧ edge.dst ∈ range nodeCount ∧ edge.src ≠ edge.dst := by
  obtain ⟨hsrc, hdst, hne⟩ := h edge (List.mem_append_right _ (List.mem_singleton_self edge))
  exact ⟨mem_range.mpr hsrc, mem_range.mpr hdst, hne⟩

theorem edgeMatrix_undirected (h : Loopless nodeCount edges) :
    Undirected (range nodeCount) (edgeMatrix edges) := by
  induction edges using List.reverseRecOn with
  | nil => exact ⟨fun _ _ => rfl, fun _ => rfl, fun _ _ hne => absurd rfl hne⟩
  | append_singleton edges edge ih =>
    obtain ⟨hsrc, hdst, hne⟩ := h.last
    rw [edgeMatrix_concat]
    exact (ih h.init).bump edge.weight hsrc hdst hne

theorem weighEdges_getD (h : Loopless nodeCount edges) {node : Nat} (hnode : node < nodeCount) :
    (edges.foldl weighEdge (List.replicate nodeCount 0)).getD node 0 =
      degree (range nodeCount) (edgeMatrix edges) node := by
  induction edges using List.reverseRecOn with
  | nil =>
    unfold degree edgeMatrix
    rw [List.foldl_nil, List.foldl_nil, List.getD_replicate _ hnode, sum_const_zero]
  | append_singleton edges edge ih =>
    obtain ⟨hsrc, hdst, hne⟩ := h.last
    have hlen : (edges.foldl weighEdge (List.replicate nodeCount (0 : ℚ))).length =
        nodeCount := by
      rw [weighedEdges_length, List.length_replicate]
    have hsrcLt : edge.src < (edges.foldl weighEdge (List.replicate nodeCount 0)).length := by
      rw [hlen]
      exact mem_range.mp hsrc
    have hdstLt : edge.dst < (edges.foldl weighEdge (List.replicate nodeCount 0)).length := by
      rw [hlen]
      exact mem_range.mp hdst
    rw [edgeMatrix_concat, degree_bump edge.weight hsrc hdst hne, ← ih h.init, List.foldl_concat]
    exact getD_modify_both hsrcLt hdstLt hne edge.weight node

theorem totalWeight_eq (h : Loopless nodeCount edges) :
    2 * edges.foldl (fun total edge => total + edge.weight) 0 =
      total (range nodeCount) (edgeMatrix edges) := by
  induction edges using List.reverseRecOn with
  | nil =>
    unfold total degree edgeMatrix
    simp
  | append_singleton edges edge ih =>
    obtain ⟨hsrc, hdst, hne⟩ := h.last
    rw [edgeMatrix_concat, total_bump edge.weight hsrc hdst hne, ← ih h.init, List.foldl_concat]
    ring

def internalOf (m : Nat → Nat) (edges : List (ProjectedEdge ℚ)) : ℚ :=
  edges.foldl (fun sum edge => if m edge.src = m edge.dst then sum + edge.weight else sum) 0

theorem internalOf_eq (h : Loopless nodeCount edges) (m : Nat → Nat) :
    2 * internalOf m edges = internal (range nodeCount) (edgeMatrix edges) m := by
  induction edges using List.reverseRecOn with
  | nil =>
    unfold internal incident edgeMatrix internalOf
    simp
  | append_singleton edges edge ih =>
    obtain ⟨hsrc, hdst, hne⟩ := h.last
    have hih := ih h.init
    rw [edgeMatrix_concat, internal_bump edge.weight hsrc hdst hne, ← hih]
    unfold internalOf
    rw [List.foldl_concat]
    split
    · ring
    · ring

theorem linkEdge_getD {adjacency : List (List (Nat × ℚ))} (hsrc : edge.src < adjacency.length)
    (hdst : edge.dst < adjacency.length) (hne : edge.src ≠ edge.dst) (node : Nat) :
    (linkEdge adjacency edge).getD node [] =
      if node = edge.src then adjacency.getD node [] ++ [(edge.dst, edge.weight)]
      else if node = edge.dst then adjacency.getD node [] ++ [(edge.src, edge.weight)]
      else adjacency.getD node [] := by
  have hdst' : edge.dst <
      (adjacency.modify edge.src (· ++ [(edge.dst, edge.weight)])).length := by
    rw [List.length_modify]
    exact hdst
  unfold linkEdge
  rw [getD_modify hdst', getD_modify hsrc]
  by_cases hn : node = edge.src
  · subst hn
    rw [if_neg hne.symm, if_pos rfl, if_pos rfl]
  · rw [if_neg (Ne.symm hn), if_neg hn]
    exact if_congr eq_comm rfl rfl

theorem linkedEdges_lt {node : Nat} (hnode : node ∈ range nodeCount) :
    node < (edges.foldl linkEdge (List.replicate nodeCount [])).length := by
  rw [linkedEdges_length, List.length_replicate]
  exact mem_range.mp hnode

theorem linkedEdges_weight (h : Loopless nodeCount edges) {node : Nat} (hnode : node < nodeCount)
    (m : Nat → Nat) (c : Nat) :
    entryWeight m c ((edges.foldl linkEdge (List.replicate nodeCount [])).getD node []) =
      incident (range nodeCount) (edgeMatrix edges) m node c := by
  induction edges using List.reverseRecOn with
  | nil =>
    unfold incident edgeMatrix
    rw [List.foldl_nil, List.foldl_nil, List.getD_replicate _ hnode, sum_const_zero]
    rfl
  | append_singleton edges edge ih =>
    obtain ⟨hsrc, hdst, hne⟩ := h.last
    rw [edgeMatrix_concat, incident_bump edge.weight hsrc hdst hne, ← ih h.init,
      List.foldl_concat, linkEdge_getD (linkedEdges_lt hsrc) (linkedEdges_lt hdst) hne]
    by_cases hn : node = edge.src
    · have hother : ¬ (node = edge.dst ∧ m edge.src = c) := by
        rintro ⟨hsame, -⟩
        exact hne (hn.symm.trans hsame)
      rw [if_pos hn, entryWeight_append, if_neg hother, add_zero]
      congr 1
      exact if_congr (by simp [hn]) rfl rfl
    · have hother : ¬ (node = edge.src ∧ m edge.dst = c) := fun hboth => hn hboth.1
      rw [if_neg hn, if_neg hother, zero_add]
      by_cases hm : node = edge.dst
      · rw [if_pos hm, entryWeight_append]
        congr 1
        exact if_congr (by simp [hm]) rfl rfl
      · rw [if_neg hm, if_neg fun hboth => hm hboth.1, add_zero]

structure Listed (edges : List (ProjectedEdge ℚ)) (node : Nat) (entries : List (Nat × ℚ)) :
    Prop where
  nodup : (entries.map Prod.fst).Nodup
  joined : ∀ entry ∈ entries, ∃ edge ∈ edges, edge.Joins node entry.1 ∧ edge.weight = entry.2

section Listed

variable {node : Nat} {entries : List (Nat × ℚ)}

theorem Listed.of_init (h : Listed edges node entries) : Listed (edges ++ [edge]) node entries where
  nodup := h.nodup
  joined entry hentry := by
    obtain ⟨other, hother, hends⟩ := h.joined entry hentry
    exact ⟨other, List.mem_append_left _ hother, hends⟩

theorem Listed.append (h : Listed edges node entries) {neighbor : Nat}
    (hends : edge.Joins node neighbor) (hnew : ∀ other ∈ edges, ¬ Parallel other edge) :
    Listed (edges ++ [edge]) node (entries ++ [(neighbor, edge.weight)]) := by
  have hfresh : neighbor ∉ entries.map Prod.fst := by
    intro hmem
    obtain ⟨entry, hentry, hname⟩ := List.mem_map.mp hmem
    obtain ⟨other, hother, hjoins, -⟩ := h.joined entry hentry
    rw [hname] at hjoins
    refine hnew other hother ?_
    rcases hjoins with ⟨hsrc, hdst⟩ | ⟨hsrc, hdst⟩
    · rcases hends with ⟨rfl, rfl⟩ | ⟨rfl, rfl⟩
      · exact .inl ⟨hsrc, hdst⟩
      · exact .inr ⟨hsrc, hdst⟩
    · rcases hends with ⟨rfl, rfl⟩ | ⟨rfl, rfl⟩
      · exact .inr ⟨hsrc, hdst⟩
      · exact .inl ⟨hsrc, hdst⟩
  refine ⟨?_, ?_⟩
  · rw [List.map_append, List.nodup_append]
    refine ⟨h.nodup, List.nodup_singleton _, ?_⟩
    rintro other hother last hlast rfl
    rw [List.mem_singleton.mp hlast] at hother
    exact hfresh hother
  · intro entry hentry
    rcases List.mem_append.mp hentry with hold | hlast
    · exact h.of_init.joined entry hold
    · rw [List.mem_singleton.mp hlast]
      exact ⟨edge, List.mem_append_right _ (List.mem_singleton_self edge), hends, rfl⟩

theorem Listed.sorted (h : Listed edges node entries) :
    Listed edges node (entries.insertionSort fun left right => left.1 ≤ right.1) := by
  refine ⟨?_, ?_⟩
  · rw [((List.perm_insertionSort _ _).map _).nodup_iff]
    exact h.nodup
  · intro entry hentry
    exact h.joined entry ((List.mem_insertionSort _).mp hentry)

end Listed

theorem linkedEdges_listed (h : Loopless nodeCount edges)
    (hdist : edges.Pairwise fun left right => ¬ Parallel left right) {node : Nat}
    (hnode : node < nodeCount) :
    Listed edges node ((edges.foldl linkEdge (List.replicate nodeCount [])).getD node []) := by
  induction edges using List.reverseRecOn with
  | nil =>
    rw [List.foldl_nil, List.getD_replicate _ hnode]
    exact ⟨List.nodup_nil, by simp⟩
  | append_singleton edges edge ih =>
    obtain ⟨hsrc, hdst, hne⟩ := h.last
    rw [List.pairwise_append] at hdist
    have hlist := ih h.init hdist.1
    have hnew : ∀ other ∈ edges, ¬ Parallel other edge := fun other hother =>
      hdist.2.2 other hother edge (List.mem_singleton_self edge)
    rw [List.foldl_concat, linkEdge_getD (linkedEdges_lt hsrc) (linkedEdges_lt hdst) hne]
    split
    · rename_i hn
      exact hlist.append (.inl ⟨hn.symm, rfl⟩) hnew
    · split
      · rename_i hn
        exact hlist.append (.inr ⟨rfl, hn.symm⟩) hnew
      · exact hlist.of_init

def degreeWeightOf (m : Nat → Nat) (edges : List (ProjectedEdge ℚ)) : ExtTreeMap Nat ℚ :=
  edges.foldl (fun degrees edge =>
    addAt (addAt degrees (m edge.src) edge.weight) (m edge.dst) edge.weight) ∅

def internalWeightOf (m : Nat → Nat) (edges : List (ProjectedEdge ℚ)) : ExtTreeMap Nat ℚ :=
  edges.foldl (fun internals edge =>
    if m edge.src = m edge.dst then addAt internals (m edge.src) edge.weight else internals) ∅

theorem getD_addAt (map : ExtTreeMap Nat ℚ) (key other : Nat) (weight : ℚ) :
    (addAt map key weight).getD other 0 =
      map.getD other 0 + if key = other then weight else 0 := by
  unfold addAt
  rw [getD_insert]
  by_cases hkey : key = other
  · rw [if_pos hkey, if_pos hkey, hkey]
  · rw [if_neg hkey, if_neg hkey, add_zero]

theorem degreeWeightOf_getD (h : Loopless nodeCount edges) (m : Nat → Nat) (c : Nat) :
    (degreeWeightOf m edges).getD c 0 = volume (range nodeCount) (edgeMatrix edges) m c := by
  induction edges using List.reverseRecOn with
  | nil =>
    unfold volume degree edgeMatrix degreeWeightOf
    simp
  | append_singleton edges edge ih =>
    obtain ⟨hsrc, hdst, hne⟩ := h.last
    have hih := ih h.init
    rw [edgeMatrix_concat, volume_bump edge.weight hsrc hdst hne, ← hih]
    unfold degreeWeightOf
    rw [List.foldl_concat, getD_addAt, getD_addAt, add_assoc]

theorem internalWeightOf_sum (m : Nat → Nat) :
    entrySum (fun _ weight => weight) (internalWeightOf m edges) = internalOf m edges := by
  induction edges using List.reverseRecOn with
  | nil => rfl
  | append_singleton edges edge ih =>
    unfold internalWeightOf internalOf at ih ⊢
    rw [List.foldl_concat, List.foldl_concat, ← ih]
    split
    · unfold addAt
      rw [entrySum_insert fun _ => rfl]
      ring
    · rfl

theorem internalWeightOf_mem (m : Nat → Nat) :
    ∀ c ∈ internalWeightOf m edges, c ∈ degreeWeightOf m edges := by
  induction edges using List.reverseRecOn with
  | nil => exact fun _ hmem => hmem
  | append_singleton edges edge ih =>
    intro c hmem
    unfold internalWeightOf at ih hmem
    unfold degreeWeightOf at ih ⊢
    rw [List.foldl_concat] at hmem ⊢
    rw [mem_addAt, mem_addAt]
    split at hmem
    · rcases mem_addAt.mp hmem with hlast | hold
      · exact .inr (.inl hlast)
      · exact .inr (.inr (ih c hold))
    · exact .inr (.inr (ih c hmem))

theorem modularity_eq (graph : ProjectedGraph ℚ) (membership : List Nat) :
    modularity graph membership = modularityFromTotals graph.totalEdgeWeight
      (internalOf (membership.getD · 0) graph.edges)
      (squareSum (degreeWeightOf (membership.getD · 0) graph.edges)) := by
  unfold modularity modularityFromTotals
  dsimp only
  split
  · rfl
  · rename_i hpositive
    have htotal : graph.totalEdgeWeight ≠ 0 := by
      intro hzero
      exact hpositive hzero.le
    obtain ⟨bound, hbound⟩ := exists_key_bound (degreeWeightOf (membership.getD · 0) graph.edges)
    have hinter : ∀ c ∈ internalWeightOf (membership.getD · 0) graph.edges, c < bound :=
      fun c hc => hbound c (internalWeightOf_mem _ c hc)
    have habs : ∀ c, c ∉ degreeWeightOf (membership.getD · 0) graph.edges →
        (internalWeightOf (membership.getD · 0) graph.edges).getD c 0 = 0 := by
      intro c hc
      exact ExtTreeMap.getD_eq_fallback fun hmem => hc (internalWeightOf_mem _ c hmem)
    rw [← internalWeightOf_sum]
    unfold squareSum
    rw [entrySum_eq hinter fun _ _ => rfl, entrySum_eq hbound fun _ _ => square_zero]
    refine Eq.trans (entrySum_eq hbound ?_) ?_
    · intro c hc
      have hmis := habs c hc
      unfold internalWeightOf at hmis
      rw [hmis, zero_div, zero_div, square_zero, sub_zero]
    · have hsquar : ∀ degree : ℚ, square (degree / (((2 : Nat) : ℚ) * graph.totalEdgeWeight)) =
          square degree / (((4 : Nat) : ℚ) * square graph.totalEdgeWeight) := by
        intro degree
        unfold square
        field_simp
        norm_num
      rw [sum_div, sum_div, ← sum_sub_distrib]
      refine sum_congr rfl fun c _ => ?_
      rw [hsquar]
      rfl

end Matrix

/-- All that a graph says is said by the weights `A`. -/
structure Represents (graph : ProjectedGraph ℚ) (A : Nat → Nat → ℚ) : Prop where
  undirected : Undirected (range graph.nodeIds.length) A
  adjacency_length : graph.adjacency.length = graph.nodeIds.length
  degrees_length : graph.weightedDegrees.length = graph.nodeIds.length
  nodup : ∀ node, ((graph.adjacency.getD node []).map Prod.fst).Nodup
  loopless : ∀ node, ∀ neighbor ∈ graph.neighborsOf node, neighbor ≠ node
  weights : ∀ node, ∀ entry ∈ graph.adjacency.getD node [],
    ∃ edge ∈ graph.edges, edge.weight = entry.2
  entries : ∀ node m c, entryWeight m c (graph.adjacency.getD node []) =
    incident (range graph.nodeIds.length) A m node c
  degrees : ∀ node, node < graph.nodeIds.length →
    graph.weightedDegrees.getD node 0 = degree (range graph.nodeIds.length) A node
  total : 2 * graph.totalEdgeWeight = total (range graph.nodeIds.length) A
  internal : ∀ m, 2 * internalOf m graph.edges = internal (range graph.nodeIds.length) A m
  volumes : ∀ m c,
    (degreeWeightOf m graph.edges).getD c 0 = volume (range graph.nodeIds.length) A m c

theorem incident_outside {nodes : Finset Nat} {A : Nat → Nat → ℚ} (h : Undirected nodes A)
    {node : Nat} (hnode : node ∉ nodes) (m : Nat → Nat) (c : Nat) :
    incident nodes A m node c = 0 := by
  refine sum_eq_zero fun neighbor _ => ?_
  by_contra hne
  exact hnode (h.inside node neighbor hne).1

theorem ofEdges_represents (nodeIds : List String) {edges : List (ProjectedEdge ℚ)}
    (h : Loopless nodeIds.length edges)
    (hdist : edges.Pairwise fun left right => ¬ Parallel left right) :
    Represents (ProjectedGraph.ofEdges nodeIds edges) (edgeMatrix edges) := by
  have hboun : Bounded (ProjectedGraph.ofEdges nodeIds edges) :=
    ofEdges_bounded fun edge hedge => ⟨(h edge hedge).1, (h edge hedge).2.1⟩
  have hund := edgeMatrix_undirected h
  have hadj : ∀ node, (ProjectedGraph.ofEdges nodeIds edges).adjacency.getD node [] =
      ((edges.foldl linkEdge (List.replicate nodeIds.length [])).getD node []).insertionSort
        fun left right => left.1 ≤ right.1 := by
    intro node
    unfold ProjectedGraph.ofEdges
    rw [List.getD_eq_getElem?_getD, List.getD_eq_getElem?_getD, List.getElem?_map]
    cases (edges.foldl linkEdge (List.replicate nodeIds.length []))[node]? with
    | none => rfl
    | some entries => rfl
  have houts : ∀ node, ¬ node < nodeIds.length →
      (edges.foldl linkEdge (List.replicate nodeIds.length [])).getD node [] = [] := by
    intro node hnode
    refine List.getD_eq_default _ _ ?_
    rw [linkedEdges_length, List.length_replicate]
    exact Nat.le_of_not_lt hnode
  have hlist : ∀ node, Listed edges node
      ((ProjectedGraph.ofEdges nodeIds edges).adjacency.getD node []) := by
    intro node
    rw [hadj]
    by_cases hnode : node < nodeIds.length
    · exact (linkedEdges_listed h hdist hnode).sorted
    · rw [houts node hnode]
      exact ⟨List.nodup_nil, by simp⟩
  refine ⟨hund, hboun.adjacency_length, hboun.degrees_length,
    fun node => (hlist node).nodup, ?_, ?_, ?_, ?_, totalWeight_eq h, internalOf_eq h,
    degreeWeightOf_getD h⟩
  · intro node neighbor hneighbor
    obtain ⟨entry, hentry, rfl⟩ := List.mem_map.mp hneighbor
    obtain ⟨edge, hedge, hends, -⟩ := (hlist node).joined entry hentry
    have hne := (h edge hedge).2.2
    rcases hends with ⟨rfl, hdst⟩ | ⟨hsrc, rfl⟩
    · exact fun hsame => hne (hdst.trans hsame).symm
    · exact fun hsame => hne (hsrc.trans hsame)
  · intro node entry hentry
    obtain ⟨edge, hedge, -, hweigh⟩ := (hlist node).joined entry hentry
    exact ⟨edge, hedge, hweigh⟩
  · intro node m c
    rw [hadj, entryWeight_perm (List.perm_insertionSort _ _)]
    by_cases hnode : node < nodeIds.length
    · exact linkedEdges_weight h hnode m c
    · have hnotin : node ∉ range nodeIds.length := fun hmem => hnode (mem_range.mp hmem)
      rw [houts node hnode]
      exact (incident_outside hund hnotin m c).symm
  · exact fun node hnode => weighEdges_getD h hnode

section Represents

variable {graph : ProjectedGraph ℚ} {A : Nat → Nat → ℚ}

/-- The entries at a node hold its row of the matrix. -/
theorem Represents.entry (h : Represents graph A) (node neighbor : Nat) :
    entryWeight id neighbor (graph.adjacency.getD node []) = A node neighbor := by
  rw [h.entries]
  unfold incident
  rw [sum_filter]
  simp only [id_eq]
  rw [sum_ite_eq', ite_eq_left_iff]
  intro hnotin
  by_contra hne
  exact hnotin (h.undirected.inside node neighbor (Ne.symm hne)).2

theorem Represents.weightBetween (h : Represents graph A) (src dst : Nat) :
    graph.weightBetween src dst = A src dst := by
  unfold ProjectedGraph.weightBetween
  rw [lookup_eq_entryWeight (h.nodup src), h.entry]

end Represents

/-! ## Projected edges -/

section

variable (input : List ProjectionInputEdge) (config : ProjectionConfig ℚ)

theorem foldedInput_sorted :
    ∀ pair ∈ (foldedInput input config).2, pair.1 < pair.2 := by
  refine List.foldlRecOn _ (foldInputEdge config)
    (motive := fun (folded : ExtTreeSet String × FoldedWeights ℚ) =>
      ∀ pair ∈ folded.2, pair.1 < pair.2) ?_ ?_
  · intro pair hpair
    simp at hpair
  · intro folded hfolde edge _ pair hpair
    unfold foldInputEdge at hpair
    split at hpair
    · exact hfolde pair hpair
    · rename_i hloop
      rw [ExtTreeMap.mem_insert, LawfulEqCmp.compare_eq_iff_eq] at hpair
      rcases hpair with rfl | hpair
      · split
        · assumption
        · rename_i hnot
          exact (Ne.lt_or_gt hloop).resolve_left hnot
      · exact hfolde pair hpair

theorem projectGroundedRelates_represents :
    ∃ A, Represents (projectGroundedRelates input config) A := by
  have hmem : ∀ entry ∈ (foldedInput input config).2.toList,
      entry.1 ∈ (foldedInput input config).2 := by
    intro entry hentry
    rw [ExtTreeMap.mem_iff_isSome_getElem?, ExtTreeMap.mem_toList_iff_getElem?_eq_some.mp hentry]
    rfl
  have hnodes : ∀ entry ∈ (foldedInput input config).2.toList,
      entry.1.1 ∈ (foldedInput input config).1.toList ∧
        entry.1.2 ∈ (foldedInput input config).1.toList := by
    intro entry hentry
    obtain ⟨hsrc, hdst⟩ := foldedInput_nodes input config entry.1 (hmem entry hentry)
    exact ⟨ExtTreeSet.mem_toList.mpr hsrc, ExtTreeSet.mem_toList.mpr hdst⟩
  have hsort : ∀ entry ∈ (foldedInput input config).2.toList, entry.1.1 < entry.1.2 :=
    fun entry hentry => foldedInput_sorted input config entry.1 (hmem entry hentry)
  refine ⟨_, ofEdges_represents _ ?_ ?_⟩
  · intro edge hedge
    obtain ⟨entry, hentry, rfl⟩ := List.mem_map.mp hedge
    obtain ⟨hsrc, hdst⟩ := hnodes entry hentry
    refine ⟨List.idxOf_lt_length_iff.mpr hsrc, List.idxOf_lt_length_iff.mpr hdst, ?_⟩
    intro hsame
    exact (hsort entry hentry).ne ((List.idxOf_inj hsrc).mp hsame)
  · rw [List.pairwise_map]
    refine List.Pairwise.imp_of_mem ?_ ExtTreeMap.distinct_keys_toList
    intro left right hleft hright hdist hpar
    obtain ⟨hlsrc, hldst⟩ := hnodes left hleft
    rcases hpar with ⟨hsrc, hdst⟩ | ⟨hsrc, hdst⟩
    · refine hdist (LawfulEqCmp.compare_eq_iff_eq.mpr ?_)
      exact Prod.ext ((List.idxOf_inj hlsrc).mp hsrc) ((List.idxOf_inj hldst).mp hdst)
    · have hforth := (List.idxOf_inj hlsrc).mp hsrc
      have hback := (List.idxOf_inj hldst).mp hdst
      have hlt := hsort left hleft
      rw [hforth, hback] at hlt
      exact lt_asymm hlt (hsort right hright)

end

section Positive

variable {input : List ProjectionInputEdge} {config : ProjectionConfig ℚ}

theorem foldedInput_pos (hrel : 0 < config.relatesWeight)
    (hcap : 0 < config.parallelEdgeCapMultiplier) : ∀ (pair : String × String) (weight : ℚ),
      (foldedInput input config).2[pair]? = some weight → 0 < weight := by
  refine List.foldlRecOn _ (foldInputEdge config)
    (motive := fun (folded : ExtTreeSet String × FoldedWeights ℚ) =>
      ∀ (pair : String × String) (weight : ℚ), folded.2[pair]? = some weight → 0 < weight) ?_ ?_
  · intro pair weight hsome
    simp at hsome
  · intro folded hfolde edge _ pair weight hsome
    unfold foldInputEdge at hsome
    split at hsome
    · exact hfolde pair weight hsome
    · generalize (if edge.srcId < edge.dstId then (edge.srcId, edge.dstId)
        else (edge.dstId, edge.srcId)) = inserted at hsome
      have hbef : 0 ≤ folded.2.getD inserted 0 := by
        rw [ExtTreeMap.getD_eq_getD_getElem?]
        cases hfound : folded.2[inserted]? with
        | none => exact le_rfl
        | some found => exact (hfolde inserted found hfound).le
      have hlimit : 0 < config.parallelEdgeCapMultiplier * config.relatesWeight :=
        mul_pos hcap hrel
      rw [ExtTreeMap.getElem?_insert] at hsome
      split at hsome
      · cases hsome
        split
        · linarith
        · exact hlimit
      · exact hfolde pair weight hsome

/-- Every endpoint of a folded edge is counted. -/
theorem foldedDegrees_getD {W : Type} (nodeIds : List String) (folded : FoldedWeights W)
    {node : Nat} (hnode : node < nodeIds.length) : (foldedDegrees nodeIds folded).getD node 0 =
      folded.keys.countP (fun pair => nodeIds.idxOf pair.1 = node) +
        folded.keys.countP (fun pair => nodeIds.idxOf pair.2 = node) := by
  have hstep : ∀ (degrees : List Nat) (src dst : Nat), node < degrees.length →
      ((degrees.modify src (· + 1)).modify dst (· + 1)).getD node 0 =
        degrees.getD node 0 + ((if src = node then 1 else 0) + if dst = node then 1 else 0) := by
    intro degrees src dst hlt
    rw [List.getD_eq_getElem?_getD, List.getElem?_modify, List.getElem?_modify,
      List.getD_eq_getElem?_getD, List.getElem?_eq_getElem hlt]
    by_cases hsrc : src = node <;> by_cases hdst : dst = node <;> simp [hsrc, hdst]
  have hfold : ∀ (keys : List (String × String)) (degrees : List Nat), node < degrees.length →
      (keys.foldl (fun degrees key =>
        (degrees.modify (nodeIds.idxOf key.1) (· + 1)).modify (nodeIds.idxOf key.2) (· + 1))
        degrees).getD node 0 =
      degrees.getD node 0 + (keys.countP (fun pair => nodeIds.idxOf pair.1 = node) +
        keys.countP (fun pair => nodeIds.idxOf pair.2 = node)) := by
    intro keys
    induction keys with
    | nil => exact fun degrees _ => rfl
    | cons key keys ih =>
      intro degrees hlt
      rw [List.foldl_cons, ih _ (by rw [List.length_modify, List.length_modify]; exact hlt),
        hstep degrees _ _ hlt, List.countP_cons, List.countP_cons]
      simp only [decide_eq_true_eq]
      omega
  have hlen : node < (List.replicate nodeIds.length 0).length := by
    rw [List.length_replicate]
    exact hnode
  have hzero : (List.replicate nodeIds.length 0).getD node 0 = 0 := List.getD_replicate _ hnode
  unfold foldedDegrees
  rw [hfold _ _ hlen, hzero, Nat.zero_add]

theorem foldedDegrees_pos {nodeIds : List String} {folded : FoldedWeights ℚ}
    {pair : String × String} (hpair : pair ∈ folded) {node : Nat} (hnode : node < nodeIds.length)
    (hends : nodeIds.idxOf pair.1 = node ∨ nodeIds.idxOf pair.2 = node) :
    0 < (foldedDegrees nodeIds folded).getD node 0 := by
  have hkey : pair ∈ folded.keys := ExtTreeMap.mem_keys.mpr hpair
  rw [foldedDegrees_getD nodeIds folded hnode]
  rcases hends with hsrc | hdst
  · exact Nat.add_pos_left (List.countP_pos_iff.mpr ⟨pair, hkey, decide_eq_true hsrc⟩) _
  · exact Nat.add_pos_right _ (List.countP_pos_iff.mpr ⟨pair, hkey, decide_eq_true hdst⟩)

theorem hubFactor_pos (hhub : 0 < config.hubDegreeCap) {degree : Nat} (hdegr : 0 < degree) :
    0 < hubFactor config degree := by
  unfold hubFactor
  dsimp only
  split
  · exact div_pos (Nat.cast_pos.mpr hhub) (Nat.cast_pos.mpr hdegr)
  · norm_num

theorem projectGroundedRelates_weight_pos (hrel : 0 < config.relatesWeight)
    (hcap : 0 < config.parallelEdgeCapMultiplier) (hhub : 0 < config.hubDegreeCap) :
    ∀ edge ∈ (projectGroundedRelates input config).edges, 0 < edge.weight := by
  intro edge hedge
  obtain ⟨⟨pair, weight⟩, hentry, rfl⟩ := List.mem_map.mp hedge
  have hsome := ExtTreeMap.mem_toList_iff_getElem?_eq_some.mp hentry
  have hpair : pair ∈ (foldedInput input config).2 := by
    rw [ExtTreeMap.mem_iff_isSome_getElem?, hsome]
    rfl
  obtain ⟨hsrc, hdst⟩ := foldedInput_nodes input config pair hpair
  have hsrcLt := List.idxOf_lt_length_iff.mpr (ExtTreeSet.mem_toList.mpr hsrc)
  have hdstLt := List.idxOf_lt_length_iff.mpr (ExtTreeSet.mem_toList.mpr hdst)
  refine mul_pos (mul_pos (foldedInput_pos hrel hcap pair weight hsome) ?_) ?_
  · exact hubFactor_pos hhub (foldedDegrees_pos hpair hsrcLt (.inl rfl))
  · exact hubFactor_pos hhub (foldedDegrees_pos hpair hdstLt (.inr rfl))

end Positive

end Wenlan.Community
