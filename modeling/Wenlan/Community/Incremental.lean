import Mathlib

/-!
# The projected graph

The weighted undirected graph that `community_partition.rs` builds from the grounded
`relates` edges of a space, its modularity, and the connectedness of one community.  The
code's weights are `f64`; here they are any type with the operations of `Weight`, so that
what does not depend on their arithmetic is said of floats as well.
-/

namespace Wenlan.Community

open Std

/-- What the code uses of its numbers. -/
class Weight (W : Type) extends Zero W, Add W, Sub W, Mul W, Div W, Neg W, LT W, LE W, BEq W,
    NatCast W, OfScientific W

instance : Weight ℚ where

instance : Weight Float where
  natCast := Float.ofNat

variable {W : Type} [Weight W] [DecidableLT W] [DecidableLE W]

/-- `powi(2)` -/
def square (x : W) : W := x * x

/-- `abs` -/
def magnitude (x : W) : W := if x < 0 then -x else x

/-- `*map.entry(key).or_default() += weight` -/
def addAt {Key : Type} {cmp : Key → Key → Ordering} [TransCmp cmp]
    (map : ExtTreeMap Key W cmp) (key : Key) (weight : W) : ExtTreeMap Key W cmp :=
  map.insert key (map.getD key 0 + weight)

def pairCmp (Key : Type) [Ord Key] : Key × Key → Key × Key → Ordering :=
  compareLex (compareOn Prod.fst) (compareOn Prod.snd)

instance (Key : Type) [Ord Key] [TransOrd Key] : TransCmp (pairCmp Key) :=
  inferInstanceAs (TransCmp (compareLex (compareOn Prod.fst) (compareOn Prod.snd)))

instance (Key : Type) [Ord Key] [LawfulEqOrd Key] : LawfulEqCmp (pairCmp Key) where
  compare_self := by simp [pairCmp, compareLex, compareOn]
  eq_of_compare {a b} h := by
    simp only [pairCmp, compareLex, compareOn, Ordering.then_eq_eq] at h
    exact Prod.ext (LawfulEqCmp.eq_of_compare h.1) (LawfulEqCmp.eq_of_compare h.2)

structure ProjectionConfig (W : Type) where
  relatesWeight : W
  parallelEdgeCapMultiplier : W
  hubDegreeCap : Nat

def ProjectionConfig.default : ProjectionConfig W := ⟨1.0, 3.0, 50⟩

structure ProjectionInputEdge where
  edgeId : String
  srcId : String
  dstId : String

structure ProjectedEdge (W : Type) where
  src : Nat
  dst : Nat
  weight : W

structure ProjectedGraph (W : Type) where
  nodeIds : List String
  nodeOrderFingerprint : UInt64
  edges : List (ProjectedEdge W)
  adjacency : List (List (Nat × W))
  weightedDegrees : List W
  totalEdgeWeight : W

def stableNodeOrderFingerprint (nodeIds : List String) : UInt64 :=
  let mix (hash : UInt64) (byte : UInt8) : UInt64 :=
    (hash ^^^ byte.toUInt64) * 0x100000001b3
  let lengthBytes (length : Nat) : List UInt8 :=
    (List.range 8).map fun i => (length / 256 ^ i).toUInt8
  nodeIds.foldl (fun hash nodeId =>
    (lengthBytes nodeId.utf8ByteSize ++ nodeId.toUTF8.toList).foldl mix hash)
    0xcbf29ce484222325

def linkEdge (adjacency : List (List (Nat × W))) (edge : ProjectedEdge W) : List (List (Nat × W)) :=
  (adjacency.modify edge.src (· ++ [(edge.dst, edge.weight)])).modify edge.dst
    (· ++ [(edge.src, edge.weight)])

def weighEdge (degrees : List W) (edge : ProjectedEdge W) : List W :=
  (degrees.modify edge.src (· + edge.weight)).modify edge.dst (· + edge.weight)

def ProjectedGraph.ofEdges (nodeIds : List String) (edges : List (ProjectedEdge W)) :
    ProjectedGraph W where
  nodeIds := nodeIds
  nodeOrderFingerprint := stableNodeOrderFingerprint nodeIds
  edges := edges
  adjacency := (edges.foldl linkEdge (List.replicate nodeIds.length [])).map
    (·.insertionSort fun left right => left.1 ≤ right.1)
  weightedDegrees := edges.foldl weighEdge (List.replicate nodeIds.length 0)
  totalEdgeWeight := edges.foldl (fun total edge => total + edge.weight) 0

abbrev FoldedWeights (W : Type) := ExtTreeMap (String × String) W (pairCmp String)

/-- One input edge: a self-loop counts for nothing, parallel edges add up to the cap. -/
def foldInputEdge (config : ProjectionConfig W) (folded : ExtTreeSet String × FoldedWeights W)
    (edge : ProjectionInputEdge) : ExtTreeSet String × FoldedWeights W :=
  if edge.srcId = edge.dstId then folded
  else
    let pair := if edge.srcId < edge.dstId then (edge.srcId, edge.dstId)
      else (edge.dstId, edge.srcId)
    let cap := config.parallelEdgeCapMultiplier * config.relatesWeight
    let weight := folded.2.getD pair 0 + config.relatesWeight
    ((folded.1.insert edge.srcId).insert edge.dstId,
      folded.2.insert pair (if weight ≤ cap then weight else cap))

/-- `(cap / degree).min(1.0)` -/
def hubFactor (config : ProjectionConfig W) (degree : Nat) : W :=
  let factor : W := (config.hubDegreeCap : W) / (degree : W)
  if factor ≤ 1.0 then factor else 1.0

/-- The node ids and the folded weights of the input, taken in the order of the edge ids. -/
def foldedInput (input : List ProjectionInputEdge) (config : ProjectionConfig W) :
    ExtTreeSet String × FoldedWeights W :=
  (input.insertionSort fun left right => left.edgeId ≤ right.edgeId).foldl
    (foldInputEdge config) (∅, ∅)

def foldedDegrees (nodeIds : List String) (folded : FoldedWeights W) : List Nat :=
  folded.keys.foldl (fun degrees (src, dst) =>
    (degrees.modify (nodeIds.idxOf src) (· + 1)).modify (nodeIds.idxOf dst) (· + 1))
    (List.replicate nodeIds.length 0)

def projectGroundedRelates (input : List ProjectionInputEdge) (config : ProjectionConfig W) :
    ProjectedGraph W :=
  let folded := foldedInput input config
  let nodeIds := folded.1.toList
  let degrees := foldedDegrees nodeIds folded.2
  .ofEdges nodeIds <| folded.2.toList.map fun (pair, weight) =>
    let src := nodeIds.idxOf pair.1
    let dst := nodeIds.idxOf pair.2
    ⟨src, dst, weight * hubFactor config (degrees.getD src 0) *
      hubFactor config (degrees.getD dst 0)⟩

def modularity (graph : ProjectedGraph W) (membership : List Nat) : W :=
  let total := graph.totalEdgeWeight
  if total ≤ 0 then 0
  else
    let community (node : Nat) := membership.getD node 0
    let degreeWeight := graph.edges.foldl (fun (degrees : ExtTreeMap Nat W) edge =>
      addAt (addAt degrees (community edge.src) edge.weight) (community edge.dst) edge.weight) ∅
    let internalWeight := graph.edges.foldl (fun (internals : ExtTreeMap Nat W) edge =>
      if community edge.src = community edge.dst then
        addAt internals (community edge.src) edge.weight
      else internals) ∅
    degreeWeight.foldl (fun sum community degree =>
      sum + (internalWeight.getD community 0 / total -
        square (degree / (((2 : Nat) : W) * total)))) 0

/-- The depth-first search.  An entry of the stack is the start or was pushed when a node was
first visited, so the fuel below is never used up. -/
def visitCommunity (graph : ProjectedGraph W) (membership : List Nat) (community : Nat) :
    Nat → ExtTreeSet Nat → List Nat → ExtTreeSet Nat
  | 0, visited, _ => visited
  | _ + 1, visited, [] => visited
  | fuel + 1, visited, node :: stack =>
    if node ∈ visited then visitCommunity graph membership community fuel visited stack
    else
      let neighbors := (graph.adjacency.getD node []).filterMap fun (neighbor, _) =>
        if membership.getD neighbor 0 = community then some neighbor else none
      visitCommunity graph membership community fuel (visited.insert node)
        (neighbors.reverse ++ stack)

def communityIsConnected (graph : ProjectedGraph W) (membership : List Nat)
    (community : Nat) : Bool :=
  if community ∈ membership then
    let first := membership.idxOf community
    let expected := membership.count community
    let fuel := 1 + (graph.adjacency.map List.length).sum
    (visitCommunity graph membership community fuel ∅ [first]).size == expected
  else true

end Wenlan.Community

/-!
## Frontier-restricted updates of a partition

The state that `community_partition.rs` keeps between two publications and the update of it:
the weights that changed are patched in, the nodes near a change are moved to better
communities, and the update is undone where a community it touched has fallen apart.
-/

namespace Wenlan.Community

open Std

variable {W : Type} [Weight W] [DecidableLT W] [DecidableLE W]

/-! ## State -/

structure PartitionOutput (W : Type) where
  membership : List Nat
  modularity : W

structure IncrementalConfig (W : Type) where
  maxDirtyFraction : W
  maxFrontierFraction : W
  maxPasses : Nat
  epsilon : W

def IncrementalConfig.default : IncrementalConfig W := ⟨0.25, 0.25, 100, 1e-12⟩

inductive IncrementalPartitionError (W : Type) where
  | membershipSize (expected actual : Nat)
  | dirtyNode (node nodeCount : Nat)
  | dirtyFraction (actual maximum : W)
  | frontierFraction (actual maximum : W)
  | nodeOrder
  | disconnectedCommunity

structure IncrementalPartitionState (W : Type) where
  partition : PartitionOutput W
  nodeOrderFingerprint : UInt64
  adjacency : List (ExtTreeMap Nat W)
  weightedDegrees : List W
  communityDegrees : ExtTreeMap Nat W
  totalInternalWeight : W
  sumCommunityDegreeSquares : W
  totalEdgeWeight : W
  nextCommunity : Nat

structure IncrementalPartitionRollback (W : Type) where
  membership : List (Nat × Nat)
  adjacency : List (Nat × ExtTreeMap Nat W)
  weightedDegrees : List (Nat × W)
  communityDegrees : List (Nat × W)
  partitionModularity : W
  totalInternalWeight : W
  sumCommunityDegreeSquares : W
  totalEdgeWeight : W
  nextCommunity : Nat

def modularityFromTotals (totalEdgeWeight totalInternalWeight sumCommunityDegreeSquares : W) : W :=
  if totalEdgeWeight ≤ 0 then 0
  else totalInternalWeight / totalEdgeWeight -
    sumCommunityDegreeSquares / (((4 : Nat) : W) * square totalEdgeWeight)

def modularityMoveDelta (totalEdgeWeight nodeDegree fromIncident toIncident fromDegree
    toDegree : W) : W :=
  (toIncident - fromIncident) / totalEdgeWeight -
    (square (toDegree + nodeDegree) - square toDegree + square (fromDegree - nodeDegree) -
      square fromDegree) / (((4 : Nat) : W) * square totalEdgeWeight)

def communityDegreesOf (weightedDegrees : List W) (membership : List Nat) : ExtTreeMap Nat W :=
  membership.zipIdx.foldl (fun degrees (community, node) =>
    addAt degrees community (weightedDegrees.getD node 0)) ∅

namespace IncrementalPartitionState

def fresh (graph : ProjectedGraph W) (membership : List Nat) : IncrementalPartitionState W :=
  let communityDegrees := communityDegreesOf graph.weightedDegrees membership
  let sumSquares := communityDegrees.foldl (fun sum _ degree => sum + square degree) 0
  let internal := graph.edges.foldl (fun sum edge =>
    if membership.getD edge.src 0 = membership.getD edge.dst 0 then sum + edge.weight
    else sum) 0
  { partition := ⟨membership, modularityFromTotals graph.totalEdgeWeight internal sumSquares⟩
    nodeOrderFingerprint := graph.nodeOrderFingerprint
    adjacency := graph.adjacency.map fun neighbors =>
      neighbors.foldl (fun known (neighbor, weight) => known.insert neighbor weight) ∅
    weightedDegrees := graph.weightedDegrees
    communityDegrees := communityDegrees
    totalInternalWeight := internal
    sumCommunityDegreeSquares := sumSquares
    totalEdgeWeight := graph.totalEdgeWeight
    nextCommunity := membership.foldl max 0 + 1 }

def new (graph : ProjectedGraph W) (membership : List Nat) :
    Except (IncrementalPartitionError W) (IncrementalPartitionState W) :=
  if membership.length ≠ graph.nodeIds.length then
    .error (.membershipSize graph.nodeIds.length membership.length)
  else .ok (fresh graph membership)

def communityOf (state : IncrementalPartitionState W) (node : Nat) : Nat :=
  state.partition.membership.getD node 0

def neighborsOf (state : IncrementalPartitionState W) (node : Nat) : List Nat :=
  (state.adjacency.getD node ∅).keys

end IncrementalPartitionState

def ProjectedGraph.neighborsOf (graph : ProjectedGraph W) (node : Nat) : List Nat :=
  (graph.adjacency.getD node []).map Prod.fst

def gather {α : Type} {cmp : α → α → Ordering} [TransCmp cmp] (start : ExtTreeSet α cmp)
    (nodes : ExtTreeSet Nat) (found : Nat → List α) : ExtTreeSet α cmp :=
  nodes.toList.foldl (fun set node => set.insertMany (found node)) start

/-- A share of all nodes. -/
def fractionOf (part nodeCount : Nat) : W :=
  if nodeCount = 0 then 0 else (part : W) / (nodeCount : W)

namespace IncrementalPartitionState

variable (state : IncrementalPartitionState W) (graph : ProjectedGraph W)

def incrementalFrontier (dirtyNodes : List Nat) (config : IncrementalConfig W) :
    Except (IncrementalPartitionError W) (ExtTreeSet Nat × ExtTreeSet Nat) :=
  let nodeCount := graph.nodeIds.length
  if state.partition.membership.length ≠ nodeCount then
    .error (.membershipSize nodeCount state.partition.membership.length)
  else if state.nodeOrderFingerprint ≠ graph.nodeOrderFingerprint then .error .nodeOrder
  else
    let dirty : ExtTreeSet Nat := .ofList dirtyNodes
    match dirty.toList.find? (nodeCount ≤ ·) with
    | some node => .error (.dirtyNode node nodeCount)
    | none =>
      let dirtyFraction : W := fractionOf dirty.size nodeCount
      if config.maxDirtyFraction < dirtyFraction then
        .error (.dirtyFraction dirtyFraction config.maxDirtyFraction)
      else
        let frontier := gather dirty dirty fun node =>
          state.neighborsOf node ++ graph.neighborsOf node
        let frontierFraction : W := fractionOf frontier.size nodeCount
        if config.maxFrontierFraction < frontierFraction then
          .error (.frontierFraction frontierFraction config.maxFrontierFraction)
        else .ok (dirty, frontier)

def touchedCommunities (dirty frontier : ExtTreeSet Nat) : ExtTreeSet Nat :=
  gather (gather ∅ frontier fun node =>
      state.communityOf node ::
        (state.neighborsOf node ++ graph.neighborsOf node).map state.communityOf)
    dirty fun node => [state.communityOf node]

def rollbackSnapshot (dirty frontier : ExtTreeSet Nat) : IncrementalPartitionRollback W :=
  { membership := frontier.toList.map fun node => (node, state.communityOf node)
    adjacency := frontier.toList.map fun node => (node, state.adjacency.getD node ∅)
    weightedDegrees := frontier.toList.map fun node => (node, state.weightedDegrees.getD node 0)
    communityDegrees := (state.touchedCommunities graph dirty frontier).toList.filterMap
      fun community => state.communityDegrees[community]?.map (community, ·)
    partitionModularity := state.partition.modularity
    totalInternalWeight := state.totalInternalWeight
    sumCommunityDegreeSquares := state.sumCommunityDegreeSquares
    totalEdgeWeight := state.totalEdgeWeight
    nextCommunity := state.nextCommunity }

def writeBack {α : Type} (values : List α) (saved : List (Nat × α)) : List α :=
  saved.foldl (fun values (index, value) => values.set index value) values

def restore (rollback : IncrementalPartitionRollback W) : IncrementalPartitionState W where
  partition :=
    ⟨writeBack state.partition.membership rollback.membership, rollback.partitionModularity⟩
  nodeOrderFingerprint := state.nodeOrderFingerprint
  adjacency := writeBack state.adjacency rollback.adjacency
  weightedDegrees := writeBack state.weightedDegrees rollback.weightedDegrees
  communityDegrees := rollback.communityDegrees.foldl
    (fun degrees (community, degree) => degrees.insert community degree)
    (state.communityDegrees.filter fun community _ => community < rollback.nextCommunity)
  totalInternalWeight := rollback.totalInternalWeight
  sumCommunityDegreeSquares := rollback.sumCommunityDegreeSquares
  totalEdgeWeight := rollback.totalEdgeWeight
  nextCommunity := rollback.nextCommunity

def adjustCommunityDegree (community : Nat) (delta : W) : IncrementalPartitionState W :=
  let degree := state.communityDegrees.getD community 0
  { state with
    communityDegrees := state.communityDegrees.insert community (degree + delta)
    sumCommunityDegreeSquares :=
      state.sumCommunityDegreeSquares - square degree + square (degree + delta) }

def refreshModularity : IncrementalPartitionState W :=
  { state with
    partition.modularity := modularityFromTotals state.totalEdgeWeight
      state.totalInternalWeight state.sumCommunityDegreeSquares }

end IncrementalPartitionState

def orderedPair (left right : Nat) : Nat × Nat :=
  if left < right then (left, right) else (right, left)

def changedPairs (graph : ProjectedGraph W) (state : IncrementalPartitionState W)
    (dirty : ExtTreeSet Nat) : ExtTreeSet (Nat × Nat) (pairCmp Nat) :=
  gather ∅ dirty fun node =>
    (state.neighborsOf node ++ graph.neighborsOf node).map (orderedPair node)

def ProjectedGraph.weightBetween (graph : ProjectedGraph W) (src dst : Nat) : W :=
  ((graph.adjacency.getD src []).lookup dst).getD 0

structure Update (W : Type) where
  state : IncrementalPartitionState W
  touched : ExtTreeSet Nat

def setNeighborWeight (adjacency : List (ExtTreeMap Nat W)) (node neighbor : Nat) (weight : W) :
    List (ExtTreeMap Nat W) :=
  adjacency.modify node fun known =>
    if weight == 0 then known.erase neighbor else known.insert neighbor weight

def patchPair (graph : ProjectedGraph W) (update : Update W) (pair : Nat × Nat) : Update W :=
  let (src, dst) := pair
  let state := update.state
  let oldWeight := (state.adjacency.getD src ∅).getD dst 0
  let newWeight := graph.weightBetween src dst
  let delta := newWeight - oldWeight
  if delta == 0 then update
  else
    let srcCommunity := state.communityOf src
    let dstCommunity := state.communityOf dst
    let touched := if 0 < oldWeight ∧ (newWeight == 0) = true ∧ srcCommunity = dstCommunity
      then update.touched.insert srcCommunity else update.touched
    let weighed : IncrementalPartitionState W := { state with
      weightedDegrees :=
        (state.weightedDegrees.modify src (· + delta)).modify dst (· + delta) }
    let adjusted := (weighed.adjustCommunityDegree srcCommunity delta).adjustCommunityDegree
      dstCommunity delta
    { state := { adjusted with
        totalEdgeWeight := state.totalEdgeWeight + delta
        totalInternalWeight :=
          if srcCommunity = dstCommunity then state.totalInternalWeight + delta
          else state.totalInternalWeight
        adjacency := setNeighborWeight (setNeighborWeight state.adjacency src dst newWeight)
          dst src newWeight }
      touched }

def applyProjectionDeltas (graph : ProjectedGraph W) (state : IncrementalPartitionState W)
    (dirty : ExtTreeSet Nat) : Update W :=
  let update := (changedPairs graph state dirty).toList.foldl (patchPair graph) ⟨state, ∅⟩
  { update with state := update.state.refreshModularity }

def incidentByCommunity (graph : ProjectedGraph W) (state : IncrementalPartitionState W)
    (node : Nat) : ExtTreeMap Nat W :=
  let incident := (graph.adjacency.getD node []).foldl
    (fun (incident : ExtTreeMap Nat W) (neighbor, weight) =>
      addAt incident (state.communityOf neighbor) weight) ∅
  incident.insert state.nextCommunity (incident.getD state.nextCommunity 0)

/-- What modularity gains when a node moves to `candidate`. -/
def moveGain (state : IncrementalPartitionState W) (incident : ExtTreeMap Nat W)
    (node candidate : Nat) : W :=
  let current := state.communityOf node
  modularityMoveDelta state.totalEdgeWeight (state.weightedDegrees.getD node 0)
    (incident.getD current 0) (incident.getD candidate 0)
    (state.communityDegrees.getD current 0) (state.communityDegrees.getD candidate 0)

/-- Whether a gain beats the best one so far; within `epsilon` the lower community wins. -/
def beatsBest (epsilon : W) (candidate : Nat) (delta : W) : Option (Nat × W) → Bool
  | none => true
  | some (bestCommunity, bestDelta) =>
    bestDelta + epsilon < delta ||
      (magnitude (delta - bestDelta) ≤ epsilon && candidate < bestCommunity)

/-- The better of the best move so far and `candidate`. -/
def considerMove (state : IncrementalPartitionState W) (epsilon : W)
    (incident : ExtTreeMap Nat W) (node : Nat) (best : Option (Nat × W)) (candidate : Nat) :
    Option (Nat × W) :=
  if candidate = state.communityOf node then best
  else
    let delta := moveGain state incident node candidate
    if epsilon < delta ∧ beatsBest epsilon candidate delta best = true then
      some (candidate, delta)
    else best

/-- The best gain above `epsilon`, if there is one. -/
def bestMove (state : IncrementalPartitionState W) (epsilon : W) (incident : ExtTreeMap Nat W)
    (node : Nat) : Option (Nat × W) :=
  incident.keys.foldl (considerMove state epsilon incident node) none

def moveNode (state : IncrementalPartitionState W) (incident : ExtTreeMap Nat W)
    (node candidate : Nat) : IncrementalPartitionState W :=
  let current := state.communityOf node
  let nodeDegree := state.weightedDegrees.getD node 0
  let moved : IncrementalPartitionState W := { state with
    partition.membership := state.partition.membership.set node candidate }
  let adjusted := (moved.adjustCommunityDegree current (-nodeDegree)).adjustCommunityDegree
    candidate nodeDegree
  let counted := { adjusted with
    totalInternalWeight :=
      state.totalInternalWeight + (incident.getD candidate 0 - incident.getD current 0) }
  { counted.refreshModularity with
    nextCommunity := if candidate = state.nextCommunity then state.nextCommunity + 1
      else state.nextCommunity }

def refineNode (graph : ProjectedGraph W) (epsilon : W) (pass : Update W × Bool) (node : Nat) :
    Update W × Bool :=
  let state := pass.1.state
  let incident := incidentByCommunity graph state node
  match bestMove state epsilon incident node with
  | none => pass
  | some (candidate, _) =>
    ({ state := moveNode state incident node candidate
       touched := (pass.1.touched.insert (state.communityOf node)).insert candidate }, true)

/-- Passes over the frontier until one moves nothing or `passes` are done. -/
def refine (graph : ProjectedGraph W) (epsilon : W) (nodes : List Nat) : Nat → Update W → Update W
  | 0, update => update
  | passes + 1, update =>
    match nodes.foldl (refineNode graph epsilon) (update, false) with
    | (refined, true) => refine graph epsilon nodes passes refined
    | (refined, false) => refined

structure IncrementalOutput (W : Type) where
  state : IncrementalPartitionState W
  optimizedNodes : List Nat

def IncrementalOutput.partition (output : IncrementalOutput W) : PartitionOutput W :=
  output.state.partition

def updateFrontier (graph : ProjectedGraph W) (state : IncrementalPartitionState W)
    (dirty frontier : ExtTreeSet Nat) (config : IncrementalConfig W) : Update W :=
  let patched := applyProjectionDeltas graph state dirty
  if 0 < patched.state.totalEdgeWeight then
    refine graph config.epsilon frontier.toList config.maxPasses patched
  else patched

/-- The updated state with what undoes it, or the state as it was with the reason. -/
def incrementalPartitionRecoverable (graph : ProjectedGraph W)
    (state : IncrementalPartitionState W) (dirtyNodes : List Nat) (config : IncrementalConfig W) :
    Except (IncrementalPartitionError W × IncrementalPartitionState W)
      (IncrementalOutput W × IncrementalPartitionRollback W) :=
  match state.incrementalFrontier graph dirtyNodes config with
  | .error error => .error (error, state)
  | .ok (dirty, frontier) =>
    let rollback := state.rollbackSnapshot graph dirty frontier
    let update := updateFrontier graph state dirty frontier config
    let membership := update.state.partition.membership
    if update.touched.toList.any fun community =>
        !communityIsConnected graph membership community then
      .error (.disconnectedCommunity, update.state.restore rollback)
    else .ok (⟨update.state, frontier.toList⟩, rollback)

end Wenlan.Community
