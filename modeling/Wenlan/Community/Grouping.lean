import Wenlan.Community.Incremental
import Wenlan.Support.Transition

/-!
# Grouping cycles

What `community_grouping.rs` keeps in memory between publications, and how one cycle takes a
space's entry, computes on it, and publishes or gives it back.  The database is outside: a
cycle is given the attempt that was prepared and the answer of the publication.  The members
that are published are left out, but for the assertion on their number.  A dropped future is
`none` where an answer is awaited, and then the guards run their drops.
-/

namespace Wenlan.Community

open Std

variable {W : Type} [Weight W] [DecidableLT W] [DecidableLE W]

def communityAlgoVersion : String := "leiden-m4-v1"

def communityProjectionVersion : String := "grounded-relates-v1"

def minCommunityParticipants : Nat := 10

/-- What could not be computed: Leiden's own error text, or a rejected membership. -/
inductive ComputeError (W : Type) where
  | leiden (text : String)
  | partition (error : IncrementalPartitionError W)

inductive CommunityGroupingError (W : Type) where
  | leaseHeld (space : String) (inputGeneration : Int)
  | notDirty (space : String)
  | database (text : String)
  | compute (error : ComputeError W)

structure CommunityGroupingAttempt where
  space : String
  graphGeneration : Int
  inputGeneration : Int
  publishedGeneration : Option Int
  publishedVersions : Option (String × String)
  edges : List ProjectionInputEdge
  dirtyNodeIds : ExtTreeSet String

inductive CommunityGroupingOutcome where
  | published
  | held
  | stale

inductive CommunityGroupingFullReason where
  | firstPublication
  | runtimeStateMissing
  | versionChanged
  | publishedGenerationMismatch
  | graphGenerationRegressed
  | dirtyFrontierMissing
  | thresholdExceeded
  | nodeOrderChanged
  | incrementalRejected

inductive CommunityGroupingComputeMode where
  | coreReused
  | incremental (optimizedNodes : Nat)
  | full (reason : CommunityGroupingFullReason)

def fullReasonForIncrementalError : IncrementalPartitionError W → CommunityGroupingFullReason
  | .dirtyFraction .. | .frontierFraction .. => .thresholdExceeded
  | .membershipSize .. | .dirtyNode .. | .nodeOrder => .nodeOrderChanged
  | .disconnectedCommunity => .incrementalRejected

structure RuntimeCommunityState (W : Type) where
  publishedGeneration : Int
  graphGeneration : Int
  algoVersion : String
  projectionVersion : String
  partition : IncrementalPartitionState W

structure CommunityGroupingRuntime (W : Type) where
  spaces : ExtTreeMap String (RuntimeCommunityState W)

namespace CommunityGroupingRuntime

def default : CommunityGroupingRuntime W := ⟨∅⟩

variable (runtime other : CommunityGroupingRuntime W) (space : String)

def take : Option (RuntimeCommunityState W) × CommunityGroupingRuntime W :=
  (runtime.spaces[space]?, ⟨runtime.spaces.erase space⟩)

def install (state : RuntimeCommunityState W) : CommunityGroupingRuntime W :=
  ⟨runtime.spaces.insert space state⟩

def installSome : Option (RuntimeCommunityState W) → CommunityGroupingRuntime W
  | some state => runtime.install space state
  | none => runtime

/-- `take_space_from`: the runtime and what is left of the other. -/
def takeSpaceFrom : CommunityGroupingRuntime W × CommunityGroupingRuntime W :=
  let taken := other.take space
  (runtime.installSome space taken.1, taken.2)

/-- Take the entry over unless a newer publication is already there. -/
def takeSpaceFromIfNotOlder : CommunityGroupingRuntime W :=
  match (other.take space).1 with
  | none => runtime
  | some candidate =>
    match runtime.spaces[space]? with
    | none => runtime.install space candidate
    | some current =>
      if current.publishedGeneration ≤ candidate.publishedGeneration then
        runtime.install space candidate
      else runtime

end CommunityGroupingRuntime

inductive RuntimeTransition (W : Type) where
  | reused (state : RuntimeCommunityState W)
  | incremental (state : RuntimeCommunityState W) (rollback : IncrementalPartitionRollback W)
  | full (prior : Option (RuntimeCommunityState W)) (next : RuntimeCommunityState W)

namespace RuntimeTransition

def publish (publishedGeneration graphGeneration : Int) :
    RuntimeTransition W → RuntimeCommunityState W
  | .reused state | .incremental state _ | .full _ state =>
    { state with
      publishedGeneration
      graphGeneration
      algoVersion := communityAlgoVersion
      projectionVersion := communityProjectionVersion }

def restore : RuntimeTransition W → Option (RuntimeCommunityState W)
  | .reused state => some state
  | .incremental state rollback =>
    some { state with partition := state.partition.restore rollback }
  | .full prior _ => prior

end RuntimeTransition

structure PartitionConfig (W : Type) where
  resolution : W
  seed : UInt64
  maxIterations : Nat

def PartitionConfig.default : PartitionConfig W := ⟨1.0, 0x4D34, 100⟩

/-- The library's run over a graph: a membership with its quality, or an error text. -/
abbrev Leiden (W : Type) :=
  Nat → List (ProjectedEdge W) → PartitionConfig W → Except String (PartitionOutput W)

variable (leiden : Leiden W)

def fullPartition (graph : ProjectedGraph W) (config : PartitionConfig W) :
    Except String (PartitionOutput W) :=
  if graph.nodeIds.isEmpty then .ok ⟨[], 0⟩
  else leiden graph.nodeIds.length graph.edges config

def fullPartitionState (graph : ProjectedGraph W) :
    Except (CommunityGroupingError W) (List Nat × IncrementalPartitionState W) :=
  match fullPartition leiden graph .default with
  | .error text => .error (.compute (.leiden text))
  | .ok output =>
    match IncrementalPartitionState.new graph output.membership with
    | .error error => .error (.compute (.partition error))
    | .ok state => .ok (output.membership, state)

/-- A membership, the transition that goes with it, and how it was found. -/
abbrev GroupingSelection (W : Type) :=
  List Nat × RuntimeTransition W × CommunityGroupingComputeMode

abbrev GroupingSelectionFailure (W : Type) :=
  CommunityGroupingError W × Option (RuntimeCommunityState W)

def selectFull (attempt : CommunityGroupingAttempt) (graph : ProjectedGraph W)
    (prior : Option (RuntimeCommunityState W)) (reason : CommunityGroupingFullReason) :
    Except (GroupingSelectionFailure W) (GroupingSelection W) :=
  match fullPartitionState leiden graph with
  | .error error => .error (error, prior)
  | .ok (membership, partition) =>
    let next : RuntimeCommunityState W :=
      { publishedGeneration := attempt.publishedGeneration.getD 0
        graphGeneration := attempt.graphGeneration
        algoVersion := communityAlgoVersion
        projectionVersion := communityProjectionVersion
        partition := partition }
    .ok (membership, .full prior next, .full reason)

/-- Update the entry at the dirty nodes, or partition anew where that is rejected. -/
def selectIncremental (attempt : CommunityGroupingAttempt) (graph : ProjectedGraph W)
    (dirtyNodes : List Nat) (prior : RuntimeCommunityState W) :
    Except (GroupingSelectionFailure W) (GroupingSelection W) :=
  match incrementalPartitionRecoverable graph prior.partition dirtyNodes .default with
  | .ok (output, rollback) =>
    .ok (output.partition.membership,
      .incremental { prior with partition := output.state } rollback,
      .incremental output.optimizedNodes.length)
  | .error (error, partition) =>
    selectFull leiden attempt graph (some { prior with partition := partition })
      (fullReasonForIncrementalError error)

def versionsDiffer (attempt : CommunityGroupingAttempt) (prior : RuntimeCommunityState W) : Bool :=
  prior.algoVersion != communityAlgoVersion ||
    prior.projectionVersion != communityProjectionVersion ||
    attempt.publishedVersions.any fun versions =>
      versions != (communityAlgoVersion, communityProjectionVersion)

def selectPartition (attempt : CommunityGroupingAttempt) (graph : ProjectedGraph W)
    (dirtyNodes : List Nat) : Option (RuntimeCommunityState W) →
      Except (GroupingSelectionFailure W) (GroupingSelection W)
  | none =>
    selectFull leiden attempt graph none
      (if attempt.publishedGeneration.isNone then .firstPublication else .runtimeStateMissing)
  | some prior =>
    if versionsDiffer attempt prior then
      selectFull leiden attempt graph (some prior) .versionChanged
    else if some prior.publishedGeneration ≠ attempt.publishedGeneration then
      selectFull leiden attempt graph (some prior) .publishedGenerationMismatch
    else if attempt.graphGeneration < prior.graphGeneration then
      selectFull leiden attempt graph (some prior) .graphGenerationRegressed
    else if attempt.graphGeneration = prior.graphGeneration then
      .ok (prior.partition.partition.membership, .reused prior, .coreReused)
    else if dirtyNodes.isEmpty then
      selectFull leiden attempt graph (some prior)
        (if attempt.dirtyNodeIds.isEmpty then .dirtyFrontierMissing else .nodeOrderChanged)
    else selectIncremental leiden attempt graph dirtyNodes prior

structure CommunityGroupingWork (W : Type) where
  heldBelowFloor : Bool
  projectedEdgeCount : Nat
  computeMode : CommunityGroupingComputeMode
  transition : RuntimeTransition W

/-- How the computation ends.  It panics in the assertion of `rebind_durable_ids_weighted`. -/
inductive ComputeEnd (W : Type) where
  | ok (work : CommunityGroupingWork W)
  | error (error : CommunityGroupingError W)
  | panicked

def CommunityGroupingAttempt.graph (attempt : CommunityGroupingAttempt) : ProjectedGraph W :=
  projectGroundedRelates attempt.edges .default

def computeCommunityGrouping (attempt : CommunityGroupingAttempt)
    (runtime : CommunityGroupingRuntime W) : CommunityGroupingRuntime W × ComputeEnd W :=
  let graph : ProjectedGraph W := attempt.graph
  let dirtyNodes := attempt.dirtyNodeIds.toList.filterMap graph.nodeIds.idxOf?
  let (prior, runtime) := runtime.take attempt.space
  match selectPartition leiden attempt graph dirtyNodes prior with
  | .error (error, prior) => (runtime.installSome attempt.space prior, .error error)
  | .ok (membership, transition, computeMode) =>
    let heldBelowFloor := decide (graph.nodeIds.length < minCommunityParticipants)
    -- The transition is not guarded yet: it goes with the unwinding stack.
    if !heldBelowFloor && membership.length != graph.nodeIds.length then
      (runtime, .panicked)
    else
      (runtime, .ok ⟨heldBelowFloor, attempt.edges.length, computeMode, transition⟩)

inductive CycleEnd (W : Type) where
  | finished (outcome : CommunityGroupingOutcome)
  | failed (error : CommunityGroupingError W)
  | panicked
  | dropped

/-- What the publication answered; nothing if the cycle was dropped meanwhile. -/
abbrev FinalizeAnswer (W : Type) :=
  Option (Except (CommunityGroupingError W) CommunityGroupingOutcome)

/-- `finalize`, the drop of its guard included. -/
def CommunityGroupingWork.finalize (work : CommunityGroupingWork W)
    (attempt : CommunityGroupingAttempt) (answer : FinalizeAnswer W)
    (runtime : CommunityGroupingRuntime W) : CommunityGroupingRuntime W × CycleEnd W :=
  let restored := runtime.installSome attempt.space work.transition.restore
  match answer with
  | some (.ok .published) =>
    (runtime.install attempt.space
      (work.transition.publish attempt.inputGeneration attempt.graphGeneration),
      .finished .published)
  | some (.ok outcome) => (restored, .finished outcome)
  | some (.error error) => (restored, .failed error)
  | none => (restored, .dropped)

def groupingCycle (attempt : CommunityGroupingAttempt) (answer : FinalizeAnswer W)
    (runtime : CommunityGroupingRuntime W) : CommunityGroupingRuntime W × CycleEnd W :=
  match computeCommunityGrouping leiden attempt runtime with
  | (runtime, .ok work) => work.finalize attempt answer runtime
  | (runtime, .error error) => (runtime, .failed error)
  | (runtime, .panicked) => (runtime, .panicked)

/-- `run_community_grouping_cycle` on a runtime of its own. -/
def runCommunityGroupingCycle
    (prepared : Option (Except (CommunityGroupingError W) CommunityGroupingAttempt))
    (answer : FinalizeAnswer W) (runtime : CommunityGroupingRuntime W) :
    CommunityGroupingRuntime W × CycleEnd W :=
  match prepared with
  | some (.ok attempt) => groupingCycle leiden attempt answer runtime
  | some (.error error) => (runtime, .failed error)
  | none => (runtime, .dropped)

/-- A cycle that holds the entry of its space apart from the shared runtime. -/
structure Flight (W : Type) where
  attempt : CommunityGroupingAttempt
  local_ : CommunityGroupingRuntime W

structure Grouping (W : Type) where
  shared : CommunityGroupingRuntime W
  flights : Nat → Option (Flight W)

def Grouping.initial : Grouping W := ⟨.default, fun _ => none⟩

/-- The two times that `run_next_community_grouping_cycle` holds the lock. -/
inductive GroupingOp (W : Type) where
  | take (flight : Nat) (attempt : CommunityGroupingAttempt)
  | finish (flight : Nat) (attempt : CommunityGroupingAttempt) (leiden : Leiden W)
      (answer : FinalizeAnswer W)

def GroupingOp.space : GroupingOp W → String
  | .take _ attempt | .finish _ attempt _ _ => attempt.space

def GroupingOp.flight : GroupingOp W → Nat
  | .take flight _ | .finish flight _ _ _ => flight

/-- One critical section. -/
inductive GroupingStep : Grouping W → GroupingOp W → Grouping W → Prop
  | take (grouping : Grouping W) (flight : Nat) (attempt : CommunityGroupingAttempt)
      (hfree : grouping.flights flight = none) :
      GroupingStep grouping (.take flight attempt)
        ⟨(CommunityGroupingRuntime.default.takeSpaceFrom grouping.shared attempt.space).2,
          Function.update grouping.flights flight (some ⟨attempt,
            (CommunityGroupingRuntime.default.takeSpaceFrom grouping.shared attempt.space).1⟩)⟩
  | finish (grouping : Grouping W) (flight : Nat) (held : Flight W) (leiden : Leiden W)
      (answer : FinalizeAnswer W) (hheld : grouping.flights flight = some held) :
      GroupingStep grouping (.finish flight held.attempt leiden answer)
        ⟨grouping.shared.takeSpaceFromIfNotOlder
            (groupingCycle leiden held.attempt answer held.local_).1 held.attempt.space,
          Function.update grouping.flights flight none⟩

end Wenlan.Community
