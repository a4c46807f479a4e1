import Wenlan.Pages.Drafts

/-!
# The tables that name a space

The closure of `space_rename.rs` with the memories, pages and annotations of a space.  A row of a
closure table is its space with the columns that a statement, a trigger or a fence decides by;
generations, leases and digests are left out, and so are overview subscriptions without a space.
-/

namespace Wenlan.Spaces


inductive ClosureTable where
  | communities
  | communityMembers
  | pageCommunityAssignments
  | pageCommunityRouteInputs
  | communityRouteSpaceInputs
  | spaceGraphState
  | groupingLeases
  | communityReaderSpaceProof
  | communityPublicationReceipts
  | edges
  | genesisCandidates
  | genesisCoverageState
  | genesisGroupCoverage
  | genesisFrontier
  | m6PairStats
  | m6Adjacency
  | genesisRefreshJobs
  | m6RefreshDependencies
  | m6Readiness
  | m6ReadinessSoakReceipts
  | genesisSuppression
  | genesisCardBinding
  | genesisQuarantine
  | m6OverviewSubscriptions
  | m6Counters
  deriving DecidableEq

def ClosureTable.name : ClosureTable → String
  | .communities => "communities"
  | .communityMembers => "community_members"
  | .pageCommunityAssignments => "page_community_assignments"
  | .pageCommunityRouteInputs => "page_community_route_inputs"
  | .communityRouteSpaceInputs => "community_route_space_inputs"
  | .spaceGraphState => "space_graph_state"
  | .groupingLeases => "grouping_leases"
  | .communityReaderSpaceProof => "community_reader_space_proof"
  | .communityPublicationReceipts => "community_publication_receipts"
  | .edges => "edges"
  | .genesisCandidates => "genesis_candidates"
  | .genesisCoverageState => "genesis_coverage_state"
  | .genesisGroupCoverage => "genesis_group_coverage"
  | .genesisFrontier => "genesis_frontier"
  | .m6PairStats => "m6_pair_stats"
  | .m6Adjacency => "m6_adjacency"
  | .genesisRefreshJobs => "genesis_refresh_jobs"
  | .m6RefreshDependencies => "m6_refresh_dependencies"
  | .m6Readiness => "m6_readiness"
  | .m6ReadinessSoakReceipts => "m6_readiness_soak_receipts"
  | .genesisSuppression => "genesis_suppression"
  | .genesisCardBinding => "genesis_card_binding"
  | .genesisQuarantine => "genesis_quarantine"
  | .m6OverviewSubscriptions => "m6_overview_subscriptions"
  | .m6Counters => "m6_counters"

/-- `CLOSURE`, with whether the space is part of the primary key. -/
def closure : List (ClosureTable × Bool) :=
  [(.communities, false), (.communityMembers, true), (.pageCommunityAssignments, false),
    (.pageCommunityRouteInputs, false), (.communityRouteSpaceInputs, true),
    (.spaceGraphState, true), (.groupingLeases, true), (.communityReaderSpaceProof, true),
    (.communityPublicationReceipts, true), (.edges, false), (.genesisCandidates, false),
    (.genesisCoverageState, true), (.genesisGroupCoverage, true), (.genesisFrontier, true),
    (.m6PairStats, true), (.m6Adjacency, true), (.genesisRefreshJobs, false),
    (.m6RefreshDependencies, true), (.m6Readiness, true), (.m6ReadinessSoakReceipts, true),
    (.genesisSuppression, true), (.genesisCardBinding, true), (.genesisQuarantine, true),
    (.m6OverviewSubscriptions, false), (.m6Counters, false)]

def permanentGenesisTables : List ClosureTable :=
  [.genesisCandidates, .genesisCoverageState, .genesisGroupCoverage, .genesisFrontier,
    .m6RefreshDependencies, .m6Readiness, .m6ReadinessSoakReceipts, .genesisSuppression,
    .genesisCardBinding, .genesisQuarantine, .m6OverviewSubscriptions, .m6Counters]

def destinationOrphansToRetire : List ClosureTable :=
  [.genesisRefreshJobs]

def mergeRetainedTables : List ClosureTable :=
  [.genesisCoverageState, .m6Counters, .m6Readiness, .m6ReadinessSoakReceipts]

structure Community where
  communityId : String
  retiredAt : Option Int
  updatedAt : Int

structure PageAssignment where
  pageId : String
  communityId : Option String

inductive NodeKind where
  | page
  | memory
  | entity
  | external
  | claimRevision
  | root
  deriving DecidableEq

inductive EdgeType where
  | mentions
  | relates
  | cites
  | supports
  | links
  | attests
  deriving DecidableEq

inductive EdgeLineage where
  | assertion
  | evidence
  | synthesis
  | legacy
  deriving DecidableEq

structure Edge where
  rootId : Option String
  sourceId : String
  sourceKind : NodeKind
  targetId : String
  targetKind : NodeKind
  type : EdgeType
  lineage : EdgeLineage
  grounded : Bool
  validUntil : Option Int
  /-- `source_memory_id` of the payload -/
  sourceMemory : Option String
  /-- `linked_at` of the payload -/
  linkedAt : Option Int

structure GroupKey where
  independenceGroupId : String
  coverageEpoch : Int
  deriving DecidableEq

/-- `endedAt` is `lapsed_at` of a suppression, `closed_at` of a card and `lifted_at` of a
quarantine. -/
structure EndedGroup extends GroupKey where
  endedAt : Option Int

structure Counter where
  spaceId : String
  name : String

/-- The columns beside the space: the community of a member, the page of a route input, whether
a graph state is dirty, the candidate, the id of the space that a coverage state belongs to. -/
abbrev Columns : ClosureTable → Type
  | .communities => Community
  | .communityMembers => String
  | .pageCommunityAssignments => PageAssignment
  | .pageCommunityRouteInputs => String
  | .spaceGraphState => Bool
  | .edges => Edge
  | .genesisCandidates => String
  | .genesisCoverageState => String
  | .genesisGroupCoverage => GroupKey
  | .genesisFrontier => GroupKey
  | .genesisSuppression => EndedGroup
  | .genesisCardBinding => EndedGroup
  | .genesisQuarantine => EndedGroup
  | .m6Counters => Counter
  | _ => Unit

structure Row (table : ClosureTable) where
  space : String
  columns : Columns table

structure Space where
  id : String
  name : String
  description : Option String
  updatedAt : Int
  deriving DecidableEq

/-- A chunk of a memory; `content` is the columns that no statement here writes. -/
structure MemoryRow where
  id : String
  source : String
  sourceId : String
  episodeOf : Option String
  space : String
  version : Int
  lastModified : Int
  entityId : Option String
  content : String

/-- A page; `content` is the columns that no statement here writes. -/
structure PageRow where
  id : String
  kind : String
  status : String
  space : Option String
  workspace : Option String
  version : Int
  lastModified : String
  entityId : Option String
  sourceMemoryIds : List String
  staleReason : Option String
  refreshBlockedReason : Option String
  sourcesUpdatedCount : Int
  sourceRevision : Int
  citations : Option String
  content : String

structure AnnotationKey where
  source : String
  sourceId : String
  contextKey : String
  deriving DecidableEq

structure Annotation where
  notes : String
  pageIds : List String
  version : Nat
  updatedAt : Int

/-- A row of `provenance_roots`. -/
structure ProvenanceRoot where
  rootId : String
  rootKind : String
  status : String
  independenceGroupId : String

inductive ClaimRole where
  | concept
  | witness
  deriving DecidableEq

/-- A row of `genesis_candidate_roots`. -/
structure CandidateRoot where
  candidateId : String
  group : GroupKey
  claimRole : ClaimRole
  releasedAt : Option Int

structure Database where
  spaces : List Space
  memories : List MemoryRow
  pages : List PageRow
  annotations : AList fun _ : AnnotationKey => Annotation
  /-- Entities with their pages. -/
  entityPageMap : List (String × String)
  /-- Claim revisions with the pages of their claims. -/
  claimPages : List (String × String)
  provenanceRoots : List ProvenanceRoot
  /-- Pages with the memories that `page_sources` names. -/
  pageSources : List (String × String)
  /-- Pages with the locators of their memory evidence. -/
  pageEvidence : List (String × String)
  candidateRoots : List CandidateRoot
  rows : (table : ClosureTable) → List (Row table)

namespace Database

variable {db : Database} {table other : ClosureTable}

def setRows (db : Database) (table : ClosureTable) (rows : List (Row table)) : Database :=
  { db with rows := Function.update db.rows table rows }

/-- The statement's `SELECT 1 FROM table WHERE space = name`. -/
def names (db : Database) (table : ClosureTable) (name : String) : Bool :=
  (db.rows table).any fun row => row.space == name

@[simp] theorem rows_setRows_self {rows : List (Row table)} :
    (db.setRows table rows).rows table = rows := by
  simp [setRows]

theorem rows_setRows_of_ne {rows : List (Row table)} (h : other ≠ table) :
    (db.setRows table rows).rows other = db.rows other := by
  simp [setRows, Function.update_of_ne h]

end Database

end Wenlan.Spaces
