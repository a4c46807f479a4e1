import Mathlib.Data.List.Dedup
import Mathlib.Data.List.Sort
import Wenlan.Genesis.Leases
import Wenlan.Support.Fallible

/-!
# The genesis tables

The tables that candidates, claims and the frontier are kept in, with the columns that a
statement reads; receipts, payloads and the creation time of a candidate are left out.  A home of
an independence group is its row in a table for a space and a coverage epoch.
-/

namespace Wenlan.Genesis

open Support (KeyTable)

inductive SignalKind where
  | evidenceCluster
  | orphanWikilink
  | communityOverview
  | spaceOverview
  deriving DecidableEq

def SignalKind.tag : SignalKind → String
  | .evidenceCluster => "evidence-cluster"
  | .orphanWikilink => "orphan-wikilink"
  | .communityOverview => "community-overview"
  | .spaceOverview => "space-overview"

inductive CandidateState where
  | observed
  | prepared
  | inferencing
  | validating
  | published
  | retryWait
  | stale
  | reviewRequired
  | suppressed
  | superseded
  deriving DecidableEq

inductive ClaimRole where
  | concept
  | witness
  deriving DecidableEq

/-- Two of the four signals claim their groups, the overviews only look at them. -/
def claimRoleFor : SignalKind → ClaimRole
  | .evidenceCluster | .orphanWikilink => .concept
  | .communityOverview | .spaceOverview => .witness

structure CandidateRow where
  slotId : String
  pageId : String
  space : String
  signalKind : SignalKind
  coverageEpoch : Int
  inputGeneration : Int
  activeRootDigest : String
  state : CandidateState
  reason : Option String
  attempt : Int
  nextAttemptAt : Option Int
  leaseToken : Option String

@[ext] structure ClaimKey where
  candidateId : String
  rootId : String
  deriving DecidableEq, Repr

structure ClaimRow where
  independenceGroupId : String
  coverageEpoch : Int
  claimRole : ClaimRole
  releasedAt : Option Int
  releasedReason : Option String
  createdAt : Int

/-- The claim is an unreleased one of its group, the only kind that excludes others. -/
def ClaimRow.exclusive (claim : ClaimRow) : Prop :=
  claim.claimRole = .concept ∧ claim.releasedAt = none

instance (claim : ClaimRow) : Decidable claim.exclusive :=
  inferInstanceAs (Decidable (_ ∧ _))

/-- `idx_genesis_root_claim`. -/
def rootClaim (key : ClaimKey) (claim : ClaimRow) : Option (String × Int) :=
  if claim.exclusive then some (key.rootId, claim.coverageEpoch) else none

/-- `idx_genesis_group_claim`. -/
def groupClaim (_ : ClaimKey) (claim : ClaimRow) : Option (String × Int) :=
  if claim.exclusive then some (claim.independenceGroupId, claim.coverageEpoch) else none

structure GroupKey where
  space : String
  independenceGroupId : String
  coverageEpoch : Int
  deriving DecidableEq

structure GroupCoverage where
  pageId : String
  candidateId : String
  coveredAt : Int

structure FrontierRow where
  firstSeenAt : Int
  nextScanAt : Int

structure CardKey where
  home : GroupKey
  cardId : String
  deriving DecidableEq

structure CardBinding where
  pageId : String
  firstSeenAt : Int
  createdAt : Int
  closedAt : Option Int

structure SuppressionKey where
  home : GroupKey
  suppressedAt : Int
  deriving DecidableEq

structure Suppression where
  pageId : String
  reason : String
  firstSeenAt : Int
  expiresAt : Int
  lapsedAt : Option Int

structure QuarantineKey where
  home : GroupKey
  quarantinedAt : Int
  deriving DecidableEq

structure Quarantine where
  reason : String
  firstSeenAt : Int
  liftedAt : Option Int

/-- `idx_genesis_card_binding_one_live`. -/
def liveCard (key : CardKey) (binding : CardBinding) : Option GroupKey :=
  if binding.closedAt = none then some key.home else none

/-- `idx_genesis_suppression_one_live`. -/
def liveSuppression (key : SuppressionKey) (row : Suppression) : Option GroupKey :=
  if row.lapsedAt = none then some key.home else none

/-- `idx_genesis_quarantine_one_live`. -/
def liveQuarantine (key : QuarantineKey) (row : Quarantine) : Option GroupKey :=
  if row.liftedAt = none then some key.home else none

structure ProvenanceRoot where
  independenceGroupId : String
  status : String
  rootKind : String

structure EvidenceEdge where
  space : String
  rootId : String
  grounded : Bool
  validUntil : Option Int

/-- `unixepoch()`: each statement that reads the clock first lets some seconds pass. -/
structure Clock where
  now : Int
  waits : ℕ → ℕ

def Clock.tick (clock : Clock) : Clock :=
  ⟨clock.now + clock.waits 0, fun n => clock.waits (n + 1)⟩

structure Db where
  leases : Leases
  candidates : KeyTable String CandidateRow
  claims : KeyTable ClaimKey ClaimRow
  coverage : KeyTable GroupKey GroupCoverage
  frontier : KeyTable GroupKey FrontierRow
  cards : KeyTable CardKey CardBinding
  suppressions : KeyTable SuppressionKey Suppression
  quarantines : KeyTable QuarantineKey Quarantine
  roots : KeyTable String ProvenanceRoot
  edges : List EvidenceEdge
  clock : Clock
  /-- The tokens that the generator will give. -/
  tokens : ℕ → String

namespace Db

def now (db : Db) : Int := db.clock.now

def tick (db : Db) : Db := { db with clock := db.clock.tick }

variable (db : Db)

@[simp] theorem tick_leases : db.tick.leases = db.leases := rfl
@[simp] theorem tick_candidates : db.tick.candidates = db.candidates := rfl
@[simp] theorem tick_claims : db.tick.claims = db.claims := rfl
@[simp] theorem tick_coverage : db.tick.coverage = db.coverage := rfl
@[simp] theorem tick_frontier : db.tick.frontier = db.frontier := rfl
@[simp] theorem tick_cards : db.tick.cards = db.cards := rfl
@[simp] theorem tick_suppressions : db.tick.suppressions = db.suppressions := rfl
@[simp] theorem tick_quarantines : db.tick.quarantines = db.quarantines := rfl
@[simp] theorem tick_roots : db.tick.roots = db.roots := rfl
@[simp] theorem tick_edges : db.tick.edges = db.edges := rfl

theorem now_le_tick : db.now ≤ db.tick.now := by
  show db.clock.now ≤ db.clock.now + db.clock.waits 0
  omega

end Db

/-- `FrontierPolicyError`: a constraint that the database refused, or a broken invariant. -/
inductive FrontierPolicyError where
  | database (table : String)
  | notInFrontier (group : GroupKey)
  | noLiveQuarantine (group : GroupKey)
  | notExactlyOne (message : String) (affected : ℕ)
  | closedCount (cardId : String) (selected closed : ℕ)

inductive GenesisError where
  | notFound (message : String)
  | conflict (message : String)
  | doubleBooked (space : String) (coverageEpoch : Int) (groups : List (String × ℕ))
  | vectorDb (context : String)
  | policy (context : String) (error : FrontierPolicyError)

/-- `CHECK(length(trim(text)) > 0)`: `trim` takes blanks away, `length` ends at a zero. -/
def filled (text : String) : Bool :=
  ((text.toList.dropWhile (· == ' ')).head?).any (· != '\x00')

/-- Groups as `SELECT DISTINCT … ORDER BY` returns them. -/
def distinctSorted (groups : List String) : List String :=
  groups.dedup.insertionSort (· ≤ ·)

@[simp] theorem mem_distinctSorted {groups : List String} {group : String} :
    group ∈ distinctSorted groups ↔ group ∈ groups := by
  rw [distinctSorted, List.mem_insertionSort, List.mem_dedup]

end Wenlan.Genesis
