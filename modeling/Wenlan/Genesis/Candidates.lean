import Wenlan.Genesis.Frontier

/-!
# Candidates and their claims

`m6/candidates.rs`: the transitions of a candidate, the claims it makes when it is prepared and
the release of these when it leaves.
-/

namespace Wenlan.Genesis

open Support (KeyTable)
open Support.Fallible (check)

namespace CandidateState

def asStr : CandidateState → String
  | .observed => "observed"
  | .prepared => "prepared"
  | .inferencing => "inferencing"
  | .validating => "validating"
  | .published => "published"
  | .retryWait => "retry_wait"
  | .stale => "stale"
  | .reviewRequired => "review_required"
  | .suppressed => "suppressed"
  | .superseded => "superseded"

def pending : List CandidateState := [.observed, .prepared, .inferencing, .validating, .retryWait]

end CandidateState

structure CandidateTransition where
  id : String
  source : CandidateState
  target : CandidateState

def candidateTransitions : List CandidateTransition :=
  [⟨"A2", .observed, .prepared⟩, ⟨"A3", .observed, .stale⟩, ⟨"A4", .observed, .superseded⟩,
    ⟨"A5", .prepared, .inferencing⟩, ⟨"A6", .prepared, .retryWait⟩, ⟨"A7", .prepared, .stale⟩,
    ⟨"A7", .inferencing, .stale⟩, ⟨"A7", .validating, .stale⟩,
    ⟨"A8", .inferencing, .validating⟩, ⟨"A9", .inferencing, .retryWait⟩,
    ⟨"A10", .validating, .published⟩, ⟨"A11", .validating, .retryWait⟩,
    ⟨"A12", .validating, .reviewRequired⟩, ⟨"A13", .retryWait, .prepared⟩,
    ⟨"A14", .retryWait, .stale⟩, ⟨"A15", .retryWait, .stale⟩,
    ⟨"A16", .retryWait, .superseded⟩, ⟨"A17", .reviewRequired, .suppressed⟩,
    ⟨"A18", .reviewRequired, .stale⟩, ⟨"A19", .stale, .prepared⟩,
    ⟨"A1", .observed, .observed⟩]

def transitionIsLegal (source target : CandidateState) : Bool :=
  candidateTransitions.any fun edge => edge.source == source && edge.target == target

def guardTransition (source target : CandidateState) : Except GenesisError Unit :=
  check (transitionIsLegal source target = true)
    (.conflict s!"m6 candidate: {source.asStr} → {target.asStr} is not a machine-A transition")

def retryAttemptLimit : Int := 5

def retryBaseDelaySeconds : Int := 60

def retryMaxDelaySeconds : Int := 4 * 3600

/-- The loop of `retry_backoff_seconds`, with the turns that are left. -/
def backoffLoop : ℕ → Int → Int
  | 0, delay => min delay retryMaxDelaySeconds
  | turns + 1, delay =>
    if retryMaxDelaySeconds ≤ delay * 4 then retryMaxDelaySeconds
    else backoffLoop turns (delay * 4)

def retryBackoffSeconds (attempt : Int) : Int :=
  if attempt ≤ 0 then 0 else backoffLoop (attempt - 1).toNat retryBaseDelaySeconds

inductive StaleReason where
  | inputMoved
  | leaseLost
  | retryExhausted
  | cardExpired

namespace StaleReason

def asStr : StaleReason → String
  | .inputMoved => "input_moved"
  | .leaseLost => "lease_lost"
  | .retryExhausted => "retry_exhausted"
  | .cardExpired => "card_expired"

def reEntryDelaySeconds (attempt : Int) : StaleReason → Int
  | .inputMoved => 0
  | .leaseLost => retryBackoffSeconds attempt
  | .retryExhausted => 86400
  | .cardExpired => 180 * 86400

end StaleReason

/-- Whether an entry of `retry_wait` costs an attempt. -/
inductive RetryCharge where
  | budgetRefusal
  | charged

namespace Db

def requireOneRow (affected : ℕ) (what : String) : Except GenesisError Unit :=
  check (affected = 1) (.conflict s!"m6 {what} affected {affected} rows, expected exactly 1")

/-- `read_candidate`, where a missing row is an error. -/
def findCandidate (candidateId what : String) (db : Db) : Except GenesisError CandidateRow :=
  match db.candidates.lookup candidateId with
  | none => .error (.notFound s!"m6 {what}: no candidate {candidateId}")
  | some candidate => .ok candidate

/-- `UPDATE genesis_candidates … WHERE candidate_id = ? AND state IN (…)`. -/
def updateCandidate (candidateId : String) (states : List CandidateState)
    (change : CandidateRow → CandidateRow) (db : Db) : Db × ℕ :=
  let chosen := fun (key : String) (candidate : CandidateRow) =>
    key == candidateId && states.contains candidate.state
  ({ db with
    candidates := KeyTable.update (fun key candidate =>
      if chosen key candidate then change candidate else candidate) db.candidates },
    (KeyTable.select chosen db.candidates).length)

structure ObservedCandidate where
  candidateId : String
  slotId : String
  pageId : String
  space : String
  signalKind : SignalKind
  coverageEpoch : Int
  inputGeneration : Int
  activeRootDigest : String

inductive ObserveOutcome where
  | observed
  | alreadyPresent
  | refusedPendingCap
  deriving DecidableEq

def pendingCandidatesPerSpaceCap : ℕ := 128

def pendingCandidateCount (space : String) (db : Db) : ℕ :=
  (KeyTable.select (fun _ candidate => candidate.space == space &&
    CandidateState.pending.contains candidate.state) db.candidates).length

def observeCandidate (candidate : ObservedCandidate) (db : Db) : Db × ObserveOutcome :=
  if candidate.candidateId ∈ db.candidates then (db, .alreadyPresent)
  else if pendingCandidatesPerSpaceCap ≤ db.pendingCandidateCount candidate.space then
    (db, .refusedPendingCap)
  else
    ({ db with
      candidates := db.candidates.insert candidate.candidateId
        { slotId := candidate.slotId
          pageId := candidate.pageId
          space := candidate.space
          signalKind := candidate.signalKind
          coverageEpoch := candidate.coverageEpoch
          inputGeneration := candidate.inputGeneration
          activeRootDigest := candidate.activeRootDigest
          state := .observed
          reason := none
          attempt := 0
          nextAttemptAt := none
          leaseToken := none } }, .observed)

def backoffElapsed (candidate : CandidateRow) (db : Db) : Bool :=
  decide (candidate.nextAttemptAt.getD 0 ≤ db.now)

/-! ## Claims -/

structure ClaimReservation where
  rootId : String
  independenceGroupId : String

/-- The row that the upsert of `insert_claim` leaves: a row of the candidate's own keeps the time
it was created. -/
def claimRow (claim : ClaimReservation) (coverageEpoch : Int) (role : ClaimRole) (now : Int)
    (own : Option ClaimRow) : ClaimRow where
  independenceGroupId := claim.independenceGroupId
  coverageEpoch := coverageEpoch
  claimRole := role
  releasedAt := none
  releasedReason := none
  createdAt := (own.map (·.createdAt)).getD now

/-- `insert_claim`; the two partial indexes refuse it, and nothing else. -/
def insertClaim (candidateId : String) (coverageEpoch : Int) (role : ClaimRole)
    (claim : ClaimReservation) (db : Db) : Option Db :=
  let db := db.tick
  let key : ClaimKey := ⟨candidateId, claim.rootId⟩
  let row := claimRow claim coverageEpoch role db.now (db.claims.lookup key)
  if KeyTable.clashes rootClaim key row db.claims || KeyTable.clashes groupClaim key row db.claims
  then none
  else some { db with claims := db.claims.insert key row }

/-- The loop over the claims: the database as the last accepted one left it, and the root that
was refused. -/
def insertClaims (candidateId : String) (coverageEpoch : Int) (role : ClaimRole) :
    List ClaimReservation → Db → Db × Option String
  | [], db => (db, none)
  | claim :: claims, db =>
    match db.insertClaim candidateId coverageEpoch role claim with
    | none => (db.tick, some claim.rootId)
    | some db => insertClaims candidateId coverageEpoch role claims db

def distinctGroups (claims : List ClaimReservation) : List String :=
  distinctSorted (claims.map (·.independenceGroupId))

/-- `acquire` on the registry of the database, with the next token. -/
def acquireLease (phase : LeasePhase) (space : String) (inputGeneration attempt : Int)
    (db : Db) : Db × Option String :=
  let inserting := db.tick.tick
  let (token, leases) := Leases.acquire phase space inputGeneration attempt (db.tokens 0)
    db.tick.now inserting.now db.leases
  ({ inserting with leases := leases, tokens := fun n => db.tokens (n + 1) }, token)

inductive PrepareOutcome where
  | prepared (leaseToken : String)
  | leaseHeld
  | notDue
  | claimRefused (rootId : String)
  deriving DecidableEq

def retireFrontierRows (space : String) (coverageEpoch : Int) (groups : List String)
    (db : Db) : Db :=
  groups.foldl (fun db group => (db.retireFrontierRow ⟨space, group, coverageEpoch⟩).1) db

/-- The end of `prepare_candidate`, with every claim accepted. -/
def finishPrepare (candidateId : String) (candidate : CandidateRow)
    (claims : List ClaimReservation) (leaseToken : String) (db : Db) :
    Except GenesisError (Db × PrepareOutcome) := do
  let db := if claimRoleFor candidate.signalKind = .concept then
      db.retireFrontierRows candidate.space candidate.coverageEpoch (distinctGroups claims)
    else db
  let attempt := if candidate.state = .stale then 0 else candidate.attempt
  let (db, affected) := db.updateCandidate candidateId [.observed, .retryWait, .stale]
    fun row => { row with
      state := .prepared, leaseToken := some leaseToken, attempt := attempt,
      reason := none, nextAttemptAt := none }
  requireOneRow affected "A2/A13/A19 prepare"
  return (db, .prepared leaseToken)

/-- `prepare_candidate` of a candidate that is due. -/
def prepareDue (candidateId : String) (candidate : CandidateRow)
    (claims : List ClaimReservation) (db : Db) : Except GenesisError (Db × PrepareOutcome) :=
  match db.acquireLease .genesis candidate.space candidate.inputGeneration candidate.attempt with
  | (db, none) => .ok (db, .leaseHeld)
  | (db, some leaseToken) =>
    match db.insertClaims candidateId candidate.coverageEpoch
        (claimRoleFor candidate.signalKind) claims with
    | (db, some rootId) => .ok (db, .claimRefused rootId)
    | (db, none) => db.finishPrepare candidateId candidate claims leaseToken

/-- The candidate comes back from a wait or from `stale`. -/
def reEntry (candidate : CandidateRow) : Bool :=
  candidate.state == .retryWait || candidate.state == .stale

/-- `prepare_candidate`; after a refused claim the database is as the refusal left it, and it is
the caller who has to roll back. -/
def prepareCandidate (candidateId : String) (claims : List ClaimReservation) (db : Db) :
    Except GenesisError (Db × PrepareOutcome) := do
  let candidate ← db.findCandidate candidateId "prepare"
  check (transitionIsLegal candidate.state .prepared = true)
    (.conflict s!"m6 prepare: {candidate.state.asStr} → prepared is not a machine-A transition")
  if reEntry candidate then
    if db.tick.backoffElapsed candidate then db.tick.prepareDue candidateId candidate claims
    else return (db.tick, .notDue)
  else db.prepareDue candidateId candidate claims

/-- `fill_groups`: the group of each root, and a root without a row is dropped. -/
def fillGroups (rootIds : List String) (db : Db) : List ClaimReservation :=
  rootIds.filterMap fun rootId =>
    (db.roots.lookup rootId).map fun root => ⟨rootId, root.independenceGroupId⟩

/-- `move_state`, with no reason of its own. -/
def moveState (candidateId : String) (sources : List CandidateState) (target : CandidateState)
    (db : Db) : Except GenesisError Db := do
  let candidate ← db.findCandidate candidateId "transition"
  guardTransition candidate.state target
  check (candidate.state ∈ sources)
    (.conflict s!"m6 candidate {candidateId} is {candidate.state.asStr} , not one of its sources")
  let (db, affected) := db.updateCandidate candidateId [candidate.state]
    fun row => { row with state := target }
  requireOneRow affected "machine-A transition"
  return db

def markInferencing (candidateId : String) (db : Db) : Except GenesisError Db :=
  db.moveState candidateId [.prepared] .inferencing

def markValidating (candidateId : String) (db : Db) : Except GenesisError Db :=
  db.moveState candidateId [.inferencing] .validating

/-- `mark_retry_wait`, which keeps the claims. -/
def markRetryWait (candidateId : String) (charge : RetryCharge) (db : Db) :
    Except GenesisError Db := do
  let candidate ← db.findCandidate candidateId "retry_wait"
  guardTransition candidate.state .retryWait
  let db := db.tick
  let attempt := match charge with
    | .budgetRefusal => candidate.attempt
    | .charged => candidate.attempt + 1
  let delay := match charge with
    | .budgetRefusal => 0
    | .charged => retryBackoffSeconds attempt
  let (db, affected) := db.updateCandidate candidateId [.prepared, .inferencing, .validating]
    fun row => { row with
      state := .retryWait, attempt := attempt, nextAttemptAt := some (db.now + delay) }
  requireOneRow affected "A6/A9/A11 retry_wait"
  return db

def candidateConceptGroups (candidateId : String) (liveOnly : Bool) (db : Db) : List String :=
  distinctSorted ((KeyTable.select (fun key claim => key.candidateId == candidateId &&
    decide (claim.claimRole = .concept) && (!liveOnly || claim.releasedAt == none))
    db.claims).map fun row => row.2.independenceGroupId)

/-- `UPDATE genesis_candidate_roots SET released_at … WHERE released_at IS NULL`. -/
def releaseClaims (candidateId reason : String) (db : Db) : Db :=
  let db := db.tick
  { db with
    claims := KeyTable.update (fun key claim =>
      if key.candidateId == candidateId && claim.releasedAt == none then
        { claim with releasedAt := some db.now, releasedReason := some reason }
      else claim) db.claims }

def restoreFrontierRows (space : String) (coverageEpoch : Int) (groups : List String)
    (db : Db) : Db :=
  groups.foldl (fun db group => db.restoreFrontierRow ⟨space, group, coverageEpoch⟩) db

/-- `release_claims_to_frontier`, with the groups that return. -/
def releaseClaimsToFrontier (candidateId : String) (candidate : CandidateRow) (reason : String)
    (db : Db) : Db × List String :=
  let groups := db.candidateConceptGroups candidateId true
  ((db.releaseClaims candidateId reason).restoreFrontierRows candidate.space
    candidate.coverageEpoch groups, groups)

def settleGroupsToFrontier (candidateId : String) (candidate : CandidateRow) (reason : String)
    (db : Db) : Except GenesisError Db := do
  let (db, _) := db.releaseClaimsToFrontier candidateId candidate reason
  (db.candidateConceptGroups candidateId false).foldlM (fun db group => do
    let (db, _) ← db.expireCardBindingToFrontier
      ⟨candidate.space, group, candidate.coverageEpoch⟩
    return db) db

def markStale (candidateId : String) (reason : StaleReason) (db : Db) : Except GenesisError Db := do
  let candidate ← db.findCandidate candidateId "stale"
  guardTransition candidate.state .stale
  let db ← db.settleGroupsToFrontier candidateId candidate reason.asStr
  let db := db.tick
  let delay := reason.reEntryDelaySeconds candidate.attempt
  let (db, affected) := db.updateCandidate candidateId
    [.observed, .prepared, .inferencing, .validating, .retryWait, .reviewRequired]
    fun row => { row with
      state := .stale, reason := some reason.asStr, leaseToken := none,
      nextAttemptAt := some (db.now + delay) }
  requireOneRow affected "A3/A7/A14/A15/A18 stale"
  return db

def markSuperseded (candidateId : String) (db : Db) : Except GenesisError Db := do
  let candidate ← db.findCandidate candidateId "superseded"
  guardTransition candidate.state .superseded
  let db ← db.settleGroupsToFrontier candidateId candidate "slot_published"
  let (db, affected) := db.updateCandidate candidateId [.observed, .retryWait]
    fun row => { row with
      state := .superseded, reason := some "slot_published", leaseToken := none,
      nextAttemptAt := none }
  requireOneRow affected "A4/A16 superseded"
  return db

/-- `mark_review_required`: the claims are released and their groups bound to the card. -/
def markReviewRequired (candidateId cardId : String) (db : Db) : Except GenesisError Db := do
  let candidate ← db.findCandidate candidateId "review_required"
  guardTransition candidate.state .reviewRequired
  let (db, groups) := db.releaseClaimsToFrontier candidateId candidate "review_required"
  let db ← (db.bindFrontierGroupsToCard candidate.space candidate.coverageEpoch cardId
    (groups.map fun group => ⟨group, candidate.pageId⟩)).mapError (.policy "m6 review card binding")
  let (db, affected) := db.updateCandidate candidateId [.validating]
    fun row => { row with
      state := .reviewRequired, reason := some "review_required", leaseToken := none,
      nextAttemptAt := none }
  requireOneRow affected "A12 review_required"
  return db

def markSuppressed (candidateId cardId reason : String) (db : Db) : Except GenesisError Db := do
  let candidate ← db.findCandidate candidateId "suppressed"
  guardTransition candidate.state .suppressed
  let db ← (db.dismissCardToSuppression cardId reason).mapError (.policy "m6 card dismissal")
  let (db, affected) := db.updateCandidate candidateId [.reviewRequired]
    fun row => { row with
      state := .suppressed, reason := some reason, leaseToken := none, nextAttemptAt := none }
  requireOneRow affected "A17 suppressed"
  return db

end Db

end Wenlan.Genesis
