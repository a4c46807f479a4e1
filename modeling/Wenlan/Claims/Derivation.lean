import Wenlan.Claims.Support

/-!
# Derivation jobs

The queue of `claim_derivation.rs` and the transactions of a promotion turn.  Between two
transactions of a turn the model is called and other workers go on, so every transaction is
a function of its own: it takes the job that the worker was given and looks for it again.
Two parts of a turn are parameters: the claims that a page's text is cut into, and the
verdict that the evaluator reads off the tables.
-/

namespace Wenlan.Claims

def extractorVersion : Int := 1

def leaseSecs : Int := 600

def maxAttempts : Nat := 5

def maxClaimsPerPage : Nat := 200

inductive JobStatus where
  | pending
  | leased
  | done_
  | parked
  deriving DecidableEq

/-- One row of `claim_derivation_jobs`. -/
structure Job where
  jobId : String
  pageId : String
  pageVersion : Int
  status : JobStatus
  leaseOwner : Option String := none
  leaseExpiresAt : Option Int := none
  attempts : Nat := 0
  runGeneration : Nat := 0
  eligibilityGeneration : Nat := 0
  lastError : Option String := none
  createdAt : Int
  updatedAt : Int

/-- What a worker is given with a lease: the identity of its run. -/
structure DerivationJob where
  jobId : String
  pageId : String
  pageVersion : Int
  runGeneration : Nat
  eligibilityGeneration : Nat
  deriving DecidableEq

inductive SupportStatus where
  | supported
  | provisional
  deriving DecidableEq

/-- One row of `page_truth_state`. -/
structure TruthRow where
  pageVersion : Int
  supportStatus : SupportStatus
  provisionalReason : Option String
  evaluatedAt : Option Int
  humanReviewed : Bool
  reviewedPageVersion : Option Int
  updatedAt : Int

structure PageText where
  version : Int
  content : String
  status : String
  kind : String

structure Marker where
  pageId : String
  pageVersion : Int
  pageVersionDigest : String
  extractorVersion : Int
  inventoryCount : Nat

inductive AttemptOutcome where
  | concluded
  | deferred

/-- One row of `claim_judgment_attempts`; its key is the candidate. -/
structure Attempt where
  candidate : RunCandidate
  outcome : AttemptOutcome
  updatedAt : Int

/-- One row of `claim_run_inventories`. -/
structure Seal where
  pageId : String
  pageVersion : Int
  runGeneration : Nat
  sealedAt : Int

inductive JudgeState where
  | active
  | draining
  | retired
  deriving DecidableEq

structure JudgeRow (Score : Type) where
  modelId : String
  modelVersion : String
  promptVersion : String
  state : JudgeState
  threshold : Score
  generation : Nat

/-- `support` is what the support edges rest on; the other columns of `pages` are here. -/
structure Derivation (Score : Type) where
  support : Database Score
  pages : String → Option PageText
  history : String → Int → Option String
  jobs : List Job
  lastGeneration : Nat
  judges : List (JudgeRow Score)
  lastEligibility : Nat
  truth : String → Option TruthRow
  markers : List Marker
  attempts : List Attempt
  seals : List Seal

structure DerivedClaim where
  claimId : String
  revisionId : String
  canonicalTextDigest : String

inductive SupportOutcome where
  | supported
  | refuted (reason : String)
  | unevaluated (reason : String)
  | noPublish (reason : String)
  deriving DecidableEq

def SupportOutcome.isNoPublish : SupportOutcome → Bool
  | .noPublish _ => true
  | _ => false

variable {Score : Type}

/-- `UPDATE claim_derivation_jobs SET … WHERE …` -/
def Derivation.updateJobs (d : Derivation Score) (where_ : Job → Bool) (set : Job → Job) :
    Derivation Score :=
  { d with jobs := d.jobs.map fun row => if where_ row then set row else row }

def Job.expired (row : Job) (now : Int) : Bool :=
  row.status == .leased && row.leaseExpiresAt.any fun at_ => decide (at_ ≤ now)

def Job.requeued (row : Job) (now : Int) : Job :=
  { row with
    status := .pending, leaseOwner := none, leaseExpiresAt := none, attempts := 0,
    lastError := none, updatedAt := now }

def Job.ended (row : Job) (status : JobStatus) (lastError : Option String) (now : Int) : Job :=
  { row with
    status := status, leaseOwner := none, leaseExpiresAt := none, lastError := lastError,
    updatedAt := now }

def jobIdOf (pageId : String) (pageVersion : Int) : String :=
  s!"{pageId}:{pageVersion}"

/-- `INSERT … ON CONFLICT(job_id) DO UPDATE … WHERE status IN …` -/
def enqueueJob (resets : List JobStatus) (now : Int) (jobs : List Job)
    (page : String × Int) : List Job :=
  let jobId := jobIdOf page.1 page.2
  if jobs.any fun row => row.jobId == jobId then
    jobs.map fun row =>
      if row.jobId == jobId && resets.contains row.status then row.requeued now else row
  else
    jobs ++ [{ jobId, pageId := page.1, pageVersion := page.2, status := .pending,
               createdAt := now, updatedAt := now }]

/-- The oldest row, by creation and then by id. -/
def Job.before (a b : Job) : Bool :=
  decide (a.createdAt < b.createdAt) ||
    (a.createdAt == b.createdAt && decide (a.jobId < b.jobId))

def oldest : List Job → Option Job
  | [] => none
  | row :: rest =>
    match oldest rest with
    | none => some row
    | some other => if other.before row then some other else some row

def Job.claimable (row : Job) (now : Int) : Bool :=
  decide (row.attempts < maxAttempts) && (row.status == .pending || row.expired now)

def Job.exhausted (row : Job) (now : Int) : Bool :=
  decide (maxAttempts ≤ row.attempts) && (row.status == .pending || row.expired now)

/-- The first statement of `lease_next_derivation_job`. -/
def reapExhausted (d : Derivation Score) (now : Int) : Derivation Score :=
  d.updateJobs (fun row => row.exhausted now) fun row =>
    row.ended .parked
      (row.lastError.orElse fun _ => some "derivation lease expired after maximum attempts") now

def allocateRunGeneration (d : Derivation Score) : Derivation Score :=
  { d with lastGeneration := d.lastGeneration + 1 }

def leaseNextDerivationJob (d : Derivation Score) (owner : String) (now : Int) :
    Option DerivationJob × Derivation Score :=
  let d := allocateRunGeneration (reapExhausted d now)
  match oldest (d.jobs.filter fun row => row.claimable now) with
  | none => (none, d)
  | some next =>
    (some {
        jobId := next.jobId, pageId := next.pageId, pageVersion := next.pageVersion,
        runGeneration := d.lastGeneration, eligibilityGeneration := d.lastEligibility },
      d.updateJobs (fun row => row.jobId == next.jobId) fun row =>
        { row with
          status := .leased, leaseOwner := some owner, leaseExpiresAt := some (now + leaseSecs),
          attempts := row.attempts + 1, runGeneration := d.lastGeneration,
          eligibilityGeneration := d.lastEligibility, updatedAt := now })

/-- The row is leased to this very run: an owner's name alone can come back. -/
def Job.isRun (row : Job) (job : DerivationJob) (owner : String) : Bool :=
  row.jobId == job.jobId && row.pageId == job.pageId && row.pageVersion == job.pageVersion &&
    row.runGeneration == job.runGeneration && row.status == .leased &&
    row.leaseOwner == some owner

def Job.isLease (row : Job) (job : DerivationJob) (owner : String) : Bool :=
  row.isRun job owner && row.eligibilityGeneration == job.eligibilityGeneration

def Derivation.holdsRun (d : Derivation Score) (job : DerivationJob) (owner : String) : Bool :=
  d.jobs.any fun row => row.isRun job owner

def Derivation.holdsLease (d : Derivation Score) (job : DerivationJob) (owner : String) : Bool :=
  d.jobs.any fun row => row.isLease job owner

/-! ## A turn -/

inductive DerivationWrite where
  | written
  | staleLease
  | tooManyClaims
  /-- `claim_derivation_stale_page`: the page is no longer active at this version. -/
  | stalePage

section Turn

variable (rt : Runtime Score) (extract : Derivation Score → DerivationJob → List DerivedClaim)
  (evaluate : Derivation Score → String → Int → SupportOutcome)

/-- The text that the job is about, if it is still the page's own and in its history. -/
def Derivation.jobText (d : Derivation Score) (job : DerivationJob) : Option String :=
  (d.pages job.pageId).bind fun page =>
    if page.version == job.pageVersion && page.status == "active" && page.kind != "entity" &&
        d.history job.pageId page.version == some page.content then some page.content
    else none

/-- The rows of a derived page version, each table as its own statement leaves it. -/
def writeClaims (d : Derivation Score) (job : DerivationJob) (digest : String)
    (claims : List DerivedClaim) : Derivation Score :=
  let support := d.support
  { d with
    support := { support with
      claims := fun key =>
        (support.claims key).orElse fun _ =>
          (claims.find? fun claim => claim.claimId == key).map fun _ => job.pageId
      claimRevisions := fun key =>
        (support.claimRevisions key).orElse fun _ =>
          (claims.find? fun claim => claim.revisionId == key).map fun claim =>
            ⟨claim.claimId, claim.canonicalTextDigest⟩
      pageVersionClaims :=
        support.pageVersionClaims.filter (fun row =>
          !(row.pageId == job.pageId && row.pageVersion == job.pageVersion)) ++
        claims.map fun claim => ⟨job.pageId, job.pageVersion, claim.revisionId⟩ }
    markers :=
      d.markers.filter (fun row =>
        !(row.pageId == job.pageId && row.pageVersion == job.pageVersion)) ++
      [⟨job.pageId, job.pageVersion, digest, extractorVersion, claims.length⟩] }

/-- `derive_leased_page_claims`; an inventory that is there already is used again. -/
def deriveLeasedPageClaims (d : Derivation Score) (job : DerivationJob) (owner : String) :
    DerivationWrite × Derivation Score :=
  if !d.holdsLease job owner then (.staleLease, d)
  else
    match d.jobText job with
    | none => (.stalePage, d)
    | some content =>
      let digest := revisionContentDigest rt content
      if d.markers.any fun row => row.pageId == job.pageId &&
          row.pageVersion == job.pageVersion && row.pageVersionDigest == digest &&
          row.extractorVersion == extractorVersion then (.written, d)
      else if maxClaimsPerPage < (extract d job).length then (.tooManyClaims, d)
      else (.written, writeClaims d job digest (extract d job))

def DerivationJob.candidate (job : DerivationJob) (locator : SupportLocator) : RunCandidate where
  pageId := job.pageId
  pageVersion := job.pageVersion
  runGeneration := job.runGeneration
  locator := locator

def DerivationJob.owns (job : DerivationJob) (row : RunCandidate) : Bool :=
  row.pageId == job.pageId && row.pageVersion == job.pageVersion &&
    row.runGeneration == job.runGeneration

/-- `record_run_candidate_inventory`: the set and its seal replace what the run had. -/
def recordRunCandidateInventory (d : Derivation Score) (job : DerivationJob) (owner : String)
    (candidates : List SupportLocator) (now : Int) : Bool × Derivation Score :=
  if !d.holdsRun job owner then (false, d)
  else
    (true, { d with
        support := { d.support with
          runCandidates :=
            d.support.runCandidates.filter (fun row => !job.owns row) ++
              candidates.dedup.map job.candidate }
        seals :=
          d.seals.filter (fun row => !(row.pageId == job.pageId &&
            row.pageVersion == job.pageVersion && row.runGeneration == job.runGeneration)) ++
          [⟨job.pageId, job.pageVersion, job.runGeneration, now⟩] })

/-- `INSERT OR REPLACE INTO claim_judgment_attempts` -/
def Derivation.attempt (d : Derivation Score) (job : DerivationJob) (outcome : AttemptOutcome)
    (now : Int) (locator : SupportLocator) : Derivation Score :=
  { d with
    attempts := d.attempts.filter (fun row => row.candidate != job.candidate locator) ++
      [⟨job.candidate locator, outcome, now⟩] }

/-- A score of the judge that is not in the cache yet; a row of another backend is replaced,
one of this backend is kept. -/
structure CacheMiss (Score : Type) where
  key : CacheKey
  score : Score
  thresholdAtWrite : Score

def cacheScore (db : Database Score) (miss : CacheMiss Score) : Database Score :=
  let kept := (db.entailmentCache miss.key).any fun row => row.backend == entailmentCacheBackend
  if kept then db
  else { db with
    entailmentCache := fun key =>
      if key = miss.key then some ⟨miss.score, miss.thresholdAtWrite, entailmentCacheBackend⟩
      else db.entailmentCache key }

def persistRunJudgments (d : Derivation Score) (job : DerivationJob) (owner : String)
    (candidates : List SupportLocator) (misses : List (CacheMiss Score)) (now : Int) :
    Bool × Derivation Score :=
  if !d.holdsLease job owner || d.lastEligibility != job.eligibilityGeneration then (false, d)
  else
    let attempted := candidates.foldl (fun d locator => d.attempt job .concluded now locator) d
    (true, { attempted with
        support := retireStaleSupport (misses.foldl cacheScore attempted.support) job.pageId
          job.pageVersion job.runGeneration now })

def persistDeferredAttempts (d : Derivation Score) (job : DerivationJob) (owner : String)
    (candidates : List SupportLocator) (now : Int) : Bool × Derivation Score :=
  if !d.holdsLease job owner || d.lastEligibility != job.eligibilityGeneration then (false, d)
  else (true, candidates.foldl (fun d locator => d.attempt job .deferred now locator) d)

def publishedTruth (stored : Option TruthRow) (pageVersion : Int) (outcome : SupportOutcome)
    (now : Int) : TruthRow where
  pageVersion := pageVersion
  supportStatus := match outcome with
    | .supported => .supported
    | _ => .provisional
  provisionalReason := match outcome with
    | .refuted reason => some reason
    | .unevaluated reason => some reason
    | _ => none
  evaluatedAt := match outcome with
    | .supported => some now
    | .refuted _ => some now
    | _ => none
  humanReviewed := stored.any fun row =>
    row.reviewedPageVersion == some pageVersion && row.humanReviewed
  reviewedPageVersion := stored.bind TruthRow.reviewedPageVersion
  updatedAt := now

/-- `finalize_page_support`: the exact lease, the judges it was leased under, and the verdict
once more. -/
def finalizePageSupport (d : Derivation Score) (pageId : String) (pageVersion : Int)
    (job : DerivationJob) (owner : String) (outcome : SupportOutcome) (now : Int) :
    Bool × Derivation Score :=
  if outcome.isNoPublish then (false, d)
  else if !d.holdsLease job owner then (false, d)
  else if job.pageId != pageId || job.pageVersion != pageVersion then (false, d)
  else if d.lastEligibility != job.eligibilityGeneration then (false, d)
  else if evaluate d pageId pageVersion ≠ outcome then (false, d)
  else
    (true, { d with
        truth := fun key =>
          if key = pageId then some (publishedTruth (d.truth pageId) pageVersion outcome now)
          else d.truth key })

/-- The statement behind `finish`, `release` and `park`, and whether it found the run. -/
def endRun (d : Derivation Score) (where_ : Job → Bool) (status : JobStatus)
    (lastError : Option String) (now : Int) : Bool × Derivation Score :=
  (d.jobs.any where_, d.updateJobs where_ fun row => row.ended status lastError now)

def finishDerivationJob (d : Derivation Score) (job : DerivationJob) (owner : String)
    (now : Int) : Bool × Derivation Score :=
  endRun d (fun row => row.isRun job owner) .done_ none now

def releaseDerivationJob (d : Derivation Score) (job : DerivationJob) (owner error : String)
    (now : Int) : Bool × Derivation Score :=
  endRun d (fun row => row.isRun job owner) .pending (some error) now

def parkLeasedDerivationJob (d : Derivation Score) (job : DerivationJob) (owner reason : String)
    (now : Int) : Bool × Derivation Score :=
  endRun d (fun row => row.isLease job owner) .parked (some reason) now

/-- `park_exhausted_derivation_jobs`: it belongs to no run, and leaves alone every lease that
has not expired. -/
def parkExhaustedDerivationJobs (d : Derivation Score) (now : Int) : Derivation Score :=
  d.updateJobs (fun row => row.exhausted now) fun row => row.ended .parked row.lastError now

end Turn

def demote (pages : List String) (reason : String) (now : Int)
    (truth : String → Option TruthRow) : String → Option TruthRow :=
  fun key => (truth key).map fun row =>
    if row.supportStatus == .supported && pages.contains key then
      { row with supportStatus := .provisional, provisionalReason := some reason,
                 evaluatedAt := none, updatedAt := now }
    else row

/-- The active pages among `pages`, with their versions; shadow pages of entities are none. -/
def Derivation.derivable (d : Derivation Score) (pages : List String) : List (String × Int) :=
  pages.filterMap fun pageId => (d.pages pageId).bind fun page =>
    if page.status == "active" && page.kind != "entity" then some (pageId, page.version) else none

/-- Both statements of `support_demotion_statements`. -/
def demoteSupport (d : Derivation Score) (pages : List String) (reason : String) (now : Int) :
    Derivation Score :=
  { d with
    truth := demote pages reason now d.truth
    jobs := (d.derivable pages).foldl (enqueueJob [.done_] now) d.jobs }

/-- The condition of `m5_page_update_enqueues_derivation` and of its twin that demotes. -/
def edited (old : Option PageText) (new : PageText) : Bool :=
  new.status == "active" && new.kind != "entity" &&
    old.all fun old =>
      new.version != old.version || new.content != old.content || old.status != "active"

def putPage (d : Derivation Score) (pageId : String) (page : PageText) (now : Int) :
    Derivation Score :=
  let stored := { d with
    pages := fun key => if key = pageId then some page else d.pages key
    history := fun key version =>
      if key = pageId ∧ version = page.version then some page.content else d.history key version }
  if edited (d.pages pageId) page then
    demoteSupport stored [pageId]
      "supporting evidence was withdrawn; this page needs re-derivation" now
  else stored

def dropPage (d : Derivation Score) (pageId : String) (now : Int) : Derivation Score :=
  { d with
    support := deletePage d.support pageId now
    pages := fun key => if key = pageId then none else d.pages key
    jobs := d.jobs.filter fun row => row.pageId != pageId
    truth := fun key => if key = pageId then none else d.truth key
    markers := d.markers.filter fun row => row.pageId != pageId
    attempts := d.attempts.filter fun row => row.candidate.pageId != pageId
    seals := d.seals.filter fun row => row.pageId != pageId }

/-- `sweep_stale_derivation_jobs` on the batch it has captured; the pages of `drifted` are
demoted after they are queued. -/
def sweepStaleDerivationJobs (d : Derivation Score) (batch : List (String × Int))
    (drifted : List String) (now : Int) : Derivation Score :=
  let kept := d.jobs.filter fun row =>
    !(row.status == .done_ && batch.contains (row.pageId, row.pageVersion))
  { d with
    jobs := batch.foldl (enqueueJob [] now) kept
    truth := demote drifted
      "supporting evidence no longer clears the threshold; this page needs re-derivation" now
      d.truth }

/-- `M5_PRODUCTION_JUDGE_MODEL_ID`, `…_VERSION` and the version of the prompt. -/
def productionJudge : String × String × String :=
  ("qwen3-4b", "hf:unsloth/Qwen3-4B-Instruct-2507-GGUF@a06e946bb6b655725eafa393f4a9745d460374c9/" ++
      "Qwen3-4B-Instruct-2507-Q4_K_M.gguf",
    "m5-claim-entailment-v1")

def JudgeRow.isProduction (row : JudgeRow Score) : Bool :=
  (row.modelId, row.modelVersion, row.promptVersion) == productionJudge

/-- The transaction of `activate_approved_m5_claim_judge`, once its checks have asked for it:
the generation goes up, every other active judge is drained, and the supported pages are
queued again. -/
def activateJudge (d : Derivation Score) (threshold : Score) (supported : List String)
    (now : Int) : Derivation Score :=
  let generation := d.lastEligibility + 1
  let drained := d.judges.map fun row =>
    if row.isProduction then { row with generation }
    else if row.state == .active then { row with state := .draining, generation }
    else row
  { d with
    lastEligibility := generation
    judges :=
      if d.judges.any JudgeRow.isProduction then drained
      else drained ++ [⟨productionJudge.1, productionJudge.2.1, productionJudge.2.2, .active,
        threshold, generation⟩]
    jobs := (d.derivable (supported.filter fun pageId =>
        (d.truth pageId).any fun row => row.supportStatus == .supported &&
          (d.pages pageId).any fun page => page.version == row.pageVersion)).foldl
      (enqueueJob [.done_, .parked] now) d.jobs }

def requeueParked (d : Derivation Score) (errors : String → Bool) (now : Int) : Derivation Score :=
  d.updateJobs (fun row => row.status == .parked && row.lastError.any errors) fun row =>
    row.requeued now

end Wenlan.Claims
