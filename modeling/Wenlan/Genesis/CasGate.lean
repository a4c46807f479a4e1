import Wenlan.Genesis.ClaimTransitions
import Wenlan.Genesis.Identity

/-!
# The gate before a publication

`m6/finalize.rs`: a dry run compares what a candidate stored when it was observed and prepared
with what it reads now.  The last three of the eight gates, which read edges, communities and
pages, are taken as they come.
-/

namespace Wenlan.Genesis

open Support (KeyTable)
open Support.Fallible (bind_ok)

inductive EpochState where
  | active
  | migrating
  deriving DecidableEq

structure CoverageState where
  coverageEpoch : Int
  epochState : EpochState

/-- A row of `space_graph_state`. -/
structure SpaceGraph where
  groupingGeneration : Int
  publishedGeneration : Option Int

inductive CasGate where
  | leaseOwnership
  | inputGeneration
  | rootDigest
  | coverageEpoch
  | claimLiveness
  | evidenceLiveness
  | communityGeneration
  | pageTruth

namespace CasGate

def all : List CasGate :=
  [leaseOwnership, inputGeneration, rootDigest, coverageEpoch, claimLiveness, evidenceLiveness,
    communityGeneration, pageTruth]

/-- E-1 to E-5. -/
def drift : List CasGate :=
  [leaseOwnership, inputGeneration, rootDigest, coverageEpoch, claimLiveness]

end CasGate

inductive Verdict where
  | passed
  | refused (gate : CasGate)

inductive Finalization where
  | dryRunPassed (candidateId : String)
  | refused (candidateId : String) (gate : CasGate)
  | notEligible (candidateId : String)

/-- The `payload` of a prepared candidate. -/
structure CasEnvelope where
  receiptId : String
  epochState : EpochState
  communityGeneration : Option Int
  verdict : Option Verdict

def receiptIdOf (candidateId : String) : String := "m6r_" ++ candidateId

/-- The genesis tables with those that the gates read beside them.  `spaces` has the id of a
space under its name, `coverageStates` goes by this id, `graph` by the name. -/
structure World where
  db : Db
  spaces : KeyTable String String
  coverageStates : KeyTable String CoverageState
  graph : KeyTable String SpaceGraph
  envelopes : KeyTable String CasEnvelope

/-- The digests that a proposal goes by. -/
structure Identities where
  candidateId : String → Int → String
  activeRootDigest : List (String × String) → String

structure SignalProposal where
  slotId : String
  pageId : String
  signalKind : SignalKind
  rootIds : List String

namespace Db

def statusOf (rootId : String) (db : Db) : String :=
  ((db.roots.lookup rootId).map (·.status)).getD "missing"

def rootStatus (rootIds : List String) (db : Db) : List (String × String) :=
  (rootIds.map fun rootId => (rootId, db.statusOf rootId)).insertionSort fun left right =>
    OrderedBy left.1 right.1 (left.2 ≤ right.2)

def claimRows (candidateId : String) (db : Db) : List (Σ _ : ClaimKey, ClaimRow) :=
  KeyTable.select (fun key _ => key.candidateId == candidateId) db.claims

def claimedRootStatus (candidateId : String) (db : Db) : List (String × String) :=
  db.rootStatus (((db.claimRows candidateId).map fun row => row.1.rootId).insertionSort (· ≤ ·))

end Db

namespace World

def groupingGeneration (space : String) (w : World) : Int :=
  ((w.graph.lookup space).map (·.groupingGeneration)).getD 0

def publishedGeneration (space : String) (w : World) : Option Int :=
  (w.graph.lookup space).bind (·.publishedGeneration)

def proposalOf (ids : Identities) (space : String) (coverageEpoch : Int)
    (proposal : SignalProposal) (w : World) : Proposal where
  candidate :=
    { candidateId := ids.candidateId proposal.slotId coverageEpoch
      slotId := proposal.slotId
      pageId := proposal.pageId
      space := space
      signalKind := proposal.signalKind
      coverageEpoch := coverageEpoch
      inputGeneration := w.groupingGeneration space
      activeRootDigest := ids.activeRootDigest (w.db.rootStatus proposal.rootIds) }
  rootIds := proposal.rootIds

/-- `prepare_one` with the envelope, which has the regime as a constant. -/
def prepareOne (ids : Identities) (space : String) (coverageEpoch : Int)
    (proposal : SignalProposal) (w : World) : Except GenesisError (World × Option GenesisTurn) := do
  let (db, turn) ← w.db.prepareOne (w.proposalOf ids space coverageEpoch proposal)
  match turn with
  | some (.prepared candidateId) =>
    return ({ w with
      db := db
      envelopes := w.envelopes.insert candidateId
        ⟨receiptIdOf candidateId, .active, w.publishedGeneration space, none⟩ }, turn)
  | _ => return ({ w with db := db }, turn)

variable (ids : Identities) (candidateId : String) (candidate : CandidateRow) (w : World)

/-- E-1. -/
def leaseOwnership : Bool :=
  candidate.leaseToken.any fun token =>
    Leases.owns .genesis candidate.space candidate.inputGeneration token w.db.tick.now w.db.leases

/-- E-2. -/
def inputGeneration : Bool :=
  decide (w.groupingGeneration candidate.space = candidate.inputGeneration)

/-- E-3. -/
def rootDigest : Bool :=
  decide (ids.activeRootDigest (w.db.claimedRootStatus candidateId) = candidate.activeRootDigest)

/-- E-4. -/
def coverageEpoch (envelope : CasEnvelope) : Bool :=
  ((w.spaces.lookup candidate.space).bind fun spaceId => w.coverageStates.lookup spaceId).any
    fun state => decide (state.coverageEpoch = candidate.coverageEpoch ∧
      state.epochState = envelope.epochState)

/-- E-5. -/
def claimLiveness : Bool :=
  (w.db.claimRows candidateId).all (fun row => row.2.releasedAt == none &&
      decide (row.2.claimRole = claimRoleFor candidate.signalKind)) &&
    !(w.db.claimRows candidateId).isEmpty

/-- One gate, where `later` answers for the last three. -/
def held (later : CasGate → World → String → CandidateRow → CasEnvelope → Bool)
    (envelope : CasEnvelope) : CasGate → Bool
  | .leaseOwnership => w.leaseOwnership candidate
  | .inputGeneration => w.inputGeneration candidate
  | .rootDigest => w.rootDigest ids candidateId candidate
  | .coverageEpoch => w.coverageEpoch candidate envelope
  | .claimLiveness => w.claimLiveness candidateId candidate
  | gate => later gate w candidateId candidate envelope

/-- `evaluate_gates`: the first that fails. -/
def evaluateGates (later : CasGate → World → String → CandidateRow → CasEnvelope → Bool)
    (envelope : CasEnvelope) : Option CasGate :=
  CasGate.all.find? fun gate => !w.held ids candidateId candidate later envelope gate

def eligible : Option (CandidateRow × CasEnvelope) :=
  (w.db.candidates.lookup candidateId).bind fun candidate =>
    if candidate.state = .prepared then
      (w.envelopes.lookup candidateId).bind fun envelope =>
        if envelope.verdict = none then some (candidate, envelope) else none
    else none

/-- `dry_run_finalize`: the verdict, the release of the lease and, after a refusal, the retry. -/
def dryRunFinalize (later : CasGate → World → String → CandidateRow → CasEnvelope → Bool) :
    Except GenesisError (World × Finalization) :=
  match w.eligible candidateId with
  | none => .ok (w, .notEligible candidateId)
  | some (candidate, envelope) => do
    let refused := w.evaluateGates ids candidateId candidate later envelope
    let stamped := { w with
      envelopes := w.envelopes.insert candidateId
        { envelope with verdict := some (refused.elim .passed .refused) }
      db := { w.db with
        leases := candidate.leaseToken.elim w.db.leases fun token =>
          Leases.release .genesis candidate.space candidate.inputGeneration token w.db.leases } }
    match refused with
    | none => return (stamped, .dryRunPassed candidateId)
    | some gate => do
      let db ← stamped.db.markRetryWait candidateId .charged
      return ({ stamped with db := db }, .refused candidateId gate)

def gatesHold : Bool :=
  (w.eligible candidateId).any fun (candidate, envelope) =>
    CasGate.drift.all (w.held ids candidateId candidate (fun _ _ _ _ _ => true) envelope)

end World

variable {rootIds : List String}

namespace Db

variable {db db' : Db} {candidateId : String} {candidate : CandidateRow} {coverageEpoch : Int}
  {role : ClaimRole} {claims : List ClaimReservation} {proposal : Proposal}

variable {root : String × String}

theorem mem_rootStatus :
    root ∈ db.rootStatus rootIds ↔ root.1 ∈ rootIds ∧ db.statusOf root.1 = root.2 := by
  rw [rootStatus, List.mem_insertionSort, List.mem_map]
  constructor
  · rintro ⟨rootId, hmem, rfl⟩
    exact ⟨hmem, rfl⟩
  · rintro ⟨hmem, hstat⟩
    exact ⟨root.1, hmem, Prod.ext rfl hstat⟩

theorem mem_claimRows {key : ClaimKey} {row : ClaimRow} : ⟨key, row⟩ ∈ db.claimRows candidateId ↔
      db.claims.lookup key = some row ∧ key.candidateId = candidateId := by
  rw [claimRows, KeyTable.mem_select, beq_iff_eq]

def Claims (candidateId rootId : String) (db : Db) : Prop :=
  ∃ row, db.claims.lookup ⟨candidateId, rootId⟩ = some row

theorem mem_claimedRootStatus : root ∈ db.claimedRootStatus candidateId ↔
      db.Claims candidateId root.1 ∧ db.statusOf root.1 = root.2 := by
  rw [claimedRootStatus, mem_rootStatus, List.mem_insertionSort, List.mem_map]
  apply and_congr_left
  intro _
  constructor
  · rintro ⟨⟨key, row⟩, hmem, hroot⟩
    obtain ⟨hrow, rfl⟩ := mem_claimRows.mp hmem
    exact ⟨row, by rw [← hroot]; exact hrow⟩
  · rintro ⟨row, hrow⟩
    exact ⟨⟨⟨candidateId, root.1⟩, row⟩, mem_claimRows.mpr ⟨hrow, rfl⟩, rfl⟩

end Db

/-! ## The gates after a prepare -/

namespace World

variable {ids : Identities} {space candidateId : String} {coverageEpoch : Int}
  {proposal : SignalProposal} {candidate : CandidateRow} {w w' t : World}

def SameFingerprint (ids : Identities) (space : String) (coverageEpoch : Int)
    (proposal : SignalProposal) (w : World) : Prop :=
  ∀ row, w.db.candidates.lookup (ids.candidateId proposal.slotId coverageEpoch) = some row →
    row.space = space ∧ row.signalKind = proposal.signalKind ∧
      row.coverageEpoch = coverageEpoch ∧ row.inputGeneration = w.groupingGeneration space ∧
      row.activeRootDigest = ids.activeRootDigest (w.db.rootStatus proposal.rootIds)

/-- Nothing that the five gates read has changed but the clock. -/
structure Quiet (w t : World) : Prop where
  leases : t.db.leases = w.db.leases
  candidates : t.db.candidates = w.db.candidates
  claims : t.db.claims = w.db.claims
  roots : t.db.roots = w.db.roots
  spaces : t.spaces = w.spaces
  coverageStates : t.coverageStates = w.coverageStates
  graph : t.graph = w.graph
  envelopes : t.envelopes = w.envelopes

def Covered (space : String) (coverageEpoch : Int) (w : World) : Prop :=
  ∃ spaceId state, w.spaces.lookup space = some spaceId ∧
    w.coverageStates.lookup spaceId = some state ∧ state.coverageEpoch = coverageEpoch ∧
    state.epochState = .active

/-- The prepare leaves the candidate what the gates look for: the rows of the candidate will be
live rows of the proposed roots, all of them. -/
structure Comparable (space : String) (coverageEpoch : Int) (candidateId : String)
    (proposal : SignalProposal) (w : World) : Prop where
  covered : w.Covered space coverageEpoch
  nonempty : proposal.rootIds ≠ []
  kept : ∀ rootId, w.db.Claims candidateId rootId → rootId ∈ proposal.rootIds
  known : ∀ rootId ∈ proposal.rootIds, rootId ∈ w.db.roots ∨
    ∃ row, w.db.claims.lookup ⟨candidateId, rootId⟩ = some row ∧ row.releasedAt = none ∧
      row.claimRole = claimRoleFor proposal.signalKind

def LeaseLive (space : String) (w : World) : Prop :=
  ∀ lease, w.db.leases.lookup ⟨LeasePhase.genesis.asStr, space, w.groupingGeneration space⟩ =
    some lease → w.db.tick.now < lease.expiresAt

theorem rootDigest_iff (hdig : ∀ roots roots' : List (String × String),
      ids.activeRootDigest roots = ids.activeRootDigest roots' ↔
        ∀ root, root ∈ roots ↔ root ∈ roots')
    (hstor : candidate.activeRootDigest = ids.activeRootDigest (w.db.rootStatus rootIds))
    (hroots : t.db.roots = w.db.roots) : t.rootDigest ids candidateId candidate ↔
      ∀ rootId, t.db.Claims candidateId rootId ↔ rootId ∈ rootIds := by
  have hstat : ∀ rootId, t.db.statusOf rootId = w.db.statusOf rootId := by
    intro rootId
    unfold Db.statusOf
    rw [hroots]
  rw [rootDigest, decide_eq_true_eq, hstor, hdig]
  constructor
  · intro hsame rootId
    have hroot := hsame (rootId, w.db.statusOf rootId)
    rw [Db.mem_claimedRootStatus, Db.mem_rootStatus, hstat, and_iff_left rfl,
      and_iff_left rfl] at hroot
    exact hroot
  · intro hsame root
    rw [Db.mem_claimedRootStatus, Db.mem_rootStatus, hstat, hsame]

theorem coverageEpoch_iff {envelope : CasEnvelope} (hact : envelope.epochState = .active) :
    t.coverageEpoch candidate envelope ↔
      t.Covered candidate.space candidate.coverageEpoch := by
  rw [World.coverageEpoch, Option.any_eq_true]
  constructor
  · rintro ⟨state, hstate, hsame⟩
    obtain ⟨spaceId, hspace, hstate⟩ := Option.bind_eq_some_iff.mp hstate
    obtain ⟨hepoch, hreg⟩ := of_decide_eq_true hsame
    exact ⟨spaceId, state, hspace, hstate, hepoch, hreg.trans hact⟩
  · rintro ⟨spaceId, state, hspace, hstate, hepoch, hreg⟩
    refine ⟨state, ?_, decide_eq_true ⟨hepoch, hreg.trans hact.symm⟩⟩
    rw [hspace, Option.bind_some]
    exact hstate

theorem claimLiveness_iff : t.claimLiveness candidateId candidate ↔
    (∀ rootId row, t.db.claims.lookup ⟨candidateId, rootId⟩ = some row →
      row.releasedAt = none ∧ row.claimRole = claimRoleFor candidate.signalKind) ∧
    ∃ rootId, t.db.Claims candidateId rootId := by
  rw [claimLiveness, Bool.and_eq_true, List.all_eq_true, Bool.not_eq_true',
    List.isEmpty_eq_false_iff_exists_mem]
  apply and_congr
  · constructor
    · intro hall rootId row hrow
      have hone := hall ⟨⟨candidateId, rootId⟩, row⟩ (Db.mem_claimRows.mpr ⟨hrow, rfl⟩)
      rw [Bool.and_eq_true, beq_iff_eq, decide_eq_true_eq] at hone
      exact hone
    · rintro hall ⟨⟨owner, rootId⟩, row⟩ hmem
      obtain ⟨hrow, hown⟩ := Db.mem_claimRows.mp hmem
      subst hown
      rw [Bool.and_eq_true, beq_iff_eq, decide_eq_true_eq]
      exact hall rootId row hrow
  · constructor
    · rintro ⟨⟨⟨owner, rootId⟩, row⟩, hmem⟩
      obtain ⟨hrow, hown⟩ := Db.mem_claimRows.mp hmem
      subst hown
      exact ⟨rootId, row, hrow⟩
    · rintro ⟨rootId, row, hrow⟩
      exact ⟨⟨⟨candidateId, rootId⟩, row⟩, Db.mem_claimRows.mpr ⟨hrow, rfl⟩⟩

/-- The digest and the liveness of the claims, read off what the prepare found. -/
theorem claims_comparable_iff
    (hstor : Db.PreparedFrom candidateId candidate (w.db.fillGroups proposal.rootIds) w.db t.db)
    (hsign : candidate.signalKind = proposal.signalKind) :
    ((∀ rootId, t.db.Claims candidateId rootId ↔ rootId ∈ proposal.rootIds) ∧
      (∀ rootId row, t.db.claims.lookup ⟨candidateId, rootId⟩ = some row →
        row.releasedAt = none ∧ row.claimRole = claimRoleFor candidate.signalKind) ∧
      ∃ rootId, t.db.Claims candidateId rootId) ↔ proposal.rootIds ≠ [] ∧
      (∀ rootId, w.db.Claims candidateId rootId → rootId ∈ proposal.rootIds) ∧
      ∀ rootId ∈ proposal.rootIds, rootId ∈ w.db.roots ∨
        ∃ row, w.db.claims.lookup ⟨candidateId, rootId⟩ = some row ∧ row.releasedAt = none ∧
          row.claimRole = claimRoleFor proposal.signalKind := by
  have hfil : ∀ rootId ∈ proposal.rootIds, rootId ∈ w.db.roots → ∃ row,
      t.db.claims.lookup ⟨candidateId, rootId⟩ = some row ∧ row.releasedAt = none ∧
        row.claimRole = claimRoleFor candidate.signalKind := fun rootId hmem hroot =>
    hstor.claimed rootId (Db.mem_fillGroups.mpr ⟨hmem, hroot⟩)
  have hother : ∀ rootId, ¬ (rootId ∈ proposal.rootIds ∧ rootId ∈ w.db.roots) →
      t.db.claims.lookup ⟨candidateId, rootId⟩ = w.db.claims.lookup ⟨candidateId, rootId⟩ :=
    fun rootId hnot => hstor.kept rootId fun hmem => hnot (Db.mem_fillGroups.mp hmem)
  constructor
  · rintro ⟨hset, hlive, first, hfirst⟩
    refine ⟨List.ne_nil_of_mem ((hset first).mp hfirst), fun rootId hclaim => ?_,
      fun rootId hmem => ?_⟩
    · by_cases hboth : rootId ∈ proposal.rootIds ∧ rootId ∈ w.db.roots
      · exact hboth.1
      · apply (hset rootId).mp
        unfold Db.Claims
        rw [hother rootId hboth]
        exact hclaim
    · by_cases hroot : rootId ∈ w.db.roots
      · exact .inl hroot
      · right
        obtain ⟨row, hrow⟩ := (hset rootId).mpr hmem
        obtain ⟨hopen, hrole⟩ := hlive rootId row hrow
        rw [hother rootId fun hboth => hroot hboth.2] at hrow
        exact ⟨row, hrow, hopen, by rw [hrole, hsign]⟩
  · rintro ⟨hnon, hkept, hknown⟩
    have hset : ∀ rootId, t.db.Claims candidateId rootId ↔ rootId ∈ proposal.rootIds := by
      intro rootId
      by_cases hboth : rootId ∈ proposal.rootIds ∧ rootId ∈ w.db.roots
      · obtain ⟨row, hrow, -⟩ := hfil rootId hboth.1 hboth.2
        exact iff_of_true ⟨row, hrow⟩ hboth.1
      · unfold Db.Claims
        rw [hother rootId hboth]
        refine ⟨hkept rootId, fun hmem => ?_⟩
        obtain ⟨row, hrow, -⟩ := (hknown rootId hmem).resolve_left fun hroot =>
          hboth ⟨hmem, hroot⟩
        exact ⟨row, hrow⟩
    refine ⟨hset, fun rootId row hrow => ?_, ?_⟩
    · have hmem := (hset rootId).mp ⟨row, hrow⟩
      by_cases hroot : rootId ∈ w.db.roots
      · obtain ⟨row', hrow', hopen, hrole⟩ := hfil rootId hmem hroot
        rw [hrow] at hrow'
        cases hrow'
        exact ⟨hopen, hrole⟩
      · obtain ⟨row', hrow', hopen, hrole⟩ := (hknown rootId hmem).resolve_left hroot
        rw [hother rootId fun hboth => hroot hboth.2, hrow'] at hrow
        cases hrow
        exact ⟨hopen, by rw [hrole, hsign]⟩
    · obtain ⟨first, hfirst⟩ := List.exists_mem_of_ne_nil _ hnon
      exact ⟨first, (hset first).mpr hfirst⟩

theorem readFor_fields (hsame : w.SameFingerprint ids space coverageEpoch proposal) :
    (w.db.readFor (w.proposalOf ids space coverageEpoch proposal)).space = space ∧
      (w.db.readFor (w.proposalOf ids space coverageEpoch proposal)).signalKind =
        proposal.signalKind ∧
      (w.db.readFor (w.proposalOf ids space coverageEpoch proposal)).coverageEpoch = coverageEpoch ∧
      (w.db.readFor (w.proposalOf ids space coverageEpoch proposal)).inputGeneration =
        w.groupingGeneration space ∧
      (w.db.readFor (w.proposalOf ids space coverageEpoch proposal)).activeRootDigest =
        ids.activeRootDigest (w.db.rootStatus proposal.rootIds) := by
  unfold Db.readFor
  cases hrow : w.db.candidates.lookup (ids.candidateId proposal.slotId coverageEpoch) with
  | none =>
    have hnone : w.db.candidates.lookup
        (w.proposalOf ids space coverageEpoch proposal).candidate.candidateId = none := hrow
    rw [hnone]
    exact ⟨rfl, rfl, rfl, rfl, rfl⟩
  | some row =>
    have hsome : w.db.candidates.lookup
        (w.proposalOf ids space coverageEpoch proposal).candidate.candidateId = some row := hrow
    rw [hsome]
    exact hsame row hrow

theorem prepareOne_prepared
    (h : w.prepareOne ids space coverageEpoch proposal = .ok (w', some (.prepared candidateId))) :
    ∃ db, w.db.prepareOne (w.proposalOf ids space coverageEpoch proposal) =
        .ok (db, some (.prepared candidateId)) ∧
      w' = { w with
        db := db
        envelopes := w.envelopes.insert candidateId
          ⟨receiptIdOf candidateId, .active, w.publishedGeneration space, none⟩ } := by
  obtain ⟨⟨db, turn⟩, hone, h⟩ := bind_ok h
  dsimp only at h
  split at h
  · cases h
    exact ⟨db, hone, rfl⟩
  · rename_i hnot
    cases h
    exact absurd rfl (hnot candidateId)

theorem gatesHold_iff (hdig : ∀ roots roots' : List (String × String),
      ids.activeRootDigest roots = ids.activeRootDigest roots' ↔
        ∀ root, root ∈ roots ↔ root ∈ roots')
    (hsame : w.SameFingerprint ids space coverageEpoch proposal)
    (h : w.prepareOne ids space coverageEpoch proposal = .ok (w', some (.prepared candidateId)))
    (hquiet : Quiet w' t) (hlive : t.LeaseLive space) : t.gatesHold ids candidateId ↔
      Comparable space coverageEpoch candidateId proposal w := by
  obtain ⟨db, hone, hworld⟩ := prepareOne_prepared h
  obtain ⟨-, hstor⟩ := Db.prepareOne_stores hone
  obtain ⟨hspac, hsign, hepoc, hgen, hdiges⟩ := readFor_fields hsame
  generalize w.db.readFor (w.proposalOf ids space coverageEpoch proposal) = candidate at *
  subst hworld
  have hstore : Db.PreparedFrom candidateId candidate (w.db.fillGroups proposal.rootIds) w.db
      t.db := by
    have hclaim : t.db.claims = db.claims := hquiet.claims
    have hleas : t.db.leases = db.leases := hquiet.leases
    have hcands : t.db.candidates = db.candidates := hquiet.candidates
    obtain ⟨lease, hlease, hrow⟩ := hstor.stored
    refine ⟨⟨lease, hleas ▸ hlease, hcands ▸ hrow⟩, hquiet.roots.trans hstor.roots, ?_, ?_⟩
    · rw [hclaim]
      exact hstor.claimed
    · rw [hclaim]
      exact hstor.kept
  obtain ⟨lease, hlease, hrow⟩ := hstore.stored
  have henv : t.envelopes.lookup candidateId =
      some ⟨receiptIdOf candidateId, .active, w.publishedGeneration space, none⟩ := by
    rw [hquiet.envelopes]
    exact AList.lookup_insert _
  have hgraph : t.groupingGeneration space = w.groupingGeneration space := by
    unfold groupingGeneration
    rw [hquiet.graph]
  have hkey : Db.leaseKeyOf candidate =
      ⟨LeasePhase.genesis.asStr, space, t.groupingGeneration space⟩ := by
    rw [Db.leaseKeyOf, hspac, hgen, hgraph]
  have howner : t.leaseOwnership (Db.preparedRow candidate lease.token) := by
    apply Leases.holds_iff.mpr
    exact ⟨lease, hlease, rfl, hlive lease (hkey ▸ hlease)⟩
  have hinput : t.inputGeneration (Db.preparedRow candidate lease.token) := by
    apply decide_eq_true
    show t.groupingGeneration candidate.space = candidate.inputGeneration
    rw [hspac, hgraph, hgen]
  have hreg : t.coverageEpoch (Db.preparedRow candidate lease.token)
      ⟨receiptIdOf candidateId, .active, w.publishedGeneration space, none⟩ ↔
      w.Covered space coverageEpoch := by
    rw [coverageEpoch_iff rfl]
    show t.Covered candidate.space candidate.coverageEpoch ↔ _
    rw [hspac, hepoc]
    unfold Covered
    rw [hquiet.spaces, hquiet.coverageStates]
  have hclaim := claims_comparable_iff hstore hsign
  have hroots : t.rootDigest ids candidateId (Db.preparedRow candidate lease.token) ↔
      ∀ rootId, t.db.Claims candidateId rootId ↔ rootId ∈ proposal.rootIds :=
    rootDigest_iff hdig hdiges hstore.roots
  have hliv := @claimLiveness_iff candidateId (Db.preparedRow candidate lease.token) t
  have helig : t.eligible candidateId = some (Db.preparedRow candidate lease.token,
      ⟨receiptIdOf candidateId, .active, w.publishedGeneration space, none⟩) := by
    have hprep : (Db.preparedRow candidate lease.token).state = .prepared := rfl
    rw [eligible, hrow, Option.bind_some, if_pos hprep, henv, Option.bind_some, if_pos rfl]
  have hgates : t.gatesHold ids candidateId ↔
      t.rootDigest ids candidateId (Db.preparedRow candidate lease.token) ∧
        w.Covered space coverageEpoch ∧
        t.claimLiveness candidateId (Db.preparedRow candidate lease.token) := by
    rw [gatesHold, helig, Option.any_some, ← hreg]
    simp [CasGate.drift, held, howner, hinput]
  rw [hgates, hroots, hliv]
  constructor
  · rintro ⟨hset, hcov, hlive⟩
    obtain ⟨hnon, hkept, hknown⟩ := hclaim.mp ⟨hset, hlive⟩
    exact ⟨hcov, hnon, hkept, hknown⟩
  · rintro ⟨hcov, hnon, hkept, hknown⟩
    obtain ⟨hset, hlive⟩ := hclaim.mpr ⟨hnon, hkept, hknown⟩
    exact ⟨hset, hcov, hlive⟩

end World

end Wenlan.Genesis
