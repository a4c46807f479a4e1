import Mathlib.Data.Finset.Basic

/-!
# The maintenance coordinator

The shared state of `maintenance_coordinator.rs` and every critical section that
runs on it.  A definition here is one hold of the mutex: it takes the state (and
the clock it reads), and returns the state it leaves together with the answer of
the call.  Waiting and notification are not part of a critical section; a call
that waits is a sequence of passes, and which pass runs when is left to
`Wenlan.Maintenance.Exclusion`.
-/

namespace Wenlan.Maintenance.Coordinator

inductive MaintenanceFenceError where
  | busy
  | conflict
  | expired
  deriving DecidableEq

/-- A digit or one of `a` to `f`. -/
def isLowerHexChar (c : Char) : Bool :=
  c.isDigit || ('a' ≤ c && c ≤ 'f')

def isLowerHex (value : String) (length : Nat) : Bool :=
  value.toList.length == length && value.toList.all isLowerHexChar

/-- `repair_` followed by a lowercase hyphenated UUID. -/
def validManifestId (value : String) : Bool :=
  value.toList.take 7 == "repair_".toList &&
    (value.toList.drop 7).length == 36 &&
    (value.toList.drop 7).zipIdx.all fun (c, index) =>
      if index = 8 ∨ index = 13 ∨ index = 18 ∨ index = 23 then c == '-'
      else isLowerHexChar c

def approvalText (manifestId digest : String) : String :=
  "apply repair " ++ manifestId ++ " " ++ digest

/-- An approved request.  `try_new` and deserialization admit no other. -/
structure ApplyRepairRequest where
  manifestId : String
  approvedManifestDigest : String
  approval : String
  digest_valid : isLowerHex approvedManifestDigest 64 = true
  manifest_valid : validManifestId manifestId = true
  approval_exact : approval = approvalText manifestId approvedManifestDigest
  deriving DecidableEq

structure RepairAttemptToken where
  value : UInt64
  deriving DecidableEq

structure PendingRepairToken where
  value : UInt64
  deriving DecidableEq

structure RepairLease where
  manifestId : String
  durable : Bool
  activeAttempt : Option RepairAttemptToken
  deriving DecidableEq

structure PendingRepair where
  manifestId : String
  owners : Finset PendingRepairToken

structure ReservedRepair where
  predecessorManifestId : String
  nextApply : ApplyRepairRequest
  expiresAt : Nat
  generation : UInt64
  deriving DecidableEq

inductive RuntimeResumptionSeal where
  | active
  | committed

structure CoordinatorState where
  recoveryComplete : Bool := false
  activeBackground : Nat := 0
  activeAnalysis : Nat := 0
  pendingRepair : Option PendingRepair := none
  repairLease : Option RepairLease := none
  startupClaim : Option ApplyRepairRequest := none
  startupClaimComplete : Bool := false
  reservedRepair : Option ReservedRepair := none
  expiredRepairs : List ApplyRepairRequest := []
  nextPendingRepair : UInt64 := 0
  nextRepairAttempt : UInt64 := 0
  nextReservation : UInt64 := 0
  runtimeResumption : Option RuntimeResumptionSeal := none

/-- Exclusive ownership of one apply or verification attempt. -/
structure RepairFenceGuard where
  manifestId : String
  attemptToken : Option RepairAttemptToken
  retainOnDrop : Bool
  deriving DecidableEq

/-- `usize::MAX` of the 64-bit targets. -/
def usizeMax : Nat := 18446744073709551615

def saturatingAdd (a b : Nat) : Nat := min (a + b) usizeMax

/-- The counter after `value`: it wraps, and skips zero when it does. -/
def nextIssued (value : UInt64) : UInt64 :=
  if value + 1 = 0 then 1 else value + 1

namespace CoordinatorState

def repairAllowsAnalysis (state : CoordinatorState) : Bool :=
  state.repairLease.all fun lease => lease.durable && lease.activeAttempt.isNone

def issuePendingRepair (state : CoordinatorState) : CoordinatorState × PendingRepairToken :=
  ({ state with nextPendingRepair := nextIssued state.nextPendingRepair },
    ⟨nextIssued state.nextPendingRepair⟩)

def issueRepairAttempt (state : CoordinatorState) : CoordinatorState × RepairAttemptToken :=
  ({ state with nextRepairAttempt := nextIssued state.nextRepairAttempt },
    ⟨nextIssued state.nextRepairAttempt⟩)

def issueReservation (state : CoordinatorState) : CoordinatorState × UInt64 :=
  ({ state with nextReservation := nextIssued state.nextReservation },
    nextIssued state.nextReservation)

/-- Withdraw one waiter; the last one takes the pending entry with it. -/
def removePendingOwner (state : CoordinatorState) (manifestId : String)
    (owner : PendingRepairToken) : CoordinatorState × Bool :=
  match state.pendingRepair with
  | none => (state, false)
  | some pending =>
    if pending.manifestId = manifestId then
      let owners := pending.owners.erase owner
      ({ state with
          pendingRepair := if owners = ∅ then none else some { pending with owners } },
        decide (owner ∈ pending.owners) || decide (owners = ∅))
    else (state, false)

def clearPendingManifest (state : CoordinatorState) (manifestId : String) : CoordinatorState :=
  if state.pendingRepair.any fun pending => pending.manifestId = manifestId then
    { state with pendingRepair := none }
  else state

def recordExpiredRepair (state : CoordinatorState) (request : ApplyRepairRequest) :
    CoordinatorState :=
  if request ∈ state.expiredRepairs then state
  else { state with expiredRepairs := state.expiredRepairs ++ [request] }

def repairIsExpired (state : CoordinatorState) (request : ApplyRepairRequest) : Bool :=
  decide (request ∈ state.expiredRepairs)

def expireReservation (state : CoordinatorState) (now : Nat) : CoordinatorState × Bool :=
  match state.reservedRepair with
  | none => (state, false)
  | some reserved =>
    if now < reserved.expiresAt then (state, false)
    else
      (({ state with reservedRepair := none }).recordExpiredRepair reserved.nextApply, true)

def finishRecovery (state : CoordinatorState) : CoordinatorState :=
  { state with recoveryComplete := true }

def tryBeginBackground (state : CoordinatorState) (now : Nat) : CoordinatorState × Bool :=
  let state := (state.expireReservation now).1
  if !state.recoveryComplete || state.activeAnalysis != 0 || state.pendingRepair.isSome ||
      state.repairLease.isSome || state.reservedRepair.isSome ||
      state.runtimeResumption.isSome then
    (state, false)
  else
    ({ state with activeBackground := saturatingAdd state.activeBackground 1 }, true)

/-- One pass of the loop of `begin_background`. -/
def beginBackgroundPass (state : CoordinatorState) (now : Nat) : CoordinatorState × Bool :=
  let state := (state.expireReservation now).1
  if state.recoveryComplete && state.activeAnalysis == 0 && state.pendingRepair.isNone &&
      state.repairLease.isNone && state.reservedRepair.isNone &&
      state.runtimeResumption.isNone then
    ({ state with activeBackground := saturatingAdd state.activeBackground 1 }, true)
  else (state, false)

/-- One pass of the loop of `begin_analysis`. -/
def beginAnalysisPass (state : CoordinatorState) (now : Nat) : CoordinatorState × Bool :=
  let state := (state.expireReservation now).1
  if state.recoveryComplete && state.activeBackground == 0 && state.pendingRepair.isNone &&
      state.repairAllowsAnalysis && state.reservedRepair.isNone &&
      state.runtimeResumption.isNone then
    ({ state with activeAnalysis := saturatingAdd state.activeAnalysis 1 }, true)
  else (state, false)

/-- `Drop` of a background guard. -/
def dropBackground (state : CoordinatorState) : CoordinatorState :=
  { state with activeBackground := state.activeBackground - 1 }

/-- `Drop` of an analysis guard. -/
def dropAnalysis (state : CoordinatorState) : CoordinatorState :=
  { state with activeAnalysis := state.activeAnalysis - 1 }

/-! ## Acquiring the repair fence -/

/-- How one pass of `acquire_repair_inner` ends.  The registration that a pass
carries on is the one that is still armed afterwards. -/
inductive AcquirePass where
  | refused (error : MaintenanceFenceError) (registration : Option PendingRepairToken)
  | granted (guard : RepairFenceGuard) (registration : Option PendingRepairToken)
  | waiting (owner : PendingRepairToken)
  deriving DecidableEq

/-- The checks that come before any look at the fence itself. -/
def acquireRefusal (state : CoordinatorState)
    (approvedRequest : Option ApplyRepairRequest) : Option MaintenanceFenceError :=
  if !state.recoveryComplete then some .busy
  else if state.runtimeResumption.isSome then some .busy
  else if state.startupClaimComplete then some .conflict
  else if state.startupClaim.any fun claim => approvedRequest ≠ some claim then some .conflict
  else if approvedRequest.any fun request => state.repairIsExpired request then some .expired
  else none

def acquireReserved (state : CoordinatorState) (reserved : ReservedRepair)
    (manifestId : String) (approvedRequest : Option ApplyRepairRequest)
    (registration : Option PendingRepairToken) : CoordinatorState × AcquirePass :=
  if approvedRequest ≠ some reserved.nextApply then (state, .refused .conflict registration)
  else if state.activeBackground != 0 || state.activeAnalysis != 0 ||
      state.repairLease.isSome then
    (state, .refused .busy registration)
  else
    let issued := state.issueRepairAttempt
    ({ issued.1 with
        reservedRepair := none
        repairLease := some ⟨manifestId, false, some issued.2⟩ },
      .granted ⟨manifestId, some issued.2, false⟩ registration)

def withdrawRegistration (state : CoordinatorState) (manifestId : String) :
    Option PendingRepairToken → CoordinatorState
  | some owner => (state.removePendingOwner manifestId owner).1
  | none => state

/-- Retry on a fence that is already held durably. -/
def acquireLeased (state : CoordinatorState) (lease : RepairLease) (manifestId : String)
    (registration : Option PendingRepairToken) : CoordinatorState × AcquirePass :=
  if lease.manifestId ≠ manifestId then (state, .refused .conflict registration)
  else if state.activeAnalysis != 0 || !lease.durable || lease.activeAttempt.isSome then
    (state, .refused .busy registration)
  else
    let issued := state.issueRepairAttempt
    let leased := { issued.1 with
      repairLease := some { lease with activeAttempt := some issued.2 } }
    (leased.withdrawRegistration manifestId registration,
      .granted ⟨manifestId, some issued.2, false⟩ none)

/-- The owner that a call waits as: the one it registered, or a new one. -/
def pendingOwner (state : CoordinatorState) :
    Option PendingRepairToken → CoordinatorState × PendingRepairToken
  | some owner => (state, owner)
  | none => state.issuePendingRepair

/-- Add a waiter, keeping the owners that are there already. -/
def registerPending (state : CoordinatorState) (manifestId : String)
    (owner : PendingRepairToken) : CoordinatorState :=
  match state.pendingRepair with
  | some pending =>
    { state with pendingRepair := some { pending with owners := insert owner pending.owners } }
  | none => { state with pendingRepair := some ⟨manifestId, {owner}⟩ }

/-- Register as a waiter and take the fence once every writer is gone. -/
def acquirePending (state : CoordinatorState) (manifestId : String)
    (registration : Option PendingRepairToken) : CoordinatorState × AcquirePass :=
  if state.pendingRepair.any fun pending => pending.manifestId ≠ manifestId then
    (state, .refused .conflict registration)
  else
    let issued := state.pendingOwner registration
    let registered := issued.1.registerPending manifestId issued.2
    if registered.activeBackground == 0 && registered.activeAnalysis == 0 then
      let attempt := registered.issueRepairAttempt
      ({ (attempt.1.removePendingOwner manifestId issued.2).1 with
          repairLease := some ⟨manifestId, false, some attempt.2⟩ },
        .granted ⟨manifestId, some attempt.2, false⟩ none)
    else (registered, .waiting issued.2)

/-- One pass of the loop of `acquire_repair_inner`. -/
def acquireRepairPass (state : CoordinatorState) (manifestId : String)
    (approvedRequest : Option ApplyRepairRequest)
    (registration : Option PendingRepairToken) (now : Nat) : CoordinatorState × AcquirePass :=
  let state := (state.expireReservation now).1
  match state.acquireRefusal approvedRequest with
  | some error => (state, .refused error registration)
  | none =>
    match state.reservedRepair with
    | some reserved =>
      state.acquireReserved reserved manifestId approvedRequest registration
    | none =>
      match state.repairLease with
      | some lease => state.acquireLeased lease manifestId registration
      | none => state.acquirePending manifestId registration

/-- Take the existing durable fence for one verification attempt. -/
def acquireRepairVerification (state : CoordinatorState) (manifestId : String) :
    CoordinatorState × Except MaintenanceFenceError RepairFenceGuard :=
  if state.runtimeResumption.isSome then (state, .error .busy)
  else
    match state.repairLease with
    | none => (state, .error .expired)
    | some lease =>
      if lease.manifestId ≠ manifestId then (state, .error .conflict)
      else if state.activeAnalysis != 0 || !lease.durable || lease.activeAttempt.isSome then
        (state, .error .busy)
      else
        let issued := state.issueRepairAttempt
        ({ issued.1 with
            repairLease := some { lease with activeAttempt := some issued.2 } },
          .ok ⟨manifestId, some issued.2, false⟩)

def matchesHandoff (state : CoordinatorState) (predecessorManifestId : String)
    (nextApply : ApplyRepairRequest) (now : Nat) : CoordinatorState × Bool :=
  let state := (state.expireReservation now).1
  (state, state.reservedRepair.any fun reserved =>
    reserved.predecessorManifestId = predecessorManifestId ∧ reserved.nextApply = nextApply)

def expireReservedRepair (state : CoordinatorState) (generation : UInt64) (now : Nat) :
    CoordinatorState :=
  match state.reservedRepair with
  | none => state
  | some reserved =>
    if reserved.generation = generation ∧ reserved.expiresAt ≤ now then
      ({ state with reservedRepair := none }).recordExpiredRepair reserved.nextApply
    else state

def rearmApprovedRepair (state : CoordinatorState) (request : ApplyRepairRequest) :
    CoordinatorState × Except MaintenanceFenceError Unit :=
  if state.recoveryComplete then (state, .error .conflict)
  else if state.activeBackground != 0 then (state, .error .busy)
  else if state.pendingRepair.isSome || state.reservedRepair.isSome then
    (state, .error .conflict)
  else if state.startupClaim.any fun claim => claim ≠ request then (state, .error .conflict)
  else
    match state.repairLease with
    | some lease =>
      if lease.manifestId ≠ request.manifestId then (state, .error .conflict)
      else
        ({ state with startupClaim := some request, startupClaimComplete := false }, .ok ())
    | none =>
      ({ state with
          repairLease := some ⟨request.manifestId, true, none⟩
          startupClaim := some request
          startupClaimComplete := false }, .ok ())

def beginRuntimeResumption (state : CoordinatorState) (request : ApplyRepairRequest) :
    CoordinatorState × Except MaintenanceFenceError Unit :=
  if state.runtimeResumption.isSome then (state, .error .busy)
  else if !state.recoveryComplete || !state.startupClaimComplete then (state, .error .busy)
  else if state.startupClaim ≠ some request then (state, .error .conflict)
  else if state.activeBackground != 0 || state.activeAnalysis != 0 ||
      state.pendingRepair.isSome || state.repairLease.isSome ||
      state.reservedRepair.isSome then
    (state, .error .busy)
  else ({ state with runtimeResumption := some .active }, .ok ())

/-- `RuntimeResumptionGuard::commit`; its drop does nothing afterwards. -/
def commitRuntimeResumption (state : CoordinatorState) : CoordinatorState :=
  { state with runtimeResumption := some .committed }

/-- `Drop` of a resumption guard that was not committed. -/
def dropRuntimeResumption (state : CoordinatorState) : CoordinatorState :=
  { state with runtimeResumption := none }

def leaseOwnedBy (lease : RepairLease) (manifestId : String) (token : RepairAttemptToken) : Bool :=
  lease.manifestId = manifestId && lease.activeAttempt == some token

def startupClaimFor (state : CoordinatorState) (manifestId : String) : Bool :=
  state.startupClaim.any fun claim => claim.manifestId = manifestId

def retainUntilVerification (state : CoordinatorState) (guard : RepairFenceGuard) :
    CoordinatorState × Except MaintenanceFenceError Unit :=
  match guard.attemptToken with
  | none => (state, .error .expired)
  | some token =>
    match state.repairLease with
    | none => (state, .error .expired)
    | some lease =>
      if leaseOwnedBy lease guard.manifestId token then
        (({ state with
            repairLease := some { lease with durable := true, activeAttempt := none }
          }).clearPendingManifest guard.manifestId, .ok ())
      else (state, .error .conflict)

def releaseAfterPrecommitFailure (state : CoordinatorState) (guard : RepairFenceGuard) :
    CoordinatorState × Except MaintenanceFenceError Unit :=
  match guard.attemptToken with
  | none => (state, .error .expired)
  | some token =>
    match state.repairLease with
    | none => (state, .error .expired)
    | some lease =>
      if leaseOwnedBy lease guard.manifestId token then
        if state.startupClaimFor guard.manifestId then
          ({ state with
              repairLease := some { lease with durable := true, activeAttempt := none } },
            .ok ())
        else
          (({ state with repairLease := none }).clearPendingManifest guard.manifestId, .ok ())
      else (state, .error .conflict)

def releaseAfterVerification (state : CoordinatorState) (guard : RepairFenceGuard) :
    CoordinatorState × Except MaintenanceFenceError Unit :=
  match guard.attemptToken with
  | none => (state, .error .expired)
  | some token =>
    match state.repairLease with
    | none => (state, .error .expired)
    | some lease =>
      if lease.durable && leaseOwnedBy lease guard.manifestId token then
        let released :=
          ({ state with repairLease := none }).clearPendingManifest guard.manifestId
        (if released.startupClaimFor guard.manifestId then
            { released with startupClaimComplete := true }
          else released, .ok ())
      else if lease.manifestId = guard.manifestId then (state, .error .busy)
      else (state, .error .conflict)

/-- Replace a verified lease by a reservation for the next approved apply.  The
deadline was computed from `startedAt`, read before the mutex was taken; the
last answer carries the generation whose timer is spawned. -/
def handoffAfterVerification (state : CoordinatorState) (guard : RepairFenceGuard)
    (nextApply : ApplyRepairRequest) (ttl startedAt : Nat) :
    CoordinatorState × Except MaintenanceFenceError UInt64 :=
  if ttl = 0 ∨ nextApply.manifestId = guard.manifestId then (state, .error .conflict)
  else
    match guard.attemptToken with
    | none => (state, .error .expired)
    | some token =>
      match state.repairLease with
      | none => (state, .error .expired)
      | some lease =>
        if lease.durable && leaseOwnedBy lease guard.manifestId token then
          let issued := state.issueReservation
          -- The generation is spent even when the next apply has a tombstone.
          if issued.1.repairIsExpired nextApply then (issued.1, .error .expired)
          else
            let released :=
              ({ issued.1 with repairLease := none }).clearPendingManifest guard.manifestId
            let claimed :=
              if released.startupClaimFor guard.manifestId then
                { released with
                  startupClaim := some nextApply
                  startupClaimComplete := false }
              else released
            ({ claimed with
                reservedRepair := some
                  ⟨guard.manifestId, nextApply, startedAt + ttl, issued.2⟩ },
              .ok issued.2)
        else if lease.manifestId = guard.manifestId then (state, .error .busy)
        else (state, .error .conflict)

/-- `Drop` of a repair guard. -/
def dropRepair (state : CoordinatorState) (guard : RepairFenceGuard) : CoordinatorState :=
  match guard.attemptToken with
  | none => state
  | some token =>
    match state.repairLease with
    | none => state
    | some lease =>
      if leaseOwnedBy lease guard.manifestId token then
        if lease.durable || guard.retainOnDrop then
          { state with
            repairLease := some { lease with durable := true, activeAttempt := none } }
        else { state with repairLease := none }
      else state

end CoordinatorState

end Wenlan.Maintenance.Coordinator
