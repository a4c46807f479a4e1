import Wenlan.Maintenance.StartupClaim

/-!
# Runs under a startup claim

The claim along a run: who may be granted the fence while it is open, that nobody is once it
is complete, and that a reservation that has run out is never taken.  At the end, what the
errors of a guard leave once the guard they consumed has been dropped.
-/

namespace Wenlan.Maintenance.StartupClaim

open Coordinator Coordinator.CoordinatorState Exclusion Support.Transition Coordination Option

variable {c d : Coordination} {op : Op}

/-! ## One step -/

def movesClaim : Op → Bool
  | .rearmApproved _ | .releaseAfterVerification _ | .handoffAfterVerification .. => true
  | _ => false

theorem answered_state {α : Type} (c : Coordination) (i : Nat)
    (result : CoordinatorState × Except MaintenanceFenceError α) :
    (c.answered i result).state = result.1 := by
  unfold answered
  split <;> rfl

theorem passAcquire_state (c : Coordination) (i : Nat) (call : AcquireCall) :
    (c.passAcquire i call).state =
      (c.state.acquireRepairPass call.manifestId call.approvedRequest call.registration
        c.now).1 := by
  unfold passAcquire
  dsimp only
  split <;> rfl

theorem answered_now {α : Type} (c : Coordination) (i : Nat)
    (result : CoordinatorState × Except MaintenanceFenceError α) :
    (c.answered i result).now = c.now := by
  unfold answered
  split <;> rfl

theorem passAcquire_now (c : Coordination) (i : Nat) (call : AcquireCall) :
    (c.passAcquire i call).now = c.now := by
  unfold passAcquire
  dsimp only
  split <;> rfl

theorem step_minds (h : Step c op d) (hop : movesClaim op = false) :
    Minds c.now c.state d.state := by
  unfold Step at h
  cases op with
  | rearmApproved | releaseAfterVerification | handoffAfterVerification => cases hop
  | tick | callAcquireApproved | callAcquire =>
    cases h
    exact .refl _
  | finishRecovery =>
    cases h
    exact finishRecovery_minds c.state
  | tryBeginBackground =>
    cases h
    exact tryBeginBackground_minds c.state c.now
  | beginBackground =>
    cases h
    exact beginBackgroundPass_minds c.state c.now
  | beginAnalysis =>
    cases h
    exact beginAnalysisPass_minds c.state c.now
  | matchesHandoff =>
    cases h
    exact expireReservation_minds c.state c.now
  | beginResumption request =>
    cases h
    have hsame : authority (c.state.beginRuntimeResumption request).1 = authority c.state ∧
        occupancy (c.state.beginRuntimeResumption request).1 = occupancy c.state := by
      unfold beginRuntimeResumption
      split_ifs <;> exact ⟨rfl, rfl⟩
    exact .of_lease hsame.1 (repairLease_eq_of_occupancy hsame.2)
      (reservedRepair_eq_of_occupancy hsame.2)
  | dropBackground | dropAnalysis | commitResumption | dropResumption =>
    simp only [step, ite_none_left_eq_some, some.injEq] at h
    obtain ⟨_, rfl⟩ := h
    exact .of_lease rfl rfl rfl
  | acquireVerification manifestId =>
    have hminds : Minds c.now c.state (c.state.acquireRepairVerification manifestId).1 :=
      acquireRepairVerification_minds c.state manifestId
    simp only [step] at h
    split at h <;>
    · cases h
      exact hminds
  | acquirePass i =>
    obtain ⟨call, _, rfl⟩ := map_eq_some_iff.mp h
    rw [passAcquire_state]
    exact acquireRepairPass_minds ..
  | abandonAcquire | retainOnUncertainDrop =>
    obtain ⟨_, _, rfl⟩ := map_eq_some_iff.mp h
    exact .refl _
  | dropRegistration =>
    obtain ⟨registration, _, rfl⟩ := map_eq_some_iff.mp h
    have hocc := occupancy_removePendingOwner c.state registration.manifestId
      registration.owner
    exact .of_lease (authority_removePendingOwner ..) (repairLease_eq_of_occupancy hocc)
      (reservedRepair_eq_of_occupancy hocc)
  | expiryTimer =>
    obtain ⟨generation, _, rfl⟩ := map_eq_some_iff.mp h
    exact expireReservedRepair_minds c.state generation c.now
  | retainUntilVerification =>
    obtain ⟨guard, _, rfl⟩ := map_eq_some_iff.mp h
    rw [answered_state]
    exact retainUntilVerification_minds c.state guard
  | releaseAfterPrecommitFailure =>
    obtain ⟨guard, _, rfl⟩ := map_eq_some_iff.mp h
    rw [answered_state]
    exact releaseAfterPrecommitFailure_minds c.state guard
  | dropRepair =>
    obtain ⟨guard, _, rfl⟩ := map_eq_some_iff.mp h
    exact dropRepair_minds c.state guard

theorem step_now (h : Step c op d) : c.now ≤ d.now := by
  unfold Step at h
  cases op with
  | tick elapsed =>
    cases h
    exact Nat.le_add_right c.now elapsed
  | handoffAfterVerification =>
    simp only [step, ite_none_left_eq_some] at h
    obtain ⟨_, h⟩ := h
    obtain ⟨guard, _, rfl⟩ := map_eq_some_iff.mp h
    rw [answered_now]
  | acquireVerification =>
    simp only [step] at h
    split at h <;>
    · cases h
      exact Nat.le_refl _
  | callAcquireApproved | callAcquire | finishRecovery | tryBeginBackground | beginBackground
  | beginAnalysis | matchesHandoff | beginResumption | rearmApproved =>
    cases h
    exact Nat.le_refl _
  | dropBackground | dropAnalysis | commitResumption | dropResumption =>
    simp only [step, ite_none_left_eq_some, some.injEq] at h
    obtain ⟨_, rfl⟩ := h
    exact Nat.le_refl _
  | acquirePass =>
    obtain ⟨call, _, rfl⟩ := map_eq_some_iff.mp h
    rw [passAcquire_now]
  | abandonAcquire | retainOnUncertainDrop | dropRegistration | expiryTimer | dropRepair =>
    obtain ⟨_, _, rfl⟩ := map_eq_some_iff.mp h
    exact Nat.le_refl _
  | retainUntilVerification | releaseAfterPrecommitFailure | releaseAfterVerification =>
    obtain ⟨guard, _, rfl⟩ := map_eq_some_iff.mp h
    rw [answered_now]

/-- What a step does to the claim: nothing, arming, or ending a verified lease. -/
inductive ClaimEffect (c : Coordination) (op : Op) (d : Coordination) : Prop
  | minds (hminds : Minds c.now c.state d.state)
  | arms (request : ApplyRepairRequest) (hop : op = .rearmApproved request)
      (hrecovery : c.state.recoveryComplete = false)
      (hreserved : c.state.reservedRepair = none)
      (hclaim : ∀ claim, c.state.startupClaim = some claim → claim = request)
      (hauthority : authority d.state =
        { authority c.state with claim := some request, complete := false })
  | releases (hends : Ends none c.state d.state)
  | hands (guard : Nat) (next : ApplyRepairRequest) (ttl startedAt : Nat)
      (hop : op = .handoffAfterVerification guard next ttl startedAt)
      (hends : Ends (some next) c.state d.state)

theorem step_claimEffect (h : Step c op d) : ClaimEffect c op d := by
  by_cases hop : movesClaim op = false
  · exact .minds (step_minds h hop)
  · unfold Step at h
    cases op with
    | rearmApproved request =>
      cases h
      rcases rearmApprovedRepair_cases c.state request with
        hsame | ⟨hrecovery, hreserved, hclaim, hauthority, _⟩
      · refine .minds ?_
        rw [hsame]
        exact .refl _
      · exact .arms request rfl hrecovery hreserved hclaim hauthority
    | releaseAfterVerification i =>
      obtain ⟨guard, _, rfl⟩ := map_eq_some_iff.mp h
      rcases releaseAfterVerification_ends c.state guard with hsame | hends
      · refine .minds ?_
        rw [answered_state, hsame]
        exact .refl _
      · refine .releases ?_
        rw [answered_state]
        exact hends
    | handoffAfterVerification i next ttl startedAt =>
      simp only [step, ite_none_left_eq_some] at h
      obtain ⟨_, h⟩ := h
      obtain ⟨guard, _, rfl⟩ := map_eq_some_iff.mp h
      rcases handoffAfterVerification_ends c.state guard next ttl startedAt with
        ⟨error, generation, hfail⟩ | ⟨_, hends⟩
      · refine .minds ?_
        rw [answered_state, hfail]
        exact .of_lease rfl rfl rfl
      · refine .hands i next ttl startedAt rfl ?_
        rw [answered_state]
        exact hends
    | _ => exact absurd rfl hop

/-- A complete claim leaves the fence empty. -/
structure Closed (c : Coordination) : Prop where
  coordinated : Coordinated c
  empty : c.state.startupClaimComplete = true →
    c.state.repairLease = none ∧ c.state.reservedRepair = none

theorem reservation_none (hcoord : Coordinated c) (hheld : c.state.repairLease.isSome) :
    c.state.reservedRepair = none := by
  obtain ⟨lease, hlease⟩ := isSome_iff_exists.mp hheld
  exact Moves.reservation_none_of_lease hcoord.exclusive hlease

theorem Closed.not_complete (hclos : Closed c) (hheld : c.state.repairLease.isSome) :
    c.state.startupClaimComplete ≠ true := by
  intro hcomp
  rw [(hclos.empty hcomp).1] at hheld
  cases hheld

theorem Closed.of_ends {next : Option ApplyRepairRequest} (hclos : Closed c)
    (hends : Ends next c.state d.state) (hcomp : d.state.startupClaimComplete) :
    d.state.repairLease = none ∧ d.state.reservedRepair = none := by
  refine ⟨hends.freed, ?_⟩
  rcases hends.closing hcomp with hbef | hreserved
  · exact absurd hbef (hclos.not_complete hends.held)
  · exact hreserved.trans (reservation_none hclos.coordinated hends.held)

theorem closed_step (c : Coordination) (op : Op) (d : Coordination) (hclos : Closed c)
    (h : Step c op d) : Closed d := by
  refine ⟨coordinated_step c op d hclos.coordinated h, fun hcomp => ?_⟩
  rcases step_claimEffect h with hminds | ⟨request, _, _, _, _, hauthority⟩ | hends |
    ⟨_, _, _, _, _, hends⟩
  · have hbef := hminds.frame.complete ▸ hcomp
    obtain ⟨hlease, hreserved⟩ := hclos.empty hbef
    obtain ⟨hfree, hstays⟩ := hminds.closed hbef hlease
    exact ⟨hfree, hstays hreserved⟩
  · have hopene := congrArg Authority.complete hauthority
    exact Bool.noConfusion (hopene.symm.trans hcomp)
  all_goals exact hclos.of_ends hends hcomp

theorem closed_of_reaches (h : Reaches Step .initial c) : Closed c := by
  refine h.invariant closed_step ⟨coordinated_initial, ?_⟩
  exact Bool.noConfusion

def Grants (c : Coordination) (call : AcquireCall) : Prop :=
  ∃ guard registration, (c.state.acquireRepairPass call.manifestId call.approvedRequest
    call.registration c.now).2 = .granted guard registration

variable {call : AcquireCall}

theorem Grants.admitted (h : Grants c call) :
    c.state.startupClaimComplete = false ∧
      (∀ claim, c.state.startupClaim = some claim → call.approvedRequest = some claim) ∧
      ∀ request, call.approvedRequest = some request →
        request ∉ (c.state.expireReservation c.now).1.expiredRepairs := by
  obtain ⟨guard, registration, hgran⟩ := h
  obtain ⟨hopen, hclaim, hfresh⟩ := acquireRefusal_eq_none (acquireRefusal_of_granted hgran)
  have hframe := expireReservation_frame c.state c.now
  refine ⟨hframe.complete ▸ hopen, ?_, hfresh⟩
  intro claim hsome
  exact hclaim claim (hframe.claim.trans hsome)

/-- Complete, and kept so: recovery is over, or nothing will arm a claim again. -/
structure Sealed (armable : Bool) (c : Coordination) : Prop where
  closed : Closed c
  complete : c.state.startupClaimComplete = true
  locked : armable = true → c.state.recoveryComplete = true

variable {armable : Bool}

theorem sealed_step (c : Coordination) (op : Op) (d : Coordination)
    (hallow : armable ∨ ∀ request, op ≠ .rearmApproved request)
    (hseal : Sealed armable c) (h : Step c op d) : Sealed armable d := by
  have hclos := closed_step c op d hseal.closed h
  rcases step_claimEffect h with hminds | ⟨request, hop, hrecovery, _, _, _⟩ | hends |
    ⟨_, _, _, _, _, hends⟩
  · exact ⟨hclos, hminds.frame.complete.trans hseal.complete,
      fun harm => hminds.frame.recovered (hseal.locked harm)⟩
  · rcases hallow with harm | hnever
    · rw [hseal.locked harm] at hrecovery
      cases hrecovery
    · exact absurd hop (hnever request)
  all_goals exact absurd hseal.complete (hseal.closed.not_complete hends.held)

theorem Sealed.no_grant (hseal : Sealed armable c) (call : AcquireCall) : ¬ Grants c call := by
  intro hgrant
  have hopen := hgrant.admitted.1
  rw [hseal.complete] at hopen
  cases hopen

theorem Sealed.no_verification (hseal : Sealed armable c)
    (manifestId : String) (guard : RepairFenceGuard) :
    (c.state.acquireRepairVerification manifestId).2 ≠ .ok guard := by
  have hfree := (hseal.closed.empty hseal.complete).1
  unfold acquireRepairVerification
  rw [hfree]
  split <;> simp

/-- What hand-offs on the way have made of the claim on `claim`. -/
inductive Chain : ApplyRepairRequest → List Op → ApplyRepairRequest → Prop
  | refl (claim : ApplyRepairRequest) : Chain claim [] claim
  | keep (op : Op) {claim held : ApplyRepairRequest} {ops : List Op} :
      Chain claim ops held → Chain claim (op :: ops) held
  | hand (guard ttl startedAt : Nat) {claim next held : ApplyRepairRequest} {ops : List Op} :
      Chain next ops held →
        Chain claim (.handoffAfterVerification guard next ttl startedAt :: ops) held

theorem claim_step {claim : ApplyRepairRequest} (h : Step c op d)
    (hclaim : c.state.startupClaim = some claim) :
    d.state.startupClaim = some claim ∨ ∃ guard next ttl startedAt,
      op = .handoffAfterVerification guard next ttl startedAt ∧
        d.state.startupClaim = some next := by
  rcases step_claimEffect h with hminds | ⟨request, _, _, _, hsame, hauthority⟩ | hends |
    ⟨guard, next, ttl, startedAt, hop, hends⟩
  · exact .inl (hminds.frame.claim.trans hclaim)
  · have harmed : d.state.startupClaim = some request := congrArg Authority.claim hauthority
    rw [hsame claim hclaim]
    exact .inl harmed
  · rcases hends.claim with hkept | ⟨_, request, hnone, _⟩
    · exact .inl (hkept.trans hclaim)
    · cases hnone
  · rcases hends.claim with hkept | ⟨_, request, hsome, hmoved⟩
    · exact .inl (hkept.trans hclaim)
    · cases hsome
      exact .inr ⟨guard, next, ttl, startedAt, hop, hmoved⟩

theorem claim_chain {claim : ApplyRepairRequest} {ops : List Op} (hrun : Run Step c ops d)
    (hclaim : c.state.startupClaim = some claim) :
    ∃ held, d.state.startupClaim = some held ∧ Chain claim ops held := by
  induction hrun generalizing claim with
  | refl => exact ⟨claim, hclaim, .refl claim⟩
  | cons hstep _ ih =>
    rcases claim_step hstep hclaim with hkept | ⟨guard, next, ttl, startedAt, rfl, hmoved⟩
    · obtain ⟨held, hheld, hchain⟩ := ih hkept
      exact ⟨held, hheld, .keep _ hchain⟩
    · obtain ⟨held, hheld, hchain⟩ := ih hmoved
      exact ⟨held, hheld, .hand guard ttl startedAt hchain⟩

structure Buried (reserved : ReservedRepair) (c : Coordination) : Prop where
  coordinated : Coordinated c
  ended : reserved.nextApply ∈ c.state.expiredRepairs ∨
    (c.state.reservedRepair = some reserved ∧ reserved.expiresAt ≤ c.now)

theorem Buried.of_ends {reserved : ReservedRepair} {next : Option ApplyRepairRequest}
    (hbur : Buried reserved c) (hends : Ends next c.state d.state) :
    reserved.nextApply ∈ d.state.expiredRepairs := by
  rw [hends.expired]
  rcases hbur.ended with hmem | ⟨hkept, _⟩
  · exact hmem
  · rw [reservation_none hbur.coordinated hends.held] at hkept
    cases hkept

theorem buried_step {reserved : ReservedRepair} (c : Coordination) (op : Op)
    (d : Coordination) (hbur : Buried reserved c) (h : Step c op d) : Buried reserved d := by
  refine ⟨coordinated_step c op d hbur.coordinated h, ?_⟩
  rcases step_claimEffect h with hminds | ⟨_, _, _, hreserved, _, hauthority⟩ | hends |
    ⟨_, _, _, _, _, hends⟩
  · rcases hbur.ended with hmem | ⟨hkept, hover⟩
    · exact .inl (hminds.frame.expired _ hmem)
    · rcases hminds.buries reserved hkept hover with hmem | hstays
      · exact .inl hmem
      · exact .inr ⟨hstays, hover.trans (step_now h)⟩
  · have hexp : d.state.expiredRepairs = c.state.expiredRepairs :=
      congrArg Authority.expired hauthority
    rcases hbur.ended with hmem | ⟨hkept, _⟩
    · rw [hexp]
      exact .inl hmem
    · rw [hreserved] at hkept
      cases hkept
  all_goals exact .inl (hbur.of_ends hends)

theorem Buried.no_grant {reserved : ReservedRepair} (hbur : Buried reserved c)
    (hcall : call.approvedRequest = some reserved.nextApply) :
    ¬ Grants c call := by
  intro hgrant
  have hfresh := hgrant.admitted.2.2 _ hcall
  rcases hbur.ended with hmem | ⟨hkept, hover⟩
  · exact hfresh ((expireReservation_frame c.state c.now).expired _ hmem)
  · rcases expireReservation_buries c.state c.now reserved hkept hover with hmem | hstays
    · exact hfresh hmem
    · have hlater := expireReservation_fresh hstays
      omega

/-! ## What an error leaves -/

/-- A method of the guard has answered an error and left `left`. -/
inductive Fails (state : CoordinatorState) (guard : RepairFenceGuard)
    (left : CoordinatorState) : Prop
  | retain (error : MaintenanceFenceError)
      (h : state.retainUntilVerification guard = (left, .error error))
  | precommit (error : MaintenanceFenceError)
      (h : state.releaseAfterPrecommitFailure guard = (left, .error error))
  | verification (error : MaintenanceFenceError)
      (h : state.releaseAfterVerification guard = (left, .error error))
  | handoff (nextApply : ApplyRepairRequest) (ttl startedAt : Nat)
      (error : MaintenanceFenceError)
      (h : state.handoffAfterVerification guard nextApply ttl startedAt = (left, .error error))

section Errors

variable {state left : CoordinatorState} {guard : RepairFenceGuard}
  {error : MaintenanceFenceError}

theorem retainUntilVerification_error
    (h : state.retainUntilVerification guard = (left, .error error)) : left = state := by
  unfold retainUntilVerification at h
  split at h
  · exact (Prod.ext_iff.mp h).1.symm
  · split at h
    · exact (Prod.ext_iff.mp h).1.symm
    · split at h
      · cases (Prod.ext_iff.mp h).2
      · exact (Prod.ext_iff.mp h).1.symm

theorem releaseAfterPrecommitFailure_error
    (h : state.releaseAfterPrecommitFailure guard = (left, .error error)) : left = state := by
  unfold releaseAfterPrecommitFailure at h
  split at h
  · exact (Prod.ext_iff.mp h).1.symm
  · split at h
    · exact (Prod.ext_iff.mp h).1.symm
    · split at h
      · split at h <;> cases (Prod.ext_iff.mp h).2
      · exact (Prod.ext_iff.mp h).1.symm

theorem releaseAfterVerification_error
    (h : state.releaseAfterVerification guard = (left, .error error)) : left = state := by
  unfold releaseAfterVerification at h
  split at h
  · exact (Prod.ext_iff.mp h).1.symm
  · split at h
    · exact (Prod.ext_iff.mp h).1.symm
    · split at h
      · cases (Prod.ext_iff.mp h).2
      · split at h <;> exact (Prod.ext_iff.mp h).1.symm

theorem Fails.left_eq (h : Fails state guard left) :
    ∃ generation, left = { state with nextReservation := generation } := by
  cases h with
  | retain error h => exact ⟨state.nextReservation, retainUntilVerification_error h⟩
  | precommit error h => exact ⟨state.nextReservation, releaseAfterPrecommitFailure_error h⟩
  | verification error h => exact ⟨state.nextReservation, releaseAfterVerification_error h⟩
  | handoff nextApply ttl startedAt error h =>
    rcases handoffAfterVerification_ends state guard nextApply ttl startedAt with
      ⟨failure, generation, hfail⟩ | ⟨⟨generation, hok⟩, _⟩
    · rw [hfail] at h
      exact ⟨generation, (Prod.ext_iff.mp h).1.symm⟩
    · rw [h] at hok
      cases hok

end Errors

def droppedLease (guard : RepairFenceGuard) (lease : RepairLease) : Option RepairLease :=
  if guard.attemptToken.any (leaseOwnedBy lease guard.manifestId) then
    if lease.durable || guard.retainOnDrop then
      some { lease with durable := true, activeAttempt := none }
    else none
  else some lease

theorem dropRepair_eq (state : CoordinatorState) (guard : RepairFenceGuard) :
    state.dropRepair guard =
      { state with repairLease := state.repairLease.bind (droppedLease guard) } := by
  unfold dropRepair droppedLease
  cases htoken : guard.attemptToken with
  | none => simp
  | some token =>
    cases hlease : state.repairLease with
    | none =>
      simp only [bind_none]
      rw [← hlease]
    | some lease =>
      simp only [any_some, bind_some]
      split
      · split <;> rfl
      · rw [← hlease]

/-- While a startup claim exists, the fence is granted only for the claimed request or for
what hand-offs on the way made of it.  Once the claim is complete nothing takes the fence,
unless the claim is armed again before recovery is over.  A request whose reservation ran
out is never granted.  A failed release or hand-off leaves everything but a spent
generation, and then the drop of the guard ends that guard's own attempt. -/
theorem startup_claim_and_handoff (hreaches : Reaches Step .initial c) :
    (∀ claim, c.state.startupClaim = some claim → ∀ ops d, Run Step c ops d →
      ∃ held, d.state.startupClaim = some held ∧ Chain claim ops held ∧
        ∀ call, Grants d call → call.approvedRequest = some held) ∧
    (c.state.startupClaimComplete = true → ∀ ops d, Run Step c ops d →
      (c.state.recoveryComplete = true ∨ ∀ op ∈ ops, ∀ request, op ≠ .rearmApproved request) →
      d.state.startupClaimComplete = true ∧ (∀ call, ¬ Grants d call) ∧
        ∀ manifestId guard, (d.state.acquireRepairVerification manifestId).2 ≠ .ok guard) ∧
    (∀ reserved, c.state.reservedRepair = some reserved → reserved.expiresAt ≤ c.now →
      ∀ d, Reaches Step c d → ∀ call, call.approvedRequest = some reserved.nextApply →
        ¬ Grants d call) ∧ ∀ guard left, Fails c.state guard left → ∃ generation,
      left = { c.state with nextReservation := generation } ∧
      left.dropRepair guard = { c.state with
        repairLease := c.state.repairLease.bind (droppedLease guard)
        nextReservation := generation } := by
  have hclos := closed_of_reaches hreaches
  refine ⟨?_, ?_, ?_, ?_⟩
  · intro claim hclaim ops d hrun
    obtain ⟨held, hheld, hchain⟩ := claim_chain hrun hclaim
    exact ⟨held, hheld, hchain, fun call hgrant => hgrant.admitted.2.1 held hheld⟩
  · intro hcomp ops d hrun hlock
    have hseal : ∃ armable, Sealed armable d := by
      rcases hlock with hrec | hnever
      · have hstart : Sealed true c := ⟨hclos, hcomp, fun _ => hrec⟩
        exact ⟨true, hrun.invariant
          (fun c op d => sealed_step c op d (.inl rfl)) hstart⟩
      · have hstart : Sealed false c := ⟨hclos, hcomp, fun harm => by cases harm⟩
        exact ⟨false, hrun.invariant_on
          (fun c op d hop => sealed_step c op d (.inr hop)) hnever hstart⟩
    obtain ⟨armable, hseal⟩ := hseal
    exact ⟨hseal.complete, hseal.no_grant, hseal.no_verification⟩
  · intro reserved hreserved hover d hrun call hcall
    have hstart : Buried reserved c := ⟨hclos.coordinated, .inr ⟨hreserved, hover⟩⟩
    exact (hrun.invariant buried_step hstart).no_grant hcall
  · intro guard left hfails
    obtain ⟨generation, rfl⟩ := hfails.left_eq
    exact ⟨generation, rfl, dropRepair_eq _ guard⟩

def armedRequest : ApplyRepairRequest where
  manifestId := "repair_550e8400-e29b-41d4-a716-446655440000"
  approvedManifestDigest :=
    "0f1e2d3c4b5a69788796a5b4c3d2e1f00f1e2d3c4b5a69788796a5b4c3d2e1f0"
  approval := approvalText "repair_550e8400-e29b-41d4-a716-446655440000"
    "0f1e2d3c4b5a69788796a5b4c3d2e1f00f1e2d3c4b5a69788796a5b4c3d2e1f0"
  digest_valid := by decide +kernel
  manifest_valid := by decide +kernel
  approval_exact := rfl

/-- The claim is armed, verified and released while recovery still runs. -/
def completingOps : List Op :=
  [.rearmApproved armedRequest, .acquireVerification armedRequest.manifestId,
    .releaseAfterVerification 0]

def rearmingOps : List Op := [.rearmApproved armedRequest, .finishRecovery]

def verifyingOps : List Op :=
  [.finishRecovery, .callAcquireApproved armedRequest, .acquirePass 0,
    .retainUntilVerification 0, .acquireVerification armedRequest.manifestId]

/-- Two parts fail as they stand: a complete claim that is armed again before recovery is over
lets a call through, and after a failed hand-off the dropped guard has ended its attempt. -/
theorem claim_armed_again_and_attempt_dropped :
    (¬ ∀ c d call, Reaches Step .initial c → c.state.startupClaimComplete = true →
      Reaches Step c d → call.approvedRequest = c.state.startupClaim → ¬ Grants d call) ∧
    ¬ ∀ c guard left, Reaches Step .initial c → guard ∈ c.repairGuards →
      Fails c.state guard left → fence (left.dropRepair guard) = fence c.state := by
  have hnext : ∀ s op t, Coordination.step s op = some t → Step s op t := fun _ _ _ h => h
  constructor
  · intro hclaim
    have hrun : ∃ c, Run Step .initial completingOps c ∧
        (c.state.startupClaimComplete = true ∧ c.state.startupClaim = some armedRequest ∧
          (rearmingOps.foldlM Coordination.step c).any fun d => decide
            ((d.state.acquireRepairPass armedRequest.manifestId (some armedRequest) none
              d.now).2 = .granted ⟨armedRequest.manifestId, some ⟨2⟩, false⟩ none)) :=
      Run.of_foldlM_any hnext (by decide +kernel)
    obtain ⟨c, hc, hcomp, hheld, hafter⟩ := hrun
    obtain ⟨d, hd, hgran⟩ := Run.of_foldlM_any hnext hafter
    exact hclaim c d ⟨armedRequest.manifestId, some armedRequest, none⟩ ⟨_, hc⟩ hcomp
      ⟨_, hd⟩ hheld.symm ⟨_, none, hgran⟩
  · intro hfence
    have hrun : ∃ c, Run Step .initial verifyingOps c ∧
        (c.repairGuards = [⟨armedRequest.manifestId, some ⟨2⟩, false⟩] ∧
          c.state.repairLease = some ⟨armedRequest.manifestId, true, some ⟨2⟩⟩) :=
      Run.of_foldlM_any hnext (by decide +kernel)
    obtain ⟨c, hc, hguard, hlease⟩ := hrun
    have hfails : Fails c.state ⟨armedRequest.manifestId, some ⟨2⟩, false⟩ c.state := by
      refine .handoff armedRequest 1 0 .conflict ?_
      unfold handoffAfterVerification
      rw [if_pos (.inr rfl)]
    have hsame := hfence c _ c.state ⟨_, hc⟩ (hguard ▸ List.mem_singleton.mpr rfl) hfails
    have hkept : (c.state.dropRepair ⟨armedRequest.manifestId, some ⟨2⟩, false⟩).repairLease =
        c.state.repairLease := congrArg Prod.fst hsame
    rw [dropRepair_eq, hlease] at hkept
    have hdrop : droppedLease ⟨armedRequest.manifestId, some ⟨2⟩, false⟩
        ⟨armedRequest.manifestId, true, some ⟨2⟩⟩ =
          some ⟨armedRequest.manifestId, true, none⟩ := by decide +kernel
    cases hdrop.symm.trans hkept

/-- The claim is complete, and no call is granted until it is armed again. -/
theorem startup_claim_and_handoff_complete : ∃ c, Reaches Step .initial c ∧
    c.state.startupClaimComplete = true ∧
    ∀ ops d, Run Step c ops d → (∀ op ∈ ops, ∀ request, op ≠ .rearmApproved request) →
      ∀ call, ¬ Grants d call := by
  have hnext : ∀ s op t, Coordination.step s op = some t → Step s op t := fun _ _ _ h => h
  have hrun : ∃ c, Run Step .initial completingOps c ∧ c.state.startupClaimComplete = true :=
    Run.of_foldlM_any hnext (by decide +kernel)
  obtain ⟨c, hc, hcomp⟩ := hrun
  have hclaim := startup_claim_and_handoff ⟨_, hc⟩
  refine ⟨c, ⟨_, hc⟩, hcomp, ?_⟩
  intro ops d hd hnever
  exact (hclaim.2.1 hcomp ops d hd (.inr hnever)).2.1

end Wenlan.Maintenance.StartupClaim
