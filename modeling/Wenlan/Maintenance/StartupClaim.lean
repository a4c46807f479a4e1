import Wenlan.Maintenance.Exclusion

/-!
# The startup claim and the hand-off

Who may still take the repair fence: the startup claim, whether it is complete, and the
requests whose reservation has run out.  A critical section leaves these alone except for
four: arming, the release and the hand-off after a verification, and an expiry.  The calls
of a guard end with its drop, so what an error leaves is what the drop leaves.
-/

namespace Wenlan.Maintenance.StartupClaim

open Coordinator Coordinator.CoordinatorState Exclusion Support.Transition

structure Authority where
  recovered : Bool
  claim : Option ApplyRepairRequest
  complete : Bool
  expired : List ApplyRepairRequest

def authority (state : CoordinatorState) : Authority where
  recovered := state.recoveryComplete
  claim := state.startupClaim
  complete := state.startupClaimComplete
  expired := state.expiredRepairs

section Helpers

variable (state : CoordinatorState)

@[simp] theorem authority_removePendingOwner (manifestId : String) (owner : PendingRepairToken) :
    authority (state.removePendingOwner manifestId owner).1 = authority state := by
  unfold removePendingOwner
  split
  · rfl
  · split <;> rfl

@[simp] theorem authority_withdrawRegistration (manifestId : String)
    (registration : Option PendingRepairToken) :
    authority (state.withdrawRegistration manifestId registration) = authority state := by
  cases registration with
  | none => rfl
  | some owner => exact authority_removePendingOwner state manifestId owner

@[simp] theorem authority_pendingOwner (registration : Option PendingRepairToken) :
    authority (state.pendingOwner registration).1 = authority state := by
  cases registration <;> rfl

@[simp] theorem authority_clearPendingManifest (manifestId : String) :
    authority (state.clearPendingManifest manifestId) = authority state := by
  unfold clearPendingManifest
  split <;> rfl

@[simp] theorem authority_registerPending (manifestId : String) (owner : PendingRepairToken) :
    authority (state.registerPending manifestId owner) = authority state := by
  unfold registerPending
  split <;> rfl

theorem mem_recordExpiredRepair {request other : ApplyRepairRequest} :
    other ∈ (state.recordExpiredRepair request).expiredRepairs ↔
      other = request ∨ other ∈ state.expiredRepairs := by
  unfold recordExpiredRepair
  split
  · rename_i hmem
    constructor
    · exact .inr
    · rintro (rfl | hold)
      · exact hmem
      · exact hold
  · rw [List.mem_append, List.mem_singleton]
    exact Or.comm

/-- A section leaves the claim, never unlocks recovery and forgets no tombstone. -/
structure Frame (s t : CoordinatorState) : Prop where
  claim : t.startupClaim = s.startupClaim
  complete : t.startupClaimComplete = s.startupClaimComplete
  recovered : s.recoveryComplete = true → t.recoveryComplete = true
  expired : ∀ request ∈ s.expiredRepairs, request ∈ t.expiredRepairs

/-- A reservation that has run out by `now` is still there or has its tombstone. -/
def Buries (now : Nat) (s t : CoordinatorState) : Prop :=
  ∀ reserved, s.reservedRepair = some reserved → reserved.expiresAt ≤ now →
    reserved.nextApply ∈ t.expiredRepairs ∨ t.reservedRepair = some reserved

end Helpers

variable {s m t : CoordinatorState} {now : Nat}

theorem Frame.refl (s : CoordinatorState) : Frame s s :=
  ⟨rfl, rfl, id, fun _ h => h⟩

theorem Frame.trans (h : Frame s m) (h' : Frame m t) : Frame s t where
  claim := h'.claim.trans h.claim
  complete := h'.complete.trans h.complete
  recovered hrec := h'.recovered (h.recovered hrec)
  expired request hmem := h'.expired request (h.expired request hmem)

theorem Frame.of_authority (h : authority t = authority s) : Frame s t := by
  have hrecov : t.recoveryComplete = s.recoveryComplete := congrArg Authority.recovered h
  have hclaim : t.startupClaim = s.startupClaim := congrArg Authority.claim h
  have hcomp : t.startupClaimComplete = s.startupClaimComplete :=
    congrArg Authority.complete h
  have hexp : t.expiredRepairs = s.expiredRepairs := congrArg Authority.expired h
  refine ⟨hclaim, hcomp, ?_, ?_⟩
  · rw [hrecov]
    exact id
  · rw [hexp]
    exact fun _ hmem => hmem

theorem Buries.of_reserved (h : t.reservedRepair = s.reservedRepair) : Buries now s t := by
  intro reserved hres _
  rw [h]
  exact .inr hres

theorem Buries.trans (h : Buries now s m) (h' : Buries now m t) (hframe : Frame m t) :
    Buries now s t := by
  intro reserved hres hover
  rcases h reserved hres hover with hmem | hkept
  · exact .inl (hframe.expired _ hmem)
  · exact h' reserved hkept hover

theorem expireReservation_frame (s : CoordinatorState) (now : Nat) :
    Frame s (s.expireReservation now).1 := by
  unfold expireReservation
  split
  · exact .refl s
  · split
    · exact .refl s
    · have hstep : ∀ request, Frame s (({ s with reservedRepair := none } :
          CoordinatorState).recordExpiredRepair request) := by
        intro request
        refine ⟨?_, ?_, ?_, ?_⟩
        · unfold recordExpiredRepair
          split <;> rfl
        · unfold recordExpiredRepair
          split <;> rfl
        · unfold recordExpiredRepair
          split <;> exact id
        · intro other hmem
          exact (mem_recordExpiredRepair _).mpr (.inr hmem)
      exact hstep _

theorem expireReservation_buries (s : CoordinatorState) (now : Nat) :
    Buries now s (s.expireReservation now).1 := by
  intro reserved hres hover
  unfold expireReservation
  simp only [hres, if_neg (Nat.not_lt.mpr hover)]
  exact .inl ((mem_recordExpiredRepair _).mpr (.inl rfl))

/-- What an expiry leaves has not run out. -/
theorem expireReservation_fresh {reserved : ReservedRepair}
    (h : (s.expireReservation now).1.reservedRepair = some reserved) :
    now < reserved.expiresAt := by
  unfold expireReservation at h
  split at h
  · rename_i hnone
    rw [hnone] at h
    cases h
  · rename_i stored hstored
    split at h
    · rename_i hlt
      rw [hstored] at h
      cases h
      exact hlt
    · have hgone : (({ s with reservedRepair := none } :
          CoordinatorState).recordExpiredRepair stored.nextApply).reservedRepair = none := by
        unfold recordExpiredRepair
        split <;> rfl
      rw [hgone] at h
      cases h

/-- The claim and the tombstones are left alone, and once the claim is complete no section
brings a lease or a reservation back. -/
structure Minds (now : Nat) (s t : CoordinatorState) : Prop where
  frame : Frame s t
  buries : Buries now s t
  closed : s.startupClaimComplete = true → s.repairLease = none →
    t.repairLease = none ∧ (s.reservedRepair = none → t.reservedRepair = none)

theorem Minds.trans (h : Minds now s m) (h' : Minds now m t) : Minds now s t := by
  refine ⟨h.frame.trans h'.frame, h.buries.trans h'.buries h'.frame, ?_⟩
  intro hcomp hlease
  obtain ⟨hmid, hmidR⟩ := h.closed hcomp hlease
  have hmidC : m.startupClaimComplete := h.frame.complete.trans hcomp
  obtain ⟨hend, hendR⟩ := h'.closed hmidC hmid
  exact ⟨hend, fun hnone => hendR (hmidR hnone)⟩

theorem Minds.of_lease (hauth : authority t = authority s)
    (hlease : t.repairLease = s.repairLease) (hres : t.reservedRepair = s.reservedRepair) :
    Minds now s t := by
  refine ⟨.of_authority hauth, .of_reserved hres, ?_⟩
  intro _ hnone
  rw [hlease, hres]
  exact ⟨hnone, id⟩

theorem Minds.refl (s : CoordinatorState) : Minds now s s :=
  .of_lease rfl rfl rfl

theorem Minds.of_held {lease : RepairLease} (hheld : s.repairLease = some lease)
    (hauth : authority t = authority s) (hres : t.reservedRepair = s.reservedRepair) :
    Minds now s t := by
  refine ⟨.of_authority hauth, .of_reserved hres, ?_⟩
  intro _ hnone
  rw [hheld] at hnone
  cases hnone

theorem reservedRepair_eq_of_occupancy (h : occupancy t = occupancy s) :
    t.reservedRepair = s.reservedRepair :=
  congrArg Occupancy.reservation h

theorem repairLease_eq_of_occupancy (h : occupancy t = occupancy s) :
    t.repairLease = s.repairLease :=
  congrArg Occupancy.lease h

section

variable (s : CoordinatorState)

theorem expireReservation_minds (now : Nat) : Minds now s (s.expireReservation now).1 := by
  have hquiet := expireReservation_quiet s now
  refine ⟨expireReservation_frame s now, expireReservation_buries s now, ?_⟩
  intro _ hnone
  refine ⟨hquiet.lease_eq.trans hnone, fun hres => ?_⟩
  rcases hquiet.reservation_eq with hsame | hgone
  · exact hsame.trans hres
  · exact hgone

theorem finishRecovery_minds : Minds now s s.finishRecovery :=
  ⟨⟨rfl, rfl, fun _ => rfl, fun _ h => h⟩, .of_reserved rfl, fun _ hnone => ⟨hnone, id⟩⟩

theorem beginBackgroundPass_minds (now : Nat) : Minds now s (s.beginBackgroundPass now).1 := by
  refine (expireReservation_minds s now).trans ?_
  unfold beginBackgroundPass
  dsimp only
  split <;> exact .of_lease rfl rfl rfl

theorem tryBeginBackground_minds (now : Nat) : Minds now s (s.tryBeginBackground now).1 := by
  refine (expireReservation_minds s now).trans ?_
  unfold tryBeginBackground
  dsimp only
  split <;> exact .of_lease rfl rfl rfl

theorem beginAnalysisPass_minds (now : Nat) : Minds now s (s.beginAnalysisPass now).1 := by
  refine (expireReservation_minds s now).trans ?_
  unfold beginAnalysisPass
  dsimp only
  split <;> exact .of_lease rfl rfl rfl

theorem expireReservedRepair_minds (generation : UInt64) (now : Nat) :
    Minds now s (s.expireReservedRepair generation now) := by
  unfold expireReservedRepair
  cases hres : s.reservedRepair with
  | none => exact .refl s
  | some reserved =>
    dsimp only
    split
    · rename_i hover
      have hexp : (s.expireReservation now).1 =
          ({ s with reservedRepair := none } : CoordinatorState).recordExpiredRepair
            reserved.nextApply := by
        unfold expireReservation
        simp only [hres, if_neg (Nat.not_lt.mpr hover.2)]
      rw [← hexp]
      exact expireReservation_minds s now
    · exact .refl s

end

/-! ## Acquiring -/

theorem acquireReserved_authority (s : CoordinatorState) (reserved : ReservedRepair)
    (manifestId : String) (approvedRequest : Option ApplyRepairRequest)
    (registration : Option PendingRepairToken) :
    authority (s.acquireReserved reserved manifestId approvedRequest registration).1 =
      authority s := by
  unfold acquireReserved
  split
  · rfl
  · split <;> rfl

theorem acquireLeased_authority (s : CoordinatorState) (lease : RepairLease)
    (manifestId : String) (registration : Option PendingRepairToken) :
    authority (s.acquireLeased lease manifestId registration).1 = authority s := by
  unfold acquireLeased
  split
  · rfl
  · split
    · rfl
    · exact authority_withdrawRegistration _ manifestId registration

theorem acquirePending_authority (s : CoordinatorState) (manifestId : String)
    (registration : Option PendingRepairToken) :
    authority (s.acquirePending manifestId registration).1 = authority s := by
  unfold acquirePending
  split
  · rfl
  · dsimp only
    have hreg : authority ((s.pendingOwner registration).1.registerPending manifestId
        (s.pendingOwner registration).2) = authority s := by
      rw [authority_registerPending, authority_pendingOwner]
    split
    · refine Eq.trans ?_ hreg
      exact authority_removePendingOwner _ manifestId _
    · exact hreg

variable {approvedRequest : Option ApplyRepairRequest}

/-- A call is let through only if recovery is over, the claim is open, and the request is the
claimed one and has no tombstone. -/
theorem acquireRefusal_eq_none
    (h : s.acquireRefusal approvedRequest = none) : s.startupClaimComplete = false ∧
      (∀ claim, s.startupClaim = some claim → approvedRequest = some claim) ∧
      ∀ request, approvedRequest = some request → request ∉ s.expiredRepairs := by
  unfold acquireRefusal at h
  split at h
  · cases h
  · split at h
    · cases h
    · split at h
      · cases h
      · rename_i hopen
        split at h
        · cases h
        · rename_i hclaim
          split at h
          · cases h
          · rename_i hexp
            refine ⟨Bool.eq_false_iff.mpr hopen, ?_, ?_⟩
            · intro claim hsome
              rw [hsome] at hclaim
              simpa using hclaim
            · intro request hsome
              rw [hsome] at hexp
              simpa [repairIsExpired] using hexp

theorem acquireRepairPass_authority (s : CoordinatorState) (manifestId : String)
    (approvedRequest : Option ApplyRepairRequest) (registration : Option PendingRepairToken)
    (now : Nat) : authority (s.acquireRepairPass manifestId approvedRequest registration now).1 =
      authority (s.expireReservation now).1 := by
  unfold acquireRepairPass
  dsimp only
  split
  · rfl
  · split
    · exact acquireReserved_authority ..
    · split
      · exact acquireLeased_authority ..
      · exact acquirePending_authority ..

theorem acquireRefusal_of_granted {manifestId : String}
    {registration left : Option PendingRepairToken} {guard : RepairFenceGuard}
    (h : (s.acquireRepairPass manifestId approvedRequest registration now).2 =
      .granted guard left) : (s.expireReservation now).1.acquireRefusal approvedRequest = none := by
  unfold acquireRepairPass at h
  dsimp only at h
  split at h
  · cases h
  · rename_i hlet
    exact hlet

theorem acquireRepairPass_minds (s : CoordinatorState) (manifestId : String)
    (approvedRequest : Option ApplyRepairRequest) (registration : Option PendingRepairToken)
    (now : Nat) :
    Minds now s (s.acquireRepairPass manifestId approvedRequest registration now).1 := by
  have hexpir := expireReservation_minds s now
  have hrest : Frame (s.expireReservation now).1
      (s.acquireRepairPass manifestId approvedRequest registration now).1 :=
    .of_authority (acquireRepairPass_authority s manifestId approvedRequest registration now)
  refine ⟨hexpir.frame.trans hrest, ?_, ?_⟩
  · intro reserved hres hover
    rcases hexpir.buries reserved hres hover with hmem | hkept
    · exact .inl (hrest.expired _ hmem)
    · have hfresh := expireReservation_fresh hkept
      omega
  · intro hcomp hnone
    have hseal : (s.expireReservation now).1.startupClaimComplete :=
      hexpir.frame.complete.trans hcomp
    have hstate : (s.acquireRepairPass manifestId approvedRequest registration now).1 =
        (s.expireReservation now).1 := by
      unfold acquireRepairPass
      dsimp only
      split
      · rfl
      · rename_i hlet
        rw [(acquireRefusal_eq_none hlet).1] at hseal
        cases hseal
    rw [hstate]
    exact hexpir.closed hcomp hnone

theorem acquireRepairVerification_minds (s : CoordinatorState) (manifestId : String) :
    Minds now s (s.acquireRepairVerification manifestId).1 := by
  unfold acquireRepairVerification
  split
  · exact .refl s
  · cases hlease : s.repairLease with
    | none => exact .refl s
    | some lease =>
      dsimp only
      split
      · exact .refl s
      · split
        · exact .refl s
        · exact .of_held hlease rfl rfl

/-! ## What a guard does -/

theorem reserved_clearPendingManifest (s : CoordinatorState) (manifestId : String) :
    (s.clearPendingManifest manifestId).reservedRepair = s.reservedRepair :=
  reservedRepair_eq_of_occupancy (occupancy_clearPendingManifest s manifestId)

section

variable (s : CoordinatorState) (guard : RepairFenceGuard)

theorem retainUntilVerification_minds : Minds now s (s.retainUntilVerification guard).1 := by
  unfold retainUntilVerification
  split
  · exact .refl s
  · split
    · exact .refl s
    · rename_i lease hlease
      split
      · exact .of_held hlease (authority_clearPendingManifest ..)
          (reserved_clearPendingManifest ..)
      · exact .refl s

theorem releaseAfterPrecommitFailure_minds :
    Minds now s (s.releaseAfterPrecommitFailure guard).1 := by
  unfold releaseAfterPrecommitFailure
  split
  · exact .refl s
  · split
    · exact .refl s
    · rename_i lease hlease
      split
      · split
        · exact .of_held hlease rfl rfl
        · exact .of_held hlease (authority_clearPendingManifest ..)
            (reserved_clearPendingManifest ..)
      · exact .refl s

theorem dropRepair_minds : Minds now s (s.dropRepair guard) := by
  unfold dropRepair
  split
  · exact .refl s
  · split
    · exact .refl s
    · rename_i lease hlease
      split
      · split <;> exact .of_held hlease rfl rfl
      · exact .refl s

end

/-- A section that ends a verified lease: the claim can only be completed, or handed on to
the next apply. -/
structure Ends (next : Option ApplyRepairRequest) (s t : CoordinatorState) : Prop where
  claim : t.startupClaim = s.startupClaim ∨
    s.startupClaim.isSome ∧ ∃ request, next = some request ∧ t.startupClaim = some request
  held : s.repairLease.isSome
  freed : t.repairLease = none
  recovered : t.recoveryComplete = s.recoveryComplete
  expired : t.expiredRepairs = s.expiredRepairs
  closing : t.startupClaimComplete = true → s.startupClaimComplete = true ∨
    t.reservedRepair = s.reservedRepair

theorem releaseAfterVerification_ends (s : CoordinatorState) (guard : RepairFenceGuard) :
    (s.releaseAfterVerification guard).1 = s ∨
      Ends none s (s.releaseAfterVerification guard).1 := by
  unfold releaseAfterVerification
  split
  · exact .inl rfl
  · split
    · exact .inl rfl
    · rename_i lease hlease
      split
      · have hclear := authority_clearPendingManifest
          ({ s with repairLease := none } : CoordinatorState) guard.manifestId
        have hfreed := repairLease_eq_of_occupancy (occupancy_clearPendingManifest
          ({ s with repairLease := none } : CoordinatorState) guard.manifestId)
        have hres := reserved_clearPendingManifest
          ({ s with repairLease := none } : CoordinatorState) guard.manifestId
        have hsome : s.repairLease.isSome := Option.isSome_of_eq_some hlease
        have hrecov := congrArg Authority.recovered hclear
        have hexp := congrArg Authority.expired hclear
        have hclaim := congrArg Authority.claim hclear
        right
        dsimp only
        split
        all_goals exact ⟨.inl hclaim, hsome, hfreed, hrecov, hexp, fun _ => .inr hres⟩
      · split <;> exact .inl rfl

/-- The hand-off either fails, having spent a generation at most, or ends the lease and does
not leave the claim complete. -/
theorem handoffAfterVerification_ends (s : CoordinatorState) (guard : RepairFenceGuard)
    (nextApply : ApplyRepairRequest) (ttl startedAt : Nat) :
    (∃ error generation, s.handoffAfterVerification guard nextApply ttl startedAt =
        ({ s with nextReservation := generation }, .error error)) ∨
      (∃ generation, (s.handoffAfterVerification guard nextApply ttl startedAt).2 =
        .ok generation) ∧
      Ends (some nextApply) s (s.handoffAfterVerification guard nextApply ttl startedAt).1 := by
  unfold handoffAfterVerification
  split
  · exact .inl ⟨_, s.nextReservation, rfl⟩
  · split
    · exact .inl ⟨_, s.nextReservation, rfl⟩
    · split
      · exact .inl ⟨_, s.nextReservation, rfl⟩
      · rename_i lease hlease
        split
        · dsimp only
          split
          · exact .inl ⟨_, _, rfl⟩
          · have hclear := authority_clearPendingManifest
              ({ s.issueReservation.1 with repairLease := none } : CoordinatorState)
              guard.manifestId
            have hfreed := repairLease_eq_of_occupancy (occupancy_clearPendingManifest
              ({ s.issueReservation.1 with repairLease := none } : CoordinatorState)
              guard.manifestId)
            have hsome : s.repairLease.isSome := Option.isSome_of_eq_some hlease
            have hrecov := congrArg Authority.recovered hclear
            have hexp := congrArg Authority.expired hclear
            have hcomp := congrArg Authority.complete hclear
            have hclaim := congrArg Authority.claim hclear
            right
            refine ⟨⟨_, rfl⟩, ?_, hsome, ?_, ?_, ?_, ?_⟩
            · split
              · rename_i hfor
                have hclai : s.startupClaim.isSome :=
                  (congrArg Option.isSome hclaim).symm.trans (Option.isSome_of_any hfor)
                exact .inr ⟨hclai, nextApply, rfl, rfl⟩
              · exact .inl hclaim
            · split <;> exact hfreed
            · split <;> exact hrecov
            · split <;> exact hexp
            · intro hclos
              split at hclos
              · cases hclos
              · exact .inl (hcomp.symm.trans hclos)
        · split <;> exact .inl ⟨_, s.nextReservation, rfl⟩

theorem rearmApprovedRepair_cases (s : CoordinatorState) (request : ApplyRepairRequest) :
    (s.rearmApprovedRepair request).1 = s ∨ (s.recoveryComplete = false ∧ s.reservedRepair = none ∧
        (∀ claim, s.startupClaim = some claim → claim = request) ∧
        authority (s.rearmApprovedRepair request).1 =
          { authority s with claim := some request, complete := false } ∧
        (s.rearmApprovedRepair request).1.reservedRepair = none) := by
  unfold rearmApprovedRepair
  split
  · exact .inl rfl
  · rename_i hreco
    split
    · exact .inl rfl
    · split
      · exact .inl rfl
      · rename_i hidle
        rw [Bool.or_eq_true, not_or] at hidle
        have hres : s.reservedRepair = none := Option.not_isSome_iff_eq_none.mp hidle.2
        split
        · exact .inl rfl
        · rename_i hclaim
          have hsame : ∀ claim, s.startupClaim = some claim → claim = request := by
            intro claim hsome
            rw [hsome] at hclaim
            simpa using hclaim
          have hopen : s.recoveryComplete = false := Bool.eq_false_iff.mpr hreco
          split
          · split
            · exact .inl rfl
            · exact .inr ⟨hopen, hres, hsame, rfl, hres⟩
          · exact .inr ⟨hopen, hres, hsame, rfl, hres⟩

end Wenlan.Maintenance.StartupClaim
