import Wenlan.Maintenance.Coordinator
import Wenlan.Support.Transition

/-!
# Who occupies the maintenance fence

The abstract side of the coordinator: writers, readers, one lease and one
reservation.  A `Move` is one change of occupancy that the coordinator is meant
to allow, and `Exclusive` is what the fence is for.  The second half shows that
every critical section of `Wenlan.Maintenance.Coordinator` is a short run of
moves, so that no later proof opens a critical section again.
-/

namespace Wenlan.Maintenance

open Coordinator Support.Transition

/-- The part of the coordinator that mutual exclusion is about. -/
structure Occupancy where
  recovered : Bool
  writers : Nat
  readers : Nat
  lease : Option RepairLease
  reservation : Option ReservedRepair

def leaseAttempt (lease : Option RepairLease) : Option (String × RepairAttemptToken) :=
  lease.bind fun lease => lease.activeAttempt.map fun token => (lease.manifestId, token)

def Occupancy.attempt (o : Occupancy) : Option (String × RepairAttemptToken) :=
  leaseAttempt o.lease

@[simp] theorem leaseAttempt_none : leaseAttempt none = none := rfl

@[simp] theorem leaseAttempt_idle (manifestId : String) (durable : Bool) :
    leaseAttempt (some ⟨manifestId, durable, none⟩) = none := rfl

@[simp] theorem leaseAttempt_active (manifestId : String) (durable : Bool)
    (token : RepairAttemptToken) :
    leaseAttempt (some ⟨manifestId, durable, some token⟩) = some (manifestId, token) := rfl

variable {lease : RepairLease}

theorem leaseAttempt_of_idle (hidle : lease.activeAttempt = none) :
    leaseAttempt (some lease) = none := by
  simp [leaseAttempt, hidle]

theorem leaseAttempt_of_active {token : RepairAttemptToken}
    (hactive : lease.activeAttempt = some token) :
    leaseAttempt (some lease) = some (lease.manifestId, token) := by
  simp [leaseAttempt, hactive]

inductive Move where
  | recover
  | expire
  | writerIn
  | writerOut
  | readerIn
  | readerOut
  | arm (manifestId : String)
  | take (manifestId : String) (token : RepairAttemptToken)
  | settle (manifestId : String) (token : RepairAttemptToken)
  | free (manifestId : String) (token : RepairAttemptToken)
  | handOver (manifestId : String) (token : RepairAttemptToken)

inductive Moves : Occupancy → Move → Occupancy → Prop
  | recover (o : Occupancy) : Moves o .recover { o with recovered := true }
  | expire (o : Occupancy) (hreserved : o.reservation.isSome) :
      Moves o .expire { o with reservation := none }
  | writerIn (o : Occupancy) (hrecovered : o.recovered = true) (hreaders : o.readers = 0)
      (hlease : o.lease = none) (hreservation : o.reservation = none) :
      Moves o .writerIn { o with writers := saturatingAdd o.writers 1 }
  | writerOut (o : Occupancy) : Moves o .writerOut { o with writers := o.writers - 1 }
  | readerIn (o : Occupancy) (hrecovered : o.recovered = true) (hwriters : o.writers = 0)
      (hattempt : o.attempt = none) (hreservation : o.reservation = none) :
      Moves o .readerIn { o with readers := saturatingAdd o.readers 1 }
  | readerOut (o : Occupancy) : Moves o .readerOut { o with readers := o.readers - 1 }
  | arm (o : Occupancy) (manifestId : String) (hrecovered : o.recovered = false)
      (hlease : o.lease = none) (hreservation : o.reservation = none) :
      Moves o (.arm manifestId) { o with lease := some ⟨manifestId, true, none⟩ }
  /-- A first attempt, alone on the fence; it consumes a reservation. -/
  | takeFree (o : Occupancy) (manifestId : String) (token : RepairAttemptToken)
      (hwriters : o.writers = 0) (hreaders : o.readers = 0) (hlease : o.lease = none) :
      Moves o (.take manifestId token)
        { o with lease := some ⟨manifestId, false, some token⟩, reservation := none }
  /-- A further attempt on a lease that is held and idle. -/
  | takeHeld (o : Occupancy) (lease : RepairLease) (token : RepairAttemptToken)
      (hreaders : o.readers = 0) (hlease : o.lease = some lease)
      (hidle : lease.activeAttempt = none) :
      Moves o (.take lease.manifestId token)
        { o with lease := some { lease with activeAttempt := some token } }
  | settle (o : Occupancy) (lease : RepairLease) (token : RepairAttemptToken)
      (hlease : o.lease = some lease) (hactive : lease.activeAttempt = some token) :
      Moves o (.settle lease.manifestId token)
        { o with lease := some { lease with durable := true, activeAttempt := none } }
  | free (o : Occupancy) (lease : RepairLease) (token : RepairAttemptToken)
      (hlease : o.lease = some lease) (hactive : lease.activeAttempt = some token) :
      Moves o (.free lease.manifestId token) { o with lease := none }
  | handOver (o : Occupancy) (lease : RepairLease) (token : RepairAttemptToken)
      (reserved : ReservedRepair)
      (hlease : o.lease = some lease) (hactive : lease.activeAttempt = some token) :
      Moves o (.handOver lease.manifestId token)
        { o with lease := none, reservation := some reserved }

def Move.owner : Move → Option (String × RepairAttemptToken)
  | .settle manifestId token => some (manifestId, token)
  | .free manifestId token => some (manifestId, token)
  | .handOver manifestId token => some (manifestId, token)
  | _ => none

structure Exclusive (o : Occupancy) : Prop where
  sealed : o.recovered = false → o.writers = 0 ∧ o.readers = 0
  writers_alone : 0 < o.writers → o.lease = none ∧ o.reservation = none ∧ o.readers = 0
  attempt_alone : o.attempt.isSome → o.writers = 0 ∧ o.readers = 0
  reserved_alone : o.reservation.isSome → o.lease = none ∧ o.writers = 0 ∧ o.readers = 0

variable {manifestId : String}

namespace Moves

variable {o p : Occupancy} {move : Move} {moves : List Move}

theorem owner_is_current (h : Moves o move p) {key : String × RepairAttemptToken}
    (howner : move.owner = some key) : o.attempt = some key := by
  cases h <;> simp [Move.owner] at howner <;>
    subst howner <;> simp_all [Occupancy.attempt, leaseAttempt]

theorem writers_zero_of_lease (hex : Exclusive o)
    (hlease : o.lease = some lease) : o.writers = 0 := by
  by_contra hne
  have halone := (hex.writers_alone (Nat.pos_of_ne_zero hne)).1
  simp [hlease] at halone

theorem reservation_none_of_lease (hex : Exclusive o)
    (hlease : o.lease = some lease) : o.reservation = none := by
  rw [← Option.not_isSome_iff_eq_none]
  intro hsome
  have halone := (hex.reserved_alone hsome).1
  simp [hlease] at halone

theorem preserves_exclusive (h : Moves o move p) (hex : Exclusive o) : Exclusive p := by
  cases h with
  | recover =>
    exact ⟨by simp, hex.writers_alone, hex.attempt_alone, hex.reserved_alone⟩
  | expire =>
    refine ⟨hex.sealed, fun hpos => ?_, hex.attempt_alone, by simp⟩
    exact ⟨(hex.writers_alone hpos).1, rfl, (hex.writers_alone hpos).2.2⟩
  | writerIn hrecovered hreaders hlease hreservation =>
    refine ⟨by simp [hrecovered], fun _ => ⟨hlease, hreservation, hreaders⟩, ?_, ?_⟩
    · simp [Occupancy.attempt, hlease]
    · simp [hreservation]
  | writerOut =>
    refine ⟨fun hseal => ?_, fun hpos => ?_, fun hat => ?_, fun hres => ?_⟩
    · exact ⟨by simp [(hex.sealed hseal).1], (hex.sealed hseal).2⟩
    · exact hex.writers_alone (Nat.lt_of_lt_of_le hpos (Nat.sub_le _ _))
    · exact ⟨by simp [(hex.attempt_alone hat).1], (hex.attempt_alone hat).2⟩
    · obtain ⟨hlease, hwriters, hreaders⟩ := hex.reserved_alone hres
      exact ⟨hlease, by simp [hwriters], hreaders⟩
  | readerIn hrecovered hwriters hattempt hreservation =>
    refine ⟨by simp [hrecovered], fun hpos => ?_, fun hat => ?_, ?_⟩
    · exact absurd hwriters (Nat.ne_of_gt hpos)
    · simp only [Occupancy.attempt] at hat hattempt
      simp [hattempt] at hat
    · simp [hreservation]
  | readerOut =>
    refine ⟨fun hseal => ?_, fun hpos => ?_, fun hat => ?_, fun hres => ?_⟩
    · exact ⟨(hex.sealed hseal).1, by simp [(hex.sealed hseal).2]⟩
    · obtain ⟨hlease, hreservation, hreaders⟩ := hex.writers_alone hpos
      exact ⟨hlease, hreservation, by simp [hreaders]⟩
    · exact ⟨(hex.attempt_alone hat).1, by simp [(hex.attempt_alone hat).2]⟩
    · obtain ⟨hlease, hwriters, hreaders⟩ := hex.reserved_alone hres
      exact ⟨hlease, hwriters, by simp [hreaders]⟩
  | arm manifestId hrecovered hlease hreservation =>
    refine ⟨hex.sealed, fun hpos => ?_, ?_, by simp [hreservation]⟩
    · exact absurd (hex.sealed hrecovered).1 (Nat.ne_of_gt hpos)
    · simp [Occupancy.attempt]
  | takeFree manifestId token hwriters hreaders hlease =>
    refine ⟨hex.sealed, fun hpos => ?_, fun _ => ⟨hwriters, hreaders⟩, by simp⟩
    exact absurd hwriters (Nat.ne_of_gt hpos)
  | takeHeld lease token hreaders hlease hidle =>
    have hwriters := writers_zero_of_lease hex hlease
    refine ⟨hex.sealed, fun hpos => ?_, fun _ => ⟨hwriters, hreaders⟩, ?_⟩
    · exact absurd hwriters (Nat.ne_of_gt hpos)
    · simp [reservation_none_of_lease hex hlease]
  | settle lease token hlease hactive =>
    have hwriters := writers_zero_of_lease hex hlease
    refine ⟨hex.sealed, fun hpos => ?_, by simp [Occupancy.attempt], ?_⟩
    · exact absurd hwriters (Nat.ne_of_gt hpos)
    · simp [reservation_none_of_lease hex hlease]
  | free lease token hlease hactive =>
    have hwriters := writers_zero_of_lease hex hlease
    refine ⟨hex.sealed, fun hpos => ?_, by simp [Occupancy.attempt], ?_⟩
    · exact absurd hwriters (Nat.ne_of_gt hpos)
    · simp [reservation_none_of_lease hex hlease]
  | handOver lease token reserved hlease hactive =>
    have halone := hex.attempt_alone
      (by simp [Occupancy.attempt, hlease, leaseAttempt_of_active hactive])
    refine ⟨hex.sealed, fun hpos => ?_, by simp [Occupancy.attempt], fun _ => ⟨rfl, halone⟩⟩
    exact absurd halone.1 (Nat.ne_of_gt hpos)

theorem arm_attempt_none (h : Moves o (.arm manifestId) p) : o.attempt = none := by
  cases h with
  | arm _ _ hlease => simp [Occupancy.attempt, hlease]

theorem arm_attempt_eq (h : Moves o (.arm manifestId) p) : o.attempt = p.attempt := by
  rw [h.arm_attempt_none]
  cases h with
  | arm => rfl

theorem frame (h : Moves o move p) (hex : Exclusive o) (howner : move.owner = none)
    (hattempt : o.attempt.isSome) : p.lease = o.lease ∧ p.reservation = o.reservation := by
  have hlease : ∃ lease, o.lease = some lease ∧ lease.activeAttempt.isSome := by
    cases hl : o.lease with
    | none => simp [Occupancy.attempt, hl] at hattempt
    | some lease =>
      refine ⟨lease, rfl, ?_⟩
      simpa [Occupancy.attempt, hl, leaseAttempt] using hattempt
  obtain ⟨lease, hsome, hactive⟩ := hlease
  have hreservation := reservation_none_of_lease hex hsome
  cases h with
  | recover | writerIn | writerOut | readerIn | readerOut => exact ⟨rfl, rfl⟩
  | expire hreserved => simp [hreservation] at hreserved
  | arm _ _ hnone | takeFree _ _ _ _ hnone => simp [hsome] at hnone
  | takeHeld held _ _ hheld hidle =>
    rw [hsome, Option.some.injEq] at hheld
    rw [hheld, hidle] at hactive
    simp at hactive
  | settle | free | handOver => simp [Move.owner] at howner

theorem run_frame (h : Run Moves o moves p) (hex : Exclusive o)
    (howner : ∀ move ∈ moves, move.owner = none) (hattempt : o.attempt.isSome) :
    p.lease = o.lease ∧ p.reservation = o.reservation := by
  induction h with
  | refl => exact ⟨rfl, rfl⟩
  | cons hone _ ih =>
    obtain ⟨hlease, hreservation⟩ :=
      hone.frame hex (howner _ List.mem_cons_self) hattempt
    have hrest := ih (hone.preserves_exclusive hex)
      (fun move hmove => howner move (List.mem_cons_of_mem _ hmove))
      (by rwa [Occupancy.attempt, hlease])
    exact ⟨hrest.1.trans hlease, hrest.2.trans hreservation⟩

end Moves

/-! ## Critical sections as runs of moves -/

def occupancy (state : CoordinatorState) : Occupancy where
  recovered := state.recoveryComplete
  writers := state.activeBackground
  readers := state.activeAnalysis
  lease := state.repairLease
  reservation := state.reservedRepair

section Helpers

open Coordinator.CoordinatorState

variable (state : CoordinatorState)

@[simp] theorem occupancy_issueRepairAttempt :
    occupancy state.issueRepairAttempt.1 = occupancy state := rfl

@[simp] theorem occupancy_issuePendingRepair :
    occupancy state.issuePendingRepair.1 = occupancy state := rfl

@[simp] theorem occupancy_issueReservation :
    occupancy state.issueReservation.1 = occupancy state := rfl

@[simp] theorem occupancy_recordExpiredRepair (request : ApplyRepairRequest) :
    occupancy (state.recordExpiredRepair request) = occupancy state := by
  unfold recordExpiredRepair
  split <;> rfl

@[simp] theorem occupancy_removePendingOwner (manifestId : String) (owner : PendingRepairToken) :
    occupancy (state.removePendingOwner manifestId owner).1 = occupancy state := by
  unfold removePendingOwner
  split
  · rfl
  · split <;> rfl

@[simp] theorem occupancy_withdrawRegistration (manifestId : String)
    (registration : Option PendingRepairToken) :
    occupancy (state.withdrawRegistration manifestId registration) = occupancy state := by
  cases registration with
  | none => rfl
  | some owner => exact occupancy_removePendingOwner state manifestId owner

@[simp] theorem occupancy_pendingOwner (registration : Option PendingRepairToken) :
    occupancy (state.pendingOwner registration).1 = occupancy state := by
  cases registration <;> rfl

@[simp] theorem occupancy_clearPendingManifest (manifestId : String) :
    occupancy (state.clearPendingManifest manifestId) = occupancy state := by
  unfold clearPendingManifest
  split <;> rfl

@[simp] theorem occupancy_registerPending (manifestId : String) (owner : PendingRepairToken) :
    occupancy (state.registerPending manifestId owner) = occupancy state := by
  unfold registerPending
  split <;> rfl

theorem occupancy_withLease (lease : Option RepairLease) :
    occupancy { state with repairLease := lease } = { occupancy state with lease } := rfl

end Helpers

/-- The moves that neither start, end nor arm a lease. -/
def Move.quiet : Move → Bool
  | .recover | .expire | .writerIn | .writerOut | .readerIn | .readerOut => true
  | _ => false

/-- A section that leaves the lease to whoever has it. -/
def Quiet (o p : Occupancy) : Prop :=
  ∃ moves, Run Moves o moves p ∧ ∀ move ∈ moves, move.quiet = true

def Takes (o : Occupancy) (manifestId : String) (token : RepairAttemptToken)
    (p : Occupancy) : Prop :=
  ∃ mid, Quiet o mid ∧ Moves mid (.take manifestId token) p

def ActsFor (o : Occupancy) (key : String × RepairAttemptToken) (p : Occupancy) : Prop :=
  ∃ move, move.owner = some key ∧ Moves o move p

namespace Quiet

variable {o m p : Occupancy} {move : Move}

theorem refl (o : Occupancy) : Quiet o o :=
  ⟨[], .refl o, by simp⟩

theorem of_eq (h : p = o) : Quiet o p :=
  h ▸ refl o

theorem single (h : Moves o move p) (hquiet : move.quiet) : Quiet o p :=
  ⟨[move], .single h, by simpa using hquiet⟩

theorem trans (h : Quiet o m) (h' : Quiet m p) : Quiet o p := by
  obtain ⟨left, hleft, hquie⟩ := h
  obtain ⟨right, hright, hquietR⟩ := h'
  refine ⟨left ++ right, hleft.append hright, fun move hmove => ?_⟩
  rcases List.mem_append.mp hmove with hmem | hmem
  · exact hquie move hmem
  · exact hquietR move hmem

theorem owner_none (hquiet : move.quiet) : move.owner = none := by
  cases move <;> first | rfl | cases hquiet

theorem of_move (h : Moves o move p) (hquiet : move.quiet) :
    p.lease = o.lease ∧ (p.reservation = o.reservation ∨ p.reservation = none) := by
  cases h <;> simp_all [Move.quiet]

theorem lease_eq (h : Quiet o p) : p.lease = o.lease := by
  obtain ⟨moves, hrun, hquiet⟩ := h
  induction hrun with
  | refl => rfl
  | cons hone _ ih =>
    rw [ih fun move hmove => hquiet move (List.mem_cons_of_mem _ hmove)]
    exact (of_move hone (hquiet _ List.mem_cons_self)).1

theorem reservation_eq (h : Quiet o p) : p.reservation = o.reservation ∨ p.reservation = none := by
  obtain ⟨moves, hrun, hquiet⟩ := h
  induction hrun with
  | refl => exact .inl rfl
  | cons hone _ ih =>
    have hrest := ih fun move hmove => hquiet move (List.mem_cons_of_mem _ hmove)
    rcases hrest with hsame | hnone
    · rw [hsame]
      exact (of_move hone (hquiet _ List.mem_cons_self)).2
    · exact .inr hnone

theorem attempt_eq (h : Quiet o p) : p.attempt = o.attempt := by
  rw [Occupancy.attempt, Occupancy.attempt, h.lease_eq]

theorem exclusive (h : Quiet o p) (hex : Exclusive o) : Exclusive p := by
  obtain ⟨moves, hrun, _⟩ := h
  exact hrun.invariant (fun _ _ _ hinv hone => hone.preserves_exclusive hinv) hex

theorem frame (h : Quiet o p) (hex : Exclusive o) (hattempt : o.attempt.isSome) :
    p.lease = o.lease ∧ p.reservation = o.reservation := by
  obtain ⟨moves, hrun, hquiet⟩ := h
  exact Moves.run_frame hrun hex (fun move hmove => owner_none (hquiet move hmove)) hattempt

end Quiet

section

variable {o p : Occupancy} {token : RepairAttemptToken} (h : Takes o manifestId token p)
include h

theorem Takes.attempt_eq : o.attempt = none ∧ p.attempt = some (manifestId, token) := by
  obtain ⟨mid, hquiet, htake⟩ := h
  rw [← hquiet.attempt_eq]
  cases htake with
  | takeFree _ _ _ _ hlease => simp [Occupancy.attempt, hlease]
  | takeHeld lease _ _ hlease hidle =>
    simp [Occupancy.attempt, hlease, leaseAttempt_of_idle hidle]

theorem Takes.exclusive (hex : Exclusive o) : Exclusive p := by
  obtain ⟨mid, hquiet, htake⟩ := h
  exact htake.preserves_exclusive (hquiet.exclusive hex)

end

section

variable {o p : Occupancy} {key : String × RepairAttemptToken} (h : ActsFor o key p)
include h

theorem ActsFor.attempt_eq : o.attempt = some key ∧ p.attempt = none := by
  obtain ⟨move, howner, hmove⟩ := h
  refine ⟨hmove.owner_is_current howner, ?_⟩
  cases hmove <;> simp_all [Move.owner, Occupancy.attempt]

theorem ActsFor.exclusive (hex : Exclusive o) : Exclusive p := by
  obtain ⟨move, _, hmove⟩ := h
  exact hmove.preserves_exclusive hex

end

section Sections

open Coordinator.CoordinatorState

variable (state : CoordinatorState)

theorem expireReservation_quiet (now : Nat) :
    Quiet (occupancy state) (occupancy (state.expireReservation now).1) := by
  unfold expireReservation
  cases hreserved : state.reservedRepair with
  | none => exact .refl _
  | some reserved =>
    by_cases hlater : now < reserved.expiresAt
    · simp only [if_pos hlater]
      exact .refl _
    · simp only [if_neg hlater, occupancy_recordExpiredRepair]
      exact .single (.expire (occupancy state) (by simp [occupancy, hreserved])) rfl

theorem expireReservedRepair_quiet (generation : UInt64) (now : Nat) :
    Quiet (occupancy state) (occupancy (state.expireReservedRepair generation now)) := by
  unfold expireReservedRepair
  cases hreserved : state.reservedRepair with
  | none => exact .refl _
  | some reserved =>
    by_cases hdue : reserved.generation = generation ∧ reserved.expiresAt ≤ now
    · simp only [if_pos hdue, occupancy_recordExpiredRepair]
      exact .single (.expire (occupancy state) (by simp [occupancy, hreserved])) rfl
    · simp only [if_neg hdue]
      exact .refl _

theorem finishRecovery_quiet : Quiet (occupancy state) (occupancy state.finishRecovery) :=
  .single (.recover (occupancy state)) rfl

theorem dropBackground_quiet : Quiet (occupancy state) (occupancy state.dropBackground) :=
  .single (.writerOut (occupancy state)) rfl

theorem dropAnalysis_quiet : Quiet (occupancy state) (occupancy state.dropAnalysis) :=
  .single (.readerOut (occupancy state)) rfl

theorem beginBackgroundPass_quiet (now : Nat) :
    Quiet (occupancy state) (occupancy (state.beginBackgroundPass now).1) := by
  refine (expireReservation_quiet state now).trans ?_
  simp only [beginBackgroundPass]
  generalize (state.expireReservation now).1 = expired
  split
  · next hadmit =>
      simp only [Bool.and_eq_true, beq_iff_eq, Option.isNone_iff_eq_none] at hadmit
      obtain ⟨⟨⟨⟨⟨hrecovered, hreaders⟩, _⟩, hlease⟩, hreservation⟩, _⟩ := hadmit
      exact .single (.writerIn (occupancy expired) hrecovered hreaders hlease hreservation) rfl
  · exact .refl _

theorem tryBeginBackground_eq (now : Nat) :
    state.tryBeginBackground now = state.beginBackgroundPass now := by
  simp only [tryBeginBackground, beginBackgroundPass]
  generalize (state.expireReservation now).1 = expired
  cases expired.recoveryComplete <;> cases expired.pendingRepair <;>
    cases expired.repairLease <;> cases expired.reservedRepair <;>
    cases expired.runtimeResumption <;> by_cases hreaders : expired.activeAnalysis = 0 <;>
    simp [hreaders]

theorem tryBeginBackground_quiet (now : Nat) :
    Quiet (occupancy state) (occupancy (state.tryBeginBackground now).1) := by
  rw [tryBeginBackground_eq]
  exact beginBackgroundPass_quiet state now

theorem attempt_none_of_allowsAnalysis (hallow : state.repairAllowsAnalysis) :
    (occupancy state).attempt = none := by
  cases hlease : state.repairLease with
  | none => simp [Occupancy.attempt, occupancy, hlease]
  | some lease =>
    simp only [repairAllowsAnalysis, hlease, Option.all_some, Bool.and_eq_true,
      Option.isNone_iff_eq_none] at hallow
    simp only [Occupancy.attempt, occupancy, hlease]
    exact leaseAttempt_of_idle hallow.2

theorem beginAnalysisPass_quiet (now : Nat) :
    Quiet (occupancy state) (occupancy (state.beginAnalysisPass now).1) := by
  refine (expireReservation_quiet state now).trans ?_
  simp only [beginAnalysisPass]
  generalize (state.expireReservation now).1 = expired
  split
  · next hadmit =>
      simp only [Bool.and_eq_true, beq_iff_eq, Option.isNone_iff_eq_none] at hadmit
      obtain ⟨⟨⟨⟨⟨hrecovered, hwriters⟩, _⟩, hallow⟩, hreservation⟩, _⟩ := hadmit
      exact .single (.readerIn (occupancy expired) hrecovered hwriters
        (attempt_none_of_allowsAnalysis expired hallow) hreservation) rfl
  · exact .refl _

/-- What a pass of `acquire_repair_inner` does, by the way it ends. -/
def PassEffect (o p : Occupancy) : AcquirePass → Prop
  | .granted guard _ =>
    ∃ token, guard.attemptToken = some token ∧ Takes o guard.manifestId token p
  | .refused _ _ | .waiting _ => Quiet o p

theorem acquireReserved_effect (reserved : ReservedRepair) (manifestId : String)
    (approvedRequest : Option ApplyRepairRequest) (registration : Option PendingRepairToken) :
    PassEffect (occupancy state)
      (occupancy (state.acquireReserved reserved manifestId approvedRequest registration).1)
      (state.acquireReserved reserved manifestId approvedRequest registration).2 := by
  unfold acquireReserved
  split
  · exact .refl _
  · split
    · exact .refl _
    · next hfree =>
        simp only [Bool.or_eq_true, not_or, bne_iff_ne, ne_eq, not_not,
          Bool.not_eq_true, Option.isSome_eq_false_iff, Option.isNone_iff_eq_none] at hfree
        obtain ⟨⟨hwriters, hreaders⟩, hlease⟩ := hfree
        exact ⟨_, rfl, _, .refl _,
          .takeFree (occupancy state) manifestId _ hwriters hreaders hlease⟩

theorem acquireLeased_effect (hlease : state.repairLease = some lease)
    (manifestId : String) (registration : Option PendingRepairToken) : PassEffect (occupancy state)
      (occupancy (state.acquireLeased lease manifestId registration).1)
      (state.acquireLeased lease manifestId registration).2 := by
  unfold acquireLeased
  split
  · exact .refl _
  · next hsame =>
      split
      · exact .refl _
      · next hidle =>
          simp only [Bool.or_eq_true, not_or, bne_iff_ne, ne_eq, not_not,
            Bool.not_eq_true, Option.isSome_eq_false_iff, Option.isNone_iff_eq_none] at hidle hsame
          obtain ⟨⟨hreaders, _⟩, hattempt⟩ := hidle
          subst hsame
          refine ⟨_, rfl, _, .refl _, ?_⟩
          simp only [occupancy_withdrawRegistration]
          exact .takeHeld (occupancy state) lease _ hreaders hlease hattempt

theorem acquirePending_effect (hlease : state.repairLease = none)
    (hreserved : state.reservedRepair = none) (manifestId : String)
    (registration : Option PendingRepairToken) :
    PassEffect (occupancy state) (occupancy (state.acquirePending manifestId registration).1)
      (state.acquirePending manifestId registration).2 := by
  unfold acquirePending
  split
  · exact .refl _
  · simp only []
    generalize hissued : state.pendingOwner registration = issued
    have hreg : occupancy (issued.1.registerPending manifestId issued.2) =
        occupancy state := by
      rw [occupancy_registerPending, ← hissued, occupancy_pendingOwner]
    generalize issued.1.registerPending manifestId issued.2 = registered at hreg ⊢
    split
    · next hempty =>
        simp only [Bool.and_eq_true, beq_iff_eq] at hempty
        have hrem : occupancy (registered.issueRepairAttempt.1.removePendingOwner
            manifestId issued.2).1 = occupancy registered := by
          rw [occupancy_removePendingOwner, occupancy_issueRepairAttempt]
        have hreservation : registered.reservedRepair = none :=
          (congrArg Occupancy.reservation hreg).trans hreserved
        have htake := Moves.takeFree (occupancy registered) manifestId
          registered.issueRepairAttempt.2 hempty.1 hempty.2
          ((congrArg Occupancy.lease hreg).trans hlease)
        refine ⟨_, rfl, _, .of_eq hreg, ?_⟩
        generalize (registered.issueRepairAttempt.1.removePendingOwner manifestId issued.2).1 =
          removed at hrem ⊢
        simp only [occupancy_withLease, hrem]
        convert htake using 2
        exact hreservation
    · exact .of_eq hreg

theorem acquireRepairPass_effect (manifestId : String) (approvedRequest : Option ApplyRepairRequest)
    (registration : Option PendingRepairToken) (now : Nat) : PassEffect (occupancy state)
      (occupancy (state.acquireRepairPass manifestId approvedRequest registration now).1)
      (state.acquireRepairPass manifestId approvedRequest registration now).2 := by
  have hexp := expireReservation_quiet state now
  simp only [acquireRepairPass]
  generalize (state.expireReservation now).1 = expired at hexp ⊢
  have hinit : ∀ p answer, PassEffect (occupancy expired) p answer →
      PassEffect (occupancy state) p answer := by
    intro p answer heffect
    cases answer with
    | refused | waiting => exact hexp.trans heffect
    | granted =>
      obtain ⟨token, htoken, mid, hquiet, htake⟩ := heffect
      exact ⟨token, htoken, mid, hexp.trans hquiet, htake⟩
  apply hinit
  split
  · exact .refl _
  · split
    · exact acquireReserved_effect expired ..
    · next hreserved =>
        split
        · next lease hlease => exact acquireLeased_effect expired hlease ..
        · next hlease => exact acquirePending_effect expired hlease hreserved ..

/-- What a call that takes the fence without waiting does. -/
def TakeEffect (o p : Occupancy) : Except MaintenanceFenceError RepairFenceGuard → Prop
  | .ok guard => ∃ token, guard.attemptToken = some token ∧ Takes o guard.manifestId token p
  | .error _ => p = o

theorem acquireRepairVerification_effect (manifestId : String) : TakeEffect (occupancy state)
      (occupancy (state.acquireRepairVerification manifestId).1)
      (state.acquireRepairVerification manifestId).2 := by
  unfold acquireRepairVerification
  split
  · rfl
  · cases hlease : state.repairLease with
    | none => rfl
    | some lease =>
      simp only []
      split
      · rfl
      · next hsame =>
          split
          · rfl
          · next hidle =>
              simp only [Bool.or_eq_true, not_or, bne_iff_ne, ne_eq, not_not,
                Bool.not_eq_true, Option.isSome_eq_false_iff,
                Option.isNone_iff_eq_none] at hidle hsame
              obtain ⟨⟨hreaders, _⟩, hattempt⟩ := hidle
              subst hsame
              exact ⟨_, rfl, _, .refl _,
                .takeHeld (occupancy state) lease _ hreaders hlease hattempt⟩

theorem matchesHandoff_quiet (predecessorManifestId : String)
    (nextApply : ApplyRepairRequest) (now : Nat) : Quiet (occupancy state)
      (occupancy (state.matchesHandoff predecessorManifestId nextApply now).1) :=
  expireReservation_quiet state now

theorem rearmApprovedRepair_effect (request : ApplyRepairRequest) :
    Quiet (occupancy state) (occupancy (state.rearmApprovedRepair request).1) ∨
      Moves (occupancy state) (.arm request.manifestId)
        (occupancy (state.rearmApprovedRepair request).1) := by
  unfold rearmApprovedRepair
  split
  · exact .inl (.refl _)
  · next hrecovery =>
      split
      · exact .inl (.refl _)
      · split
        · exact .inl (.refl _)
        · next hidle =>
            simp only [Bool.or_eq_true, not_or, Bool.not_eq_true, Option.isSome_eq_false_iff,
              Option.isNone_iff_eq_none] at hidle hrecovery
            split
            · exact .inl (.refl _)
            · cases hlease : state.repairLease with
              | none => exact .inr (.arm (occupancy state) _ hrecovery hlease hidle.2)
              | some lease =>
                simp only []
                split
                · exact .inl (.refl _)
                · exact .inl (.of_eq (by simp only [occupancy, hlease]))

theorem beginRuntimeResumption_quiet (request : ApplyRepairRequest) :
    Quiet (occupancy state) (occupancy (state.beginRuntimeResumption request).1) := by
  apply Quiet.of_eq
  unfold beginRuntimeResumption
  split_ifs <;> rfl

/-! ## What a guard does -/

theorem leaseOwnedBy_iff {token : RepairAttemptToken} : leaseOwnedBy lease manifestId token ↔
      lease.manifestId = manifestId ∧ lease.activeAttempt = some token := by
  simp [leaseOwnedBy]

/-- A method of a guard either acts for the attempt of that guard, or fails and
leaves lease and reservation alone. -/
def GuardEffect {α : Type} (guard : RepairFenceGuard) (o p : Occupancy) :
    Except MaintenanceFenceError α → Prop
  | .ok _ => ∃ token, guard.attemptToken = some token ∧ ActsFor o (guard.manifestId, token) p
  | .error _ => p = o

theorem retainUntilVerification_effect (guard : RepairFenceGuard) :
    GuardEffect guard (occupancy state)
      (occupancy (state.retainUntilVerification guard).1)
      (state.retainUntilVerification guard).2 := by
  unfold retainUntilVerification
  cases htoken : guard.attemptToken with
  | none => rfl
  | some token =>
    cases hlease : state.repairLease with
    | none => rfl
    | some lease =>
      by_cases howned : leaseOwnedBy lease guard.manifestId token
      · simp only [if_pos howned, occupancy_clearPendingManifest, occupancy_withLease]
        obtain ⟨hsame, hactive⟩ := leaseOwnedBy_iff.mp howned
        refine ⟨token, htoken, ?_⟩
        rw [← hsame]
        exact ⟨_, rfl, .settle (occupancy state) lease token hlease hactive⟩
      · simp only [if_neg howned]
        rfl

theorem releaseAfterPrecommitFailure_effect (guard : RepairFenceGuard) :
    GuardEffect guard (occupancy state)
      (occupancy (state.releaseAfterPrecommitFailure guard).1)
      (state.releaseAfterPrecommitFailure guard).2 := by
  unfold releaseAfterPrecommitFailure
  cases htoken : guard.attemptToken with
  | none => rfl
  | some token =>
    cases hlease : state.repairLease with
    | none => rfl
    | some lease =>
      by_cases howned : leaseOwnedBy lease guard.manifestId token
      · obtain ⟨hsame, hactive⟩ := leaseOwnedBy_iff.mp howned
        by_cases hclaim : state.startupClaimFor guard.manifestId
        · simp only [if_pos howned, if_pos hclaim, occupancy_withLease]
          refine ⟨token, htoken, ?_⟩
          rw [← hsame]
          exact ⟨_, rfl, .settle (occupancy state) lease token hlease hactive⟩
        · simp only [if_pos howned, if_neg hclaim, occupancy_clearPendingManifest,
            occupancy_withLease]
          refine ⟨token, htoken, ?_⟩
          rw [← hsame]
          exact ⟨_, rfl, .free (occupancy state) lease token hlease hactive⟩
      · simp only [if_neg howned]
        rfl

theorem releaseAfterVerification_effect (guard : RepairFenceGuard) :
    GuardEffect guard (occupancy state)
      (occupancy (state.releaseAfterVerification guard).1)
      (state.releaseAfterVerification guard).2 := by
  unfold releaseAfterVerification
  cases htoken : guard.attemptToken with
  | none => rfl
  | some token =>
    cases hlease : state.repairLease with
    | none => rfl
    | some lease =>
      by_cases howned : (lease.durable && leaseOwnedBy lease guard.manifestId token)
      · simp only [if_pos howned]
        rw [Bool.and_eq_true, leaseOwnedBy_iff] at howned
        obtain ⟨_, hsame, hactive⟩ := howned
        have hrel : occupancy (({ state with repairLease := none } :
            CoordinatorState).clearPendingManifest guard.manifestId) =
            { occupancy state with lease := none } := by
          rw [occupancy_clearPendingManifest, occupancy_withLease]
        have hfree := Moves.free (occupancy state) lease token hlease hactive
        rw [hsame, ← hrel] at hfree
        refine ⟨token, htoken, .free guard.manifestId token, rfl, ?_⟩
        split
        all_goals exact hfree
      · simp only [if_neg howned]
        split <;> rfl

theorem handOver_eq {released : CoordinatorState} {reserved : ReservedRepair}
    (hrel : occupancy released = { occupancy state with lease := none }) :
    ({ occupancy state with lease := none, reservation := some reserved } : Occupancy) =
      occupancy { released with reservedRepair := some reserved } := by
  have h := congrArg (fun o => ({ o with reservation := some reserved } : Occupancy)) hrel
  exact h.symm

theorem handoffAfterVerification_effect (guard : RepairFenceGuard)
    (nextApply : ApplyRepairRequest) (ttl startedAt : Nat) : GuardEffect guard (occupancy state)
      (occupancy (state.handoffAfterVerification guard nextApply ttl startedAt).1)
      (state.handoffAfterVerification guard nextApply ttl startedAt).2 := by
  unfold handoffAfterVerification
  split
  · rfl
  · cases htoken : guard.attemptToken with
    | none => rfl
    | some token =>
      cases hlease : state.repairLease with
      | none => rfl
      | some lease =>
        by_cases howned :
            (lease.durable && leaseOwnedBy lease guard.manifestId token)
        · simp only [if_pos howned]
          rw [Bool.and_eq_true, leaseOwnedBy_iff] at howned
          obtain ⟨_, hsame, hactive⟩ := howned
          split
          · rfl
          · have hrel : occupancy (({ state.issueReservation.1 with
                  repairLease := none } : CoordinatorState).clearPendingManifest
                  guard.manifestId) = { occupancy state with lease := none } := by
              rw [occupancy_clearPendingManifest, occupancy_withLease, occupancy_issueReservation]
            have hmove := Moves.handOver (occupancy state) lease token
              ⟨guard.manifestId, nextApply, startedAt + ttl, state.issueReservation.2⟩
              hlease hactive
            rw [hsame, handOver_eq state hrel] at hmove
            refine ⟨token, htoken, .handOver guard.manifestId token, rfl, ?_⟩
            split
            all_goals exact hmove
        · simp only [if_neg howned]
          split <;> rfl

theorem dropRepair_current {guard : RepairFenceGuard} {token : RepairAttemptToken}
    (htoken : guard.attemptToken = some token)
    (hcur : (occupancy state).attempt = some (guard.manifestId, token)) :
    ActsFor (occupancy state) (guard.manifestId, token)
      (occupancy (state.dropRepair guard)) := by
  unfold dropRepair
  cases hlease : state.repairLease with
  | none => simp [Occupancy.attempt, occupancy, hlease] at hcur
  | some lease =>
    have howned : leaseOwnedBy lease guard.manifestId token := by
      rw [leaseOwnedBy_iff]
      simpa [Occupancy.attempt, occupancy, hlease, leaseAttempt, and_comm] using hcur
    simp only [htoken, if_pos howned]
    obtain ⟨hsame, hactive⟩ := leaseOwnedBy_iff.mp howned
    rw [← hsame]
    split
    · exact ⟨_, rfl, .settle (occupancy state) lease token hlease hactive⟩
    · exact ⟨_, rfl, .free (occupancy state) lease token hlease hactive⟩

theorem dropRepair_stale {guard : RepairFenceGuard}
    (hstale : ∀ token, guard.attemptToken = some token →
      (occupancy state).attempt ≠ some (guard.manifestId, token)) :
    state.dropRepair guard = state := by
  unfold dropRepair
  cases htoken : guard.attemptToken with
  | none => rfl
  | some token =>
    cases hlease : state.repairLease with
    | none => rfl
    | some lease =>
      have howned : ¬leaseOwnedBy lease guard.manifestId token := by
        rw [leaseOwnedBy_iff]
        rintro ⟨hsame, hactive⟩
        apply hstale token htoken
        simp [Occupancy.attempt, occupancy, hlease, leaseAttempt, hsame, hactive]
      simp only [if_neg howned]

end Sections

end Wenlan.Maintenance
