import Wenlan.Maintenance.Exclusion

/-!
# Leases without a guard

A lease that no live guard stands behind is durable: it is there until a further attempt, and was
meant to be.  Any other lease goes with its guard.
-/

namespace Wenlan.Maintenance.Exclusion

open Coordinator CoordinatorState Support.Transition

variable {c : Coordination} {o p : Occupancy} {move : Move} {lease : RepairLease}

/-- The lease, if there is one, is durable or has an attempt in progress. -/
def Backed (o : Occupancy) : Prop :=
  ∀ lease ∈ o.lease, lease.durable = true ∨ lease.activeAttempt.isSome

theorem Backed.after (hback : Backed o) (h : Moves o move p) : Backed p := by
  cases h with
  | recover | expire | writerIn | writerOut | readerIn | readerOut => exact hback
  | arm | settle =>
    rintro _ ⟨⟩
    exact .inl rfl
  | takeFree | takeHeld =>
    rintro _ ⟨⟩
    exact .inr rfl
  | free | handOver => exact fun _ h => nomatch h

theorem Backed.quiet (hback : Backed o) (h : Quiet o p) : Backed p := by
  rw [Backed, h.lease_eq]
  exact hback

structure Owned (c : Coordination) : Prop extends Coordinated c where
  backed : Backed (occupancy c.state)

theorem owned_step (c : Coordination) (op : Op) (d : Coordination) (h : Owned c)
    (hstep : Step c op d) : Owned d := by
  refine ⟨coordinated_step c op d h.toCoordinated hstep, ?_⟩
  rcases step_effect h.toCoordinated hstep with ⟨hquiet, -⟩ | ⟨_, _, htakes, -⟩ |
    ⟨_, -, harms, -⟩ | ⟨_, _, -, -, hacts, -⟩
  · exact h.backed.quiet hquiet
  · obtain ⟨mid, hquiet, htake⟩ := htakes
    exact (h.backed.quiet hquiet).after htake
  · exact h.backed.after harms
  · obtain ⟨_, -, hmove⟩ := hacts
    exact h.backed.after hmove

theorem owned_of_reaches (h : Reaches Step .initial c) : Owned c :=
  h.invariant owned_step ⟨coordinated_initial, fun _ hnone => nomatch hnone⟩

/-- The attempt of a lease is that of a live guard. -/
theorem guard_of_attempt (hinv : Coordinated c) (hlease : c.state.repairLease = some lease)
    {token : RepairAttemptToken} (hactive : lease.activeAttempt = some token) :
    ∃ guard ∈ c.repairGuards,
      guard.manifestId = lease.manifestId ∧ guard.attemptToken = some token := by
  have hmem : (lease.manifestId, token) ∈ c.attemptTokens := by
    rw [hinv.holder]
    simp [Occupancy.attempt, occupancy, hlease, leaseAttempt_of_active hactive]
  obtain ⟨guard, hguard, hkey⟩ := List.mem_filterMap.mp hmem
  obtain ⟨_, htoken, heq⟩ := Option.map_eq_some_iff.mp hkey
  obtain ⟨hid, rfl⟩ := Prod.mk.inj heq
  exact ⟨guard, hguard, hid, htoken⟩

/-- In every reachable state a lease is durable or a live guard stands behind it, and when this
guard is dropped the lease is gone, or durable if the guard was told to retain it. -/
theorem lease_never_orphaned (h : Reaches Step .initial c)
    (hlease : c.state.repairLease = some lease) :
    lease.durable = true ∨ ∃ i guard, c.repairGuards[i]? = some guard ∧
      guard.manifestId = lease.manifestId ∧ guard.attemptToken = lease.activeAttempt ∧
      ∀ d, Step c (.dropRepair i) d → d.state.repairLease =
        if guard.retainOnDrop then some { lease with durable := true, activeAttempt := none }
        else none := by
  have howned := owned_of_reaches h
  rcases howned.backed lease hlease with hdurable | hsome
  · exact .inl hdurable
  · by_cases hdurable : lease.durable = true
    · exact .inl hdurable
    · obtain ⟨token, hactive⟩ := Option.isSome_iff_exists.mp hsome
      obtain ⟨guard, hguard, hid, htoken⟩ :=
        guard_of_attempt howned.toCoordinated hlease hactive
      obtain ⟨i, hi⟩ := List.getElem?_of_mem hguard
      refine .inr ⟨i, guard, hi, hid, htoken.trans hactive.symm, fun d hstep => ?_⟩
      simp only [Step, Coordination.step, hi, Option.map_some, Option.some.injEq] at hstep
      rw [← hstep]
      have hown : leaseOwnedBy lease guard.manifestId token :=
        leaseOwnedBy_iff.mpr ⟨hid.symm, hactive⟩
      simp only [dropRepair, htoken, hlease, if_pos hown, hdurable, Bool.false_or]
      split <;> rfl

/-- A repair that was just granted its lease holds it with a guard that frees it again. -/
theorem lease_never_orphaned_granted : ∃ (c : Coordination) (i : Nat), Reaches Step .initial c ∧
    c.state.repairLease = some ⟨"repair_a", false, some ⟨1⟩⟩ ∧
    ∃ guard : RepairFenceGuard,
      c.repairGuards[i]? = some guard ∧ guard.attemptToken = some ⟨1⟩ := by
  have hrun : ∃ c, Run Step .initial
      [.finishRecovery, .callAcquire "repair_a", .acquirePass 0] c ∧
      c.state.repairLease = some ⟨"repair_a", false, some ⟨1⟩⟩ :=
    ⟨_, .cons rfl (.cons rfl (.cons rfl (.refl _))), by decide⟩
  obtain ⟨c, hrun, hlease⟩ := hrun
  rcases lease_never_orphaned ⟨_, hrun⟩ hlease with hdurable | ⟨i, guard, hi, -, htoken, -⟩
  · cases hdurable
  · exact ⟨c, i, ⟨_, hrun⟩, hlease, guard, hi, htoken⟩

end Wenlan.Maintenance.Exclusion
