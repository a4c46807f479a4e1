import Wenlan.Maintenance.Occupancy

/-!
# Every interleaving of the coordinator

A `Coordination` is the shared state together with what the daemon's tasks hold
on to: live guards, calls of `acquire_repair_inner` between two passes,
registrations whose drop has not run yet, spawned expiry timers and the clock.
One `Op` is one critical section of one task, so a run is an interleaving.  A
waiting call may take a pass at any time, woken or not.
-/

namespace Wenlan.Maintenance.Exclusion

open Coordinator Support.Transition

/-- A call of `acquire_repair_inner` that is between two passes of its loop. -/
structure AcquireCall where
  manifestId : String
  approvedRequest : Option ApplyRepairRequest
  registration : Option PendingRepairToken

/-- An armed registration whose `Drop` is still to run. -/
structure Registration where
  manifestId : String
  owner : PendingRepairToken

structure Coordination where
  state : CoordinatorState
  now : Nat
  backgroundGuards : Nat
  analysisGuards : Nat
  repairGuards : List RepairFenceGuard
  resumptionGuards : Nat
  acquires : List AcquireCall
  registrations : List Registration
  expiryTimers : List UInt64

/-- `MaintenanceCoordinator::default` with nothing running. -/
def Coordination.initial : Coordination :=
  ⟨{}, 0, 0, 0, [], 0, [], [], []⟩

/-- One critical section; a number picks one of the live guards or calls. -/
inductive Op where
  | tick (elapsed : Nat)
  | finishRecovery
  | tryBeginBackground
  | beginBackground
  | beginAnalysis
  | dropBackground
  | dropAnalysis
  /-- `acquire_approved_repair` is called. -/
  | callAcquireApproved (request : ApplyRepairRequest)
  /-- `acquire_repair`, the unapproved variant, is called. -/
  | callAcquire (manifestId : String)
  | acquirePass (call : Nat)
  /-- The call runs into its deadline, or its future is dropped while it waits. -/
  | abandonAcquire (call : Nat)
  | dropRegistration (registration : Nat)
  | acquireVerification (manifestId : String)
  | matchesHandoff (predecessorManifestId : String) (nextApply : ApplyRepairRequest)
  | expiryTimer (timer : Nat)
  | rearmApproved (request : ApplyRepairRequest)
  | beginResumption (request : ApplyRepairRequest)
  | commitResumption
  | dropResumption
  | retainOnUncertainDrop (guard : Nat)
  | retainUntilVerification (guard : Nat)
  | releaseAfterPrecommitFailure (guard : Nat)
  | releaseAfterVerification (guard : Nat)
  | handoffAfterVerification (guard : Nat) (nextApply : ApplyRepairRequest)
      (ttl startedAt : Nat)
  | dropRepair (guard : Nat)

/-- The guard of `guards` that an operation is carried out through. -/
def Op.guard (guards : List RepairFenceGuard) : Op → Option RepairFenceGuard
  | .retainOnUncertainDrop i | .retainUntilVerification i
  | .releaseAfterPrecommitFailure i | .releaseAfterVerification i
  | .handoffAfterVerification i _ _ _ | .dropRepair i => guards[i]?
  | _ => none

namespace Coordination

/-- A method of the guard at `i` has answered.  It consumed the guard when it
succeeded; after an error the guard is left for its drop. -/
def answered {α : Type} (c : Coordination) (i : Nat)
    (result : CoordinatorState × Except MaintenanceFenceError α) : Coordination :=
  match result.2 with
  | .ok _ => { c with state := result.1, repairGuards := c.repairGuards.eraseIdx i }
  | .error _ => { c with state := result.1 }

def leaveRegistration (c : Coordination) (manifestId : String)
    (registration : Option PendingRepairToken) : Coordination :=
  { c with registrations := (registration.map (⟨manifestId, ·⟩)).toList ++ c.registrations }

/-- One pass of the call at `i`. -/
def passAcquire (c : Coordination) (i : Nat) (call : AcquireCall) : Coordination :=
  let result :=
    c.state.acquireRepairPass call.manifestId call.approvedRequest call.registration c.now
  match result.2 with
  | .refused _ registration =>
    { c with state := result.1, acquires := c.acquires.eraseIdx i }.leaveRegistration
      call.manifestId registration
  | .granted guard registration =>
    { c with
      state := result.1
      repairGuards := guard :: c.repairGuards
      acquires := c.acquires.eraseIdx i }.leaveRegistration call.manifestId registration
  | .waiting owner =>
    { c with
      state := result.1
      acquires := c.acquires.set i { call with registration := some owner } }

/-- The effect of one operation; `none` where no task can carry it out. -/
def step (c : Coordination) : Op → Option Coordination
  | .tick elapsed => some { c with now := c.now + elapsed }
  | .finishRecovery => some { c with state := c.state.finishRecovery }
  | .tryBeginBackground =>
    let (state, admitted) := c.state.tryBeginBackground c.now
    some { c with state, backgroundGuards := c.backgroundGuards + admitted.toNat }
  | .beginBackground =>
    let (state, admitted) := c.state.beginBackgroundPass c.now
    some { c with state, backgroundGuards := c.backgroundGuards + admitted.toNat }
  | .beginAnalysis =>
    let (state, admitted) := c.state.beginAnalysisPass c.now
    some { c with state, analysisGuards := c.analysisGuards + admitted.toNat }
  | .dropBackground =>
    if c.backgroundGuards = 0 then none
    else some { c with
      state := c.state.dropBackground, backgroundGuards := c.backgroundGuards - 1 }
  | .dropAnalysis =>
    if c.analysisGuards = 0 then none
    else some { c with
      state := c.state.dropAnalysis, analysisGuards := c.analysisGuards - 1 }
  | .callAcquireApproved request =>
    some { c with acquires := ⟨request.manifestId, some request, none⟩ :: c.acquires }
  | .callAcquire manifestId =>
    some { c with acquires := ⟨manifestId, none, none⟩ :: c.acquires }
  | .acquirePass i => c.acquires[i]?.map fun call => c.passAcquire i call
  | .abandonAcquire i => c.acquires[i]?.map fun call =>
    { c with acquires := c.acquires.eraseIdx i }.leaveRegistration
      call.manifestId call.registration
  | .dropRegistration i => c.registrations[i]?.map fun registration => { c with
      state := (c.state.removePendingOwner registration.manifestId registration.owner).1
      registrations := c.registrations.eraseIdx i }
  | .acquireVerification manifestId =>
    let (state, answer) := c.state.acquireRepairVerification manifestId
    match answer with
    | .ok guard => some { c with state, repairGuards := guard :: c.repairGuards }
    | .error _ => some { c with state }
  | .matchesHandoff predecessorManifestId nextApply => some { c with
      state := (c.state.matchesHandoff predecessorManifestId nextApply c.now).1 }
  | .expiryTimer i => c.expiryTimers[i]?.map fun generation => { c with
      state := c.state.expireReservedRepair generation c.now
      expiryTimers := c.expiryTimers.eraseIdx i }
  | .rearmApproved request => some { c with state := (c.state.rearmApprovedRepair request).1 }
  | .beginResumption request =>
    let (state, answer) := c.state.beginRuntimeResumption request
    some { c with state, resumptionGuards := c.resumptionGuards + answer.toBool.toNat }
  | .commitResumption =>
    if c.resumptionGuards = 0 then none
    else some { c with
      state := c.state.commitRuntimeResumption, resumptionGuards := c.resumptionGuards - 1 }
  | .dropResumption =>
    if c.resumptionGuards = 0 then none
    else some { c with
      state := c.state.dropRuntimeResumption, resumptionGuards := c.resumptionGuards - 1 }
  | .retainOnUncertainDrop i => c.repairGuards[i]?.map fun guard => { c with
      repairGuards := c.repairGuards.set i { guard with retainOnDrop := true } }
  | .retainUntilVerification i => c.repairGuards[i]?.map fun guard =>
    c.answered i (c.state.retainUntilVerification guard)
  | .releaseAfterPrecommitFailure i => c.repairGuards[i]?.map fun guard =>
    c.answered i (c.state.releaseAfterPrecommitFailure guard)
  | .releaseAfterVerification i => c.repairGuards[i]?.map fun guard =>
    c.answered i (c.state.releaseAfterVerification guard)
  | .handoffAfterVerification i nextApply ttl startedAt =>
    if c.now < startedAt then none
    else c.repairGuards[i]?.map fun guard =>
      let result := c.state.handoffAfterVerification guard nextApply ttl startedAt
      let timers := match result.2 with
        | .ok generation => generation :: c.expiryTimers
        | .error _ => c.expiryTimers
      { c with expiryTimers := timers }.answered i result
  | .dropRepair i => c.repairGuards[i]?.map fun guard => { c with
      state := c.state.dropRepair guard, repairGuards := c.repairGuards.eraseIdx i }

def attemptTokens (c : Coordination) : List (String × RepairAttemptToken) :=
  c.repairGuards.filterMap fun guard =>
    guard.attemptToken.map fun token => (guard.manifestId, token)

end Coordination

def Step (c : Coordination) (op : Op) (d : Coordination) : Prop :=
  c.step op = some d

def guardKey (guard : RepairFenceGuard) : Option (String × RepairAttemptToken) :=
  guard.attemptToken.map fun token => (guard.manifestId, token)

section Tokens

variable {guards : List RepairFenceGuard} {i : Nat} {guard : RepairFenceGuard}
  {key : String × RepairAttemptToken}

theorem tokens_cons_eraseIdx (hguard : guards[i]? = some guard) (hkey : guardKey guard = some key) :
    (key :: (guards.eraseIdx i).filterMap guardKey).Perm (guards.filterMap guardKey) := by
  obtain ⟨hlt, hget⟩ := List.getElem?_eq_some_iff.mp hguard
  have hperm := (List.getElem_cons_eraseIdx_perm hlt).filterMap guardKey
  rwa [hget, List.filterMap_cons_some hkey] at hperm

theorem tokens_of_holder {attempt : Option (String × RepairAttemptToken)}
    (hhold : guards.filterMap guardKey = attempt.toList)
    (hguard : guards[i]? = some guard) (hkey : guardKey guard = some key) :
    attempt = some key ∧ (guards.eraseIdx i).filterMap guardKey = [] := by
  have hperm := tokens_cons_eraseIdx hguard hkey
  rw [hhold] at hperm
  cases attempt with
  | none => simp at hperm
  | some current =>
    have hlen := hperm.length_eq
    simp only [List.length_cons, Option.toList_some, List.length_nil,
      Nat.add_eq_right, List.length_eq_zero_iff] at hlen
    rw [hlen] at hperm ⊢
    simpa [eq_comm] using hperm

theorem tokens_eraseIdx_of_none (hguard : guards[i]? = some guard) (hkey : guardKey guard = none) :
    (guards.eraseIdx i).filterMap guardKey = guards.filterMap guardKey := by
  induction guards generalizing i with
  | nil => simp at hguard
  | cons head tail ih =>
    cases i with
    | zero =>
      obtain rfl : head = guard := by simpa using hguard
      rw [List.eraseIdx_cons_zero, List.filterMap_cons_none hkey]
    | succ i =>
      rw [List.eraseIdx_cons_succ, List.filterMap_cons, List.filterMap_cons,
        ih (by simpa using hguard)]

theorem tokens_set_retain (hguard : guards[i]? = some guard) :
    (guards.set i { guard with retainOnDrop := true }).filterMap guardKey =
      guards.filterMap guardKey := by
  induction guards generalizing i with
  | nil => simp at hguard
  | cons head tail ih =>
    cases i with
    | zero =>
      obtain rfl : head = guard := by simpa using hguard
      rfl
    | succ i =>
      rw [List.set_cons_succ, List.filterMap_cons, List.filterMap_cons, ih (by simpa using hguard)]

end Tokens

/-! ## What one step does -/

/-- The invariant of every interleaving: the fence is exclusive, and the tokens
that guards hold are exactly the one of the attempt in progress. -/
structure Coordinated (c : Coordination) : Prop where
  exclusive : Exclusive (occupancy c.state)
  holder : c.attemptTokens = (occupancy c.state).attempt.toList

inductive StepEffect (c : Coordination) (op : Op) (d : Coordination) : Prop
  | quiet (hquiet : Quiet (occupancy c.state) (occupancy d.state))
      (htokens : d.attemptTokens = c.attemptTokens)
  | takes (manifestId : String) (token : RepairAttemptToken)
      (htakes : Takes (occupancy c.state) manifestId token (occupancy d.state))
      (htokens : d.attemptTokens = (manifestId, token) :: c.attemptTokens)
  | arms (request : ApplyRepairRequest) (hop : op = .rearmApproved request)
      (harms : Moves (occupancy c.state) (.arm request.manifestId) (occupancy d.state))
      (htokens : d.attemptTokens = c.attemptTokens)
  | actsFor (guard : RepairFenceGuard) (key : String × RepairAttemptToken)
      (hguard : op.guard c.repairGuards = some guard) (hkey : guardKey guard = some key)
      (hacts : ActsFor (occupancy c.state) key (occupancy d.state))
      (htokens : d.attemptTokens = [])

variable {op : Op}

section Effects

variable {c d : Coordination}

theorem answered_effect {α : Type} (hinv : Coordinated c) {i : Nat}
    {guard : RepairFenceGuard} (timers : List UInt64)
    (hop : op.guard c.repairGuards = c.repairGuards[i]?) (hguard : c.repairGuards[i]? = some guard)
    (result : CoordinatorState × Except MaintenanceFenceError α)
    (heff : GuardEffect guard (occupancy c.state) (occupancy result.1) result.2) :
    StepEffect c op ({ c with expiryTimers := timers }.answered i result) := by
  obtain ⟨state, answer⟩ := result
  cases answer with
  | error error => exact .quiet (.of_eq heff) rfl
  | ok value =>
    obtain ⟨token, htoken, hacts⟩ := heff
    have hkey : guardKey guard = some (guard.manifestId, token) := by
      simp [guardKey, htoken]
    exact .actsFor guard _ (hop.trans hguard) hkey hacts
      (tokens_of_holder hinv.holder hguard hkey).2

theorem passAcquire_effect (c : Coordination) (op : Op) (i : Nat) (call : AcquireCall) :
    StepEffect c op (c.passAcquire i call) := by
  have heff := acquireRepairPass_effect c.state call.manifestId call.approvedRequest
    call.registration c.now
  unfold Coordination.passAcquire
  generalize c.state.acquireRepairPass call.manifestId call.approvedRequest
    call.registration c.now = result at heff ⊢
  obtain ⟨state, answer⟩ := result
  cases answer with
  | refused error registration => exact .quiet heff rfl
  | waiting owner => exact .quiet heff rfl
  | granted guard registration =>
    obtain ⟨token, htoken, htakes⟩ := heff
    refine .takes guard.manifestId token htakes ?_
    have hkey : guardKey guard = some (guard.manifestId, token) := by
      simp [guardKey, htoken]
    exact List.filterMap_cons_some hkey

theorem dropRepair_step_effect (hinv : Coordinated c) {i : Nat} {guard : RepairFenceGuard}
    (hguard : c.repairGuards[i]? = some guard) : StepEffect c (.dropRepair i) { c with
      state := c.state.dropRepair guard, repairGuards := c.repairGuards.eraseIdx i } := by
  cases htoken : guard.attemptToken with
  | none =>
    have hsame : c.state.dropRepair guard = c.state :=
      dropRepair_stale c.state (by simp [htoken])
    refine .quiet (.of_eq (congrArg occupancy hsame)) ?_
    exact tokens_eraseIdx_of_none hguard (by simp [guardKey, htoken])
  | some token =>
    have hkey : guardKey guard = some (guard.manifestId, token) := by
      simp [guardKey, htoken]
    obtain ⟨hcur, hrest⟩ := tokens_of_holder hinv.holder hguard hkey
    exact .actsFor guard _ hguard hkey (dropRepair_current c.state htoken hcur) hrest

theorem step_effect (hinv : Coordinated c) (hstep : Step c op d) : StepEffect c op d := by
  unfold Step at hstep
  cases op with
  | tick | callAcquireApproved | callAcquire =>
    cases hstep
    exact .quiet (.refl _) rfl
  | finishRecovery =>
    cases hstep
    exact .quiet (finishRecovery_quiet c.state) rfl
  | tryBeginBackground =>
    cases hstep
    exact .quiet (tryBeginBackground_quiet c.state c.now) rfl
  | beginBackground =>
    cases hstep
    exact .quiet (beginBackgroundPass_quiet c.state c.now) rfl
  | beginAnalysis =>
    cases hstep
    exact .quiet (beginAnalysisPass_quiet c.state c.now) rfl
  | matchesHandoff predecessorManifestId nextApply =>
    cases hstep
    exact .quiet (matchesHandoff_quiet c.state predecessorManifestId nextApply c.now) rfl
  | rearmApproved request =>
    cases hstep
    rcases rearmApprovedRepair_effect c.state request with hquiet | harms
    · exact .quiet hquiet rfl
    · exact .arms request rfl harms rfl
  | beginResumption request =>
    cases hstep
    exact .quiet (beginRuntimeResumption_quiet c.state request) rfl
  | dropBackground =>
    simp only [Coordination.step, Option.ite_none_left_eq_some, Option.some.injEq] at hstep
    obtain ⟨_, rfl⟩ := hstep
    exact .quiet (dropBackground_quiet c.state) rfl
  | dropAnalysis =>
    simp only [Coordination.step, Option.ite_none_left_eq_some, Option.some.injEq] at hstep
    obtain ⟨_, rfl⟩ := hstep
    exact .quiet (dropAnalysis_quiet c.state) rfl
  | commitResumption | dropResumption =>
    simp only [Coordination.step, Option.ite_none_left_eq_some, Option.some.injEq] at hstep
    obtain ⟨_, rfl⟩ := hstep
    exact .quiet (.refl _) rfl
  | acquireVerification manifestId =>
    have heff := acquireRepairVerification_effect c.state manifestId
    simp only [Coordination.step] at hstep
    generalize c.state.acquireRepairVerification manifestId = result at heff hstep
    obtain ⟨state, answer⟩ := result
    cases answer with
    | error error =>
      cases hstep
      exact .quiet (.of_eq heff) rfl
    | ok guard =>
      cases hstep
      obtain ⟨token, htoken, htakes⟩ := heff
      exact .takes guard.manifestId token htakes
        (List.filterMap_cons_some (by simp [htoken]))
  | acquirePass i =>
    obtain ⟨call, _, rfl⟩ := Option.map_eq_some_iff.mp hstep
    exact passAcquire_effect c _ i call
  | abandonAcquire i =>
    obtain ⟨call, _, rfl⟩ := Option.map_eq_some_iff.mp hstep
    exact .quiet (.refl _) rfl
  | dropRegistration i =>
    obtain ⟨registration, _, rfl⟩ := Option.map_eq_some_iff.mp hstep
    exact .quiet (.of_eq (occupancy_removePendingOwner ..)) rfl
  | expiryTimer i =>
    obtain ⟨generation, _, rfl⟩ := Option.map_eq_some_iff.mp hstep
    exact .quiet (expireReservedRepair_quiet c.state generation c.now) rfl
  | retainOnUncertainDrop i =>
    obtain ⟨guard, hguard, rfl⟩ := Option.map_eq_some_iff.mp hstep
    exact .quiet (.refl _) (tokens_set_retain hguard)
  | retainUntilVerification i =>
    obtain ⟨guard, hguard, rfl⟩ := Option.map_eq_some_iff.mp hstep
    exact answered_effect hinv c.expiryTimers rfl hguard _
      (retainUntilVerification_effect c.state guard)
  | releaseAfterPrecommitFailure i =>
    obtain ⟨guard, hguard, rfl⟩ := Option.map_eq_some_iff.mp hstep
    exact answered_effect hinv c.expiryTimers rfl hguard _
      (releaseAfterPrecommitFailure_effect c.state guard)
  | releaseAfterVerification i =>
    obtain ⟨guard, hguard, rfl⟩ := Option.map_eq_some_iff.mp hstep
    exact answered_effect hinv c.expiryTimers rfl hguard _
      (releaseAfterVerification_effect c.state guard)
  | handoffAfterVerification i nextApply ttl startedAt =>
    simp only [Coordination.step, Option.ite_none_left_eq_some] at hstep
    obtain ⟨_, hstep⟩ := hstep
    obtain ⟨guard, hguard, rfl⟩ := Option.map_eq_some_iff.mp hstep
    exact answered_effect hinv _ rfl hguard _
      (handoffAfterVerification_effect c.state guard nextApply ttl startedAt)
  | dropRepair i =>
    obtain ⟨guard, hguard, rfl⟩ := Option.map_eq_some_iff.mp hstep
    exact dropRepair_step_effect hinv hguard

end Effects

/-! ## The invariant of every run -/

theorem coordinated_initial : Coordinated .initial := by
  refine ⟨⟨fun _ => ⟨rfl, rfl⟩, ?_, ?_, ?_⟩, rfl⟩
  · intro hpos
    exact absurd hpos (Nat.lt_irrefl 0)
  · exact fun _ => ⟨rfl, rfl⟩
  · exact fun _ => ⟨rfl, rfl, rfl⟩

theorem coordinated_step (c : Coordination) (op : Op) (d : Coordination)
    (hinv : Coordinated c) (hstep : Step c op d) : Coordinated d := by
  rcases step_effect hinv hstep with
    ⟨hquiet, htokens⟩ | ⟨manifestId, token, htakes, htokens⟩ |
    ⟨request, _, harms, htokens⟩ | ⟨guard, key, _, _, hacts, htokens⟩
  · exact ⟨hquiet.exclusive hinv.exclusive, by rw [htokens, hinv.holder, hquiet.attempt_eq]⟩
  · obtain ⟨hbef, hafter⟩ := htakes.attempt_eq
    refine ⟨htakes.exclusive hinv.exclusive, ?_⟩
    rw [htokens, hinv.holder, hbef, hafter]
    rfl
  · refine ⟨harms.preserves_exclusive hinv.exclusive, ?_⟩
    rw [htokens, hinv.holder]
    exact congrArg Option.toList harms.arm_attempt_eq
  · obtain ⟨_, hafter⟩ := hacts.attempt_eq
    exact ⟨hacts.exclusive hinv.exclusive, by rw [htokens, hafter]; rfl⟩

theorem coordinated_of_reaches {c : Coordination} (h : Reaches Step .initial c) : Coordinated c :=
  h.invariant coordinated_step coordinated_initial

def fence (state : CoordinatorState) : Option RepairLease × Option ReservedRepair :=
  (state.repairLease, state.reservedRepair)

theorem holder_of_change {c d : Coordination} (hinv : Coordinated c)
    (heff : StepEffect c op d) {key : String × RepairAttemptToken}
    (hcur : leaseAttempt c.state.repairLease = some key)
    (hchang : fence d.state ≠ fence c.state) :
    ∃ guard, op.guard c.repairGuards = some guard ∧ guardKey guard = some key := by
  rcases heff with ⟨hquiet, _⟩ | ⟨_, _, htakes, _⟩ | ⟨_, _, harms, _⟩ |
    ⟨guard, held, hguard, hkey, hacts, _⟩
  · obtain ⟨hlease, hres⟩ := hquiet.frame hinv.exclusive
      (by simp [Occupancy.attempt, occupancy, hcur])
    exact absurd (Prod.ext hlease hres) hchang
  · have hnone := htakes.attempt_eq.1
    simp [Occupancy.attempt, occupancy, hcur] at hnone
  · have hnone := harms.arm_attempt_none
    simp [Occupancy.attempt, occupancy, hcur] at hnone
  · have hsame := hacts.attempt_eq.1
    simp only [Occupancy.attempt, occupancy, hcur, Option.some.injEq] at hsame
    exact ⟨guard, hguard, hsame ▸ hkey⟩

theorem change_without_holder {c d : Coordination}
    (heff : StepEffect c op d) (hcur : leaseAttempt c.state.repairLease = none)
    (hchang : fence d.state ≠ fence c.state) :
    (leaseAttempt d.state.repairLease).isSome ∨ (∃ request, op = .rearmApproved request) ∨
      (d.state.repairLease = c.state.repairLease ∧ d.state.reservedRepair = none) := by
  rcases heff with ⟨hquiet, _⟩ | ⟨_, _, htakes, _⟩ | ⟨request, hop, _, _⟩ |
    ⟨_, _, _, _, hacts, _⟩
  · refine .inr (.inr ⟨hquiet.lease_eq, ?_⟩)
    rcases hquiet.reservation_eq with hsame | hnone
    · exact absurd (Prod.ext hquiet.lease_eq hsame) hchang
    · exact hnone
  · refine .inl ?_
    have hsome := htakes.attempt_eq.2
    exact Option.isSome_of_eq_some hsome
  · exact .inr (.inl ⟨request, hop⟩)
  · have hsome := hacts.attempt_eq.1
    simp [Occupancy.attempt, occupancy, hcur] at hsome

/-- In every reachable state the writer, reader and repair admissions exclude each
other, at most one attempt token is alive, and lease and reservation change only
through the guard that holds the current token; where no attempt is current they
change by a new attempt, by arming the startup claim, or by an expiry. -/
theorem maintenance_mutual_exclusion {c : Coordination} (h : Reaches Step .initial c) :
    (0 < c.state.activeBackground → c.state.repairLease = none ∧ c.state.reservedRepair = none ∧
        c.state.activeAnalysis = 0) ∧ (∀ lease token, c.state.repairLease = some lease →
      lease.activeAttempt = some token →
      c.state.activeBackground = 0 ∧ c.state.activeAnalysis = 0) ∧ c.attemptTokens.length ≤ 1 ∧
    c.attemptTokens = (leaseAttempt c.state.repairLease).toList ∧
    ∀ op d, Step c op d → fence d.state ≠ fence c.state →
      match leaseAttempt c.state.repairLease with
      | some key => ∃ guard, op.guard c.repairGuards = some guard ∧ guardKey guard = some key
      | none =>
        (leaseAttempt d.state.repairLease).isSome ∨
        (∃ request, op = .rearmApproved request) ∨
        (d.state.repairLease = c.state.repairLease ∧ d.state.reservedRepair = none) := by
  have hinv := coordinated_of_reaches h
  refine ⟨hinv.exclusive.writers_alone, ?_, ?_, hinv.holder, ?_⟩
  · intro lease token hlease hactive
    apply hinv.exclusive.attempt_alone
    simp [Occupancy.attempt, occupancy, hlease, leaseAttempt_of_active hactive]
  · rw [hinv.holder]
    exact Option.length_toList_le
  · intro op d hstep hchang
    have heff := step_effect hinv hstep
    split
    · next key hcur =>
        exact holder_of_change hinv heff hcur hchang
    · next hcur =>
        exact change_without_holder heff hcur hchang

/-- After recovery one repair call takes the fence at its first pass; no writer
gets in afterwards, and asking for one leaves the fence as it is. -/
theorem maintenance_mutual_exclusion_acquired : ∃ c, Reaches Step .initial c ∧
    c.state.repairLease = some ⟨"repair_a", false, some ⟨1⟩⟩ ∧
    c.state.activeBackground = 0 ∧ c.state.activeAnalysis = 0 ∧
    ∀ d, Step c .tryBeginBackground d → fence d.state = fence c.state := by
  let labels := [Op.finishRecovery, .callAcquire "repair_a", .acquirePass 0]
  have hrun : ∃ c, Run Step .initial labels c ∧
      c.state.repairLease = some ⟨"repair_a", false, some ⟨1⟩⟩ :=
    ⟨_, .cons rfl (.cons rfl (.cons rfl (.refl _))), by decide⟩
  obtain ⟨c, hrun, hlease⟩ := hrun
  have hreach : Reaches Step .initial c := ⟨labels, hrun⟩
  obtain ⟨_, hatt, _, _, hhold⟩ := maintenance_mutual_exclusion hreach
  obtain ⟨hwrit, hread⟩ := hatt _ _ hlease rfl
  refine ⟨c, hreach, hlease, hwrit, hread, fun d hstep => ?_⟩
  by_contra hchang
  have hguard := hhold _ d hstep hchang
  rw [hlease] at hguard
  obtain ⟨guard, hguard, _⟩ := hguard
  cases hguard

end Wenlan.Maintenance.Exclusion
