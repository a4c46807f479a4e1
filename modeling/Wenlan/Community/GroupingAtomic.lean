import Wenlan.Community.Accounts
import Wenlan.Community.Grouping

/-!
# Cycles are atomic on the runtime

A cycle that does not publish gives the entry it took back unchanged, unless it reuses an
entry whose membership does not cover the nodes it has read: then the computation panics with
the entry in its hands.
-/

namespace Wenlan.Community

open Std Support.Transition CommunityGroupingRuntime

set_option linter.unusedSectionVars false

variable {W : Type} [Weight W] [DecidableLT W] [DecidableLE W]

/-- Every entry was computed from a graph or updated since. -/
def WellKept (runtime : CommunityGroupingRuntime W) : Prop :=
  ∀ (space : String) (state : RuntimeCommunityState W), runtime.spaces[space]? = some state →
    Accounted state.partition

def ReusesEntry (attempt : CommunityGroupingAttempt) (entry : RuntimeCommunityState W) : Prop :=
  versionsDiffer attempt entry = false ∧
    some entry.publishedGeneration = attempt.publishedGeneration ∧
    attempt.graphGeneration = entry.graphGeneration

def CoversReused (attempt : CommunityGroupingAttempt)
    (prior : Option (RuntimeCommunityState W)) : Prop :=
  ∀ entry, prior = some entry → ReusesEntry attempt entry →
    entry.partition.partition.membership.length = (attempt.graph : ProjectedGraph W).nodeIds.length ∨
      (attempt.graph : ProjectedGraph W).nodeIds.length < minCommunityParticipants

/-! ## Selecting -/

structure Selected (attempt : CommunityGroupingAttempt) (graph : ProjectedGraph W)
    (prior : Option (RuntimeCommunityState W)) (selection : GroupingSelection W) : Prop where
  restores : selection.2.1.restore = prior
  accounted : ∀ publishedGeneration graphGeneration,
    Accounted (selection.2.1.publish publishedGeneration graphGeneration).partition
  covers : (∀ entry, prior = some entry → ¬ ReusesEntry attempt entry) →
    selection.1.length = graph.nodeIds.length
  reused : ∀ entry, prior = some entry → ReusesEntry attempt entry →
    selection.1 = entry.partition.partition.membership

section Selecting

variable {leiden : Leiden W} {attempt : CommunityGroupingAttempt} {graph : ProjectedGraph W}
  {prior : Option (RuntimeCommunityState W)} {reason : CommunityGroupingFullReason}
  {dirtyNodes : List Nat}

theorem fullPartitionState_ok {membership : List Nat} {state : IncrementalPartitionState W}
    (hgraph : Bounded graph) (h : fullPartitionState leiden graph = .ok (membership, state)) :
    membership.length = graph.nodeIds.length ∧ Accounted state := by
  unfold fullPartitionState at h
  split at h
  · cases h
  · rename_i output _
    split at h
    · cases h
    · rename_i fresh hnew
      obtain ⟨rfl, rfl⟩ := Prod.ext_iff.mp (Except.ok.inj h)
      obtain ⟨hlen, rfl⟩ := new_ok hnew
      exact ⟨hlen, fresh_accounted hgraph hlen⟩

variable {selection : GroupingSelection W}

theorem selectFull_ok (hgraph : Bounded graph)
    (hreused : ∀ entry, prior = some entry → ¬ ReusesEntry attempt entry)
    (h : selectFull leiden attempt graph prior reason = .ok selection) :
    Selected attempt graph prior selection := by
  unfold selectFull at h
  split at h
  · cases h
  · rename_i membership partition hfull
    cases h
    obtain ⟨hlen, haccounted⟩ := fullPartitionState_ok hgraph hfull
    exact ⟨rfl, fun _ _ => haccounted, fun _ => hlen,
      fun entry hentry hreus => absurd hreus (hreused entry hentry)⟩

variable {failure : GroupingSelectionFailure W}

theorem selectFull_error
    (h : selectFull leiden attempt graph prior reason = .error failure) : failure.2 = prior := by
  unfold selectFull at h
  split at h
  · obtain rfl := Except.error.inj h
    rfl
  · cases h

variable (leiden attempt dirtyNodes) in
theorem selectIncremental_cases {entry : RuntimeCommunityState W} (hgraph : Bounded graph)
    (hentry : Accounted entry.partition) :
    (∃ output rollback, incrementalPartitionRecoverable graph entry.partition dirtyNodes
        .default = .ok (output, rollback) ∧
      selectIncremental leiden attempt graph dirtyNodes entry = .ok (output.partition.membership,
          .incremental { entry with partition := output.state } rollback,
          .incremental output.optimizedNodes.length)) ∨
    ∃ reason, selectIncremental leiden attempt graph dirtyNodes entry =
      selectFull leiden attempt graph (some entry) reason := by
  unfold selectIncremental
  split
  · rename_i output rollback hok
    exact .inl ⟨output, rollback, hok, rfl⟩
  · rename_i error partition herror
    obtain rfl := incrementalPartitionRecoverable_error hgraph hentry herror
    exact .inr ⟨_, rfl⟩

theorem selectIncremental_ok {entry : RuntimeCommunityState W} (hgraph : Bounded graph)
    (hentry : Accounted entry.partition) (hreused : ¬ ReusesEntry attempt entry)
    (h : selectIncremental leiden attempt graph dirtyNodes entry = .ok selection) :
    Selected attempt graph (some entry) selection := by
  have hother : ∀ other, some entry = some other → ¬ ReusesEntry attempt other := by
    rintro other hsome
    cases hsome
    exact hreused
  rcases selectIncremental_cases leiden attempt dirtyNodes hgraph hentry with
    ⟨output, rollback, hok, hsel⟩ | ⟨reason, hsel⟩
  · rw [hsel] at h
    cases h
    obtain ⟨dirty, frontier, hfront, hstate, rfl⟩ := incrementalPartitionRecoverable_ok hok
    have hkept := updateFrontier_kept (W := W) .default hgraph hentry hfront
    rw [← hstate] at hkept
    have hund := updateFrontier_undone (W := W) .default hgraph hentry hfront
    rw [← hstate] at hund
    refine ⟨?_, fun _ _ => hkept.2, fun _ => ?_, ?_⟩
    · unfold RuntimeTransition.restore
      dsimp only
      rw [hund]
    · exact hkept.1.membership_length.trans hfront.membership_length
    · exact fun other hsome hreus => absurd hreus (hother other hsome)
  · rw [hsel] at h
    exact selectFull_ok hgraph hother h

variable (leiden attempt graph dirtyNodes) in
theorem selectPartition_cases (prior : Option (RuntimeCommunityState W)) :
    (∃ entry, prior = some entry ∧ ReusesEntry attempt entry ∧
      selectPartition leiden attempt graph dirtyNodes prior =
        .ok (entry.partition.partition.membership, .reused entry, .coreReused)) ∨
    (∀ entry, prior = some entry → ¬ ReusesEntry attempt entry) ∧
      ((∃ reason, selectPartition leiden attempt graph dirtyNodes prior =
          selectFull leiden attempt graph prior reason) ∨
        ∃ entry, prior = some entry ∧ selectPartition leiden attempt graph dirtyNodes prior =
            selectIncremental leiden attempt graph dirtyNodes entry) := by
  cases prior with
  | none => exact .inr ⟨(nofun), .inl ⟨_, rfl⟩⟩
  | some entry =>
    have hother : ¬ ReusesEntry attempt entry →
        ∀ other, some entry = some other → ¬ ReusesEntry attempt other := by
      intro hreused other hsome
      cases hsome
      exact hreused
    unfold selectPartition
    dsimp only
    split
    · rename_i hvers
      refine .inr ⟨hother fun hreus => ?_, .inl ⟨_, rfl⟩⟩
      rw [hreus.1] at hvers
      cases hvers
    · rename_i hvers
      split
      · rename_i hpubl
        exact .inr ⟨hother fun hreus => hpubl hreus.2.1, .inl ⟨_, rfl⟩⟩
      · rename_i hpubl
        split
        · rename_i hregr
          refine .inr ⟨hother fun hreus => ?_, .inl ⟨_, rfl⟩⟩
          rw [hreus.2.2] at hregr
          exact lt_irrefl _ hregr
        · split
          · rename_i hsame
            exact .inl ⟨entry, rfl, ⟨Bool.eq_false_iff.mpr hvers, not_not.mp hpubl, hsame⟩, rfl⟩
          · rename_i hmoved
            have hreused : ¬ ReusesEntry attempt entry := fun hreus => hmoved hreus.2.2
            split
            · exact .inr ⟨hother hreused, .inl ⟨_, rfl⟩⟩
            · exact .inr ⟨hother hreused, .inr ⟨entry, rfl, rfl⟩⟩

section

variable (hgraph : Bounded graph) (hprior : ∀ entry, prior = some entry → Accounted entry.partition)
include hgraph hprior

theorem selectPartition_ok
    (h : selectPartition leiden attempt graph dirtyNodes prior = .ok selection) :
    Selected attempt graph prior selection := by
  rcases selectPartition_cases leiden attempt graph dirtyNodes prior with
    ⟨entry, rfl, hreus, hsel⟩ |
    ⟨hreused, ⟨reason, hsel⟩ | ⟨entry, rfl, hsel⟩⟩
  · rw [hsel] at h
    cases h
    refine ⟨rfl, fun _ _ => hprior entry rfl, fun hnever => ?_, ?_⟩
    · exact absurd hreus (hnever entry rfl)
    · intro other hsome _
      cases hsome
      rfl
  · rw [hsel] at h
    exact selectFull_ok hgraph hreused h
  · rw [hsel] at h
    exact selectIncremental_ok hgraph (hprior entry rfl) (hreused entry rfl) h

theorem selectPartition_error
    (h : selectPartition leiden attempt graph dirtyNodes prior = .error failure) :
    failure.2 = prior ∧ ∀ entry, prior = some entry → ¬ ReusesEntry attempt entry := by
  rcases selectPartition_cases leiden attempt graph dirtyNodes prior with
    ⟨entry, rfl, _, hsel⟩ |
    ⟨hreused, ⟨reason, hsel⟩ | ⟨entry, rfl, hsel⟩⟩
  · rw [hsel] at h
    cases h
  · rw [hsel] at h
    exact ⟨selectFull_error h, hreused⟩
  · refine ⟨?_, hreused⟩
    rw [hsel] at h
    rcases selectIncremental_cases leiden attempt dirtyNodes hgraph (hprior entry rfl) with
      ⟨output, rollback, _, hincr⟩ | ⟨reason, hincr⟩
    · rw [hincr] at h
      cases h
    · rw [hincr] at h
      exact selectFull_error h

end

end Selecting

/-! ## One cycle -/

section Cycle

variable (runtime : CommunityGroupingRuntime W) (space : String)

theorem installSome_take :
    (runtime.take space).2.installSome space (runtime.take space).1 = runtime := by
  obtain ⟨spaces⟩ := runtime
  unfold installSome take
    install
  cases hentry : spaces[space]? with
  | none =>
    refine congrArg mk (ExtTreeMap.ext_getElem? ?_)
    intro other
    rw [ExtTreeMap.getElem?_erase]
    split
    · rename_i heq
      rw [← LawfulEqCmp.eq_of_compare heq, hentry]
    · rfl
  | some state =>
    refine congrArg mk (ExtTreeMap.ext_getElem? ?_)
    intro other
    rw [ExtTreeMap.getElem?_insert, ExtTreeMap.getElem?_erase]
    split
    · rename_i heq
      rw [← LawfulEqCmp.eq_of_compare heq, hentry]
    · rfl

inductive CycleEffect (attempt : CommunityGroupingAttempt) :
    CommunityGroupingRuntime W × CycleEnd W → Prop
  | published (state : RuntimeCommunityState W) (haccounted : Accounted state.partition)
      (hcovers : CoversReused attempt runtime.spaces[attempt.space]?) :
      CycleEffect attempt
        ((runtime.take attempt.space).2.install attempt.space state, .finished .published)
  | restored (ended : CycleEnd W) (hended : ended ≠ .finished .published)
      (hcovers : CoversReused attempt runtime.spaces[attempt.space]?) :
      CycleEffect attempt (runtime, ended)
  | lost (hcovers : ¬ CoversReused attempt runtime.spaces[attempt.space]?) :
      CycleEffect attempt ((runtime.take attempt.space).2, .panicked)

theorem groupingCycle_effect (leiden : Leiden W) (attempt : CommunityGroupingAttempt)
    (answer : FinalizeAnswer W) (hkept : WellKept runtime) :
    CycleEffect runtime attempt (groupingCycle leiden attempt answer runtime) := by
  have hgraph : Bounded (attempt.graph : ProjectedGraph W) :=
    projectGroundedRelates_bounded attempt.edges .default
  have hprior : ∀ entry, runtime.spaces[attempt.space]? = some entry →
      Accounted entry.partition := hkept attempt.space
  have hback := installSome_take runtime attempt.space
  unfold groupingCycle computeCommunityGrouping
  dsimp only
  cases hsel : selectPartition leiden attempt (attempt.graph : ProjectedGraph W)
      (attempt.dirtyNodeIds.toList.filterMap (attempt.graph : ProjectedGraph W).nodeIds.idxOf?)
      (runtime.take attempt.space).1 with
  | error failure =>
    obtain ⟨error, prior⟩ := failure
    obtain ⟨hsame, hreused⟩ := selectPartition_error hgraph hprior hsel
    obtain rfl : prior = (runtime.take attempt.space).1 := hsame
    dsimp only
    rw [hback]
    exact .restored _ (fun h => nomatch h)
      fun entry hentry hreus => absurd hreus (hreused entry hentry)
  | ok selection =>
    obtain ⟨membership, transition, mode⟩ := selection
    have hselec := selectPartition_ok hgraph hprior hsel
    have hrest : transition.restore = (runtime.take attempt.space).1 := hselec.restores
    have hnodes : membership.length = (attempt.graph : ProjectedGraph W).nodeIds.length ∨
        (attempt.graph : ProjectedGraph W).nodeIds.length < minCommunityParticipants ↔
        CoversReused attempt runtime.spaces[attempt.space]? := by
      constructor
      · intro hlen entry hentry hreus
        have hsame : membership = entry.partition.partition.membership :=
          hselec.reused entry hentry hreus
        rwa [← hsame]
      · intro hcovers
        by_cases hreus : ∃ entry, runtime.spaces[attempt.space]? = some entry ∧
            ReusesEntry attempt entry
        · obtain ⟨entry, hentry, hreus⟩ := hreus
          have hsame : membership = entry.partition.partition.membership :=
            hselec.reused entry hentry hreus
          rw [hsame]
          exact hcovers entry hentry hreus
        · exact .inl (hselec.covers fun entry hentry hreuse =>
            hreus ⟨entry, hentry, hreuse⟩)
    have hpan : (!decide ((attempt.graph : ProjectedGraph W).nodeIds.length <
          minCommunityParticipants) &&
        membership.length != (attempt.graph : ProjectedGraph W).nodeIds.length) ↔
        ¬ CoversReused attempt runtime.spaces[attempt.space]? := by
      rw [← hnodes, Bool.and_eq_true, Bool.not_eq_true', decide_eq_false_iff_not,
        bne_iff_ne, not_or, and_comm]
    dsimp only
    by_cases hcovers : CoversReused attempt runtime.spaces[attempt.space]?
    · rw [if_neg (mt hpan.mp (not_not.mpr hcovers))]
      unfold CommunityGroupingWork.finalize
      dsimp only
      rw [hrest, hback]
      split
      · exact .published _ (hselec.accounted _ _) hcovers
      · rename_i outcome hother
        refine .restored _ (fun hpubl => ?_) hcovers
        exact hother (CycleEnd.finished.inj hpubl)
      all_goals exact .restored _ (fun h => nomatch h) hcovers
    · rw [if_pos (hpan.mpr hcovers)]
      exact .lost hcovers

end Cycle

/-! ## Every interleaving of cycles -/

section Interleaving

variable {before after middle taken : Grouping W} {op : GroupingOp W}

section

variable {runtime : CommunityGroupingRuntime W} (h : WellKept runtime) (space : String)
include h

theorem wellKept_install {state : RuntimeCommunityState W} (hstate : Accounted state.partition) :
    WellKept (runtime.install space state) := by
  intro other found hfound
  unfold install at hfound
  rw [ExtTreeMap.getElem?_insert] at hfound
  split at hfound
  · cases hfound
    exact hstate
  · exact h other found hfound

theorem wellKept_take : WellKept (runtime.take space).2 := by
  intro other found hfound
  unfold take at hfound
  rw [ExtTreeMap.getElem?_erase] at hfound
  split at hfound
  · cases hfound
  · exact h other found hfound

end

theorem wellKept_default :
    WellKept (default : CommunityGroupingRuntime W) := by
  intro space state hstate
  unfold CommunityGroupingRuntime.default at hstate
  simp at hstate

theorem CycleEffect.wellKept {runtime : CommunityGroupingRuntime W}
    {attempt : CommunityGroupingAttempt} {result : CommunityGroupingRuntime W × CycleEnd W}
    (h : CycleEffect runtime attempt result) (hkept : WellKept runtime) : WellKept result.1 := by
  cases h with
  | published state haccounted _ =>
    exact wellKept_install (wellKept_take hkept attempt.space) attempt.space haccounted
  | restored _ _ _ => exact hkept
  | lost _ => exact wellKept_take hkept attempt.space

theorem wellKept_takeSpaceFromIfNotOlder {runtime other : CommunityGroupingRuntime W}
    (h : WellKept runtime) (hother : WellKept other) (space : String) :
    WellKept (runtime.takeSpaceFromIfNotOlder other space) := by
  unfold takeSpaceFromIfNotOlder
  split
  · exact h
  · rename_i candidate hcandidate
    have haccounted := hother space candidate hcandidate
    split
    · exact wellKept_install h space haccounted
    · split
      · exact wellKept_install h space haccounted
      · exact h

/-- Every runtime there is was built by the code, and what a flight holds is one entry. -/
structure GroupingKept (grouping : Grouping W) : Prop where
  shared : WellKept grouping.shared
  flights : ∀ id flight, grouping.flights id = some flight → WellKept flight.local_

theorem groupingKept_step (before : Grouping W) (op : GroupingOp W) (after : Grouping W)
    (h : GroupingKept before) (hstep : GroupingStep before op after) : GroupingKept after := by
  cases hstep with
  | take id attempt hfree =>
    refine ⟨wellKept_take h.shared attempt.space, ?_⟩
    intro other flight hflight
    by_cases hsame : other = id
    · subst hsame
      dsimp only at hflight
      rw [Function.update_self] at hflight
      cases hflight
      unfold takeSpaceFrom installSome
      dsimp only
      split
      · rename_i state hstate
        exact wellKept_install wellKept_default attempt.space
          (h.shared attempt.space state hstate)
      · exact wellKept_default
    · dsimp only at hflight
      rw [Function.update_of_ne hsame] at hflight
      exact h.flights other flight hflight
  | finish id held leiden answer hheld =>
    have hlocal := h.flights id held hheld
    refine ⟨?_, ?_⟩
    · exact wellKept_takeSpaceFromIfNotOlder h.shared
        ((groupingCycle_effect held.local_ leiden held.attempt answer hlocal).wellKept hlocal) _
    · intro other flight hflight
      by_cases hsame : other = id
      · subst hsame
        dsimp only at hflight
        rw [Function.update_self] at hflight
        cases hflight
      · dsimp only at hflight
        rw [Function.update_of_ne hsame] at hflight
        exact h.flights other flight hflight

theorem groupingKept_of_reaches {grouping : Grouping W}
    (h : Reaches GroupingStep .initial grouping) : GroupingKept grouping := by
  refine h.invariant groupingKept_step ⟨wellKept_default, ?_⟩
  exact nofun

section

variable {runtime : CommunityGroupingRuntime W} {space other : String} (hne : space ≠ other)
include hne

theorem take_of_ne : (runtime.take space).2.spaces[other]? = runtime.spaces[other]? := by
  have hcomp : ¬ compare space other = .eq := fun heq => hne (LawfulEqCmp.eq_of_compare heq)
  unfold take
  rw [ExtTreeMap.getElem?_erase, if_neg hcomp]

theorem install_of_ne (state : RuntimeCommunityState W) :
    (runtime.install space state).spaces[other]? = runtime.spaces[other]? := by
  have hcomp : ¬ compare space other = .eq := fun heq => hne (LawfulEqCmp.eq_of_compare heq)
  unfold install
  rw [ExtTreeMap.getElem?_insert, if_neg hcomp]

end

theorem install_self (runtime : CommunityGroupingRuntime W) (space : String)
    (state : RuntimeCommunityState W) :
    (runtime.install space state).spaces[space]? = some state := by
  unfold install
  rw [ExtTreeMap.getElem?_insert, if_pos compare_self]

theorem take_self (runtime : CommunityGroupingRuntime W) (space : String) :
    (runtime.take space).2.spaces[space]? = none := by
  unfold take
  rw [ExtTreeMap.getElem?_erase, if_pos compare_self]

theorem takeSpaceFromIfNotOlder_of_ne {runtime other : CommunityGroupingRuntime W}
    {space key : String} (hne : space ≠ key) :
    (runtime.takeSpaceFromIfNotOlder other space).spaces[key]? = runtime.spaces[key]? := by
  unfold takeSpaceFromIfNotOlder
  split
  · rfl
  · split
    · exact install_of_ne hne _
    · split
      · exact install_of_ne hne _
      · rfl

theorem takeSpaceFromIfNotOlder_self {runtime other : CommunityGroupingRuntime W}
    {space : String} (hnone : runtime.spaces[space]? = none) :
    (runtime.takeSpaceFromIfNotOlder other space).spaces[space]? = other.spaces[space]? := by
  have htaken : (other.take space).1 = other.spaces[space]? := rfl
  unfold takeSpaceFromIfNotOlder
  rw [htaken, hnone]
  cases other.spaces[space]? with
  | none => exact hnone
  | some candidate => exact install_self runtime space candidate

theorem takeSpaceFrom_entry (runtime : CommunityGroupingRuntime W) (space : String) :
    ((default.takeSpaceFrom runtime space).1).spaces[space]? =
      runtime.spaces[space]? := by
  unfold takeSpaceFrom installSome
    take
  cases hentry : runtime.spaces[space]? with
  | none =>
    unfold CommunityGroupingRuntime.default
    simp
  | some state => exact install_self _ space state

theorem flight_alone {space : String} {id : Nat} {flight : Flight W} {ops : List (GroupingOp W)}
    (hrun : Run GroupingStep taken ops middle)
    (hoth : ∀ op ∈ ops, op.space ≠ space ∧ op.flight ≠ id)
    (hheld : taken.flights id = some flight) (hnone : taken.shared.spaces[space]? = none) :
    middle.flights id = some flight ∧ middle.shared.spaces[space]? = none := by
  have hkept : ∀ before op after, (op.space ≠ space ∧ op.flight ≠ id) →
      (before.flights id = some flight ∧ before.shared.spaces[space]? = none) →
      GroupingStep before op after →
      after.flights id = some flight ∧ after.shared.spaces[space]? = none := by
    intro before op after hop hinv hstep
    obtain ⟨hheld, hnone⟩ := hinv
    cases hstep with
    | take other attempt hfree =>
      have hne : id ≠ other := Ne.symm hop.2
      refine ⟨?_, (take_of_ne hop.1).trans hnone⟩
      dsimp only
      rw [Function.update_of_ne hne, hheld]
    | finish other held leiden answer _ =>
      have hne : id ≠ other := Ne.symm hop.2
      refine ⟨?_, (takeSpaceFromIfNotOlder_of_ne hop.1).trans hnone⟩
      dsimp only
      rw [Function.update_of_ne hne, hheld]
  have hend := hrun.invariant_on hkept hoth ⟨hheld, hnone⟩
  exact hend

def Publishes (leiden : Leiden W) (attempt : CommunityGroupingAttempt)
    (answer : FinalizeAnswer W) (runtime : CommunityGroupingRuntime W) : Prop :=
  (groupingCycle leiden attempt answer runtime).2 = .finished .published

theorem not_publishes {leiden : Leiden W} {attempt : CommunityGroupingAttempt}
    {answer : FinalizeAnswer W} {runtime : CommunityGroupingRuntime W}
    (hansw : answer ≠ some (.ok .published)) : ¬ Publishes leiden attempt answer runtime := by
  unfold Publishes groupingCycle
  split
  · unfold CommunityGroupingWork.finalize
    split
    · exact absurd rfl hansw
    · rename_i outcome hother
      exact fun hpubl => hother (CycleEnd.finished.inj hpubl)
    all_goals exact nofun
  all_goals exact nofun

section

variable {runtime : CommunityGroupingRuntime W} (leiden : Leiden W)
  (attempt : CommunityGroupingAttempt) (answer : FinalizeAnswer W) (hkept : WellKept runtime)
include hkept

theorem groupingCycle_entry : (¬ Publishes leiden attempt answer runtime →
        (groupingCycle leiden attempt answer runtime).1.spaces[attempt.space]? =
          runtime.spaces[attempt.space]?) ↔
      CoversReused attempt runtime.spaces[attempt.space]? := by
  have heff := groupingCycle_effect runtime leiden attempt answer hkept
  unfold Publishes
  generalize groupingCycle leiden attempt answer runtime = result at heff ⊢
  cases heff with
  | published state haccounted hcovers => exact ⟨fun _ => hcovers, fun _ h => absurd rfl h⟩
  | restored ended hended hcovers => exact ⟨fun _ => hcovers, fun _ _ => rfl⟩
  | lost hcovers =>
    refine ⟨fun hentry => ?_, fun h => absurd h hcovers⟩
    have hsame := hentry fun h => nomatch h
    rw [take_self] at hsame
    rw [← hsame]
    exact nofun

theorem groupingCycle_runtime : (¬ Publishes leiden attempt answer runtime →
        (groupingCycle leiden attempt answer runtime).1 = runtime) ↔
      CoversReused attempt runtime.spaces[attempt.space]? := by
  have hentry := groupingCycle_entry leiden attempt answer hkept
  have heff := groupingCycle_effect runtime leiden attempt answer hkept
  constructor
  · intro hsame
    exact hentry.mp fun hnot => by rw [hsame hnot]
  · unfold Publishes
    generalize groupingCycle leiden attempt answer runtime = result at heff ⊢
    intro hcovers hnot
    cases heff with
    | published state haccounted _ => exact absurd rfl hnot
    | restored ended hended _ => rfl
    | lost hlost => exact absurd hcovers hlost

end

theorem finish_entry {flight : Nat} {attempt : CommunityGroupingAttempt} {leiden : Leiden W}
    {answer : FinalizeAnswer W} {ops : List (GroupingOp W)}
    (htake : GroupingStep before (.take flight attempt) taken)
    (hrun : Run GroupingStep taken ops middle)
    (hoth : ∀ op ∈ ops, op.space ≠ attempt.space ∧ op.flight ≠ flight)
    (hfin : GroupingStep middle (.finish flight attempt leiden answer) after) :
    after.shared.spaces[attempt.space]? = (groupingCycle leiden attempt answer
        (default.takeSpaceFrom before.shared
          attempt.space).1).1.spaces[attempt.space]? := by
  cases htake with
  | take _ _ hfree =>
    obtain ⟨hheld, hnone⟩ := flight_alone hrun hoth (Function.update_self ..)
      (take_self before.shared attempt.space)
    cases hfin with
    | finish _ held _ _ hsome =>
      have hlocal := congrArg Flight.local_ (Option.mem_unique hheld hsome)
      refine (takeSpaceFromIfNotOlder_self hnone).trans ?_
      rw [← hlocal]

end Interleaving

/-- A cycle that does not publish leaves the runtime exactly as it found it if and only if the
entry of its space, where the attempt lets it be reused, has a community for every node that
the attempt has read, or there are too few nodes to group.  So it is on a runtime of the
cycle's own, and on the shared one from taking the entry to giving it back, with cycles for
other spaces in between. -/
theorem grouping_cycle_atomic {before : Grouping W}
    (hreaches : Reaches GroupingStep .initial before) (attempt : CommunityGroupingAttempt)
    (leiden : Leiden W) (answer : FinalizeAnswer W) :
    ((¬ Publishes leiden attempt answer before.shared →
        (runCommunityGroupingCycle leiden (some (.ok attempt)) answer before.shared).1 =
          before.shared) ↔
      CoversReused attempt before.shared.spaces[attempt.space]?) ∧
    ∀ flight taken ops middle after, GroupingStep before (.take flight attempt) taken →
      Run GroupingStep taken ops middle →
      (∀ op ∈ ops, op.space ≠ attempt.space ∧ op.flight ≠ flight) →
      GroupingStep middle (.finish flight attempt leiden answer) after →
      ((¬ Publishes leiden attempt answer
            (CommunityGroupingRuntime.default.takeSpaceFrom before.shared attempt.space).1 →
          after.shared.spaces[attempt.space]? = before.shared.spaces[attempt.space]?) ↔
        CoversReused attempt before.shared.spaces[attempt.space]?) := by
  have hkept := groupingKept_of_reaches hreaches
  refine ⟨groupingCycle_runtime leiden attempt answer hkept.shared, ?_⟩
  intro flight taken ops middle after htake hrun hoth hfin
  have hlocal : WellKept
      (CommunityGroupingRuntime.default.takeSpaceFrom before.shared attempt.space).1 := by
    have htaken := groupingKept_step _ _ _ hkept htake
    cases htake with
    | take _ _ hfree => exact htaken.flights flight _ (Function.update_self ..)
  have hentry := groupingCycle_entry leiden attempt answer hlocal
  rw [takeSpaceFrom_entry] at hentry
  rw [finish_entry htake hrun hoth hfin]
  exact hentry

/-- Ten entities in a chain, and an eleventh behind `extra`. -/
def chainEdges (extra : List ProjectionInputEdge) : List ProjectionInputEdge :=
  ["a", "b", "c", "d", "e", "f", "g", "h", "i"].zipWith
    (fun src dst => ⟨src ++ dst, src, dst⟩) ["b", "c", "d", "e", "f", "g", "h", "i", "j"] ++ extra

def chainAttempt (inputGeneration : Int) (publishedGeneration : Option Int)
    (extra : List ProjectionInputEdge) : CommunityGroupingAttempt where
  space := "work"
  graphGeneration := 9
  inputGeneration := inputGeneration
  publishedGeneration := publishedGeneration
  publishedVersions := publishedGeneration.map fun _ =>
    (communityAlgoVersion, communityProjectionVersion)
  edges := chainEdges extra
  dirtyNodeIds := ∅

def oneCommunity : Leiden ℚ := fun nodeCount _ _ => .ok ⟨List.replicate nodeCount 0, 0⟩

def chainFlight : Flight ℚ :=
  ⟨chainAttempt 20 none [], (CommunityGroupingRuntime.default.takeSpaceFrom .default "work").1⟩

def chainTaken : Grouping ℚ :=
  ⟨(CommunityGroupingRuntime.default.takeSpaceFrom .default "work").2,
    Function.update (fun _ => none) 0 (some chainFlight)⟩

def chainPublished : Grouping ℚ :=
  ⟨chainTaken.shared.takeSpaceFromIfNotOlder (groupingCycle oneCommunity chainFlight.attempt
      (some (.ok .published)) chainFlight.local_).1 "work",
    Function.update chainTaken.flights 0 none⟩

theorem chainPublished_reaches : Reaches GroupingStep .initial chainPublished := by
  have htake : GroupingStep .initial (.take 0 (chainAttempt 20 none [])) chainTaken :=
    .take .initial 0 (chainAttempt 20 none []) rfl
  have hfin : GroupingStep chainTaken (.finish 0 chainFlight.attempt oneCommunity
      (some (.ok .published))) chainPublished :=
    .finish chainTaken 0 chainFlight oneCommunity _ rfl
  exact ⟨_, .cons htake (.single hfin)⟩

theorem chainPublished_entry : ∃ entry, chainPublished.shared.spaces["work"]? = some entry ∧
    entry.partition.partition.membership.length = 10 ∧
    ReusesEntry (chainAttempt 21 (some 20) []) entry := by
  have hentry : (chainPublished.shared.spaces["work"]?.any fun entry =>
      entry.partition.partition.membership.length = 10 ∧
        versionsDiffer (chainAttempt 21 (some 20) []) entry = false ∧
        entry.publishedGeneration = 20 ∧ entry.graphGeneration = 9) := by
    decide +kernel
  obtain ⟨entry, hsome, hholds⟩ := (Option.any_eq_true _ _).mp hentry
  obtain ⟨hlen, hvers, hpubl, hgraph⟩ := of_decide_eq_true hholds
  refine ⟨entry, hsome, hlen, hvers, ?_, hgraph.symm⟩
  rw [hpubl]
  rfl

/-- An edge to an eleventh entity is added between reading the generation and the edges: the
stale cycle, which would have kept the entry, loses it. -/
theorem entry_lost_when_reused : ¬ ∀ (before : Grouping ℚ) (attempt : CommunityGroupingAttempt)
    (leiden : Leiden ℚ) (answer : FinalizeAnswer ℚ), Reaches GroupingStep .initial before →
    ¬ Publishes leiden attempt answer before.shared →
    (runCommunityGroupingCycle leiden (some (.ok attempt)) answer before.shared).1 =
      before.shared := by
  intro hclaim
  have hkept := (groupingKept_of_reaches chainPublished_reaches).shared
  have hsame := (groupingCycle_runtime oneCommunity (chainAttempt 21 (some 20) [⟨"jk", "j", "k"⟩])
    (some (.ok .stale)) hkept).mp
    fun hnot => hclaim _ _ _ _ chainPublished_reaches hnot
  obtain ⟨entry, hsome, hlen, hreus⟩ := chainPublished_entry
  have hnodes : ((chainAttempt 21 (some 20) [⟨"jk", "j", "k"⟩]).graph :
      ProjectedGraph ℚ).nodeIds.length = 11 := by
    decide +kernel
  have hcovers := hsame entry hsome hreus
  rw [hlen, hnodes] at hcovers
  revert hcovers
  decide

/-- Without the new edge the same cycle gives everything back. -/
theorem grouping_cycle_atomic_reused :
    (runCommunityGroupingCycle oneCommunity (some (.ok (chainAttempt 21 (some 20) [])))
      (some (.ok .stale)) chainPublished.shared).1 = chainPublished.shared := by
  have hcycle := grouping_cycle_atomic chainPublished_reaches (chainAttempt 21 (some 20) [])
    oneCommunity (some (.ok .stale))
  refine hcycle.1.mpr ?_ (not_publishes fun h => nomatch h)
  obtain ⟨entry, hsome, hlen, _⟩ := chainPublished_entry
  have hnodes : ((chainAttempt 21 (some 20) []).graph : ProjectedGraph ℚ).nodeIds.length = 10 := by
    decide +kernel
  intro other hother _
  obtain rfl := Option.some.inj (hsome.symm.trans hother)
  exact .inl (hlen.trans hnodes.symm)

end Wenlan.Community
