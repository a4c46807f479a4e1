import Wenlan.Spaces.Effects
import Wenlan.Spaces.Lifecycle

/-!
# Memories and pages in another space

What an operation does to the memories, pages and annotations before its cascade.
-/

namespace Wenlan.Spaces

open Pages (WenlanError refuseIf_eq_ok)
open Support.Fallible

def rehomedMemory (clock : Clock) (old new : String) (memory : MemoryRow) : MemoryRow :=
  if memory.space = old then movedMemory clock new memory else memory

def rehomedPage (clock : Clock) (old new : String) (page : PageRow) : PageRow :=
  if inScope old page then movedPage clock old new page else page

variable {clock : Clock} {old new name target : String} {db db' mid : Database}

/-- Every memory and page is in its place, and of the rest only triggers have written. -/
structure Rehomed (clock : Clock) (old new : String) (db db' : Database) : Prop where
  memories : db'.memories = db.memories.map (rehomedMemory clock old new)
  pages : db'.pages = db.pages.map (rehomedPage clock old new)
  rest : db' = { db with memories := db'.memories, pages := db'.pages, rows := db'.rows }
  rows : ∀ table, table ∉ triggered → db'.rows table = db.rows table

variable {memoriesFailed pagesFailed : String → WenlanError}

theorem rehomed_of_moves
    (hmemor : moveMemories memoriesFailed clock old new db = .ok mid)
    (hpages : movePages pagesFailed clock old new mid = .ok db') :
    Rehomed clock old new db db' := by
  have hfirst := updateMemories_eq_ok hmemor
  have hsec := updatePages_eq_ok hpages
  have hmid := hfirst.onlyRows
  have hend := hsec.onlyRows
  refine ⟨?_, ?_, ?_, fun table htable => ?_⟩
  · rw [hend, hmid]
    rfl
  · rw [hend, hmid]
    rfl
  · rw [hend, hmid]
  · rw [hsec.rows table htable]
    exact hfirst.rows table htable

/-- What moving the contents of a space into a live one has done before the cascade. -/
structure Prepared (clock : Clock) (name target sourceId targetId : String)
    (db moved : Database) : Prop where
  annotations : moveContext clock.annotationsNow sourceId targetId db.annotations =
    .ok moved.annotations
  rehomed : Rehomed clock name target { db with annotations := moved.annotations } moved

theorem moveAnnotations_eq_ok {fromContext toContext : String}
    (h : moveAnnotations clock fromContext toContext db = .ok db') :
    moveContext clock.annotationsNow fromContext toContext db.annotations =
        .ok db'.annotations ∧ db' = { db with annotations := db'.annotations } := by
  unfold moveAnnotations at h
  cases hmove : moveContext clock.annotationsNow fromContext toContext db.annotations with
  | error error =>
    rw [hmove] at h
    cases h
  | ok annotations =>
    rw [hmove] at h
    cases h
    exact ⟨rfl, rfl⟩

theorem mergeInto_eq_ok
    {sourceId targetId : String}
    (h : mergeInto memoriesFailed pagesFailed clock name target sourceId targetId db = .ok db') :
    ∃ moved, Prepared clock name target sourceId targetId db moved ∧
      Merged clock.now name target moved db' := by
  obtain ⟨annotated, hannot, h⟩ := bind_ok h
  obtain ⟨mid, hmemor, h⟩ := bind_ok h
  obtain ⟨moved, hpages, h⟩ := bind_ok h
  obtain ⟨hcont, heq⟩ := moveAnnotations_eq_ok hannot
  have hreh := rehomed_of_moves hmemor hpages
  have hann : moved.annotations = annotated.annotations := by
    rw [hreh.rest]
  refine ⟨moved, ⟨?_, ?_⟩, cascadeSpaceMerge_eq_ok h⟩
  · rw [hann]
    exact hcont
  · rw [hann, ← heq]
    exact hreh

def SpaceOperation.merges : SpaceOperation → Option (String × String)
  | .updateSpace .. => none
  | .reassignMemoriesSpace source target => some (source, target)
  | .deleteSpace name memoryAction =>
    if memoryAction = "keep" ∨ memoryAction = "unassign" ∨ memoryAction = "delete" then none
    else (moveTarget memoryAction).map fun target => (name, target)

/-- A merge that succeeds is of two spaces, and then removes the source if it is deleted. -/
theorem transaction_merges {operation : SpaceOperation} {source target : String}
    (hmerges : operation.merges = some (source, target))
    (h : operation.transaction clock db = .ok db') : source ≠ target ∧ ∃ moved merged,
      Prepared clock source target (spaceId source db) (spaceId target db) db moved ∧
      Merged clock.now source target moved merged ∧
      db' = { merged with spaces := db'.spaces } := by
  cases operation with
  | updateSpace name newName description => cases hmerges
  | reassignMemoriesSpace first second =>
    cases hmerges
    obtain ⟨_, hne, h⟩ := bind_ok h
    obtain ⟨_, _, h⟩ := bind_ok h
    obtain ⟨_, _, h⟩ := bind_ok h
    obtain ⟨moved, hprep, hmerg⟩ := mergeInto_eq_ok h
    exact ⟨refuseIf_eq_ok hne, moved, db', hprep, hmerg, rfl⟩
  | deleteSpace name memoryAction =>
    unfold SpaceOperation.merges at hmerges
    dsimp only at hmerges
    split_ifs at hmerges with hknown
    rw [not_or, not_or] at hknown
    obtain ⟨hkeep, hunas, hdel⟩ := hknown
    obtain ⟨destination, htarget, hpair⟩ := Option.map_eq_some_iff.mp hmerges
    cases hpair
    obtain ⟨_, _, h⟩ := bind_ok h
    obtain ⟨merged, hmove, h⟩ := bind_ok h
    obtain ⟨_, _, h⟩ := bind_ok h
    cases h
    unfold applyMemoryAction at hmove
    rw [if_neg hkeep, if_neg hunas, if_neg hdel, htarget] at hmove
    obtain ⟨_, hne, hmove⟩ := bind_ok hmove
    obtain ⟨_, _, hmove⟩ := bind_ok hmove
    obtain ⟨moved, hprep, hmerg⟩ := mergeInto_eq_ok hmove
    exact ⟨Ne.symm (refuseIf_eq_ok hne), moved, merged, hprep, hmerg, rfl⟩

end Wenlan.Spaces

/-!
## The accounting of a merge

`reason_counts` of `m6/frontier.rs`: a group has up to six durable reasons in a space at an epoch,
and should have one.  A merge adds the reasons that a group has in its two spaces.
-/

namespace Wenlan.Spaces


/-- `REASON_TABLES` -/
inductive Reason where
  | coverage
  | reservation
  | frontier
  | card
  | suppression
  | quarantine
  deriving DecidableEq

def Reason.all : List Reason :=
  [.coverage, .reservation, .frontier, .card, .suppression, .quarantine]

def holds (db : Database) (table : ClosureTable) (space : String)
    (condition : Columns table → Bool) : Bool :=
  (db.rows table).any fun row => row.space == space && condition row.columns

def isLiveGroup (group : GroupKey) (row : EndedGroup) : Bool :=
  row.toGroupKey == group && row.endedAt.isNone

def CandidateRoot.isLive (root : CandidateRoot) (group : GroupKey) : Bool :=
  root.group == group && root.claimRole == .concept && root.releasedAt.isNone

def hasReason (db : Database) (space : String) (group : GroupKey) : Reason → Bool
  | .coverage => holds db .genesisGroupCoverage space (· == group)
  | .reservation => db.candidateRoots.any fun root =>
    root.isLive group && holds db .genesisCandidates space (· == root.candidateId)
  | .frontier => holds db .genesisFrontier space (· == group)
  | .card => holds db .genesisCardBinding space (isLiveGroup group)
  | .suppression => holds db .genesisSuppression space (isLiveGroup group)
  | .quarantine => holds db .genesisQuarantine space (isLiveGroup group)

def reasonCount (db : Database) (space : String) (group : GroupKey) : Nat :=
  Reason.all.countP (hasReason db space group)

/-- No group is booked twice. -/
def Accounted (db : Database) (space : String) : Prop :=
  ∀ group, reasonCount db space group ≤ 1

/-- A merge has kept every group of the source, and has booked none of the target twice. -/
structure MergeAccounted (before after : Database) (source target : String) : Prop where
  accounted : Accounted after target
  kept : ∀ group, 0 < reasonCount before source group → 0 < reasonCount after target group

def SharesGroup (db : Database) (source target : String) : Prop :=
  ∃ group, 0 < reasonCount db source group ∧ 0 < reasonCount db target group

/-! ## Reasons of a merged space -/

def Reason.spaceTable : Reason → ClosureTable
  | .coverage => .genesisGroupCoverage
  | .reservation => .genesisCandidates
  | .frontier => .genesisFrontier
  | .card => .genesisCardBinding
  | .suppression => .genesisSuppression
  | .quarantine => .genesisQuarantine

variable {db after moved merged : Database} {table : ClosureTable} {source target : String}
  {group : GroupKey} {reason : Reason} {now : Int} {clock : Clock}

theorem reasonCount_pos :
    0 < reasonCount db source group ↔ ∃ reason, hasReason db source group reason := by
  unfold reasonCount
  rw [List.countP_pos_iff]
  refine ⟨fun ⟨reason, _, h⟩ => ⟨reason, h⟩, fun ⟨reason, h⟩ => ⟨reason, ?_, h⟩⟩
  cases reason <;> decide

variable {condition : Columns table → Bool}

theorem holds_rekeyed (h : after.rows table = (moved.rows table).map (Row.rekey source target)) :
    holds after table target condition =
      (holds moved table source condition || holds moved table target condition) := by
  have hrow : ∀ row : Row table, ((Row.rekey source target row).space == target &&
        condition (Row.rekey source target row).columns) =
      ((row.space == source && condition row.columns) ||
        (row.space == target && condition row.columns)) := by
    intro row
    unfold Row.rekey
    split_ifs with hsource
    · simp [hsource]
    · simp [hsource]
  unfold holds
  rw [h, List.any_map]
  induction moved.rows table with
  | nil => rfl
  | cons row rest ih =>
    rw [List.any_cons, List.any_cons, List.any_cons, ih, Function.comp_apply, hrow]
    simp only [Bool.or_assoc, Bool.or_left_comm]

theorem holds_congr (h : moved.rows table = db.rows table) :
    holds moved table source condition = holds db table source condition := by
  unfold holds
  rw [h]

def reasonTables : List ClosureTable :=
  [.genesisGroupCoverage, .genesisCandidates, .genesisFrontier, .genesisCardBinding,
    .genesisSuppression, .genesisQuarantine]

theorem Merged.rekeyed (h : Merged now source target moved after) (htable : table ∈ reasonTables) :
    after.rows table = (moved.rows table).map (Row.rekey source target) := by
  cases table <;> first
    | exact absurd htable (by decide)
    | exact h.rows _ (by decide) (by decide)

theorem hasReason_merged (hsame : ∀ table ∈ reasonTables, moved.rows table = db.rows table)
    (hroots : moved.candidateRoots = db.candidateRoots)
    (hmerg : Merged now source target moved after) : hasReason after target group reason =
      (hasReason db source group reason || hasReason db target group reason) := by
  have hholds : ∀ table ∈ reasonTables, ∀ condition : Columns table → Bool,
      holds after table target condition =
        (holds db table source condition || holds db table target condition) := by
    intro table htable condition
    rw [holds_rekeyed (hmerg.rekeyed htable), holds_congr (hsame table htable),
      holds_congr (hsame table htable)]
  have hafter : after.candidateRoots = db.candidateRoots := by
    rw [hmerg.onlyRows]
    exact hroots
  cases reason with
  | coverage => exact hholds .genesisGroupCoverage (by decide) (· == group)
  | frontier => exact hholds .genesisFrontier (by decide) (· == group)
  | card => exact hholds .genesisCardBinding (by decide) _
  | suppression => exact hholds .genesisSuppression (by decide) _
  | quarantine => exact hholds .genesisQuarantine (by decide) _
  | reservation =>
    unfold hasReason
    dsimp only
    rw [hafter]
    induction db.candidateRoots with
    | nil => rfl
    | cons root rest ih =>
      rw [List.any_cons, List.any_cons, List.any_cons, ih, hholds .genesisCandidates (by decide),
        Bool.and_or_distrib_left]
      simp only [Bool.or_assoc, Bool.or_left_comm]

theorem names_of_holds
    (h : holds db table source condition) : db.names table source := by
  obtain ⟨row, hmem, hrow⟩ := List.any_eq_true.mp h
  rw [Bool.and_eq_true] at hrow
  exact List.any_eq_true.mpr ⟨row, hmem, hrow.1⟩

theorem names_of_hasReason (h : hasReason db source group reason) :
    db.names reason.spaceTable source := by
  cases reason with
  | coverage =>
    have hrow : holds db .genesisGroupCoverage source (· == group) := h
    exact names_of_holds hrow
  | frontier =>
    have hrow : holds db .genesisFrontier source (· == group) := h
    exact names_of_holds hrow
  | card => exact names_of_holds h
  | suppression => exact names_of_holds h
  | quarantine => exact names_of_holds h
  | reservation =>
    obtain ⟨root, -, hroot⟩ := List.any_eq_true.mp h
    rw [Bool.and_eq_true] at hroot
    exact names_of_holds hroot.2

theorem two_le_reasonCount {first second : Reason} (hne : first ≠ second)
    (hfirst : hasReason db source group first)
    (hsec : hasReason db source group second) : 2 ≤ reasonCount db source group := by
  unfold reasonCount
  rw [List.countP_eq_length_filter]
  have hmem : ∀ reason, hasReason db source group reason →
      reason ∈ Reason.all.filter (hasReason db source group) := by
    intro reason h
    rw [List.mem_filter]
    exact ⟨by cases reason <;> decide, h⟩
  have hsub : [first, second] ⊆ Reason.all.filter (hasReason db source group) := by
    intro reason h
    rw [List.mem_cons, List.mem_singleton] at h
    obtain rfl | rfl := h
    · exact hmem _ hfirst
    · exact hmem _ hsec
  have hnodup : [first, second].Nodup := by simp [hne]
  exact (hnodup.subperm hsub).length_le

theorem reasonCount_of_none {first second : String}
    (hmerg : ∀ reason, hasReason after target group reason =
      (hasReason db first group reason || hasReason db second group reason))
    (hnone : ¬ 0 < reasonCount db first group) :
    reasonCount after target group = reasonCount db second group := by
  refine List.countP_congr fun reason _ => ?_
  have hfalse : hasReason db first group reason = false := by
    rw [← Bool.not_eq_true]
    exact fun h => hnone (reasonCount_pos.mpr ⟨reason, h⟩)
  rw [hmerg, hfalse, Bool.false_or]

theorem spaceTable_ne (hmerg : Merged now source target moved after)
    (hsame : ∀ table ∈ reasonTables, moved.rows table = db.rows table)
    {first second : Reason} (hfirst : hasReason db source group first)
    (hsec : hasReason db target group second) : first ≠ second := by
  rintro rfl
  have hnames : ∀ {space : String}, db.names first.spaceTable space →
      moved.names first.spaceTable space := by
    intro space h
    unfold Database.names at h ⊢
    rwa [hsame _ (by cases first <;> decide)]
  refine hmerg.unspliced first.spaceTable (by cases first <;> decide)
    (by cases first <;> decide) ⟨?_, ?_⟩
  · exact hnames (names_of_hasReason hfirst)
  · exact hnames (names_of_hasReason hsec)

theorem mergeAccounted_iff (hsame : ∀ table ∈ reasonTables, moved.rows table = db.rows table)
    (hroots : moved.candidateRoots = db.candidateRoots)
    (hmerg : Merged now source target moved after)
    (hsource : Accounted db source) (htarget : Accounted db target) :
    MergeAccounted db after source target ↔ ¬ SharesGroup db source target := by
  have hreas : ∀ group reason, hasReason after target group reason =
      (hasReason db source group reason || hasReason db target group reason) :=
    fun group reason => hasReason_merged hsame hroots hmerg
  have hreas' : ∀ group reason, hasReason after target group reason =
      (hasReason db target group reason || hasReason db source group reason) :=
    fun group reason => (hreas group reason).trans (Bool.or_comm _ _)
  constructor
  · rintro ⟨hacc, -⟩ ⟨group, hfirst, hsec⟩
    obtain ⟨first, hfirst⟩ := reasonCount_pos.mp hfirst
    obtain ⟨second, hsec⟩ := reasonCount_pos.mp hsec
    have hne := spaceTable_ne hmerg hsame hfirst hsec
    have htwo : 2 ≤ reasonCount after target group :=
      two_le_reasonCount hne (by rw [hreas, hfirst, Bool.true_or])
        (by rw [hreas, hsec, Bool.or_true])
    have hone := hacc group
    omega
  · intro hshar
    refine ⟨fun group => ?_, fun group hpos => ?_⟩
    · by_cases hpos : 0 < reasonCount db source group
      · have hnone : ¬ 0 < reasonCount db target group := fun h => hshar ⟨group, hpos, h⟩
        rw [reasonCount_of_none (hreas' group) hnone]
        exact hsource group
      · rw [reasonCount_of_none (hreas group) hpos]
        exact htarget group
    · obtain ⟨reason, h⟩ := reasonCount_pos.mp hpos
      refine reasonCount_pos.mpr ⟨reason, ?_⟩
      rw [hreas, h, Bool.true_or]

theorem reply_of_merges {operation : SpaceOperation}
    (hmerges : operation.merges = some (source, target)) :
    ∃ reply, operation.reply db after = .ok reply := by
  cases operation with
  | updateSpace => cases hmerges
  | reassignMemoriesSpace => exact ⟨_, rfl⟩
  | deleteSpace => exact ⟨_, rfl⟩

/-- A merge that succeeds keeps the accounting exactly if no group has a live reason in both of
its spaces at one epoch, and one that is refused changes nothing. -/
theorem space_merge_accounting (clock : Clock) {operation : SpaceOperation}
    (hmerges : operation.merges = some (source, target))
    (hsource : Accounted db source) (htarget : Accounted db target) :
    (∀ reply after, operation.exec clock db = (.ok reply, after) →
      (MergeAccounted db after source target ↔ ¬ SharesGroup db source target)) ∧
    ∀ error after, operation.exec clock db = (.error error, after) → after = db := by
  unfold SpaceOperation.exec
  cases htransaction : operation.transaction clock db with
  | error error =>
    refine ⟨fun reply after h => ?_, fun error after h => ?_⟩
    · cases h
    · cases h
      rfl
  | ok result =>
    have hreply : ∃ reply, operation.reply db result = .ok reply := reply_of_merges hmerges
    obtain ⟨answer, hansw⟩ := hreply
    dsimp only
    rw [hansw]
    refine ⟨fun reply after h => ?_, fun error after h => ?_⟩
    · cases h
      obtain ⟨-, moved, merged, hprep, hmerg, hspac⟩ :=
        transaction_merges hmerges htransaction
      have hsame : ∀ table ∈ reasonTables, moved.rows table = db.rows table := by
        intro table htable
        rw [hprep.rehomed.rows table (by cases table <;> revert htable <;> decide)]
      have hroots : moved.candidateRoots = db.candidateRoots := by
        rw [hprep.rehomed.rest]
      have hiff := mergeAccounted_iff hsame hroots hmerg hsource htarget
      have hres : ∀ group reason, hasReason result target group reason =
          hasReason merged target group reason := by
        intro group reason
        rw [hspac]
        cases reason <;> rfl
      have hcount : ∀ group, reasonCount result target group =
          reasonCount merged target group := fun group =>
        List.countP_congr fun reason _ => by rw [hres]
      rw [← hiff]
      constructor
      · rintro ⟨hacc, hkept⟩
        exact ⟨fun group => hcount group ▸ hacc group,
          fun group hpos => hcount group ▸ hkept group hpos⟩
      · rintro ⟨hacc, hkept⟩
        exact ⟨fun group => (hcount group).symm ▸ hacc group,
          fun group hpos => (hcount group).symm ▸ hkept group hpos⟩
    · cases h

def oneGroup : GroupKey := ⟨"group", 1⟩

def groupOnFrontier : Database where
  spaces := [⟨"space-a", "a", none, 0⟩, ⟨"space-b", "b", none, 0⟩]
  memories := []
  pages := []
  annotations := ∅
  entityPageMap := []
  claimPages := []
  provenanceRoots := []
  pageSources := []
  pageEvidence := []
  candidateRoots := []
  rows := Function.update (fun _ => []) .genesisFrontier [⟨"a", oneGroup⟩]

def groupCoveredToo : Database :=
  groupOnFrontier.setRows .genesisGroupCoverage [⟨"b", oneGroup⟩]

theorem hasReason_groupOnFrontier (space : String) (group : GroupKey) (reason : Reason) :
    hasReason groupOnFrontier space group reason =
      (reason == .frontier && "a" == space && oneGroup == group) := by
  cases reason <;> simp [hasReason, holds, groupOnFrontier, Function.update]

theorem hasReason_groupCoveredToo (space : String) (group : GroupKey) (reason : Reason) :
    hasReason groupCoveredToo space group reason = match reason with
      | .frontier => "a" == space && oneGroup == group
      | .coverage => "b" == space && oneGroup == group
      | _ => false := by
  cases reason <;>
    simp [hasReason, holds, groupCoveredToo, groupOnFrontier, Database.setRows, Function.update]

theorem accounted_groupOnFrontier (space : String) : Accounted groupOnFrontier space := by
  intro group
  unfold reasonCount
  simp only [Reason.all, List.countP_cons, List.countP_nil, hasReason_groupOnFrontier]
  cases "a" == space <;> cases oneGroup == group <;> decide

theorem accounted_groupCoveredToo (space : String) : Accounted groupCoveredToo space := by
  have hspac : ("a" == space && "b" == space) = false := by
    rw [← Bool.not_eq_true, Bool.and_eq_true, beq_iff_eq, beq_iff_eq]
    rintro ⟨rfl, h⟩
    exact absurd h (by decide)
  intro group
  unfold reasonCount
  simp only [Reason.all, List.countP_cons, List.countP_nil, hasReason_groupCoveredToo]
  revert hspac
  cases "a" == space <;> cases "b" == space <;> cases oneGroup == group <;> decide

theorem space_merge_accounting_moved : MergeAccounted groupOnFrontier
      ((SpaceOperation.reassignMemoriesSpace "a" "b").exec ⟨0, "", 0⟩ groupOnFrontier).2
      "a" "b" := by
  have hansw : ((SpaceOperation.reassignMemoriesSpace "a" "b").exec ⟨0, "", 0⟩
      groupOnFrontier).1 = .ok (.reassigned 0) := by decide +kernel
  have hunsh : ¬ SharesGroup groupOnFrontier "a" "b" := by
    rintro ⟨group, -, hpos⟩
    obtain ⟨reason, h⟩ := reasonCount_pos.mp hpos
    rw [hasReason_groupOnFrontier] at h
    cases reason <;> simp at h
  have hmerges : (SpaceOperation.reassignMemoriesSpace "a" "b").merges = some ("a", "b") := rfl
  have hmerge := space_merge_accounting ⟨0, "", 0⟩ hmerges (accounted_groupOnFrontier "a")
    (accounted_groupOnFrontier "b")
  exact (hmerge.1 _ _ (Prod.ext hansw rfl)).mpr hunsh

/-- The frontier of one space and the coverage of another are not compared. -/
theorem space_merge_books_twice : Accounted groupCoveredToo "a" ∧ Accounted groupCoveredToo "b" ∧
      ∃ reply after, (SpaceOperation.reassignMemoriesSpace "a" "b").exec ⟨0, "", 0⟩
          groupCoveredToo = (.ok reply, after) ∧ ¬ Accounted after "b" := by
  have hansw : ((SpaceOperation.reassignMemoriesSpace "a" "b").exec ⟨0, "", 0⟩
      groupCoveredToo).1 = .ok (.reassigned 0) := by decide +kernel
  have hcount : reasonCount ((SpaceOperation.reassignMemoriesSpace "a" "b").exec ⟨0, "", 0⟩
      groupCoveredToo).2 "b" oneGroup = 2 := by decide +kernel
  refine ⟨accounted_groupCoveredToo "a", accounted_groupCoveredToo "b", _, _,
    Prod.ext hansw rfl, fun h => ?_⟩
  have htwo : 2 ≤ 1 := hcount.symm.trans_le (h oneGroup)
  omega

end Wenlan.Spaces
