import Wenlan.Claims.Derivation
import Wenlan.Support.KeysetScan
import Wenlan.Support.Transition

/-!
# The support reconcile pass

`reconcile_supported_pages` re-proves the stored `supported` verdicts in bounded batches
behind a durable cursor, `begin_support_reconcile_pass` starts or resumes a pass, and the
activation of a judge starts one over.  A batch is three holds of the connection: it reads
the cursor, it re-proves and demotes, and it writes the cursor back; anything may come in
between.  Beside the tables the state remembers under which ruleset each page was last
re-proved, which is what the cursor is a promise about.
-/

namespace Wenlan.Claims

open Support.Transition
open Support.KeysetScan (scan)

def supportReconcileRulesetVersion : Nat := 2

def supportReconcileRuleset (eligibilityGeneration : Nat) : String :=
  toString supportReconcileRulesetVersion ++ ":" ++ toString extractorVersion ++ ":" ++
    toString eligibilityGeneration

def supportReconcileComplete : String := "complete pass"

/-- Page ids are not empty and never contain a space, so the frontier cannot take one for the
start or for the end of a pass. -/
def IsPageId (id : String) : Prop := id ≠ "" ∧ ' ' ∉ id.toList

theorem supportReconcileRuleset_injective : Function.Injective supportReconcileRuleset := by
  intro g g' h
  have hlist := congrArg String.toList h
  simp only [supportReconcileRuleset, String.toList_append, List.append_cancel_left_eq] at hlist
  have hvalue := congrArg (Nat.ofDigitChars 10 · 0) hlist
  simpa [Nat.toString_eq_repr] using hvalue

theorem IsPageId.ne_complete {id : String} (h : IsPageId id) : id ≠ supportReconcileComplete := by
  rintro rfl
  exact h.2 (by decide)

variable {Score : Type}

/-- `truthIds` are the keys of `page_truth_state`; `frontier` and `ruleset` are the two rows of
`app_metadata`.  `proved` is no column: it remembers the ruleset that each page was last
re-proved under. -/
structure Reconciler (Score : Type) where
  d : Derivation Score
  truthIds : List String
  frontier : Option String
  ruleset : Option String
  proved : String → Option String

/-- The stored verdict that a pass has to re-prove. -/
def Derivation.assertsSupport (d : Derivation Score) (pageId : String) : Bool :=
  (d.truth pageId).any (fun row => row.supportStatus == .supported) &&
    (d.pages pageId).any fun page => page.status == "active" && page.kind != "entity"

def Derivation.truthVersion (d : Derivation Score) (pageId : String) : Int :=
  ((d.truth pageId).map TruthRow.pageVersion).getD 0

namespace Reconciler

/-- What a batch reports. -/
structure SupportReconcilePass where
  demoted : Nat
  complete : Bool

def currentRuleset (r : Reconciler Score) : String :=
  supportReconcileRuleset r.d.lastEligibility

section Batch

variable (evaluate : Derivation Score → String → Int → SupportOutcome)

def batch (r : Reconciler Score) (cursor : String) (budget : Nat) : List String :=
  scan r.d.assertsSupport cursor budget r.truthIds

/-- The pages of a batch whose verdict is no longer earned.  `NoPublish` is a failure here. -/
def failing (r : Reconciler Score) (pages : List String) : List String :=
  pages.filter fun pageId => evaluate r.d pageId (r.d.truthVersion pageId) ≠ .supported

/-- The second hold of the connection: every page of the batch is evaluated, and those that
fail are demoted in one transaction. -/
def reprove (r : Reconciler Score) (pages : List String) (now : Int) : Reconciler Score :=
  let failing := r.failing evaluate pages
  { r with
    d := if failing = [] then r.d
      else demoteSupport r.d failing
        ("the stored support verdict no longer survives re-evaluation; " ++
          "this page needs re-derivation") now
    proved := fun pageId =>
      if pageId ∈ pages ∧ pageId ∉ failing then some r.currentRuleset else r.proved pageId }

/-- What the third hold will write. -/
def advanced (cursor : String) (budget : Nat) (pages : List String) : String :=
  if pages.length < budget then supportReconcileComplete else pages.getLast?.getD cursor

end Batch

/-- `begin_support_reconcile_pass`: resume an unfinished pass of the same ruleset, or start
over. -/
def beginSupportReconcilePass (r : Reconciler Score) : Reconciler Score :=
  if r.frontier.any (fun value => value != supportReconcileComplete) = true ∧
      r.ruleset = some r.currentRuleset then r
  else { r with ruleset := some r.currentRuleset, frontier := some "" }

section Activate

variable [DecidableEq Score]

/-- The exact row is no longer the active approved judge. -/
def judgeRefuses (r : Reconciler Score) (threshold : Score) : Bool :=
  (r.d.judges.find? JudgeRow.isProduction).any fun row =>
    row.state != .active || decide (row.threshold ≠ threshold)

def judgeSettled (r : Reconciler Score) : Bool :=
  r.d.judges.any JudgeRow.isProduction &&
    !r.d.judges.any fun row => row.state == .active && !row.isProduction

/-- `activate_approved_m5_claim_judge`; `approved` is the comparison of the snapshot with the
compiled approval. -/
def activateApprovedM5ClaimJudge (r : Reconciler Score) (approved : Bool) (threshold : Score)
    (now : Int) : Bool × Reconciler Score :=
  if approved = false then (false, r)
  else if r.judgeRefuses threshold then (false, r)
  else if r.judgeSettled then (true, r)
  else
    let d := activateJudge r.d threshold r.truthIds now
    (true, { r with
        d := d
        ruleset := some (supportReconcileRuleset d.lastEligibility)
        frontier := some "" })

end Activate

end Reconciler

/-- Where a batch stands between two holds of the connection.  `readUnder` is the ruleset
that was recorded when it read its cursor; the code does not keep it. -/
inductive BatchTask where
  | idle
  | scanning (budget : Nat) (cursor : String) (readUnder : Option String)
  | writing (advanced : String) (pass : Reconciler.SupportReconcilePass)
      (readUnder : Option String)
  | done (pass : Reconciler.SupportReconcilePass)
  | lost

inductive ReconcileStep (Score : Type) where
  | readFrontier (budget : Nat)
  | reprove (now : Int)
  | writeFrontier
  | stop
  | begin
  | activate (approved : Bool) (threshold : Score) (now : Int)

/-- The tables and the batches of any number of callers. -/
structure Reconciling (P Score : Type) where
  r : Reconciler Score
  task : P → BatchTask

namespace Reconciling

variable {P : Type} [DecidableEq P] [DecidableEq Score]
  (evaluate : Derivation Score → String → Int → SupportOutcome)

/-- One hold of the connection by `p`; `begin` and `activate` are a hold each, whoever calls
them. -/
def next (s : Reconciling P Score) : P × ReconcileStep Score → Option (Reconciling P Score)
  | (p, .readFrontier budget) =>
    match s.task p with
    | .idle =>
      let cursor := s.r.frontier.getD ""
      let task := if cursor = supportReconcileComplete then .done ⟨0, true⟩
        else .scanning (max budget 1) cursor s.r.ruleset
      some { s with task := Function.update s.task p task }
    | _ => none
  | (p, .reprove now) =>
    match s.task p with
    | .scanning budget cursor readUnder =>
      let pages := s.r.batch cursor budget
      let pass := ⟨(s.r.failing evaluate pages).length, decide (pages.length < budget)⟩
      let advanced := Reconciler.advanced cursor budget pages
      some { r := s.r.reprove evaluate pages now
             task := Function.update s.task p (.writing advanced pass readUnder) }
    | _ => none
  | (p, .writeFrontier) =>
    match s.task p with
    | .writing advanced pass _ =>
      some { r := { s.r with frontier := some advanced }
             task := Function.update s.task p (.done pass) }
    | _ => none
  | (p, .stop) => some { s with task := Function.update s.task p .lost }
  | (_, .begin) => some { s with r := s.r.beginSupportReconcilePass }
  | (_, .activate approved threshold now) =>
    some { s with r := (s.r.activateApprovedM5ClaimJudge approved threshold now).2 }

def Step (s : Reconciling P Score) (action : P × ReconcileStep Score)
    (t : Reconciling P Score) : Prop :=
  next evaluate s action = some t

/-- Every supported page within the reach of `cursor` was re-proved under `ruleset`.  The
empty cursor reaches nothing, and that of a finished pass everything. -/
def Covered (r : Reconciler Score) (cursor : String) (ruleset : Option String) : Prop :=
  ∀ pageId ∈ r.truthIds, r.d.assertsSupport pageId = true →
    (cursor = supportReconcileComplete ∨ pageId ≤ cursor) → r.proved pageId = ruleset

/-- The cursor never runs ahead of the judge: what it covers was re-proved under the ruleset
that is recorded. -/
def Earned (s : Reconciling P Score) : Prop :=
  ∀ cursor, s.r.frontier = some cursor → Covered s.r cursor s.r.ruleset

/-- No batch is under way. -/
def Idle (s : Reconciling P Score) : Prop :=
  ∀ p, s.task p = .idle

/-- A batch writes its cursor back only while the ruleset is recorded that was recorded when
it read its cursor. -/
def Fresh (s : Reconciling P Score) (action : P × ReconcileStep Score) : Prop :=
  action.2 = .writeFrontier → ∀ advanced pass readUnder,
    s.task action.1 = .writing advanced pass readUnder → readUnder = s.r.ruleset

section Promise

variable {r : Reconciler Score} {cursor : String} {ruleset : Option String}

omit [DecidableEq Score] in
theorem assertsSupport_demoteSupport (d : Derivation Score) (pages : List String)
    (reason : String) (now : Int) (pageId : String) :
    (demoteSupport d pages reason now).assertsSupport pageId =
      (d.assertsSupport pageId && !decide (pageId ∈ pages)) := by
  unfold Derivation.assertsSupport demoteSupport demote
  cases htruth : d.truth pageId with
  | none => simp [htruth]
  | some row =>
    by_cases hmem : pageId ∈ pages
    · cases hstat : row.supportStatus <;> simp [htruth, hmem, hstat]
    · simp [htruth, hmem]

omit [DecidableEq Score] in
theorem covered_start (hids : ∀ pageId ∈ r.truthIds, IsPageId pageId) : Covered r "" ruleset := by
  intro pageId hmem _ hreach
  rcases hreach with hcomp | hle
  · exact absurd hcomp (by decide)
  · rw [String.le_iff_toList_le, String.toList_empty] at hle
    cases hchars : pageId.toList with
    | nil => exact absurd (String.toList_eq_nil_iff.mp hchars) (hids pageId hmem).1
    | cons c rest =>
      rw [hchars] at hle
      exact absurd (List.nil_lt_cons c rest) (not_lt_of_ge hle)

omit [DecidableEq Score] in
theorem assertsSupport_reprove (pages : List String) (now : Int) (pageId : String) :
    (r.reprove evaluate pages now).d.assertsSupport pageId =
      (r.d.assertsSupport pageId && !decide (pageId ∈ r.failing evaluate pages)) := by
  unfold Reconciler.reprove
  by_cases hfailing : r.failing evaluate pages = []
  · simp [hfailing]
  · simp only [hfailing, if_false]
    exact assertsSupport_demoteSupport _ _ _ _ _

omit [DecidableEq Score] in
theorem Covered.reprove (h : Covered r cursor (some r.currentRuleset)) (pages : List String)
    (now : Int) : Covered (r.reprove evaluate pages now) cursor (some r.currentRuleset) := by
  intro pageId hmem hass hreach
  rw [assertsSupport_reprove, Bool.and_eq_true] at hass
  have hprov := h pageId hmem hass.1 hreach
  unfold Reconciler.reprove
  dsimp only
  split
  · rfl
  · exact hprov

omit [DecidableEq Score] in
theorem Covered.advanced (hids : ∀ pageId ∈ r.truthIds, IsPageId pageId)
    (h : Covered r cursor (some r.currentRuleset)) {budget : Nat} (hbudg : 0 < budget)
    (now : Int) :
    Covered (r.reprove evaluate (r.batch cursor budget) now)
      (Reconciler.advanced cursor budget (r.batch cursor budget)) (some r.currentRuleset) := by
  intro pageId hmem hass hreach
  have hass' := hass
  rw [assertsSupport_reprove, Bool.and_eq_true, Bool.not_eq_true', decide_eq_false_iff_not] at hass'
  by_cases habove : cursor < pageId
  · -- the batch has no hole up to its last page
    have hbatch : pageId ∈ r.batch cursor budget := by
      by_cases hshort : (r.batch cursor budget).length < budget
      · exact Wenlan.Support.KeysetScan.mem_scan_of_short hshort ⟨hmem, hass'.1, habove⟩
      · rw [Reconciler.advanced, if_neg hshort] at hreach
        cases hlast : (r.batch cursor budget).getLast? with
        | none =>
          rw [List.getLast?_eq_none_iff] at hlast
          simp only [hlast, List.length_nil] at hshort
          omega
        | some last =>
          have hlastm := List.mem_of_getLast? hlast
          have hlasti := hids last (Wenlan.Support.KeysetScan.of_mem_scan hlastm).1
          rw [hlast, Option.getD_some] at hreach
          rcases hreach with hcomp | hle
          · exact absurd hcomp hlasti.ne_complete
          · exact Wenlan.Support.KeysetScan.mem_scan_of_le_last hlast hle
              ⟨hmem, hass'.1, habove⟩
    unfold Reconciler.reprove
    simp [hbatch, hass'.2]
  · have hle : pageId ≤ cursor := not_lt.mp habove
    exact Covered.reprove evaluate h _ now pageId hmem hass (Or.inr hle)

end Promise

omit [DecidableEq Score] in
theorem reprove_lastEligibility (r : Reconciler Score) (pages : List String) (now : Int) :
    (r.reprove evaluate pages now).d.lastEligibility = r.d.lastEligibility := by
  unfold Reconciler.reprove
  dsimp only
  split <;> rfl

/-! ## The invariant -/

def readUnder? : BatchTask → Option (Option String)
  | .scanning _ _ readUnder => some readUnder
  | .writing _ _ readUnder => some readUnder
  | _ => none

/-- The cursor a batch carries: the one it read, and then the one it will write. -/
def carried? : BatchTask → Option String
  | .scanning _ cursor _ => some cursor
  | .writing advanced _ _ => some advanced
  | _ => none

structure Inv (s : Reconciling P Score) : Prop where
  ids : ∀ pageId ∈ s.r.truthIds, IsPageId pageId
  recorded : s.r.ruleset = some s.r.currentRuleset
  earned : Earned s
  budget : ∀ p budget cursor readUnder, s.task p = .scanning budget cursor readUnder → 0 < budget
  /-- A batch whose ruleset is still recorded carries a cursor that is earned. -/
  carried : ∀ p cursor, carried? (s.task p) = some cursor →
    readUnder? (s.task p) = some s.r.ruleset → Covered s.r cursor s.r.ruleset
  /-- No batch knows a ruleset that is still to come. -/
  past : ∀ p ruleset, readUnder? (s.task p) = some (some ruleset) →
    ∃ generation ≤ s.r.d.lastEligibility, ruleset = supportReconcileRuleset generation

omit [DecidableEq P] [DecidableEq Score] in
theorem Inv.begin {s : Reconciling P Score} (h : Inv s) :
    Inv { s with r := s.r.beginSupportReconcilePass } := by
  have hrul : s.r.beginSupportReconcilePass.ruleset = s.r.ruleset := by
    rw [h.recorded]
    unfold Reconciler.beginSupportReconcilePass
    split
    · exact h.recorded
    · rfl
  unfold Reconciler.beginSupportReconcilePass at hrul ⊢
  split at hrul
  · rename_i hkept
    rw [if_pos hkept]
    exact h
  · rename_i hreset
    rw [if_neg hreset]
    refine ⟨h.ids, rfl, ?_, h.budget, ?_, h.past⟩
    · intro cursor hcursor
      cases hcursor
      exact covered_start h.ids
    · intro p cursor hcar hread
      rw [← h.recorded] at hread ⊢
      exact h.carried p cursor hcar hread

omit [DecidableEq P] in
theorem Inv.activate {s : Reconciling P Score} (h : Inv s) (approved : Bool) (threshold : Score)
    (now : Int) :
    Inv { s with r := (s.r.activateApprovedM5ClaimJudge approved threshold now).2 } := by
  unfold Reconciler.activateApprovedM5ClaimJudge
  split
  · exact h
  · split
    · exact h
    · split
      · exact h
      · -- a new generation: its ruleset is one that no batch has read under
        refine ⟨h.ids, rfl, ?_, h.budget, ?_, ?_⟩
        · intro cursor hcursor
          cases hcursor
          exact covered_start h.ids
        · intro p cursor _ hread
          obtain ⟨generation, hle, heq⟩ := h.past p _ hread
          have := supportReconcileRuleset_injective heq
          simp only [activateJudge] at this
          omega
        · intro p ruleset hread
          obtain ⟨generation, hle, heq⟩ := h.past p ruleset hread
          exact ⟨generation, by simp only [activateJudge]; omega, heq⟩

omit [DecidableEq Score] in
/-- A step of `p` that leaves the recorded ruleset and the generation alone: what the others
carry stays earned if the step keeps what is covered, and `p` answers for its own task. -/
theorem Inv.update {s : Reconciling P Score} (h : Inv s) {r : Reconciler Score} {p : P}
    {task : BatchTask} (hids : r.truthIds = s.r.truthIds) (hrul : r.ruleset = s.r.ruleset)
    (hgen : r.d.lastEligibility = s.r.d.lastEligibility)
    (hcov : ∀ cursor, Covered s.r cursor s.r.ruleset → Covered r cursor r.ruleset)
    (hearned : ∀ cursor, r.frontier = some cursor → Covered r cursor r.ruleset)
    (hbudg : ∀ budget cursor readUnder, task = .scanning budget cursor readUnder → 0 < budget)
    (hcar : ∀ cursor, carried? task = some cursor → readUnder? task = some r.ruleset →
      Covered r cursor r.ruleset) (hpast : ∀ ruleset, readUnder? task = some (some ruleset) →
      ∃ generation ≤ s.r.d.lastEligibility, ruleset = supportReconcileRuleset generation) :
    Inv { r := r, task := Function.update s.task p task } := by
  refine ⟨by rw [hids]; exact h.ids, ?_, hearned, ?_, ?_, ?_⟩
  · rw [hrul, h.recorded, Reconciler.currentRuleset, Reconciler.currentRuleset, hgen]
  · intro q budget cursor readUnder hq
    dsimp only at hq
    by_cases hqp : q = p
    · rw [hqp, Function.update_self] at hq
      exact hbudg budget cursor readUnder hq
    · rw [Function.update_of_ne hqp] at hq
      exact h.budget q budget cursor readUnder hq
  · intro q cursor hq hread
    dsimp only at hq hread
    by_cases hqp : q = p
    · rw [hqp, Function.update_self] at hq hread
      exact hcar cursor hq hread
    · rw [Function.update_of_ne hqp] at hq hread
      rw [hrul] at hread
      exact hcov cursor (h.carried q cursor hq hread)
  · intro q ruleset hread
    dsimp only at hread
    rw [hgen]
    by_cases hqp : q = p
    · rw [hqp, Function.update_self] at hread
      exact hpast ruleset hread
    · rw [Function.update_of_ne hqp] at hread
      exact h.past q ruleset hread

theorem Inv.step {s t : Reconciling P Score} {action : P × ReconcileStep Score} (h : Inv s)
    (hfresh : Fresh s action) (hstep : Step evaluate s action t) : Inv t := by
  obtain ⟨p, act⟩ := action
  cases act with
  | readFrontier budget =>
    cases htask : s.task p <;>
      simp [Step, next, htask] at hstep
    subst hstep
    refine h.update rfl rfl rfl (fun _ hcov => hcov) h.earned ?_ ?_ ?_
    · intro budget' cursor readUnder
      split <;> simp +contextual
      omega
    · intro cursor hcar _
      split at hcar <;> simp [carried?] at hcar
      rw [← hcar]
      cases hfront : s.r.frontier with
      | none => exact covered_start h.ids
      | some frontier => exact h.earned frontier hfront
    · intro ruleset hread
      split at hread <;> simp [readUnder?] at hread
      rw [h.recorded, Option.some.injEq] at hread
      exact ⟨_, le_rfl, hread.symm⟩
  | reprove now =>
    cases htask : s.task p <;>
      simp [Step, next, htask] at hstep
    rename_i budget cursor readUnder
    subst hstep
    have hkept : ∀ other, Covered s.r other s.r.ruleset →
        Covered (s.r.reprove evaluate (s.r.batch cursor budget) now) other s.r.ruleset := by
      intro other hcov
      rw [h.recorded] at hcov ⊢
      exact hcov.reprove evaluate _ now
    refine h.update rfl rfl (reprove_lastEligibility evaluate _ _ _) hkept
      (fun other hother => hkept other (h.earned other hother)) (by simp) ?_ ?_
    · intro other hother hread
      cases hother
      have hcov := h.carried p cursor (by rw [htask]; rfl) (by rw [htask]; exact hread)
      have hbudg := h.budget p _ _ _ htask
      change Covered _ _ s.r.ruleset
      rw [h.recorded] at hcov ⊢
      exact hcov.advanced evaluate h.ids hbudg now
    · intro ruleset hread
      exact h.past p ruleset (by rw [htask]; exact hread)
  | writeFrontier =>
    cases htask : s.task p <;>
      simp [Step, next, htask] at hstep
    rename_i advanced pass readUnder
    subst hstep
    refine h.update rfl rfl rfl (fun _ hcov => hcov) ?_ (by simp) (by simp [carried?])
      (by simp [readUnder?])
    intro cursor hcursor
    cases hcursor
    have hread := hfresh rfl _ _ _ htask
    exact h.carried p _ (by rw [htask]; rfl) (by rw [htask, readUnder?, hread])
  | stop =>
    cases hstep
    exact h.update rfl rfl rfl (fun _ hcov => hcov) h.earned (by simp)
      (by simp [carried?]) (by simp [readUnder?])
  | begin =>
    cases hstep
    exact h.begin
  | activate approved threshold now =>
    cases hstep
    exact h.activate approved threshold now

theorem Inv.opened {s t : Reconciling P Score} {p : P}
    (hids : ∀ pageId ∈ s.r.truthIds, IsPageId pageId) (hidle : Idle s) (hearned : Earned s)
    (hopen : Step evaluate s (p, .begin) t) : Inv t := by
  cases hopen
  have hrul : s.r.beginSupportReconcilePass.ruleset =
      some s.r.beginSupportReconcilePass.currentRuleset := by
    unfold Reconciler.beginSupportReconcilePass
    split
    · rename_i hkept
      exact hkept.2
    · rfl
  have hstart : Earned { s with r := s.r.beginSupportReconcilePass } := by
    unfold Reconciler.beginSupportReconcilePass
    split
    · exact hearned
    · intro cursor hcursor
      cases hcursor
      exact covered_start hids
  refine ⟨?_, hrul, hstart, ?_, ?_, ?_⟩
  · unfold Reconciler.beginSupportReconcilePass
    split <;> exact hids
  · simp [hidle _]
  · simp [hidle _, carried?]
  · simp [hidle _, readUnder?]

/-- The cursor never runs ahead of the judge in a run in which no batch writes its cursor back
after the recorded ruleset has changed since it read that cursor. -/
theorem reconcile_cursor_earned {start opened s : Reconciling P Score} {p : P}
    {steps : List (P × ReconcileStep Score)}
    (hids : ∀ pageId ∈ start.r.truthIds, IsPageId pageId) (hidle : Idle start)
    (hearned : Earned start) (hopen : Step evaluate start (p, .begin) opened)
    (hrun : Run (Restrict (Step evaluate) Fresh) opened steps s) : Earned s := by
  have hinv : Inv s :=
    hrun.invariant (fun _ _ _ h hstep => h.step evaluate hstep.1 hstep.2)
      (Inv.opened evaluate hids hidle hearned hopen)
  exact hinv.earned

end Reconciling

namespace Reconciling

/-- One supported page and no pass yet. -/
def unopened : Reconciling (Fin 2) Nat where
  r :=
    { d :=
        { support := ⟨fun _ => none, fun _ => none, fun _ => none, [], fun _ => none,
            fun _ => none, [], [], fun _ => none⟩
          pages := fun _ => some ⟨1, "Birds fly.", "active", "concept"⟩
          history := fun _ _ => none, jobs := [], lastGeneration := 0, judges := []
          lastEligibility := 0
          truth := fun _ => some ⟨1, .supported, none, some 0, false, none, 0⟩
          markers := [], attempts := [], seals := [] }
      truthIds := ["page_a"]
      frontier := none, ruleset := none, proved := fun _ => none }
  task := fun _ => .idle

def firstJudgeOnly (d : Derivation Nat) (_ : String) (_ : Int) : SupportOutcome :=
  if d.lastEligibility = 0 then .supported else .unevaluated "no eligible judge"

def unopenedOpened : Reconciling (Fin 2) Nat :=
  { unopened with r := unopened.r.beginSupportReconcilePass }

theorem unopened_start : (∀ pageId ∈ unopened.r.truthIds, IsPageId pageId) ∧ Idle unopened ∧
    Earned unopened ∧ Step firstJudgeOnly unopened (0, .begin) unopenedOpened := by
  refine ⟨?_, fun _ => rfl, ?_, rfl⟩
  · intro pageId hmem
    obtain rfl := List.mem_singleton.mp hmem
    exact ⟨by decide, by decide⟩
  · intro cursor hcursor
    simp [unopened] at hcursor

def nextFresh (s : Reconciling (Fin 2) Nat) (action : Fin 2 × ReconcileStep Nat) :
    Option (Reconciling (Fin 2) Nat) :=
  match action.2, s.task action.1 with
  | .writeFrontier, .writing _ _ readUnder =>
    if readUnder = s.r.ruleset then next firstJudgeOnly s action else none
  | _, _ => next firstJudgeOnly s action

theorem restrict_of_nextFresh (s : Reconciling (Fin 2) Nat) (action : Fin 2 × ReconcileStep Nat)
    (t : Reconciling (Fin 2) Nat) (h : nextFresh s action = some t) :
    Restrict (Step firstJudgeOnly) Fresh s action t := by
  unfold nextFresh at h
  split at h
  · rename_i hact htask
    rw [Option.ite_none_right_eq_some] at h
    refine ⟨fun _ _ _ _ htask' => ?_, h.2⟩
    rw [htask] at htask'
    injection htask' with _ _ hread
    rw [← hread, h.1]
  · rename_i hother
    exact ⟨fun hact advanced pass readUnder htask => (hother _ _ _ hact htask).elim, h⟩

theorem reconcile_cursor_earned_batch :
    ∃ s : Reconciling (Fin 2) Nat, s.r.frontier = some "page_a" ∧ Earned s := by
  obtain ⟨hids, hidle, hearned, hopen⟩ := unopened_start
  have hrun : ([(0, .readFrontier 1), (0, .reprove 0), (0, .writeFrontier)].foldlM nextFresh
      unopenedOpened).any (fun s => s.r.frontier = some "page_a") = true := by
    decide +kernel
  obtain ⟨s, hs, hfront⟩ := Run.of_foldlM_any restrict_of_nextFresh hrun
  exact ⟨s, hfront, reconcile_cursor_earned firstJudgeOnly hids hidle hearned hopen hs⟩

/-- Without that condition a reset is lost: a batch re-proves a page under one judge, another
judge is activated, and the batch then puts the cursor past the page. -/
theorem activation_reset_is_lost : ¬ ∀ (start opened s : Reconciling (Fin 2) Nat)
      (steps : List (Fin 2 × ReconcileStep Nat)),
      (∀ pageId ∈ start.r.truthIds, IsPageId pageId) → Idle start → Earned start →
      Step firstJudgeOnly start (0, .begin) opened →
      Run (Step firstJudgeOnly) opened steps s → Earned s := by
  intro hall
  obtain ⟨hids, hidle, hearned, hopen⟩ := unopened_start
  have hrun : ([(0, .readFrontier 1), (0, .reprove 0), (1, .activate true 75 0),
      (0, .writeFrontier)].foldlM (next firstJudgeOnly) unopenedOpened).any (fun s =>
        s.r.frontier = some "page_a" ∧ s.r.ruleset = some (supportReconcileRuleset 1) ∧
          s.r.proved "page_a" = some (supportReconcileRuleset 0) ∧
          "page_a" ∈ s.r.truthIds ∧ s.r.d.assertsSupport "page_a" = true) = true := by
    decide +kernel
  obtain ⟨s, hs, hfront, hrul, hprov, hmem, hass⟩ :=
    Run.of_foldlM_any (fun _ _ _ h => h) hrun
  have hcov := hall unopened unopenedOpened s _ hids hidle hearned hopen hs _ hfront
  have heq := hcov "page_a" hmem hass (Or.inr le_rfl)
  rw [hprov, hrul, Option.some.injEq] at heq
  exact absurd (supportReconcileRuleset_injective heq) (by decide)

end Reconciling

end Wenlan.Claims
