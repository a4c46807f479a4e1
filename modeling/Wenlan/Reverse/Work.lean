import Wenlan.Reverse.Link

/-!
# The driver and the task of a request

A task reports nothing about a body unless it holds a credit, and the driver hands out a
credit only when the last one is spent.  So a command, a read and an unhandled report
about the body never exist together.
-/

namespace Wenlan.Reverse

open List

open Desktop (Phase Stage Task TaskEvent)

def Desktop.TaskEvent.aboutBody : TaskEvent → Bool
  | .chunk .. | .end_ .. => true
  | .headers .. | .failure .. => false

def Desktop.TaskEvent.announcesBody : TaskEvent → Bool
  | .headers _ _ _ _ bodyAllowed => bodyAllowed
  | .chunk .. | .end_ .. | .failure .. => false

def Desktop.TaskEvent.isHeaders : TaskEvent → Bool
  | .headers .. => true
  | .chunk .. | .end_ .. | .failure .. => false

def NoReport (events : List TaskEvent) : Prop :=
  ∀ event ∈ events, event.aboutBody = false

/-- Nothing of a credit is left: no command, no read, no report about the body. -/
structure Spent (task : Task) (events : List TaskEvent) : Prop where
  command : task.command = none
  stage : task.stage ≠ .reading
  events : NoReport events

def Announcing (stage : Stage) : Prop := stage ≠ .requesting ∧ stage ≠ .bodiless

/-- Where the credit of the driver is. -/
inductive Holds (task : Task) (events : List TaskEvent) : Prop
  | spent (h : Spent task events)
  | command (hstage : task.stage ≠ .reading) (hevents : NoReport events)
  | reading (hcommand : task.command = none) (hevents : NoReport events)
  | report (before after : List TaskEvent) (event : TaskEvent)
      (hcommand : task.command = none) (hstage : task.stage ≠ .reading)
      (hevents : events = before ++ event :: after) (hbefore : NoReport before)
      (hafter : NoReport after)

/-- What a pending entry of the driver says about its task. -/
def WorksFor (task : Task) (events : List TaskEvent) : Phase → Prop
  | .awaitingHeaders =>
    task.command = none ∧ task.stage ≠ .reading ∧ (task.stage = .requesting →
        NoReport events ∧ ∀ event ∈ events, event.isHeaders = false) ∧
      ((∃ event ∈ events, event.announcesBody = true) → NoReport events ∧ Announcing task.stage)
  | .waitingCredit => Spent task events ∧ Announcing task.stage
  | .creditInFlight => Holds task events ∧ Announcing task.stage
  | .noBody => False

/-- The task side of an exchange, while the driver runs. -/
structure Works (x : Exchange) : Prop where
  idle : x.task = none → x.events = [] ∧ x.unread = x.produced
  spawned : x.desktop = none → x.desktopRetired = false → x.task = none
  tagged : ∀ task, x.task = some task → ∀ event ∈ x.events, event.tag = task.tag
  pending : ∀ p, x.desktop = some p →
    ∃ task, x.task = some task ∧ task.tag = p.tag ∧ WorksFor task x.events p.phase

section Events

variable {task : Task} {events rest : List TaskEvent} {event : TaskEvent}

theorem NoReport.tail (h : NoReport (event :: rest)) : NoReport rest :=
  fun e hmem => h e (mem_cons_of_mem _ hmem)

theorem NoReport.push (h : NoReport events) (hevent : event.aboutBody = false) :
    NoReport (events ++ [event]) := by
  intro e hmem
  rcases mem_append.mp hmem with hmem | hmem
  · exact h e hmem
  · rw [mem_singleton.mp hmem]
    exact hevent

theorem noReport_nil : NoReport [] := forall_mem_nil _

theorem Holds.tail_of_report (h : Holds task (event :: rest)) (hevent : event.aboutBody) :
    Spent task rest := by
  have hfirst : ¬NoReport (event :: rest) := fun hnone =>
    absurd (hnone event mem_cons_self) (by simp [hevent])
  cases h with
  | spent h => exact absurd h.events hfirst
  | command _ hevents | reading _ hevents => exact absurd hevents hfirst
  | report before after reported hcommand hstage hevents hbefore hafter =>
    cases before with
    | nil =>
      obtain ⟨-, rfl⟩ := cons.inj hevents
      exact ⟨hcommand, hstage, hafter⟩
    | cons first before =>
      obtain ⟨rfl, -⟩ := cons.inj hevents
      exact absurd (hbefore _ mem_cons_self) (by simp [hevent])

theorem Holds.push {task' : Task} (h : Holds task events) (hevent : event.aboutBody = false)
    (hcommand : task'.command = task.command) (hstage : task'.stage ≠ .reading) :
    Holds task' (events ++ [event]) := by
  cases h with
  | spent h => exact .spent ⟨hcommand.trans h.command, hstage, h.events.push hevent⟩
  | command _ hevents => exact .command hstage (hevents.push hevent)
  | reading hnone hevents =>
    exact .spent ⟨hcommand.trans hnone, hstage, hevents.push hevent⟩
  | report before after reported hnone _ hevents hbefore hafter =>
    refine .report before (after ++ [event]) reported (hcommand.trans hnone) hstage ?_ hbefore
      (hafter.push hevent)
    rw [hevents, append_assoc, cons_append]

theorem Holds.broken {task' : Task} (h : Holds task events)
    (hcommand : task'.command = task.command ∨ task'.command = none)
    (hstage : task'.stage ≠ .reading) : Holds task' events := by
  have hnone : task.command = none → task'.command = none := by
    intro hnone
    rcases hcommand with hsame | hdropped
    · rw [hsame, hnone]
    · exact hdropped
  cases h with
  | spent h => exact .spent ⟨hnone h.command, hstage, h.events⟩
  | command _ hevents => exact .command hstage hevents
  | reading hcommand hevents => exact .spent ⟨hnone hcommand, hstage, hevents⟩
  | report before after reported hcommand _ hevents hbefore hafter =>
    exact .report before after reported (hnone hcommand) hstage hevents hbefore hafter

theorem Holds.of_reading (h : Holds task events) (hstage : task.stage = .reading) :
    task.command = none ∧ NoReport events := by
  cases h with
  | spent h => exact absurd hstage h.stage
  | command hnot _ | report _ _ _ _ hnot => exact absurd hstage hnot
  | reading hcommand hevents => exact ⟨hcommand, hevents⟩

theorem Holds.of_command (h : Holds task events) (hcommand : task.command.isSome) :
    NoReport events := by
  have hsome : task.command ≠ none := fun hnone => by simp [hnone] at hcommand
  cases h with
  | spent h => exact absurd h.command hsome
  | command _ hevents => exact hevents
  | reading hnone _ | report _ _ _ hnone => exact absurd hnone hsome

end Events

/-! ## Moves -/

section Moves

variable {x : Exchange} {task task' : Task} {events : List TaskEvent} {unread : List UInt8}

theorem works_task (h : Works x) (htask : x.task = some task) (htag : task'.tag = task.tag)
    (htags : ∀ event ∈ events, event.tag = task.tag)
    (hphase : ∀ phase, WorksFor task x.events phase → WorksFor task' events phase) :
    Works { x with task := some task', events := events, unread := unread } := by
  constructor
  · exact nofun
  · intro hdesk hretired
    have hnone := h.spawned hdesk hretired
    rw [htask] at hnone
    cases hnone
  · intro task'' htask'' event hmem
    cases htask''
    rw [htag]
    exact htags event hmem
  · intro p hp
    obtain ⟨before, hbefore, hsame, hworks⟩ := h.pending p hp
    obtain rfl := Option.mem_unique htask hbefore
    exact ⟨task', rfl, htag.trans hsame, hphase _ hworks⟩

theorem works_push (h : Works x) (htask : x.task = some task) {event : TaskEvent}
    (hevent : event.tag = task.tag) : ∀ e ∈ x.events ++ [event], e.tag = task.tag := by
  intro e hmem
  rcases mem_append.mp hmem with hmem | hmem
  · exact h.tagged task htask e hmem
  · rw [mem_singleton.mp hmem]
    exact hevent

theorem works_current (h : Works x) {event : TaskEvent} {rest : List TaskEvent}
    (hevents : x.events = event :: rest) {p : Desktop.Pending} (hp : x.desktop = some p) :
    p.tag = event.tag := by
  obtain ⟨task, htask, htag, -⟩ := h.pending p hp
  rw [← htag]
  exact (h.tagged task htask event (hevents ▸ mem_cons_self)).symm

variable {told : List Told}

theorem works_retire (h : Works x) {rest : List TaskEvent}
    (hevents : x.events = rest ∨ ∃ event, x.events = event :: rest) {asked : List Asked} :
    Works { x with
      asked := asked
      told := told
      events := rest
      desktop := none
      desktopRetired := true } := by
  constructor
  · intro hnone
    have hidle := h.idle hnone
    refine ⟨?_, hidle.2⟩
    rcases hevents with hevents | ⟨event, hevents⟩
    · exact hevents.symm.trans hidle.1
    · cases hevents.symm.trans hidle.1
  · exact nofun
  · intro task htask event hmem
    refine h.tagged task htask event ?_
    rcases hevents with hevents | ⟨first, hevents⟩
    · exact hevents ▸ hmem
    · exact hevents ▸ mem_cons_of_mem _ hmem
  · exact nofun

theorem works_advance (h : Works x) {event : TaskEvent} {rest : List TaskEvent}
    (hevents : x.events = event :: rest) {p q : Desktop.Pending} (hp : x.desktop = some p)
    (htag : q.tag = p.tag)
    (hphase : ∀ task, WorksFor task x.events p.phase → WorksFor task rest q.phase) :
    Works { x with told := told, events := rest, desktop := some q } := by
  obtain ⟨task, htask, hsame, hworks⟩ := h.pending p hp
  constructor
  · intro hnone
    rw [htask] at hnone
    cases hnone
  · exact nofun
  · intro task htask event hmem
    exact h.tagged task htask event (hevents ▸ mem_cons_of_mem _ hmem)
  · intro q' hq
    cases hq
    exact ⟨task, htask, hsame.trans htag.symm, hphase task hworks⟩

end Moves

theorem works_move {x y : Exchange} (hmove : Move x y) (hended : y.ended = false)
    (hends : Ends x) (h : Works x) : Works y := by
  cases hmove with
  | lost hlost =>
    rw [hlost.rest]
    exact ⟨h.idle, h.spawned, h.tagged, h.pending⟩
  | halted hhalted => exact nomatch hended.symm.trans hhalted.ended
  | accepted tag hrunning hasked hdesk =>
    have hacc := hends.desktopAccepts hrunning
    rw [hasked] at hacc
    have hnone := h.spawned hdesk hacc.2.1
    have hevents := (h.idle hnone).1
    constructor
    · exact nofun
    · exact nofun
    · intro task htask event hmem
      rw [hevents] at hmem
      cases hmem
    · intro p hp
      cases hp
      refine ⟨_, rfl, rfl, rfl, by simp [Desktop.Task.spawn], ?_, ?_⟩
      · intro _
        rw [hevents]
        exact ⟨noReport_nil, forall_mem_nil _⟩
      · rintro ⟨event, hmem, -⟩
        rw [hevents] at hmem
        cases hmem
  | overloaded _ _ hdesk =>
    refine ⟨h.idle, nofun, h.tagged, ?_⟩
    intro p hp
    cases hdesk.symm.trans hp
  | credited _ hasked hdesk hphase hseq htask =>
    obtain ⟨task, htask', htag, hworks⟩ := h.pending _ hdesk
    obtain rfl := Option.mem_unique htask htask'
    rw [hphase] at hworks
    constructor
    · exact nofun
    · exact nofun
    · intro task' htask'' event hmem
      cases htask''
      exact h.tagged _ htask event hmem
    · intro p hp
      cases hp
      exact ⟨_, rfl, htag, .command hworks.1.stage hworks.1.events, hworks.2⟩
  | revoked => exact works_retire h (.inl rfl)
  | stale _ hevents hstale =>
    have hnone : x.desktop = none := by
      cases hp : x.desktop with
      | none => rfl
      | some p => exact absurd (works_current h hevents hp) (hstale p hp)
    constructor
    · intro hidle
      cases hevents.symm.trans (h.idle hidle).1
    · exact h.spawned
    · intro task htask event hmem
      exact h.tagged task htask event (hevents ▸ mem_cons_of_mem _ hmem)
    · intro p hp
      cases hnone.symm.trans hp
  | headersSent _ hevents hdesk hphase =>
    refine works_advance h hevents hdesk ?_ ?_
    · rfl
    intro task hworks
    rw [hphase, hevents] at hworks
    obtain ⟨hcommand, hstage, -, hannou⟩ := hworks
    obtain ⟨hnone, hanno⟩ := hannou ⟨_, mem_cons_self, rfl⟩
    exact ⟨⟨hcommand, hstage, hnone.tail⟩, hanno⟩
  | chunkSent _ hevents hdesk hphase =>
    refine works_advance h hevents hdesk ?_ ?_
    · rfl
    intro task hworks
    rw [hphase, hevents] at hworks
    exact ⟨hworks.1.tail_of_report rfl, hworks.2⟩
  | bodilessSent _ hevents | endSent _ hevents | failed _ hevents =>
    exact works_retire h (.inr ⟨_, hevents⟩)
  | @responded id task status headers _ htask hstage =>
    refine works_task h htask rfl (works_push h htask rfl) ?_
    intro phase hworks
    cases phase with
    | awaitingHeaders =>
      obtain ⟨hcommand, -, hreq, -⟩ := hworks
      obtain ⟨hnone, hhead⟩ := hreq hstage
      cases hallowed : Desktop.Task.bodyAllowed status with
      | true =>
        refine ⟨hcommand, by simp, by simp, fun _ => ⟨hnone.push rfl, by simp [Announcing]⟩⟩
      | false =>
        refine ⟨hcommand, by simp, by simp, ?_⟩
        rintro ⟨event, hmem, hann⟩
        rcases mem_append.mp hmem with hmem | hmem
        · have hnot := hhead event hmem
          cases event <;> simp_all [TaskEvent.isHeaders, TaskEvent.announcesBody]
        · rw [mem_singleton.mp hmem] at hann
          cases hann
    | waitingCredit | creditInFlight => exact absurd hstage hworks.2.1
    | noBody => exact hworks
  | bodilessEnded _ htask hstage =>
    refine works_task h htask rfl (works_push h htask rfl) ?_
    intro phase hworks
    cases phase with
    | awaitingHeaders =>
      obtain ⟨hcommand, -, -, hannou⟩ := hworks
      refine ⟨hcommand, by simp, by simp, ?_⟩
      rintro ⟨event, hmem, hann⟩
      rcases mem_append.mp hmem with hmem | hmem
      · exact absurd hstage (hannou ⟨event, hmem, hann⟩).2.2
      · rw [mem_singleton.mp hmem] at hann
        cases hann
    | waitingCredit | creditInFlight => exact absurd hstage hworks.2.2
    | noBody => exact hworks
  | @creditTaken task _ htask hstage hcommand =>
    refine works_task h htask rfl (h.tagged task htask) ?_
    intro phase hworks
    have hsome : task.command ≠ none := fun hnone => by simp [hnone] at hcommand
    cases phase with
    | awaitingHeaders => exact absurd hworks.1 hsome
    | waitingCredit => exact absurd hworks.1.command hsome
    | creditInFlight =>
      exact ⟨.reading rfl (hworks.1.of_command hcommand), by simp [Announcing]⟩
    | noBody => exact hworks
  | @chunkRead task _ _ htask hstage =>
    refine works_task h htask rfl (h.tagged task htask) ?_
    intro phase hworks
    cases phase with
    | awaitingHeaders => exact absurd hstage hworks.2.1
    | waitingCredit => exact absurd hstage hworks.1.stage
    | creditInFlight =>
      obtain ⟨hcommand, hevents⟩ := hworks.1.of_reading hstage
      exact ⟨.reading hcommand hevents, hworks.2⟩
    | noBody => exact hworks
  | endRead _ htask hstage | emitted _ htask hstage =>
    refine works_task h htask rfl (works_push h htask rfl) ?_
    intro phase hworks
    cases phase with
    | awaitingHeaders => exact absurd hstage hworks.2.1
    | waitingCredit => exact absurd hstage hworks.1.stage
    | creditInFlight =>
      obtain ⟨hcommand, hevents⟩ := hworks.1.of_reading hstage
      refine ⟨.report x.events [] _ hcommand (by simp) rfl hevents noReport_nil, ?_⟩
      simp [Announcing]
    | noBody => exact hworks
  | @broke task _ _ _ htask hstage hcommand =>
    refine works_task h htask rfl (h.tagged task htask) ?_
    intro phase hworks
    have hnone : task.command = none → _ = none := fun hnone => hcommand.elim (·.trans hnone) id
    cases phase with
    | awaitingHeaders =>
      obtain ⟨hcommand, -, -, hannou⟩ := hworks
      exact ⟨hnone hcommand, by simp, by simp,
        fun hsome => ⟨(hannou hsome).1, by simp [Announcing]⟩⟩
    | waitingCredit =>
      exact ⟨⟨hnone hworks.1.command, by simp, hworks.1.events⟩, by simp [Announcing]⟩
    | creditInFlight =>
      exact ⟨hworks.1.broken hcommand (by simp), by simp [Announcing]⟩
    | noBody => exact hworks
  | @reported task _ _ htask hstage hevents =>
    rcases hevents with rfl | ⟨id, rfl⟩
    · rw [append_nil]
      refine works_task h htask rfl (h.tagged task htask) ?_
      intro phase hworks
      cases phase with
      | awaitingHeaders =>
        obtain ⟨hcommand, -, -, hannou⟩ := hworks
        exact ⟨hcommand, by simp, by simp, fun hsome => ⟨(hannou hsome).1, by simp [Announcing]⟩⟩
      | waitingCredit =>
        exact ⟨⟨hworks.1.command, by simp, hworks.1.events⟩, by simp [Announcing]⟩
      | creditInFlight =>
        exact ⟨hworks.1.broken (.inl rfl) (by simp), by simp [Announcing]⟩
      | noBody => exact hworks
    · refine works_task h htask rfl (works_push h htask rfl) ?_
      intro phase hworks
      cases phase with
      | awaitingHeaders =>
        obtain ⟨hcommand, -, -, hannou⟩ := hworks
        refine ⟨hcommand, by simp, by simp, ?_⟩
        rintro ⟨event, hmem, hann⟩
        rcases mem_append.mp hmem with hmem | hmem
        · have hquiet := hannou ⟨event, hmem, hann⟩
          exact ⟨hquiet.1.push rfl, by simp [Announcing]⟩
        · rw [mem_singleton.mp hmem] at hann
          cases hann
      | waitingCredit =>
        exact ⟨⟨hworks.1.command, by simp, hworks.1.events.push rfl⟩, by simp [Announcing]⟩
      | creditInFlight =>
        exact ⟨hworks.1.push rfl rfl (by simp), by simp [Announcing]⟩
      | noBody => exact hworks
  | wrote bytes _ =>
    refine ⟨?_, h.spawned, h.tagged, h.pending⟩
    intro hnone
    obtain ⟨hevents, hunr⟩ := h.idle hnone
    exact ⟨hevents, congrArg (· ++ bytes) hunr⟩
  | _ => exact ⟨h.idle, h.spawned, h.tagged, h.pending⟩

theorem works_initial (backendToken id : String) :
    Works ((System.initial backendToken).exchange id) := by
  constructor
  · exact fun _ => ⟨rfl, rfl⟩
  · exact fun _ _ => rfl
  all_goals exact nofun

end Wenlan.Reverse
