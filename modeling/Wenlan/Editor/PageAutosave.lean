import Mathlib.Data.List.Basic
import Wenlan.Support.Transition

/-!
# Page autosave

`pageSaveCoordinator.ts` and `pageAutosave.ts` next to a server of pages.  What runs between two
awaits is one step; a run of `drain` that waits is a point where it goes on.  A run whose
generation is over is kept until what it waits for has come.
-/

namespace Wenlan.Editor

open Support.Transition

structure PageEditBaseline where
  pageId : String
  content : String
  version : Nat

structure PendingPageSave where
  operationId : Nat
  content : String
  expectedVersion : Nat
  deriving DecidableEq

structure UpdatePageInput where
  id : String
  content : String
  expectedVersion : Nat
  operationId : Nat
  callerId : String
  deriving DecidableEq

inductive UpdatePageFailureKind where
  | notFound
  | authRequired
  | payloadTooLarge
  | validation
  | rateLimited
  | server
  | other
  deriving DecidableEq

structure UpdatePageFailure where
  kind : UpdatePageFailureKind
  status : Nat
  message : String
  deriving DecidableEq

/-- The outcomes of a write, and that none came. -/
inductive PageSaveSettlement where
  | saved
  | upgradeRequired (reportedVersion requiredFloor : String)
  | conflict (message : String)
  | failure (failure : UpdatePageFailure)
  | transport

inductive RetryablePageSaveFailure where
  | transport
  | response (failure : UpdatePageFailure)
  deriving DecidableEq

inductive PageSaveCoordinatorState where
  | idle
  | pending (pending : PendingPageSave)
  | retryable (pending : PendingPageSave) (failure : RetryablePageSaveFailure)
  | failed (pending : PendingPageSave) (failure : UpdatePageFailure)
  | upgradeRequired (pending : PendingPageSave) (reportedVersion requiredFloor : String)
  | conflict (pending : PendingPageSave) (message : String)
  deriving DecidableEq

def PageSaveCoordinatorState.pending? : PageSaveCoordinatorState → Option PendingPageSave
  | .idle => none
  | .pending save | .retryable save _ | .failed save _ | .upgradeRequired save _ _
  | .conflict save _ => some save

def PageSaveCoordinatorState.isConflict : PageSaveCoordinatorState → Bool
  | .conflict _ _ => true
  | _ => false

def isRetryableUpdatePageFailure (failure : UpdatePageFailure) : Bool :=
  failure.kind == .authRequired || failure.kind == .rateLimited || failure.kind == .server

/-- What `trim` takes away in this language. -/
def isTrimmed (c : Char) : Bool :=
  let n := c.toNat
  (decide (9 ≤ n) && decide (n ≤ 13)) || n == 0x20 || n == 0xA0 || n == 0x1680 ||
    (decide (0x2000 ≤ n) && decide (n ≤ 0x200A)) || n == 0x2028 || n == 0x2029 ||
    n == 0x202F || n == 0x205F || n == 0x3000 || n == 0xFEFF

inductive BeginPageSaveResult where
  | request (input : UpdatePageInput) (pending : PendingPageSave)
  | unchanged
  | invalid
  | blockedPending
  | blockedConflict

def PendingPageSave.input (pending : PendingPageSave) (pageId : String) : UpdatePageInput :=
  { id := pageId, content := pending.content, expectedVersion := pending.expectedVersion
    operationId := pending.operationId, callerId := "wenlan-app" }

def beginPageSave (state : PageSaveCoordinatorState) (baseline : PageEditBaseline)
    (content : String) (createOperationId : Nat) : BeginPageSaveResult :=
  match state with
  | .conflict _ _ => .blockedConflict
  | .pending _ => .blockedPending
  | _ =>
    if content.toList.all isTrimmed then .invalid
    else if content = baseline.content then .unchanged
    else
      let operationId :=
        match state with
        | .retryable pending _ =>
          if pending.content = content ∧ pending.expectedVersion = baseline.version then
            pending.operationId
          else createOperationId
        | _ => createOperationId
      let pending := { operationId, content, expectedVersion := baseline.version }
      .request (pending.input baseline.pageId) pending

def settlePageSave (state : PageSaveCoordinatorState) (outcome : PageSaveSettlement) :
    PageSaveCoordinatorState :=
  match state with
  | .pending pending =>
    match outcome with
    | .saved => .idle
    | .conflict message => .conflict pending message
    | .upgradeRequired reportedVersion requiredFloor =>
      .upgradeRequired pending reportedVersion requiredFloor
    | .transport => .retryable pending .transport
    | .failure failure =>
      if isRetryableUpdatePageFailure failure then .retryable pending (.response failure)
      else .failed pending failure
  | _ => state

/-! ## The editor -/

structure CanonicalPage where
  id : String
  content : String
  version : Nat
  deriving DecidableEq

/-- What a run of `drain` waits for; `ended` is that it has returned and the callback that
follows it has not run. -/
inductive DrainPoint where
  | writing (input : UpdatePageInput)
  | readingLatest (pageId : String) (operationId : Nat)
  | reconciling (pageId : String) (pending : PendingPageSave)
  | ended
  deriving DecidableEq

structure Drain where
  generation : Nat
  point : DrainPoint
  deriving DecidableEq

/-- A call of `readConflictLatest` that waits. -/
structure LatestRead where
  generation : Nat
  pageId : String
  operationId : Nat
  deriving DecidableEq

/-- `operations` counts the operation ids that were made; `stale` has the runs and `latestReads`
the reads that still wait for something. -/
structure PageAutosave where
  baseline : Option PageEditBaseline
  source : String
  state : PageSaveCoordinatorState
  latest : Option CanonicalPage
  empty : Bool
  composing : Bool
  awaitingCanonical : Option PendingPageSave
  timer : Bool
  running : Option Drain
  generation : Nat
  operations : Nat
  stale : List Drain
  latestReads : List LatestRead

namespace PageAutosave

variable (s : PageAutosave)

def dirty : Bool :=
  match s.baseline with
  | none => false
  | some baseline =>
    s.source != baseline.content || s.state != .idle || s.awaitingCanonical.isSome

def cancelTimer : PageAutosave :=
  { s with timer := false }

def schedule : PageAutosave :=
  if s.composing ∨ s.running.isSome ∨ s.empty ∨ s.state ≠ .idle ∨ !s.dirty then s.cancelTimer
  else { s with timer := true }

/-- The runs so far are over; what they wait for will find that. -/
def nextGeneration : PageAutosave :=
  { s with
    timer := false, generation := s.generation + 1, running := none
    stale := (s.running.filter fun drain => drain.point != .ended).toList ++ s.stale }

def reset (page : Option CanonicalPage) : PageAutosave :=
  { s.nextGeneration with
    baseline := page.map fun page =>
      { pageId := page.id, content := page.content, version := page.version }
    source := (page.map CanonicalPage.content).getD ""
    state := .idle, latest := none, awaitingCanonical := none, empty := false
    composing := false }

def setSource (source : String) : PageAutosave :=
  if s.baseline = none ∨ source = s.source then s
  else { s with source, empty := false }.schedule

def setComposing (composing : Bool) : PageAutosave :=
  let s := { s with composing }
  if composing then s.cancelTimer else s.schedule

/-- The operation that a conflict is about: the one under way, or a new one. -/
def conflicting (baseline : PageEditBaseline) : PendingPageSave :=
  (s.state.pending?).getD
    { operationId := s.operations, content := s.source, expectedVersion := baseline.version }

def observeMissing (baseline : PageEditBaseline) : PageAutosave :=
  { s.nextGeneration with
    awaitingCanonical := none, latest := none
    state := .conflict (s.conflicting baseline) "The canonical page no longer exists."
    operations := s.operations + 1 }

def observeConflictLatest (page : Option CanonicalPage) (operationId : Nat) : PageAutosave :=
  match s.state, s.baseline, page with
  | .conflict pending _, some baseline, some page =>
    if pending.operationId = operationId ∧ page.id = baseline.pageId ∧
        baseline.version ≤ page.version ∧ s.latest.all (fun latest => latest.version < page.version)
    then { s with latest := some page }
    else s
  | _, _, _ => s

def observeCanonical (page : Option CanonicalPage) : PageAutosave :=
  match s.baseline, page with
  | none, _ => s
  | some baseline, none => s.observeMissing baseline
  | some baseline, some page =>
    if page.id ≠ baseline.pageId then s
    else
      match s.state with
      | .conflict pending _ => s.observeConflictLatest (some page) pending.operationId
      | .idle =>
        if page.version < baseline.version then s
        else if page.content = baseline.content then
          { s with baseline := some { baseline with version := page.version } }
        else
          { s with
            timer := false, latest := some page, operations := s.operations + 1
            state := .conflict (s.conflicting baseline)
              "The canonical page changed while its editor was open." }
      | _ => s

def confirmMissing (generation : Nat) (pageId : String) (operationId : Nat) : PageAutosave :=
  match s.baseline with
  | none => s
  | some baseline =>
    if generation ≠ s.generation ∨ baseline.pageId ≠ pageId ∨
        (s.state.pending?).map PendingPageSave.operationId ≠ some operationId then s
    else s.observeMissing baseline

def readConflictLatest (operationId : Nat) : PageAutosave :=
  match s.baseline, s.state with
  | some baseline, .conflict pending _ =>
    if pending.operationId = operationId then
      { s with
        latestReads :=
          { generation := s.generation, pageId := baseline.pageId, operationId } ::
            s.latestReads }
    else s
  | _, _ => s

def latestRead (read : LatestRead) (result : Option (Option CanonicalPage)) : PageAutosave :=
  let s := { s with latestReads := s.latestReads.erase read }
  if read.generation ≠ s.generation then s
  else
    match result with
    | none => s
    | some none => s.confirmMissing read.generation read.pageId read.operationId
    | some (some page) => s.observeConflictLatest (some page) read.operationId

/-! ### Runs of `drain` -/

def drainLoop (generation : Nat) (replay : Option PendingPageSave) : PageAutosave × DrainPoint :=
  match s.baseline with
  | none => (s, .ended)
  | some baseline =>
    if generation ≠ s.generation then (s, .ended)
    else if s.composing ∨ s.state ≠ .idle then (s, .ended)
    else
      match replay with
      | some pending => ({ s with state := .pending pending }, .writing (pending.input baseline.pageId))
      | none =>
        if s.source = baseline.content then (s, .ended)
        else
          match beginPageSave s.state baseline s.source s.operations with
          | .request input pending =>
            ({ s with state := .pending pending, operations := s.operations + 1 }, .writing input)
          | .invalid => ({ s with empty := true }, .ended)
          | _ => (s, .ended)

/-- Where `reconcile` waits for the page. -/
def reconcile (pending : PendingPageSave) : DrainPoint :=
  match s.baseline with
  | none => .ended
  | some baseline => .reconciling baseline.pageId pending

def drain (generation : Nat) (replay : Option PendingPageSave) : PageAutosave × DrainPoint :=
  match s.awaitingCanonical with
  | some pending => ({ s with state := .pending pending }, s.reconcile pending)
  | none => s.drainLoop generation replay

/-- `running` is set when the run first waits or returns. -/
def start (replay : Option PendingPageSave) : PageAutosave :=
  let (next, point) := s.drain s.generation replay
  { next with running := some { generation := s.generation, point } }

def flush : PageAutosave :=
  let s := s.cancelTimer
  if s.composing ∨ s.running.isSome ∨ s.state ≠ .idle then s else s.start none

def retry : PageAutosave :=
  let s := s.cancelTimer
  if s.composing ∨ s.state.isConflict ∨ s.running.isSome then s
  else
    let replay :=
      match s.state with
      | .retryable pending _ => some pending
      | _ => none
    { s with state := .idle }.start replay

def timerFires : PageAutosave :=
  if s.timer then s.cancelTimer.flush else s

/-- The callback after a run that has returned. -/
def settled : PageAutosave :=
  match s.running with
  | some { generation, point := .ended } =>
    let s := { s with running := none }
    if generation = s.generation then s.schedule else s
  | _ => s

def afterWrite (generation : Nat) (input : UpdatePageInput) (outcome : PageSaveSettlement) :
    PageAutosave × DrainPoint :=
  let pending :=
    { operationId := input.operationId, content := input.content
      expectedVersion := input.expectedVersion }
  if generation ≠ s.generation then (s, .ended)
  else
    match outcome with
    | .saved =>
      let s := { s with awaitingCanonical := some pending }
      (s, s.reconcile pending)
    | .conflict _ =>
      ({ s with state := settlePageSave s.state outcome },
        .readingLatest input.id pending.operationId)
    | .failure failure =>
      ({ s with state := settlePageSave s.state outcome },
        if failure.kind = .notFound then .readingLatest input.id pending.operationId else .ended)
    | _ => ({ s with state := settlePageSave s.state outcome }, .ended)

def afterLatest (generation : Nat) (pageId : String) (operationId : Nat)
    (result : Option (Option CanonicalPage)) : PageAutosave :=
  if generation ≠ s.generation then s
  else
    match result with
    | none => s
    | some none => s.confirmMissing generation pageId operationId
    | some (some page) => s.observeConflictLatest (some page) operationId

def afterReconcile (generation : Nat) (pageId : String) (pending : PendingPageSave)
    (result : Option (Option CanonicalPage)) : PageAutosave × DrainPoint :=
  if generation ≠ s.generation then (s, .ended)
  else
    match result with
    | none => ({ s with state := .retryable pending .transport }, .ended)
    | some none => (s.confirmMissing generation pageId pending.operationId, .ended)
    | some (some canonical) =>
      if canonical.id ≠ pageId then ({ s with state := .retryable pending .transport }, .ended)
      else if canonical.content ≠ pending.content ∨ canonical.version ≤ pending.expectedVersion then
        ({ s with
            awaitingCanonical := none, latest := some canonical
            state := .conflict pending
              "The canonical source does not match the saved snapshot." }, .ended)
      else
        { s with
          awaitingCanonical := none, state := .idle, empty := false
          baseline := some
            { pageId := canonical.id, content := canonical.content
              version := canonical.version } }.drainLoop generation none

/-- What a run does when what it waits for has come. -/
inductive Arrival where
  | wrote (outcome : PageSaveSettlement)
  | read (result : Option (Option CanonicalPage))

def resume (drain : Drain) (arrival : Arrival) : PageAutosave × DrainPoint :=
  match drain.point, arrival with
  | .writing input, .wrote outcome => s.afterWrite drain.generation input outcome
  | .readingLatest pageId operationId, .read result =>
    (s.afterLatest drain.generation pageId operationId result, .ended)
  | .reconciling pageId pending, .read result =>
    s.afterReconcile drain.generation pageId pending result
  | point, _ => (s, point)

/-- The current run goes on; a page that it finds missing ends its generation. -/
def resumeRunning (drain : Drain) (arrival : Arrival) : PageAutosave :=
  let (next, point) :=
    { s with running := some { drain with point := .ended } }.resume drain arrival
  if next.running = none then next else { next with running := some { drain with point } }

/-- A run whose generation is over goes on. -/
def resumeStale (drain : Drain) (arrival : Arrival) : PageAutosave :=
  let (next, _) := s.resume drain arrival
  { next with stale := next.stale.erase drain }

end PageAutosave

/-- The versions of each page, newest first, and the operations that were applied. -/
structure Server where
  history : String → List CanonicalPage
  deleted : String → Bool
  applied : List Nat

namespace Server

def current (server : Server) (id : String) : Option CanonicalPage :=
  if server.deleted id then none else (server.history id).head?

def push (server : Server) (page : CanonicalPage) : Server :=
  { server with
    history := fun id => if id = page.id then page :: server.history id else server.history id
    deleted := fun id => if id = page.id then false else server.deleted id }

/-- Whether the write would be applied now. -/
def accepts (server : Server) (input : UpdatePageInput) : Bool :=
  !server.applied.contains input.operationId &&
    (server.current input.id).map CanonicalPage.version == some input.expectedVersion

/-- A write is applied when its expected version is current, and an operation only once. -/
def serve (server : Server) (input : UpdatePageInput) : Server :=
  if server.accepts input then
    let page :=
      { id := input.id, content := input.content, version := input.expectedVersion + 1 }
    { server.push page with applied := input.operationId :: server.applied }
  else server

/-- Anybody else writes a page, under a version it has not had. -/
def remote (server : Server) (page : CanonicalPage) : Server :=
  if (server.history page.id).all fun past => past.version < page.version then server.push page
  else server

def delete (server : Server) (id : String) : Server :=
  { server with deleted := fun other => if other = id then true else server.deleted other }

def Has (server : Server) (page : CanonicalPage) : Prop :=
  page ∈ server.history page.id

end Server

/-! ## The system -/

/-- A write that was sent: its operation, and those of the same session that had no answer yet
that is not ambiguous. -/
structure Sent where
  operationId : Nat
  unresolved : List Nat

/-- `session` is the generation of the last reset.  `unresolved` has the operations sent since
that have had no answer or an ambiguous one; `ambiguous` those that may have been applied
although no answer said so.  `network` has the writes the server may still get, and `sent`
everything that was sent. -/
structure World where
  editor : PageAutosave
  server : Server
  network : List UpdatePageInput
  session : Nat
  unresolved : List Nat
  ambiguous : List Nat
  sent : List Sent

inductive AutosaveEvent where
  | setSource (source : String)
  | setComposing (composing : Bool)
  | observeCanonical (page : Option CanonicalPage)
  | observeConflictLatest (page : Option CanonicalPage) (operationId : Nat)
  | readConflictLatest (operationId : Nat)
  | latestRead (read : LatestRead) (result : Option (Option CanonicalPage))
  | flush
  | retry
  | timer
  | settled
  | reset (page : Option CanonicalPage)
  /-- What the current run waits for has come; a read that fails brings nothing. -/
  | resume (arrival : PageAutosave.Arrival)
  | resumeStale (drain : Drain) (arrival : PageAutosave.Arrival)
  | serve (input : UpdatePageInput)
  | remote (page : CanonicalPage)
  | delete (id : String)

/-- The write that an editor waits for, unless it has waited for it already. -/
def newWrite (before after : PageAutosave) : Option UpdatePageInput :=
  match after.running with
  | some { point := .writing input, .. } =>
    if before.running = after.running then none else some input
  | _ => none

/-- The editor has taken a step; a write it waits for from now on has been sent. -/
def World.take (world : World) (editor : PageAutosave) : World :=
  match newWrite world.editor editor with
  | none => { world with editor }
  | some input =>
    { world with
      editor
      network := input :: world.network
      unresolved := input.operationId :: world.unresolved.filter fun id => id != input.operationId
      sent :=
        { operationId := input.operationId, unresolved := world.unresolved } :: world.sent }

/-- An answer that says nothing of whether the write was applied. -/
def PageSaveSettlement.isAmbiguous : PageSaveSettlement → Bool
  | .transport => true
  | .failure cause => isRetryableUpdatePageFailure cause
  | _ => false

/-- An answer that says that the write was turned away. -/
def PageSaveSettlement.isRefusal : PageSaveSettlement → Bool
  | .upgradeRequired _ _ => true
  | .failure cause => !isRetryableUpdatePageFailure cause
  | _ => false

/-- What is known of an operation after an answer.  A write that is turned away may have been
applied when it was sent before. -/
def World.learn (world : World) (operationId : Nat) (outcome : PageSaveSettlement) : World :=
  if outcome.isAmbiguous then { world with ambiguous := operationId :: world.ambiguous }
  else
    { world with
      unresolved := world.unresolved.filter fun id => id != operationId
      ambiguous :=
        if outcome.isRefusal then world.ambiguous
        else world.ambiguous.filter fun id => id != operationId }

/-- The answers the server gives: success when the operation was applied, a conflict when it was
not and the expected version is not current. -/
def Server.answers (server : Server) (input : UpdatePageInput) : PageSaveSettlement → Bool
  | .saved => server.applied.contains input.operationId
  | .conflict _ => !server.applied.contains input.operationId && !server.accepts input
  | _ => true

def Server.reads (server : Server) : Option CanonicalPage → Bool
  | none => true
  | some page => (server.history page.id).contains page

def Server.brings (server : Server) (point : DrainPoint) : PageAutosave.Arrival → Bool
  | .wrote outcome =>
    match point with
    | .writing input => server.answers input outcome
    | _ => false
  | .read result =>
    match point with
    | .readingLatest _ _ | .reconciling _ _ => result.all server.reads
    | _ => false

/-- The editor learns what an answer to the current run says. -/
def World.hear (world : World) (drain : Drain) (arrival : PageAutosave.Arrival) : World :=
  match drain.point, arrival with
  | .writing input, .wrote outcome => world.learn input.operationId outcome
  | _, _ => world

def World.next (world : World) : AutosaveEvent → Option World
  | .setSource source => some (world.take (world.editor.setSource source))
  | .setComposing composing => some (world.take (world.editor.setComposing composing))
  | .observeCanonical page =>
    if world.server.reads page then some (world.take (world.editor.observeCanonical page))
    else none
  | .observeConflictLatest page operationId =>
    if world.server.reads page then
      some (world.take (world.editor.observeConflictLatest page operationId))
    else none
  | .readConflictLatest operationId =>
    some (world.take (world.editor.readConflictLatest operationId))
  | .latestRead read result =>
    if read ∈ world.editor.latestReads ∧ result.all world.server.reads then
      some (world.take (world.editor.latestRead read result))
    else none
  | .flush => some (world.take world.editor.flush)
  | .retry => some (world.take world.editor.retry)
  | .timer => some (world.take world.editor.timerFires)
  | .settled => some (world.take world.editor.settled)
  | .reset page =>
    if world.server.reads page then
      some
        { world with
          editor := world.editor.reset page, session := world.editor.generation + 1
          unresolved := [] }
    else none
  | .resume arrival =>
    match world.editor.running with
    | none => none
    | some drain =>
      if world.server.brings drain.point arrival then
        some ((world.hear drain arrival).take (world.editor.resumeRunning drain arrival))
      else none
  | .resumeStale drain arrival =>
    if drain ∈ world.editor.stale ∧ world.server.brings drain.point arrival then
      some (world.take (world.editor.resumeStale drain arrival))
    else none
  | .serve input =>
    if input ∈ world.network then some { world with server := world.server.serve input }
    else none
  | .remote page => some { world with server := world.server.remote page }
  | .delete id => some { world with server := world.server.delete id }

def AutosaveStep (world : World) (event : AutosaveEvent) (after : World) : Prop :=
  world.next event = some after

/-- An editor without a page, and a server that has had at most one version of each. -/
def World.initial (pages : String → Option CanonicalPage) : World where
  editor :=
    { baseline := none, source := "", state := .idle, latest := none, empty := false
      composing := false, awaitingCanonical := none, timer := false, running := none
      generation := 0, operations := 0, stale := [], latestReads := [] }
  server :=
    { history := fun id => ((pages id).filter fun page => page.id == id).toList
      deleted := fun _ => false, applied := [] }
  network := []
  session := 0
  unresolved := []
  ambiguous := []
  sent := []

end Wenlan.Editor
