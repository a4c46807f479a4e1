import Wenlan.Editor.PageAutosave

/-!
# Memory autosave

`memoryAutosave.ts`: what runs between two awaits is one step, and a run that waits is a point where
it goes on.  `drainReplay` saves as an iteration of `drain` does, so both wait at the same points.
-/

namespace Wenlan.Editor

structure MemoryAutosaveBaseline where
  id : String
  content : String
  deriving DecidableEq

structure MemoryAutosaveRecord where
  sourceId : String
  content : String

inductive MemoryAutosavePhase where
  | idle
  | saving
  | error
  | conflict
  deriving DecidableEq

/-- A call of `write`. -/
structure MemoryWrite where
  id : String
  content : String
  expectedContent : String

namespace MemoryAutosave

/-- What a run waits for; `ended` is that it has returned and the callback that follows it has not
run. -/
inductive Point where
  /-- The read before a write. -/
  | checking (baseline : MemoryAutosaveBaseline) (submitted : String)
  | writing (baseline : MemoryAutosaveBaseline) (submitted : String)
  /-- The read after a write. -/
  | readback (baseline : MemoryAutosaveBaseline) (submitted : String)
  /-- The read of `retryUncertain`. -/
  | reconciling (pending baseline : MemoryAutosaveBaseline)
  | ended
  deriving DecidableEq

structure Run where
  generation : Nat
  point : Point
  deriving DecidableEq

/-- What comes for a run that waits. -/
inductive Arrival where
  | read (record : Option MemoryAutosaveRecord)
  | wrote
  | failed

end MemoryAutosave

open MemoryAutosave (Point Run Arrival)

/-- `stale` has the runs that still wait and whose generation is over; `writes` has the calls of
`write` so far, the last one first. -/
structure MemoryAutosave where
  baseline : Option MemoryAutosaveBaseline
  source : String
  phase : MemoryAutosavePhase
  empty : Bool
  latest : Option MemoryAutosaveRecord
  uncertain : Option MemoryAutosaveBaseline
  composing : Bool
  timer : Bool
  running : Option Run
  generation : Nat
  disposed : Bool
  stale : List Run
  writes : List MemoryWrite

namespace MemoryAutosave

variable (s : MemoryAutosave)

def dirty : Bool :=
  match s.baseline with
  | none => false
  | some baseline => s.source != baseline.content || s.phase != .idle || s.uncertain.isSome

def cancelTimer : MemoryAutosave :=
  { s with timer := false }

def schedule : MemoryAutosave :=
  if s.disposed ∨ s.composing ∨ s.running.isSome ∨ s.empty ∨ s.phase ≠ .idle ∨ !s.dirty then
    s.cancelTimer
  else { s with timer := true }

/-- The runs so far are over; what they wait for will find that. -/
def nextGeneration : MemoryAutosave :=
  { s with
    timer := false, generation := s.generation + 1, running := none
    stale := s.running.toList ++ s.stale }

def reset (record : Option MemoryAutosaveRecord) : MemoryAutosave :=
  { s.nextGeneration with
    disposed := false
    baseline := record.map fun record => ⟨record.sourceId, record.content⟩
    source := (record.map (·.content)).getD ""
    phase := .idle, empty := false, latest := none, uncertain := none, composing := false }

def dispose : MemoryAutosave :=
  { s.nextGeneration with disposed := true }

def setSource (source : String) : MemoryAutosave :=
  if s.disposed ∨ s.baseline = none ∨ source = s.source then s
  else { s with source, empty := false }.schedule

def setComposing (composing : Bool) : MemoryAutosave :=
  if s.disposed then s
  else if composing then { s with composing }.cancelTimer
  else { s with composing }.schedule

def markConflict (record : Option MemoryAutosaveRecord) : MemoryAutosave :=
  { s with timer := false, phase := .conflict, latest := record }

def clean (baseline : MemoryAutosaveBaseline) : Bool :=
  s.phase == .idle && s.source == baseline.content

def observeCanonical (record : Option MemoryAutosaveRecord) : MemoryAutosave :=
  match s.disposed, s.baseline with
  | true, _ | _, none => s
  | false, some baseline =>
    if s.phase = .saving then s
    else
      match record with
      | none =>
        if s.clean baseline ∧ s.uncertain = none then s.reset none else s.markConflict none
      | some record =>
        if record.sourceId ≠ baseline.id then s
        else if s.phase = .conflict then { s with latest := some record }
        else if s.phase = .error ∧ s.uncertain.any (·.content == record.content) then s
        else if record.content = baseline.content then s
        else if s.clean baseline then
          { s with
            baseline := some ⟨record.sourceId, record.content⟩
            source := record.content, latest := none, empty := false }
        else s.markConflict (some record)

/-! ## Runs -/

def fail (generation : Nat) (id content : String) : MemoryAutosave :=
  if generation ≠ s.generation then s
  else { s with phase := .error, uncertain := some ⟨id, content⟩ }

def acceptCanonical (record : MemoryAutosaveRecord) : MemoryAutosave :=
  { s with
    baseline := some ⟨record.sourceId, record.content⟩
    phase := .idle, uncertain := none, latest := none, empty := false }

/-- `drain` up to its next wait. -/
def drain (generation : Nat) : MemoryAutosave × Point :=
  match s.baseline with
  | none => (s, .ended)
  | some baseline =>
    if generation ≠ s.generation ∨ s.composing ∨ s.phase ≠ .idle ∨
        s.source = baseline.content then (s, .ended)
    else if s.source.toList.all isTrimmed then ({ s with empty := true }, .ended)
    else ({ s with phase := .saving, empty := false }, .checking baseline s.source)

/-- `drainReplay` up to its first wait. -/
def drainReplay (generation : Nat) (submitted : String) : MemoryAutosave × Point :=
  match s.baseline with
  | none => (s, .ended)
  | some baseline =>
    if generation ≠ s.generation ∨ s.composing then (s, .ended)
    else if submitted.toList.all isTrimmed then
      ({ s with phase := .idle, empty := true }, .ended)
    else ({ s with phase := .saving }, .checking baseline submitted)

/-- `retryUncertain` up to its first wait. -/
def retryUncertain : Point :=
  match s.uncertain, s.baseline with
  | some pending, some baseline =>
    if pending.id = baseline.id then .reconciling pending baseline else .ended
  | _, _ => .ended

def found (id : String) (record : Option MemoryAutosaveRecord) : Option MemoryAutosaveRecord :=
  record.filter fun record => record.sourceId == id

/-- `drain` and `drainReplay` after the read before their write. -/
def checked (generation : Nat) (baseline : MemoryAutosaveBaseline) (submitted : String) :
    Arrival → MemoryAutosave × Point
  | .read record =>
    if generation ≠ s.generation then (s, .ended)
    else
      match found baseline.id record with
      | none => (s.markConflict none, .ended)
      | some before =>
        if before.content ≠ baseline.content then (s.markConflict (some before), .ended)
        else if s.composing then ({ s with phase := .idle }, .ended)
        else
          ({ s with writes := ⟨baseline.id, submitted, baseline.content⟩ :: s.writes },
            .writing baseline submitted)
  | _ => (s.fail generation baseline.id submitted, .ended)

def written (generation : Nat) (baseline : MemoryAutosaveBaseline) (submitted : String) :
    Arrival → MemoryAutosave × Point
  | .wrote =>
    if generation ≠ s.generation then (s, .ended) else (s, .readback baseline submitted)
  | _ => (s.fail generation baseline.id submitted, .ended)

def readBack (generation : Nat) (baseline : MemoryAutosaveBaseline) (submitted : String) :
    Arrival → MemoryAutosave × Point
  | .read record =>
    if generation ≠ s.generation then (s, .ended)
    else
      match found baseline.id record with
      | none => (s.markConflict none, .ended)
      | some after =>
        if after.content ≠ submitted then (s.markConflict (some after), .ended)
        else (s.acceptCanonical after).drain generation
  | _ => (s.fail generation baseline.id submitted, .ended)

/-- `retryUncertain` after its read. -/
def reconciled (generation : Nat) (pending baseline : MemoryAutosaveBaseline) :
    Arrival → MemoryAutosave × Point
  | .read record =>
    if generation ≠ s.generation then (s, .ended)
    else
      match found pending.id record with
      | none => (s.markConflict none, .ended)
      | some canonical =>
        if canonical.content = pending.content then
          (s.acceptCanonical canonical).drain generation
        else if canonical.content ≠ baseline.content then
          (s.markConflict (some canonical), .ended)
        else if s.composing then ({ s with phase := .idle, uncertain := none }, .ended)
        else
          { s with phase := .idle, uncertain := none }.drainReplay generation pending.content
  | _ => (s.fail generation pending.id pending.content, .ended)

def resume (run : Run) (arrival : Arrival) : MemoryAutosave × Point :=
  match run.point with
  | .checking baseline submitted => s.checked run.generation baseline submitted arrival
  | .writing baseline submitted => s.written run.generation baseline submitted arrival
  | .readback baseline submitted => s.readBack run.generation baseline submitted arrival
  | .reconciling pending baseline => s.reconciled run.generation pending baseline arrival
  | .ended => (s, .ended)

/-- `start`: the run goes to its first wait before anything else happens. -/
def start (begun : MemoryAutosave × Point) : MemoryAutosave :=
  { begun.1 with running := some ⟨begun.1.generation, begun.2⟩ }

def flush : MemoryAutosave :=
  let s := s.cancelTimer
  if s.disposed ∨ s.composing ∨ s.running.isSome ∨ s.phase ≠ .idle then s
  else start (s.drain s.generation)

def retry : MemoryAutosave :=
  let s := s.cancelTimer
  if s.disposed ∨ s.composing ∨ s.phase ≠ .error ∨ s.uncertain = none ∨ s.running.isSome then s
  else start (s, s.retryUncertain)

/-- The callback of `finally`, after a run has returned. -/
def settled (run : Run) : MemoryAutosave :=
  if run.generation = s.generation then { s with running := none }.schedule
  else { s with running := none }

inductive Event where
  | setSource (source : String)
  | setComposing (composing : Bool)
  | observeCanonical (record : Option MemoryAutosaveRecord)
  | timer
  | flush
  | retry
  | reset (record : Option MemoryAutosaveRecord)
  | dispose
  /-- What the current run waits for has come. -/
  | resume (arrival : Arrival)
  | resumeStale (run : Run) (arrival : Arrival)
  /-- The callback of the current run. -/
  | settled

/-- What a run can be given where it waits. -/
def Point.takes : Point → Arrival → Bool
  | .writing _ _, .read _ => false
  | .checking _ _, .wrote | .readback _ _, .wrote | .reconciling _ _, .wrote => false
  | .ended, _ => false
  | _, _ => true

def next (s : MemoryAutosave) : Event → Option MemoryAutosave
  | .setSource source => some (s.setSource source)
  | .setComposing composing => some (s.setComposing composing)
  | .observeCanonical record => some (s.observeCanonical record)
  | .timer => if s.timer then some { s with timer := false }.flush else none
  | .flush => some s.flush
  | .retry => some s.retry
  | .reset record => some (s.reset record)
  | .dispose => some s.dispose
  | .resume arrival =>
    match s.running with
    | none => none
    | some run =>
      if run.point.takes arrival then
        let resumed := s.resume run arrival
        some { resumed.1 with running := some { run with point := resumed.2 } }
      else none
  | .resumeStale run arrival =>
    if run ∈ s.stale ∧ run.point.takes arrival then
      let resumed := s.resume run arrival
      some { resumed.1 with
        stale := (if resumed.2 = .ended then [] else [{ run with point := resumed.2 }]) ++
          resumed.1.stale.erase run }
    else none
  | .settled =>
    match s.running with
    | some run => if run.point = .ended then some (s.settled run) else none
    | none => none

def Step (s : MemoryAutosave) (event : Event) (t : MemoryAutosave) : Prop :=
  s.next event = some t

/-- As constructed. -/
def initial : MemoryAutosave where
  baseline := none
  source := ""
  phase := .idle
  empty := false
  latest := none
  uncertain := none
  composing := false
  timer := false
  running := none
  generation := 0
  disposed := false
  stale := []
  writes := []

end MemoryAutosave

end Wenlan.Editor
