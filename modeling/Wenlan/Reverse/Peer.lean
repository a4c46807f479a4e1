import Mathlib.Data.List.AList
import Wenlan.Reverse.DesktopCodec
import Wenlan.Support.Recent

/-!
# The desktop end of a reverse connection

`reverse_peer.rs`: the driver, which handles the relay's frames and the events of its
tasks one at a time, and the task that forwards one request to the local server.  The
tasks run concurrently, so each of their awaits is a step of its own.  How many frames
the outgoing channel takes in time is an argument of the handlers that send.
-/

namespace Wenlan.Reverse.Desktop

def maxPending : Nat := 8

def maxResponseBytes : Nat := 2 * 1024 * 1024

def maxResponseChunks : Nat := 4096

def tombstoneLimit : Nat := 32

inductive RelayError where
  | unauthorized
  | invalidInput
  | invalidResponse
  | unavailable

inductive Phase where
  | awaitingHeaders
  | waitingCredit
  | creditInFlight
  | noBody
  deriving DecidableEq

structure Pending where
  tag : Nat
  phase : Phase
  nextSequence : Nat
  bytes : Nat
  chunks : Nat

inductive TaskEvent where
  | headers (tag : Nat) (id : String) (status : UInt16) (headers : HeaderMap)
      (bodyAllowed : Bool)
  | chunk (tag : Nat) (id : String) (sequence : Nat) (bytes : List UInt8)
  | end_ (tag : Nat) (id : String)
  | failure (tag : Nat) (id : String)

def TaskEvent.id : TaskEvent → String
  | .headers _ id _ _ _ | .chunk _ id _ _ | .end_ _ id | .failure _ id => id

def TaskEvent.tag : TaskEvent → Nat
  | .headers tag _ _ _ _ | .chunk tag _ _ _ | .end_ tag _ | .failure tag _ => tag

/-- Where `run_request_task` stands: before the answer of the local server, between the
two events of an answer without a body, at `commands.recv`, in the rest of the loop, on
its way out with an error, and at its end, where the receiver of commands is dropped. -/
inductive Stage where
  | requesting
  | bodiless
  | waiting
  | reading
  | failing
  | finished
  deriving DecidableEq

/-- `buffered` is what the source has after `offset`; `command` is the one slot of the
command channel. -/
structure Task where
  tag : Nat
  stage : Stage
  sequence : Nat
  buffered : List UInt8
  bytesTotal : Nat
  chunksTotal : Nat
  command : Option Nat

namespace Task

def spawn (tag : Nat) : Task where
  tag := tag
  stage := .requesting
  sequence := 0
  buffered := []
  bytesTotal := 0
  chunksTotal := 0
  command := none

/-- A time-out, or an error of the local connection or of a channel. -/
def fail (t : Task) : Task := { t with stage := .failing }

/-- The response headers that are passed on, each if its value is fit for a frame. -/
def filteredResponseHeaders (response : String → Option String) : HeaderMap :=
  .ofFields (responseHeaderNames.filterMap fun name =>
    match response name with
    | some value =>
      if decide (maxHeaderValueBytes < byteLength value) ||
          !value.toList.all isHeaderValueChar then
        none
      else some (name, value)
    | none => none)

def bodyAllowed (status : UInt16) : Bool :=
  !([204, 205, 304].contains status)

/-- The local server answers. -/
def respond (t : Task) (id : String) (status : UInt16) (response : String → Option String) :
    Task × List TaskEvent :=
  if t.stage ≠ .requesting then (t, [])
  else if decide (200 ≤ status.toNat) && decide (status.toNat ≤ 599) then
    ({ t with stage := if bodyAllowed status then .waiting else .bodiless },
      [.headers t.tag id status (filteredResponseHeaders response) (bodyAllowed status)])
  else (t.fail, [])

def endBodiless (t : Task) (id : String) : Task × List TaskEvent :=
  if t.stage ≠ .bodiless then (t, []) else ({ t with stage := .finished }, [.end_ t.tag id])

/-- `commands.recv` with a command in the slot. -/
def takeCredit (t : Task) : Task :=
  match t.stage, t.command with
  | .waiting, some sequence =>
    { t with
      command := none
      stage := if sequence = t.sequence then .reading else .failing }
  | _, _ => t

/-- `response.chunk()` is wanted: the credit is there and the buffer is used up. -/
def wantsChunk (t : Task) : Bool := t.stage == .reading && t.buffered.isEmpty

/-- `response.chunk()` gave bytes. -/
def readChunk (t : Task) (bytes : List UInt8) : Task :=
  if bytes.isEmpty then t
  else if maxResponseBytes - t.bytesTotal < bytes.length then t.fail
  else { t with buffered := bytes }

/-- `response.chunk()` gave the end of the body. -/
def readEnd (t : Task) (id : String) : Task × List TaskEvent :=
  ({ t with stage := .finished }, [.end_ t.tag id])

/-- The rest of the loop: one chunk out of the buffer. -/
def emit (t : Task) (id : String) : Task × List TaskEvent :=
  if t.stage ≠ .reading ∨ t.buffered = [] then (t, [])
  else
    let take := min t.buffered.length maxChunkBodyBytes
    if decide (maxResponseBytes < t.bytesTotal + take) ||
        decide (maxResponseChunks < t.chunksTotal + 1) then
      (t.fail, [])
    else
      ({ t with
          stage := .waiting
          sequence := t.sequence + 1
          buffered := t.buffered.drop take
          bytesTotal := t.bytesTotal + take
          chunksTotal := t.chunksTotal + 1 },
        [.chunk t.tag id t.sequence (t.buffered.take take)])

/-- The failure is reported, unless the events channel stays full. -/
def report (t : Task) (id : String) (timely : Bool) : Task × List TaskEvent :=
  if t.stage ≠ .failing then (t, [])
  else ({ t with stage := .finished }, if timely then [.failure t.tag id] else [])

end Task

/-- `Tombstones`: the order is the set.  The history is not kept by the code. -/
structure Tombstones where
  order : List String
  history : List String

def Tombstones.insert (tombstones : Tombstones) (id : String) : Tombstones where
  order := Support.Recent.remember tombstoneLimit tombstones.order id
  history := tombstones.history ++ [id]

/-- `tasks` stands for the join set together with the command channels; the ids that the
relay draws are never drawn again, so a task is known by its id. -/
structure Driver where
  backendAuthorization : String
  events : List TaskEvent
  tasks : String → Option Task
  pending : AList fun _ : String => Pending
  tombstones : Tombstones
  nextTag : Nat

def Driver.initial (backendToken : String) : Driver where
  backendAuthorization := "Bearer " ++ backendToken
  events := []
  tasks := fun _ => none
  pending := ∅
  tombstones := ⟨[], []⟩
  nextTag := 1

/-- What a handler leaves: the driver, the frames it sent, and its error if it failed. -/
structure Reply where
  driver : Driver
  sent : List Frame
  error : Option RelayError

namespace Driver

def setPending (d : Driver) (id : String) (pending : Pending) : Driver :=
  { d with pending := d.pending.insert id pending }

def setTask (d : Driver) (id : String) (task : Task) : Driver :=
  { d with tasks := Function.update d.tasks id (some task) }

def done (d : Driver) : Reply := ⟨d, [], none⟩

def refuse (d : Driver) (error : RelayError) : Reply := ⟨d, [], some error⟩

/-- `send_frame`; `timely` says whether the channel takes the frame in time. -/
def sendFrame (timely : Bool) (frame : Frame) : Option RelayError :=
  if (encodeFrame frame).isNone then some .invalidInput
  else if timely then none
  else some .unavailable

/-- `retire`; the tag is compared where one is expected. -/
def retire (d : Driver) (id : String) (expectedTag : Option Nat) : Driver :=
  match d.pending.lookup id with
  | none => d
  | some pending =>
    if expectedTag.all (pending.tag == ·) then
      { d with pending := d.pending.erase id, tombstones := d.tombstones.insert id }
    else d

def failRequest (d : Driver) (id : String) (tag : Nat) (timely : Nat) : Reply :=
  let d := d.retire id (some tag)
  match sendFrame (0 < timely) (.cancel id) with
  | some error => d.refuse error
  | none => ⟨d, [.cancel id], none⟩

/-- The request carries the backend's token, or is the anonymous probe. -/
def authorized (d : Driver) (path method : String) (headers : HeaderMap) : Bool :=
  let authorization := headers.get? "authorization"
  let anonymousProbe := path == "/connector-info" && method == "GET" && authorization.isNone
  !(!anonymousProbe && authorization != some d.backendAuthorization ||
    anonymousProbe && authorization.isSome)

def full (d : Driver) : Bool := decide (maxPending ≤ d.pending.keys.length)

/-- `next_tag.checked_add(1).unwrap_or(1)` -/
def advanceTag (tag : Nat) : Nat := if tag + 1 < 18446744073709551616 then tag + 1 else 1

def handleRequest (d : Driver) (id path method : String) (headers : HeaderMap)
    (body : String) (timely : Nat) : Reply :=
  if !d.authorized path method headers then d.refuse .unauthorized
  else if id ∈ d.pending ∨ id ∈ d.tombstones.order then d.refuse .invalidInput
  else if d.full then
    let d := { d with tombstones := d.tombstones.insert id }
    match sendFrame (0 < timely) (.cancel id) with
    | some error => d.refuse error
    | none => ⟨d, [.cancel id], none⟩
  else if (decodeBody body).isNone then d.refuse .invalidInput
  else if !(["GET", "POST", "DELETE"].contains method) then d.refuse .invalidInput
  else
    let pending : Pending :=
      { tag := d.nextTag, phase := .awaitingHeaders, nextSequence := 0, bytes := 0, chunks := 0 }
    done { (d.setTask id (.spawn d.nextTag)).setPending id pending with
      nextTag := advanceTag d.nextTag }

/-- `try_send` fails when the slot is taken and when the task dropped its receiver. -/
def trySend (task : Task) (sequence : Nat) : Option Task :=
  if task.stage = .finished ∨ task.command.isSome then none
  else some { task with command := some sequence }

def handleCredit (d : Driver) (id : String) (sequence : Nat) : Reply :=
  match d.pending.lookup id with
  | none => if id ∈ d.tombstones.order then d.done else d.refuse .invalidInput
  | some pending =>
    if pending.phase ≠ .waitingCredit ∨ pending.nextSequence ≠ sequence then
      d.refuse .invalidInput
    else
      match d.tasks id >>= fun task => trySend task sequence with
      | none => d.refuse .unavailable
      | some task =>
        done ((d.setTask id task).setPending id { pending with phase := .creditInFlight })

def handleCancel (d : Driver) (id : String) : Reply :=
  if id ∈ d.pending then done (d.retire id none)
  else if id ∈ d.tombstones.order then d.done
  else d.refuse .invalidInput

def handleInput (d : Driver) (frame : Frame) (timely : Nat) : Reply :=
  if (encodeFrame frame).isNone then d.refuse .invalidInput
  else
    match frame with
    | .request id path method headers body => d.handleRequest id path method headers body timely
    | .credit id sequence => d.handleCredit id sequence.toNat
    | .cancel id => d.handleCancel id
    | .response .. | .chunk .. | .end_ _ => d.refuse .invalidInput

/-- The pending request that an event is about, unless it is stale. -/
def current (d : Driver) (event : TaskEvent) : Option Pending :=
  (d.pending.lookup event.id).filter (·.tag == event.tag)

def handleHeaders (d : Driver) (pending : Pending) (id : String) (status : UInt16)
    (headers : HeaderMap) (bodyAllowed : Bool) (timely : Nat) : Reply :=
  if pending.phase ≠ .awaitingHeaders then d.refuse .invalidInput
  else
    let response : Frame := .response id status headers
    match sendFrame (0 < timely) response with
    | some error => d.refuse error
    | none =>
      if bodyAllowed then
        ⟨d.setPending id { pending with phase := .waitingCredit }, [response], none⟩
      else
        let d := d.setPending id { pending with phase := .noBody }
        match sendFrame (1 < timely) (.end_ id) with
        | some error => ⟨d, [response], some error⟩
        | none => ⟨d.retire id (some pending.tag), [response, .end_ id], none⟩

def handleChunk (d : Driver) (pending : Pending) (id : String) (sequence : Nat)
    (bytes : List UInt8) (timely : Nat) : Reply :=
  if pending.phase ≠ .creditInFlight ∨ pending.nextSequence ≠ sequence then
    d.failRequest id pending.tag timely
  else if bytes.isEmpty || decide (maxChunkBodyBytes < bytes.length) ||
      decide (maxResponseBytes < pending.bytes + bytes.length) ||
      decide (maxResponseChunks ≤ pending.chunks) then
    d.failRequest id pending.tag timely
  else
    match encodeBody bytes with
    | none => d.refuse .invalidResponse
    | some body =>
      let chunk : Frame := .chunk id (UInt64.ofNat sequence) body
      match sendFrame (0 < timely) chunk with
      | some error => d.refuse error
      | none =>
        let pending :=
          { pending with
            bytes := pending.bytes + bytes.length
            chunks := pending.chunks + 1
            nextSequence := pending.nextSequence + 1
            phase := .waitingCredit }
        ⟨d.setPending id pending, [chunk], none⟩

def handleEnd (d : Driver) (pending : Pending) (id : String) (timely : Nat) : Reply :=
  if pending.phase ≠ .creditInFlight then d.failRequest id pending.tag timely
  else
    match sendFrame (0 < timely) (.end_ id) with
    | some error => d.refuse error
    | none => ⟨d.retire id (some pending.tag), [.end_ id], none⟩

def handleEvent (d : Driver) (event : TaskEvent) (timely : Nat) : Reply :=
  match d.current event with
  | none => d.done
  | some pending =>
    match event with
    | .headers _ id status headers bodyAllowed =>
      d.handleHeaders pending id status headers bodyAllowed timely
    | .chunk _ id sequence bytes => d.handleChunk pending id sequence bytes timely
    | .end_ _ id => d.handleEnd pending id timely
    | .failure _ id => d.failRequest id pending.tag timely

end Driver

end Wenlan.Reverse.Desktop
