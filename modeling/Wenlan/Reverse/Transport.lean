import Mathlib.Data.List.AList
import Wenlan.Reverse.RelayCodec
import Wenlan.Support.Recent

/-!
# The relay end of a reverse connection

`ReverseTransport` of `reverse-transport.ts`.  A request's deadline and its caller's
signal both call `cancel`, so a timer is no part of the state.  Of a response body only
what the transport and a reader make of a `ReadableStream` is kept; a send that throws is
an argument.
-/

namespace Wenlan.Reverse.Relay

def maxPending : Nat := 8

def maxResponseBytes : Nat := 2 * 1024 * 1024

def maxChunks : Nat := 4096

/-- How many cancelled ids `cancel` keeps. -/
def maxCancelled : Nat := 32

structure ReverseRequest where
  path : String
  method : String
  headers : HeaderRecord
  body : String

structure Pending where
  head : Bool
  resolved : Bool
  bodyAllowed : Bool
  credit : Bool
  sequence : Nat
  bytes : Nat

def Pending.fresh : Pending where
  head := false
  resolved := false
  bodyAllowed := true
  credit := false
  sequence := 0
  bytes := 0

inductive Settlement where
  | resolved (status : Nat) (headers : HeaderRecord)
  | rejected

/-- A stream that its reader cancelled is told apart from one that was closed. -/
inductive StreamState where
  | readable
  | closeRequested
  | closed
  | errored
  | cancelled
  deriving DecidableEq

/-- The body of a response.  `pulling` holds until the promise of the last pull resolves,
and `read` is everything that the reader has been given. -/
structure Stream where
  queue : List (List UInt8)
  state : StreamState
  pulling : Bool
  read : List UInt8

namespace Stream

def fresh : Stream := ⟨[], .readable, false, []⟩

/-- `pullDone?.()` -/
def resolvePull (s : Stream) : Stream := { s with pulling := false }

/-- `controller.enqueue`, which throws on a stream that is not readable. -/
def enqueue (s : Stream) (bytes : List UInt8) : Option Stream :=
  match s.state with
  | .readable => some { s with queue := s.queue ++ [bytes] }
  | _ => none

/-- `controller.close`: what is queued can still be read. -/
def close (s : Stream) : Option Stream :=
  match s.state with
  | .readable => some { s with state := if s.queue.isEmpty then .closed else .closeRequested }
  | _ => none

def error (s : Stream) : Stream :=
  match s.state with
  | .readable | .closeRequested => { s with queue := [], state := .errored }
  | _ => s

/-- The reader takes the first chunk of the queue. -/
def take (s : Stream) : Stream :=
  match s.queue with
  | [] => s
  | bytes :: rest =>
    { s with
      queue := rest
      read := s.read ++ bytes
      state := if rest.isEmpty && s.state == .closeRequested then .closed else s.state }

def cancel (s : Stream) : Stream :=
  match s.state with
  | .readable | .closeRequested => { s with queue := [], state := .cancelled }
  | _ => s

end Stream

/-- The streams and the settlements outlive the requests they belong to. -/
structure Transport where
  pending : AList fun _ : String => Pending
  cancelled : List String
  closed : Bool
  streams : String → Option Stream
  settlements : String → Option Settlement
  /-- Every id that `cancel` removed, in order; the code keeps the last ones only. -/
  retired : List String

def Transport.initial : Transport where
  pending := ∅
  cancelled := []
  closed := false
  streams := fun _ => none
  settlements := fun _ => none
  retired := []

namespace Transport

def setStream (t : Transport) (id : String) (stream : Stream) : Transport :=
  { t with streams := Function.update t.streams id (some stream) }

def setPending (t : Transport) (id : String) (state : Pending) : Transport :=
  { t with pending := t.pending.insert id state }

def remove (t : Transport) (id : String) : Transport :=
  { t with pending := t.pending.erase id }

/-- `fail`, on the body of one request. -/
def failStream (stream : Option Stream) : Option Stream :=
  stream.map fun s => s.error.resolvePull

/-- `fail`, on the promise of one request. -/
def failSettlement (state : Pending) (settlement : Option Settlement) : Option Settlement :=
  if state.resolved then settlement else some .rejected

def fail (t : Transport) (id : String) (state : Pending) : Transport :=
  { t with
    streams := Function.update t.streams id (failStream (t.streams id))
    settlements :=
      Function.update t.settlements id (failSettlement state (t.settlements id)) }

/-- `disconnect` fails every request that is pending. -/
def disconnect (t : Transport) : Transport :=
  if t.closed then t
  else
    { t with
      pending := ∅
      cancelled := []
      closed := true
      streams := fun id => if id ∈ t.pending then failStream (t.streams id) else t.streams id
      settlements := fun id =>
        match t.pending.lookup id with
        | some state => failSettlement state (t.settlements id)
        | none => t.settlements id }

/-- `send`; `sends` says whether the channel takes the text. -/
def send (t : Transport) (frame : ReverseFrame) (sends : Bool) : Transport × List ReverseFrame :=
  if t.closed then (t, [])
  else if sends then (t, [frame])
  else (t.disconnect, [])

def sendFrame (t : Transport) (frame : ReverseFrame) (sends : Bool) :
    Transport × List ReverseFrame :=
  match encodeFrame frame.value with
  | none => (t.disconnect, [])
  | some _ => t.send frame sends

/-- `request`, with the id that `crypto.randomUUID` drew; `none` is a rejection at once.
The signal cannot change between its two tests. -/
def request (t : Transport) (id : String) (input : ReverseRequest) (aborted sends : Bool) :
    Option (Transport × List ReverseFrame) :=
  if t.closed || aborted || decide (maxPending ≤ t.pending.keys.length) then none
  else
    let frame := .request id input.path input.method input.headers input.body
    match encodeFrame frame.value with
    | none => none
    | some _ => some ((t.setPending id .fresh).send frame sends)

/-- The bounded set of cancelled ids. -/
def bury (t : Transport) (id : String) : Transport :=
  { t with
    cancelled := Support.Recent.remember maxCancelled t.cancelled id
    retired := t.retired ++ [id] }

def cancel (t : Transport) (id : String) (notifyPeer sends : Bool) :
    Transport × List ReverseFrame :=
  match t.pending.lookup id with
  | none => (t, [])
  | some state =>
    let t := ((t.remove id).bury id).fail id state
    if notifyPeer then t.sendFrame (.cancel id) sends else (t, [])

def nullBody (status : Nat) : Bool := [204, 205, 304].contains status

/-- The branches of `receive` on a pending request; `none` is a throw. -/
def receivePending (t : Transport) (state : Pending) : ReverseFrame → Option Transport
  | .cancel id => some (t.cancel id false true).1
  | .response id status headers =>
    if state.head then none
    else
      let bodyAllowed := !nullBody status
      let t := t.setPending id { state with head := true, bodyAllowed, resolved := true }
      let t := if bodyAllowed then t.setStream id .fresh else t
      let headers := headers.set ("cache-control", "no-store")
      some { t with
        settlements :=
          Function.update t.settlements id (some (.resolved status headers)) }
  | .chunk id seq body =>
    if !state.head || !state.bodyAllowed || !state.credit || seq != state.sequence ||
        decide (maxChunks ≤ state.sequence) then
      none
    else
      match decodeBody body with
      | none => none
      | some bytes =>
        if maxResponseBytes < state.bytes + bytes.length then none
        else
          match t.streams id >>= fun stream => stream.enqueue bytes with
          | none => none
          | some stream =>
            let state :=
              { state with
                bytes := state.bytes + bytes.length
                credit := false
                sequence := state.sequence + 1 }
            some ((t.setPending id state).setStream id stream.resolvePull)
  | .end_ id =>
    if !state.head then none
    else
      let t := t.remove id
      match t.streams id with
      | none => some t
      | some stream => stream.close.map fun closed => t.setStream id closed.resolvePull
  | .request .. | .credit .. => none

/-- The `try` block of `receive`, on a text that decodes; `none` is a throw. -/
def accept (t : Transport) (frame : ReverseFrame) : Option Transport :=
  match frame with
  | .request .. | .credit .. => none
  | .response id .. | .chunk id .. | .end_ id | .cancel id =>
    match t.pending.lookup id with
    | none => if id ∈ t.cancelled then some t else none
    | some state => t.receivePending state frame

/-- `receive`; the text decodes to a frame or does not decode. -/
def receive (t : Transport) (frame : Option ReverseFrame) : Transport :=
  if t.closed then t else (frame >>= t.accept).getD t.disconnect

/-- A message fails the connection. -/
def violates (t : Transport) (frame : Option ReverseFrame) : Bool :=
  !t.closed && (frame >>= t.accept).isNone

/-- `pull`, called when a reader waits and no earlier pull is unresolved. -/
def pull (t : Transport) (id : String) (sends : Bool) : Transport × List ReverseFrame :=
  match t.streams id with
  | none => (t, [])
  | some stream =>
    if stream.state != .readable || stream.pulling then (t, [])
    else
      match t.pending.lookup id with
      | none => (t, [])
      | some state =>
        ((t.setStream id { stream with pulling := true }).setPending id
          { state with credit := true }).sendFrame (.credit id state.sequence) sends

def read (t : Transport) (id : String) : Transport :=
  match t.streams id with
  | none => t
  | some stream => t.setStream id stream.take

/-- The `cancel` of a body's source runs after the stream let go of its queue. -/
def cancelBody (t : Transport) (id : String) (sends : Bool) : Transport × List ReverseFrame :=
  match t.streams id with
  | none => (t, [])
  | some stream =>
    if stream.state == .readable || stream.state == .closeRequested then
      (t.setStream id stream.cancel).cancel id true sends
    else (t, [])

end Transport

end Wenlan.Reverse.Relay
