import Wenlan.Reverse.CodecAgreement
import Wenlan.Reverse.Peer
import Wenlan.Reverse.Transport

/-!
# Two ends and the frames between them

The relay's transport, the desktop's driver with its tasks, the local server, and two
channels that lose nothing and keep their order.  Every step is one action of one of
them, in any order: deadlines and signals, readers, failing sends, time-outs of a task
and the end of either end are actions like any other.
-/

namespace Wenlan.Reverse

/-- `down` and `up` hold the frames in flight.  `unread` is what the local server wrote of
a body and its task has not taken; `produced` and `complete` are the history of that body.
`requested` holds every id that was drawn; `violated` and `overflowed` record whether an
end failed because of a frame, and whether a request found the desktop full. -/
structure System where
  relay : Relay.Transport
  driver : Desktop.Driver
  ended : Bool
  down : List Relay.ReverseFrame
  up : List Desktop.Frame
  unread : String → List UInt8
  produced : String → List UInt8
  complete : String → Bool
  requested : List String
  violated : Bool
  overflowed : Bool

def System.initial (backendToken : String) : System where
  relay := .initial
  driver := .initial backendToken
  ended := false
  down := []
  up := []
  unread := fun _ => []
  produced := fun _ => []
  complete := fun _ => false
  requested := []
  violated := false
  overflowed := false

/-- `sends` and `timely` say what a channel takes at the time of a step. -/
inductive Action where
  | request (id : String) (input : Relay.ReverseRequest) (aborted sends : Bool)
  | relayReceives
  | abort (id : String) (sends : Bool)
  | pull (id : String) (sends : Bool)
  | read (id : String)
  | cancelBody (id : String) (sends : Bool)
  | relayDisconnects
  | desktopReceives (timely : Nat)
  | desktopHandles (timely : Nat)
  | responds (id : String) (status : UInt16) (response : String → Option String)
  | endsBodiless (id : String)
  | takesCredit (id : String)
  | readsChunk (id : String) (size : Nat)
  | readsEnd (id : String)
  | emits (id : String)
  | fails (id : String)
  | reports (id : String) (timely : Bool)
  | desktopStops
  | produces (id : String) (bytes : List UInt8)
  | completes (id : String)

namespace System

def relayActs (s : System) (acted : Relay.Transport × List Relay.ReverseFrame) : System :=
  { s with relay := acted.1, down := s.down ++ acted.2 }

/-- The driver ran a handler; an error ends it. -/
def desktopActs (s : System) (reply : Desktop.Reply) : System :=
  { s with
    driver := reply.driver
    up := s.up ++ reply.sent
    ended := reply.error.isSome }

def taskActs (s : System) (id : String) (enabled : Desktop.Task → Bool)
    (act : Desktop.Task → Desktop.Task × List Desktop.TaskEvent) : Option System :=
  match s.driver.tasks id with
  | none => none
  | some task =>
    if s.ended || !enabled task then none
    else
      some { s with
        driver :=
          { s.driver.setTask id (act task).1 with
            events := s.driver.events ++ (act task).2 } }

def decoded (frame : Desktop.Frame) : Option Relay.ReverseFrame :=
  Relay.validateFrame (toRelay frame).value

def isRequest : Relay.ReverseFrame → Bool
  | .request .. => true
  | _ => false

def step (s : System) : Action → Option System
  | .request id input aborted sends =>
    if id ∈ s.requested then none
    else
      match s.relay.request id input aborted sends with
      | none => some s
      | some acted => some { s.relayActs acted with requested := id :: s.requested }
  | .relayReceives =>
    match s.up with
    | [] => none
    | frame :: rest =>
      some { s with
        relay := s.relay.receive (decoded frame)
        up := rest
        violated := s.violated || s.relay.violates (decoded frame) }
  | .abort id sends => some (s.relayActs (s.relay.cancel id true sends))
  | .pull id sends => some (s.relayActs (s.relay.pull id sends))
  | .read id => some { s with relay := s.relay.read id }
  | .cancelBody id sends => some (s.relayActs (s.relay.cancelBody id sends))
  | .relayDisconnects => some { s with relay := s.relay.disconnect }
  | .desktopReceives timely =>
    match s.down with
    | [] => none
    | frame :: rest =>
      if s.ended then none
      else
        let reply := s.driver.handleInput (toDesktop frame) timely
        some { s.desktopActs reply with
          down := rest
          violated := s.violated || reply.error.isSome
          overflowed := s.overflowed || (isRequest frame && s.driver.full) }
  | .desktopHandles timely =>
    match s.driver.events with
    | [] => none
    | event :: rest =>
      if s.ended then none
      else some (s.desktopActs ({ s.driver with events := rest }.handleEvent event timely))
  | .responds id status response =>
    s.taskActs id (fun _ => true) fun task => task.respond id status response
  | .endsBodiless id => s.taskActs id (fun _ => true) fun task => task.endBodiless id
  | .takesCredit id => s.taskActs id (fun _ => true) fun task => (task.takeCredit, [])
  | .readsChunk id size =>
    (s.taskActs id Desktop.Task.wantsChunk fun task =>
      (task.readChunk ((s.unread id).take size), [])).map fun t =>
        { t with unread := Function.update s.unread id ((s.unread id).drop size) }
  | .readsEnd id =>
    s.taskActs id (fun task => task.wantsChunk && (s.unread id).isEmpty && s.complete id)
      fun task => task.readEnd id
  | .emits id => s.taskActs id (fun _ => true) fun task => task.emit id
  | .fails id => s.taskActs id (·.stage != .finished) fun task => (task.fail, [])
  | .reports id timely => s.taskActs id (fun _ => true) fun task => task.report id timely
  | .desktopStops => some { s with ended := true }
  | .produces id bytes =>
    if s.complete id then none
    else
      some { s with
        unread := Function.update s.unread id (s.unread id ++ bytes)
        produced := Function.update s.produced id (s.produced id ++ bytes) }
  | .completes id => some { s with complete := Function.update s.complete id true }

end System

end Wenlan.Reverse

/-!
## One request, seen from everywhere

Ids never meet in the two ends: what happens to a request is a matter of its own entries
at both ends, its own frames in flight and its own task.  `Exchange` is that view of a
system, and `Move` lists what one step of the system can do to it.
-/

namespace Wenlan.Reverse

/-- A frame toward the desktop, without its id. -/
inductive Asked where
  | request
  | credit (seq : Nat)
  | cancel
  | other

/-- A frame toward the relay, without its id. -/
inductive Told where
  | response (bodyAllowed : Bool)
  | chunk (seq : Nat) (bytes : Option (List UInt8))
  | end_
  | cancel
  | other

def Relay.ReverseFrame.id : Relay.ReverseFrame → String
  | .request id .. | .response id .. | .chunk id .. | .end_ id | .cancel id | .credit id _ => id

def Desktop.Frame.id : Desktop.Frame → String
  | .request id .. | .response id .. | .chunk id .. | .end_ id | .cancel id | .credit id _ => id

def asks : Relay.ReverseFrame → Asked
  | .request .. => .request
  | .credit _ seq => .credit (UInt64.ofNat seq).toNat
  | .cancel _ => .cancel
  | .response .. | .chunk .. | .end_ _ => .other

def tells : Desktop.Frame → Told
  | .response _ status _ => .response !Relay.Transport.nullBody status.toNat
  | .chunk _ seq body => .chunk seq.toNat (Relay.decodeBody body)
  | .end_ _ => .end_
  | .cancel _ => .cancel
  | .request .. | .credit .. => .other

structure Exchange where
  used : Bool
  closed : Bool
  ended : Bool
  relay : Option Relay.Pending
  stream : Option Relay.Stream
  relayRetired : Bool
  asked : List Asked
  told : List Told
  desktop : Option Desktop.Pending
  task : Option Desktop.Task
  events : List Desktop.TaskEvent
  desktopRetired : Bool
  unread : List UInt8
  produced : List UInt8
  complete : Bool

def askedOf (id : String) (frames : List Relay.ReverseFrame) : List Asked :=
  (frames.filter (·.id == id)).map asks

def toldOf (id : String) (frames : List Desktop.Frame) : List Told :=
  (frames.filter (·.id == id)).map tells

def eventsOf (id : String) (events : List Desktop.TaskEvent) : List Desktop.TaskEvent :=
  events.filter (·.id == id)

def System.exchange (s : System) (id : String) : Exchange where
  used := s.requested.contains id
  closed := s.relay.closed
  ended := s.ended
  relay := s.relay.pending.lookup id
  stream := s.relay.streams id
  relayRetired := s.relay.retired.contains id
  asked := askedOf id s.down
  told := toldOf id s.up
  desktop := s.driver.pending.lookup id
  task := s.driver.tasks id
  events := eventsOf id s.driver.events
  desktopRetired := s.driver.tombstones.history.contains id
  unread := s.unread id
  produced := s.produced id
  complete := s.complete id

def StreamStops : Option Relay.Stream → Option Relay.Stream → Prop
  | none, none => True
  | some s, some t =>
    t.read = s.read ∧ (t.queue = s.queue ∧ t.state = s.state ∨
        t.queue = [] ∧ (t.state = .errored ∨ t.state = .cancelled))
  | _, _ => False

/-- The relay's end is closed; its desktop side and the local server did nothing. -/
structure Lost (x y : Exchange) : Prop where
  closed : y.closed = true
  relay : y.relay = none
  stream : StreamStops x.stream y.stream
  told : y.told = x.told ∨ ∃ frame, x.told = frame :: y.told
  rest : y = { x with
    used := y.used
    closed := y.closed
    relay := y.relay
    stream := y.stream
    relayRetired := y.relayRetired
    told := y.told }

/-- The desktop's end is over; it may have announced an answer before. -/
structure Halted (x y : Exchange) : Prop where
  before : x.ended = false ∨ y.told = x.told
  ended : y.ended = true
  asked : y.asked = x.asked ∨ ∃ frame, x.asked = frame :: y.asked
  told : y.told = x.told ∨
    ∃ pending bodyAllowed, x.desktop = some pending ∧ pending.phase = .awaitingHeaders ∧
      y.told = x.told ++ [.response bodyAllowed]
  rest : y = { x with
    ended := y.ended
    asked := y.asked
    told := y.told
    desktop := y.desktop
    task := y.task
    events := y.events
    desktopRetired := y.desktopRetired }

inductive Move : Exchange → Exchange → Prop
  | same (x : Exchange) : Move x x
  -- The relay.
  | requested {x : Exchange} (hused : x.used = false) (hclosed : x.closed = false) :
      Move x { x with used := true, relay := some .fresh, asked := x.asked ++ [.request] }
  | lost {x y : Exchange} (h : Lost x y) : Move x y
  | dropped {x : Exchange} {frame : Told} {rest : List Told} (htold : x.told = frame :: rest)
      (hrelay : x.relay = none) : Move x { x with told := rest }
  | answered {x : Exchange} {bodyAllowed : Bool} {rest : List Told} {p : Relay.Pending}
      (htold : x.told = .response bodyAllowed :: rest) (hrelay : x.relay = some p)
      (hhead : p.head = false) :
      Move x { x with
        told := rest
        relay := some { p with head := true, bodyAllowed := bodyAllowed, resolved := true }
        stream := if bodyAllowed then some .fresh else x.stream }
  | delivered {x : Exchange} {seq : Nat} {bytes : List UInt8} {rest : List Told}
      {p : Relay.Pending} {stream stream' : Relay.Stream}
      (htold : x.told = .chunk seq (some bytes) :: rest) (hrelay : x.relay = some p)
      (hstream : x.stream = some stream) (henqueue : stream.enqueue bytes = some stream') :
      Move x { x with
        told := rest
        relay := some { p with
          bytes := p.bytes + bytes.length
          credit := false
          sequence := p.sequence + 1 }
        stream := some stream'.resolvePull }
  | completed {x : Exchange} {rest : List Told} {p : Relay.Pending}
      {stream : Option Relay.Stream} (htold : x.told = .end_ :: rest)
      (hrelay : x.relay = some p)
      (hstream : x.stream = none ∧ stream = none ∨
        ∃ open_ closed, x.stream = some open_ ∧ open_.close = some closed ∧
          stream = some closed.resolvePull) :
      Move x { x with told := rest, relay := none, stream := stream }
  | refused {x : Exchange} {rest : List Told} {p : Relay.Pending}
      {stream : Option Relay.Stream} (htold : x.told = .cancel :: rest)
      (hrelay : x.relay = some p) (hstream : StreamStops x.stream stream) :
      Move x { x with told := rest, relay := none, relayRetired := true, stream := stream }
  | cancelled {x : Exchange} {p : Relay.Pending} {stream : Option Relay.Stream}
      (hrelay : x.relay = some p) (hstream : StreamStops x.stream stream) :
      Move x { x with
        relay := none
        relayRetired := true
        stream := stream
        asked := x.asked ++ [.cancel] }
  | pulled {x : Exchange} {p : Relay.Pending} {stream : Relay.Stream}
      (hrelay : x.relay = some p) (hstream : x.stream = some stream)
      (hstate : stream.state = .readable) (hpulling : stream.pulling = false) :
      Move x { x with
        relay := some { p with credit := true }
        stream := some { stream with pulling := true }
        asked := x.asked ++ [.credit p.sequence] }
  | taken {x : Exchange} {stream : Relay.Stream} (hstream : x.stream = some stream) :
      Move x { x with stream := some stream.take }
  | stopped {x : Exchange} {stream : Option Relay.Stream} (hrelay : x.relay = none)
      (hstream : StreamStops x.stream stream) : Move x { x with stream := stream }
  -- The driver, on a frame.
  | accepted {x : Exchange} {rest : List Asked} (tag : Nat) (hended : x.ended = false)
      (hasked : x.asked = .request :: rest) (hdesktop : x.desktop = none) :
      Move x { x with
        asked := rest
        desktop := some ⟨tag, .awaitingHeaders, 0, 0, 0⟩
        task := some (.spawn tag) }
  | overloaded {x : Exchange} {rest : List Asked} (hended : x.ended = false)
      (hasked : x.asked = .request :: rest) (hdesktop : x.desktop = none) :
      Move x { x with asked := rest, told := x.told ++ [.cancel], desktopRetired := true }
  | skipped {x : Exchange} {frame : Asked} {rest : List Asked} (hended : x.ended = false)
      (hasked : x.asked = frame :: rest) (hframe : frame ≠ .request)
      (hdesktop : x.desktop = none) : Move x { x with asked := rest }
  | credited {x : Exchange} {seq : Nat} {rest : List Asked} {p : Desktop.Pending}
      {task : Desktop.Task} (hended : x.ended = false) (hasked : x.asked = .credit seq :: rest)
      (hdesktop : x.desktop = some p) (hphase : p.phase = .waitingCredit)
      (hseq : p.nextSequence = seq) (htask : x.task = some task)
      (hstage : task.stage ≠ .finished) :
      Move x { x with
        asked := rest
        desktop := some { p with phase := .creditInFlight }
        task := some { task with command := some seq } }
  | revoked {x : Exchange} {rest : List Asked} {p : Desktop.Pending} (hended : x.ended = false)
      (hasked : x.asked = .cancel :: rest) (hdesktop : x.desktop = some p) :
      Move x { x with asked := rest, desktop := none, desktopRetired := true }
  | halted {x y : Exchange} (h : Halted x y) : Move x y
  -- The driver, on an event.
  | stale {x : Exchange} {event : Desktop.TaskEvent} {rest : List Desktop.TaskEvent}
      (hended : x.ended = false) (hevents : x.events = event :: rest)
      (hdesktop : ∀ p, x.desktop = some p → p.tag ≠ event.tag) : Move x { x with events := rest }
  | headersSent {x : Exchange} {tag : Nat} {id : String} {status : UInt16}
      {headers : Desktop.HeaderMap} {rest : List Desktop.TaskEvent} {p : Desktop.Pending}
      (hended : x.ended = false)
      (hevents : x.events = .headers tag id status headers true :: rest)
      (hdesktop : x.desktop = some p) (hphase : p.phase = .awaitingHeaders) :
      Move x { x with
        events := rest
        told := x.told ++ [.response !Relay.Transport.nullBody status.toNat]
        desktop := some { p with phase := .waitingCredit } }
  | bodilessSent {x : Exchange} {tag : Nat} {id : String} {status : UInt16}
      {headers : Desktop.HeaderMap} {rest : List Desktop.TaskEvent} {p : Desktop.Pending}
      (hended : x.ended = false)
      (hevents : x.events = .headers tag id status headers false :: rest)
      (hdesktop : x.desktop = some p) (hphase : p.phase = .awaitingHeaders) :
      Move x { x with
        events := rest
        told := x.told ++ [.response !Relay.Transport.nullBody status.toNat, .end_]
        desktop := none
        desktopRetired := true }
  | chunkSent {x : Exchange} {tag : Nat} {id : String} {seq : Nat} {bytes : List UInt8}
      {rest : List Desktop.TaskEvent} {p : Desktop.Pending} (hended : x.ended = false)
      (hevents : x.events = .chunk tag id seq bytes :: rest) (hdesktop : x.desktop = some p)
      (hphase : p.phase = .creditInFlight) (hseq : p.nextSequence = seq)
      (hbytes : p.bytes + bytes.length ≤ Desktop.maxResponseBytes)
      (hchunks : p.chunks < Desktop.maxResponseChunks) :
      Move x { x with
        events := rest
        told := x.told ++ [.chunk (UInt64.ofNat seq).toNat (some bytes)]
        desktop := some { p with
          bytes := p.bytes + bytes.length
          chunks := p.chunks + 1
          nextSequence := p.nextSequence + 1
          phase := .waitingCredit } }
  | endSent {x : Exchange} {tag : Nat} {id : String} {rest : List Desktop.TaskEvent}
      {p : Desktop.Pending} (hended : x.ended = false)
      (hevents : x.events = .end_ tag id :: rest) (hdesktop : x.desktop = some p)
      (hphase : p.phase = .creditInFlight) :
      Move x { x with
        events := rest
        told := x.told ++ [.end_]
        desktop := none
        desktopRetired := true }
  | failed {x : Exchange} {event : Desktop.TaskEvent} {rest : List Desktop.TaskEvent}
      {p : Desktop.Pending} (hended : x.ended = false) (hevents : x.events = event :: rest)
      (hdesktop : x.desktop = some p) :
      Move x { x with
        events := rest
        told := x.told ++ [.cancel]
        desktop := none
        desktopRetired := true }
  -- The task.
  | responded {x : Exchange} {id : String} {task : Desktop.Task} {status : UInt16}
      {headers : Desktop.HeaderMap} (hended : x.ended = false) (htask : x.task = some task)
      (hstage : task.stage = .requesting) :
      Move x { x with
        task := some { task with
          stage := if Desktop.Task.bodyAllowed status then .waiting else .bodiless }
        events := x.events ++
          [.headers task.tag id status headers (Desktop.Task.bodyAllowed status)] }
  | bodilessEnded {x : Exchange} {id : String} {task : Desktop.Task}
      (hended : x.ended = false) (htask : x.task = some task)
      (hstage : task.stage = .bodiless) :
      Move x { x with
        task := some { task with stage := .finished }
        events := x.events ++ [.end_ task.tag id] }
  | creditTaken {x : Exchange} {task : Desktop.Task} (hended : x.ended = false)
      (htask : x.task = some task) (hstage : task.stage = .waiting)
      (hcommand : task.command.isSome) :
      Move x { x with task := some { task with command := none, stage := .reading } }
  | chunkRead {x : Exchange} {task : Desktop.Task} (size : Nat) (hended : x.ended = false)
      (htask : x.task = some task) (hstage : task.stage = .reading)
      (hbuffered : task.buffered = []) :
      Move x { x with
        task := some { task with buffered := x.unread.take size }
        unread := x.unread.drop size }
  | endRead {x : Exchange} {id : String} {task : Desktop.Task} (hended : x.ended = false)
      (htask : x.task = some task) (hstage : task.stage = .reading)
      (hbuffered : task.buffered = []) (hunread : x.unread = [])
      (hcomplete : x.complete = true) :
      Move x { x with
        task := some { task with stage := .finished }
        events := x.events ++ [.end_ task.tag id] }
  | emitted {x : Exchange} {id : String} {task : Desktop.Task} {size : Nat}
      (hended : x.ended = false) (htask : x.task = some task)
      (hstage : task.stage = .reading) :
      Move x { x with
        task := some { task with
          stage := .waiting
          sequence := task.sequence + 1
          buffered := task.buffered.drop size
          bytesTotal := task.bytesTotal + size
          chunksTotal := task.chunksTotal + 1 }
        events := x.events ++ [.chunk task.tag id task.sequence (task.buffered.take size)] }
  | broke {x : Exchange} {task : Desktop.Task} {command : Option Nat} {unread : List UInt8}
      (hended : x.ended = false) (htask : x.task = some task) (hstage : task.stage ≠ .finished)
      (hcommand : command = task.command ∨ command = none) (hunread : unread <:+ x.unread) :
      Move x { x with
        task := some { task with stage := .failing, command := command }
        unread := unread }
  | reported {x : Exchange} {task : Desktop.Task} {events : List Desktop.TaskEvent}
      (hended : x.ended = false) (htask : x.task = some task)
      (hstage : task.stage = .failing)
      (hevents : events = [] ∨ ∃ id, events = [.failure task.tag id]) :
      Move x { x with
        task := some { task with stage := .finished }
        events := x.events ++ events }
  -- The local server.
  | wrote {x : Exchange} (bytes : List UInt8) (hcomplete : x.complete = false) :
      Move x { x with unread := x.unread ++ bytes, produced := x.produced ++ bytes }
  | finished (x : Exchange) : Move x { x with complete := true }

end Wenlan.Reverse
