import Wenlan.Reverse.Work

/-!
# Integrity of the streamed bodies

What a reader was given, what its stream holds, what is on its way, what the task holds
and what the local server wrote but nobody took are, in this order, the body.
-/

namespace Wenlan.Reverse

open Exchange Relay.Stream
open Desktop (Stage TaskEvent)

/-- The bytes that a stream was given: read or still queued. -/
def Relay.Stream.given (stream : Relay.Stream) : List UInt8 :=
  stream.read ++ stream.queue.flatten

def givenTo : Option Relay.Stream → List UInt8
  | none => []
  | some stream => stream.given

def Told.bytes : Told → List UInt8
  | .chunk _ (some bytes) => bytes
  | .chunk _ none | .response _ | .end_ | .cancel | .other => []

def toldBytes (told : List Told) : List UInt8 := told.flatMap Told.bytes

def Desktop.TaskEvent.payload : TaskEvent → List UInt8
  | .chunk _ _ _ bytes => bytes
  | .headers .. | .end_ .. | .failure .. => []

def eventBytes (events : List TaskEvent) : List UInt8 := events.flatMap TaskEvent.payload

def Desktop.TaskEvent.isEnd : TaskEvent → Bool
  | .end_ .. => true
  | .headers .. | .chunk .. | .failure .. => false

/-- The task still means to read the body to its end. -/
def Desktop.Stage.live : Stage → Bool
  | .requesting | .waiting | .reading => true
  | .bodiless | .failing | .finished => false

/-- What has left the desktop for the relay, and what the driver is about to send. -/
def Exchange.relayed (x : Exchange) : List UInt8 := givenTo x.stream ++ toldBytes x.told

def Exchange.reported (x : Exchange) : List UInt8 := x.relayed ++ eventBytes x.events

def Exchange.Whole (x : Exchange) (bytes : List UInt8) : Prop :=
  bytes = x.produced ∧ x.complete = true

def Exchange.answers (x : Exchange) : Prop :=
  x.stream.isSome = true ∨ .response true ∈ x.told

structure Flows (x : Exchange) : Prop where
  given : givenTo x.stream <+: x.produced
  closed : ∀ stream, x.stream = some stream →
    stream.state = .closed ∨ stream.state = .closeRequested → x.Whole stream.given
  emptied : ∀ stream, x.stream = some stream → stream.state = .closed → stream.queue = []
  relayed : x.relay ≠ none → x.relayed <+: x.produced
  ending : x.relay ≠ none → .end_ ∈ x.told → x.answers → x.Whole x.relayed
  reported : x.ended = false → x.relay ≠ none → x.desktop ≠ none → x.reported <+: x.produced
  held : x.ended = false → x.relay ≠ none → x.desktop ≠ none →
    ∀ task, x.task = some task → task.stage.live = true →
      x.reported ++ task.buffered ++ x.unread = x.produced
  finished : x.ended = false → x.relay ≠ none → ∀ p, x.desktop = some p →
    p.phase = .creditInFlight → (∃ event ∈ x.events, event.isEnd = true) → x.Whole x.reported

theorem toldBytes_append (told told' : List Told) :
    toldBytes (told ++ told') = toldBytes told ++ toldBytes told' :=
  List.flatMap_append

theorem eventBytes_append (events events' : List TaskEvent) :
    eventBytes (events ++ events') = eventBytes events ++ eventBytes events' :=
  List.flatMap_append

theorem toldBytes_cons (frame : Told) (told : List Told) :
    toldBytes (frame :: told) = frame.bytes ++ toldBytes told :=
  List.flatMap_cons

theorem eventBytes_cons (event : TaskEvent) (events : List TaskEvent) :
    eventBytes (event :: events) = event.payload ++ eventBytes events :=
  List.flatMap_cons

variable {events : List TaskEvent}

theorem eventBytes_noReport (h : NoReport events) : eventBytes events = [] := by
  refine List.flatMap_eq_nil_iff.mpr fun event hmem => ?_
  have hnone := h event hmem
  cases event with
  | chunk => cases hnone
  | headers | end_ | failure => rfl

theorem noEnd_noReport (h : NoReport events) : ¬∃ event ∈ events, event.isEnd := by
  rintro ⟨event, hmem, hend⟩
  have hnone := h event hmem
  cases event with
  | end_ => cases hnone
  | headers | chunk | failure => cases hend

theorem given_take (stream : Relay.Stream) : stream.take.given = stream.given := by
  unfold take given
  cases hqueue : stream.queue with
  | nil => rw [hqueue]
  | cons bytes rest => rw [List.flatten_cons, List.append_assoc]

theorem given_enqueue {stream stream' : Relay.Stream} {bytes : List UInt8}
    (h : stream.enqueue bytes = some stream') :
    stream'.resolvePull.given = stream.given ++ bytes ∧ stream'.state = stream.state := by
  unfold enqueue at h
  split at h
  · next hstate =>
      cases h
      constructor
      · simp [given, resolvePull]
      · rfl
  · cases h

theorem given_stops {stream stream' : Option Relay.Stream} (h : StreamStops stream stream') :
    givenTo stream' <+: givenTo stream := by
  cases stream with
  | none =>
    rw [streamStops_none h]
  | some s =>
    cases stream' with
    | none => exact h.elim
    | some t =>
      obtain ⟨hread, hkept | ⟨hqueue, -⟩⟩ := h
      · simp only [givenTo, given, hread, hkept.1]
        exact List.prefix_rfl
      · simp only [givenTo, given, hread, hqueue, List.flatten_nil, List.append_nil]
        exact List.prefix_append _ _

/-! ## The invariant under the moves -/

section Moves

variable {x : Exchange}

variable {y : Exchange}

/-- With no pending request at the relay, what matters is the stream. -/
theorem flows_idle (h : Flows x) (hrelay : y.relay = none)
    (hstr : StreamStops x.stream y.stream) (hprod : y.produced = x.produced)
    (hcomp : y.complete = x.complete) : Flows y := by
  have hnone : ¬y.relay ≠ none := not_not.mpr hrelay
  constructor
  · rw [hprod]
    exact (given_stops hstr).trans h.given
  · intro stream hs hstate
    rw [hs] at hstr
    cases hbef : x.stream with
    | none =>
      rw [hbef] at hstr
      exact hstr.elim
    | some before =>
      rw [hbef] at hstr
      obtain ⟨hread, ⟨hqueue, hsame⟩ | ⟨-, hstopped⟩⟩ := hstr
      · have hwhole := h.closed before hbef (hsame ▸ hstate)
        rw [Whole, hprod, hcomp, given, hread, hqueue]
        exact hwhole
      · rcases hstopped with hstopped | hstopped <;> simp [hstopped] at hstate
  · intro stream hs hstate
    rw [hs] at hstr
    cases hbef : x.stream with
    | none =>
      rw [hbef] at hstr
      exact hstr.elim
    | some before =>
      rw [hbef] at hstr
      obtain ⟨-, ⟨hqueue, hsame⟩ | ⟨hqueue, -⟩⟩ := hstr
      · rw [hqueue]
        exact h.emptied before hbef (hsame ▸ hstate)
      · exact hqueue
  · exact fun hne => absurd hne hnone
  · exact fun hne => absurd hne hnone
  all_goals exact fun _ hne => absurd hne hnone

theorem stream_of_fresh (h : Ends x) (hrelay : x.relay = some .fresh) : x.stream = none := by
  have hstrea := h.streamed _ hrelay
  cases hstr : x.stream with
  | none => rfl
  | some stream =>
    rw [hstr] at hstrea
    cases hstrea.1

variable {q : Relay.Pending}

theorem open_of_pending (h : Ends x) (hrelay : x.relay = some q) : x.closed = false := by
  by_contra hclosed
  rw [h.drained (by simpa using hclosed)] at hrelay
  cases hrelay

/-- While both ends serve a request, no end is on its way, and before the answer
nothing is. -/
theorem serving_told (h : Ends x) (hended : x.ended = false)
    (hrelay : x.relay = some q) {p : Desktop.Pending} (hdesk : x.desktop = some p) :
    .end_ ∉ x.told ∧ (p.phase = .awaitingHeaders → x.told = [] ∧ x.relay = some .fresh) := by
  have hlink := h.linked (open_of_pending h hrelay) hended
  rw [linked, hrelay, hdesk] at hlink
  rw [hrelay]
  generalize x.told = told at hlink ⊢
  generalize x.relayRetired = retired at hlink
  generalize x.asked = asked at hlink
  generalize x.used = used at hlink
  generalize x.desktopRetired = gone at hlink
  cases hlink with
  | serving => exact ⟨List.not_mem_nil, fun _ => ⟨rfl, rfl⟩⟩
  | answered | ready | credited | working | delivering => simp

theorem requested_told (h : Ends x) (hended : x.ended = false)
    (hrelay : x.relay = some q) {rest : List Asked} (hasked : x.asked = .request :: rest)
    (hdesk : x.desktop = none) : x.told = [] ∧ x.relay = some .fresh := by
  have hlink := h.linked (open_of_pending h hrelay) hended
  rw [linked, hrelay, hdesk, hasked] at hlink
  rw [hrelay]
  generalize x.told = told at hlink ⊢
  generalize x.relayRetired = retired at hlink
  generalize x.used = used at hlink
  generalize x.desktopRetired = gone at hlink
  cases hlink with
  | requested => exact ⟨rfl, rfl⟩
  | closing p asked told hasked =>
    exact absurd (hasked _ List.mem_cons_self) (by simp [Asked.follows])

theorem relayed_eq (hstr : y.stream = x.stream)
    (htold : toldBytes y.told = toldBytes x.told) : y.relayed = x.relayed := by
  rw [relayed, relayed, hstr, htold]

theorem reported_eq (hrel : y.relayed = x.relayed)
    (hev : eventBytes y.events = eventBytes x.events) : y.reported = x.reported := by
  rw [reported, reported, hrel, hev]

section

variable (h : Flows x) (hrel : y.relay ≠ none → y.relayed <+: x.produced)
  (hendin : y.relay ≠ none → .end_ ∈ y.told → y.answers → x.Whole y.relayed)
include h hrel hendin

/-- A step that leaves the relay's entry and the stream alone. -/
theorem flows_rest (hrep : y.ended = false → y.relay ≠ none → y.desktop ≠ none →
      y.reported <+: x.produced) (hheld : y.ended = false → y.relay ≠ none → y.desktop ≠ none →
      ∀ task, y.task = some task → task.stage.live →
        y.reported ++ task.buffered ++ y.unread = x.produced)
    (hfin : y.ended = false → y.relay ≠ none → ∀ p, y.desktop = some p →
      p.phase = .creditInFlight → (∃ event ∈ y.events, event.isEnd) →
        x.Whole y.reported) (hstr : y.stream = x.stream) (hprod : y.produced = x.produced)
    (hcomp : y.complete = x.complete) : Flows y := by
  constructor
  · rw [hstr, hprod]
    exact h.given
  · intro stream hs hstate
    rw [Whole, hprod, hcomp]
    exact h.closed stream (hstr ▸ hs) hstate
  · intro stream hs
    exact h.emptied stream (hstr ▸ hs)
  · rw [hprod]
    exact hrel
  · simpa only [Whole, hprod, hcomp] using hendin
  · rw [hprod]
    exact hrep
  · rw [hprod]
    exact hheld
  · simpa only [Whole, hprod, hcomp] using hfin

/-- Nothing but the ends' book-keeping changed, or the desktop is done. -/
theorem flows_gone (hgone : y.ended ∨ y.desktop = none) (hstr : y.stream = x.stream)
    (hprod : y.produced = x.produced) (hcomp : y.complete = x.complete) : Flows y := by
  have hfalse : y.ended = false → y.desktop ≠ none → False := by
    intro hended hdesk
    rcases hgone with hgone | hgone
    · exact nomatch hended.symm.trans hgone
    · exact hdesk hgone
  refine flows_rest h hrel hendin ?_ ?_ ?_ hstr hprod hcomp
  · exact fun hended _ hdesk => (hfalse hended hdesk).elim
  · exact fun hended _ hdesk => (hfalse hended hdesk).elim
  · intro hended _ p hdesk
    exact (hfalse hended (by rw [hdesk]; exact Option.some_ne_none p)).elim

end

/-- A step of the relay that leaves its entry pending. -/
theorem flows_relay (h : Flows x) (hx : x.relay ≠ none)
    (hsame : y.relayed = x.relayed) (hgiven : givenTo y.stream <+: x.produced)
    (hopen : ∀ stream, y.stream = some stream →
      stream.state ≠ .closed ∧ stream.state ≠ .closeRequested)
    (hendin : .end_ ∈ y.told → y.answers → .end_ ∈ x.told ∧ x.answers) (hrest : y = { x with
      relay := y.relay
      stream := y.stream
      told := y.told
      asked := y.asked }) : Flows y := by
  have hprod : y.produced = x.produced := by rw [hrest]
  have hcomp : y.complete = x.complete := by rw [hrest]
  have hended : y.ended = x.ended := by rw [hrest]
  have hdesk : y.desktop = x.desktop := by rw [hrest]
  have htask : y.task = x.task := by rw [hrest]
  have hunr : y.unread = x.unread := by rw [hrest]
  have hev : y.events = x.events := by rw [hrest]
  have hrep : y.reported = x.reported := reported_eq hsame (by rw [hev])
  constructor
  · rw [hprod]
    exact hgiven
  · intro stream hs hstate
    exact hstate.elim (fun hs' => absurd hs' (hopen stream hs).1)
      absurd (hopen stream hs).2
  · exact fun stream hs hstate => absurd hstate (hopen stream hs).1
  · intro _
    rw [hsame, hprod]
    exact h.relayed hx
  · intro _ hend hanswers
    obtain ⟨hend', hanswers'⟩ := hendin hend hanswers
    rw [Whole, hsame, hprod, hcomp]
    exact h.ending hx hend' hanswers'
  · intro hrun _ hd
    rw [hrep, hprod]
    exact h.reported (hended ▸ hrun) hx (hdesk ▸ hd)
  · intro hrun _ hd task ht hlive
    rw [hrep, hprod, hunr]
    exact h.held (hended ▸ hrun) hx (hdesk ▸ hd) task (htask ▸ ht) hlive
  · intro hrun _ p hp hphase hend
    rw [Whole, hrep, hprod, hcomp]
    exact h.finished (hended ▸ hrun) hx p (hdesk ▸ hp) hphase (hev ▸ hend)

/-- A step of a task with the driver's entry pending or gone. -/
theorem flows_task (h : Flows x)
    (hrest : y = { x with task := y.task, events := y.events, unread := y.unread })
    (hworks : x.ended = false → x.relay ≠ none → ∀ p, x.desktop = some p →
      y.reported <+: x.produced ∧ (∀ task, y.task = some task → task.stage.live →
          y.reported ++ task.buffered ++ y.unread = x.produced) ∧
        (p.phase = .creditInFlight → (∃ event ∈ y.events, event.isEnd) →
          x.Whole y.reported)) : Flows y := by
  have hended : y.ended = x.ended := by rw [hrest]
  have hrelay : y.relay = x.relay := by rw [hrest]
  have hdesk : y.desktop = x.desktop := by rw [hrest]
  have htold : y.told = x.told := by rw [hrest]
  have hstr : y.stream = x.stream := by rw [hrest]
  have hrel : y.relayed = x.relayed := by rw [hrest]; rfl
  have hanswers : y.answers ↔ x.answers := by rw [hrest]; rfl
  have hpend : y.ended = false → y.relay ≠ none → y.desktop ≠ none → y.reported <+: x.produced ∧
        ∀ task, y.task = some task → task.stage.live →
          y.reported ++ task.buffered ++ y.unread = x.produced := by
    intro hrun hy hd
    rw [hdesk] at hd
    obtain ⟨p, hp⟩ := Option.ne_none_iff_exists'.mp hd
    have hall := hworks (hended ▸ hrun) (hrelay ▸ hy) p hp
    exact ⟨hall.1, hall.2.1⟩
  refine flows_rest h ?_ ?_ ?_ ?_ ?_ hstr (by rw [hrest]) (by rw [hrest])
  · rw [hrelay, hrel]
    exact h.relayed
  · rw [hrelay, htold, hrel, hanswers]
    exact h.ending
  · exact fun hrun hy hd => (hpend hrun hy hd).1
  · exact fun hrun hy hd => (hpend hrun hy hd).2
  · intro hrun hy p hp
    exact (hworks (hended ▸ hrun) (hrelay ▸ hy) p (hdesk ▸ hp)).2.2

/-- A body that is closed behind its last chunk. -/
theorem flows_completed {rest : List Told} {p : Relay.Pending} {stream : Option Relay.Stream}
    (hends : Ends x) (h : Flows x) (htold : x.told = .end_ :: rest) (hrelay : x.relay = some p)
    (hstr : x.stream = none ∧ stream = none ∨
      ∃ open_ closed, x.stream = some open_ ∧ open_.close = some closed ∧
        stream = some closed.resolvePull) :
    Flows { x with told := rest, relay := none, stream := stream } := by
  rcases hstr with ⟨hnone, rfl⟩ | ⟨before, closed, hbef, hclose, rfl⟩
  · refine flows_idle h rfl ?_ rfl rfl
    rw [hnone]
    trivial
  · have htakes := hends.relayAccepts (open_of_pending hends hrelay)
    rw [hrelay, htold] at htakes
    obtain ⟨-, rfl⟩ := htakes
    have hsome : x.relay ≠ none := by
      rw [hrelay]
      exact Option.some_ne_none p
    have hwhole : x.Whole before.given := by
      have hall := h.ending hsome (htold ▸ List.mem_cons_self) (.inl (by rw [hbef]; rfl))
      have hrel : x.relayed = before.given := by
        rw [relayed, hbef, htold, toldBytes_cons]
        exact List.append_nil _
      rw [hrel] at hall
      exact hall
    unfold close at hclose
    split at hclose
    · cases hclose
      have hnone : ∀ {P : Prop}, (none : Option Relay.Pending) ≠ none → P :=
        absurd rfl
      refine ⟨hwhole.1 ▸ List.prefix_rfl, ?_, ?_, hnone, hnone, fun _ => hnone,
        fun _ => hnone, fun _ => hnone⟩
      · intro stream hs _
        cases hs
        exact hwhole
      · intro stream hs hstate
        cases hs
        split at hstate
        · next hempty => exact List.isEmpty_iff.mp hempty
        · cases hstate
    · cases hclose

theorem flows_taken {stream : Relay.Stream} (h : Flows x) (hstr : x.stream = some stream) :
    Flows { x with stream := some stream.take } := by
  have hgiven : givenTo (some stream.take) = givenTo x.stream := by
    rw [hstr]
    exact given_take stream
  have hrel : ({ x with stream := some stream.take } : Exchange).relayed = x.relayed := by
    rw [relayed, relayed, hgiven]
  have hrep : ({ x with stream := some stream.take } : Exchange).reported =
      x.reported := reported_eq hrel rfl
  constructor
  · rw [hgiven]
    exact h.given
  · intro taken htaken hstate
    cases htaken
    rw [given_take]
    refine h.closed stream hstr ?_
    unfold take at hstate
    split at hstate
    · exact hstate
    · split at hstate
      · next hboth => simp_all
      · exact hstate
  · intro taken htaken hstate
    cases htaken
    unfold take at hstate ⊢
    split at hstate
    · next hqueue => exact hqueue
    · next bytes rest hqueue =>
        split at hstate
        · next hboth => simp_all
        · have hempty := h.emptied stream hstr hstate
          rw [hqueue] at hempty
          cases hempty
  · intro hrelay
    rw [hrel]
    exact h.relayed hrelay
  · intro hrelay hend hanswers
    rw [hrel]
    refine h.ending hrelay hend (hanswers.imp_left fun _ => ?_)
    rw [hstr]
    rfl
  · rw [hrep]
    exact h.reported
  · rw [hrep]
    exact h.held
  · rw [hrep]
    exact h.finished

end Moves

section Frames

variable {x : Exchange} {p : Desktop.Pending}

theorem some_ne {α : Type} {o : Option α} {a : α} (h : o = some a) : o ≠ none := by
  rw [h]
  exact Option.some_ne_none a

theorem toldBytes_push (told : List Told) {frame : Told} (hframe : frame.bytes = []) :
    toldBytes (told ++ [frame]) = toldBytes told := by
  rw [toldBytes_append, toldBytes_cons, hframe]
  exact List.append_nil _

/-- The driver sends a frame without bytes and is done with the request. -/
theorem flows_cancelled (h : Flows x) {asked : List Asked}
    (hdesk : Option Desktop.Pending) (hgone : hdesk = none) : Flows { x with
      asked := asked
      told := x.told ++ [.cancel]
      events := events
      desktop := hdesk
      desktopRetired := true } := by
  have hrel : givenTo x.stream ++ toldBytes (x.told ++ [.cancel]) = x.relayed := by
    rw [toldBytes_push x.told rfl]
    rfl
  refine flows_gone h ?_ ?_ (.inr hgone) rfl rfl rfl
  · intro hrelay
    rw [relayed, hrel]
    exact h.relayed hrelay
  · intro hrelay hend hanswers
    rw [relayed, hrel]
    refine h.ending hrelay ?_ ?_
    · simpa using hend
    · exact hanswers.imp_right fun hmem => by simpa using hmem

variable {rest : List TaskEvent}

section

variable (hends : Ends x) (h : Flows x) (hended : x.ended = false) (hdesk : x.desktop = some p)
include hends h hended hdesk

/-- The driver passes on what a task reports, and waits for what comes next. -/
theorem flows_told {frame : Told} (hframe : frame ≠ .end_)
    (hbytes : eventBytes x.events = frame.bytes ++ eventBytes rest)
    {q : Desktop.Pending} (hq : q.phase ≠ .creditInFlight) :
    Flows { x with events := rest, told := x.told ++ [frame], desktop := some q } := by
  have hrel : givenTo x.stream ++ toldBytes (x.told ++ [frame]) = x.relayed ++ frame.bytes := by
    rw [toldBytes_append, toldBytes_cons, ← List.append_assoc]
    simp [toldBytes, relayed]
  have hrep : ({ x with
      events := rest, told := x.told ++ [frame], desktop := some q } : Exchange).reported =
      x.reported := by
    rw [reported, relayed, hrel, reported, hbytes, List.append_assoc]
  refine flows_rest h ?_ ?_ ?_ ?_ ?_ rfl rfl rfl
  · intro hrelay
    have hall := h.reported hended hrelay (some_ne hdesk)
    rw [reported, hbytes, ← List.append_assoc] at hall
    rw [relayed, hrel]
    exact (List.prefix_append _ _).trans hall
  · intro hrelay hend
    obtain ⟨r, hr⟩ := Option.ne_none_iff_exists'.mp hrelay
    have hnot := (serving_told hends hended hr hdesk).1
    exact absurd (by simpa [hframe.symm] using hend) hnot
  · intro _ hrelay _
    rw [hrep]
    exact h.reported hended hrelay (some_ne hdesk)
  · intro _ hrelay _
    rw [hrep]
    exact h.held hended hrelay (some_ne hdesk)
  · intro _ _ r hr hphase
    cases hr
    exact absurd hphase hq

theorem flows_headers {event : TaskEvent}
    (hev : x.events = event :: rest) (hevent : event.payload = []) (bodyAllowed : Bool) :
    Flows { x with
      events := rest
      told := x.told ++ [.response bodyAllowed]
      desktop := some { p with phase := .waitingCredit } } := by
  apply flows_told hends h hended hdesk (Told.noConfusion : Told.response bodyAllowed ≠ .end_)
  · rw [hev, eventBytes_cons, hevent]
    rfl
  · exact nofun

theorem flows_bodiless (hphase : p.phase = .awaitingHeaders) {bodyAllowed : Bool}
    (hallow : bodyAllowed = false) :
    Flows { x with
      events := rest
      told := x.told ++ [.response bodyAllowed, .end_]
      desktop := none
      desktopRetired := true } := by
  have hrel : givenTo x.stream ++ toldBytes (x.told ++ [.response bodyAllowed, .end_]) =
      x.relayed := by
    rw [toldBytes_append, toldBytes_cons, toldBytes_cons]
    simp [Told.bytes, toldBytes, relayed]
  refine flows_gone h ?_ ?_ (.inr rfl) rfl rfl rfl
  · intro hrelay
    rw [relayed, hrel]
    exact h.relayed hrelay
  · intro hrelay hend hanswers
    obtain ⟨q, hq⟩ := Option.ne_none_iff_exists'.mp hrelay
    obtain ⟨htold, hfresh⟩ := (serving_told hends hended hq hdesk).2 hphase
    have hstr := stream_of_fresh hends hfresh
    rcases hanswers with hanswers | hanswers
    · simp [hstr] at hanswers
    · simp [htold, hallow] at hanswers

theorem flows_chunk {tag seq sent : Nat} {id : String} {bytes : List UInt8}
    (hev : x.events = .chunk tag id seq bytes :: rest)
    {q : Desktop.Pending} (hq : q.phase = .waitingCredit) : Flows { x with
      events := rest
      told := x.told ++ [.chunk sent (some bytes)]
      desktop := some q } := by
  apply flows_told hends h hended hdesk (Told.noConfusion : Told.chunk sent (some bytes) ≠ .end_)
  · rw [hev, eventBytes_cons]
    rfl
  · rw [hq]
    exact nofun

end

theorem flows_end (hworks : Works x) (h : Flows x) (hended : x.ended = false)
    (hdesk : x.desktop = some p) (hphase : p.phase = .creditInFlight) {tag : Nat}
    {id : String} (hev : x.events = .end_ tag id :: rest) : Flows { x with
      events := rest
      told := x.told ++ [.end_]
      desktop := none
      desktopRetired := true } := by
  have hrel : givenTo x.stream ++ toldBytes (x.told ++ [.end_]) = x.relayed := by
    rw [toldBytes_push x.told rfl]
    rfl
  refine flows_gone h ?_ ?_ (.inr rfl) rfl rfl rfl
  · intro hrelay
    rw [relayed, hrel]
    exact h.relayed hrelay
  · intro hrelay _ _
    rw [relayed, hrel]
    obtain ⟨task, _, _, hholds⟩ := hworks.pending p hdesk
    rw [hphase, hev] at hholds
    have hnone := hholds.1.tail_of_report rfl
    have hall := h.finished hended hrelay p hdesk hphase
      ⟨_, hev ▸ List.mem_cons_self, rfl⟩
    have hrep : x.reported = x.relayed := by
      rw [reported, hev, eventBytes_cons, eventBytes_noReport hnone.events]
      simp [TaskEvent.payload]
    rw [hrep] at hall
    exact hall

end Frames

end Wenlan.Reverse
