import Wenlan.Reverse.Integrity

/-!
# Streaming

Every move keeps the bytes of a body in order and complete, so along every run a reader
has a prefix of the body, and all of it once its stream is closed.
-/

namespace Wenlan.Reverse

open Exchange List
open Desktop (TaskEvent)

section Moves

variable {x : Exchange}

theorem flows_requested (hends : Ends x) (h : Flows x) (hused : x.used = false)
    (hclos : x.closed = false) :
    Flows { x with used := true, relay := some .fresh, asked := x.asked ++ [.request] } := by
  obtain ⟨hrelay, hstream, hret⟩ := hends.unused hclos hused
  have htold : x.told = [] := by
    have hacc := hends.relayAccepts hclos
    rw [hrelay, hret] at hacc
    exact hacc.resolve_left Bool.false_ne_true
  have hrel : x.relayed = [] := by
    rw [relayed, hstream, htold]
    rfl
  have hdesk : x.ended = false → x.desktop = none := by
    intro hended
    have hlink := hends.linked hclos hended
    rw [linked, hused, hrelay, hret, htold] at hlink
    generalize x.asked = asked at hlink
    generalize x.desktop = desktop at hlink ⊢
    generalize x.desktopRetired = gone at hlink
    cases hlink
    rfl
  refine flows_rest h ?_ ?_ ?_ ?_ ?_ rfl rfl rfl
  · intro _
    change x.relayed <+: x.produced
    rw [hrel]
    exact nil_prefix
  · intro _ hend
    rw [htold] at hend
    cases hend
  · exact fun hended _ hd => absurd (hdesk hended) hd
  · exact fun hended _ hd => absurd (hdesk hended) hd
  · exact fun hended _ p hp => absurd (hdesk hended) (some_ne hp)

variable {p q : Relay.Pending} {rest : List Told}

theorem flows_answered (hends : Ends x) (h : Flows x) {bodyAllowed : Bool}
    (htold : x.told = .response bodyAllowed :: rest)
    (hrelay : x.relay = some p) (hhead : p.head = false) : Flows { x with
      told := rest
      relay := some q
      stream := if bodyAllowed then some .fresh else x.stream } := by
  have hnone : x.stream = none := by
    have hstr := hends.streamed p hrelay
    cases hstream : x.stream with
    | none => rfl
    | some stream =>
      rw [hstream] at hstr
      exact nomatch hhead.symm.trans hstr.1
  have hbytes : toldBytes x.told = toldBytes rest := by
    rw [htold, toldBytes_cons]
    rfl
  have hgiven : givenTo (if bodyAllowed then some .fresh else x.stream) = givenTo x.stream := by
    rw [hnone]
    cases bodyAllowed <;> rfl
  refine flows_relay h (some_ne hrelay) ?_ ?_ ?_ ?_ rfl
  · rw [relayed, hgiven, relayed, hbytes]
  · rw [hgiven]
    exact h.given
  · intro stream hs
    rw [hnone] at hs
    cases bodyAllowed with
    | false => cases hs
    | true =>
      cases hs
      simp [Relay.Stream.fresh]
  · intro hend hansw
    rw [htold]
    refine ⟨mem_cons_of_mem _ hend, .inr ?_⟩
    rw [htold]
    cases bodyAllowed with
    | true => exact mem_cons_self
    | false =>
      rcases hansw with hsome | hmem
      · simp [hnone] at hsome
      · exact mem_cons_of_mem _ hmem

theorem flows_delivered (hends : Ends x) (h : Flows x) {seq : Nat} {bytes : List UInt8}
    {stream stream' : Relay.Stream}
    (htold : x.told = .chunk seq (some bytes) :: rest) (hrelay : x.relay = some p)
    (hstream : x.stream = some stream) (henq : stream.enqueue bytes = some stream') :
    Flows { x with told := rest, relay := some q, stream := some stream'.resolvePull } := by
  obtain ⟨hgiven, hstate⟩ := given_enqueue henq
  have hrel : x.relayed = stream'.resolvePull.given ++ toldBytes rest := by
    rw [relayed, hstream, htold, toldBytes_cons, hgiven, append_assoc]
    rfl
  have hreada : stream.state = .readable := by
    have hstr := hends.streamed p hrelay
    rw [hstream] at hstr
    exact hstr.2.2.1
  refine flows_relay h (some_ne hrelay) hrel.symm ?_ ?_ ?_ rfl
  · have hall := h.relayed (some_ne hrelay)
    rw [hrel] at hall
    exact (prefix_append _ _).trans hall
  · intro taken htaken
    cases htaken
    have hsame : stream'.resolvePull.state = .readable := hstate.trans hreada
    simp [hsame]
  · intro hend _
    rw [htold]
    exact ⟨mem_cons_of_mem _ hend, .inl (by rw [hstream]; rfl)⟩

theorem flows_pulled (h : Flows x) {stream : Relay.Stream}
    (hrelay : x.relay = some p) (hstream : x.stream = some stream)
    (hstate : stream.state = .readable) {asked : List Asked} : Flows { x with
      relay := some q
      stream := some { stream with pulling := true }
      asked := asked } := by
  have hgiven : givenTo (some { stream with pulling := true }) = givenTo x.stream := by
    rw [hstream]
    rfl
  refine flows_relay h (some_ne hrelay) ?_ ?_ ?_ ?_ rfl
  · rw [relayed, hgiven, relayed]
  · rw [hgiven]
    exact h.given
  · intro taken htaken
    cases htaken
    simp [hstate]
  · exact fun hend _ => ⟨hend, .inl (by rw [hstream]; rfl)⟩

theorem flows_accepted (hends : Ends x) (hworks : Works x) (h : Flows x) (tag : Nat)
    (hended : x.ended = false) {rest : List Asked} (hasked : x.asked = .request :: rest)
    (hdesk : x.desktop = none) {p : Desktop.Pending} (hphase : p.phase = .awaitingHeaders) :
    Flows { x with asked := rest, desktop := some p, task := some (.spawn tag) } := by
  have hidle : x.events = [] ∧ x.unread = x.produced := by
    have hacc := hends.desktopAccepts hended
    rw [hasked] at hacc
    exact hworks.idle (hworks.spawned hdesk hacc.2.1)
  have hrep : x.relay ≠ none → x.reported = [] := by
    intro hrelay
    obtain ⟨q, hq⟩ := Option.ne_none_iff_exists'.mp hrelay
    obtain ⟨htold, hfresh⟩ := requested_told hends hended hq hasked hdesk
    rw [reported, relayed, stream_of_fresh hends hfresh, htold, hidle.1]
    rfl
  refine flows_rest h h.relayed h.ending ?_ ?_ ?_ rfl rfl rfl
  · intro _ hrelay _
    change x.reported <+: x.produced
    rw [hrep hrelay]
    exact nil_prefix
  · intro _ hrelay _ task htask _
    cases htask
    change x.reported ++ [] ++ x.unread = x.produced
    rw [hrep hrelay]
    exact hidle.2
  · intro _ _ q hq hcredit
    cases hq
    rw [hphase] at hcredit
    cases hcredit

theorem flows_credited (hworks : Works x) (h : Flows x) (hended : x.ended = false)
    {p q : Desktop.Pending} {task task' : Desktop.Task} (hdesk : x.desktop = some p)
    (hphase : p.phase = .waitingCredit) (htask : x.task = some task)
    (hstage : task'.stage = task.stage) (hbuf : task'.buffered = task.buffered)
    {asked : List Asked} :
    Flows { x with asked := asked, desktop := some q, task := some task' } := by
  refine flows_rest h h.relayed h.ending ?_ ?_ ?_ rfl rfl rfl
  · exact fun _ hrelay _ => h.reported hended hrelay (some_ne hdesk)
  · intro _ hrelay _ taken htaken hlive
    cases htaken
    rw [hbuf]
    exact h.held hended hrelay (some_ne hdesk) task htask (hstage ▸ hlive)
  · intro _ _ _ _ _ hend
    obtain ⟨current, _, _, hspent⟩ := hworks.pending p hdesk
    rw [hphase] at hspent
    exact absurd hend (noEnd_noReport hspent.1.events)

theorem flows_halted {y : Exchange} (hends : Ends x) (h : Flows x) (hhalt : Halted x y) :
    Flows y := by
  have hrest := hhalt.rest
  have hstream : y.stream = x.stream := by rw [hrest]
  have hrelay : y.relay = x.relay := by rw [hrest]
  have hrel : y.relayed = x.relayed := by
    refine relayed_eq hstream ?_
    rcases hhalt.told with htold | ⟨q, bodyAllowed, -, -, htold⟩
    · rw [htold]
    · rw [htold, toldBytes_push x.told rfl]
  refine flows_gone h ?_ ?_ (.inl hhalt.ended) hstream (by rw [hrest]) (by rw [hrest])
  · rw [hrelay, hrel]
    exact h.relayed
  · rw [hrelay, hrel]
    intro hy hend hansw
    have hsame : y.told = x.told → x.Whole x.relayed := by
      intro htold
      refine h.ending hy (htold ▸ hend) ?_
      rw [answers, hstream, htold] at hansw
      exact hansw
    rcases hhalt.told with htold | ⟨p, bodyAllowed, hdesk, -, htold⟩
    · exact hsame htold
    · rcases hhalt.before with hended | htold'
      · obtain ⟨q, hq⟩ := Option.ne_none_iff_exists'.mp hy
        have hnot := (serving_told hends hended hq hdesk).1
        rw [htold] at hend
        exact absurd (by simpa using hend) hnot
      · exact hsame htold'

end Moves

/-! ## The task -/

section Tasks

variable {x : Exchange} {task task' : Desktop.Task} {event : TaskEvent}

theorem end_of_push (hevent : event.isEnd = false)
    (h : ∃ e ∈ x.events ++ [event], e.isEnd) : ∃ e ∈ x.events, e.isEnd := by
  obtain ⟨e, hmem, hend⟩ := h
  rcases mem_append.mp hmem with hmem | hmem
  · exact ⟨e, hmem, hend⟩
  · rw [mem_singleton.mp hmem, hevent] at hend
    cases hend

theorem reported_push (x : Exchange) (event : TaskEvent) (task : Option Desktop.Task)
    (unread : List UInt8) :
    ({ x with task := task, events := x.events ++ [event], unread := unread }).reported =
      x.reported ++ event.payload := by
  change x.relayed ++ eventBytes (x.events ++ [event]) = _
  rw [eventBytes_append, ← append_assoc]
  simp [eventBytes, reported]

theorem flows_pushed (h : Flows x) (htask : x.task = some task) (hpayl : event.payload = [])
    (hevent : event.isEnd = false) (hlive : task'.stage.live → task.stage.live)
    (hbuf : task'.buffered = task.buffered) :
    Flows { x with task := some task', events := x.events ++ [event] } := by
  refine flows_task h rfl fun hended hrelay p hp => ?_
  rw [reported_push x event (some task') x.unread, hpayl, append_nil]
  refine ⟨h.reported hended hrelay (some_ne hp), ?_, ?_⟩
  · intro taken htaken hlive'
    cases htaken
    rw [hbuf]
    exact h.held hended hrelay (some_ne hp) task htask (hlive hlive')
  · exact fun hphase hend => h.finished hended hrelay p hp hphase (end_of_push hevent hend)

theorem flows_quiet (h : Flows x) (htask : x.task = some task) {unread : List UInt8}
    (hheld : task'.stage.live → task.stage.live ∧
      task'.buffered ++ unread = task.buffered ++ x.unread) :
    Flows { x with task := some task', unread := unread } := by
  refine flows_task h rfl fun hended hrelay p hp => ?_
  refine ⟨h.reported hended hrelay (some_ne hp), ?_, ?_⟩
  · intro taken htaken hlive
    cases htaken
    obtain ⟨hbef, hbytes⟩ := hheld hlive
    have hall := h.held hended hrelay (some_ne hp) task htask hbef
    rw [append_assoc, hbytes, ← append_assoc]
    exact hall
  · exact h.finished hended hrelay p hp

theorem flows_bodilessEnded (hworks : x.ended = false → Works x) (h : Flows x)
    (htask : x.task = some task) (hstage : task.stage = .bodiless)
    (hstage' : task'.stage = .finished) (hpayl : event.payload = []) :
    Flows { x with task := some task', events := x.events ++ [event] } := by
  refine flows_task h rfl fun hended hrelay p hp => ?_
  rw [reported_push x event (some task') x.unread, hpayl, append_nil]
  refine ⟨h.reported hended hrelay (some_ne hp), ?_, ?_⟩
  · intro taken htaken hlive
    cases htaken
    rw [hstage'] at hlive
    cases hlive
  · intro hphase _
    obtain ⟨current, hcur, -, hholds⟩ := (hworks hended).pending p hp
    obtain rfl := Option.mem_unique htask hcur
    rw [hphase] at hholds
    exact absurd hstage hholds.2.2

theorem flows_endRead (h : Flows x) (htask : x.task = some task) (hstage : task.stage = .reading)
    (hbuf : task.buffered = []) (hunr : x.unread = []) (hcomp : x.complete)
    (hstage' : task'.stage = .finished) (hpayl : event.payload = []) :
    Flows { x with task := some task', events := x.events ++ [event] } := by
  refine flows_task h rfl fun hended hrelay p hp => ?_
  rw [reported_push x event (some task') x.unread, hpayl, append_nil]
  refine ⟨h.reported hended hrelay (some_ne hp), ?_, ?_⟩
  · intro taken htaken hlive
    cases htaken
    rw [hstage'] at hlive
    cases hlive
  · intro _ _
    have hall := h.held hended hrelay (some_ne hp) task htask (by rw [hstage]; rfl)
    rw [hbuf, hunr, append_nil, append_nil] at hall
    exact ⟨hall, hcomp⟩

theorem flows_emitted (hworks : x.ended = false → Works x) (h : Flows x)
    (htask : x.task = some task) (hstage : task.stage = .reading) (size : Nat)
    (hbuf : task'.buffered = task.buffered.drop size)
    (hpayl : event.payload = task.buffered.take size) (hevent : event.isEnd = false) :
    Flows { x with task := some task', events := x.events ++ [event] } := by
  refine flows_task h rfl fun hended hrelay p hp => ?_
  rw [reported_push x event (some task') x.unread, hpayl]
  have hheld : x.reported ++ task.buffered.take size ++ task.buffered.drop size ++ x.unread =
      x.produced := by
    rw [append_assoc x.reported, take_append_drop]
    exact h.held hended hrelay (some_ne hp) task htask (by rw [hstage]; rfl)
  refine ⟨?_, ?_, ?_⟩
  · rw [← hheld, append_assoc]
    exact prefix_append _ _
  · intro taken htaken _
    cases htaken
    rw [hbuf]
    exact hheld
  · intro hphase hend
    obtain ⟨current, hcur, -, hholds⟩ := (hworks hended).pending p hp
    obtain rfl := Option.mem_unique htask hcur
    rw [hphase] at hholds
    have hquiet := (hholds.1.of_reading hstage).2
    exact absurd (end_of_push hevent hend) (noEnd_noReport hquiet)

theorem flows_stale (hworks : x.ended = false → Works x) (h : Flows x)
    {rest : List TaskEvent} (hev : x.events = event :: rest)
    (hstale : ∀ p, x.desktop = some p → p.tag ≠ event.tag) : Flows { x with events := rest } := by
  refine flows_task h rfl fun hended _ p hp => ?_
  exact absurd (works_current (hworks hended) hev hp) (hstale p hp)

end Tasks

theorem flows_wrote {x : Exchange} (h : Flows x) (bytes : List UInt8)
    (hcomp : x.complete = false) :
    Flows { x with unread := x.unread ++ bytes, produced := x.produced ++ bytes } := by
  have hmore : ∀ {part : List UInt8}, part <+: x.produced → part <+: x.produced ++ bytes :=
    fun hpart => hpart.trans (prefix_append _ _)
  have hopen : ∀ {part : List UInt8}, ¬x.Whole part := by
    rintro part ⟨-, hdone⟩
    exact nomatch hcomp.symm.trans hdone
  constructor
  · exact hmore h.given
  · exact fun stream hs hstate => absurd (h.closed stream hs hstate) hopen
  · exact h.emptied
  · exact fun hrelay => hmore (h.relayed hrelay)
  · exact fun hrelay hend hansw => absurd (h.ending hrelay hend hansw) hopen
  · exact fun hended hrelay hdesk => hmore (h.reported hended hrelay hdesk)
  · intro hended hrelay hdesk task htask hlive
    have hall := h.held hended hrelay hdesk task htask hlive
    change x.reported ++ task.buffered ++ (x.unread ++ bytes) = x.produced ++ bytes
    rw [← append_assoc, hall]
  · exact fun hended hrelay p hp hphase hend =>
      absurd (h.finished hended hrelay p hp hphase hend) hopen

theorem flows_finished {x : Exchange} (h : Flows x) : Flows { x with complete := true } :=
  ⟨h.given, fun stream hs hstate => ⟨(h.closed stream hs hstate).1, rfl⟩, h.emptied, h.relayed,
    fun hrelay hend hansw => ⟨(h.ending hrelay hend hansw).1, rfl⟩, h.reported, h.held,
    fun hended hrelay p hp hphase hend => ⟨(h.finished hended hrelay p hp hphase hend).1, rfl⟩⟩

theorem flows_move {x y : Exchange} (hmove : Move x y) (hends : Ends x)
    (hworks : x.ended = false → Works x) (h : Flows x) : Flows y := by
  cases hmove with
  | same => exact h
  | requested hused hclos => exact flows_requested hends h hused hclos
  | lost hlost =>
    exact flows_idle h hlost.relay hlost.stream (by rw [hlost.rest]) (by rw [hlost.rest])
  | dropped htold hrelay =>
    refine flows_idle h hrelay ?_ rfl rfl
    exact .refl x.stream
  | answered htold hrelay hhead => exact flows_answered hends h htold hrelay hhead
  | delivered htold hrelay hstream henq =>
    exact flows_delivered hends h htold hrelay hstream henq
  | completed htold hrelay hstream => exact flows_completed hends h htold hrelay hstream
  | refused htold hrelay hstream => exact flows_idle h rfl hstream rfl rfl
  | cancelled hrelay hstream => exact flows_idle h rfl hstream rfl rfl
  | pulled hrelay hstream hstate => exact flows_pulled h hrelay hstream hstate
  | taken hstream => exact flows_taken h hstream
  | stopped hrelay hstream => exact flows_idle h hrelay hstream rfl rfl
  | accepted tag hended hasked hdesk =>
    exact flows_accepted hends (hworks hended) h tag hended hasked hdesk rfl
  | overloaded _ _ hdesk => exact flows_cancelled h x.desktop hdesk
  | skipped =>
    exact ⟨h.given, h.closed, h.emptied, h.relayed, h.ending, h.reported, h.held, h.finished⟩
  | revoked => exact flows_gone h h.relayed h.ending (.inr rfl) rfl rfl rfl
  | credited hended _ hdesk hphase _ htask =>
    refine flows_credited (hworks hended) h hended hdesk hphase htask ?_ ?_
    · rfl
    · rfl
  | halted hhalt => exact flows_halted hends h hhalt
  | stale _ hev hstale => exact flows_stale hworks h hev hstale
  | headersSent hended hev hdesk =>
    exact flows_headers hends h hended hdesk hev rfl _
  | bodilessSent hended hev hdesk hphase =>
    have hallow := hends.announced hended _ _ _ _ _ (hev ▸ mem_cons_self)
    exact flows_bodiless hends h hended hdesk hphase hallow.symm
  | chunkSent hended hev hdesk =>
    exact flows_chunk hends h hended hdesk hev rfl
  | endSent hended hev hdesk hphase =>
    exact flows_end (hworks hended) h hended hdesk hphase hev
  | failed => exact flows_cancelled h none rfl
  | responded _ htask hstage =>
    refine flows_pushed h htask rfl rfl ?_ rfl
    intro _
    rw [hstage]
    rfl
  | bodilessEnded _ htask hstage => exact flows_bodilessEnded hworks h htask hstage rfl rfl
  | creditTaken _ htask hstage =>
    refine flows_quiet h htask fun _ => ⟨?_, rfl⟩
    rw [hstage]
    rfl
  | chunkRead size _ htask hstage hbuf =>
    refine flows_quiet h htask fun hlive => ⟨hlive, ?_⟩
    rw [hbuf]
    exact take_append_drop size x.unread
  | endRead _ htask hstage hbuf hunr hcomp =>
    exact flows_endRead h htask hstage hbuf hunr hcomp rfl rfl
  | emitted _ htask hstage =>
    exact flows_emitted hworks h htask hstage _ rfl rfl rfl
  | broke _ htask => exact flows_quiet h htask nofun
  | reported _ htask _ hev =>
    rcases hev with rfl | ⟨id, rfl⟩
    · rw [append_nil]
      exact flows_quiet h htask nofun
    · exact flows_pushed h htask rfl rfl (nofun) rfl
  | wrote bytes hcomp => exact flows_wrote h bytes hcomp
  | finished => exact flows_finished h

open Support.Transition (Run)

/-- The invariants together. -/
structure Streams (x : Exchange) : Prop where
  ends : Ends x
  works : x.ended = false → Works x
  flows : Flows x

theorem streams_move {x y : Exchange} (hmove : Move x y) (h : Streams x) : Streams y := by
  constructor
  · exact ends_move hmove h.ends
  · exact fun hended => works_move hmove hended h.ends (h.works (ended_mono hmove hended))
  · exact flows_move hmove h.ends h.works h.flows

theorem streams_initial (backendToken id : String) :
    Streams ((System.initial backendToken).exchange id) := by
  refine ⟨ends_initial backendToken id, fun _ => works_initial backendToken id, ?_⟩
  have hnone : ∀ {P : Prop}, (none : Option Relay.Pending) ≠ none → P :=
    absurd rfl
  exact ⟨List.nil_prefix, nofun, nofun, hnone, hnone,
    fun _ => hnone, fun _ => hnone, fun _ => hnone⟩

/-- The invariants of every request. -/
def System.Streaming (s : System) : Prop := ∀ id, Streams (s.exchange id)

theorem streaming_step {s s' : System} {action : Action} (h : s.Streaming)
    (hstep : s.StepsTo action s') : s'.Streaming := by
  intro id
  have hdrain := drained_of_ends fun id => (h id).ends
  exact streams_move (move_of_step hdrain hstep id) (h id)

theorem streaming_run {backendToken : String} {actions : List Action} {s : System}
    (hrun : Run System.StepsTo (System.initial backendToken) actions s) : s.Streaming :=
  hrun.invariant (fun _ _ _ h hstep => streaming_step h hstep) (streams_initial backendToken)

/-- A reader is given a prefix of the body that the local server wrote for its own request,
and its stream is closed only when that was the whole body. -/
theorem streaming_integrity (backendToken : String) (actions : List Action) (s : System)
    (hrun : Run System.StepsTo (System.initial backendToken) actions s) (id : String)
    (stream : Relay.Stream) (hstream : s.relay.streams id = some stream) :
    stream.read <+: s.produced id ∧
      (stream.state = .closed → stream.read = s.produced id ∧ s.complete id = true) := by
  have hflows := (streaming_run hrun id).flows
  have hx : (s.exchange id).stream = some stream := hstream
  constructor
  · have hgiven : stream.given <+: s.produced id := by
      have hall := hflows.given
      rw [hx] at hall
      exact hall
    exact (List.prefix_append _ _).trans hgiven
  · intro hstate
    obtain ⟨hall, hcomp⟩ := hflows.closed stream hx (.inl hstate)
    have hempty := hflows.emptied stream hx hstate
    rw [Relay.Stream.given, hempty, List.flatten_nil, List.append_nil] at hall
    exact ⟨hall, hcomp⟩

/-- A probe that is answered with two bytes, read to the end. -/
theorem streaming_integrity_probe :
    ∃ (s : System) (stream : Relay.Stream), s.relay.streams "probe" = some stream ∧
      stream.read = [104, 105] ∧ stream.read = s.produced "probe" ∧ s.complete "probe" = true := by
  let credit : List Action := [.pull "probe" true, .desktopReceives 1, .takesCredit "probe"]
  let answer : List Action := [.desktopHandles 1, .relayReceives]
  let actions : List Action :=
    [.request "probe" ⟨"/connector-info", "GET", .empty, ""⟩ false true, .desktopReceives 1,
      .responds "probe" 200 fun _ => none] ++ answer ++
    [.produces "probe" [104, 105], .completes "probe"] ++
    credit ++ [.readsChunk "probe" 2, .emits "probe"] ++ answer ++
    credit ++ [.readsEnd "probe"] ++ answer ++ [.read "probe"]
  let seen : System → Option (List UInt8 × Bool) := fun s =>
    (s.relay.streams "probe").map fun stream => (stream.read, stream.state == .closed)
  have hseen : (actions.foldlM System.step (System.initial "secret")).bind seen =
      some ([104, 105], true) := by decide +kernel
  obtain ⟨s, hs, hstream⟩ := Option.bind_eq_some_iff.mp hseen
  obtain ⟨stream, hstream, hread⟩ := Option.map_eq_some_iff.mp hstream
  obtain ⟨hread, hclos⟩ := Prod.mk.inj hread
  have hrun : Run System.StepsTo (System.initial "secret") actions s :=
    .of_foldlM (fun _ _ _ _ hone => hone) (fun _ _ => trivial) hs
  have hall := streaming_integrity "secret" actions s hrun "probe" stream hstream
  exact ⟨s, stream, hstream, hread, hall.2 (eq_of_beq hclos)⟩

def Asked.isCredit : Asked → Bool
  | .credit _ => true
  | .request | .cancel | .other => false

def Told.isChunk : Told → Bool
  | .chunk .. => true
  | .response _ | .end_ | .cancel | .other => false

/-- What the two ends of a request say of it while both serve it. -/
structure InStep (p : Relay.Pending) (d : Desktop.Pending) (asked : List Asked)
    (told : List Told) : Prop where
  one : asked.countP Asked.isCredit + told.countP Told.isChunk ≤ 1
  credit : p.credit = false → asked.countP Asked.isCredit = 0 ∧ told.countP Told.isChunk = 0
  next : ∀ seq, .credit seq ∈ asked → seq = d.nextSequence
  sequence : d.nextSequence = p.sequence + told.countP Told.isChunk
  bytes : d.bytes = p.bytes + (toldBytes told).length

theorem Link.inStep {used relayRetired desktopRetired : Bool} {p : Relay.Pending}
    {d : Desktop.Pending} {asked : List Asked} {told : List Told}
    (h : Link used (some p) relayRetired asked told (some d) desktopRetired) :
    InStep p d asked told := by
  cases h with
  | serving | answered | ready | credited | working | delivering =>
    constructor <;> simp [Asked.isCredit, Told.isChunk, Relay.Pending.fresh,
      Relay.Pending.streaming, toldBytes, Told.bytes]

/-- While both ends serve a request there is at most one credit or chunk of it in flight, and the
ends agree on the chunks and bytes that have been sent. -/
theorem flow_control {backendToken : String} {actions : List Action} {s : System}
    (hrun : Run System.StepsTo (System.initial backendToken) actions s)
    (hopen : s.relay.closed = false) (hended : s.ended = false) {id : String}
    {p : Relay.Pending} {d : Desktop.Pending} (hrelay : s.relay.pending.lookup id = some p)
    (hdesk : s.driver.pending.lookup id = some d) :
    InStep p d (askedOf id s.down) (toldOf id s.up) := by
  have hlink := (streaming_run hrun id).ends.linked hopen hended
  unfold linked System.exchange at hlink
  rw [hrelay, hdesk] at hlink
  exact hlink.inStep

/-- The first chunk of a probe, on its way to the relay. -/
theorem flow_control_chunk : ∃ (s : System) (p : Relay.Pending) (d : Desktop.Pending),
    (toldOf "probe" s.up).countP Told.isChunk = 1 ∧ p.sequence = 0 ∧
      InStep p d (askedOf "probe" s.down) (toldOf "probe" s.up) := by
  let actions : List Action :=
    [.request "probe" ⟨"/connector-info", "GET", .empty, ""⟩ false true, .desktopReceives 1,
      .responds "probe" 200 fun _ => none, .desktopHandles 1, .relayReceives,
      .produces "probe" [104, 105], .pull "probe" true, .desktopReceives 1,
      .takesCredit "probe", .readsChunk "probe" 2, .emits "probe", .desktopHandles 1]
  let seen : System → Bool := fun s =>
    !s.relay.closed && !s.ended && (toldOf "probe" s.up).countP Told.isChunk == 1 &&
      (s.relay.pending.lookup "probe").any (·.sequence == 0) &&
      (s.driver.pending.lookup "probe").isSome
  have hsome : (actions.foldlM System.step (System.initial "secret")).any seen = true := by
    decide +kernel
  obtain ⟨s, hs, hseen⟩ := (Option.any_eq_true _ _).mp hsome
  have hrun : Run System.StepsTo (System.initial "secret") actions s :=
    .of_foldlM (fun _ _ _ _ hone => hone) (fun _ _ => trivial) hs
  simp only [seen, Bool.and_eq_true, Bool.not_eq_true', beq_iff_eq, Option.any_eq_true,
    Option.isSome_iff_exists] at hseen
  obtain ⟨⟨⟨⟨hopen, hended⟩, hchunk⟩, p, hrelay, hseq⟩, d, hdesk⟩ := hseen
  exact ⟨s, p, d, hchunk, hseq, flow_control hrun hopen hended hrelay hdesk⟩

end Wenlan.Reverse
