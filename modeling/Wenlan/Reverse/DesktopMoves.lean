import Wenlan.Reverse.RelayMoves

/-!
# What the desktop does to an exchange

A handler of the driver touches the entries of one id, or ends the driver.  A task
touches its own entry and reports events about its own id.
-/

namespace Wenlan.Reverse

open System Desktop.Driver Desktop.Task

namespace Desktop.Driver

variable (d : Driver) (id : String)

@[simp] theorem setPending_pending (pending : Pending) :
    (d.setPending id pending).pending = d.pending.insert id pending := rfl

@[simp] theorem setPending_tasks (pending : Pending) :
    (d.setPending id pending).tasks = d.tasks := rfl

@[simp] theorem setPending_events (pending : Pending) :
    (d.setPending id pending).events = d.events := rfl

@[simp] theorem setPending_tombstones (pending : Pending) :
    (d.setPending id pending).tombstones = d.tombstones := rfl

@[simp] theorem setTask_pending (task : Task) : (d.setTask id task).pending = d.pending := rfl

@[simp] theorem setTask_tasks (task : Task) :
    (d.setTask id task).tasks = Function.update d.tasks id (some task) := rfl

@[simp] theorem setTask_events (task : Task) : (d.setTask id task).events = d.events := rfl

@[simp] theorem setTask_tombstones (task : Task) :
    (d.setTask id task).tombstones = d.tombstones := rfl

@[simp] theorem done_driver : d.done.driver = d := rfl

@[simp] theorem done_sent : d.done.sent = [] := rfl

@[simp] theorem done_error : d.done.error = none := rfl

@[simp] theorem history_insert (tombstones : Tombstones) :
    (tombstones.insert id).history = tombstones.history ++ [id] := rfl

def retired : Driver :=
  { d with pending := d.pending.erase id, tombstones := d.tombstones.insert id }

@[simp] theorem retired_pending : (d.retired id).pending = d.pending.erase id := rfl

@[simp] theorem retired_tasks : (d.retired id).tasks = d.tasks := rfl

@[simp] theorem retired_events : (d.retired id).events = d.events := rfl

@[simp] theorem retired_tombstones : (d.retired id).tombstones = d.tombstones.insert id := rfl

variable {d id} {pending : Pending}

section

variable (h : d.pending.lookup id = some pending)
include h

theorem retire_none : d.retire id none = d.retired id := by
  simp [retire, h, retired]

theorem retire_tag :
    d.retire id (some pending.tag) = d.retired id := by
  simp [retire, h, retired]

theorem failRequest_cases (timely : Nat) :
    d.failRequest id pending.tag timely = ⟨d.retired id, [.cancel id], none⟩ ∨
      ∃ error, d.failRequest id pending.tag timely = (d.retired id).refuse error := by
  rw [failRequest, retire_tag h]
  split
  · next error _ => exact .inr ⟨error, rfl⟩
  · exact .inl rfl

end

end Desktop.Driver

variable {events : List Desktop.TaskEvent}

variable {other : String}

section Events

variable (id : String)

@[simp] theorem eventsOf_nil : eventsOf id [] = [] := rfl

@[simp] theorem eventsOf_append (events events' : List Desktop.TaskEvent) :
    eventsOf id (events ++ events') = eventsOf id events ++ eventsOf id events' :=
  List.filter_append ..

theorem eventsOf_cons_same {event : Desktop.TaskEvent} (events : List Desktop.TaskEvent)
    (h : event.id = id) : eventsOf id (event :: events) = event :: eventsOf id events :=
  List.filter_cons_of_pos (by simpa using h)

theorem eventsOf_cons_other {event : Desktop.TaskEvent} (events : List Desktop.TaskEvent)
    (h : event.id ≠ id) : eventsOf id (event :: events) = eventsOf id events :=
  List.filter_cons_of_neg (by simpa using h)

theorem eventsOf_other (hother : other ≠ id) (h : ∀ event ∈ events, event.id = id) :
    eventsOf other events = [] := by
  refine List.filter_eq_nil_iff.mpr fun event hmem => ?_
  rw [h event hmem, beq_iff_eq]
  exact Ne.symm hother

theorem toldOf_other (hother : other ≠ id) {frames : List Desktop.Frame}
    (h : ∀ frame ∈ frames, frame.id = id) : toldOf other frames = [] := by
  rw [toldOf, List.map_eq_nil_iff]
  refine List.filter_eq_nil_iff.mpr fun frame hmem => ?_
  rw [h frame hmem, beq_iff_eq]
  exact Ne.symm hother

end Events

section Driver

variable {s : System} {reply : Desktop.Reply} {down : List Relay.ReverseFrame}
  {violated overflowed : Bool}

def System.handled (s : System) (reply : Desktop.Reply) (down : List Relay.ReverseFrame)
    (violated overflowed : Bool) : System :=
  { s.desktopActs reply with
    down := down
    violated := violated
    overflowed := overflowed }

theorem move_refuse (herror : reply.error.isSome = true) (hsent : reply.sent = [])
    (hdown : down = s.down ∨ ∃ frame, s.down = frame :: down) (other : String) :
    Move (s.exchange other) ((s.handled reply down violated overflowed).exchange other) := by
  have htold : ((s.handled reply down violated overflowed).exchange other).told =
      (s.exchange other).told := by
    simp only [exchange, handled, desktopActs, hsent, List.append_nil]
  refine .halted ⟨.inr htold, herror, ?_, .inl htold, rfl⟩
  rcases hdown with hsame | ⟨frame, hpop⟩
  · exact .inl (by rw [hsame]; rfl)
  · by_cases hid : frame.id = other
    · refine .inr ⟨asks frame, ?_⟩
      simp only [exchange, handled, hpop, askedOf_cons_same other _ hid]
    · left
      simp only [exchange, handled, hpop, askedOf_cons_other other _ hid]

theorem move_handled (id : String) (hsent : ∀ frame ∈ reply.sent, frame.id = id)
    (hdown : down = s.down ∨ ∃ frame, frame.id = id ∧ s.down = frame :: down)
    (hev : reply.driver.events = s.driver.events ∨
      ∃ event, event.id = id ∧ s.driver.events = event :: reply.driver.events)
    (hsame : ∀ other, other ≠ id →
      reply.driver.pending.lookup other = s.driver.pending.lookup other ∧
        reply.driver.tasks other = s.driver.tasks other ∧
        reply.driver.tombstones.history.contains other =
          s.driver.tombstones.history.contains other) (hended : s.ended = false)
    (hmove : Move (s.exchange id) ((s.handled reply down violated overflowed).exchange id))
    (other : String) :
    Move (s.exchange other) ((s.handled reply down violated overflowed).exchange other) := by
  by_cases hother : other = id
  · rw [hother]
    exact hmove
  · obtain ⟨hlook, htask, hretir⟩ := hsame other hother
    have htold : toldOf other reply.sent = [] := toldOf_other id hother hsent
    have hasked : askedOf other down = askedOf other s.down := by
      rcases hdown with hdown | ⟨frame, hid, hdown⟩
      · rw [hdown]
      · rw [hdown, askedOf_cons_other other _ (hid ▸ Ne.symm hother)]
    have hrep : eventsOf other reply.driver.events = eventsOf other s.driver.events := by
      rcases hev with hev | ⟨event, hid, hev⟩
      · rw [hev]
      · rw [hev, eventsOf_cons_other other _ (hid ▸ Ne.symm hother)]
    have hexch : (s.handled reply down violated overflowed).exchange other =
        { s.exchange other with ended := reply.error.isSome } := by
      simp only [exchange, handled, desktopActs, toldOf_append, htold,
        List.append_nil, hasked, hrep, hlook, htask, hretir]
    rw [hexch]
    cases herror : reply.error.isSome with
    | true => exact .halted ⟨.inr rfl, rfl, .inl rfl, .inl rfl, rfl⟩
    | false =>
      have hkeep : { s.exchange other with ended := false } = s.exchange other := by
        rw [← hended]
        rfl
      rw [hkeep]
      exact .same _

end Driver

/-! ### Frames of the relay -/

variable {headers : Desktop.HeaderMap}

section Input

variable {s : System} {rest : List Relay.ReverseFrame} {violated overflowed : Bool}
  {frame : Relay.ReverseFrame} {timely : Nat}

theorem asked_pop {id : String} (hid : frame.id = id) (hdown : s.down = frame :: rest) :
    (s.exchange id).asked = asks frame :: askedOf id rest := by
  simp only [exchange, hdown, askedOf_cons_same id rest hid]

theorem move_skipped (id : String) (hid : frame.id = id) (hframe : asks frame ≠ .request)
    (hended : s.ended = false) (hdown : s.down = frame :: rest)
    (hpend : s.driver.pending.lookup id = none) (other : String) : Move (s.exchange other)
      ((s.handled s.driver.done rest violated overflowed).exchange other) := by
  refine move_handled id (by simp) (.inr ⟨frame, hid, hdown⟩) (.inl rfl)
    (fun _ _ => ⟨rfl, rfl, rfl⟩) hended ?_ other
  have hmove : Move (s.exchange id) _ :=
    .skipped hended (asked_pop hid hdown) hframe hpend
  convert hmove using 1
  simp [exchange, handled, desktopActs, hended]

theorem move_handleRequest {id path method body : String}
    (hid : frame.id = id) (hframe : asks frame = .request) (hended : s.ended = false)
    (hdown : s.down = frame :: rest) (other : String) : Move (s.exchange other)
      ((s.handled (s.driver.handleRequest id path method headers body timely) rest violated
        overflowed).exchange other) := by
  have href : ∀ (d : Desktop.Driver) error, Move (s.exchange other)
      ((s.handled (d.refuse error) rest violated overflowed).exchange other) :=
    fun d error => move_refuse rfl rfl (.inr ⟨frame, hdown⟩) other
  have hasked := asked_pop hid hdown
  rw [hframe] at hasked
  rw [handleRequest]
  split
  · exact href _ _
  · split
    · exact href _ _
    · next hunknown =>
        have hpend : s.driver.pending.lookup id = none :=
          AList.lookup_eq_none.mpr fun hmem => hunknown (.inl hmem)
        split
        · split
          · exact href _ _
          · refine move_handled id ?_ (.inr ⟨frame, hid, hdown⟩) (.inl rfl) ?_ hended ?_ other
            · intro sent hmem
              rw [List.mem_singleton.mp hmem]
              rfl
            · intro other hother
              refine ⟨rfl, rfl, ?_⟩
              simp [hother]
            · have hmove : Move (s.exchange id) _ := .overloaded hended hasked hpend
              have htold : toldOf id [.cancel id] = [.cancel] := toldOf_cons_same id [] rfl
              convert hmove using 1
              simp [exchange, handled, desktopActs, hended, htold]
        · split
          · exact href _ _
          · split
            · exact href _ _
            · refine move_handled id (by simp) (.inr ⟨frame, hid, hdown⟩) (.inl rfl) ?_ hended
                ?_ other
              · intro other hother
                refine ⟨?_, ?_, rfl⟩
                · exact AList.lookup_insert_ne hother
                · exact Function.update_of_ne hother _ _
              · have hmove : Move (s.exchange id) _ := .accepted s.driver.nextTag hended hasked hpend
                convert hmove using 1
                simp [exchange, handled, desktopActs, hended]

theorem move_handleCredit {id : String} {seq : Nat} (hid : frame.id = id)
    (hframe : asks frame = .credit seq) (hended : s.ended = false)
    (hdown : s.down = frame :: rest) (other : String) : Move (s.exchange other)
      ((s.handled (s.driver.handleCredit id seq) rest violated overflowed).exchange other) := by
  have href : ∀ (d : Desktop.Driver) error, Move (s.exchange other)
      ((s.handled (d.refuse error) rest violated overflowed).exchange other) :=
    fun d error => move_refuse rfl rfl (.inr ⟨frame, hdown⟩) other
  have hasked := asked_pop hid hdown
  rw [hframe] at hasked
  rw [handleCredit]
  cases hpend : s.driver.pending.lookup id with
  | none =>
    simp only []
    split
    · exact move_skipped id hid (by simp [hframe]) hended hdown hpend other
    · exact href _ _
  | some pending =>
    simp only []
    split
    · exact href _ _
    · next hready =>
        push Not at hready
        obtain ⟨hphase, hseq⟩ := hready
        split
        · exact href _ _
        · next task hsend =>
            obtain ⟨before, htask, hsend⟩ := Option.bind_eq_some_iff.mp hsend
            rw [trySend] at hsend
            split at hsend
            · cases hsend
            · next hslot =>
                cases hsend
                push Not at hslot
                refine move_handled id (by simp) (.inr ⟨frame, hid, hdown⟩) (.inl rfl) ?_
                  hended ?_ other
                · intro other hother
                  refine ⟨?_, ?_, rfl⟩
                  · exact AList.lookup_insert_ne hother
                  · exact Function.update_of_ne hother _ _
                · have hmove : Move (s.exchange id) _ :=
                    .credited hended hasked hpend hphase hseq htask hslot.1
                  convert hmove using 1
                  simp [exchange, handled, desktopActs, hended]

theorem move_handleCancel {id : String} (hid : frame.id = id)
    (hframe : asks frame = .cancel) (hended : s.ended = false)
    (hdown : s.down = frame :: rest) (other : String) : Move (s.exchange other)
      ((s.handled (s.driver.handleCancel id) rest violated overflowed).exchange other) := by
  have hasked := asked_pop hid hdown
  rw [hframe] at hasked
  rw [handleCancel]
  split
  · next hmem =>
      obtain ⟨pending, hpend⟩ := Option.isSome_iff_exists.mp (AList.lookup_isSome.mpr hmem)
      rw [retire_none hpend]
      refine move_handled id (by simp) (.inr ⟨frame, hid, hdown⟩) (.inl rfl) ?_ hended ?_ other
      · intro other hother
        refine ⟨?_, rfl, ?_⟩
        · exact AList.lookup_erase_ne hother
        · simp [hother]
      · have hmove : Move (s.exchange id) _ := .revoked hended hasked hpend
        convert hmove using 1
        simp [exchange, handled, desktopActs, hended]
  · next hunknown =>
      split
      · exact move_skipped id hid (by simp [hframe]) hended hdown
          (AList.lookup_eq_none.mpr hunknown) other
      · exact move_refuse rfl rfl (.inr ⟨frame, hdown⟩) other

theorem move_handleInput (hended : s.ended = false) (hdown : s.down = frame :: rest)
    (other : String) : Move (s.exchange other)
      ((s.handled (s.driver.handleInput (toDesktop frame) timely) rest violated
        overflowed).exchange other) := by
  have href : ∀ error, Move (s.exchange other)
      ((s.handled (s.driver.refuse error) rest violated overflowed).exchange other) :=
    fun error => move_refuse rfl rfl (.inr ⟨frame, hdown⟩) other
  unfold handleInput
  split
  · exact href _
  · cases frame with
    | request id path method headers body =>
      exact move_handleRequest rfl rfl hended hdown other
    | credit id seq => exact move_handleCredit rfl rfl hended hdown other
    | cancel id => exact move_handleCancel rfl rfl hended hdown other
    | response | chunk | end_ => exact href _

end Input

/-! ### Events of the tasks -/

section Event

variable {s : System} {rest : List Desktop.TaskEvent} {event : Desktop.TaskEvent}
  {pending : Desktop.Pending} {timely : Nat} {id : String}

def System.taken (s : System) (rest : List Desktop.TaskEvent) : Desktop.Driver :=
  { s.driver with events := rest }

theorem events_pop (id : String) (hev : s.driver.events = event :: rest) (hid : event.id = id) :
    (s.exchange id).events = event :: eventsOf id rest := by
  simp only [exchange, hev, eventsOf_cons_same id rest hid]

theorem desktopActs_eq (reply : Desktop.Reply) :
    s.desktopActs reply = s.handled reply s.down s.violated s.overflowed := rfl

theorem move_event_refuse (d : Desktop.Driver) (error : Desktop.RelayError) (other : String) :
    Move (s.exchange other) ((s.desktopActs (d.refuse error)).exchange other) := by
  rw [desktopActs_eq]
  exact move_refuse rfl rfl (.inl rfl) other

theorem move_event {reply : Desktop.Reply} (id : String) (hended : s.ended = false)
    (hid : event.id = id)
    (hev : s.driver.events = event :: rest) (hrep : reply.driver.events = rest)
    (hsent : ∀ frame ∈ reply.sent, frame.id = id) (hsame : ∀ other, other ≠ id →
      reply.driver.pending.lookup other = s.driver.pending.lookup other ∧
        reply.driver.tasks other = s.driver.tasks other ∧
        reply.driver.tombstones.history.contains other = s.driver.tombstones.history.contains other)
    (hmove : Move (s.exchange id) ((s.desktopActs reply).exchange id)) (other : String) :
    Move (s.exchange other) ((s.desktopActs reply).exchange other) := by
  rw [desktopActs_eq]
  exact move_handled id hsent (.inl rfl) (.inr ⟨event, hid, by rw [hev, hrep]⟩) hsame
    hended hmove other

theorem retired_same (other : String) (hother : other ≠ id) :
    ((s.taken rest).retired id).pending.lookup other = s.driver.pending.lookup other ∧
      ((s.taken rest).retired id).tasks other = s.driver.tasks other ∧
      ((s.taken rest).retired id).tombstones.history.contains other =
        s.driver.tombstones.history.contains other := by
  refine ⟨?_, rfl, ?_⟩
  · exact AList.lookup_erase_ne hother
  · simp [hother, taken]

theorem sent_one {frame : Desktop.Frame} (hid : frame.id = id) :
    ∀ sent ∈ [frame], sent.id = id := by
  intro sent hmem
  rw [List.mem_singleton.mp hmem]
  exact hid

theorem move_failRequest (hended : s.ended = false) (hid : event.id = id)
    (hev : s.driver.events = event :: rest)
    (hpend : s.driver.pending.lookup id = some pending) (other : String) :
    Move (s.exchange other)
      ((s.desktopActs ((s.taken rest).failRequest id pending.tag timely)).exchange other) := by
  have hpend' : (s.taken rest).pending.lookup id = some pending := hpend
  rcases failRequest_cases hpend' timely with hreply | ⟨error, hreply⟩
  · rw [hreply]
    refine move_event id hended hid hev rfl (sent_one rfl) retired_same ?_ other
    have hmove : Move (s.exchange id) _ := .failed hended (events_pop id hev hid) hpend
    have htold : toldOf id [.cancel id] = [.cancel] := toldOf_cons_same id [] rfl
    convert hmove using 1
    simp [exchange, desktopActs, taken, hended, htold]
  · rw [hreply]
    exact move_event_refuse _ error other

theorem move_handleHeaders {tag : Nat} {status : UInt16}
    {bodyAllowed : Bool} (hended : s.ended = false)
    (hev : s.driver.events = .headers tag id status headers bodyAllowed :: rest)
    (hpend : s.driver.pending.lookup id = some pending) (other : String) :
    Move (s.exchange other)
      ((s.desktopActs ((s.taken rest).handleHeaders pending id status headers bodyAllowed
        timely)).exchange other) := by
  have hpop := events_pop id hev rfl
  have htold : toldOf id [.response id status headers] =
      [.response !Relay.Transport.nullBody status.toNat] := toldOf_cons_same id [] rfl
  have hsame : ∀ p : Desktop.Pending, ∀ other, other ≠ id →
      ((s.taken rest).setPending id p).pending.lookup other = s.driver.pending.lookup other ∧
        ((s.taken rest).setPending id p).tasks other = s.driver.tasks other ∧
        ((s.taken rest).setPending id p).tombstones.history.contains other =
          s.driver.tombstones.history.contains other :=
    fun p other hother => ⟨AList.lookup_insert_ne hother, rfl, rfl⟩
  rw [handleHeaders]
  split
  · exact move_event_refuse _ _ other
  · next hphase =>
      have hphase : pending.phase = .awaitingHeaders := by simpa using hphase
      simp only []
      split
      · exact move_event_refuse _ _ other
      · cases bodyAllowed with
        | true =>
          rw [if_pos rfl]
          refine move_event id hended rfl hev rfl (sent_one rfl) ?_ ?_ other
          · exact hsame _
          · have hmove : Move (s.exchange id) _ := .headersSent hended hpop hpend hphase
            convert hmove using 1
            simp [exchange, desktopActs, taken, hended, htold]
        | false =>
          rw [if_neg Bool.false_ne_true]
          split
          · refine move_event id hended rfl hev rfl (sent_one rfl) ?_ ?_ other
            · exact hsame _
            · refine .halted ⟨.inl hended, rfl, .inl rfl, ?_, rfl⟩
              refine .inr ⟨pending, !Relay.Transport.nullBody status.toNat, hpend, hphase, ?_⟩
              simp only [exchange, desktopActs, toldOf_append, htold]
          · have hlook : ((s.taken rest).setPending id
                { pending with phase := .noBody }).pending.lookup id =
                some { pending with phase := .noBody } := AList.lookup_insert _
            have hret : ((s.taken rest).setPending id
                { pending with phase := .noBody }).retire id (some pending.tag) =
                ((s.taken rest).setPending id { pending with phase := .noBody }).retired id := by
              have hret := retire_tag hlook
              exact hret
            have hsent : ∀ frame ∈
                ([.response id status headers, .end_ id] : List Desktop.Frame),
                frame.id = id := by
              intro frame hmem
              simp only [List.mem_cons, List.not_mem_nil, or_false] at hmem
              rcases hmem with rfl | rfl <;> rfl
            have htold : toldOf id [.response id status headers, .end_ id] =
                [.response !Relay.Transport.nullBody status.toNat, .end_] := by
              rw [toldOf_cons_same id _ rfl, toldOf_cons_same id _ rfl]
              rfl
            rw [hret]
            refine move_event id hended rfl hev rfl hsent ?_ ?_ other
            · intro other hother
              refine ⟨?_, rfl, ?_⟩
              · exact (AList.lookup_erase_ne hother).trans (AList.lookup_insert_ne hother)
              · simp [hother, taken]
            · have hmove : Move (s.exchange id) _ := .bodilessSent hended hpop hpend hphase
              convert hmove using 1
              simp [exchange, desktopActs, taken, hended, htold]

theorem move_handleChunk {tag seq : Nat} {bytes : List UInt8} (hended : s.ended = false)
    (hev : s.driver.events = .chunk tag id seq bytes :: rest)
    (hpend : s.driver.pending.lookup id = some pending) (other : String) :
    Move (s.exchange other)
      ((s.desktopActs ((s.taken rest).handleChunk pending id seq bytes timely)).exchange
        other) := by
  have hpop := events_pop id hev rfl
  rw [handleChunk]
  split
  · exact move_failRequest hended rfl hev hpend other
  · next hready =>
      push Not at hready
      obtain ⟨hphase, hseq⟩ := hready
      split
      · exact move_failRequest hended rfl hev hpend other
      · next hlimits =>
          simp only [Bool.or_eq_true, decide_eq_true_eq, not_or, Nat.not_lt, Nat.not_le]
            at hlimits
          obtain ⟨⟨⟨_, _⟩, hbytes⟩, hchunk⟩ := hlimits
          split
          · exact move_event_refuse _ _ other
          · next body hbody =>
              have hdec : Relay.decodeBody body = some bytes :=
                relay_decodeBody_iff.mpr (encodeBody_iff.mp hbody)
              have htold : toldOf id [.chunk id (UInt64.ofNat seq) body] =
                  [.chunk (UInt64.ofNat seq).toNat (some bytes)] := by
                rw [toldOf_cons_same id [] rfl, tells, hdec, toldOf_nil]
              simp only []
              split
              · exact move_event_refuse _ _ other
              · refine move_event id hended rfl hev rfl (sent_one rfl) ?_ ?_ other
                · intro other hother
                  exact ⟨AList.lookup_insert_ne hother, rfl, rfl⟩
                · have hmove : Move (s.exchange id) _ :=
                    .chunkSent hended hpop hpend hphase hseq hbytes hchunk
                  convert hmove using 1
                  simp [exchange, desktopActs, taken, hended, htold]

theorem move_handleEnd {tag : Nat} (hended : s.ended = false)
    (hev : s.driver.events = .end_ tag id :: rest)
    (hpend : s.driver.pending.lookup id = some pending) (other : String) :
    Move (s.exchange other)
      ((s.desktopActs ((s.taken rest).handleEnd pending id timely)).exchange other) := by
  have hpop := events_pop id hev rfl
  rw [handleEnd]
  split
  · exact move_failRequest hended rfl hev hpend other
  · next hphase =>
      have hphase : pending.phase = .creditInFlight := by simpa using hphase
      split
      · exact move_event_refuse _ _ other
      · have hpend' : (s.taken rest).pending.lookup id = some pending := hpend
        rw [retire_tag hpend']
        refine move_event id hended rfl hev rfl (sent_one rfl) retired_same ?_ other
        have hmove : Move (s.exchange id) _ := .endSent hended hpop hpend hphase
        have htold : toldOf id [.end_ id] = [.end_] := toldOf_cons_same id [] rfl
        convert hmove using 1
        simp [exchange, desktopActs, taken, hended, htold]

theorem move_handleEvent (hended : s.ended = false)
    (hev : s.driver.events = event :: rest) (other : String) : Move (s.exchange other)
      ((s.desktopActs ((s.taken rest).handleEvent event timely)).exchange other) := by
  rw [handleEvent]
  cases hcurrent : (s.taken rest).current event with
  | none =>
    refine move_event event.id hended rfl hev rfl (by simp) (fun _ _ => ⟨rfl, rfl, rfl⟩) ?_ other
    have hstale : ∀ p, (s.exchange event.id).desktop = some p → p.tag ≠ event.tag := by
      intro p hp htag
      have hnone := Option.filter_eq_none_iff.mp hcurrent p hp
      exact hnone (by simpa using htag)
    have hmove : Move (s.exchange event.id) _ :=
      .stale hended (events_pop event.id hev rfl) hstale
    convert hmove using 1
    simp [exchange, desktopActs, taken, hended]
  | some pending =>
    have hpend : s.driver.pending.lookup event.id = some pending :=
      (Option.filter_eq_some_iff.mp hcurrent).1
    cases event with
    | headers => exact move_handleHeaders hended hev hpend other
    | chunk => exact move_handleChunk hended hev hpend other
    | end_ => exact move_handleEnd hended hev hpend other
    | failure => exact move_failRequest hended rfl hev hpend other

end Event

/-! ## Moves of a task and of the local server -/

section Task

variable {s s' : System} {id : String} {enabled : Desktop.Task → Bool}
  {act : Desktop.Task → Desktop.Task × List Desktop.TaskEvent}

def System.worked (s : System) (id : String) (task : Desktop.Task)
    (events : List Desktop.TaskEvent) : System :=
  { s with
    driver := { s.driver.setTask id task with events := s.driver.events ++ events } }

theorem taskActs_eq_some (h : s.taskActs id enabled act = some s') :
    ∃ task, s.driver.tasks id = some task ∧ s.ended = false ∧ enabled task = true ∧
      s' = s.worked id (act task).1 (act task).2 := by
  rw [taskActs] at h
  split at h
  · cases h
  · next task htask =>
      split at h
      · cases h
      · next hready =>
          simp only [Bool.or_eq_true, not_or, Bool.not_eq_true, Bool.not_eq_false'] at hready
          exact ⟨task, htask, hready.1, hready.2, (Option.some.inj h).symm⟩

theorem worked_same (task : Desktop.Task)
    (hother : other ≠ id) (hrep : ∀ event ∈ events, event.id = id) :
    (s.worked id task events).exchange other = s.exchange other := by
  simp [exchange, worked, hother, eventsOf_other id hother hrep]

theorem worked_self (task : Desktop.Task) (hrep : ∀ event ∈ events, event.id = id) :
    (s.worked id task events).exchange id = { s.exchange id with
        task := some task
        events := (s.exchange id).events ++ events } := by
  have hev : eventsOf id events = events :=
    List.filter_eq_self.mpr fun event hmem => beq_iff_eq.mpr (hrep event hmem)
  simp [exchange, worked, hev]

variable {task : Desktop.Task}

theorem move_worked (hrep : ∀ event ∈ events, event.id = id)
    (hmove : Move (s.exchange id) { s.exchange id with
      task := some task
      events := (s.exchange id).events ++ events }) (other : String) :
    Move (s.exchange other) ((s.worked id task events).exchange other) := by
  by_cases hother : other = id
  · rw [hother, worked_self task hrep]
    exact hmove
  · rw [worked_same task hother hrep]
    exact .same _

theorem reports_none : ∀ event ∈ ([] : List Desktop.TaskEvent), event.id = id :=
  fun _ hmem => (List.not_mem_nil hmem).elim

theorem reports_one {event : Desktop.TaskEvent} (hid : event.id = id) :
    ∀ report ∈ [event], report.id = id := by
  intro report hmem
  rw [List.mem_singleton.mp hmem]
  exact hid

theorem move_idle (htask : s.driver.tasks id = some task)
    (other : String) : Move (s.exchange other) ((s.worked id task []).exchange other) := by
  refine move_worked reports_none ?_ other
  convert Move.same (s.exchange id) using 1
  simp [exchange, htask]

theorem move_fail {command : Option Nat}
    (htask : s.driver.tasks id = some task) (hended : s.ended = false)
    (hstage : task.stage ≠ .finished) (hcom : command = task.command ∨ command = none)
    (other : String) : Move (s.exchange other)
      ((s.worked id { task with stage := .failing, command := command } []).exchange
        other) := by
  refine move_worked reports_none ?_ other
  have hmove : Move (s.exchange id) _ :=
    .broke hended htask hstage hcom List.suffix_rfl
  convert hmove using 1
  simp

theorem move_respond (status : UInt16)
    (response : String → Option String) (htask : s.driver.tasks id = some task)
    (hended : s.ended = false) (other : String) : Move (s.exchange other)
      ((s.worked id (task.respond id status response).1
        (task.respond id status response).2).exchange other) := by
  rw [respond]
  split
  · exact move_idle htask other
  · next hstage =>
      have hstage : task.stage = .requesting := by simpa using hstage
      split
      · refine move_worked (reports_one rfl) ?_ other
        exact .responded hended htask hstage
      · exact move_fail htask hended (by simp [hstage]) (.inl rfl) other

theorem move_endBodiless (htask : s.driver.tasks id = some task)
    (hended : s.ended = false) (other : String) : Move (s.exchange other)
      ((s.worked id (task.endBodiless id).1 (task.endBodiless id).2).exchange other) := by
  rw [endBodiless]
  split
  · exact move_idle htask other
  · next hstage =>
      refine move_worked (reports_one rfl) ?_ other
      exact .bodilessEnded hended htask (by simpa using hstage)

theorem move_takeCredit (htask : s.driver.tasks id = some task)
    (hended : s.ended = false) (other : String) :
    Move (s.exchange other) ((s.worked id task.takeCredit []).exchange other) := by
  unfold takeCredit
  split
  · next sequence hstage hcom =>
      split
      · refine move_worked reports_none ?_ other
        have hmove : Move (s.exchange id) _ :=
          .creditTaken hended htask hstage (by rw [hcom]; rfl)
        convert hmove using 1
        simp
      · exact move_fail htask hended (by simp [hstage]) (.inr rfl) other
  · exact move_idle htask other

theorem wantsChunk_iff : task.wantsChunk = true ↔ task.stage = .reading ∧ task.buffered = [] := by
  simp [wantsChunk]

theorem move_readChunk {size : Nat}
    (htask : s.driver.tasks id = some task) (hended : s.ended = false)
    (hwants : task.wantsChunk = true) (other : String) : Move (s.exchange other)
      ({ s.worked id (task.readChunk ((s.unread id).take size)) [] with
        unread := Function.update s.unread id ((s.unread id).drop size) }.exchange other) := by
  obtain ⟨hstage, hbuf⟩ := wantsChunk_iff.mp hwants
  by_cases hother : other = id
  · subst hother
    have hexch : ∀ task' : Desktop.Task, { s.worked other task' [] with
        unread := Function.update s.unread other ((s.unread other).drop size) }.exchange other =
        { s.exchange other with
          task := some task'
          unread := (s.unread other).drop size } := by
      intro task'
      simp [exchange, worked]
    rw [hexch, readChunk]
    split
    · next hempty =>
        have hmove : Move (s.exchange other) _ := .chunkRead size hended htask hstage hbuf
        convert hmove using 1
        have hnone : (s.unread other).take size = [] := by simpa using hempty
        have hsame : { task with buffered := (s.exchange other).unread.take size } = task := by
          rw [show (s.exchange other).unread.take size = [] from hnone, ← hbuf]
        rw [hsame]
        rfl
    · split
      · exact .broke hended htask (by simp [hstage]) (.inl rfl) (List.drop_suffix size _)
      · exact .chunkRead size hended htask hstage hbuf
  · have hexch : ∀ task' : Desktop.Task, { s.worked id task' [] with
        unread := Function.update s.unread id ((s.unread id).drop size) }.exchange other =
        s.exchange other := by
      intro task'
      simp [exchange, worked, hother]
    rw [hexch]
    exact .same _

theorem move_readEnd (htask : s.driver.tasks id = some task)
    (hended : s.ended = false) (hwants : task.wantsChunk = true)
    (hunr : s.unread id = []) (hcomp : s.complete id = true) (other : String) :
    Move (s.exchange other)
      ((s.worked id (task.readEnd id).1 (task.readEnd id).2).exchange other) := by
  obtain ⟨hstage, hbuf⟩ := wantsChunk_iff.mp hwants
  refine move_worked (reports_one rfl) ?_ other
  exact .endRead hended htask hstage hbuf hunr hcomp

theorem move_emit (htask : s.driver.tasks id = some task)
    (hended : s.ended = false) (other : String) : Move (s.exchange other)
      ((s.worked id (task.emit id).1 (task.emit id).2).exchange other) := by
  rw [emit]
  split
  · exact move_idle htask other
  · next hready =>
      push Not at hready
      simp only []
      split
      · exact move_fail htask hended (by simp [hready.1]) (.inl rfl) other
      · refine move_worked (reports_one rfl) ?_ other
        exact .emitted hended htask hready.1

theorem move_report (timely : Bool)
    (htask : s.driver.tasks id = some task) (hended : s.ended = false) (other : String) :
    Move (s.exchange other)
      ((s.worked id (task.report id timely).1 (task.report id timely).2).exchange other) := by
  rw [report]
  split
  · exact move_idle htask other
  · next hstage =>
      have hstage : task.stage = .failing := by simpa using hstage
      cases timely with
      | true =>
        refine move_worked (reports_one rfl) ?_ other
        exact .reported hended htask hstage (.inr ⟨id, rfl⟩)
      | false =>
        refine move_worked reports_none ?_ other
        exact .reported hended htask hstage (.inl rfl)

end Task

theorem move_of_step {s s' : System} {action : Action} (hdrain : Drained s.relay)
    (h : s.step action = some s') (id : String) : Move (s.exchange id) (s'.exchange id) := by
  cases action with
  | request drawn input aborted sends =>
    simp only [step] at h
    split at h
    · cases h
    · next hfresh =>
        split at h
        · cases h
          exact .same _
        · next acted hacted =>
            cases h
            exact move_request drawn id sends hfresh hacted
  | relayReceives =>
    simp only [step] at h
    split at h
    · cases h
    · next frame rest hup =>
        cases h
        exact move_receive hdrain hup id
  | abort target sends =>
    cases h
    exact move_abort target id sends hdrain
  | pull target sends =>
    cases h
    exact move_pull target id sends hdrain
  | read target =>
    cases h
    exact move_read target id
  | cancelBody target sends =>
    cases h
    exact move_cancelBody target id sends hdrain
  | relayDisconnects =>
    cases h
    exact move_disconnect id hdrain
  | desktopReceives timely =>
    simp only [step] at h
    split at h
    · cases h
    · next frame rest hdown =>
        split at h
        · cases h
        · next hended =>
            cases h
            exact move_handleInput (by simpa using hended) hdown id
  | desktopHandles timely =>
    simp only [step] at h
    split at h
    · cases h
    · next event rest hev =>
        split at h
        · cases h
        · next hended =>
            cases h
            exact move_handleEvent (by simpa using hended) hev id
  | responds target status response =>
    obtain ⟨task, htask, hended, -, rfl⟩ := taskActs_eq_some h
    exact move_respond status response htask hended id
  | endsBodiless target =>
    obtain ⟨task, htask, hended, -, rfl⟩ := taskActs_eq_some h
    exact move_endBodiless htask hended id
  | takesCredit target =>
    obtain ⟨task, htask, hended, -, rfl⟩ := taskActs_eq_some h
    exact move_takeCredit htask hended id
  | readsChunk target size =>
    obtain ⟨t, ht, rfl⟩ := Option.map_eq_some_iff.mp h
    obtain ⟨task, htask, hended, hwants, rfl⟩ := taskActs_eq_some ht
    exact move_readChunk htask hended hwants id
  | readsEnd target =>
    obtain ⟨task, htask, hended, hready, rfl⟩ := taskActs_eq_some h
    simp only [Bool.and_eq_true, List.isEmpty_iff] at hready
    exact move_readEnd htask hended hready.1.1 hready.1.2 hready.2 id
  | emits target =>
    obtain ⟨task, htask, hended, -, rfl⟩ := taskActs_eq_some h
    exact move_emit htask hended id
  | fails target =>
    obtain ⟨task, htask, hended, hstage, rfl⟩ := taskActs_eq_some h
    exact move_fail htask hended (by simpa using hstage) (.inl rfl) id
  | reports target timely =>
    obtain ⟨task, htask, hended, -, rfl⟩ := taskActs_eq_some h
    exact move_report timely htask hended id
  | desktopStops =>
    cases h
    exact .halted ⟨.inr rfl, rfl, .inl rfl, .inl rfl, rfl⟩
  | produces target bytes =>
    simp only [step] at h
    split at h
    · cases h
    · next hcomp =>
        cases h
        by_cases hid : id = target
        · subst hid
          have hopen : s.complete id = false := by simpa using hcomp
          have hmove : Move (s.exchange id) _ := .wrote bytes hopen
          convert hmove using 1
          simp [exchange]
        · convert Move.same (s.exchange id) using 1
          simp [exchange, hid]
  | completes target =>
    cases h
    by_cases hid : id = target
    · subst hid
      convert Move.finished (s.exchange id) using 1
      simp [exchange]
    · convert Move.same (s.exchange id) using 1
      simp [exchange, hid]

end Wenlan.Reverse
