import Wenlan.Reverse.System

/-!
# What the relay does to an exchange

Every operation of the transport either touches the entries of one id, or closes the
connection and with it every request that is pending.
-/

namespace Wenlan.Reverse

open System Function Relay.Transport

theorem StreamStops.refl (stream : Option Relay.Stream) : StreamStops stream stream := by
  cases stream with
  | none => trivial
  | some s => exact ⟨rfl, .inl ⟨rfl, rfl⟩⟩

theorem StreamStops.trans {s t u : Option Relay.Stream} (h : StreamStops s t)
    (h' : StreamStops t u) : StreamStops s u := by
  cases s with
  | none =>
    cases t with
    | none => exact h'
    | some t => exact h.elim
  | some s =>
    cases t with
    | none => exact h.elim
    | some t =>
      cases u with
      | none => exact h'.elim
      | some u =>
        have hread : u.read = s.read := h'.1.trans h.1
        rcases h'.2 with ⟨hqueue, hstate⟩ | hstopped
        · rcases h.2 with ⟨hqueue', hstate'⟩ | ⟨hqueue', hstate'⟩
          · exact ⟨hread, .inl ⟨hqueue.trans hqueue', hstate.trans hstate'⟩⟩
          · exact ⟨hread, .inr ⟨hqueue.trans hqueue', by rw [hstate]; exact hstate'⟩⟩
        · exact ⟨hread, .inr hstopped⟩

theorem streamStops_fail (stream : Option Relay.Stream) :
    StreamStops stream (failStream stream) := by
  cases stream with
  | none => trivial
  | some s =>
    obtain ⟨queue, state, pulling, read⟩ := s
    cases state <;>
      simp [StreamStops, failStream, Relay.Stream.error, Relay.Stream.resolvePull]

theorem streamStops_cancel (stream : Relay.Stream) :
    StreamStops (some stream) (some stream.cancel) := by
  obtain ⟨queue, state, pulling, read⟩ := stream
  cases state <;> simp [StreamStops, Relay.Stream.cancel]

theorem streamStops_pulling (stream : Relay.Stream) (pulling : Bool) :
    StreamStops (some stream) (some { stream with pulling := pulling }) :=
  ⟨rfl, .inl ⟨rfl, rfl⟩⟩

namespace Relay.Transport

variable (t : Transport) (id : String)

@[simp] theorem setStream_pending (stream : Stream) :
    (t.setStream id stream).pending = t.pending := rfl

@[simp] theorem setStream_closed (stream : Stream) :
    (t.setStream id stream).closed = t.closed := rfl

@[simp] theorem setStream_retired (stream : Stream) :
    (t.setStream id stream).retired = t.retired := rfl

@[simp] theorem setStream_streams (stream : Stream) :
    (t.setStream id stream).streams = update t.streams id (some stream) := rfl

@[simp] theorem setPending_pending (state : Pending) :
    (t.setPending id state).pending = t.pending.insert id state := rfl

@[simp] theorem setPending_closed (state : Pending) :
    (t.setPending id state).closed = t.closed := rfl

@[simp] theorem setPending_retired (state : Pending) :
    (t.setPending id state).retired = t.retired := rfl

@[simp] theorem setPending_streams (state : Pending) :
    (t.setPending id state).streams = t.streams := rfl

@[simp] theorem remove_pending : (t.remove id).pending = t.pending.erase id := rfl

@[simp] theorem remove_closed : (t.remove id).closed = t.closed := rfl

@[simp] theorem remove_retired : (t.remove id).retired = t.retired := rfl

@[simp] theorem remove_streams : (t.remove id).streams = t.streams := rfl

/-- The transport after `remove`, `cancelled.add` and `fail`. -/
def withdraw (state : Pending) : Transport := ((t.remove id).bury id).fail id state

variable (state : Pending)

@[simp] theorem withdraw_pending : (t.withdraw id state).pending = t.pending.erase id := rfl

@[simp] theorem withdraw_closed : (t.withdraw id state).closed = t.closed := rfl

@[simp] theorem withdraw_retired : (t.withdraw id state).retired = t.retired ++ [id] := rfl

@[simp] theorem withdraw_streams : (t.withdraw id state).streams =
    update t.streams id (failStream (t.streams id)) := rfl

@[simp] theorem disconnect_closed : t.disconnect.closed = true := by
  rw [disconnect]
  split
  · assumption
  · rfl

@[simp] theorem disconnect_retired : t.disconnect.retired = t.retired := by
  rw [disconnect]
  split <;> rfl

theorem disconnect_pending (h : t.closed = true → t.pending = ∅) : t.disconnect.pending = ∅ := by
  rw [disconnect]
  split
  · next hclos => exact h hclos
  · rfl

theorem disconnect_stops : StreamStops (t.streams id) (t.disconnect.streams id) := by
  rw [disconnect]
  split
  · exact .refl _
  · simp only []
    split
    · exact streamStops_fail _
    · exact .refl _

theorem sendFrame_cases (frame : ReverseFrame) (sends : Bool) :
    t.closed = false ∧ (encodeFrame frame.value).isSome = true ∧
        t.sendFrame frame sends = (t, [frame]) ∨
      t.sendFrame frame sends = (t.disconnect, []) := by
  rw [sendFrame]
  cases henc : encodeFrame frame.value with
  | none => exact .inr rfl
  | some text =>
    simp only [send, Option.isSome_some]
    cases hclos : t.closed with
    | true => exact .inr (by rw [disconnect, if_pos hclos]; rfl)
    | false =>
      cases sends with
      | true => exact .inl ⟨rfl, trivial, rfl⟩
      | false => exact .inr rfl

end Relay.Transport

section Frames

variable (id : String)

@[simp] theorem askedOf_nil : askedOf id [] = [] := rfl

@[simp] theorem askedOf_append (frames frames' : List Relay.ReverseFrame) :
    askedOf id (frames ++ frames') = askedOf id frames ++ askedOf id frames' := by
  simp only [askedOf, List.filter_append, List.map_append]

section

variable {frame : Relay.ReverseFrame} (frames : List Relay.ReverseFrame)

theorem askedOf_cons_same
    (h : frame.id = id) : askedOf id (frame :: frames) = asks frame :: askedOf id frames := by
  rw [askedOf, List.filter_cons_of_pos (by simpa using h), List.map_cons, askedOf]

theorem askedOf_cons_other
    (h : frame.id ≠ id) : askedOf id (frame :: frames) = askedOf id frames := by
  rw [askedOf, List.filter_cons_of_neg (by simpa using h), askedOf]

end

@[simp] theorem toldOf_nil : toldOf id [] = [] := rfl

@[simp] theorem toldOf_append (frames frames' : List Desktop.Frame) :
    toldOf id (frames ++ frames') = toldOf id frames ++ toldOf id frames' := by
  simp only [toldOf, List.filter_append, List.map_append]

theorem toldOf_cons_same {frame : Desktop.Frame} (frames : List Desktop.Frame)
    (h : frame.id = id) : toldOf id (frame :: frames) = tells frame :: toldOf id frames := by
  rw [toldOf, List.filter_cons_of_pos (by simpa using h), List.map_cons, toldOf]

theorem toldOf_cons_other {frame : Desktop.Frame} (frames : List Desktop.Frame)
    (h : frame.id ≠ id) : toldOf id (frame :: frames) = toldOf id frames := by
  rw [toldOf, List.filter_cons_of_neg (by simpa using h), toldOf]

end Frames

/-! ## Moves of the relay -/

def Drained (t : Relay.Transport) : Prop :=
  t.closed = true → ∀ id, t.pending.lookup id = none

theorem move_lost {s : System} (s' : System) {t : Relay.Transport} (hopen : t.closed = false)
    (hstops : ∀ id, StreamStops (s.relay.streams id) (t.streams id))
    (htold : s'.up = s.up ∨ ∃ frame, s.up = frame :: s'.up) (hrest : s' = { s with
      relay := t.disconnect
      up := s'.up
      requested := s'.requested
      violated := s'.violated }) (id : String) :
    Move (s.exchange id) (s'.exchange id) := by
  have hrelay : s'.relay = t.disconnect := by rw [hrest]
  refine .lost ⟨?_, ?_, ?_, ?_, ?_⟩
  · simp only [exchange, hrelay, disconnect_closed]
  · have hempty := t.disconnect_pending fun h => nomatch hopen.symm.trans h
    simp only [exchange, hrelay, hempty, AList.lookup_empty]
  · simp only [exchange, hrelay]
    exact (hstops id).trans (t.disconnect_stops id)
  · rcases htold with hsame | ⟨frame, hpop⟩
    · exact .inl (by simp only [exchange, hsame])
    · by_cases hid : frame.id = id
      · exact .inr ⟨tells frame, by simp only [exchange, hpop, toldOf_cons_same id _ hid]⟩
      · exact .inl (by simp only [exchange, hpop, toldOf_cons_other id _ hid])
  · rw [hrest]
    rfl

/-- Closing the connection of an open transport is a loss for every id. -/
theorem move_disconnect {s : System} (id : String) : Drained s.relay →
    Move (s.exchange id) ({ s with relay := s.relay.disconnect }.exchange id) := by
  intro hdrain
  cases hclos : s.relay.closed with
  | true =>
    rw [disconnect, if_pos hclos]
    exact .same _
  | false =>
    exact move_lost { s with relay := s.relay.disconnect } hclos (fun _ => .refl _) (.inl rfl)
      rfl id

theorem move_sendFrame {s : System} (t : Relay.Transport) (id : String)
    {frame : Relay.ReverseFrame} (sends : Bool) (hopen : t.closed = false)
    (hopen' : s.relay.closed = false) (hid : frame.id = id)
    (hstops : ∀ other, StreamStops (s.relay.streams other) (t.streams other))
    (hsame : ∀ other, other ≠ id → t.pending.lookup other = s.relay.pending.lookup other ∧
      t.streams other = s.relay.streams other ∧
      t.retired.contains other = s.relay.retired.contains other)
    (hmove : (Relay.encodeFrame frame.value).isSome = true →
      Move (s.exchange id) ((s.relayActs (t, [frame])).exchange id)) (other : String) :
    Move (s.exchange other) ((s.relayActs (t.sendFrame frame sends)).exchange other) := by
  rcases t.sendFrame_cases frame sends with ⟨_, henc, hsend⟩ | hsend
  · rw [hsend]
    by_cases hother : other = id
    · rw [hother]
      exact hmove henc
    · obtain ⟨hlook, hstr, hret⟩ := hsame other hother
      have hasked : askedOf other [frame] = [] := by
        rw [askedOf_cons_other other [] (by rw [hid]; exact Ne.symm hother), askedOf_nil]
      have hexch : (s.relayActs (t, [frame])).exchange other = s.exchange other := by
        simp only [exchange, relayActs, hopen, hopen', hlook, hstr,
          hret, askedOf_append, hasked, List.append_nil]
      rw [hexch]
      exact .same _
  · rw [hsend]
    refine move_lost (s.relayActs (t.disconnect, [])) hopen hstops (.inl rfl) ?_ other
    simp only [relayActs, List.append_nil]

section Operations

variable {s : System} (id other : String) (sends : Bool)

theorem encode_credit {id : String} {seq : Nat}
    (h : (Relay.encodeFrame (Relay.ReverseFrame.credit id seq).value).isSome = true) :
    asks (.credit id seq) = .credit seq := by
  obtain ⟨text, htext⟩ := Option.isSome_iff_exists.mp h
  obtain ⟨frame, hframe, -, -⟩ := relay_encode_some htext
  have haccep := accepted_of_validate hframe
  rw [validate_value hframe] at haccep
  rw [asks, toNat_seq haccep.2]

theorem move_withdraw {t : Relay.Transport} {state : Relay.Pending}
    (hopen : s.relay.closed = false) (hpend : s.relay.pending.lookup id = some state)
    (ht : t = { s.relay with streams := t.streams })
    (hstops : ∀ other, StreamStops (s.relay.streams other) (t.streams other))
    (hsame : ∀ other, other ≠ id → t.streams other = s.relay.streams other) :
    Move (s.exchange other) ((s.relayActs (t.cancel id true sends)).exchange other) := by
  have hfield : t.pending = s.relay.pending ∧ t.closed = s.relay.closed ∧
      t.retired = s.relay.retired := by
    rw [ht]
    exact ⟨rfl, rfl, rfl⟩
  obtain ⟨hp, hc, hr⟩ := hfield
  have hcanc : t.cancel id true sends = (t.withdraw id state).sendFrame (.cancel id) sends := by
    simp only [cancel, hp, hpend, if_true, withdraw]
  have hfail := streamStops_fail (t.streams id)
  rw [hcanc]
  refine move_sendFrame (t.withdraw id state) id sends (hc.trans hopen) hopen rfl ?_ ?_ ?_ other
  · intro other
    by_cases hother : other = id
    · subst hother
      rw [withdraw_streams, update_self]
      exact (hstops other).trans hfail
    · rw [withdraw_streams, update_of_ne hother]
      exact hstops other
  · intro other hother
    refine ⟨?_, ?_, ?_⟩
    · rw [withdraw_pending, AList.lookup_erase_ne hother, hp]
    · rw [withdraw_streams, update_of_ne hother, hsame other hother]
    · simp [hr, hother]
  · intro _
    have hasked : askedOf id [.cancel id] = [.cancel] := askedOf_cons_same id [] rfl
    have hexch : (s.relayActs (t.withdraw id state, [.cancel id])).exchange id =
        { s.exchange id with
          relay := none
          relayRetired := true
          stream := failStream (t.streams id)
          asked := (s.exchange id).asked ++ [.cancel] } := by
      simp [exchange, relayActs, hasked, hc]
    rw [hexch]
    exact .cancelled hpend ((hstops id).trans hfail)

theorem move_abort (hdrain : Drained s.relay) :
    Move (s.exchange other) ((s.relayActs (s.relay.cancel id true sends)).exchange other) := by
  cases hpend : s.relay.pending.lookup id with
  | none =>
    have hcanc : s.relay.cancel id true sends = (s.relay, []) := by
      simp only [cancel, hpend]
    rw [hcanc, relayActs, List.append_nil]
    exact .same _
  | some state =>
    have hopen : s.relay.closed = false := by
      by_contra hclos
      rw [hdrain (by simpa using hclos)] at hpend
      cases hpend
    exact move_withdraw id other sends hopen hpend rfl (fun _ => .refl _) fun _ _ => rfl

theorem move_cancelBody (hdrain : Drained s.relay) :
    Move (s.exchange other) ((s.relayActs (s.relay.cancelBody id sends)).exchange other) := by
  have hnoth : Move (s.exchange other) ((s.relayActs (s.relay, [])).exchange other) := by
    rw [relayActs, List.append_nil]
    exact .same _
  rw [cancelBody]
  cases hstr : s.relay.streams id with
  | none => exact hnoth
  | some stream =>
    simp only []
    split
    · have hstops : ∀ other, StreamStops (s.relay.streams other)
          ((s.relay.setStream id stream.cancel).streams other) := by
        intro other
        by_cases hother : other = id
        · subst hother
          rw [setStream_streams, update_self, hstr]
          exact streamStops_cancel stream
        · rw [setStream_streams, update_of_ne hother]
          exact .refl _
      have hsame : ∀ other, other ≠ id →
          (s.relay.setStream id stream.cancel).streams other = s.relay.streams other := by
        intro other hother
        rw [setStream_streams, update_of_ne hother]
      cases hpend : s.relay.pending.lookup id with
      | none =>
        have hcanc : (s.relay.setStream id stream.cancel).cancel id true sends =
            (s.relay.setStream id stream.cancel, []) := by
          simp only [cancel, setStream_pending, hpend]
        rw [hcanc, relayActs, List.append_nil]
        by_cases hother : other = id
        · subst hother
          exact .stopped hpend (hstops other)
        · have hexch : ({ s with
              relay := s.relay.setStream id stream.cancel }.exchange other) =
              s.exchange other := by
            simp only [exchange, hsame other hother,
              setStream_pending, setStream_closed,
              setStream_retired]
          rw [hexch]
          exact .same _
      | some state =>
        have hopen : s.relay.closed = false := by
          by_contra hclos
          rw [hdrain (by simpa using hclos)] at hpend
          cases hpend
        exact move_withdraw id other sends hopen hpend rfl hstops hsame
    · exact hnoth

theorem move_read : Move (s.exchange other)
    ({ s with relay := s.relay.read id }.exchange other) := by
  rw [Relay.Transport.read]
  cases hstr : s.relay.streams id with
  | none => exact .same _
  | some stream =>
    by_cases hother : other = id
    · subst hother
      have hexch : ({ s with
          relay := s.relay.setStream other stream.take }.exchange other) =
          { s.exchange other with stream := some stream.take } := by
        simp [exchange]
      rw [hexch]
      exact .taken hstr
    · have hexch : ({ s with
          relay := s.relay.setStream id stream.take }.exchange other) = s.exchange other := by
        simp [exchange, hother]
      rw [hexch]
      exact .same _

theorem move_pull (hdrain : Drained s.relay) :
    Move (s.exchange other) ((s.relayActs (s.relay.pull id sends)).exchange other) := by
  have hnoth : Move (s.exchange other) ((s.relayActs (s.relay, [])).exchange other) := by
    rw [relayActs, List.append_nil]
    exact .same _
  rw [pull]
  cases hstr : s.relay.streams id with
  | none => exact hnoth
  | some stream =>
    simp only [Bool.or_eq_true, bne_iff_ne, ne_eq]
    split
    · exact hnoth
    · next hready =>
        push Not at hready
        obtain ⟨hstate, hpul⟩ := hready
        have hpul : stream.pulling = false := by simpa using hpul
        cases hpend : s.relay.pending.lookup id with
        | none => exact hnoth
        | some state =>
          have hopen : s.relay.closed = false := by
            by_contra hclos
            rw [hdrain (by simpa using hclos)] at hpend
            cases hpend
          refine move_sendFrame ((s.relay.setStream id _).setPending id _) id sends hopen
            hopen rfl ?_ ?_ ?_ other
          · intro other
            by_cases hother : other = id
            · subst hother
              simp only [setPending_streams,
                setStream_streams, update_self, hstr]
              exact streamStops_pulling stream true
            · simp only [setPending_streams,
                setStream_streams, update_of_ne hother]
              exact .refl _
          · intro other hother
            refine ⟨?_, ?_, rfl⟩
            · simp only [setPending_pending,
                setStream_pending, AList.lookup_insert_ne hother]
            · simp only [setPending_streams,
                setStream_streams, update_of_ne hother]
          · intro henc
            have hasked : askedOf id [.credit id state.sequence] =
                [.credit state.sequence] := by
              rw [askedOf_cons_same id [] rfl, encode_credit henc, askedOf_nil]
            have hmove : Move (s.exchange id) _ :=
              .pulled hpend hstr hstate hpul
            convert hmove using 1
            simp [exchange, relayActs, hasked]

theorem move_request {input : Relay.ReverseRequest} {aborted : Bool}
    {acted : Relay.Transport × List Relay.ReverseFrame} (hfresh : id ∉ s.requested)
    (h : s.relay.request id input aborted sends = some acted) : Move (s.exchange other)
      ({ s.relayActs acted with requested := id :: s.requested }.exchange other) := by
  rw [request] at h
  split at h
  · cases h
  · next hadmitted =>
      have hopen : s.relay.closed = false := by
        simp only [Bool.or_eq_true, not_or, Bool.not_eq_true] at hadmitted
        exact hadmitted.1.1
      simp only [] at h
      split at h
      · cases h
      · cases h
        have hopen' : (s.relay.setPending id .fresh).closed = false := hopen
        simp only [send, hopen', Bool.false_eq_true, if_false]
        split
        · by_cases hother : other = id
          · subst hother
            have hused : (s.exchange other).used = false := by
              simpa [exchange] using hfresh
            have hmove : Move (s.exchange other) _ := .requested hused hopen
            have hasked : askedOf other [.request other input.path input.method input.headers
                input.body] = [.request] := askedOf_cons_same other [] rfl
            convert hmove using 1
            simp [exchange, relayActs, hasked]
          · have hasked : askedOf other [.request id input.path input.method input.headers
                input.body] = [] := askedOf_cons_other other [] (Ne.symm hother)
            have hlook : (s.relay.pending.insert id .fresh).lookup other =
                s.relay.pending.lookup other := AList.lookup_insert_ne hother
            convert Move.same (s.exchange other) using 1
            simp [exchange, relayActs, hasked, hother, hlook]
        · refine move_lost { s.relayActs ((s.relay.setPending id .fresh).disconnect, []) with
            requested := id :: s.requested } hopen' (fun _ => .refl _) (.inl rfl) ?_ other
          simp only [relayActs, List.append_nil]

end Operations

/-! ## Messages of the desktop -/

section Messages

variable {s : System} {frame : Desktop.Frame} {rest : List Desktop.Frame}
  {t : Relay.Transport} {violated : Bool}

theorem move_took (id : String) (hid : frame.id = id) (hup : s.up = frame :: rest)
    (hclos : t.closed = s.relay.closed) (hsame : ∀ other, other ≠ id →
      t.pending.lookup other = s.relay.pending.lookup other ∧
        t.streams other = s.relay.streams other ∧
        t.retired.contains other = s.relay.retired.contains other)
    (hmove : (s.exchange id).told = tells frame :: toldOf id rest →
      Move (s.exchange id) { s.exchange id with
        told := toldOf id rest
        relay := t.pending.lookup id
        stream := t.streams id
        relayRetired := t.retired.contains id }) (other : String) :
    Move (s.exchange other)
      ({ s with relay := t, up := rest, violated := violated }.exchange other) := by
  by_cases hother : other = id
  · subst hother
    have htold : (s.exchange other).told = tells frame :: toldOf other rest := by
      simp only [exchange, hup, toldOf_cons_same other rest hid]
    convert hmove htold using 1
    simp only [exchange, hclos]
  · obtain ⟨hlook, hstr, hret⟩ := hsame other hother
    have hskip : frame.id ≠ other := fun h => hother (h.symm.trans hid)
    convert Move.same (s.exchange other) using 1
    simp only [exchange, hclos, hlook, hstr, hret, hup, toldOf_cons_other other rest hskip]

theorem decoded_eq {frame' : Relay.ReverseFrame} (h : decoded frame = some frame') :
    frame' = toRelay frame :=
  validate_value h

theorem move_dropped (hup : s.up = frame :: rest)
    (hpend : s.relay.pending.lookup frame.id = none) (other : String) : Move (s.exchange other)
      ({ s with up := rest, violated := violated }.exchange other) := by
  refine move_took frame.id rfl hup rfl (fun _ _ => ⟨rfl, rfl, rfl⟩) ?_ other
  intro htold
  exact .dropped htold hpend

theorem move_response {state : Relay.Pending} {id : String} {status : UInt16}
    {headers : Desktop.HeaderMap} (hup : s.up = .response id status headers :: rest)
    (hpend : s.relay.pending.lookup id = some state)
    (h : s.relay.receivePending state (toRelay (.response id status headers)) = some t)
    (other : String) : Move (s.exchange other)
      ({ s with relay := t, up := rest, violated := violated }.exchange other) := by
  rw [toRelay, receivePending] at h
  split at h
  · cases h
  · next hhead =>
      have hhead : state.head = false := by simpa using hhead
      have hlook : ∀ state other, other ≠ id →
          (s.relay.pending.insert id state).lookup other = s.relay.pending.lookup other :=
        fun _ _ hother => AList.lookup_insert_ne hother
      cases hallow : !nullBody status.toNat with
      | true =>
        simp only [hallow, if_true, Option.some.injEq] at h
        subst h
        refine move_took id rfl hup ?_ ?_ ?_ other
        · rfl
        · intro other hother
          simp [hlook _ other hother, update_of_ne hother]
        · intro htold
          rw [tells, hallow] at htold
          have hmove := Move.answered htold hpend hhead
          convert hmove using 1
          simp [exchange]
      | false =>
        simp only [hallow, Bool.false_eq_true, if_false, Option.some.injEq] at h
        subst h
        refine move_took id rfl hup ?_ ?_ ?_ other
        · rfl
        · intro other hother
          simp [hlook _ other hother]
        · intro htold
          rw [tells, hallow] at htold
          have hmove := Move.answered htold hpend hhead
          convert hmove using 1
          simp [exchange]

theorem move_chunk {state : Relay.Pending} {id body : String} {seq : UInt64}
    (hup : s.up = .chunk id seq body :: rest) (hpend : s.relay.pending.lookup id = some state)
    (h : s.relay.receivePending state (toRelay (.chunk id seq body)) = some t) (other : String) :
    Move (s.exchange other)
      ({ s with relay := t, up := rest, violated := violated }.exchange other) := by
  rw [toRelay, receivePending] at h
  split at h
  · cases h
  · split at h
    · cases h
    · next bytes hbytes =>
        split at h
        · cases h
        · split at h
          · cases h
          · next stream' hstr =>
              obtain ⟨stream, hstr, henq⟩ := Option.bind_eq_some_iff.mp hstr
              cases h
              refine move_took id rfl hup ?_ ?_ ?_ other
              · rfl
              · intro other hother
                have hlook : ∀ state : Relay.Pending,
                    (s.relay.pending.insert id state).lookup other = s.relay.pending.lookup other :=
                  fun _ => AList.lookup_insert_ne hother
                simp [hlook, update_of_ne hother]
              · intro htold
                rw [tells, hbytes] at htold
                have hmove := Move.delivered htold hpend hstr henq
                convert hmove using 1
                simp [exchange]

theorem move_end {state : Relay.Pending} {id : String}
    (hup : s.up = .end_ id :: rest) (hpend : s.relay.pending.lookup id = some state)
    (h : s.relay.receivePending state (toRelay (.end_ id)) = some t) (other : String) :
    Move (s.exchange other)
      ({ s with relay := t, up := rest, violated := violated }.exchange other) := by
  have hlook : ∀ other, other ≠ id →
      (s.relay.pending.erase id).lookup other = s.relay.pending.lookup other :=
    fun other hother => AList.lookup_erase_ne hother
  rw [toRelay, receivePending] at h
  split at h
  · cases h
  · simp only [remove_streams] at h
    split at h
    · next hstr =>
        cases h
        refine move_took id rfl hup ?_ ?_ ?_ other
        · rfl
        · intro other hother
          exact ⟨hlook other hother, rfl, rfl⟩
        · intro htold
          have hmove := Move.completed htold hpend (.inl ⟨hstr, rfl⟩)
          convert hmove using 1
          simp [exchange, hstr]
    · next stream hstr =>
        obtain ⟨closed, hclose, rfl⟩ := Option.map_eq_some_iff.mp h
        refine move_took id rfl hup ?_ ?_ ?_ other
        · rfl
        · intro other hother
          simp [hlook other hother, update_of_ne hother]
        · intro htold
          have hmove := Move.completed htold hpend
            (.inr ⟨stream, closed, hstr, hclose, rfl⟩)
          convert hmove using 1
          simp [exchange]

theorem move_refused {state : Relay.Pending} {id : String}
    (hup : s.up = .cancel id :: rest) (hpend : s.relay.pending.lookup id = some state)
    (h : s.relay.receivePending state (toRelay (.cancel id)) = some t) (other : String) :
    Move (s.exchange other)
      ({ s with relay := t, up := rest, violated := violated }.exchange other) := by
  have hwithd : t = s.relay.withdraw id state := by
    simp only [toRelay, receivePending, cancel, hpend,
      Bool.false_eq_true, if_false, Option.some.injEq] at h
    exact h.symm
  subst hwithd
  refine move_took id rfl hup ?_ ?_ ?_ other
  · rfl
  · intro other hother
    have hlook : (s.relay.pending.erase id).lookup other = s.relay.pending.lookup other :=
      AList.lookup_erase_ne hother
    simp [hother, hlook]
  · intro htold
    have hmove := Move.refused htold hpend (streamStops_fail (s.relay.streams id))
    convert hmove using 1
    simp

/-- A message of the desktop is taken, forgotten, or the end of the connection. -/
theorem move_receive (hdrain : Drained s.relay) (hup : s.up = frame :: rest) (other : String) :
    Move (s.exchange other)
      ({ s with
        relay := s.relay.receive (decoded frame)
        up := rest
        violated := violated }.exchange other) := by
  cases hclos : s.relay.closed with
  | true =>
    rw [receive, if_pos hclos]
    exact move_dropped hup (hdrain hclos _) other
  | false =>
    rw [receive, if_neg (by simp [hclos])]
    cases hacc : decoded frame >>= s.relay.accept with
    | none =>
      exact move_lost { s with
        relay := s.relay.disconnect
        up := rest
        violated := violated } hclos (fun _ => .refl _) (.inr ⟨frame, hup⟩) rfl other
    | some t =>
      obtain ⟨frame', hframe, hacc⟩ := Option.bind_eq_some_iff.mp hacc
      obtain rfl := decoded_eq hframe
      rw [Option.getD_some]
      cases hpend : s.relay.pending.lookup frame.id with
      | none =>
        have hsame : t = s.relay := by
          cases frame <;>
            simp_all [toRelay, accept, Desktop.Frame.id]
        rw [hsame]
        exact move_dropped hup hpend other
      | some state =>
        cases frame with
        | request | credit => cases hacc
        | response id status headers =>
          simp only [toRelay, accept] at hacc
          rw [show s.relay.pending.lookup id = some state from hpend] at hacc
          exact move_response hup hpend hacc other
        | chunk id seq body =>
          simp only [toRelay, accept] at hacc
          rw [show s.relay.pending.lookup id = some state from hpend] at hacc
          exact move_chunk hup hpend hacc other
        | end_ id =>
          simp only [toRelay, accept] at hacc
          rw [show s.relay.pending.lookup id = some state from hpend] at hacc
          exact move_end hup hpend hacc other
        | cancel id =>
          simp only [toRelay, accept] at hacc
          rw [show s.relay.pending.lookup id = some state from hpend] at hacc
          exact move_refused hup hpend hacc other

end Messages

end Wenlan.Reverse
