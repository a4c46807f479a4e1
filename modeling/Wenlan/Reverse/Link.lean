import Wenlan.Reverse.DesktopMoves
import Wenlan.Support.Transition

/-!
# How the two ends of a request fit together

While both ends are up, the entries of a request and its frames in flight are in one of
the configurations of `Link`.  It follows that either end takes every frame that is on
its way, and that stays so after the other end is gone.
-/

namespace Wenlan.Reverse

open Asked List

/-- The entry of a request whose answer has a body, after `n` chunks. -/
def Relay.Pending.streaming (n bytes : Nat) (credit : Bool) : Relay.Pending where
  head := true
  resolved := true
  bodyAllowed := true
  credit := credit
  sequence := n
  bytes := bytes

/-- A pending request has a stream once its answer allows one, and the stream is open;
while there is no pull in progress there is no credit outstanding. -/
def Streamed (p : Relay.Pending) : Option Relay.Stream → Prop
  | none => (p.head = false ∨ p.bodyAllowed = false) ∧ p.credit = false
  | some stream => p.head = true ∧ p.bodyAllowed = true ∧ stream.state = .readable ∧
      (stream.pulling = false → p.credit = false)

def RelayTakes (p : Relay.Pending) : List Told → Prop
  | [] => True
  | .response bodyAllowed :: rest => p.head = false ∧
      RelayTakes { p with head := true, bodyAllowed := bodyAllowed, resolved := true } rest
  | .chunk seq (some bytes) :: rest =>
    p.head = true ∧ p.bodyAllowed = true ∧ p.credit = true ∧ seq = p.sequence ∧
      p.sequence < Relay.maxChunks ∧ p.bytes + bytes.length ≤ Relay.maxResponseBytes ∧
      RelayTakes { p with
        bytes := p.bytes + bytes.length
        credit := false
        sequence := p.sequence + 1 } rest
  | .chunk _ none :: _ => False
  | .end_ :: rest => p.head = true ∧ rest = []
  | .cancel :: rest => rest = []
  | .other :: _ => False

/-- An id that is not pending at the relay takes frames if `cancel` removed it. -/
def RelayAccepts (relay : Option Relay.Pending) (retired : Bool) (told : List Told) : Prop :=
  match relay with
  | some p => RelayTakes p told
  | none => retired = true ∨ told = []

/-- A frame that may reach a request that is over. -/
def Asked.follows : Asked → Bool
  | .credit _ | .cancel => true
  | .request | .other => false

def DesktopAccepts (desktop : Option Desktop.Pending) (retired : Bool) : List Asked → Prop
  | [] => True
  | .request :: rest => desktop = none ∧ retired = false ∧ (rest = [] ∨ rest = [.cancel])
  | .credit seq :: rest =>
    match desktop with
    | some p => p.phase = .waitingCredit ∧ p.nextSequence = seq ∧ (rest = [] ∨ rest = [.cancel])
    | none => retired = true ∧ ∀ frame ∈ rest, frame.follows = true
  | .cancel :: rest =>
    match desktop with
    | some _ => rest = []
    | none => retired = true ∧ ∀ frame ∈ rest, frame.follows = true
  | .other :: _ => False

theorem desktopAccepts_retired {asked : List Asked}
    (h : ∀ frame ∈ asked, frame.follows) : DesktopAccepts none true asked := by
  cases asked with
  | nil => trivial
  | cons frame rest =>
    rw [forall_mem_cons] at h
    cases frame with
    | request | other => exact absurd h.1 Bool.false_ne_true
    | credit | cancel => exact ⟨rfl, h.2⟩

theorem desktopAccepts_pending {p : Desktop.Pending} {retired : Bool} {asked : List Asked}
    (h : DesktopAccepts (some p) retired asked) : ∀ frame ∈ asked, frame.follows := by
  cases asked with
  | nil => exact forall_mem_nil _
  | cons frame rest =>
    rw [forall_mem_cons]
    cases frame with
    | request => cases h.1
    | other => exact h.elim
    | credit => rcases h.2.2 with rfl | rfl <;> simp [follows]
    | cancel =>
      obtain rfl : rest = [] := h
      simp [follows]

/-- A request as both ends and the channels hold it, while both ends are up: the entry of
the relay and whether `cancel` removed it, the frames each way, and the entry of the
desktop and whether it is a tombstone. -/
inductive Link : Bool → Option Relay.Pending → Bool → List Asked → List Told →
    Option Desktop.Pending → Bool → Prop
  | unused : Link false none false [] [] none false
  | requested : Link true (some .fresh) false [.request] [] none false
  | serving (tag : Nat) :
      Link true (some .fresh) false [] [] (some ⟨tag, .awaitingHeaders, 0, 0, 0⟩) false
  | answered (tag : Nat) :
      Link true (some .fresh) false [] [.response true]
        (some ⟨tag, .waitingCredit, 0, 0, 0⟩) false
  | ready (tag n bytes : Nat) :
      Link true (some (.streaming n bytes false)) false [] []
        (some ⟨tag, .waitingCredit, n, bytes, n⟩) false
  | credited (tag n bytes : Nat) :
      Link true (some (.streaming n bytes true)) false [.credit n] []
        (some ⟨tag, .waitingCredit, n, bytes, n⟩) false
  | working (tag n bytes : Nat) :
      Link true (some (.streaming n bytes true)) false [] []
        (some ⟨tag, .creditInFlight, n, bytes, n⟩) false
  | delivering (tag n bytes : Nat) (chunk : List UInt8) (hn : n < Relay.maxChunks)
      (hbytes : bytes + chunk.length ≤ Relay.maxResponseBytes) :
      Link true (some (.streaming n bytes true)) false [] [.chunk n (some chunk)]
        (some ⟨tag, .waitingCredit, n + 1, bytes + chunk.length, n + 1⟩) false
  -- The desktop is done with the request.
  | closing (p : Relay.Pending) (asked : List Asked) (told : List Told)
      (hasked : ∀ frame ∈ asked, frame.follows = true) (htold : RelayTakes p told) :
      Link true (some p) false asked told none true
  -- The relay is done with the request.
  | withdrawnEarly : Link true none true [.request, .cancel] [] none false
  | withdrawn (told : List Told) (d : Desktop.Pending) :
      Link true none true [.cancel] told (some d) false
  | withdrawnCredited (told : List Told) (d : Desktop.Pending)
      (hphase : d.phase = .waitingCredit) :
      Link true none true [.credit d.nextSequence, .cancel] told (some d) false
  -- Both are.
  | settled (retired : Bool) (asked : List Asked) (told : List Told)
      (hasked : ∀ frame ∈ asked, frame.follows = true) (htold : retired = true ∨ told = []) :
      Link true none retired asked told none true

section Link

variable {used relayRetired desktopRetired : Bool} {relay : Option Relay.Pending}
  {asked : List Asked} {told : List Told} {desktop : Option Desktop.Pending}

/-- In every configuration the relay takes what is on its way. -/
theorem Link.relayAccepts (h : Link used relay relayRetired asked told desktop desktopRetired) :
    RelayAccepts relay relayRetired told := by
  cases h with
  | unused => exact .inr rfl
  | requested | serving | ready | credited | working => trivial
  | answered => exact ⟨rfl, trivial⟩
  | delivering tag n bytes chunk hn hbytes =>
    exact ⟨rfl, rfl, rfl, rfl, hn, hbytes, trivial⟩
  | closing p asked told hasked htold => exact htold
  | withdrawnEarly | withdrawn | withdrawnCredited => exact .inl rfl
  | settled retired asked told hasked htold => exact htold

/-- In every configuration the desktop takes what is on its way. -/
theorem Link.desktopAccepts (h : Link used relay relayRetired asked told desktop desktopRetired) :
    DesktopAccepts desktop desktopRetired asked := by
  cases h with
  | unused | serving | answered | ready | working | delivering => trivial
  | requested => exact ⟨rfl, rfl, .inl rfl⟩
  | credited => exact ⟨rfl, rfl, .inl rfl⟩
  | closing p asked told hasked htold => exact desktopAccepts_retired hasked
  | withdrawnEarly => exact ⟨rfl, rfl, .inr rfl⟩
  | withdrawn => exact rfl
  | withdrawnCredited told d hphase => exact ⟨hphase, rfl, .inr rfl⟩
  | settled retired asked told hasked htold => exact desktopAccepts_retired hasked

end Link

/-! ## Moves and configurations -/

def Exchange.linked (x : Exchange) : Prop :=
  Link x.used x.relay x.relayRetired x.asked x.told x.desktop x.desktopRetired

theorem RelayTakes.credit {told : List Told} :
    ∀ {p : Relay.Pending}, RelayTakes p told → RelayTakes { p with credit := true } told := by
  induction told with
  | nil => exact fun _ => trivial
  | cons frame rest ih =>
    intro p h
    match frame with
    | .response _ => exact ⟨h.1, ih h.2⟩
    | .chunk _ (some _) => exact ⟨h.1, h.2.1, rfl, h.2.2.2⟩
    | .chunk _ none | .other => exact h.elim
    | .end_ | .cancel => exact h

theorem RelayTakes.cancelled {told : List Told} :
    ∀ {p : Relay.Pending}, RelayTakes p told → .end_ ∉ told → .cancel ∉ told →
      RelayTakes p (told ++ [.cancel]) := by
  induction told with
  | nil => exact fun _ _ _ => rfl
  | cons frame rest ih =>
    intro p h hend hcanc
    have hend' : .end_ ∉ rest := fun hmem => hend (mem_cons_of_mem _ hmem)
    have hcanc' : .cancel ∉ rest := fun hmem => hcanc (mem_cons_of_mem _ hmem)
    match frame with
    | .response _ => exact ⟨h.1, ih h.2 hend' hcanc'⟩
    | .chunk _ (some _) =>
      obtain ⟨hhead, hbody, hcred, hseq, hn, hbytes, hrest⟩ := h
      exact ⟨hhead, hbody, hcred, hseq, hn, hbytes, ih hrest hend' hcanc'⟩
    | .chunk _ none | .other => exact h.elim
    | .end_ => exact absurd mem_cons_self hend
    | .cancel => exact absurd mem_cons_self hcanc

theorem bodyAllowed_eq (status : UInt16) :
    Desktop.Task.bodyAllowed status = !Relay.Transport.nullBody status.toNat := by
  simp [Desktop.Task.bodyAllowed, Relay.Transport.nullBody, ← UInt16.toNat_inj]

def Announced (events : List Desktop.TaskEvent) : Prop :=
  ∀ tag id status headers bodyAllowed,
    Desktop.TaskEvent.headers tag id status headers bodyAllowed ∈ events →
      bodyAllowed = !Relay.Transport.nullBody status.toNat

variable {x y : Exchange}

theorem announced_move (hmove : Move x y) (hended : y.ended = false)
    (h : Announced x.events) : Announced y.events := by
  have hpop : ∀ event rest, x.events = event :: rest → Announced rest := by
    intro event rest hev tag id status headers bodyAllowed hmem
    exact h tag id status headers bodyAllowed (hev ▸ mem_cons_of_mem _ hmem)
  have hpush : ∀ event, Announced [event] → Announced (x.events ++ [event]) := by
    intro event hevent tag id status headers bodyAllowed hmem
    rcases mem_append.mp hmem with hmem | hmem
    · exact h tag id status headers bodyAllowed hmem
    · exact hevent tag id status headers bodyAllowed hmem
  cases hmove with
  | lost hlost => rw [hlost.rest]; exact h
  | halted hhalt => exact nomatch hended.symm.trans hhalt.ended
  | stale _ hev | headersSent _ hev | bodilessSent _ hev | chunkSent _ hev
  | endSent _ hev | failed _ hev => exact hpop _ _ hev
  | responded =>
    refine hpush _ ?_
    intro tag id status headers bodyAllowed hmem
    rw [mem_singleton] at hmem
    injection hmem with _ _ hstat _ hallow
    rw [hallow, hstat, bodyAllowed_eq]
  | bodilessEnded | endRead | emitted =>
    refine hpush _ ?_
    intro tag id status headers bodyAllowed hmem
    simp at hmem
  | reported _ _ _ hev =>
    rcases hev with rfl | ⟨id, rfl⟩
    · simpa using h
    · refine hpush _ ?_
      intro tag id status headers bodyAllowed hmem
      simp at hmem
  | _ => exact h

theorem follows_append {asked : List Asked} {frame : Asked}
    (h : ∀ frame ∈ asked, frame.follows) (hframe : frame.follows) :
    ∀ frame' ∈ asked ++ [frame], frame'.follows := by
  rw [forall_mem_append, forall_mem_singleton]
  exact ⟨h, hframe⟩

variable {stream : Relay.Stream} {p : Relay.Pending}

theorem streamed_pullable
    (h : Streamed p (some stream)) (hpul : stream.pulling = false) :
    p.head ∧ p.bodyAllowed ∧ p.credit = false :=
  ⟨h.1, h.2.1, h.2.2.2 hpul⟩

/-- The configurations are closed under the moves, while both ends are up. -/
theorem linked_move (hmove : Move x y) (hclos : y.closed = false) (hended : y.ended = false)
    (hstrea : ∀ p, x.relay = some p → Streamed p x.stream)
    (hann : Announced x.events) (h : x.linked) : y.linked := by
  obtain ⟨used, closed, ended, relay, stream, relayRetired, asked, told, desktop, task, events,
    desktopRetired, unread, produced, complete⟩ := x
  cases hmove with
  | lost hlost => exact nomatch hclos.symm.trans hlost.closed
  | halted hhalt => exact nomatch hended.symm.trans hhalt.ended
  | requested hused =>
    subst hused
    cases h with
    | unused => exact .requested
  | dropped htold hrelay =>
    subst htold hrelay
    cases h with
    | withdrawn _ d => exact .withdrawn _ d
    | withdrawnCredited _ d hphase => exact .withdrawnCredited _ d hphase
    | settled retired asked _ hasked htold => 
        exact .settled _ _ _ hasked (.inl (htold.resolve_right (by simp)))
  | answered htold hrelay hhead =>
    subst htold hrelay
    cases h with
    | answered tag => exact .ready tag 0 0
    | closing p asked told hasked htold => exact .closing _ _ _ hasked htold.2
  | delivered htold hrelay =>
    subst htold hrelay
    cases h with
    | delivering tag => exact .ready tag _ _
    | closing p asked told hasked htold =>
      exact .closing _ _ _ hasked htold.2.2.2.2.2.2
  | completed htold hrelay =>
    subst htold hrelay
    cases h with
    | closing p asked told hasked htold => exact .settled _ _ _ hasked (.inr htold.2)
  | refused htold hrelay =>
    subst htold hrelay
    cases h with
    | closing p asked told hasked htold => exact .settled _ _ _ hasked (.inl rfl)
  | cancelled hrelay =>
    subst hrelay
    cases h with
    | requested => exact .withdrawnEarly
    | serving | answered | ready | working | delivering => exact .withdrawn _ _
    | credited tag n bytes => exact .withdrawnCredited _ ⟨tag, .waitingCredit, n, bytes, n⟩ rfl
    | closing p asked told hasked htold =>
      exact .settled _ _ _ (follows_append hasked rfl) (.inl rfl)
  | pulled hrelay hstr hstate hpul =>
    subst hrelay hstr
    obtain ⟨hhead, hbody, hcred⟩ := streamed_pullable (hstrea _ rfl) hpul
    cases h with
    | requested | serving | answered => exact absurd hhead Bool.false_ne_true
    | credited | working | delivering => exact absurd hcred.symm Bool.false_ne_true
    | ready tag n bytes => exact .credited tag n bytes
    | closing p asked told hasked htold =>
      exact .closing _ _ _ (follows_append hasked rfl) htold.credit
  | accepted tag _ hasked hdesk =>
    subst hasked hdesk
    cases h with
    | requested => exact .serving tag
    | withdrawnEarly => exact .withdrawn _ _
    | closing p asked told hasked =>
      exact absurd (hasked _ mem_cons_self) (by simp [follows])
    | settled retired asked told hasked =>
      exact absurd (hasked _ mem_cons_self) (by simp [follows])
  | overloaded _ hasked hdesk =>
    subst hasked hdesk
    cases h with
    | requested => exact .closing _ _ _ (forall_mem_nil _) rfl
    | withdrawnEarly => exact .settled _ _ _ (by simp [follows]) (.inl rfl)
    | closing p asked told hasked =>
      exact absurd (hasked _ mem_cons_self) (by simp [follows])
    | settled retired asked told hasked =>
      exact absurd (hasked _ mem_cons_self) (by simp [follows])
  | skipped _ hasked hframe hdesk =>
    subst hasked hdesk
    cases h with
    | requested | withdrawnEarly => exact absurd rfl hframe
    | closing p asked told hasked htold =>
      exact .closing _ _ _ (fun _ hmem => hasked _ (mem_cons_of_mem _ hmem)) htold
    | settled retired asked told hasked htold =>
      exact .settled _ _ _ (fun _ hmem => hasked _ (mem_cons_of_mem _ hmem)) htold
  | credited _ hasked hdesk hphase hseq =>
    subst hasked hdesk
    cases h with
    | credited tag => exact .working tag _ _
    | withdrawnCredited => exact .withdrawn _ _
  | revoked _ hasked hdesk =>
    subst hasked hdesk
    cases h with
    | withdrawn => exact .settled _ _ _ (forall_mem_nil _) (.inl rfl)
  | headersSent _ hev hdesk hphase =>
    subst hev hdesk
    have hallow := hann _ _ _ _ _ mem_cons_self
    rw [← hallow]
    cases h with
    | serving tag => exact .answered tag
    | withdrawn => exact .withdrawn _ _
    | withdrawnCredited _ d hwaiting => simp [hwaiting] at hphase
    | answered | ready | credited | working | delivering => simp at hphase
  | bodilessSent _ hev hdesk hphase =>
    subst hev hdesk
    have hallow := hann _ _ _ _ _ mem_cons_self
    rw [← hallow]
    cases h with
    | serving tag =>
      exact .closing _ _ _ (forall_mem_nil _) ⟨rfl, rfl, rfl⟩
    | withdrawn => exact .settled _ _ _ (by simp [follows]) (.inl rfl)
    | withdrawnCredited _ d hwaiting => simp [hwaiting] at hphase
    | answered | ready | credited | working | delivering => simp at hphase
  | chunkSent _ hev hdesk hphase hseq hbytes hchunks =>
    subst hdesk
    cases h with
    | working tag n bytes =>
      have hn : (UInt64.ofNat n).toNat = n := by
        refine toNat_seq (Nat.le_trans (Nat.le_of_lt hchunks) ?_)
        decide
      subst hseq
      simp only [hn]
      exact .delivering tag n bytes _ hchunks hbytes
    | withdrawn => exact .withdrawn _ _
    | withdrawnCredited _ d hwaiting => simp [hwaiting] at hphase
    | serving | answered | ready | credited | delivering => simp at hphase
  | endSent _ hev hdesk hphase =>
    subst hdesk
    cases h with
    | working tag n bytes => exact .closing _ _ _ (forall_mem_nil _) ⟨rfl, rfl⟩
    | withdrawn => exact .settled _ _ _ (by simp [follows]) (.inl rfl)
    | withdrawnCredited _ d hwaiting => simp [hwaiting] at hphase
    | serving | answered | ready | credited | delivering => simp at hphase
  | failed _ hev hdesk =>
    subst hdesk
    have hclosi : ∀ p asked told, RelayTakes p told → .end_ ∉ told → .cancel ∉ told →
        (∀ frame ∈ asked, frame.follows) →
        Link true (some p) false asked (told ++ [.cancel]) none true :=
      fun p asked told htold hend hcanc hasked =>
        .closing _ _ _ hasked (htold.cancelled hend hcanc)
    cases h with
    | serving tag => exact hclosi _ _ [] trivial (by simp) (by simp) (by simp)
    | answered tag => exact hclosi _ _ _ ⟨rfl, trivial⟩ (by simp) (by simp) (by simp)
    | ready tag n bytes | working tag n bytes =>
      exact hclosi _ _ [] trivial (by simp) (by simp) (by simp)
    | credited tag n bytes =>
      exact hclosi _ _ [] trivial (by simp) (by simp) (by simp [follows])
    | delivering tag n bytes chunk hn hbytes =>
      exact hclosi _ _ _ ⟨rfl, rfl, rfl, rfl, hn, hbytes, trivial⟩ (by simp) (by simp)
        (by simp)
    | withdrawn => exact .settled _ _ _ (by simp [follows]) (.inl rfl)
    | withdrawnCredited _ d hwaiting =>
      exact .settled _ _ _ (by simp [follows]) (.inl rfl)
  | _ => exact h

/-! ## The invariant -/

structure Ends (x : Exchange) : Prop where
  unused : x.closed = false → x.used = false →
    x.relay = none ∧ x.stream = none ∧ x.relayRetired = false
  drained : x.closed = true → x.relay = none
  streamed : ∀ p, x.relay = some p → Streamed p x.stream
  announced : x.ended = false → Announced x.events
  linked : x.closed = false → x.ended = false → x.linked
  relayAccepts : x.closed = false → RelayAccepts x.relay x.relayRetired x.told
  desktopAccepts : x.ended = false → DesktopAccepts x.desktop x.desktopRetired x.asked

theorem closed_mono (hmove : Move x y) (h : y.closed = false) : x.closed = false := by
  cases hmove with
  | lost hlost => exact nomatch h.symm.trans hlost.closed
  | halted hhalt => rw [hhalt.rest] at h; exact h
  | _ => exact h

theorem ended_mono (hmove : Move x y) (h : y.ended = false) : x.ended = false := by
  cases hmove with
  | lost hlost => rw [hlost.rest] at h; exact h
  | halted hhalt => exact nomatch h.symm.trans hhalt.ended
  | _ => exact h

theorem streamStops_none {stream : Option Relay.Stream} (h : StreamStops none stream) :
    stream = none := by
  cases stream with
  | none => rfl
  | some s => exact h.elim

theorem take_readable (h : stream.state = .readable) :
    stream.take.state = .readable := by
  rw [Relay.Stream.take]
  cases stream.queue with
  | nil => exact h
  | cons bytes rest => simp [h]

theorem take_pulling (stream : Relay.Stream) : stream.take.pulling = stream.pulling := by
  rw [Relay.Stream.take]
  cases stream.queue <;> rfl

section

variable (hmove : Move x y) (h : Ends x)
include hmove h

theorem unused_move (hclos : y.closed = false)
    (hused : y.used = false) : y.relay = none ∧ y.stream = none ∧ y.relayRetired = false := by
  have hx : x.used = false → x.relay = none ∧ x.stream = none ∧ x.relayRetired = false :=
    h.unused (closed_mono hmove hclos)
  have hnone : ∀ {p}, x.relay = some p → x.used = false → False := by
    intro p hp hused
    rw [(hx hused).1] at hp
    cases hp
  cases hmove with
  | requested => cases hused
  | lost hlost => exact nomatch hclos.symm.trans hlost.closed
  | halted hhalt =>
    rw [hhalt.rest] at hused ⊢
    exact hx hused
  | answered _ hrelay | delivered _ hrelay | completed _ hrelay | refused _ hrelay
  | cancelled hrelay | pulled hrelay => exact (hnone hrelay hused).elim
  | taken hstr =>
    rw [(hx hused).2.1] at hstr
    cases hstr
  | stopped _ hstr =>
    obtain ⟨hrelay, hnostr, hret⟩ := hx hused
    rw [hnostr] at hstr
    exact ⟨hrelay, streamStops_none hstr, hret⟩
  | _ => exact hx hused

theorem drained_move (hclos : y.closed) : y.relay = none := by
  have hx : x.closed → x.relay = none := h.drained
  cases hmove with
  | lost hlost => exact hlost.relay
  | halted hhalt =>
    rw [hhalt.rest] at hclos ⊢
    exact hx hclos
  | requested _ hopen => exact nomatch hopen.symm.trans hclos
  | completed | refused | cancelled => rfl
  | answered _ hrelay | delivered _ hrelay | pulled hrelay =>
    rw [hx hclos] at hrelay
    cases hrelay
  | _ => exact hx hclos

theorem streamed_move (hp : y.relay = some p) : Streamed p y.stream := by
  have hx : ∀ p, x.relay = some p → Streamed p x.stream := h.streamed
  cases hmove with
  | lost hlost =>
    rw [hlost.relay] at hp
    cases hp
  | halted hhalt =>
    rw [hhalt.rest] at hp ⊢
    exact hx p hp
  | requested hused hopen =>
    cases hp
    have hstr := (h.unused hopen hused).2.1
    simp only [hstr]
    exact ⟨.inl rfl, rfl⟩
  | completed | refused | cancelled => cases hp
  | @answered bodyAllowed _ q _ hrelay hhead =>
    cases hp
    have hq := hx q hrelay
    cases hstr : x.stream with
    | some stream =>
      rw [hstr] at hq
      exact nomatch hhead.symm.trans hq.1
    | none =>
      rw [hstr] at hq
      cases bodyAllowed with
      | true => exact ⟨rfl, rfl, rfl, fun _ => hq.2⟩
      | false => exact ⟨.inr rfl, hq.2⟩
  | @delivered _ bytes _ q stream stream' _ hrelay hstr henqueue =>
    cases hp
    have hq := hx q hrelay
    rw [hstr] at hq
    obtain ⟨hhead, hbody, hstate, -⟩ := hq
    rw [Relay.Stream.enqueue, hstate] at henqueue
    cases henqueue
    exact ⟨hhead, hbody, rfl, fun _ => rfl⟩
  | @pulled q stream hrelay hstr hstate =>
    cases hp
    have hq := hx q hrelay
    rw [hstr] at hq
    exact ⟨hq.1, hq.2.1, hstate, fun h => absurd h.symm Bool.false_ne_true⟩
  | @taken stream hstr =>
    have hq := hx p hp
    rw [hstr] at hq
    obtain ⟨hhead, hbody, hstate, hcred⟩ := hq
    refine ⟨hhead, hbody, take_readable hstate, ?_⟩
    rw [take_pulling]
    exact hcred
  | stopped hrelay => cases hp.symm.trans hrelay
  | _ => exact hx p hp

theorem relayAccepts_move (hclos : y.closed = false) (hlinke : y.ended = false → y.linked) :
    RelayAccepts y.relay y.relayRetired y.told := by
  have hopen := closed_mono hmove hclos
  have hx := h.relayAccepts hopen
  by_cases hended : y.ended = false
  · exact (hlinke hended).relayAccepts
  · have htakes : ∀ {p : Relay.Pending}, x.relay = some p → RelayTakes p x.told := by
      intro p hp
      rw [hp] at hx
      exact hx
    cases hmove with
    | lost hlost => exact nomatch hclos.symm.trans hlost.closed
    | halted hhalt =>
      have hrest := hhalt.rest
      have hrelay : y.relay = x.relay := by rw [hrest]
      have hret : y.relayRetired = x.relayRetired := by rw [hrest]
      rw [hrelay, hret]
      rcases hhalt.told with hsame | ⟨p, bodyAllowed, hdesk, hphase, htold⟩
      · rw [hsame]
        exact hx
      · rcases hhalt.before with hbef | hsame
        · have hlink := h.linked hopen hbef
          rw [Exchange.linked, hdesk] at hlink
          rw [htold]
          generalize x.told = told at hlink
          generalize x.relay = relay at hlink
          generalize x.relayRetired = retired at hlink
          generalize x.asked = asked at hlink
          generalize x.used = used at hlink
          generalize x.desktopRetired = gone at hlink
          cases hlink with
          | serving tag => exact ⟨rfl, trivial⟩
          | withdrawn => exact .inl rfl
          | withdrawnCredited _ d hwaiting => simp [hwaiting] at hphase
          | answered | ready | credited | working | delivering => simp at hphase
        · rw [hsame]
          exact hx
    | requested hused hopen' =>
      obtain ⟨hrelay, -, hret⟩ := h.unused hopen' hused
      rw [hrelay, hret] at hx
      simp only [hx.resolve_left Bool.false_ne_true]
      trivial
    | dropped htold hrelay =>
      rw [hrelay, htold] at hx
      rw [hrelay]
      exact .inl (hx.resolve_right (cons_ne_nil _ _))
    | answered htold hrelay =>
      have hp := htakes hrelay
      rw [htold] at hp
      exact hp.2
    | delivered htold hrelay =>
      have hp := htakes hrelay
      rw [htold] at hp
      exact hp.2.2.2.2.2.2
    | completed htold hrelay =>
      have hp := htakes hrelay
      rw [htold] at hp
      exact .inr hp.2
    | refused | cancelled => exact .inl rfl
    | pulled hrelay => exact (htakes hrelay).credit
    | accepted _ hrun | overloaded hrun | skipped hrun | credited hrun
    | revoked hrun | stale hrun | headersSent hrun | bodilessSent hrun
    | chunkSent hrun | endSent hrun | failed hrun => exact absurd hrun hended
    | _ => exact hx

theorem desktopAccepts_move (hended : y.ended = false) (hlinke : y.closed = false → y.linked) :
    DesktopAccepts y.desktop y.desktopRetired y.asked := by
  have hx := h.desktopAccepts (ended_mono hmove hended)
  by_cases hclos : y.closed = false
  · exact (hlinke hclos).desktopAccepts
  · have hdrain : ∀ {p : Relay.Pending}, x.relay = some p → x.closed → False := by
      intro p hp hc
      rw [h.drained hc] at hp
      cases hp
    have hpend : ∀ {p : Desktop.Pending}, x.desktop = some p → p.phase ≠ .waitingCredit →
        x.asked = [] ∨ x.asked = [.cancel] := by
      intro p hp hphase
      rw [hp] at hx
      match hasked : x.asked with
      | [] => exact .inl rfl
      | .request :: _ =>
        rw [hasked] at hx
        cases hx.1
      | .credit _ :: _ =>
        rw [hasked] at hx
        exact absurd hx.1 hphase
      | .cancel :: rest =>
        rw [hasked] at hx
        obtain rfl : rest = [] := hx
        exact .inr rfl
      | .other :: _ =>
        rw [hasked] at hx
        exact hx.elim
    have hfol : ∀ {p : Desktop.Pending}, x.desktop = some p →
        ∀ frame ∈ x.asked, frame.follows := by
      intro p hp
      rw [hp] at hx
      exact desktopAccepts_pending hx
    have hkeep : ∀ q : Desktop.Pending, x.asked = [] ∨ x.asked = [.cancel] →
        DesktopAccepts (some q) x.desktopRetired x.asked := by
      rintro q (hasked | hasked)
      · rw [hasked]
        trivial
      · rw [hasked]
        rfl
    cases hmove with
    | lost hlost =>
      rw [hlost.rest]
      exact hx
    | halted hhalt => exact nomatch hended.symm.trans hhalt.ended
    | requested _ hopen => exact absurd hopen hclos
    | cancelled hrelay | pulled hrelay =>
      exact (hdrain hrelay (by simpa using hclos)).elim
    | accepted _ _ hasked hdesk =>
      rw [hasked] at hx
      rcases hx.2.2 with rfl | rfl
      · trivial
      · rfl
    | overloaded _ hasked hdesk =>
      rw [hasked] at hx
      simp only [hdesk]
      refine desktopAccepts_retired ?_
      rcases hx.2.2 with rfl | rfl <;> simp [follows]
    | @skipped frame rest _ hasked hframe hdesk =>
      rw [hasked, hdesk] at hx
      simp only [hdesk]
      match frame with
      | .request => exact absurd rfl hframe
      | .credit _ | .cancel =>
        rw [hx.1]
        exact desktopAccepts_retired hx.2
      | .other => exact hx.elim
    | credited _ hasked hdesk =>
      rw [hasked, hdesk] at hx
      rcases hx.2.2 with rfl | rfl
      · trivial
      · rfl
    | revoked _ hasked hdesk =>
      rw [hasked, hdesk] at hx
      obtain rfl := hx
      trivial
    | headersSent _ _ hdesk hphase => exact hkeep _ (hpend hdesk (by simp [hphase]))
    | chunkSent _ _ hdesk hphase => exact hkeep _ (hpend hdesk (by simp [hphase]))
    | bodilessSent _ _ hdesk | endSent _ _ hdesk | failed _ _ hdesk =>
      exact desktopAccepts_retired (hfol hdesk)
    | _ => exact hx

/-- Every move preserves the invariant. -/
theorem ends_move : Ends y := by
  have hlinke : y.closed = false → y.ended = false → y.linked := by
    intro hclos hended
    have hrun := ended_mono hmove hended
    exact linked_move hmove hclos hended h.streamed (h.announced hrun)
      (h.linked (closed_mono hmove hclos) hrun)
  constructor
  · exact unused_move hmove h
  · exact drained_move hmove h
  · exact fun p hp => streamed_move hmove h hp
  · exact fun hended => announced_move hmove hended (h.announced (ended_mono hmove hended))
  · exact hlinke
  · exact fun hclos => relayAccepts_move hmove h hclos fun hended => hlinke hclos hended
  · exact fun hended => desktopAccepts_move hmove h hended fun hclos => hlinke hclos hended

end

def System.StepsTo (s : System) (action : Action) (s' : System) : Prop :=
  s.step action = some s'

theorem ends_initial (backendToken id : String) :
    Ends ((System.initial backendToken).exchange id) := by
  constructor
  · exact fun _ _ => ⟨rfl, rfl, rfl⟩
  · exact fun hclos => absurd hclos Bool.false_ne_true
  · intro p hp
    cases hp
  · intro _ tag id status headers bodyAllowed hmem
    cases hmem
  · exact fun _ _ => .unused
  · exact fun _ => .inr rfl
  · exact fun _ => trivial

theorem drained_of_ends {s : System} (h : ∀ id, Ends (s.exchange id)) : Drained s.relay :=
  fun hclos id => (h id).drained hclos

end Wenlan.Reverse
