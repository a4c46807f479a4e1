import Wenlan.Outbox.ExactlyOnce

/-!
# Runs of the drain

What a step leaves of the invariant, what it takes out of the outbox, and from both what holds
of a run with crashes anywhere.
-/

namespace Wenlan.Outbox

open Briefs List
open Pages
open Support.Transition

variable {Request Memories : Type} {digest : BriefUpdateRequest → String}
  {route : StoreRoute Request Memories}
  {files : String → Except String (OutboxEnvelope Request)} {s t : World Request Memories}
  {label : Label Memories} {labels : List (Label Memories)} {name : String}

/-- What a drain goes by where it is. -/
def Stands (files : String → Except String (OutboxEnvelope Request))
    (history : List (Event Request)) : Position Request → Prop
  | .sending name _ sent _ _ => Sends files name sent
  | .concluding name _ (.ok outcome) _ _ =>
    ∃ sent effect, .delivered name sent effect (some outcome) ∈ history ∧ Settles effect outcome
  | _ => True

structure Inv (digest : BriefUpdateRequest → String) (route : StoreRoute Request Memories)
    (files : String → Except String (OutboxEnvelope Request)) (s : World Request Memories) :
    Prop where
  past : Past digest route files s.db s.history
  inFlight : ∀ request ∈ s.inFlight, Sends files request.1 request.2
  stands : Stands files s.history s.position

theorem World.disposed_same (s : World Request Memories) (name : String) (disposal : Disposal) :
    (s.disposed name disposal).db = s.db ∧ (s.disposed name disposal).history = s.history ∧
      (s.disposed name disposal).inFlight = s.inFlight := by
  cases disposal <;> exact ⟨rfl, rfl, rfl⟩

variable {more : List (Event Request)}

theorem Stands.append {position : Position Request} {history : List (Event Request)}
    (h : Stands files history position) : Stands files (history ++ more) position := by
  cases position with
  | idle => trivial
  | reading _ _ => trivial
  | sending _ _ _ _ _ => exact h
  | concluding name kind result rest report =>
    cases result with
    | error error => trivial
    | ok outcome =>
      obtain ⟨sent, effect, hmem, hsettl⟩ := h
      exact ⟨sent, effect, mem_append_left _ hmem, hsettl⟩

variable {rest : List String}

variable {sent : Sent Request}

theorem stands_answered (hlaw : route.Lawful) {made : Made} {kind : String}
    {report : OutboxDrainReport} :
    Stands files (s.executed digest route name sent made true).history
      (.concluding name kind (answerOf digest route sent made s.db) rest report) := by
  unfold answerOf
  split
  · rename_i outcome houtc
    refine ⟨sent, _, mem_append_right _ (mem_singleton.mpr ?_),
      settles_of_readResponse hlaw houtc⟩
    rw [if_pos rfl, houtc]
  · trivial

theorem sends_of_readFile {envelope : OutboxEnvelope Request}
    (h : s.readFile files name = .ok envelope) (briefs : BriefStore) :
    Sends files name (sentFor envelope briefs) := by
  unfold World.readFile at h
  split at h
  · exact ⟨envelope, briefs, h, rfl⟩
  · cases h

theorem Inv.delivered (hlaw : route.Lawful) {kind : String}
    {report : OutboxDrainReport} {fate : Fate}
    (h : Inv digest route files s) (hpos : s.position = .sending name kind sent rest report)
    (hstead : Steady files s (.deliver fate)) :
    Inv digest route files (s.delivered digest route name kind sent rest report fate) := by
  have hsends : Sends files name sent := by
    have hstand := h.stands
    rw [hpos] at hstand
    exact hstand
  cases fate with
  | unreached error => exact ⟨h.past, h.inFlight, trivial⟩
  | late error =>
    refine ⟨h.past, fun request hreq => ?_, trivial⟩
    obtain hold | hnew := mem_append.mp hreq
    · exact h.inFlight request hold
    · rw [mem_singleton.mp hnew]
      exact hsends
  | lost made error =>
    have hpast : Past digest route files (s.executed digest route name sent made false).db
        (s.executed digest route name sent made false).history :=
      h.past.executed hlaw hsends fun hwait => absurd hwait Bool.false_ne_true
    exact ⟨hpast, h.inFlight, trivial⟩
  | answered made =>
    have hcond : ∀ envelope, files name = .ok envelope → envelope.reconciles →
        ∀ before receipt, TookEffect s.history name before receipt → before = sent := by
      unfold Steady at hstead
      rw [hpos] at hstead
      exact hstead
    have hpast : Past digest route files (s.executed digest route name sent made true).db
        (s.executed digest route name sent made true).history :=
      h.past.executed hlaw hsends fun _ => hcond
    have hstand : Stands files (s.executed digest route name sent made true).history
        (.concluding name kind (answerOf digest route sent made s.db) rest report) :=
      stands_answered hlaw
    exact ⟨hpast, h.inFlight, hstand⟩

variable {result : Except String ReplayOutcome}

theorem Inv.concluded {kind : String} {report : OutboxDrainReport} (h : Inv digest route files s)
    (hpos : s.position = .concluding name kind result rest report) (moving : Moving) :
    Inv digest route files (s.concluded name kind result rest report moving) := by
  have hsound : Sound files s.history
      (.concluded name result (moving.moved && disposalOf result != .keep)) := by
    have hstand := h.stands
    rw [hpos] at hstand
    cases result with
    | error error => simp [Sound, disposalOf]
    | ok outcome => exact hstand
  have hpast : Past digest route files s.db (s.history ++
      [.concluded name result (moving.moved && disposalOf result != .keep)]) :=
    h.past.snoc (nofun) hsound
  obtain ⟨hdb, hhist, hinFl⟩ := s.disposed_same name (disposalOf result)
  unfold World.concluded
  dsimp only
  split
  · refine ⟨?_, ?_, trivial⟩
    · rw [hdb, hhist]
      exact hpast
    · rw [hinFl]
      exact h.inFlight
  · exact ⟨hpast, h.inFlight, trivial⟩

variable {moving : Moving}

theorem Inv.discarded {error : String} {report : OutboxDrainReport}
    (h : Inv digest route files s) (herror : s.readFile files name = .error error)
    (hmov : ¬(moving.moved ∧ name ∉ s.outbox)) :
    Inv digest route files (s.discarded name error rest report moving) := by
  have hsound : Sound files s.history (.discarded name error moving.moved) := by
    intro hmoved
    have hthere : name ∈ s.outbox := by
      by_contra habs
      exact hmov ⟨hmoved, habs⟩
    refine ⟨error, ?_⟩
    unfold World.readFile at herror
    rw [if_pos hthere] at herror
    exact herror
  have hpast : Past digest route files s.db
      (s.history ++ [.discarded name error moving.moved]) :=
    h.past.snoc (nofun) hsound
  unfold World.discarded
  split
  all_goals exact ⟨hpast, h.inFlight, trivial⟩

theorem Inv.arrive (hlaw : route.Lawful) {index : Nat} {request : String × Sent Request}
    (h : Inv digest route files s) (hreq : s.inFlight[index]? = some request) (made : Made) :
    Inv digest route files
      { s.executed digest route request.1 request.2 made false with
        inFlight := s.inFlight.eraseIdx index } := by
  have hmem := mem_of_getElem? hreq
  refine ⟨?_, fun other hother => ?_, h.stands.append⟩
  · exact h.past.executed hlaw (h.inFlight request hmem) fun hwait =>
      absurd hwait Bool.false_ne_true
  · exact h.inFlight other (mem_of_mem_eraseIdx hother)

theorem Inv.step (hlaw : route.Lawful) (h : Inv digest route files s)
    (hstead : Steady files s label) (hstep : Step digest route files s label t) :
    Inv digest route files t := by
  obtain ⟨hother, hnext⟩ := hstep
  unfold next at hnext
  split at hnext
  case h_1 => -- drain
    cases hnext
    exact ⟨h.past, h.inFlight, trivial⟩
  case h_2 => -- drain, while another runs
    cases hnext
    exact ⟨h.past, h.inFlight, h.stands⟩
  case h_3 moving name rest report hpos => -- read
    split at hnext
    · rename_i error herror
      split at hnext
      · cases hnext
      · rename_i hmov
        cases hnext
        exact h.discarded herror hmov
    · rename_i envelope henvelope
      cases hnext
      exact ⟨h.past, h.inFlight, sends_of_readFile henvelope _⟩
  case h_4 error name rest report hpos => -- unready
    split at hnext
    · cases hnext
    · cases hnext
      exact ⟨h.past, h.inFlight, trivial⟩
  case h_5 fate name kind sent rest report hpos => -- deliver
    cases hnext
    exact h.delivered hlaw hpos hstead
  case h_6 moving name kind result rest report hpos => -- conclude
    split at hnext
    · cases hnext
    · cases hnext
      exact h.concluded hpos moving
  case h_7 => -- finish
    cases hnext
    exact ⟨h.past, h.inFlight, trivial⟩
  case h_8 => -- crash
    cases hnext
    exact ⟨h.past, h.inFlight, trivial⟩
  case h_9 index made => -- arrive
    split at hnext
    · cases hnext
    · rename_i request hreq
      cases hnext
      exact h.arrive hlaw hreq made
  case h_10 db => -- other
    cases hnext
    exact ⟨h.past.kept (hother db rfl), h.inFlight, h.stands⟩
  case h_11 name => -- enqueue
    split at hnext
    · cases hnext
    · cases hnext
      exact ⟨h.past, h.inFlight, h.stands⟩
  case h_12 => cases hnext

/-! ## What leaves the outbox -/

/-- What a stretch of a run adds to the history accounts for what left the outbox meanwhile. -/
structure Accounts (s t : World Request Memories) (more : List (Event Request)) : Prop where
  history : t.history = s.history ++ more
  left : ∀ name ∈ s.outbox, name ∉ t.outbox → LeftOutbox more name
  filed : ∀ name ∈ t.failed, name ∉ s.failed → FiledAsFailed more name

theorem Accounts.same (hhist : t.history = s.history ++ more)
    (houtb : ∀ name ∈ s.outbox, name ∈ t.outbox) (hfail : t.failed = s.failed) :
    Accounts s t more := by
  refine ⟨hhist, fun name hold hgone => absurd (houtb name hold) hgone, ?_⟩
  intro name hnew hold
  rw [hfail] at hnew
  exact absurd hnew hold

variable {more' : List (Event Request)}

theorem LeftOutbox.mono (h : LeftOutbox more name)
    (hsub : ∀ event ∈ more, event ∈ more') : LeftOutbox more' name :=
  h.imp (fun hleft => hleft.imp fun _ hmem => hsub _ hmem)
    fun hleft => hleft.imp fun _ hmem => hsub _ hmem

theorem FiledAsFailed.mono (h : FiledAsFailed more name)
    (hsub : ∀ event ∈ more, event ∈ more') : FiledAsFailed more' name :=
  h.imp (fun hfiled => hfiled.imp fun _ hboth => ⟨hsub _ hboth.1, hboth.2⟩)
    fun hleft => hleft.imp fun _ hmem => hsub _ hmem

theorem Accounts.trans {m : World Request Memories}
    (h : Accounts s m more) (h' : Accounts m t more') : Accounts s t (more ++ more') := by
  refine ⟨?_, fun name hold hgone => ?_, fun name hnew hold => ?_⟩
  · rw [h'.history, h.history, append_assoc]
  · by_cases hmid : name ∈ m.outbox
    · exact (h'.left name hmid hgone).mono fun event hmem => mem_append_right _ hmem
    · exact (h.left name hold hmid).mono fun event hmem => mem_append_left _ hmem
  · by_cases hmid : name ∈ m.failed
    · exact (h.filed name hmid hold).mono fun event hmem => mem_append_left _ hmem
    · exact (h'.filed name hnew hmid).mono fun event hmem => mem_append_right _ hmem

theorem mem_erase_or {outbox : List String} {other : String} (name : String) (h : other ∈ outbox) :
    other = name ∨ other ∈ outbox.erase name := by
  by_cases heq : other = name
  · exact .inl heq
  · exact .inr ((mem_erase_of_ne heq).mpr h)

theorem Accounts.concluded {kind : String} {report : OutboxDrainReport} :
    ∃ more, Accounts s (s.concluded name kind result rest report moving) more := by
  refine ⟨[.concluded name result (moving.moved && disposalOf result != .keep)], ?_⟩
  unfold World.concluded
  cases hleft : moving.moved && disposalOf result != .keep with
  | false => exact .same rfl (fun _ hold => hold) rfl
  | true =>
    have hgone : Event.concluded name result true ∈
        ([.concluded name result true] : List (Event Request)) := mem_singleton_self _
    cases hdisp : disposalOf result with
    | keep => exact .same rfl (fun _ hold => hold) rfl
    | remove =>
      refine ⟨rfl, fun other hold hnot => ?_, fun other hnew hold => absurd hnew hold⟩
      obtain rfl | hstill := mem_erase_or name hold
      · exact .inl ⟨result, hgone⟩
      · exact absurd hstill hnot
    | file =>
      refine ⟨rfl, fun other hold hnot => ?_, fun other hnew hold => ?_⟩
      · obtain rfl | hstill := mem_erase_or name hold
        · exact .inl ⟨result, hgone⟩
        · exact absurd hstill hnot
      · obtain hmem | hmem := mem_append.mp hnew
        · exact absurd hmem hold
        · rw [mem_singleton.mp hmem]
          exact .inl ⟨result, hgone, hdisp⟩

theorem Accounts.discarded {error : String} {report : OutboxDrainReport} :
    ∃ more, Accounts s (s.discarded name error rest report moving) more := by
  refine ⟨[.discarded name error moving.moved], ?_⟩
  unfold World.discarded
  cases hmoved : moving.moved with
  | false => exact .same rfl (fun _ hold => hold) rfl
  | true =>
    have hgone : Event.discarded name error true ∈
        ([.discarded name error true] : List (Event Request)) := mem_singleton_self _
    refine ⟨rfl, fun other hold hnot => ?_, fun other hnew hold => ?_⟩
    · obtain rfl | hstill := mem_erase_or name hold
      · exact .inr ⟨error, hgone⟩
      · exact absurd hstill hnot
    · obtain hmem | hmem := mem_append.mp hnew
      · exact absurd hmem hold
      · rw [mem_singleton.mp hmem]
        exact .inr ⟨error, hgone⟩

theorem Accounts.step (hstep : Step digest route files s label t) : ∃ more, Accounts s t more := by
  have hkeep : ∀ {t : World Request Memories}, t.history = s.history → t.outbox = s.outbox →
      t.failed = s.failed → ∃ more, Accounts s t more := by
    intro t hhist houtb hfail
    refine ⟨[], .same (by rw [hhist, append_nil]) (fun other hold => ?_) hfail⟩
    rw [houtb]
    exact hold
  obtain ⟨-, hnext⟩ := hstep
  unfold next at hnext
  split at hnext
  case h_1 => -- drain
    cases hnext
    exact hkeep rfl rfl rfl
  case h_2 => -- drain, while another runs
    cases hnext
    exact hkeep rfl rfl rfl
  case h_3 moving name rest report hpos => -- read
    split at hnext
    · split at hnext
      · cases hnext
      · cases hnext
        exact Accounts.discarded
    · cases hnext
      exact hkeep rfl rfl rfl
  case h_4 => -- unready
    split at hnext
    · cases hnext
    · cases hnext
      exact hkeep rfl rfl rfl
  case h_5 fate name kind sent rest report hpos => -- deliver
    cases hnext
    cases fate with
    | unreached error => exact hkeep rfl rfl rfl
    | late error => exact hkeep rfl rfl rfl
    | lost made error => exact ⟨_, .same rfl (fun _ hold => hold) rfl⟩
    | answered made => exact ⟨_, .same rfl (fun _ hold => hold) rfl⟩
  case h_6 => -- conclude
    split at hnext
    · cases hnext
    · cases hnext
      exact Accounts.concluded
  case h_7 => -- finish
    cases hnext
    exact hkeep rfl rfl rfl
  case h_8 => -- crash
    cases hnext
    exact hkeep rfl rfl rfl
  case h_9 => -- arrive
    split at hnext
    · cases hnext
    · cases hnext
      exact ⟨_, .same rfl (fun _ hold => hold) rfl⟩
  case h_10 => -- other
    cases hnext
    exact hkeep rfl rfl rfl
  case h_11 => -- enqueue
    split at hnext
    · cases hnext
    · cases hnext
      exact ⟨[], .same (append_nil _).symm (fun _ hold => mem_append_left _ hold) rfl⟩
  case h_12 => cases hnext

theorem Accounts.run (h : Run (Step digest route files) s labels t) :
    ∃ more, Accounts s t more := by
  induction h with
  | refl s => exact ⟨[], .same (append_nil _).symm (fun _ hold => hold) rfl⟩
  | cons hone _ ih =>
    obtain ⟨first, hfirst⟩ := Accounts.step hone
    obtain ⟨more, hmore⟩ := ih
    exact ⟨first ++ more, hfirst.trans hmore⟩

/-- A daemon before its first drain. -/
structure Fresh (s : World Request Memories) : Prop where
  history : s.history = []
  inFlight : s.inFlight = []
  position : s.position = .idle

theorem Fresh.inv (h : Fresh s) : Inv digest route files s := by
  refine ⟨⟨?_, ?_, ?_⟩, ?_, ?_⟩
  · rw [h.history]
    exact fun _ _ _ _ hmem => absurd hmem not_mem_nil
  · rw [h.history]
    rintro _ _ _ ⟨_, hmem⟩
    exact absurd hmem not_mem_nil
  · rw [h.history]
    exact justified_nil
  · rw [h.inFlight]
    exact fun _ hmem => absurd hmem not_mem_nil
  · rw [h.position]
    trivial

/-! ### A run that breaks the condition

A handoff is queued for a space without a Brief.  Its answer is lost, so the file stays; the Brief
has version 1 by the next drain, and the request that goes out then is another one under the same
operation id. -/

def lostName : String := "0000000000001-op1-brief_update.json"

def lostRequest : BriefUpdateRequest where
  space := "work"
  callerId := "cli"
  operationId := "op1"
  summary := some { text := "Shipped", expectedVersion := 7 }
  mutations := []

def lostEnvelope : OutboxEnvelope Unit where
  schema := 1
  space := some "work"
  agentName := none
  reconcileSummaryVersion := true
  payload := .briefUpdate lostRequest

def lostFiles (_ : String) : Except String (OutboxEnvelope Unit) := .ok lostEnvelope

def lostDigest (request : BriefUpdateRequest) : String :=
  request.operationId ++ String.join
    (request.summary.toList.map fun summary => toString summary.expectedVersion)

def duplicateResponse : Response :=
  ⟨422, .error "Duplicate: a memory with this content already exists"⟩

theorem isDuplicate_duplicateResponse : duplicateResponse.isDuplicate := by
  decide +kernel

def fullStore : StoreRoute Unit Unit where
  store _ _ _ memories := (duplicateResponse, memories)
  holds _ _ := true

theorem fullStore_lawful : fullStore.Lawful where
  duplicate _ _ _ _ _ := isDuplicate_duplicateResponse
  stored _ _ _ _ _ := rfl
  kept _ _ _ _ _ _ := rfl

def lostStart : World Unit Unit where
  outbox := [lostName]
  failed := []
  db := { briefs := replayStart, memories := () }
  position := .idle
  inFlight := []
  reports := []
  history := []

def lostMade : Made where
  now := 100
  spaceId := "space"
  itemIds _ := "item"
  projected := .done none []

def lostLabels : List (Label Unit) :=
  [.drain, .read (.stays ""), .deliver (.lost lostMade "timeout"), .conclude (.stays ""), .finish,
    .drain, .read (.stays ""), .deliver (.answered lostMade), .conclude (.moves none)]

def lostSent (version : Int) : Sent Unit := .brief (reconcileSummary version lostRequest)

def lostReceipt : BriefUpdateReceipt where
  space := "work"
  briefVersion := 1
  applied := [{ mutationIndex := none, kind := .summary, itemId := none, version := some 1 }]
  conflicts := []
  projectionPath := none
  warnings := []

def lostRejection : ReplayOutcome :=
  .rejected 409 (.error "operation id 'op1' for 'cli' was already used with a different request")

def lostHistory : List (Event Unit) :=
  [.delivered lostName (lostSent 0) (.took (some lostReceipt)) none,
    .concluded lostName (.error "timeout") false,
    .delivered lostName (lostSent 1) .nothing (some lostRejection),
    .concluded lostName (.ok lostRejection) true]

theorem lostHistory_not_justified : ¬Justified lostFiles lostHistory := by
  intro hjust
  have hsound := hjust
    [.delivered lostName (lostSent 0) (.took (some lostReceipt)) none,
      .concluded lostName (.error "timeout") false]
    (.delivered lostName (lostSent 1) .nothing (some lostRejection))
    [.concluded lostName (.ok lostRejection) true] rfl
  exact (hsound (lostSent 0) (some lostReceipt) ⟨none, mem_cons_self⟩).2 lostRejection rfl

theorem run_of_next {start : World Request Memories} {labels : List (Label Memories)}
    (hlab : ∀ label ∈ labels, ∀ db, label ≠ .other db)
    (h : labels.foldlM (next digest route files) start = some t) :
    Run (Step digest route files) start labels t := by
  refine Run.of_foldlM ?_ hlab h
  intro s label t hlabel hnext
  exact ⟨fun db heq => absurd heq (hlabel db), hnext⟩

theorem steady_of_not_reconciles
    (h : ∀ name envelope, files name = .ok envelope → envelope.reconciles = false)
    (s : World Request Memories) (label : Label Memories) : Steady files s label := by
  unfold Steady
  split
  · intro envelope hfile hreconciles
    rw [h _ _ hfile] at hreconciles
    cases hreconciles
  · trivial

/-- The same handoff for the version it was written for. -/
def keptFiles (_ : String) : Except String (OutboxEnvelope Unit) :=
  .ok { lostEnvelope with
    reconcileSummaryVersion := false
    payload := .briefUpdate (reconcileSummary 0 lostRequest) }

/-- The file stays although the answer came, and the next drain is answered from the receipt. -/
def keptLabels : List (Label Unit) :=
  [.drain, .read (.stays ""), .deliver (.answered lostMade), .conclude (.stays "busy"), .finish,
    .drain, .read (.stays ""), .deliver (.answered lostMade), .conclude (.moves none), .finish]

end Wenlan.Outbox
