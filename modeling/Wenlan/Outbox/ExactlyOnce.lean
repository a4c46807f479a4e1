import Wenlan.Briefs.Runs
import Wenlan.Outbox.Drain

/-!
# An envelope takes effect once

Every event of a history is justified by the ones before it.  The receipts and the held content
carry the argument: what has taken effect is answered as such from then on, as long as the
request is the one that took effect.
-/

namespace Wenlan.Outbox

open Briefs
open Pages
open Support.Transition

variable {Request Memories : Type} {digest : BriefUpdateRequest → String}
  {route : StoreRoute Request Memories}
  {files : String → Except String (OutboxEnvelope Request)} {s t : World Request Memories}
  {label : Label Memories} {history past rest : List (Event Request)} {event : Event Request}

def TookEffect (history : List (Event Request)) (name : String) (sent : Sent Request)
    (receipt : Option BriefUpdateReceipt) : Prop :=
  ∃ answer, .delivered name sent (.took receipt) answer ∈ history

/-- An answer to what has taken effect: no rejection, and no conflicts that were not there. -/
def Harmless (receipt : Option BriefUpdateReceipt) : ReplayOutcome → Prop
  | .applied again =>
    again.map BriefUpdateReceipt.conflicts = receipt.map BriefUpdateReceipt.conflicts
  | .duplicate => True
  | .rejected _ _ => False

/-- The answer lets an envelope go: it took effect or had done so, or it was a duplicate, or it
was rejected. -/
def Settles (effect : Effect) (outcome : ReplayOutcome) : Prop :=
  (∃ receipt, effect = .took receipt) ∨ effect = .held ∨ outcome = .duplicate ∨
    ∃ status body, outcome = .rejected status body

def Sound (files : String → Except String (OutboxEnvelope Request))
    (past : List (Event Request)) : Event Request → Prop
  | .delivered name _ effect answer =>
    ∀ sent receipt, TookEffect past name sent receipt →
      (∀ again, effect ≠ .took again) ∧ ∀ outcome, answer = some outcome → Harmless receipt outcome
  | .concluded name result left =>
    match result with
    | .error _ => left = false
    | .ok outcome =>
      ∃ sent effect, .delivered name sent effect (some outcome) ∈ past ∧ Settles effect outcome
  | .discarded name _ left => left = true → ∃ error, validEnvelope (files name) = .error error

def Justified (files : String → Except String (OutboxEnvelope Request))
    (history : List (Event Request)) : Prop :=
  ∀ past event rest, history = past ++ event :: rest → Sound files past event

def LeftOutbox (history : List (Event Request)) (name : String) : Prop :=
  (∃ result, .concluded name result true ∈ history) ∨ ∃ error, .discarded name error true ∈ history

/-- The file was filed as failed: for a rejection, for conflicts in its receipt, or because it
is no envelope. -/
def FiledAsFailed (history : List (Event Request)) (name : String) : Prop :=
  (∃ result, .concluded name result true ∈ history ∧ disposalOf result = .file) ∨
    ∃ error, .discarded name error true ∈ history

/-- The condition: a request whose summary was reconciled, and that is answered after its
envelope took effect, is the one that took effect. -/
def Steady (files : String → Except String (OutboxEnvelope Request))
    (s : World Request Memories) (label : Label Memories) : Prop :=
  match label, s.position with
  | .deliver (.answered _), .sending name _ sent _ _ =>
    ∀ envelope, files name = .ok envelope → envelope.reconciles = true →
      ∀ before receipt, TookEffect s.history name before receipt → before = sent
  | _, _ => True

def Sent.operation : Sent Request → (String × String) ⊕ Request
  | .brief request => .inl (request.callerId, request.operationId)
  | .memory request _ _ => .inr request

/-! ## One execution -/

theorem justified_nil : Justified files [] := by
  intro past event rest h
  cases List.append_eq_nil_iff.mp h.symm with
  | intro _ hcons => cases hcons

theorem Justified.snoc (h : Justified files history) (hevent : Sound files history event) :
    Justified files (history ++ [event]) := by
  intro past other rest heq
  rcases List.eq_nil_or_concat rest with rfl | ⟨front, last, rfl⟩
  · obtain ⟨rfl, hlast⟩ := List.append_inj' heq rfl
    obtain rfl := List.singleton_inj.mp hlast
    exact hevent
  · rw [List.concat_eq_append, ← List.cons_append, ← List.append_assoc] at heq
    obtain ⟨rfl, -⟩ := List.append_inj' heq rfl
    exact h past other front rfl

def Remembered (digest : BriefUpdateRequest → String) (route : StoreRoute Request Memories)
    (db : Database Memories) (receipt : Option BriefUpdateReceipt) : Sent Request → Prop
  | .brief request =>
    validateUpdateRequest request = .ok () ∧
      ∃ stored, db.briefs.receipts.lookup (request.callerId, request.operationId) = some stored ∧
        stored.requestDigest = digest request ∧ receipt = some stored.response
  | .memory request _ _ => route.holds db.memories request = true

variable {db : Database Memories} {sent : Sent Request}

variable {db' : Database Memories}

theorem Remembered.kept {receipt : Option BriefUpdateReceipt}
    (hkept : Kept route db db')
    (h : Remembered digest route db receipt sent) : Remembered digest route db' receipt sent := by
  cases sent with
  | brief request =>
    obtain ⟨hvalid, stored, hstor, hdig⟩ := h
    exact ⟨hvalid, stored, hkept.1 _ _ hstor, hdig⟩
  | memory request space agent => exact hkept.2 _ h

theorem serverError_isSuccess (error : WenlanError) : (serverError error).isSuccess = false := by
  cases error <;> rfl

theorem execute_kept (hlaw : route.Lawful) (made : Made) (db : Database Memories)
    (sent : Sent Request) : Kept route db (execute digest route made db sent).2 := by
  cases sent with
  | brief request =>
    refine ⟨fun key stored hstor => ?_, fun other hother => hother⟩
    exact applyBriefUpdate_receipt hstor
  | memory request space agent =>
    exact ⟨fun key stored hstor => hstor, fun other hother => hlaw.kept _ _ _ _ _ hother⟩

theorem briefEffect_cases {delivery : Delivery} {briefs after : BriefStore}
    {answer : Except WenlanError BriefUpdateReceipt}
    (h : Answered digest delivery briefs answer after) : ((∃ error, answer = .error error) ∧
      ∀ receipt, briefEffect digest delivery.request (briefs.receipts.lookup delivery.key)
        (after.receipts.lookup delivery.key) ≠ .took receipt) ∨ ∃ receipt, answer = .ok receipt ∧
      (briefEffect digest delivery.request (briefs.receipts.lookup delivery.key)
          (after.receipts.lookup delivery.key) = .held ∨
        briefEffect digest delivery.request (briefs.receipts.lookup delivery.key)
          (after.receipts.lookup delivery.key) = .took (some receipt)) := by
  cases h with
  | refused error =>
    refine .inl ⟨⟨error, rfl⟩, fun receipt heffect => ?_⟩
    unfold briefEffect at heffect
    split at heffect
    · split at heffect <;> cases heffect
    · cases heffect
  | replayed stored hstor hdig =>
    refine .inr ⟨stored.response, rfl, .inl ?_⟩
    rw [hstor]
    exact if_pos hdig
  | performed receipt _ hperf =>
    refine .inr ⟨receipt, rfl, .inr ?_⟩
    rw [hperf.fresh, hperf.receipts, AList.lookup_insert]
    rfl

variable {made : Made}

theorem remembered_of_took {receipt : Option BriefUpdateReceipt}
    (h : effectOf digest route db (execute digest route made db sent).2 sent = .took receipt) :
    Remembered digest route (execute digest route made db sent).2 receipt sent := by
  cases sent with
  | brief request =>
    obtain ⟨-, hnone⟩ | ⟨answered, hansw, heffect⟩ :=
      briefEffect_cases (applyBriefUpdate_answered digest (made.delivery request) db.briefs)
    · exact absurd h (hnone receipt)
    · obtain ⟨hvalid, stored, hstor, hdig, hresp⟩ := applyBriefUpdate_ok hansw
      refine ⟨hvalid, stored, hstor, hdig, ?_⟩
      have hsome : receipt = some answered := by
        obtain heffect | heffect := heffect
        · cases h.symm.trans heffect
        · injection h.symm.trans heffect
      rw [hsome, hresp]
  | memory request space agent =>
    unfold effectOf at h
    dsimp only at h
    split at h
    · cases h
    · split at h
      · assumption
      · cases h

/-- An answer lets the envelope go for a reason. -/
theorem settles_of_readResponse (hlaw : route.Lawful) {outcome : ReplayOutcome}
    (h : readResponse sent (execute digest route made db sent).1 = some outcome) :
    Settles (effectOf digest route db (execute digest route made db sent).2 sent) outcome := by
  cases sent with
  | brief request =>
    obtain ⟨⟨error, herror⟩, -⟩ | ⟨answered, -, heffect⟩ :=
      briefEffect_cases (applyBriefUpdate_answered digest (made.delivery request) db.briefs)
    · change readResponse (.brief request) (briefResponse
        (applyBriefUpdate digest (made.delivery request) db.briefs).1 made.projected) =
          some outcome at h
      rw [herror] at h
      change readResponse (.brief request) (serverError error) = some outcome at h
      unfold readResponse at h
      rw [serverError_isSuccess] at h
      dsimp only at h
      rw [if_neg Bool.false_ne_true] at h
      split at h
      · exact .inr (.inr (.inr ⟨_, _, (Option.some.inj h).symm⟩))
      · cases h
    · obtain heffect | heffect := heffect
      · exact .inr (.inl heffect)
      · exact .inl ⟨_, heffect⟩
  | memory request space agent =>
    unfold readResponse at h
    split at h
    · rename_i hsuc
      have hholds : route.holds (execute digest route made db
          (.memory request space agent)).2.memories request :=
        hlaw.stored db.memories request space agent hsuc
      unfold effectOf
      dsimp only
      split
      · exact .inr (.inl rfl)
      · exact .inl ⟨none, rfl⟩
    · dsimp only at h
      split at h
      · exact .inr (.inr (.inl (Option.some.inj h).symm))
      · split at h
        · exact .inr (.inr (.inr ⟨_, _, (Option.some.inj h).symm⟩))
        · cases h

/-- What took effect is not done again, and the same request is answered as it was. -/
theorem answer_of_remembered (hlaw : route.Lawful) {receipt : Option BriefUpdateReceipt}
    (h : Remembered digest route db receipt sent) {outcome : ReplayOutcome}
    (houtc : readResponse sent (execute digest route made db sent).1 = some outcome) :
    Harmless receipt outcome := by
  cases sent with
  | brief request =>
    obtain ⟨hvalid, stored, hstor, hdig, rfl⟩ := h
    have hrec :
        (applyBriefUpdate digest (made.delivery request) db.briefs).1 =
          if stored.requestDigest = digest request then .ok stored.response
          else .error (alreadyUsed request) :=
      (applyBriefUpdate_received digest (made.delivery request) hstor).2 hvalid
    have hansw := hrec.trans (if_pos hdig)
    change readResponse (.brief request) (briefResponse
      (applyBriefUpdate digest (made.delivery request) db.briefs).1 made.projected) =
        some outcome at houtc
    rw [hansw] at houtc
    cases hprojected : made.projected with
    | unread message =>
      rw [hprojected] at houtc
      cases houtc
    | done path warnings =>
      rw [hprojected] at houtc
      cases houtc
      rfl
  | memory request space agent =>
    have hdupl := hlaw.duplicate db.memories request space agent h
    have hsuc : (route.store request space agent db.memories).1.isSuccess = false := by
      unfold Response.isDuplicate at hdupl
      rw [Bool.and_eq_true, beq_iff_eq] at hdupl
      unfold Response.isSuccess
      rw [hdupl.1]
      rfl
    change readResponse (.memory request space agent)
      (route.store request space agent db.memories).1 = some outcome at houtc
    unfold readResponse at houtc
    rw [hsuc, if_neg Bool.false_ne_true] at houtc
    rw [if_pos hdupl] at houtc
    cases houtc
    trivial

theorem effect_of_remembered {before : Sent Request}
    {receipt : Option BriefUpdateReceipt} (h : Remembered digest route db receipt before)
    (hsame : sent.operation = before.operation) (again : Option BriefUpdateReceipt) :
    effectOf digest route db (execute digest route made db sent).2 sent ≠ .took again := by
  cases before with
  | brief remembered =>
    cases sent with
    | brief request =>
      injection hsame with hkey
      obtain ⟨-, stored, hstor, -⟩ := h
      intro heffect
      change briefEffect digest request
        (db.briefs.receipts.lookup (request.callerId, request.operationId)) _ = _ at heffect
      rw [hkey, hstor] at heffect
      unfold briefEffect at heffect
      dsimp only at heffect
      split at heffect <;> cases heffect
    | memory request space agent => cases hsame
  | memory remembered rememberedSpace rememberedAgent =>
    cases sent with
    | brief request => cases hsame
    | memory request space agent =>
      injection hsame with hreq
      obtain rfl := hreq
      intro heffect
      have hholds : route.holds db.memories request := h
      unfold effectOf at heffect
      dsimp only at heffect
      rw [if_pos hholds] at heffect
      cases heffect

def Sends (files : String → Except String (OutboxEnvelope Request)) (name : String)
    (sent : Sent Request) : Prop :=
  ∃ envelope briefs, validEnvelope (files name) = .ok envelope ∧ sent = sentFor envelope briefs

variable {envelope : OutboxEnvelope Request}

theorem validEnvelope_eq_ok {file : Except String (OutboxEnvelope Request)}
    (h : validEnvelope file = .ok envelope) :
    file = .ok envelope := by
  unfold validEnvelope at h
  split at h
  · cases h
  · split at h
    · rw [Except.ok.inj h]
    · cases h

theorem operation_sentFor (envelope : OutboxEnvelope Request) (briefs briefs' : BriefStore) :
    (sentFor envelope briefs).operation = (sentFor envelope briefs').operation := by
  unfold sentFor
  split
  · split <;> rfl
  · rfl

theorem sentFor_eq (h : envelope.reconciles = false)
    (briefs briefs' : BriefStore) : sentFor envelope briefs = sentFor envelope briefs' := by
  unfold OutboxEnvelope.reconciles at h
  unfold sentFor
  split at h
  · split
    · rename_i hrecon
      rw [hrecon, Bool.true_and, Option.isSome_eq_false_iff, Option.isNone_iff_eq_none] at h
      unfold reconcileSummary
      rw [h]
      rfl
    · rfl
  · rfl

theorem Sends.operation_eq {name : String} {before : Sent Request}
    (h : Sends files name sent) (hbef : Sends files name before) :
    sent.operation = before.operation := by
  obtain ⟨envelope, briefs, hvalid, rfl⟩ := h
  obtain ⟨same, briefs', hsame, rfl⟩ := hbef
  obtain rfl := Except.ok.inj (hvalid.symm.trans hsame)
  exact operation_sentFor envelope briefs briefs'

theorem eq_of_steady {name : String} {before : Sent Request}
    {receipt : Option BriefUpdateReceipt} (h : Sends files name sent)
    (hbef : Sends files name before) (htook : TookEffect history name before receipt)
    (hstead : ∀ envelope, files name = .ok envelope → envelope.reconciles →
      ∀ before receipt, TookEffect history name before receipt → before = sent) :
    before = sent := by
  obtain ⟨envelope, briefs, hvalid, rfl⟩ := h
  cases hreconciles : envelope.reconciles with
  | true => exact hstead envelope (validEnvelope_eq_ok hvalid) hreconciles before receipt htook
  | false =>
    obtain ⟨same, briefs', hsame, rfl⟩ := hbef
    obtain rfl := Except.ok.inj (hvalid.symm.trans hsame)
    exact sentFor_eq hreconciles briefs' briefs

structure Past (digest : BriefUpdateRequest → String) (route : StoreRoute Request Memories)
    (files : String → Except String (OutboxEnvelope Request)) (db : Database Memories)
    (history : List (Event Request)) : Prop where
  sends : ∀ name sent effect answer, .delivered name sent effect answer ∈ history →
    Sends files name sent
  took : ∀ name sent receipt, TookEffect history name sent receipt →
    Remembered digest route db receipt sent
  justified : Justified files history

theorem Past.kept (h : Past digest route files db history)
    (hkept : Kept route db db') : Past digest route files db' history :=
  ⟨h.sends, fun name sent receipt htook => (h.took name sent receipt htook).kept hkept, h.justified⟩

/-- A conclusion or a discard adds nothing that has to be remembered. -/
theorem Past.snoc (h : Past digest route files db history)
    (hevent : ∀ name sent effect answer, event ≠ .delivered name sent effect answer)
    (hsound : Sound files history event) : Past digest route files db (history ++ [event]) := by
  have hold : ∀ name sent effect answer, .delivered name sent effect answer ∈ history ++ [event] →
        .delivered name sent effect answer ∈ history := by
    intro name sent effect answer hmem
    rw [List.mem_append, List.mem_singleton] at hmem
    exact hmem.resolve_right fun heq => hevent name sent effect answer heq.symm
  refine ⟨fun name sent effect answer hmem => h.sends _ _ _ _ (hold _ _ _ _ hmem), ?_,
    h.justified.snoc hsound⟩
  rintro name sent receipt ⟨answer, hmem⟩
  exact h.took name sent receipt ⟨answer, hold _ _ _ _ hmem⟩

theorem Past.executed (hlaw : route.Lawful) {name : String}
    {waiting : Bool} (h : Past digest route files s.db s.history) (hsends : Sends files name sent)
    (hstead : waiting → ∀ envelope, files name = .ok envelope → envelope.reconciles →
        ∀ before receipt, TookEffect s.history name before receipt → before = sent) :
    Past digest route files (s.executed digest route name sent made waiting).db
      (s.executed digest route name sent made waiting).history := by
  refine ⟨?_, ?_, h.justified.snoc ?_⟩
  · intro other again effect answer hmem
    obtain hmem | hmem := List.mem_append.mp hmem
    · exact h.sends other again effect answer hmem
    · injection List.mem_singleton.mp hmem with hname hsent
      rw [hname, hsent]
      exact hsends
  · rintro other again receipt ⟨answer, hmem⟩
    obtain hmem | hmem := List.mem_append.mp hmem
    · exact (h.took other again receipt ⟨answer, hmem⟩).kept (execute_kept hlaw made s.db sent)
    · injection List.mem_singleton.mp hmem with _ hsent heffect
      rw [hsent]
      exact remembered_of_took heffect.symm
  · intro before receipt htook
    have hrem := h.took name before receipt htook
    obtain ⟨answer, hmem⟩ := htook
    have hbef := h.sends _ _ _ _ hmem
    refine ⟨effect_of_remembered hrem (hsends.operation_eq hbef), ?_⟩
    intro outcome houtc
    cases waiting with
    | false => cases houtc
    | true =>
      obtain rfl := eq_of_steady hsends hbef ⟨answer, hmem⟩ (hstead rfl)
      exact answer_of_remembered hlaw hrem houtc

end Wenlan.Outbox
