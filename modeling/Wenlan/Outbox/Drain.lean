import Wenlan.Briefs.Requests
import Wenlan.Support.Transition

/-!
# Replaying an envelope

`replay` sends what an envelope holds to the daemon's own routes.  The Brief route is the one of
`handle_update_brief`; the route that stores memories is a parameter with the laws that a replay
counts on.
-/

namespace Wenlan.Outbox

open Briefs
open Pages

variable {Request Memories : Type}

inductive OutboxPayload (Request : Type) where
  | briefUpdate (request : BriefUpdateRequest)
  | memoryStore (request : Request)

def OutboxPayload.kind : OutboxPayload Request → String
  | .briefUpdate _ => "brief_update"
  | .memoryStore _ => "memory_store"

structure OutboxEnvelope (Request : Type) where
  schema : Nat
  space : Option String
  agentName : Option String
  reconcileSummaryVersion : Bool
  payload : OutboxPayload Request

def outboxSchema : Nat := 1

/-- The envelope of a file, which reads as one or gives the text of an error. -/
def validEnvelope (file : Except String (OutboxEnvelope Request)) :
    Except String (OutboxEnvelope Request) :=
  match file with
  | .error error => .error error
  | .ok envelope =>
    if envelope.schema = outboxSchema then .ok envelope
    else .error ("unsupported outbox schema " ++ toString envelope.schema)

inductive Body where
  | receipt (receipt : BriefUpdateReceipt)
  | error (message : String)
  | text (text : String)
  deriving DecidableEq

structure Response where
  status : Nat
  body : Body

def Response.isSuccess (response : Response) : Bool :=
  200 ≤ response.status && response.status < 300

def Response.isClientError (response : Response) : Bool :=
  400 ≤ response.status && response.status < 500

/-- `From<WenlanError>` for the error of the server. -/
def serverError : WenlanError → Response
  | .conflict message => ⟨409, .error message⟩
  | .validation message => ⟨422, .error message⟩
  | .notFound message => ⟨404, .error message⟩
  | .vectorDb message => ⟨500, .error ("Vector DB error: " ++ message)⟩
  | .pageDraftIdConflict id =>
    ⟨500, .error ("Page draft id already exists with a different snapshot: " ++ id)⟩
  | .io _ => ⟨500, .error "IO error"⟩

/-- What comes of the projection of a Brief that was updated: the read of the Brief fails, or
there is a path or there are warnings. -/
inductive BriefProjected where
  | unread (message : String)
  | done (path : Option String) (warnings : List String)

def briefResponse (answer : Except WenlanError BriefUpdateReceipt) (projected : BriefProjected) :
    Response :=
  match answer, projected with
  | .error error, _ => serverError error
  | .ok _, .unread message => serverError (.vectorDb message)
  | .ok receipt, .done path warnings =>
    ⟨200, .receipt
      { receipt with projectionPath := path, warnings := receipt.warnings ++ warnings }⟩

def handleUpdateBrief (digest : BriefUpdateRequest → String) (delivery : Delivery)
    (projected : BriefProjected) (s : BriefStore) : Response × BriefStore :=
  let answered := applyBriefUpdate digest delivery s
  (briefResponse answered.1 projected, answered.2)

def startsWith (text start : String) : Bool :=
  start.toList.isPrefixOf text.toList

/-- The answer of the store route to content that is there. -/
def Response.isDuplicate (response : Response) : Bool :=
  response.status == 422 &&
    match response.body with
    | .error message => startsWith message "Duplicate:"
    | _ => false

structure StoreRoute (Request Memories : Type) where
  store : Request → Option String → Option String → Memories → Response × Memories
  holds : Memories → Request → Bool

/-- What a replay counts on: content that is held is answered as a duplicate, a success means
that the content is held, and nothing stops being held. -/
structure StoreRoute.Lawful (route : StoreRoute Request Memories) : Prop where
  duplicate : ∀ memories request space agent, route.holds memories request = true →
    (route.store request space agent memories).1.isDuplicate = true
  stored : ∀ memories request space agent,
    (route.store request space agent memories).1.isSuccess = true →
      route.holds (route.store request space agent memories).2 request = true
  kept : ∀ memories request space agent other, route.holds memories other = true →
    route.holds (route.store request space agent memories).2 other = true

inductive Sent (Request : Type) where
  | brief (request : BriefUpdateRequest)
  | memory (request : Request) (space agent : Option String)
  deriving DecidableEq

structure Database (Memories : Type) where
  briefs : BriefStore
  memories : Memories

def currentVersion (s : BriefStore) (space : String) : Int :=
  ((readBrief s space).map Brief.version).getD 0

def reconcileSummary (version : Int) (request : BriefUpdateRequest) : BriefUpdateRequest :=
  { request with
    summary := request.summary.map fun summary => { summary with expectedVersion := version } }

def sentFor (envelope : OutboxEnvelope Request) (s : BriefStore) : Sent Request :=
  match envelope.payload with
  | .briefUpdate request =>
    if envelope.reconcileSummaryVersion then
      .brief (reconcileSummary (currentVersion s request.space) request)
    else .brief request
  | .memoryStore request => .memory request envelope.space envelope.agentName

def OutboxEnvelope.reconciles (envelope : OutboxEnvelope Request) : Bool :=
  match envelope.payload with
  | .briefUpdate request => envelope.reconcileSummaryVersion && request.summary.isSome
  | .memoryStore _ => false

/-- What the database makes up for one update of a Brief, and what becomes of its projection. -/
structure Made where
  now : Int
  spaceId : String
  itemIds : Nat → String
  projected : BriefProjected

def Made.delivery (made : Made) (request : BriefUpdateRequest) : Delivery where
  request
  now := made.now
  spaceId := made.spaceId
  itemIds := made.itemIds

variable (digest : BriefUpdateRequest → String) (route : StoreRoute Request Memories)

def execute (made : Made) (db : Database Memories) : Sent Request → Response × Database Memories
  | .brief request =>
    let answered := handleUpdateBrief digest (made.delivery request) made.projected db.briefs
    (answered.1, { db with briefs := answered.2 })
  | .memory request space agent =>
    let answered := route.store request space agent db.memories
    (answered.1, { db with memories := answered.2 })

inductive ReplayOutcome where
  | applied (receipt : Option BriefUpdateReceipt)
  | duplicate
  | rejected (status : Nat) (body : Body)
  deriving DecidableEq

/-- What `replay` makes of an answer; `none` is an error. -/
def readResponse (sent : Sent Request) (response : Response) : Option ReplayOutcome :=
  if response.isSuccess then
    match sent, response.body with
    | .brief _, .receipt receipt => some (.applied (some receipt))
    | .brief _, _ => none
    | .memory _ _ _, _ => some (.applied none)
  else
    match sent with
    | .memory _ _ _ =>
      if response.isDuplicate then some .duplicate
      else if response.isClientError then some (.rejected response.status response.body)
      else none
    | .brief _ =>
      if response.isClientError then some (.rejected response.status response.body) else none

/-- What a request that was executed did to the database. -/
inductive Effect where
  | took (receipt : Option BriefUpdateReceipt)
  | held
  | nothing
  deriving DecidableEq

def briefEffect (request : BriefUpdateRequest) (before after : Option OperationReceipt) : Effect :=
  match before with
  | some stored => if stored.requestDigest = digest request then .held else .nothing
  | none =>
    match after with
    | some stored => .took (some stored.response)
    | none => .nothing

def effectOf (db after : Database Memories) : Sent Request → Effect
  | .brief request =>
    briefEffect digest request
      (db.briefs.receipts.lookup (request.callerId, request.operationId))
      (after.briefs.receipts.lookup (request.callerId, request.operationId))
  | .memory request _ _ =>
    if route.holds db.memories request then .held
    else if route.holds after.memories request then .took none
    else .nothing

end Wenlan.Outbox

/-!
## Draining the outbox

`drain_once` over the files of the outbox, one step for each thing it waits for.  An answer may be
lost, a request may reach its route after nobody waits for it any more, a file may stay where it
is, and the daemon may stop at any point.  Other callers work on the same database.
-/

namespace Wenlan.Outbox

open Briefs
open Pages
open Support.Transition

variable {Request Memories : Type}

/-- Why a file is reported as failed, as the data of the message. -/
inductive Failure where
  | running
  | malformed (error : String)
  | conflicts (count : Nat)
  | deleteAfterApply
  | deleteDuplicate
  | rejected (status : Nat) (body : Body)
  | replay (error : String)

inductive DrainOutcome where
  | applied
  | duplicate
  | failed (failure : Failure) (fileError : Option String)

structure OutboxDrainDetail where
  file : String
  kind : String
  outcome : DrainOutcome

structure OutboxDrainReport where
  applied : Nat
  duplicate : Nat
  failed : Nat
  remaining : Nat
  details : List OutboxDrainDetail

def emptyReport : OutboxDrainReport where
  applied := 0
  duplicate := 0
  failed := 0
  remaining := 0
  details := []

def runningReport (remaining : Nat) : OutboxDrainReport where
  applied := 0
  duplicate := 0
  failed := 1
  remaining
  details := [{ file := "", kind := "drain", outcome := .failed .running none }]

def OutboxDrainReport.add (report : OutboxDrainReport) (detail : OutboxDrainDetail) :
    OutboxDrainReport :=
  match detail.outcome with
  | .applied =>
    { report with applied := report.applied + 1, details := report.details ++ [detail] }
  | .duplicate =>
    { report with duplicate := report.duplicate + 1, details := report.details ++ [detail] }
  | .failed _ _ =>
    { report with failed := report.failed + 1, details := report.details ++ [detail] }

/-- Where the drain is.  It holds its lock everywhere but in `idle`. -/
inductive Position (Request : Type) where
  | idle
  | reading (files : List String) (report : OutboxDrainReport)
  | sending (name kind : String) (sent : Sent Request) (rest : List String)
      (report : OutboxDrainReport)
  | concluding (name kind : String) (result : Except String ReplayOutcome) (rest : List String)
      (report : OutboxDrainReport)

/-- What has happened: a request was executed and its answer came or not, a file was concluded
or discarded and left the outbox or not. -/
inductive Event (Request : Type) where
  | delivered (name : String) (sent : Sent Request) (effect : Effect)
      (answer : Option ReplayOutcome)
  | concluded (name : String) (result : Except String ReplayOutcome) (left : Bool)
  | discarded (name error : String) (left : Bool)
  deriving DecidableEq

structure World (Request Memories : Type) where
  outbox : List String
  failed : List String
  db : Database Memories
  position : Position Request
  inFlight : List (String × Sent Request)
  reports : List OutboxDrainReport
  history : List (Event Request)

def endsWith (text ending : String) : Bool :=
  ending.toList.reverse.isPrefixOf text.toList.reverse

def isEnvelopeFile (name : String) : Bool :=
  endsWith name ".json" && name != ".json" && !endsWith name ".receipt.json" &&
    !startsWith name ".tmp-"

def jsonFiles (directory : List String) : List String :=
  (directory.filter isEnvelopeFile).insertionSort fun a b => a ≤ b

/-! ## Steps -/

/-- How a file operation ends: the file stays, or it goes and its receipt may not be written. -/
inductive Moving where
  | stays (error : String)
  | moves (receiptError : Option String)

def Moving.error : Moving → Option String
  | .stays error => some error
  | .moves error => error

def Moving.moved : Moving → Bool
  | .stays _ => false
  | .moves _ => true

inductive Disposal where
  | keep
  | remove
  | file
  deriving DecidableEq

def disposalOf : Except String ReplayOutcome → Disposal
  | .error _ => .keep
  | .ok (.applied receipt) =>
    if receipt.any fun receipt => !receipt.conflicts.isEmpty then .file else .remove
  | .ok .duplicate => .remove
  | .ok (.rejected _ _) => .file

def outcomeOf (result : Except String ReplayOutcome) (moving : Moving) : DrainOutcome :=
  match result with
  | .error error => .failed (.replay error) none
  | .ok (.rejected status body) => .failed (.rejected status body) moving.error
  | .ok .duplicate =>
    if moving.moved then .duplicate else .failed .deleteDuplicate moving.error
  | .ok (.applied receipt) =>
    match receipt.filter fun receipt => !receipt.conflicts.isEmpty with
    | some receipt => .failed (.conflicts receipt.conflicts.length) moving.error
    | none => if moving.moved then .applied else .failed .deleteAfterApply moving.error

/-- How a request on its way ends. -/
inductive Fate where
  | unreached (error : String)
  | late (error : String)
  | lost (made : Made) (error : String)
  | answered (made : Made)

inductive Label (Memories : Type) where
  | drain
  | read (moving : Moving)
  | unready (error : String)
  | deliver (fate : Fate)
  | conclude (moving : Moving)
  | finish
  | crash
  | arrive (index : Nat) (made : Made)
  | other (db : Database Memories)
  | enqueue (name : String)

section Steps

variable (digest : BriefUpdateRequest → String) (route : StoreRoute Request Memories)
  (files : String → Except String (OutboxEnvelope Request))

/-- A request of a file is executed; the answer is only read by a drain that waits for it. -/
def World.executed (s : World Request Memories) (name : String) (sent : Sent Request)
    (made : Made) (waiting : Bool) : World Request Memories :=
  let done := execute digest route made s.db sent
  { s with
    db := done.2
    history := s.history ++ [.delivered name sent (effectOf digest route s.db done.2 sent)
        (if waiting then readResponse sent done.1 else none)] }

def answerOf (sent : Sent Request) (made : Made) (db : Database Memories) :
    Except String ReplayOutcome :=
  match readResponse sent (execute digest route made db sent).1 with
  | some outcome => .ok outcome
  | none => .error "loopback replay returned an error"

def World.delivered (s : World Request Memories) (name kind : String) (sent : Sent Request)
    (rest : List String) (report : OutboxDrainReport) : Fate → World Request Memories
  | .unreached error => { s with position := .concluding name kind (.error error) rest report }
  | .late error =>
    { s with
      position := .concluding name kind (.error error) rest report
      inFlight := s.inFlight ++ [(name, sent)] }
  | .lost made error =>
    { s.executed digest route name sent made false with
      position := .concluding name kind (.error error) rest report }
  | .answered made =>
    { s.executed digest route name sent made true with
      position := .concluding name kind (answerOf digest route sent made s.db) rest report }

/-- The file is gone from the outbox, and is filed if it has failed. -/
def World.disposed (s : World Request Memories) (name : String) (disposal : Disposal) :
    World Request Memories :=
  match disposal with
  | .keep => s
  | .remove => { s with outbox := s.outbox.erase name }
  | .file => { s with outbox := s.outbox.erase name, failed := s.failed ++ [name] }

def World.concluded (s : World Request Memories) (name kind : String)
    (result : Except String ReplayOutcome) (rest : List String) (report : OutboxDrainReport)
    (moving : Moving) : World Request Memories :=
  let left := moving.moved && disposalOf result != .keep
  let s := if left then s.disposed name (disposalOf result) else s
  { s with
    position := .reading rest (report.add { file := name, kind, outcome := outcomeOf result moving })
    history := s.history ++ [.concluded name result left] }

def World.discarded (s : World Request Memories) (name error : String) (rest : List String)
    (report : OutboxDrainReport) (moving : Moving) : World Request Memories :=
  let s' := if moving.moved then s.disposed name .file else s
  { s' with
    position := .reading rest (report.add
      { file := name, kind := "unknown", outcome := .failed (.malformed error) moving.error })
    history := s.history ++ [.discarded name error moving.moved] }

def World.readFile (s : World Request Memories) (name : String) :
    Except String (OutboxEnvelope Request) :=
  if name ∈ s.outbox then validEnvelope (files name) else .error "read"

def next (s : World Request Memories) (label : Label Memories) : Option (World Request Memories) :=
  match label, s.position with
  | .drain, .idle => some { s with position := .reading (jsonFiles s.outbox) emptyReport }
  | .drain, _ =>
    some { s with reports := s.reports ++ [runningReport (jsonFiles s.outbox).length] }
  | .read moving, .reading (name :: rest) report =>
    match s.readFile files name with
    | .error error =>
      if moving.moved ∧ name ∉ s.outbox then none
      else some (s.discarded name error rest report moving)
    | .ok envelope =>
      some { s with
        position :=
          .sending name envelope.payload.kind (sentFor envelope s.db.briefs) rest report }
  | .unready error, .reading (name :: rest) report =>
    match s.readFile files name with
    | .error _ => none
    | .ok envelope =>
      some { s with
        position := .concluding name envelope.payload.kind (.error error) rest report }
  | .deliver fate, .sending name kind sent rest report =>
    some (s.delivered digest route name kind sent rest report fate)
  | .conclude moving, .concluding name kind result rest report =>
    if moving.moved ∧ name ∉ s.outbox then none
    else some (s.concluded name kind result rest report moving)
  | .finish, .reading [] report =>
    some { s with
      position := .idle
      reports := s.reports ++ [{ report with remaining := (jsonFiles s.outbox).length }] }
  | .crash, _ => some { s with position := .idle }
  | .arrive index made, _ =>
    match s.inFlight[index]? with
    | none => none
    | some request =>
      some { s.executed digest route request.1 request.2 made false with
        inFlight := s.inFlight.eraseIdx index }
  | .other db, _ => some { s with db }
  | .enqueue name, _ =>
    if name ∈ s.outbox then none else some { s with outbox := s.outbox ++ [name] }
  | _, _ => none

/-- Other callers leave receipts and held content as they are. -/
def Kept (db db' : Database Memories) : Prop :=
  (∀ key stored, db.briefs.receipts.lookup key = some stored →
    db'.briefs.receipts.lookup key = some stored) ∧
  ∀ request, route.holds db.memories request = true → route.holds db'.memories request = true

def Step (s : World Request Memories) (label : Label Memories) (t : World Request Memories) :
    Prop :=
  (∀ db, label = .other db → Kept route s.db db) ∧ next digest route files s label = some t

end Steps

end Wenlan.Outbox
