import Wenlan.Projection.Tree
import Wenlan.Support.Transition

/-!
# Moving a page

`move_projected_page` and `recover_move`, one step for each file-system operation.  A process
may stop between any two of them, or in the middle of a write, and the next operation on the
projection begins with the recovery.  Reads go with the step after them, since nobody else
writes in between.
-/

namespace Wenlan.Projection

open Pages
open Support.FileSystem
open Support.Transition

variable {B : Type}

structure MoveJournal where
  version : Nat
  operationId : String
  pageId : String
  source : String
  destination : String
  stage : String
  contentSha256 : String
  entrySha256 : String
  device : Nat
  inode : Nat
  deriving DecidableEq

structure MoveLibrary (B : Type) extends Library B where
  renderJournal : MoveJournal → B
  parseJournal : B → Option MoveJournal
  indexReplaceable : B → Bool
  renderIndex : KnowledgeState → Disk B → B
  parse_renderJournal : ∀ journal read, parseJournal (renderJournal journal) = some read →
    read = journal
  parse_cut : ∀ journal length read,
    parseJournal (cut (renderJournal journal) length) = some read → read = journal

variable (lib : MoveLibrary B) (layout : Layout)

def controlFile (name : String) : Place :=
  { directory := .control, name }

def moveJournal : Place := controlFile ".page-move-v1.json"

def stagePrefix : String := ".page-move-stage-"

def MoveJournal.stagePlace (journal : MoveJournal) : Place :=
  controlFile journal.stage

def recoveryRequired : WenlanError := .conflict "page_move_recovery_required"

structure ProjectionFileIdentity where
  device : Nat
  inode : Nat

def fileSnapshot (disk : Disk B) (place : Place) : Option (String × ProjectionFileIdentity) :=
  (disk.link place).map fun inode =>
    (lib.digest (disk.data inode), { device := layout.device place.directory, inode })

def matchesSnapshot (snapshot : Option (String × ProjectionFileIdentity)) (journal : MoveJournal) :
    Bool :=
  snapshot.any fun found =>
    found.1 == journal.contentSha256 && found.2.device == journal.device &&
      found.2.inode == journal.inode

def verifyParentIdentity (disk : Disk B) (relative : String) (pinned : PageFile) :
    Except WenlanError Unit := do
  let current ← openFolder lib.toLibrary layout disk (splitPath relative).1
  refuseIf (current ≠ pinned.folder) recoveryRequired

structure PlannedMove where
  journal : MoveJournal
  source : PageFile
  target : PageFile
  deriving DecidableEq

inductive MovePlan where
  | already (destination : String)
  | move (planned : PlannedMove)
  deriving DecidableEq

structure MoveRequest where
  pageId : String
  expectedStoragePath : String
  folderPath : String
  operationId : String
  /-- The UUID that names the stage. -/
  stageId : String

def MoveRequest.destination (request : MoveRequest) : String :=
  joinPath request.folderPath (splitPath request.expectedStoragePath).2

def confirmMoved (disk : Disk B) (request : MoveRequest) (target : PageFile) :
    Except WenlanError MovePlan := do
  ensureCaseAvailable lib.toLibrary layout disk target.folder target.name true
  let claimants ← originPaths lib.toLibrary layout disk request.pageId
  refuseIf (¬ (claimants = [request.destination] ∧
    readOriginId lib.toLibrary disk target.place = some request.pageId)) recoveryRequired
  return .already request.destination

def prepareMove (disk : Disk B) (request : MoveRequest) (entry : PageFileState)
    (target : PageFile) : Except WenlanError MovePlan := do
  refuseIf (entry.file ≠ request.expectedStoragePath) (.conflict "page_storage_path_changed")
  ensureCaseAvailable lib.toLibrary layout disk target.folder target.name false
  let claimants ← originPaths lib.toLibrary layout disk request.pageId
  refuseIf (claimants ≠ [request.expectedStoragePath])
    (.conflict "page_projection_identity_ambiguous")
  let source ← pageParent lib.toLibrary layout disk request.expectedStoragePath
  match fileSnapshot lib layout disk source.place with
  | none => .error recoveryRequired
  | some (digest, identity) => do
    refuseIf (layout.device .control ≠ identity.device ∨
      layout.device (.folder target.folder) ≠ identity.device)
      (.conflict "page_move_cross_device")
    let journal :=
      { version := 1, operationId := request.operationId, pageId := request.pageId
        source := request.expectedStoragePath, destination := request.destination
        stage := stagePrefix ++ request.stageId, contentSha256 := digest
        entrySha256 := lib.entryDigest entry, device := identity.device
        inode := identity.inode }
    return .move { journal, source, target }

/-- Everything `move_projected_page` looks at before it changes anything. -/
def planMove (disk : Disk B) (request : MoveRequest) : Except WenlanError MovePlan := do
  validatePagePath request.expectedStoragePath
  let _ ← validateKnowledgeFolderPath request.folderPath
  refuseIf (request.operationId = "" ∨ 128 < request.operationId.utf8ByteSize ∨
    request.operationId.toList.any isControl) invalidPath
  let state ← readStateStrict lib.toLibrary disk
  match state.pages.lookup request.pageId with
  | none => .error (.conflict "page_projection_missing")
  | some entry => do
    refuseIf (isReservedOkfFilename (splitPath request.expectedStoragePath).2) invalidPath
    let target ← pageParent lib.toLibrary layout disk request.destination
    if entry.file = request.destination then confirmMoved lib layout disk request target
    else prepareMove lib layout disk request entry target

structure Recovery where
  journal : MoveJournal
  state : KnowledgeState
  source : PageFile
  target : PageFile
  staged : Bool
  deriving DecidableEq

inductive Classified where
  | nothing
  | cancel
  | link (recovery : Recovery)
  | installed (recovery : Recovery)
  deriving DecidableEq

def isStageName (stage : String) : Bool :=
  stagePrefix.toList.isPrefixOf stage.toList &&
    lib.isUuid (String.ofList (stage.toList.drop stagePrefix.length))

/-- Only the move of the journal at hand, at one of its own points, is gone on with. -/
def classify (disk : Disk B) (recovery : Recovery) (entry : PageFileState) :
    Except WenlanError Classified := do
  let journal := recovery.journal
  let source := fileSnapshot lib layout disk recovery.source.place
  let stage := fileSnapshot lib layout disk journal.stagePlace
  let target := fileSnapshot lib layout disk recovery.target.place
  refuseIf (entry.file ≠ journal.source ∧ entry.file ≠ journal.destination) recoveryRequired
  refuseIf (lib.entryDigest { entry with file := journal.source } ≠ journal.entrySha256)
    recoveryRequired
  if stage = none ∧ target = none ∧ matchesSnapshot source journal ∧
      entry.file = journal.source then
    return .cancel
  else do
    refuseIf (source ≠ none ∨ (!matchesSnapshot stage journal && !matchesSnapshot target journal) ∨
      (target ≠ none ∧ !matchesSnapshot target journal) ∨
      (stage ≠ none ∧ !matchesSnapshot stage journal)) recoveryRequired
    if target = none then do
      verifyParentIdentity lib layout disk journal.destination recovery.target
      ensureCaseAvailable lib.toLibrary layout disk recovery.target.folder recovery.target.name
        false
      return .link recovery
    else return .installed recovery

def recoverMove (disk : Disk B) : Except WenlanError Classified :=
  match disk.read moveJournal with
  | none => .ok .nothing
  | some bytes =>
    match lib.parseJournal bytes with
    | none => .error recoveryRequired
    | some journal => do
      refuseIf (journal.version ≠ 1 ∨ !isStageName lib journal.stage) recoveryRequired
      validatePagePath journal.source
      validatePagePath journal.destination
      let source ← pageParent lib.toLibrary layout disk journal.source
      let target ← pageParent lib.toLibrary layout disk journal.destination
      let staged := (fileSnapshot lib layout disk journal.stagePlace).isSome
      let state ← readStateStrict lib.toLibrary disk
      match state.pages.lookup journal.pageId with
      | none => .error recoveryRequired
      | some entry =>
        classify lib layout disk { journal, state, source, target, staged } entry

def checkInstalled (disk : Disk B) (recovery : Recovery) : Except WenlanError Unit := do
  let journal := recovery.journal
  verifyParentIdentity lib layout disk journal.destination recovery.target
  verifyParentIdentity lib layout disk journal.source recovery.source
  refuseIf (readOriginId lib.toLibrary disk recovery.target.place ≠ some journal.pageId ∨
    !matchesSnapshot (fileSnapshot lib layout disk recovery.target.place) journal) recoveryRequired
  refuseIf (fileSnapshot lib layout disk recovery.source.place ≠ none) recoveryRequired

def Recovery.recordedState (recovery : Recovery) : KnowledgeState :=
  match recovery.state.pages.lookup recovery.journal.pageId with
  | none => recovery.state
  | some entry =>
    { recovery.state with
      pages := recovery.state.pages.insert recovery.journal.pageId
        { entry with file := recovery.journal.destination } }

/-! ## Steps -/

/-- `write_page_atomically_nofollow`: the temporary is created, filled and renamed. -/
inductive Writing where
  | opening (temporary : Place)
  | filling (temporary : Place) (inode : Nat)
  | installing (temporary : Place)
  deriving DecidableEq

def Writing.temporary : Writing → Place
  | .opening temporary | .filling temporary _ | .installing temporary => temporary

def Writing.advance (target : Place) (bytes : B) (disk : Disk B) :
    Writing → Except WenlanError (Disk B × Option Writing)
  | .opening temporary =>
    match disk.createNew temporary (lib.cut bytes 0) with
    | some created => .ok (created, some (.filling temporary disk.fresh))
    | none => .error (.io .alreadyExists)
  | .filling temporary inode => .ok (disk.store inode bytes, some (.installing temporary))
  | .installing temporary =>
    match disk.rename temporary target with
    | some installed => .ok (installed, none)
    | none => .error (.io .notFound)

def Writing.write (bytes : B) (length : Nat) (disk : Disk B) : Writing → Disk B
  | .filling _ inode => disk.store inode (lib.cut bytes length)
  | .opening _ | .installing _ => disk

def Writing.abandon (disk : Disk B) (writing : Writing) : Disk B :=
  (disk.remove writing.temporary).getD disk

/-- Where the process that holds the projection's lock is; `down` is that no process does. -/
inductive Position (B : Type) where
  | down
  | planned (move : PlannedMove)
  | noting (move : PlannedMove) (inode : Nat)
  | noted (move : PlannedMove)
  | recovering
  | cancelling
  | linking (recovery : Recovery)
  | installed (recovery : Recovery)
  | saving (recovery : Recovery) (writing : Writing)
  | recorded (recovery : Recovery)
  | closing (recovery : Recovery)
  | navigating (state : KnowledgeState)
  | indexing (bytes : B) (writing : Writing)
  | finished
  deriving DecidableEq

structure MoveWorld (B : Type) where
  disk : Disk B
  position : Position B

/-- `save_state` of the state with the destination. -/
def Recovery.stateBytes (recovery : Recovery) : B :=
  lib.renderState recovery.recordedState

def stateTemporary (tag : String) : Place :=
  controlFile (".projection-state-" ++ tag ++ ".tmp")

def indexPlace : Place := { directory := .folder "", name := indexFile }

def indexTemporary (tag : String) : Place :=
  { directory := .folder "", name := ".index." ++ tag ++ ".tmp" }

/-- A file of the projection's own, or none. -/
def indexFileIsReplaceable (disk : Disk B) : Bool :=
  (disk.read indexPlace).all lib.indexReplaceable

def removeFile (disk : Disk B) (place : Place) (next : Position B) :
    Except WenlanError (MoveWorld B) :=
  match disk.remove place with
  | some removed => .ok { disk := removed, position := next }
  | none => .error (.io .notFound)

/-- `tag` is the part of a new temporary's name that is new. -/
def MoveWorld.advance (tag : String) (world : MoveWorld B) : Except WenlanError (MoveWorld B) :=
  let disk := world.disk
  match world.position with
  | .down | .finished => .ok world
  | .planned move =>
    match disk.createNew moveJournal (lib.cut (lib.renderJournal move.journal) 0) with
    | some created => .ok { disk := created, position := .noting move disk.fresh }
    | none => .error (.io .alreadyExists)
  | .noting move inode =>
    .ok { disk := disk.store inode (lib.renderJournal move.journal), position := .noted move }
  | .noted move => do
    verifyParentIdentity lib layout disk move.journal.source move.source
    verifyParentIdentity lib layout disk move.journal.destination move.target
    match disk.rename move.source.place move.journal.stagePlace with
    | some staged => .ok { disk := staged, position := .recovering }
    | none => .error (.io .notFound)
  | .recovering => do
    match ← recoverMove lib layout disk with
    | .nothing => return { disk, position := .finished }
    | .cancel => return { disk, position := .cancelling }
    | .link recovery => return { disk, position := .linking recovery }
    | .installed recovery => return { disk, position := .installed recovery }
  | .cancelling => removeFile disk moveJournal .finished
  | .linking recovery =>
    match disk.hardLink recovery.journal.stagePlace recovery.target.place with
    | some linked => .ok { disk := linked, position := .installed recovery }
    | none => .error (.io .other)
  | .installed recovery => do
    checkInstalled lib layout disk recovery
    return { disk, position := .saving recovery (.opening (stateTemporary tag)) }
  | .saving recovery writing => do
    let (written, next) ← writing.advance lib stateFile (recovery.stateBytes lib) disk
    match next with
    | some writing => return { disk := written, position := .saving recovery writing }
    | none => return { disk := written, position := .recorded recovery }
  | .recorded recovery => do
    refuseIf (fileSnapshot lib layout disk recovery.source.place ≠ none) recoveryRequired
    if recovery.staged then do
      let stage := fileSnapshot lib layout disk recovery.journal.stagePlace
      refuseIf (!matchesSnapshot stage recovery.journal) recoveryRequired
      removeFile disk recovery.journal.stagePlace (.closing recovery)
    else return { disk, position := .closing recovery }
  | .closing recovery => removeFile disk moveJournal (.navigating recovery.recordedState)
  | .navigating state =>
    if indexFileIsReplaceable lib disk then
      let bytes := lib.renderIndex state disk
      .ok { disk, position := .indexing bytes (.opening (indexTemporary tag)) }
    else .ok { disk, position := .finished }
  | .indexing bytes writing => do
    let (written, next) ← writing.advance lib indexPlace bytes disk
    match next with
    | some writing => return { disk := written, position := .indexing bytes writing }
    | none => return { disk := written, position := .finished }

/-- The operation answers an error; the index is only a convenience. -/
def MoveWorld.giveUp (world : MoveWorld B) : MoveWorld B :=
  match world.position with
  | .saving _ writing => { disk := writing.abandon world.disk, position := .down }
  | .indexing _ writing => { disk := writing.abandon world.disk, position := .finished }
  | .navigating _ | .finished => { world with position := .finished }
  | _ => { world with position := .down }

inductive MoveEvent where
  /-- The next operation, which may fail. -/
  | advance (tag : String)
  | write (length : Nat)
  | fail
  | crash
  /-- The next operation on the projection begins. -/
  | recover

def MoveWorld.write (length : Nat) (world : MoveWorld B) : MoveWorld B :=
  match world.position with
  | .noting move inode =>
    let bytes := lib.cut (lib.renderJournal move.journal) length
    { world with disk := world.disk.store inode bytes }
  | .saving recovery writing =>
    { world with disk := writing.write lib (recovery.stateBytes lib) length world.disk }
  | .indexing bytes writing =>
    { world with disk := writing.write lib bytes length world.disk }
  | _ => world

def MoveWorld.next (world : MoveWorld B) : MoveEvent → MoveWorld B
  | .advance tag =>
    match world.advance lib layout tag with
    | .ok next => next
    | .error _ => world.giveUp
  | .write length => world.write lib length
  | .fail => world.giveUp
  | .crash => { world with position := .down }
  | .recover =>
    match world.position with
    | .down | .finished => { world with position := .recovering }
    | _ => world

def MoveStep (world : MoveWorld B) (event : MoveEvent) (after : MoveWorld B) : Prop :=
  world.next lib layout event = after

end Wenlan.Projection
