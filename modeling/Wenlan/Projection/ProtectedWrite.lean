import Wenlan.Pages.Watcher
import Wenlan.Projection.Tree

/-!
# The protected page write

`write_page_preserving_external_edits`, one step for each file-system operation, next to an
editor that works on the same file.  What the file is rendered to is any text.
-/

namespace Wenlan.Projection

open Pages
open Support.FileSystem
open Support.Transition

variable {B : Type}

/-- What the projection reads of a row of `pages`. -/
structure Page where
  id : String
  title : String
  summary : Option String
  content : String
  space : Option String
  version : Int
  status : String
  staleReason : Option String
  sourceMemoryIds : List String
  createdAt : String
  lastModified : String

structure PageLibrary (B : Type) extends Library B where
  isEmpty : B → Bool
  /-- `str::from_utf8` and `as_bytes`. -/
  decode : B → Option String
  encode : String → B
  readYaml : YamlReader
  renderMarkdown : Page → String

def projectionBytesReplaceable (lib : PageLibrary B) (bytes : B) (page : Page)
    (baseline : Option PageFileState) : Bool :=
  if lib.isEmpty bytes then true
  else
    match lib.decode bytes with
    | none => false
    | some raw =>
      let file := extractFrontmatter lib.readYaml raw
      let owned :=
        match (file.1 "origin_id").bind YamlValue.asStr with
        | none => baseline.isSome
        | some id => id == page.id
      let notNewer := decide (projectedOriginVersion file.1 ≤ page.version)
      let unchanged := (baseline.bind PageFileState.contentSha256) == some (lib.digest bytes)
      let rendered := extractFrontmatter lib.readYaml (lib.renderMarkdown page)
      let adopted := canonicalizePageBody file.2 == canonicalizePageBody rendered.2
      owned && notNewer && (unchanged || adopted)

/-! ## The write -/

/-- One call, with the names it makes up: `sequence` tells its temporary from those of other
calls, `uuid` names the place of a displaced file. -/
structure WriteCall (B : Type) where
  page : Page
  bytes : B
  baseline : Option PageFileState
  sequence : String
  uuid : String

def WriteCall.temporaryName (call : WriteCall B) : String :=
  "." ++ call.page.id ++ "." ++ call.sequence ++ ".tmp"

def WriteCall.previousPlace (call : WriteCall B) : Place :=
  { directory := .recovery, name := call.page.id ++ "." ++ call.uuid ++ ".md" }

/-- The file that is written, and its temporary next to it. -/
def pagePlace (name : String) : Place :=
  (pageFile name).place

def WriteCall.temporaryPlace (call : WriteCall B) (name : String) : Place :=
  { directory := .folder (pageFile name).folder, name := call.temporaryName }

def externalEdit : WenlanError := .conflict "page_projection_external_edit"

/-- Where the write is.  `restoring` and `linking` put a file at the page's path; a displaced
file is put back when the write fails. -/
inductive WritePosition (B : Type) where
  | idle
  | opening (call : WriteCall B)
  | checking (call : WriteCall B)
  | creating (call : WriteCall B)
  | filling (call : WriteCall B) (inode : Nat)
  | preparing (call : WriteCall B)
  | displacing (call : WriteCall B)
  | rechecking (call : WriteCall B)
  | restoring (call : WriteCall B) (error : WenlanError)
  | linking (call : WriteCall B) (displaced : Bool)
  | cleaning (call : WriteCall B) (result : Except WenlanError Unit)
  | answered (call : WriteCall B) (result : Except WenlanError Unit)

/-- A text whose save at the page's path is complete. -/
structure Save (B : Type) where
  inode : Nat
  text : B
  deriving DecidableEq

/-- `handles` are the files the editor has open; `dropped` those it has itself deleted or
replaced at the path; `saves` its last complete saves of the others.  `installed` is what stood
at the path right after the write put its file there, or found it there. -/
structure WriteWorld (B : Type) where
  disk : Disk B
  position : WritePosition B
  handles : List Nat
  dropped : List Nat
  saves : List (Save B)
  installed : Option B

/-- What the editor does, one file-system operation at a time. -/
inductive Edit (B : Type) where
  /-- A new file at the path, with what is written of it so far. -/
  | create (text : B)
  | open
  /-- A write through an open file; `complete` when the save is done with it. -/
  | store (inode : Nat) (text : B) (complete : Bool)
  /-- A complete new file is renamed over the path. -/
  | replace (text : B)
  | delete

inductive WriteEvent (B : Type) where
  | begin (call : WriteCall B)
  | advance
  | write (length : Nat)
  | fail
  | crash
  | edit (edit : Edit B)

section Steps

variable (lib : PageLibrary B) (layout : Layout) (name : String)

/-- The next operation of the write; an operation that does not succeed is a failure. -/
def WriteWorld.advance [DecidableEq B] (world : WriteWorld B) : Option (WriteWorld B) :=
  let disk := world.disk
  match world.position with
  | .idle | .answered _ _ => none
  | .opening call =>
    match pageParent lib.toLibrary layout disk name with
    | .ok _ => some { world with position := .checking call }
    | .error error => some { world with position := .answered call (.error error) }
  | .checking call =>
    match disk.read (pagePlace name) with
    | none => some { world with position := .creating call }
    | some current =>
      if current = call.bytes then
        some
          { world with
            position := .answered call (.ok ())
            installed := disk.read (pagePlace name) }
      else if projectionBytesReplaceable lib current call.page call.baseline then
        some { world with position := .creating call }
      else some { world with position := .answered call (.error externalEdit) }
  | .creating call =>
    (disk.createNew (call.temporaryPlace name) (lib.cut call.bytes 0)).map fun created =>
      { world with disk := created, position := .filling call disk.fresh }
  | .filling call inode =>
    some { world with disk := disk.store inode call.bytes, position := .preparing call }
  | .preparing call => some { world with position := .displacing call }
  | .displacing call =>
    match disk.rename (pagePlace name) call.previousPlace with
    | some moved => some { world with disk := moved, position := .rechecking call }
    | none => some { world with position := .linking call false }
  | .rechecking call =>
    match disk.read call.previousPlace with
    | some displaced =>
      if projectionBytesReplaceable lib displaced call.page call.baseline then
        some { world with position := .linking call true }
      else some { world with position := .restoring call externalEdit }
    | none => none
  | .restoring call error =>
    (disk.hardLink call.previousPlace (pagePlace name)).map fun restored =>
      { world with disk := restored, position := .cleaning call (.error error) }
  | .linking call _ =>
    (disk.hardLink (call.temporaryPlace name) (pagePlace name)).map fun linked =>
      { world with
        disk := linked
        position := .cleaning call (.ok ())
        installed := linked.read (pagePlace name) }
  | .cleaning call result =>
    (disk.remove (call.temporaryPlace name)).map fun cleaned =>
      { world with disk := cleaned, position := .answered call result }

def WritePosition.failed : WritePosition B → WritePosition B
  | .idle => .idle
  | .opening call | .checking call | .creating call | .filling call _ =>
    .answered call (.error (.io .other))
  | .preparing call | .displacing call => .cleaning call (.error (.io .other))
  | .rechecking call => .restoring call externalEdit
  | .restoring call error => .cleaning call (.error error)
  | .linking call displaced =>
    if displaced then .restoring call (.io .other) else .cleaning call (.error (.io .other))
  | .cleaning call result => .answered call result
  | .answered call result => .answered call result

/-- The editor gives up a file at the path; what it had saved there is its own to drop. -/
def WriteWorld.drop (world : WriteWorld B) : Option Nat → WriteWorld B
  | none => world
  | some inode =>
    { world with
      dropped := inode :: world.dropped
      saves := world.saves.filter fun save => save.inode != inode }

def WriteWorld.edit (world : WriteWorld B) : Edit B → WriteWorld B
  | .create text =>
    match world.disk.createNew (pagePlace name) text with
    | some created =>
      { world with disk := created, handles := world.disk.fresh :: world.handles }
    | none => world
  | .open =>
    match world.disk.link (pagePlace name) with
    | some inode => { world with handles := inode :: world.handles }
    | none => world
  | .store inode text complete =>
    if inode ∈ world.handles then
      let kept := world.saves.filter fun save => save.inode != inode
      { world with
        disk := world.disk.store inode text
        saves :=
          if complete ∧ inode ∉ world.dropped then { inode, text } :: kept else kept }
    else world
  | .replace text =>
    let replaced := world.drop (world.disk.link (pagePlace name))
    let inode := world.disk.fresh
    { replaced with
      disk := (world.disk.alloc text).setLink (pagePlace name) inode (Nat.lt_succ_self _)
      handles := inode :: world.handles
      saves := { inode, text } :: replaced.saves }
  | .delete =>
    match world.disk.remove (pagePlace name) with
    | some removed => { world.drop (world.disk.link (pagePlace name)) with disk := removed }
    | none => world

/-- A new call begins when none is under way, with a place for a displaced file that is new. -/
def WriteWorld.next [DecidableEq B] (world : WriteWorld B) : WriteEvent B → WriteWorld B
  | .begin call =>
    match world.position with
    | .idle | .answered _ _ =>
      if world.disk.link call.previousPlace = none then
        { world with position := .opening call, installed := none }
      else world
    | _ => world
  | .advance =>
    match world.advance lib layout name with
    | some next => next
    | none => { world with position := world.position.failed }
  | .write length =>
    match world.position with
    | .filling call inode =>
      { world with disk := world.disk.store inode (lib.cut call.bytes length) }
    | _ => world
  | .fail => { world with position := world.position.failed }
  | .crash => { world with position := .idle }
  | .edit edit => world.edit name edit

def ProtectedStep [DecidableEq B] (world : WriteWorld B) (event : WriteEvent B)
    (after : WriteWorld B) : Prop :=
  world.next lib layout name event = after

end Steps

/-- Before any call and any edit. -/
def WriteWorld.initial (disk : Disk B) : WriteWorld B where
  disk
  position := .idle
  handles := []
  dropped := []
  saves := []
  installed := none

end Wenlan.Projection
