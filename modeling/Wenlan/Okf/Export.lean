import Wenlan.Okf.Bundle
import Wenlan.Support.Interruptible

/-!
# The directory of a bundle

What lies in the target directory, and the file-system steps of an export.  A step may be stopped
before it, and a write with a part of its bytes on disk.  A file remembers whether an export put its
bytes there; no step looks at that.
-/

namespace Wenlan.Okf

open Pages (IoErrorKind WenlanError)
open Support (Interruptible KeyTable)
open Support.Interruptible (act fail read)

/-- The places under the target that an export can come to; the rest is beside it. -/
inductive Place where
  | target
  | marker
  | archive
  | folder (folder : Folder)
  | archiveFolder (folder : Folder)
  | entry (entry : Entry)
  | archived (folder : Option Folder) (name : String)
  | beside (path : String)
  deriving DecidableEq

/-- What a link leads to, outside of the bundle. -/
inductive Beyond where
  | nothing
  | file (bytes : Bytes)
  | folder

/-- `exported` says that an export put these bytes at this place, and nobody touched it since. -/
inductive Node where
  | file (bytes : Bytes) (exported : Bool)
  | folder
  | link (beyond : Beyond)

/-- What is present; what lies in a directory that is not there is not listed. -/
abbrev Tree := KeyTable Place Node

variable {node : Node}

namespace Node

/-- `Path::is_dir`. -/
def opens : Node → Bool
  | .folder => true
  | .link .folder => true
  | _ => false

def isLink : Node → Bool
  | .link _ => true
  | _ => false

/-- `is_file` of the entry itself, not of what a link leads to. -/
def isPlainFile : Node → Bool
  | .file _ _ => true
  | _ => false

theorem isPlainFile_iff :
    node.isPlainFile ↔ ∃ bytes exported, node = .file bytes exported := by
  cases node with
  | file bytes exported => exact iff_of_true rfl ⟨bytes, exported, rfl⟩
  | folder => exact iff_of_false (fun h => by cases h) (fun ⟨_, _, h⟩ => by cases h)
  | link beyond => exact iff_of_false (fun h => by cases h) (fun ⟨_, _, h⟩ => by cases h)

end Node

/-- `std::fs::read`, with `none` where nothing is found. -/
def readBytes (tree : Tree) (place : Place) : Except WenlanError (Option Bytes) :=
  match tree.lookup place with
  | none => .ok none
  | some (.file bytes _) => .ok (some bytes)
  | some (.link .nothing) => .ok none
  | some (.link (.file bytes)) => .ok (some bytes)
  | some (.link .folder) => .error (.io .other)
  | some .folder => .error (.io .other)

inductive Point where
  | between
  | writing (place : Place)
  deriving DecidableEq

abbrev Export := Interruptible Tree Point WenlanError

def mkdir (place : Place) : Export Unit :=
  act .between (fun _ => []) fun tree => tree.insert place .folder

/-- The open truncates the file, and then more and more of the bytes are there. -/
def write (place : Place) (bytes : Bytes) : Export Unit :=
  act .between
    (fun tree => (List.range (bytes.length + 1)).map fun n =>
      (.writing place, tree.insert place (.file (bytes.take n) true)))
    fun tree => tree.insert place (.file bytes true)

def renameNode (source destination : Place) (tree : Tree) : Tree :=
  match tree.lookup source with
  | none => tree
  | some node => (tree.erase source).insert destination node

def rename (source destination : Place) : Export Unit :=
  act .between (fun _ => []) (renameNode source destination)

def removeFile (place : Place) : Export Unit :=
  act .between (fun _ => []) fun tree => tree.erase place

/-- `create_dir_all`, of one place whose parent is there. -/
def createDir (place : Place) : Export Unit := do
  let tree ← read
  match tree.lookup place with
  | none => mkdir place
  | some node => if node.opens then pure () else fail (.io .alreadyExists)

def createBundleDir (folder : Folder) : Export Unit := do
  createDir .target
  createDir (.folder folder)

def createArchiveDir : Option Folder → Export Unit
  | none => createDir .archive
  | some folder => do
    createDir .archive
    createDir (.archiveFolder folder)

/-- `write_file_nofollow`; `fits` says whether the file system takes the name. -/
def writeFileNofollow (fits : Bool) (place : Place) (bytes : Bytes) : Export Unit := do
  let tree ← read
  if fits then
    match tree.lookup place with
    | some node => if node.isPlainFile then write place bytes else fail (.io .alreadyExists)
    | none => write place bytes
  else fail (.io .other)

theorem lookup_renameNode {tree : Tree} {source destination : Place}
    (hsourc : tree.lookup source = some node) (place : Place) :
    (renameNode source destination tree).lookup place = if place = destination then some node
      else if place = source then none else tree.lookup place := by
  unfold renameNode
  rw [hsourc]
  by_cases hdest : place = destination
  · rw [if_pos hdest, hdest, AList.lookup_insert]
  · rw [if_neg hdest, AList.lookup_insert_ne hdest]
    by_cases hsame : place = source
    · rw [if_pos hsame, hsame, AList.lookup_erase]
    · rw [if_neg hsame, AList.lookup_erase_ne hsame]

end Wenlan.Okf

/-!
## The export of a bundle

`export_okf_with_concept_paths`: the checks, and then one step after the other.  Other failures of
the file system than those that its tree explains are left out, and so are links from the archive
back into the bundle.
-/

namespace Wenlan.Okf

open Pages (WenlanError refuseIf)
open Projection (endsWith)
open Support (KeyTable)
open Support.Interruptible (attempt fail ofExcept read)

structure Request where
  pages : List Page
  conceptPaths : List (String × String)
  root : String

structure ExportStats where
  exported : ℕ
  failed : ℕ

structure OldBundle where
  files : List String
  digests : KeyTable String String

def markerFile : String := ".wenlan-okf-export.json"

def archiveDir : String := ".wenlan-archive"

def okfVersion : String := "0.2"

def markerFor (library : Library) (files : List String) (digests : KeyTable String String) :
    ExportMarker where
  okfVersion := okfVersion
  generatedBy := "wenlan/" ++ library.version
  files := sorted files
  digests := digests

section Checks

variable (library : Library) (request : Request) (tree : Tree)

def refuseLink (place : Place) (shown : String) : Except WenlanError Unit :=
  refuseIf ((tree.lookup place).any Node.isLink = true)
    (.conflict ("refusing OKF export through symlink " ++ shown))

/-- `Path::is_file` of the target, which is no link. -/
def refuseFile : Except WenlanError Unit :=
  refuseIf ((tree.lookup .target).any Node.isPlainFile = true)
    (.conflict ("OKF export target " ++ request.root ++ " is a file, not a directory"))

def readOldMarker : Except WenlanError (Option ExportMarker) := do
  match ← readBytes tree .marker with
  | none => return none
  | some bytes =>
    match library.decode bytes with
    | none => throw (.conflict (markerFile ++
        " exists but is not a Wenlan OKF export marker; refusing to touch " ++ request.root))
    | some marker => do
      refuseIf (marker.okfVersion ≠ okfVersion) (.conflict (markerFile ++
        " declares okf_version \"" ++ marker.okfVersion ++ "\"; refusing to touch " ++
        request.root))
      refuseIf (¬ "wenlan/".toList <+: marker.generatedBy.toList) (.conflict (markerFile ++
        " was not written by Wenlan (generated_by \"" ++ marker.generatedBy ++
        "\"); refusing to touch " ++ request.root))
      return some marker

def isNonempty : Prop := ∃ place ∈ tree.keys, place ≠ .target

instance : Decidable (isNonempty tree) :=
  inferInstanceAs (Decidable (∃ place ∈ tree.keys, place ≠ .target))

def OldBundle.of : Option ExportMarker → OldBundle
  | none => ⟨[], ∅⟩
  | some marker => ⟨marker.files, marker.digests⟩

/-- Every planned path is absent or owned by the previous export. -/
def refuseForeign (old : OldBundle) : Except WenlanError Unit :=
  match (sorted (plannedTexts library request.pages)).find? fun text => decide (text ∉ old.files ∧
      ∃ entry ∈ plannedEntries library request.pages, entry.text = text ∧ .entry entry ∈ tree) with
  | none => .ok ()
  | some text => .error (.conflict ("refusing to overwrite " ++ text ++
      ": not written by a previous Wenlan OKF export"))

/-- What comes before any write. -/
def accept : Except WenlanError OldBundle := do
  refuseLink tree .target request.root
  refuseLink tree (.folder .pages) (request.root ++ "/pages")
  refuseLink tree (.folder .sources) (request.root ++ "/sources")
  refuseFile request tree
  let marker ← readOldMarker library request tree
  refuseIf (marker.isNone = true ∧ isNonempty tree)
    (.conflict "directory is not empty and is not a Wenlan OKF export")
  refuseForeign library request tree (OldBundle.of marker)
  return OldBundle.of marker

end Checks

def pageOf (pages : List Page) (id : String) : Option Page :=
  pages.reverse.find? fun page => page.id = id

def renderedFiles (library : Library) (request : Request) : List (Entry × Bytes) :=
  let planned := planPageFilenames library request.pages
  (planned.filterMap fun known => (pageOf request.pages known.1).map fun page =>
    (Entry.within .pages known.2,
      library.renderPageFile request.pages request.conceptPaths planned page)) ++
  (stubIds request.pages).map (fun id =>
    (Entry.within .sources (stubFilename id), library.renderSourceStub id)) ++
  [(.index, library.renderBundleIndex request.pages planned)]

def plannedBytes (library : Library) (request : Request) : KeyTable String Bytes :=
  (renderedFiles library request).foldl (fun table file => table.insert file.1.text file.2) ∅

inductive BundleFileState where
  | ours
  | changed
  | foreign
  deriving DecidableEq

def bundleFileState (library : Library) (tree : Tree) (entry : Entry)
    (digests : KeyTable String String) (planned : Option Bytes) : BundleFileState :=
  match tree.lookup (.entry entry) with
  | none => .ours
  | some .folder => .foreign
  | some (.link _) => .foreign
  | some (.file bytes _) =>
    match digests.lookup entry.text with
    | some recorded => if library.digestOf bytes = recorded then .ours else .changed
    | none => if planned = some bytes then .ours else .changed

def Entry.parent : Entry → Option Folder
  | .index => none
  | .within folder _ => some folder

def Entry.fileName : Entry → String
  | .index => indexFile
  | .within _ name => name

def archiveName (name : String) (attempt : ℕ) : String :=
  if attempt = 1 then name
  else if endsWith name ".md" then
    String.ofList (stemOf name) ++ "-" ++ toString attempt ++ ".md"
  else name ++ "-" ++ toString attempt

def freeArchiveName (taken : Place → Bool) (entry : Entry) : Option String :=
  ((List.range 100).map fun i => archiveName entry.fileName (i + 1)).find? fun name =>
    !taken (.archived entry.parent name)

def preserveEditedBundleFile (library : Library) (entry : Entry) : Export Unit := do
  createArchiveDir entry.parent
  let tree ← read
  match freeArchiveName (fun place => decide (place ∈ tree)) entry with
  | none => fail (.conflict ("cannot preserve " ++ entry.text ++ ": " ++ archiveDir ++
      " has no free name for it"))
  | some name =>
    if library.fits name then rename (.entry entry) (.archived entry.parent name)
    else fail (.io .other)

/-- What an export keeps account of. -/
structure Progress where
  exported : ℕ
  failed : ℕ
  unswept : List String
  written : List String
  digests : KeyTable String String

def Progress.start : Progress := ⟨0, 0, [], [], ∅⟩

section Body

variable (library : Library) (request : Request) (old : OldBundle)

def preserveListed (text : String) : Export Unit :=
  match safeEntry text with
  | none => pure ()
  | some entry => do
    let tree ← read
    if bundleFileState library tree entry old.digests
        ((plannedBytes library request).lookup text) = .changed then
      preserveEditedBundleFile library entry
    else pure ()

/-- A stale file goes, unless something else stands in its place. -/
def sweepStale (progress : Progress) (text : String) : Export Progress :=
  match safeEntry text with
  | none => pure progress
  | some entry => do
    let tree ← read
    let unswept := { progress with
      unswept := progress.unswept ++ [text]
      failed := progress.failed + 1 }
    if library.fits entry.fileName then
      match tree.lookup (.entry entry) with
      | none => pure progress
      | some node =>
        if node.isPlainFile then do
          removeFile (.entry entry)
          pure progress
        else pure unswept
    else pure unswept

def renderedAt (entry : Entry) : Bytes := ((plannedBytes library request).lookup entry.text).getD []

def writePage (progress : Progress) (planned : String × String) : Export Progress :=
  match pageOf request.pages planned.1 with
  | none => pure progress
  | some _ => do
    let entry := Entry.within .pages planned.2
    let body := renderedAt library request entry
    match ← attempt (writeFileNofollow (library.fits planned.2) (.entry entry) body) with
    | .ok _ => pure { progress with
        exported := progress.exported + 1
        written := progress.written ++ [planned.1]
        digests := progress.digests.insert entry.text (library.digestOf body) }
    | .error _ => pure { progress with failed := progress.failed + 1 }

def writeStub (progress : Progress) (id : String) : Export Progress := do
  let entry := Entry.within .sources (stubFilename id)
  let stub := renderedAt library request entry
  match ← attempt (writeFileNofollow (library.fits (stubFilename id)) (.entry entry) stub) with
  | .ok _ => pure { progress with
      digests := progress.digests.insert entry.text (library.digestOf stub) }
  | .error _ => pure { progress with failed := progress.failed + 1 }

def indexBytes (written : List String) : Bytes :=
  library.renderBundleIndex (request.pages.filter fun page => decide (page.id ∈ written))
    (planPageFilenames library request.pages)

def writeMarker (files : List String) (digests : KeyTable String String) : Export Unit :=
  writeFileNofollow true .marker (library.encode (markerFor library files digests))

/-- The carried digests of what stays listed, behind the new ones. -/
def finalDigests (progress : Progress) : KeyTable String String :=
  (old.digests.entries.filter fun digest =>
      decide (digest.1 ∈ plannedTexts library request.pages ++ progress.unswept)).foldl
    (fun digests digest => KeyTable.insertIfAbsent digest.1 digest.2 digests) progress.digests

def staleTexts : List String :=
  (sorted old.files).filter fun text => decide (text ∉ plannedTexts library request.pages)

def writeBundle : Export ExportStats := do
  createBundleDir .pages
  createBundleDir .sources
  (sorted old.files).foldlM (fun _ text => preserveListed library request old text) ()
  writeMarker library (old.files ++ plannedTexts library request.pages) old.digests
  let swept ← (staleTexts library request old).foldlM (sweepStale library) .start
  let paged ← (planPageFilenames library request.pages).foldlM (writePage library request) swept
  let stubbed ← (stubIds request.pages).foldlM (writeStub library request) paged
  let index := indexBytes library request stubbed.written
  writeFileNofollow (library.fits indexFile) (.entry .index) index
  let done := { stubbed with
    digests := stubbed.digests.insert indexFile (library.digestOf index) }
  writeMarker library (plannedTexts library request.pages ++ done.unswept)
    (finalDigests library request old done)
  pure ⟨done.exported, done.failed⟩

end Body

/-- `export_okf_with_concept_paths`. -/
def exportOkf (library : Library) (request : Request) : Export ExportStats := do
  let tree ← read
  let old ← ofExcept (accept library request tree)
  writeBundle library request old

end Wenlan.Okf
