import Wenlan.Pages.Drafts
import Wenlan.Support.FileSystem

/-!
# The projected tree

`knowledge_folders.rs` over a directory tree: the paths it accepts, how it opens folders, what
it finds in them, and the state file.  Folders stay as they are while an operation runs, so a
folder is its path and the tests of a folder's identity hold.  The tree has no symbolic links,
and names are text.
-/

namespace Wenlan.Projection

open Pages
open Support.FileSystem

/-- `control` is `.wenlan`, `recovery` its directory of displaced files. -/
inductive Directory where
  | folder (path : String)
  | control
  | recovery
  | archive
  deriving DecidableEq

structure Place where
  directory : Directory
  name : String
  deriving DecidableEq

abbrev Disk (B : Type) := Files Place B

/-- The folders below the root by their paths, and the device each directory lies on. -/
structure Layout where
  folders : List String
  device : Directory → Nat

structure PageFileState where
  file : String
  contentSha256 : Option String
  version : Int
  lastWritten : String
  title : Option String
  description : Option String
  space : Option String
  deriving DecidableEq

def knowledgeStateSchemaV2 : Nat := 2

structure KnowledgeState where
  schemaVersion : Nat
  pages : AList fun _ : String => PageFileState
  deriving DecidableEq

instance : Inhabited KnowledgeState := ⟨{ schemaVersion := knowledgeStateSchemaV2, pages := ∅ }⟩

inductive StateText where
  | legacy (concepts : List (String × PageFileState))
  | current (state : KnowledgeState)

/-- What the projection uses of other libraries: the digest of a text and that of a serialized
entry, the first 8 KiB of a text decoded with replacement characters, normalization of names,
UUIDs and JSON. -/
structure Library (B : Type) where
  digest : B → String
  entryDigest : PageFileState → String
  head : B → String
  /-- What a write has put down after that many bytes. -/
  cut : B → Nat → B
  collisionKey : String → String
  isUuid : String → Bool
  parseState : B → Option StateText
  renderState : KnowledgeState → B
  /-- A state that reads back at all reads back as it was. -/
  parse_renderState : ∀ state text, parseState (renderState state) = some text →
    text = .current state

def treeLimit : Nat := 50000

/-- `rsplit_once`, with the empty folder for a path without a separator. -/
def splitPath (path : String) : String × String :=
  let chars := path.toList.reverse
  (String.ofList ((chars.dropWhile fun c => c != '/').drop 1).reverse,
    String.ofList (chars.takeWhile fun c => c != '/').reverse)

def joinPath (folder name : String) : String :=
  if folder = "" then name else folder ++ "/" ++ name

def endsWith (text suffix : String) : Bool :=
  suffix.toList.isSuffixOf text.toList

def validateExistingComponent (name : String) : Except WenlanError Unit :=
  if name = "" ∨ name = "." ∨ name = ".." ∨ 255 < name.utf8ByteSize ∨
      name.toList.any (fun c => isControl c || c == '/' || c == '\\') then
    .error invalidPath
  else .ok ()

def validateExistingFolderPath (path : String) : Except WenlanError Unit :=
  if path = "" then .ok ()
  else if 4096 < path.utf8ByteSize ∨ depthLimit < (pathComponents path).length then
    .error invalidPath
  else
    (pathComponents path).forM fun component => do
      validateExistingComponent component
      refuseIf (reservedDirectory component) invalidPath

def validatePagePath (path : String) : Except WenlanError Unit := do
  refuseIf (4096 < path.utf8ByteSize) invalidPath
  validateExistingFolderPath (splitPath path).1
  validateExistingComponent (splitPath path).2
  refuseIf (!endsWith (splitPath path).2 ".md") invalidPath

def indexFile : String := "index.md"

def logFile : String := "log.md"

def isReservedOkfFilename (name : String) : Bool :=
  eqIgnoreAsciiCase name indexFile || eqIgnoreAsciiCase name logFile

structure Entry where
  name : String
  isDir : Bool
  deriving DecidableEq

variable {B : Type}

def entries (layout : Layout) (disk : Disk B) (folder : String) : List Entry :=
  (layout.folders.filterMap fun path =>
      if (splitPath path).1 = folder then some ⟨(splitPath path).2, true⟩ else none) ++
    (disk.names.filterMap fun place =>
      if place.directory = .folder folder ∧ disk.link place ≠ none then some ⟨place.name, false⟩
      else none).dedup

def treeLimitReached : WenlanError := .conflict "knowledge_tree_limit"

def pathCollision : WenlanError := .conflict "knowledge_path_collision"

def ensureCaseAvailable (lib : Library B) (layout : Layout) (disk : Disk B) (folder name : String)
    (allowExact : Bool) : Except WenlanError Unit := do
  let found := entries layout disk folder
  refuseIf ((found.take treeLimit).any fun entry =>
    lib.collisionKey entry.name == lib.collisionKey name && (!allowExact || entry.name != name))
    pathCollision
  refuseIf (treeLimit < found.length) treeLimitReached

def openComponents (lib : Library B) (layout : Layout) (disk : Disk B) :
    String → List String → Except WenlanError String
  | folder, [] => .ok folder
  | folder, component :: rest => do
    ensureCaseAvailable lib layout disk folder component true
    refuseIf (joinPath folder component ∉ layout.folders) (.io .notFound)
    openComponents lib layout disk (joinPath folder component) rest

def openExistingFolder (lib : Library B) (layout : Layout) (disk : Disk B) (path : String) :
    Except WenlanError String := do
  validateExistingFolderPath path
  openComponents lib layout disk "" ((pathComponents path).filter fun part => part != "")

def openFolder (lib : Library B) (layout : Layout) (disk : Disk B) (path : String) :
    Except WenlanError String := do
  let _ ← validateKnowledgeFolderPath path
  openComponents lib layout disk "" ((pathComponents path).filter fun part => part != "")

structure PageFile where
  folder : String
  name : String
  deriving DecidableEq

def PageFile.place (file : PageFile) : Place :=
  { directory := .folder file.folder, name := file.name }

def pageParent (lib : Library B) (layout : Layout) (disk : Disk B) (path : String) :
    Except WenlanError PageFile := do
  validatePagePath path
  let folder ← openExistingFolder lib layout disk (splitPath path).1
  return { folder, name := (splitPath path).2 }

structure KnowledgeFolderEntry where
  path : String
  parentPath : String
  name : String

structure Scan where
  count : Nat
  folders : List KnowledgeFolderEntry
  pages : List String

/-- The fuel is how many levels of folders are still allowed. -/
def walk (lib : Library B) (layout : Layout) (disk : Disk B) :
    Nat → String → Scan → Except WenlanError Scan
  | 0, _, _ => .error treeLimitReached
  | depth + 1, parent, start => do
    let found := entries layout disk parent
    refuseIf (treeLimit < found.length) treeLimitReached
    let visited ← (found.insertionSort fun a b => a.name ≤ b.name).foldlM
      (fun (state : Scan × List String) entry => do
        let scan := { state.1 with count := state.1.count + 1 }
        refuseIf (treeLimit < scan.count) treeLimitReached
        if entry.isDir && reservedDirectory entry.name then return (scan, state.2)
        else if !entry.isDir && !endsWith entry.name ".md" then return (scan, state.2)
        else do
          validateExistingComponent entry.name
          refuseIf (lib.collisionKey entry.name ∈ state.2) pathCollision
          let seen := lib.collisionKey entry.name :: state.2
          let path := joinPath parent entry.name
          if entry.isDir then do
            let folder := { path, parentPath := parent, name := entry.name }
            let below ← walk lib layout disk depth path
              { scan with folders := scan.folders ++ [folder] }
            return (below, seen)
          else return ({ scan with pages := scan.pages ++ [path] }, seen))
      (start, [])
    return visited.1

def scanTree (lib : Library B) (layout : Layout) (disk : Disk B) :
    Except WenlanError (List KnowledgeFolderEntry × List String) := do
  let scan ← walk lib layout disk (depthLimit + 1) "" { count := 0, folders := [], pages := [] }
  return (scan.folders, scan.pages)

def lines (text : String) : List (List Char) :=
  let parts := text.toList.splitOn '\n'
  let ended := parts.dropLast.map fun line =>
    if line.getLast? = some '\r' then line.dropLast else line
  match parts.getLast? with
  | none | some [] => ended
  | some rest => ended ++ [rest]

/-- The first `origin_id` of a frontmatter, if it says anything. -/
def originIdOf (head : String) : Option String :=
  match lines head with
  | [] => none
  | first :: rest =>
    if first = "---".toList then
      (((rest.takeWhile fun line => line != "---".toList).findSome? fun line =>
          if "origin_id:".toList.isPrefixOf line then some (line.drop 10) else none).map
        fun id => trim (String.ofList id)).filter fun id => id != ""
    else none

def readOriginId (lib : Library B) (disk : Disk B) (place : Place) : Option String :=
  (disk.read place).bind fun bytes => originIdOf (lib.head bytes)

def originPaths (lib : Library B) (layout : Layout) (disk : Disk B) (pageId : String) :
    Except WenlanError (List String) := do
  let tree ← scanTree lib layout disk
  tree.2.foldlM (fun paths path =>
    if isReservedOkfFilename (splitPath path).2 then return paths
    else do
      let file ← pageParent lib layout disk path
      return if readOriginId lib disk file.place = some pageId then paths ++ [path] else paths) []

def stateFile : Place := { directory := .control, name := "state.json" }

def projectionStateInvalid : WenlanError := .conflict "page_projection_state_invalid"

def migratedId (id : String) : String :=
  if "concept_".toList.isPrefixOf id.toList then "page_" ++ String.ofList (id.toList.drop 8)
  else id

def StateText.toState : StateText → KnowledgeState
  | .legacy concepts =>
    { schemaVersion := knowledgeStateSchemaV2
      pages := concepts.foldl (fun pages entry => pages.insert (migratedId entry.1) entry.2) ∅ }
  | .current state =>
    if state.schemaVersion = 0 then { state with schemaVersion := knowledgeStateSchemaV2 }
    else state

def checkFiles (lib : Library B) (files : List String) : Except WenlanError (List String) :=
  files.foldlM (fun seen file => do
    validatePagePath file
    refuseIf (lib.collisionKey file ∈ seen) projectionStateInvalid
    return lib.collisionKey file :: seen) []

def readStateStrict (lib : Library B) (disk : Disk B) : Except WenlanError KnowledgeState :=
  match disk.read stateFile with
  | none => .ok default
  | some bytes =>
    match lib.parseState bytes with
    | none => .error projectionStateInvalid
    | some text => do
      let state := text.toState
      refuseIf (state.schemaVersion ≠ knowledgeStateSchemaV2) projectionStateInvalid
      let _ ← checkFiles lib (state.pages.entries.map fun entry => entry.2.file)
      return state

section Checks

variable {lib : Library B} {layout : Layout} {disk : Disk B} {path folder name : String}

def pageFile (path : String) : PageFile where
  folder := ((pathComponents (splitPath path).1).filter fun part => part != "").foldl joinPath ""
  name := (splitPath path).2

theorem openComponents_eq_ok {parts : List String} {opened : String}
    (h : openComponents lib layout disk folder parts = .ok opened) :
    opened = parts.foldl joinPath folder := by
  induction parts generalizing folder with
  | nil => exact (Except.ok.inj h).symm
  | cons part rest ih =>
    rw [openComponents] at h
    obtain ⟨_, -, h⟩ := bind_eq_ok h
    obtain ⟨_, -, h⟩ := bind_eq_ok h
    exact ih h

theorem pageParent_eq_ok {file : PageFile} (h : pageParent lib layout disk path = .ok file) :
    file = pageFile path ∧ validatePagePath path = .ok () := by
  obtain ⟨_, hvalid, h⟩ := bind_eq_ok h
  obtain ⟨opened, hopen, h⟩ := bind_eq_ok h
  obtain ⟨_, -, hopen⟩ := bind_eq_ok hopen
  rw [openComponents_eq_ok hopen] at h
  exact ⟨(Except.ok.inj h).symm, hvalid⟩

theorem endsWith_of_validatePagePath (h : validatePagePath path = .ok ()) :
    endsWith (splitPath path).2 ".md" := by
  obtain ⟨_, -, h⟩ := bind_eq_ok h
  obtain ⟨_, -, h⟩ := bind_eq_ok h
  obtain ⟨_, -, h⟩ := bind_eq_ok h
  simpa using refuseIf_eq_ok h

theorem mem_entries (h : disk.link { directory := .folder folder, name } ≠ none) :
    { name, isDir := false } ∈ entries layout disk folder := by
  obtain ⟨inode, hinode⟩ := Option.ne_none_iff_exists'.mp h
  refine List.mem_append_right _ (List.mem_dedup.mpr (List.mem_filterMap.mpr ?_))
  exact ⟨_, disk.listed _ _ hinode, if_pos ⟨rfl, h⟩⟩

theorem unlinked_of_ensureCaseAvailable
    (h : ensureCaseAvailable lib layout disk folder name false = .ok ()) :
    disk.link { directory := .folder folder, name } = none := by
  obtain ⟨_, hnone, h⟩ := bind_eq_ok h
  have hlen := refuseIf_eq_ok h
  have hcol := refuseIf_eq_ok hnone
  by_contra hlinked
  apply hcol
  rw [List.take_of_length_le (by omega), List.any_eq_true]
  exact ⟨_, mem_entries hlinked, by simp⟩

theorem readStateStrict_congr {disk' : Disk B} (h : disk'.read stateFile = disk.read stateFile) :
    readStateStrict lib disk' = readStateStrict lib disk := by
  unfold readStateStrict
  rw [h]

theorem StateText.toState_current_pages (state : KnowledgeState) :
    (StateText.toState (.current state)).pages = state.pages := by
  unfold StateText.toState
  dsimp only
  split <;> rfl

theorem readStateStrict_pages {state read : KnowledgeState}
    (hdisk : disk.read stateFile = some (lib.renderState state))
    (h : readStateStrict lib disk = .ok read) : read.pages = state.pages := by
  unfold readStateStrict at h
  rw [hdisk] at h
  dsimp only at h
  split at h
  · cases h
  · rename_i text htext
    rw [lib.parse_renderState state text htext] at h
    obtain ⟨_, -, h⟩ := bind_eq_ok h
    obtain ⟨_, -, h⟩ := bind_eq_ok h
    rw [← Except.ok.inj h]
    exact StateText.toState_current_pages state

end Checks

theorem toList_splitPath_name (path : String) :
    (splitPath path).2.toList = (path.toList.reverse.takeWhile fun c => c != '/').reverse := by
  simp [splitPath]

theorem splitPath_joinPath (folder path : String) :
    (splitPath (joinPath folder (splitPath path).2)).2 = (splitPath path).2 := by
  have hname : ∀ c ∈ path.toList.reverse.takeWhile (fun c => c != '/'), (c != '/') := by
    intro c hc
    exact List.mem_takeWhile_imp (p := fun c => c != '/') hc
  apply String.toList_injective
  rw [toList_splitPath_name (joinPath _ _)]
  unfold joinPath
  split
  · rw [toList_splitPath_name path, List.reverse_reverse, List.takeWhile_eq_self_iff.mpr hname]
  · simp only [String.toList_append, List.reverse_append]
    rw [toList_splitPath_name path, List.reverse_reverse, List.takeWhile_append_of_pos hname]
    simp

end Wenlan.Projection
