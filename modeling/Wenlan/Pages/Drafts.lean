import Wenlan.Pages.MapTables

/-!
# Folder paths

What `knowledge_folders.rs` accepts as the path of a folder under the projection's root, on
every file system the projection may lie on.
-/

namespace Wenlan.Pages

def isControl (c : Char) : Bool :=
  decide (c.toNat < 0x20) || (decide (0x7F ≤ c.toNat) && decide (c.toNat < 0xA0))

def eqIgnoreAsciiCase (a b : String) : Bool :=
  a.toList.map Char.toLower == b.toList.map Char.toLower

def invalidPath : WenlanError :=
  .validation "knowledge_folder_path_invalid"

def reservedDirectory (name : String) : Bool :=
  name.toList.head? == some '.' || eqIgnoreAsciiCase name "archive" ||
    eqIgnoreAsciiCase name "_sources"

def unportable : List Char :=
  ['/', '\\', ':', '<', '>', '"', '|', '?', '*']

/-- What follows `COM` or `LPT` in the name of a port. -/
def portNumbers : List (List Char) :=
  ['1', '2', '3', '4', '5', '6', '7', '8', '9', '¹', '²', '³'].map fun c => [c]

/-- The names that some systems keep for devices, whatever follows the first period. -/
def deviceName (name : String) : Bool :=
  let stem := (name.toList.takeWhile fun c => c != '.').map Char.toUpper
  ["CON", "PRN", "AUX", "NUL"].any (fun device => device.toList == stem) ||
    ["COM", "LPT"].any fun port =>
      port.toList == stem.take 3 && portNumbers.contains (stem.drop 3)

def validateComponent (name : String) : Except WenlanError Unit :=
  if name = "" ∨ 255 < name.utf8ByteSize ∨ name.toList.head? = some '.' ∨
      name.toList.getLast? = some '.' ∨ name.toList.getLast? = some ' ' ∨
      name.toList.any (fun c => isControl c || unportable.contains c) then
    .error invalidPath
  else if deviceName name then .error invalidPath
  else .ok ()

def depthLimit : Nat := 32

def pathComponents (path : String) : List String :=
  (path.toList.splitOn '/').map String.ofList

def validateKnowledgeFolderPath (path : String) : Except WenlanError String :=
  if path = "" then .ok ""
  else if 4096 < path.utf8ByteSize ∨ depthLimit < (pathComponents path).length then
    .error invalidPath
  else do
    (pathComponents path).forM fun component => do
      validateComponent component
      refuseIf (reservedDirectory component) invalidPath
    return path

end Wenlan.Pages

/-!
## Page drafts

`page_drafts.rs` for one page id.  Every operation is one transaction under the connection's
lock; a publish computes an embedding before its transaction, from a snapshot of its own.
Unicode lower-casing is a parameter.
-/

namespace Wenlan.Pages

open Claims (trimBlanks textLines collapseBlanks isWhitespace)

def unfiledSpaceId : String := "00000000-0000-4000-8000-000000000001"

/-- A row of `pages`: `scope` is what both scope columns hold. -/
structure PageRow where
  title : String
  summary : Option String
  content : String
  scope : String
  version : Int
  status : String
  kind : String
  creationKind : String
  embedding : Option String
  createdAt : String
  lastCompiled : String
  lastModified : String

/-- The scope as the wire shows it. -/
def PageRow.space (row : PageRow) : Option String :=
  if row.scope = unfiledSpaceId then none else some row.scope

/-- A row of `page_draft_create_requests`; a delete leaves it without its texts. -/
structure LedgerRow where
  title : Option String
  content : Option String
  space : Option String
  workspace : Option String
  folderPath : String

/-- An active page with another id, in the order of the title check's scan. -/
structure ActivePage where
  id : String
  title : String
  scope : String

structure DraftStore where
  row : Option PageRow
  ledger : Option LedgerRow
  spaces : List String
  others : List ActivePage

inductive DraftReply where
  | created (page : PageRow)
  | updated (page : PageRow)
  | deleted
  | published (page : PageRow)
  | versionConflict (currentVersion : Int)
  | titleConflict (existingPageId existingPageTitle scope : String)

def trim (text : String) : String :=
  String.ofList (trimBlanks text.toList)

def sourcesBlockStart : String := "<!-- origin:sources:start -->"

def sourcesBlockEnd : String := "<!-- origin:sources:end -->"

def validateCanonicalPageContent (content : String) : Except WenlanError String :=
  if sourcesBlockStart.toList <:+: content.toList ∨ sourcesBlockEnd.toList <:+: content.toList then
    .error (.validation "Page content contains a daemon-reserved Sources delimiter")
  else .ok content

def ensureMeaningfulSnapshot (title content : String) : Except WenlanError Unit :=
  refuseIf (trim title = "" ∧ trim content = "")
    (.validation "a Page draft needs a title or body")

def ensureMeaningfulDraftSnapshot (title content : String) : Except WenlanError Unit := do
  let content ← validateCanonicalPageContent content
  ensureMeaningfulSnapshot title content

def noteTitleOfLine (line : List Char) : List Char :=
  let line := trimBlanks (line.map fun c => if isControl c then ' ' else c)
  let headingPrefix := (line.takeWhile fun c => c == '#').length
  let rest := line.drop headingPrefix
  let line :=
    if 1 ≤ headingPrefix ∧ headingPrefix ≤ 6 ∧ rest.head?.any isWhitespace then rest else line
  collapseBlanks line

/-- A note that starts with its body gets its name from the first line that has one. -/
def initialNoteTitle (title content : String) : String :=
  if trim title ≠ "" then trim title
  else
    match ((textLines content.toList).map noteTitleOfLine).find? fun name => !name.isEmpty with
    | some name => String.ofList (name.take 80)
    | none => "Untitled note"

def overviewPageTitle : String := "Overview"

def pageKindFor (title creationKind status : String) : String :=
  if status = "active" ∧ eqIgnoreAsciiCase title overviewPageTitle then "overview"
  else if creationKind = "authored" then "authored"
  else if creationKind = "imported" ∨ creationKind = "source" then "source"
  else if creationKind = "entity" then "entity"
  else "concept"

def isUuidV4 (text : List Char) : Bool :=
  text.length == 36 && (text.zipIdx.all fun entry =>
    if [8, 13, 18, 23].contains entry.2 then entry.1 == '-'
    else if entry.2 == 14 then entry.1 == '4'
    else if entry.2 == 19 then ['8', '9', 'a', 'b'].contains entry.1
    else "0123456789abcdef".toList.contains entry.1)

def ensureClientPageDraftId (id : String) : Except WenlanError Unit :=
  refuseIf (¬ ("page_".toList <+: id.toList ∧ isUuidV4 (id.toList.drop 5)))
    (.validation "Page draft id must use the page_<uuid-v4> format")

def ensureDraft (id : String) (page : PageRow) : Except WenlanError Unit :=
  refuseIf (page.status ≠ "draft") (.validation s!"Page {id} is not a draft")

/-- `i64::checked_add(1)` -/
def checkedSucc (n : Int) : Option Int :=
  if n + 1 < 2 ^ 63 then some (n + 1) else none

/-- A scope as a request names it; the callers that check it against the registered spaces
trim it first. -/
def requestedSpace (validateSpace : Bool) (space : Option String) : Option String :=
  if validateSpace then (space.map trim).filter fun space => space != "" else space

def requestedWorkspace (validateSpace : Bool) (space workspace : Option String) : Option String :=
  if validateSpace then requestedSpace validateSpace space else workspace

def registeredPageDraftSpace (spaces : List String) (requested : Option String) :
    Except WenlanError (Option String) :=
  match (requested.map trim).filter fun space => space != "" with
  | none => .ok none
  | some space =>
    if space ∈ spaces then .ok (some space)
    else .error (.validation s!"Space {space.quote} is not registered")

def normalizedScope (spaces : List String) (validateSpace : Bool)
    (space workspace : Option String) : Except WenlanError (Option String × Option String) :=
  if validateSpace then do
    let space ← registeredPageDraftSpace spaces (requestedSpace validateSpace space)
    return (space, space)
  else .ok (requestedSpace validateSpace space, requestedWorkspace validateSpace space workspace)

/-- The scope a page is stored under: the workspace wins, else the space, else the id that
stands for no space. -/
def pageScope (scope : Option String × Option String) : String :=
  (scope.2.or scope.1).getD unfiledSpaceId

/-! ## Operations -/

structure CreateDraft where
  title : String
  content : String
  space : Option String
  workspace : Option String
  validateSpace : Bool
  folderPath : String

structure UpdateDraft where
  expectedVersion : Int
  title : String
  content : String
  space : Option String
  workspace : Option String
  validateSpace : Bool

def createRequestMatches (ledger : Option LedgerRow) (request : CreateDraft) : Bool :=
  ledger.any fun row =>
    row.title == some request.title && row.content == some request.content &&
      row.space == requestedSpace request.validateSpace request.space &&
      row.workspace == requestedWorkspace request.validateSpace request.space request.workspace &&
      row.folderPath == request.folderPath

def newDraft (request : CreateDraft) (scope : String) (now : String) : PageRow where
  title := request.title
  summary := none
  content := request.content
  scope := scope
  version := 1
  status := "draft"
  kind := pageKindFor request.title "authored" "draft"
  creationKind := "authored"
  embedding := none
  createdAt := now
  lastCompiled := now
  lastModified := now

def checkCreate (id : String) (request : CreateDraft) : Except WenlanError Unit := do
  let _ ← validateKnowledgeFolderPath request.folderPath
  ensureClientPageDraftId id
  ensureMeaningfulDraftSnapshot request.title request.content

def createPageDraft (id : String) (request : CreateDraft) (now : String) (s : DraftStore) :
    Except WenlanError (DraftReply × DraftStore) := do
  checkCreate id request
  match s.row with
  | some existing =>
    if existing.status = "draft" ∧ createRequestMatches s.ledger request then
      .ok (.created existing, s)
    else .error (.pageDraftIdConflict id)
  | none =>
    refuseIf s.ledger.isSome (.pageDraftIdConflict id)
    let scope ← normalizedScope s.spaces request.validateSpace request.space request.workspace
    let row := newDraft request (pageScope scope) now
    let ledger : LedgerRow :=
      { title := some request.title, content := some request.content
        space := scope.1, workspace := scope.2, folderPath := request.folderPath }
    return (.created row, { s with row := some row, ledger := some ledger })

def requiredPageDraft (id : String) (s : DraftStore) : Except WenlanError PageRow :=
  match s.row with
  | some row => .ok row
  | none => .error (.notFound s!"Page draft {id}")

def requestedScope (request : UpdateDraft) : Option String :=
  ((requestedWorkspace request.validateSpace request.space request.workspace).or
    (requestedSpace request.validateSpace request.space)).filter
      fun scope => scope != unfiledSpaceId

def updatePageDraft (id : String) (request : UpdateDraft) (now : String) (s : DraftStore) :
    Except WenlanError (DraftReply × DraftStore) := do
  ensureMeaningfulDraftSnapshot request.title request.content
  let current ← requiredPageDraft id s
  refuseIf (current.status ≠ "draft") (.notFound s!"Page draft {id}")
  if checkedSucc request.expectedVersion = some current.version ∧ current.title = request.title ∧
      current.content = request.content ∧ current.space = requestedScope request then
    .ok (.updated current, s)
  else if current.version ≠ request.expectedVersion then
    .ok (.versionConflict current.version, s)
  else do
    let scope ← normalizedScope s.spaces request.validateSpace request.space request.workspace
    let row :=
      { current with
        title := request.title, content := request.content, scope := pageScope scope
        version := current.version + 1, lastModified := now }
    return (.updated row, { s with row := some row })

def tombstone (ledger : Option LedgerRow) : LedgerRow :=
  match ledger with
  | some row => { row with title := none, content := none, space := none, workspace := none }
  | none => { title := none, content := none, space := none, workspace := none, folderPath := "" }

def deletePageDraft (id : String) (expectedVersion : Int) (s : DraftStore) :
    Except WenlanError (DraftReply × DraftStore) := do
  let current ← requiredPageDraft id s
  refuseIf (current.status ≠ "draft") (.notFound s!"Page draft {id}")
  if current.version ≠ expectedVersion then .ok (.versionConflict current.version, s)
  else .ok (.deleted, { s with row := none, ledger := some (tombstone s.ledger) })

section Publish

variable (toLowercase : String → String)

def pageTitleKey (title : String) : String :=
  toLowercase (trim title)

/-- A generated title is numbered from two until nobody has it.  The keys of different
numbers differ, so one number more than there are titles is enough. -/
def unoccupiedTitle (occupied : List String) (base : String) : Nat → Nat → Option String
  | 0, _ => none
  | tries + 1, suffix =>
    let title := s!"{base} ({suffix})"
    if pageTitleKey toLowercase title ∈ occupied then
      unoccupiedTitle occupied base tries (suffix + 1)
    else some title

def publishTitle (current : PageRow) (others : List ActivePage) :
    Except WenlanError (ActivePage ⊕ String) :=
  let generated := trim current.title = ""
  let title := initialNoteTitle current.title current.content
  let sameScope := others.filter fun page => page.scope == current.scope
  let occupied := sameScope.map fun page => pageTitleKey toLowercase page.title
  if generated then
    if pageTitleKey toLowercase title ∈ occupied then
      match unoccupiedTitle toLowercase occupied title (occupied.length + 1) 2 with
      | some title => .ok (.inr title)
      | none => .error (.vectorDb "publish Page draft title check: no unoccupied title")
    else .ok (.inr title)
  else
    match sameScope.find? fun page =>
        pageTitleKey toLowercase page.title == pageTitleKey toLowercase title with
    | some page => .ok (.inl page)
    | none => .ok (.inr title)

/-- The transaction of a publish; `embedding` is what came of the snapshot. -/
def publishPageDraft (id : String) (expectedVersion : Int) (embedding : Option String)
    (now : String) (s : DraftStore) : Except WenlanError (DraftReply × DraftStore) := do
  let current ← requiredPageDraft id s
  if current.status = "active" ∧ checkedSucc expectedVersion = some current.version then
    .ok (.published current, s)
  else if current.version ≠ expectedVersion then
    .ok (.versionConflict current.version, s)
  else do
    ensureDraft id current
    ensureMeaningfulSnapshot current.title current.content
    match ← publishTitle toLowercase current s.others with
    | .inl page => .ok (.titleConflict page.id page.title current.scope, s)
    | .inr title =>
      let row :=
        { current with
          title, status := "active", kind := pageKindFor title current.creationKind "active"
          version := current.version + 1, lastCompiled := now, lastModified := now
          embedding := embedding.or current.embedding }
      return (.published row, { s with row := some row })

end Publish

inductive DraftRequest where
  | create (request : CreateDraft)
  | update (request : UpdateDraft)
  | delete (expectedVersion : Int)
  | publish (expectedVersion : Int)

def DraftRequest.body (toLowercase : String → String) (id : String) (embedding : Option String)
    (now : String) (s : DraftStore) : DraftRequest → Except WenlanError (DraftReply × DraftStore)
  | .create request => createPageDraft id request now s
  | .update request => updatePageDraft id request now s
  | .delete expectedVersion => deletePageDraft id expectedVersion s
  | .publish expectedVersion => publishPageDraft toLowercase id expectedVersion embedding now s

/-- A request commits what its body leaves, or rolls back. -/
def DraftRequest.exec (toLowercase : String → String) (id : String) (embedding : Option String)
    (now : String) (s : DraftStore) (request : DraftRequest) :
    Except WenlanError DraftReply × DraftStore :=
  match request.body toLowercase id embedding now s with
  | .ok (reply, s') => (.ok reply, s')
  | .error error => (.error error, s)

end Wenlan.Pages
