import Wenlan.Pages.Drafts
import Wenlan.Support.Transition
import Wenlan.Truth.Fence

/-!
# The page watcher

`page_watcher.rs` reads a projected file and writes its body back through the loop of
`page_update.rs`, with everything else that happens in between: other writers of the page,
other hands on the files, and the daemon's own projections, which are one more change of the
files.  The YAML library and the comparison of a body with its sources are not here.
-/

namespace Wenlan.Pages

open Claims (isWhitespace)
open Support.Transition

/-- What stands before and after the first occurrence of `pat`. -/
def splitAtText (pat : List Char) : List Char → Option (List Char × List Char)
  | [] => if pat = [] then some ([], []) else none
  | c :: rest =>
    if pat.isPrefixOf (c :: rest) then some ([], (c :: rest).drop pat.length)
    else (splitAtText pat rest).map fun parts => (c :: parts.1, parts.2)

/-- The frontmatter and the body: the file starts with `---`, and the frontmatter ends at the
next line that starts with it. -/
def splitFrontmatter (content : List Char) : Option (List Char × List Char) :=
  if "---".toList.isPrefixOf content then
    (splitAtText "\n---".toList (content.drop 3)).map fun parts =>
      (parts.1, parts.2.dropWhile fun c => c == '\n')
  else none

/-- A value of the frontmatter; of a number that is no integer, what a cast to `i64` makes
of it. -/
inductive YamlValue where
  | integer (n : Int)
  | real (truncated : Int)
  | str (text : String)
  | other

def YamlValue.asStr : YamlValue → Option String
  | .str text => some text
  | _ => none

/-- The fields of the frontmatter; a text that is no mapping has none. -/
abbrev NoteFrontmatter := String → Option YamlValue

/-- `serde_yaml::from_str` -/
abbrev YamlReader := String → Option NoteFrontmatter

def extractFrontmatter (readYaml : YamlReader) (content : String) : NoteFrontmatter × String :=
  match splitFrontmatter content.toList with
  | some parts =>
    ((readYaml (String.ofList parts.1)).getD fun _ => none, String.ofList parts.2)
  | none => (fun _ => none, content)

/-- `str::parse::<i64>` -/
def parseI64 (text : String) : Option Int :=
  (Wenlan.Truth.Fence.parseNumber text.toList).filter fun n =>
    decide (-(2 ^ 63) ≤ n) && decide (n < 2 ^ 63)

def projectedOriginVersion (fm : NoteFrontmatter) : Int :=
  ((fm "origin_version").bind fun value =>
    match value with
    | .integer n => some n
    | .real truncated => some truncated
    | .str text => parseI64 (trim text)
    | .other => none).getD 0

def trimEnd (text : List Char) : List Char :=
  text.rdropWhile isWhitespace

/-- The body without the block of sources that the projection adds. -/
def canonicalizePageBody (body : String) : String :=
  let parts := do
    let start ← splitAtText sourcesBlockStart.toList body.toList
    let rest ← splitAtText sourcesBlockEnd.toList start.2
    return (trimEnd start.1, rest.2.dropWhile isWhitespace)
  match parts with
  | none => String.ofList (trimEnd body.toList)
  | some (head, tail) =>
    if tail = [] then String.ofList (trimEnd head)
    else String.ofList (trimEnd (head ++ "\n\n".toList ++ tail))

/-- What the watcher reads and writes of a row of `pages`. -/
structure WatchedPage where
  content : String
  sourceMemoryIds : List String
  version : Int
  status : String
  kind : String
  userEdited : Bool
  reviewStatus : String
  sourceRevision : Int
  deriving DecidableEq

/-- What the watcher took from a file. -/
structure EditedNote where
  relative : String
  pageId : String
  originVersion : Int
  body : String
  deriving DecidableEq

/-- Where the watcher is with the file at hand.  The text a page gets is that of the file,
in every attempt. -/
inductive WatcherPhase where
  | idle
  | noted (note : EditedNote)
  | writing (note : EditedNote) (content : String) (attempt : Nat)
  | loaded (note : EditedNote) (content : String) (attempt : Nat) (current : WatchedPage)
  | lost (note : EditedNote) (content : String) (attempt : Nat) (current : WatchedPage)
  deriving DecidableEq

/-- A write of the watcher that committed: the row it replaced and the row it left. -/
structure WatcherCommit where
  note : EditedNote
  replaced : WatchedPage
  written : WatchedPage

/-- `targets` is the recorded path of each page when the tick began; `commits` is the history
of the watcher's writes. -/
structure WatcherState where
  pages : String → Option WatchedPage
  files : String → Option String
  targets : String → Option String
  phase : WatcherPhase
  commits : List WatcherCommit

def WatcherState.getPage (s : WatcherState) (pageId : String) : Option WatchedPage :=
  (s.pages pageId).filter fun page => page.kind != "entity"

inductive WatcherMove where
  /-- A new tick takes stock of the projection. -/
  | tick (targets : String → Option String)
  | read (relative : String)
  | snapshot
  /-- An attempt loads the page; its body is close enough to the page's sources or not. -/
  | load (guardPassed : Bool)
  | write
  | recheck
  /-- A statement fails, and the file is given up. -/
  | fail
  /-- Anybody else writes, adds or deletes pages. -/
  | pages (pages : String → Option WatchedPage)
  /-- Anybody, the daemon's projection included, changes files. -/
  | files (files : String → Option String)

def noteOf (readYaml : YamlReader) (relative raw : String) : Option EditedNote :=
  let (fm, body) := extractFrontmatter readYaml raw
  match (fm "origin_id").bind YamlValue.asStr with
  | some id =>
    if trim id = "" then none
    else some { relative, pageId := trim id, originVersion := projectedOriginVersion fm, body }
  | none => none

/-- What follows the snapshot: a file behind the page, one with the page's own text and one
that is not at the recorded path are left alone, and the request is checked. -/
def afterSnapshot (targets : String → Option String) (note : EditedNote) (existing : WatchedPage) :
    WatcherPhase :=
  let body := canonicalizePageBody note.body
  if note.originVersion < existing.version then .idle
  else if body = canonicalizePageBody existing.content then .idle
  else if targets note.pageId ≠ some note.relative then .idle
  else if trim body = "" then .idle
  else
    match validateCanonicalPageContent body with
    | .ok content => .writing note content 1
    | .error _ => .idle

def maxCasAttempts : Nat := 3

def afterLoad (note : EditedNote) (content : String) (attempt : Nat) (guardPassed : Bool) :
    Option WatchedPage → WatcherPhase
  | none => .idle
  | some current =>
    if !guardPassed then .idle
    else if current.content = content then .idle
    else .loaded note content attempt current

/-- The row after the update; its sources are those of the row the attempt loaded. -/
def editedPage (content : String) (current row : WatchedPage) : WatchedPage :=
  { row with
    content, sourceMemoryIds := current.sourceMemoryIds, version := row.version + 1
    userEdited := true, reviewStatus := "unconfirmed", sourceRevision := row.sourceRevision + 1 }

def afterLoss (note : EditedNote) (content : String) (attempt : Nat) (current : WatchedPage)
    (landed : Option WatchedPage) : WatcherPhase :=
  if landed.map WatchedPage.version = some current.version then .idle
  else if attempt < maxCasAttempts then .writing note content (attempt + 1)
  else .idle

/-- The row that the update of an attempt applies to. -/
def WatcherState.target (s : WatcherState) (note : EditedNote) (current : WatchedPage) :
    Option WatchedPage :=
  (s.pages note.pageId).filter fun row =>
    row.version == current.version && row.status == "active"

def watcherNext (readYaml : YamlReader) (s : WatcherState) : WatcherMove → Option WatcherState
  | .tick targets => if s.phase = .idle then some { s with targets } else none
  | .read relative =>
    if s.phase = .idle then
      match (s.files relative).bind (noteOf readYaml relative) with
      | some note => some { s with phase := .noted note }
      | none => some s
    else none
  | .snapshot =>
    match s.phase with
    | .noted note =>
      match s.getPage note.pageId with
      | some existing => some { s with phase := afterSnapshot s.targets note existing }
      | none => some { s with phase := .idle }
    | _ => none
  | .load guardPassed =>
    match s.phase with
    | .writing note content attempt =>
      let current := s.getPage note.pageId
      some { s with phase := afterLoad note content attempt guardPassed current }
    | _ => none
  | .write =>
    match s.phase with
    | .loaded note content attempt current =>
      match s.target note current with
      | some row =>
        let written := editedPage content current row
        some
          { s with
            pages := fun id => if id = note.pageId then some written else s.pages id
            phase := .idle
            commits := { note, replaced := row, written } :: s.commits }
      | none => some { s with phase := .lost note content attempt current }
    | _ => none
  | .recheck =>
    match s.phase with
    | .lost note content attempt current =>
      let landed := s.getPage note.pageId
      some { s with phase := afterLoss note content attempt current landed }
    | _ => none
  | .fail => some { s with phase := .idle }
  | .pages pages => some { s with pages }
  | .files files => some { s with files }

def WatcherStep (readYaml : YamlReader) (s : WatcherState) (move : WatcherMove)
    (t : WatcherState) : Prop :=
  watcherNext readYaml s move = some t

def WatcherState.start (pages : String → Option WatchedPage) (files : String → Option String) :
    WatcherState :=
  { pages, files, targets := fun _ => none, phase := .idle, commits := [] }

end Wenlan.Pages

/-!
## What the watcher writes over

The stamp of a file is compared with one snapshot of its page; the write is aimed at the
version that the attempt loads.  Where the two are not the same version, text that was edited
on top of an old version replaces a newer one.
-/

namespace Wenlan.Pages

open Support.Transition

variable {readYaml : YamlReader}

def loadsStamped (s : WatcherState) : WatcherMove → Bool
  | .load _ =>
    match s.phase with
    | .writing note _ _ =>
      (s.getPage note.pageId).all fun page => decide (page.version ≤ note.originVersion)
    | _ => true
  | _ => true

def LoadsStamped (s : WatcherState) (move : WatcherMove) : Prop :=
  loadsStamped s move = true

structure Stamped (s : WatcherState) : Prop where
  loaded : ∀ note content attempt current, s.phase = .loaded note content attempt current →
    current.version ≤ note.originVersion
  commits : ∀ commit ∈ s.commits, commit.replaced.version ≤ commit.note.originVersion

variable {s : WatcherState}

theorem target_some {note : EditedNote} {current row : WatchedPage}
    (h : s.target note current = some row) :
    s.pages note.pageId = some row ∧ row.version = current.version := by
  obtain ⟨hrow, hkey⟩ := Option.filter_eq_some_iff.mp h
  simp only [Bool.and_eq_true, beq_iff_eq] at hkey
  exact ⟨hrow, hkey.1⟩

variable {t : WatcherState}

theorem Stamped.quiet (h : Stamped s) (hcom : t.commits = s.commits)
    (hphase : ∀ note content attempt current, t.phase ≠ .loaded note content attempt current) :
    Stamped t := by
  refine ⟨fun note content attempt current ht => ?_, ?_⟩
  · exact absurd ht (hphase note content attempt current)
  · rw [hcom]
    exact h.commits

theorem afterSnapshot_ne_loaded (targets : String → Option String) (note : EditedNote)
    (existing : WatchedPage) (note' : EditedNote) (content : String) (attempt : Nat)
    (current : WatchedPage) :
    afterSnapshot targets note existing ≠ .loaded note' content attempt current := by
  unfold afterSnapshot
  intro h
  dsimp only at h
  repeat' split at h
  all_goals simp at h

theorem afterLoss_ne_loaded (note : EditedNote) (content : String) (attempt : Nat)
    (current : WatchedPage) (landed : Option WatchedPage) (note' : EditedNote)
    (content' : String) (attempt' : Nat) (current' : WatchedPage) :
    afterLoss note content attempt current landed ≠ .loaded note' content' attempt' current' := by
  unfold afterLoss
  intro h
  repeat' split at h
  all_goals simp at h

theorem afterLoad_loaded {note note' : EditedNote} {content content' : String}
    {attempt attempt' : Nat} {guardPassed : Bool} {found : Option WatchedPage}
    {current : WatchedPage}
    (h : afterLoad note content attempt guardPassed found = .loaded note' content' attempt' current) :
    found = some current ∧ note' = note := by
  cases found with
  | none => simp [afterLoad] at h
  | some page =>
    unfold afterLoad at h
    dsimp only at h
    split at h
    · simp at h
    · split at h
      · simp at h
      · simp only [WatcherPhase.loaded.injEq] at h
        exact ⟨congrArg some h.2.2.2, h.1.symm⟩

variable {move : WatcherMove}

theorem watcherNext_stamped (h : Stamped s)
    (hguard : LoadsStamped s move) (hstep : watcherNext readYaml s move = some t) : Stamped t := by
  cases move with
  | tick targets =>
    simp only [watcherNext] at hstep
    split at hstep
    · cases hstep
      exact ⟨h.loaded, h.commits⟩
    · simp at hstep
  | read relative =>
    simp only [watcherNext] at hstep
    split at hstep
    · split at hstep
      · cases hstep
        exact h.quiet rfl fun _ _ _ _ hphase => by simp at hphase
      · cases hstep
        exact h
    · simp at hstep
  | snapshot =>
    simp only [watcherNext] at hstep
    split at hstep
    · split at hstep
      · cases hstep
        exact h.quiet rfl (afterSnapshot_ne_loaded _ _ _)
      · cases hstep
        exact h.quiet rfl fun _ _ _ _ hphase => by simp at hphase
    · simp at hstep
  | load guardPassed =>
    simp only [watcherNext] at hstep
    split at hstep
    · rename_i note content attempt hphase
      cases hstep
      refine ⟨fun note' content' attempt' current hloaded => ?_, h.commits⟩
      obtain ⟨hpage, rfl⟩ := afterLoad_loaded hloaded
      rw [LoadsStamped, loadsStamped, hphase] at hguard
      dsimp only at hguard
      rw [hpage, Option.all_some] at hguard
      exact of_decide_eq_true hguard
    · simp at hstep
  | write =>
    simp only [watcherNext] at hstep
    split at hstep
    · rename_i note content attempt current hphase
      split at hstep
      · rename_i row htarg
        cases hstep
        refine ⟨fun _ _ _ _ hloaded => by simp at hloaded, ?_⟩
        intro commit hcommi
        rcases List.mem_cons.mp hcommi with rfl | hold
        · have hvers := (target_some htarg).2
          have hstamp := h.loaded note content attempt current hphase
          dsimp only
          omega
        · exact h.commits commit hold
      · cases hstep
        exact h.quiet rfl fun _ _ _ _ hlost => by simp at hlost
    · simp at hstep
  | recheck =>
    simp only [watcherNext] at hstep
    split at hstep
    · cases hstep
      exact h.quiet rfl (afterLoss_ne_loaded _ _ _ _ _)
    · simp at hstep
  | fail =>
    cases hstep
    exact h.quiet rfl fun _ _ _ _ hphase => by simp at hphase
  | pages pages =>
    cases hstep
    exact ⟨h.loaded, h.commits⟩
  | files files =>
    cases hstep
    exact ⟨h.loaded, h.commits⟩

theorem pages_of_watcherNext
    (hstep : watcherNext readYaml s move = some t) (hown : ∀ pages, move ≠ .pages pages)
    {pageId : String} (hne : t.pages pageId ≠ s.pages pageId) :
    ∃ note content attempt current row, s.phase = .loaded note content attempt current ∧
      note.pageId = pageId ∧ s.target note current = some row ∧
      t.pages pageId = some (editedPage content current row) := by
  cases move with
  | pages pages => exact absurd rfl (hown pages)
  | write =>
    simp only [watcherNext] at hstep
    split at hstep
    · rename_i note content attempt current hphase
      split at hstep
      · rename_i row htarg
        cases hstep
        dsimp only at hne ⊢
        by_cases hid : pageId = note.pageId
        · exact ⟨note, content, attempt, current, row, hphase, hid.symm, htarg, by rw [if_pos hid]⟩
        · rw [if_neg hid] at hne
          exact absurd rfl hne
      · cases hstep
        exact absurd rfl hne
    · simp at hstep
  | tick | read | snapshot | load | recheck | fail | files =>
    simp only [watcherNext] at hstep
    repeat' split at hstep
    all_goals cases hstep
    all_goals exact absurd rfl hne

theorem start_stamped (pages : String → Option WatchedPage) (files : String → Option String) :
    Stamped (.start pages files) :=
  ⟨fun _ _ _ _ h => by simp [WatcherState.start] at h, fun _ h => absurd h List.not_mem_nil⟩

/-- In a run in which no attempt loads a page past its file's stamp, every row the watcher
replaced was at most at the stamp, and the watcher's next move changes no other page. -/
theorem watcher_replaces_stamped {pages : String → Option WatchedPage}
    {files : String → Option String} {moves : List WatcherMove} {t : WatcherState}
    (hrun : Run (Restrict (WatcherStep readYaml) LoadsStamped) (.start pages files) moves t) :
    (∀ commit ∈ t.commits, commit.replaced.version ≤ commit.note.originVersion) ∧
    ∀ move t', WatcherStep readYaml t move t' → (∀ pages, move ≠ .pages pages) →
      ∀ pageId, t'.pages pageId ≠ t.pages pageId → ∃ note content attempt current row,
        t.phase = .loaded note content attempt current ∧ note.pageId = pageId ∧
        t.pages pageId = some row ∧ row.version ≤ note.originVersion ∧
        t'.pages pageId = some (editedPage content current row) := by
  have hstam : Stamped t :=
    hrun.invariant (fun _ _ _ h hstep => watcherNext_stamped h hstep.1 hstep.2)
      (start_stamped pages files)
  refine ⟨hstam.commits, ?_⟩
  intro move t' hstep hown pageId hne
  obtain ⟨note, content, attempt, current, row, hphase, hid, htarg, hwrit⟩ :=
    pages_of_watcherNext hstep hown hne
  obtain ⟨hrow, hvers⟩ := target_some htarg
  have hstamp := hstam.loaded note content attempt current hphase
  refine ⟨note, content, attempt, current, row, hphase, hid, ?_, by omega, hwrit⟩
  rw [← hid]
  exact hrow

def editedFile : String :=
  "---\norigin_id: page_a\norigin_version: 1\n---\n\nedited on version one\n"

def pageAt (version : Int) (content : String) : WatchedPage where
  content := content
  sourceMemoryIds := ["mem_seed"]
  version := version
  status := "active"
  kind := "concept"
  userEdited := false
  reviewStatus := "confirmed"
  sourceRevision := 0

/-- The YAML library on the frontmatter of `editedFile`. -/
def readEditedYaml : YamlReader := fun text =>
  if text = "\norigin_id: page_a\norigin_version: 1" then
    some fun field =>
      if field = "origin_id" then some (.str "page_a")
      else if field = "origin_version" then some (.integer 1)
      else none
  else none

def onlyPage (page : WatchedPage) : String → Option WatchedPage := fun pageId =>
  if pageId = "page_a" then some page else none

def onlyFile {α : Type} (key : String) (value : α) : String → Option α := fun key' =>
  if key' = key then some value else none

def watchedStart : WatcherState :=
  .start (onlyPage (pageAt 1 "version one")) (onlyFile "a.md" editedFile)

def movesToLoad : List WatcherMove :=
  [.tick (onlyFile "page_a" "a.md"), .read "a.md", .snapshot]

def quietMoves : List WatcherMove :=
  movesToLoad ++ [.load true, .write]

/-- An agent writes version 2 between the snapshot and the load. -/
def staleMoves : List WatcherMove :=
  movesToLoad ++ [.pages (onlyPage (pageAt 2 "version two")), .load true, .write]

def stampedNext (readYaml : YamlReader) (s : WatcherState) (move : WatcherMove) :
    Option WatcherState :=
  if loadsStamped s move then watcherNext readYaml s move else none

theorem stampedNext_some (h : stampedNext readYaml s move = some t) :
    Restrict (WatcherStep readYaml) LoadsStamped s move t := by
  unfold stampedNext at h
  split at h
  · rename_i hguard
    exact ⟨hguard, h⟩
  · simp at h

/-- With nothing in between, the edit replaces the version it was made on. -/
theorem watcher_replaces_stamped_quiet : ∃ t : WatcherState,
    t.commits.map (fun commit => commit.replaced.version) = [1] ∧
    ∀ commit ∈ t.commits, commit.replaced.version ≤ commit.note.originVersion := by
  have hreach : (quietMoves.foldlM (stampedNext readEditedYaml) watchedStart).any
      (fun t => (t.commits.map fun commit => commit.replaced.version) = [1]) = true := by
    decide +kernel
  obtain ⟨t, hrun, hcom⟩ := Run.of_foldlM_any (fun _ _ _ => stampedNext_some) hreach
  exact ⟨t, hcom, (watcher_replaces_stamped hrun).1⟩

/-- The watcher replaces version 2 with an edit of version 1. -/
theorem stale_edit_replaces_newer_page :
    ¬ ∀ (readYaml : YamlReader) (pages : String → Option WatchedPage)
        (files : String → Option String) (moves : List WatcherMove) (t : WatcherState),
      Run (WatcherStep readYaml) (.start pages files) moves t →
        ∀ commit ∈ t.commits, commit.replaced.version ≤ commit.note.originVersion := by
  intro hall
  have hreach : (staleMoves.foldlM (watcherNext readEditedYaml) watchedStart).any (fun t =>
      (t.commits.any fun commit => decide (commit.note.originVersion < commit.replaced.version) &&
        commit.written.content == "edited on version one") = true) = true := by
    decide +kernel
  obtain ⟨t, hrun, hany⟩ := Run.of_foldlM_any (fun _ _ _ h => h) hreach
  obtain ⟨commit, hcommi, hbad⟩ := List.any_eq_true.mp hany
  have hle := hall readEditedYaml _ _ _ t hrun commit hcommi
  simp only [Bool.and_eq_true, decide_eq_true_eq] at hbad
  omega

end Wenlan.Pages
