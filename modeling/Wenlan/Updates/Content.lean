import Wenlan.Updates.Tables

/-!
# The transactions of a page write

Each is one transaction of `db.rs` under the connection's lock: it commits as a whole, or leaves
the store as it was.  `try_update_page_content` is modelled with a changelog, as every caller
outside the tests calls it.
-/

namespace Wenlan.Updates

open Pages

abbrev KeyedReceipt := (String × String) × OperationReceipt

/-- What `try_update_page_content` is asked to do. -/
structure ContentUpdate where
  content : String
  sourceMemoryIds : List String
  linkReason : String
  requireStale : Bool
  changelog : Changelog
  citations : Option String
  expectedVersion : Option Int
  expectedSourceRevision : Option Int
  expectedIncarnation : Option String
  consumeRevisionId : Option String
  receipt : Option KeyedReceipt
  /-- The memory that a page grows by, with the version it was read at. -/
  pageGrowthGuard : Option (String × Int)
  machineOwnedOnly : Bool
  userForced : Bool

namespace ContentUpdate

variable (u : ContentUpdate)

/-- The fences that may be combined. -/
def checkShape : Except WenlanError Unit := do
  refuseIf (u.userForced = true ∧ (u.requireStale = true ∨ u.expectedVersion.isSome = true ∨
      u.expectedSourceRevision = none ∨ u.expectedIncarnation = none ∨
      u.consumeRevisionId.isSome = true ∨ u.pageGrowthGuard.isSome = true ∨
      u.machineOwnedOnly = true ∨ isHumanEdit u.linkReason = true))
    (.validation ("a user-forced page rebuild requires a machine changelog write under a " ++
      "source-revision fence"))
  refuseIf (u.expectedVersion.isSome = true ∧ u.expectedSourceRevision.isSome = true ∧
      u.pageGrowthGuard = none ∧ u.linkReason ≠ "citation_backfill" ∧
      u.linkReason ≠ "agent_refresh" ∧ u.consumeRevisionId = none)
    (.validation ("only page growth, citation backfill, and revision accept may combine " ++
      "version and source-revision CAS"))
  refuseIf (u.expectedIncarnation.isSome = true ∧ (u.expectedSourceRevision = none ∨
      (u.expectedVersion = none ∧ u.userForced = false)))
    (.validation ("the page incarnation fence requires version, source-revision, and " ++
      "changelog"))

def passesReviewLock : Bool :=
  isHumanEdit u.linkReason || u.linkReason == "revision_accept"

def admitsBase (page : Page) : Bool :=
  if u.userForced then page.status == "active" && page.creationKind != "authored"
  else if u.requireStale then
    page.status == "active" && page.staleReason.isSome && !page.userEdited
  else true

def admitsGrowth (page : Page) : Bool :=
  (!u.machineOwnedOnly || (!page.userEdited && page.creationKind != "authored")) &&
  (u.pageGrowthGuard.isNone ||
    ((page.creationKind == "distilled" || page.creationKind == "research") &&
      !eqIgnoreAsciiCase page.title overviewPageTitle && page.kind != "entity"))

/-- What the counters and the incarnation ask of the row. -/
def admitsFences (page : Page) : Bool :=
  u.expectedVersion.all (fun version => page.version == version && page.status == "active") &&
  u.expectedSourceRevision.all
    (fun revision => page.sourceRevision == revision && page.status == "active") &&
  u.expectedIncarnation.all fun incarnation => page.incarnation == incarnation

/-- The WHERE clause that the UPDATE is put together from. -/
def admits (page : Page) : Bool :=
  u.admitsBase page && u.admitsGrowth page && u.admitsFences page &&
    (u.passesReviewLock || !page.reviewRequired)

/-- The row as the UPDATE leaves it. -/
def applied (page : Page) : Page :=
  { page with
    content := u.content
    sourceMemoryIds := u.sourceMemoryIds
    version := page.version + 1
    sourceRevision := page.sourceRevision + 1
    userEdited := if u.userForced then false else isHumanEdit u.linkReason || page.userEdited
    reviewStatus := if isHumanEdit u.linkReason then "unconfirmed" else page.reviewStatus
    changelog := u.changelog
    citations := u.citations
    refreshBlockedReason := none
    staleReason := if u.userForced || u.requireStale then none else page.staleReason
    sourcesUpdatedCount :=
      if u.userForced || u.requireStale then 0 else page.sourcesUpdatedCount }

end ContentUpdate

def rejectPageDraft (pageId : String) (s : Store) : Except WenlanError Unit :=
  refuseIf ((s.pages.lookup pageId).any (fun page => page.status == "draft") = true)
    (.validation s!"Page {pageId} is not active")

def Page.historyRow (page : Page) (editedBy : String) (now : Int) : HistoryRow where
  title := page.title
  content := page.content
  sourceMemoryIds := page.sourceMemoryIds
  editedBy := editedBy
  createdAt := now

/-- A plain INSERT of what the page is now, which fails for a version that has its row. -/
def appendPageHistory (pageId editedBy : String) (now : Int) (s : Store) :
    Except WenlanError Store :=
  match s.pages.lookup pageId with
  | none => .ok s
  | some page =>
    if (s.history.lookup (pageId, page.version)).isSome then
      .error (.vectorDb "page_history: UNIQUE constraint failed")
    else
      .ok { s with
        history := s.history.insert (pageId, page.version) (page.historyRow editedBy now) }

/-- The card that is accepted goes in the transaction that writes its body. -/
def consumeRevision (cardId : Option String) (s : Store) : Except WenlanError Store :=
  match cardId with
  | none => .ok s
  | some cardId =>
    if (s.cards.lookup cardId).isSome then .ok { s with cards := s.cards.erase cardId }
    else .error (.conflict s!"pending page revision was already consumed: {cardId}")

def insertReceipt (collision : String × String → String) (receipt : Option KeyedReceipt)
    (s : Store) : Except WenlanError Store :=
  match receipt with
  | none => .ok s
  | some (key, row) =>
    if (s.receipts.lookup key).isSome then .error (.conflict (collision key))
    else .ok { s with receipts := s.receipts.insert key row }

def alreadyRecorded (key : String × String) : String :=
  s!"operation {key.1}/{key.2} already recorded: UNIQUE constraint failed"

def alreadyUsed (key : String × String) : String :=
  s!"operation id '{key.2}' for '{key.1}' was already used: UNIQUE constraint failed"

def ContentUpdate.land (u : ContentUpdate) (pageId : String) (now : Int) (page : Page)
    (s : Store) : Except WenlanError (Option Store) := do
  let consumed ← consumeRevision u.consumeRevisionId (s.setPage pageId (u.applied page))
  let recorded ← appendPageHistory pageId u.linkReason now consumed
  let after ← insertReceipt alreadyRecorded u.receipt recorded
  return some after

def ContentUpdate.landIfAdmitted (u : ContentUpdate) (pageId : String) (now : Int) (s : Store) :
    Except WenlanError (Option Store) :=
  match (s.pages.lookup pageId).filter u.admits with
  | none => .ok none
  | some page => u.land pageId now page s

/-- `none` where the UPDATE matches no row.  The memory of page growth is read in the same
transaction. -/
def tryUpdatePageContent (u : ContentUpdate) (pageId : String) (now : Int)
    (memoryCurrent : Bool) (s : Store) : Except WenlanError (Option Store) := do
  u.checkShape
  let _ ← validateCanonicalPageContent u.content
  rejectPageDraft pageId s
  if u.pageGrowthGuard.isSome ∧ ¬memoryCurrent then .ok none
  else u.landIfAdmitted pageId now s

theorem appendPageHistory_eq_ok {pageId editedBy : String} {now : Int} {s after : Store}
    {page : Page} (hpage : s.pages.lookup pageId = some page)
    (h : appendPageHistory pageId editedBy now s = .ok after) :
    s.history.lookup (pageId, page.version) = none ∧ after = { s with
        history := s.history.insert (pageId, page.version) (page.historyRow editedBy now) } := by
  unfold appendPageHistory at h
  rw [hpage] at h
  dsimp only at h
  split at h
  · cases h
  · rename_i hfresh
    exact ⟨Option.not_isSome_iff_eq_none.mp hfresh, (Except.ok.inj h).symm⟩

def InsertsReceipt (receipt : Option KeyedReceipt) (s after : Store) : Prop :=
  match receipt with
  | none => after.receipts = s.receipts
  | some (key, row) =>
    s.receipts.lookup key = none ∧ after.receipts = s.receipts.insert key row

theorem insertReceipt_eq_ok {collision : String × String → String}
    {receipt : Option KeyedReceipt} {s after : Store}
    (h : insertReceipt collision receipt s = .ok after) :
    InsertsReceipt receipt s after ∧ after.pages = s.pages ∧ after.history = s.history ∧
      after.cards = s.cards := by
  unfold insertReceipt at h
  split at h
  · cases h
    exact ⟨rfl, rfl, rfl, rfl⟩
  · split at h
    · cases h
    · rename_i key row hfresh
      cases h
      exact ⟨⟨Option.not_isSome_iff_eq_none.mp hfresh, rfl⟩, rfl, rfl, rfl⟩

def consumed (cardId : Option String) (s : Store) : AList fun _ : String => RevisionCard :=
  cardId.elim s.cards s.cards.erase

theorem consumeRevision_eq_ok {cardId : Option String} {s after : Store}
    (h : consumeRevision cardId s = .ok after) :
    after.cards = consumed cardId s ∧ after.pages = s.pages ∧ after.history = s.history ∧
      after.receipts = s.receipts := by
  unfold consumeRevision at h
  split at h
  · cases h
    exact ⟨rfl, rfl, rfl, rfl⟩
  · split at h
    · cases h
      exact ⟨rfl, rfl, rfl, rfl⟩
    · cases h

/-- All that a write does that lands on `page`. -/
structure Landed (u : ContentUpdate) (pageId : String) (now : Int) (page : Page)
    (s after : Store) : Prop where
  there : s.pages.lookup pageId = some page
  admitted : u.admits page = true
  pages : after.pages = s.pages.insert pageId (u.applied page)
  cards : after.cards = consumed u.consumeRevisionId s
  fresh : s.history.lookup (pageId, page.version + 1) = none
  history : after.history = s.history.insert (pageId, page.version + 1)
    ((u.applied page).historyRow u.linkReason now)
  receipts : InsertsReceipt u.receipt s after

theorem ContentUpdate.land_eq_ok {u : ContentUpdate} {pageId : String} {now : Int} {page : Page}
    {s after : Store} (hthere : s.pages.lookup pageId = some page)
    (hadm : u.admits page) (h : u.land pageId now page s = .ok (some after)) :
    Landed u pageId now page s after := by
  obtain ⟨consumedStore, hcons, h⟩ := bind_eq_ok h
  obtain ⟨recorded, hrecor, h⟩ := bind_eq_ok h
  obtain ⟨inserted, hins, h⟩ := bind_eq_ok h
  obtain rfl : inserted = after := Option.some.inj (Except.ok.inj h)
  obtain ⟨hcards, hpages, hhist, hrecs⟩ := consumeRevision_eq_ok hcons
  have hpage : consumedStore.pages.lookup pageId = some (u.applied page) := by
    rw [hpages]
    exact s.lookup_setPage pageId (u.applied page)
  obtain ⟨hfresh, rfl⟩ := appendPageHistory_eq_ok hpage hrecor
  obtain ⟨hrec, hpages', hhist', hcards'⟩ := insertReceipt_eq_ok hins
  have hvers : (u.applied page).version = page.version + 1 := rfl
  rw [hhist, Store.setPage_history, hvers] at hfresh
  have hrest : InsertsReceipt u.receipt s inserted := by
    unfold InsertsReceipt at hrec ⊢
    split at hrec
    · rw [hrec]
      exact hrecs
    · rw [hrecs] at hrec
      exact hrec
  exact
    { there := hthere
      admitted := hadm
      pages := by rw [hpages', hpages]; rfl
      cards := by rw [hcards', hcards]; rfl
      fresh := hfresh
      history := by rw [hhist', hhist]; rfl
      receipts := hrest }

theorem tryUpdatePageContent_some {u : ContentUpdate} {pageId : String} {now : Int}
    {memoryCurrent : Bool} {s after : Store}
    (h : tryUpdatePageContent u pageId now memoryCurrent s = .ok (some after)) :
    ∃ page, Landed u pageId now page s after := by
  obtain ⟨_, -, h⟩ := bind_eq_ok h
  obtain ⟨_, -, h⟩ := bind_eq_ok h
  obtain ⟨_, -, h⟩ := bind_eq_ok h
  split at h
  · cases h
  · unfold ContentUpdate.landIfAdmitted at h
    split at h
    · cases h
    · rename_i page hpage
      obtain ⟨hthere, hadm⟩ := Option.filter_eq_some_iff.mp hpage
      exact ⟨page, ContentUpdate.land_eq_ok hthere hadm h⟩

end Wenlan.Updates
