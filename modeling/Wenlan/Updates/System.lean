import Wenlan.Support.Transition
import Wenlan.Updates.Delivery

/-!
# The steps of a page write

A position is a place between two transactions; `advance` takes the next one.
-/

namespace Wenlan.Updates

open Pages

/-- Where a delivery stands. -/
inductive Position where
  | start
  | load (attempt : Nat)
  | readRevision (current : Page)
  | stage (current : Page) (sourceRevision : Int)
  /-- `replayed`: the card is one that another delivery staged. -/
  | clear (current : Page) (result : WriteResult) (replayed : Bool)
  | acknowledge (current : Page)
  | terminal (result : WriteResult)
  /-- A receipt was there already; `staged` is the page that a card was to be staged on. -/
  | replay (error : WenlanError) (staged : Option Page)
  | readChangelog (current : Page) (attempt : Nat)
  | write (current : Page) (attempt : Nat) (changelog : Changelog)
  | reload (current : Page) (attempt : Nat)
  | answered (answer : Except WenlanError WriteResult)

def maxCasAttempts : Nat := 3

section Digest

variable (sha256 : List String → String)

def PageUpdate.digest (u : PageUpdate) : String :=
  sha256 u.pageWriteFields

def PageUpdate.replayed (u : PageUpdate) (key : String × String) (stored : OperationReceipt) :
    Except WenlanError WriteResult :=
  if stored.requestDigest ≠ u.digest sha256 then
    .error (.conflict
      (s!"operation id '{key.2}' was already used by '{key.1}' for a different page write"))
  else .ok stored.response

def PageUpdate.receipt (u : PageUpdate) (response : WriteResult) (now : Int) :
    Option KeyedReceipt :=
  u.key.map fun key => (key, { requestDigest := u.digest sha256, response, createdAt := now })

def PageUpdate.stored (u : PageUpdate) (s : Store) :
    Option ((String × String) × OperationReceipt) :=
  u.key.bind fun key => (s.receipts.lookup key).map fun stored => (key, stored)

namespace PageUpdate

variable (u : PageUpdate) (ambient : Ambient) (s : Store)

def lookUp : Position :=
  match u.validate ambient.grounded with
  | .error error => .answered (.error error)
  | .ok _ =>
    match u.stored s with
    | some (key, stored) => .answered (u.replayed sha256 key stored)
    | none =>
      match validateCanonicalPageContent u.req.content with
      | .error error => .answered (.error error)
      | .ok _ => .load 1

def doesNotExist : WenlanError :=
  .validation s!"page '{u.pageId}' does not exist"

def follow (current : Page) (attempt : Nat) : Decision → Position
  | .answer answer => .answered answer
  | .terminal result => .terminal result
  | .review =>
    match u.expectedSourceRevision with
    | some sourceRevision => .stage current sourceRevision
    | none => .readRevision current
  | .acknowledge => .acknowledge current
  | .write => .readChangelog current attempt

def load (attempt : Nat) : Position :=
  match getPage s u.pageId with
  | none => .answered (.error u.doesNotExist)
  | some current => u.follow current attempt (u.decide ambient current)

def readRevision (current : Page) : Position :=
  match s.pages.lookup u.pageId with
  | none => .answered (.error u.doesNotExist)
  | some page => .stage current page.sourceRevision

/-- After a card: a compile clears the staleness it was dispatched for. -/
def afterCard (current : Page) (result : WriteResult) (replayed : Bool) : Position :=
  if u.settlesStaleness then .clear current result replayed else .answered (.ok result)

/-- An insert of a receipt that finds one there is followed by a replay. -/
def afterError (error : WenlanError) (staged : Option Page) : Position :=
  match error, u.key with
  | .conflict message, some _ => .replay (.conflict message) staged
  | error, _ => .answered (.error error)

def stage (current : Page) (sourceRevision : Int) : Position × Store :=
  let result := u.stagedResult ambient.cardId
  match u.stageCard current sourceRevision (u.receipt sha256 result ambient.now)
      ambient.cardId s with
  | .ok (some after) => (u.afterCard current result false, after)
  | .ok none => (.terminal (u.noOp .unchanged []), s)
  | .error error => (u.afterError error (some current), s)

def clear (current : Page) (result : WriteResult) : Position × Store :=
  (.answered (.ok result), (u.clearStaleness current s).getD s)

/-- An acknowledgement that matched answers at once, its receipt being in the transaction. -/
def acknowledgeStep (current : Page) : Position × Store :=
  match u.acknowledgeCompile current (u.receipt sha256 u.acknowledgedResult ambient.now) s with
  | .ok (some after) => (.answered (.ok u.acknowledgedResult), after)
  | .ok none => (.terminal (u.noOp .unchanged []), s)
  | .error error => (.answered (.error error), s)

/-- `terminal_result_with_receipt` -/
def terminal (result : WriteResult) : Position × Store :=
  match u.receipt sha256 result ambient.now with
  | none => (.answered (.ok result), s)
  | some receipt =>
    match recordOperationReceipt receipt s with
    | .ok after => (.answered (.ok result), after)
    | .error error => (u.afterError error none, s)

/-- `replay_matching_operation_receipt` -/
def replay (error : WenlanError) (staged : Option Page) : Position :=
  match u.stored s with
  | none => .answered (.error error)
  | some (key, stored) =>
    match u.replayed sha256 key stored, staged with
    | .ok result, some current => u.afterCard current result true
    | answer, _ => .answered answer

def readChangelog (current : Page) (attempt : Nat) : Position :=
  .write current attempt
    (appendChangelogEntry (getPageChangelog s u.pageId) (u.changelogEntry current ambient.now))

def write (current : Page) (attempt : Nat) (changelog : Changelog) : Position × Store :=
  match u.commitContent current changelog
      (u.receipt sha256 (u.wroteResult current) ambient.now) ambient s with
  | .ok (some after) => (.answered (.ok (u.wroteResult current)), after)
  | .ok none => (.reload current attempt, s)
  | .error error => (.answered (.error error), s)

def contended : WriteResult :=
  u.noOp .contended
    [s!"page kept moving under this write ({maxCasAttempts} attempts); nothing was written"]

def lockAppeared (current : Page) (landed : Option Page) : Bool :=
  u.writer.isMachine && !current.reviewRequired && landed.any Page.reviewRequired

def reload (current : Page) (attempt : Nat) : Position :=
  let landed := getPage s u.pageId
  if landed.map Page.version ≠ some current.version ∨ u.lockAppeared current landed then
    if attempt < maxCasAttempts then .load (attempt + 1) else .answered (.ok u.contended)
  else .terminal (u.noOp .unchanged [])

end PageUpdate

def PageUpdate.advance (u : PageUpdate) (ambient : Ambient) (s : Store) :
    Position → Position × Store
  | .start => (u.lookUp sha256 ambient s, s)
  | .load attempt => (u.load ambient s attempt, s)
  | .readRevision current => (u.readRevision s current, s)
  | .stage current sourceRevision => u.stage sha256 ambient s current sourceRevision
  | .clear current result _ => u.clear s current result
  | .acknowledge current => u.acknowledgeStep sha256 ambient s current
  | .terminal result => u.terminal sha256 ambient s result
  | .replay error staged => (u.replay sha256 s error staged, s)
  | .readChangelog current attempt => (u.readChangelog ambient s current attempt, s)
  | .write current attempt changelog => u.write sha256 ambient s current attempt changelog
  | .reload current attempt => (u.reload s current attempt, s)
  | .answered answer => (.answered answer, s)

end Digest

end Wenlan.Updates

/-!
## Page writes beside each other

Any number of deliveries stand at their positions, beside the acceptances of cards and the
backfills of citations, which also compute a changelog before they write it.  A transition is
one transaction of one of them, an event of another part of the program, or the loss of a
delivery or of the process.
-/

namespace Wenlan.Updates

open Pages

/-! ## Acceptances and backfills -/

/-- A write of a body outside `update_page`. -/
inductive Rewrite where
  | accept (cardId : String)
  /-- The annotated body, with its citations and what the changelog says of them. -/
  | backfill (pageId body citations summary : String)

inductive RewritePosition where
  | start
  | loadForCard (card : RevisionCard)
  | cardChangelog (card : RevisionCard) (current : Page)
  | cardWrite (card : RevisionCard) (current : Page) (changelog : Changelog)
  | missed (card : RevisionCard)
  | outdated (card : RevisionCard)
  | outdatedAt (card : RevisionCard) (stagedVersion currentVersion : Int)
  | requeue (card : RevisionCard)
  | discard (error : WenlanError)
  | loadForBackfill (fence : PageFence)
  | backfillChangelog (fence : PageFence) (current : Page)
  | backfillWrite (fence : PageFence) (current : Page) (changelog : Changelog)
  | answered (answer : Except WenlanError Unit)

def RevisionCard.effectiveSources (card : RevisionCard) (current : Page) : List String :=
  if card.sourceMemoryIds.isEmpty then current.sourceMemoryIds else card.sourceMemoryIds

def acceptEntry (card : RevisionCard) (current : Page) (now : Int) : ChangelogEntry where
  version := current.version + 1
  writtenAt := now
  editedBy := "revision_accept"
  deltaSummary := computePageDeltaSummary current.content current.sourceMemoryIds card.content
    (card.effectiveSources current) "revision_accept"
  incomingSourceIds :=
    some (difference (card.effectiveSources current) current.sourceMemoryIds)
  counts := some (pageDeltaCounts current.content current.sourceMemoryIds card.content
    (card.effectiveSources current))
  agent := none
  citationsSummary := none

/-- The UPDATE of `try_accept_page_revision`. -/
def acceptUpdate (cardId : String) (card : RevisionCard) (current : Page)
    (changelog : Changelog) : ContentUpdate where
  content := card.content
  sourceMemoryIds := card.effectiveSources current
  linkReason := "revision_accept"
  requireStale := false
  changelog := changelog
  citations := none
  expectedVersion := card.pageVersion
  expectedSourceRevision := card.sourceRevision
  expectedIncarnation := none
  consumeRevisionId := some cardId
  receipt := none
  pageGrowthGuard := none
  machineOwnedOnly := false
  userForced := false

def backfillEntry (current : Page) (summary : String) (now : Int) : ChangelogEntry where
  version := current.version + 1
  writtenAt := now
  editedBy := "citation_backfill"
  deltaSummary := none
  incomingSourceIds := none
  counts := none
  agent := none
  citationsSummary := some summary

/-- The UPDATE of `try_update_page_content_with_changelog_at_versions`. -/
def backfillUpdate (body citations : String) (fence : PageFence) (current : Page)
    (changelog : Changelog) : ContentUpdate where
  content := body
  sourceMemoryIds := current.sourceMemoryIds
  linkReason := "citation_backfill"
  requireStale := false
  changelog := changelog
  citations := some citations
  expectedVersion := some current.version
  expectedSourceRevision := some fence.sourceRevision
  expectedIncarnation := some fence.incarnation
  consumeRevisionId := none
  receipt := none
  pageGrowthGuard := none
  machineOwnedOnly := false
  userForced := false

section Accept

variable (cardId : String) (card : RevisionCard) (now : Int) (s : Store)

def unfencedCard : WenlanError :=
  .conflict (s!"revision card {cardId} for page {card.pageId} was staged before " ++
    "source-revision fencing, so it cannot be checked against the page's current sources. The " ++
    "card has been discarded and the page re-queued to be regenerated from the sources it " ++
    "holds now.")

def pageNotFound : WenlanError :=
  .notFound s!"Page not found: {card.pageId}"

def readCard : RewritePosition :=
  match (s.cards.lookup cardId).filter fun card => (getPage s card.pageId).isSome with
  | none => .answered (.error (.notFound s!"no pending revision for {cardId}"))
  | some card => if card.sourceRevision = none then .requeue card else .loadForCard card

def requeuePage : RewritePosition × Store :=
  match setPageStale card.pageId "source_updated" s with
  | .error error => (.answered (.error error), s)
  | .ok after => (.discard (unfencedCard cardId card), after)

def loadForCard : RewritePosition :=
  match getPage s card.pageId with
  | none => .answered (.error (pageNotFound card))
  | some current => .cardChangelog card current

def writeCard (current : Page) (changelog : Changelog) : RewritePosition × Store :=
  match tryUpdatePageContent (acceptUpdate cardId card current changelog) card.pageId now true s
      with
  | .error error => (.answered (.error error), s)
  | .ok none => (.missed card, s)
  | .ok (some after) => (.answered (.ok ()), after)

/-- Someone else may have settled the card, which is then not an outdated one. -/
def missedCard : RewritePosition :=
  if (s.cards.lookup cardId).isSome then .outdated card
  else .answered (.error
    (.notFound s!"revision card {cardId} for page {card.pageId} was already resolved"))

def outdatedCard : RewritePosition :=
  match getPage s card.pageId with
  | none => .answered (.error (pageNotFound card))
  | some current =>
    match card.pageVersion with
    | none => .answered (.error (.conflict
        s!"page revision card {cardId} for page {card.pageId} did not write"))
    | some stagedVersion => .outdatedAt card stagedVersion current.version

def pageRevisionOutdated : String := "page_revision_outdated"

def outdatedError (stagedVersion currentVersion : Int) (currentRevision : Option Int) :
    WenlanError :=
  .conflict (s!"{pageRevisionOutdated}: page {card.pageId} changed after revision card {cardId} " ++
    s!"was proposed (staged version {stagedVersion}, current version {currentVersion}" ++
    (match card.sourceRevision with
      | none => ""
      | some stagedRevision =>
        s!", staged source revision {stagedRevision}, current source revision " ++
          ((currentRevision.map toString).getD "unknown")) ++
    "); the card was discarded. Re-read the page and propose the change again.")

def outdatedCardAt (stagedVersion currentVersion : Int) : RewritePosition :=
  .discard (outdatedError cardId card stagedVersion currentVersion
    ((s.pages.lookup card.pageId).map Page.sourceRevision))

def discardCard (error : WenlanError) : RewritePosition × Store :=
  (.answered (.error error), { s with cards := s.cards.erase cardId })

end Accept

section Backfill

variable (pageId body citations : String) (fence : PageFence) (now : Int) (s : Store)

def readBackfillFence : RewritePosition :=
  match getPageFence s pageId with
  | none => .answered (.ok ())
  | some fence => .loadForBackfill fence

def loadForBackfill : RewritePosition :=
  match getPage s pageId with
  | none => .answered (.ok ())
  | some current => .backfillChangelog fence current

def writeBackfill (current : Page) (changelog : Changelog) : RewritePosition × Store :=
  match tryUpdatePageContent (backfillUpdate body citations fence current changelog) pageId now
      true s with
  | .error error => (.answered (.error error), s)
  | .ok none => (.answered (.ok ()), s)
  | .ok (some after) => (.answered (.ok ()), after)

end Backfill

def Rewrite.advance (now : Int) (s : Store) : Rewrite → RewritePosition → RewritePosition × Store
  | .accept cardId, .start => (readCard cardId s, s)
  | .accept cardId, .requeue card => requeuePage cardId card s
  | .accept _, .loadForCard card => (loadForCard card s, s)
  | .accept _, .cardChangelog card current =>
    (.cardWrite card current (appendChangelogEntry (getPageChangelog s card.pageId)
      (acceptEntry card current now)), s)
  | .accept cardId, .cardWrite card current changelog =>
    writeCard cardId card now s current changelog
  | .accept cardId, .missed card => (missedCard cardId card s, s)
  | .accept cardId, .outdated card => (outdatedCard cardId card s, s)
  | .accept cardId, .outdatedAt card stagedVersion currentVersion =>
    (outdatedCardAt cardId card s stagedVersion currentVersion, s)
  | .accept cardId, .discard error => discardCard cardId s error
  | .backfill pageId _ _ _, .start => (readBackfillFence pageId s, s)
  | .backfill pageId _ _ _, .loadForBackfill fence => (loadForBackfill pageId fence s, s)
  | .backfill pageId _ _ summary, .backfillChangelog fence current =>
    (.backfillWrite fence current (appendChangelogEntry (getPageChangelog s pageId)
      (backfillEntry current summary now)), s)
  | .backfill pageId body citations _, .backfillWrite fence current changelog =>
    writeBackfill pageId body citations fence now s current changelog
  | _, position => (position, s)

structure Delivery where
  update : PageUpdate
  position : Position

structure System where
  store : Store
  /-- The fences that callers have read, from which the fences of a write come. -/
  fences : List (String × PageFence)
  /-- The deliveries before this number have been started. -/
  started : Nat
  deliveries : AList fun _ : Nat => Delivery
  rewrites : AList fun _ : Nat => Rewrite × RewritePosition

/-- A write carries only counters that its caller has read. -/
def PageUpdate.fencesRead (u : PageUpdate) (fences : List (String × PageFence)) : Bool :=
  u.expectedSourceRevision.all (fun revision =>
    fences.any fun read => read.1 == u.pageId && read.2.sourceRevision == revision) &&
  u.pageFence.all fun fence => fences.contains (u.pageId, fence)

theorem PageUpdate.fencesRead_revision {u : PageUpdate} {fences : List (String × PageFence)}
    {revision : Int} (h : u.fencesRead fences)
    (hrev : u.expectedSourceRevision = some revision) :
    ∃ fence, (u.pageId, fence) ∈ fences ∧ fence.sourceRevision = revision := by
  unfold fencesRead at h
  rw [Bool.and_eq_true, hrev, Option.all_some, List.any_eq_true] at h
  obtain ⟨⟨read, hread, hmatch⟩, -⟩ := h
  rw [Bool.and_eq_true, beq_iff_eq, beq_iff_eq] at hmatch
  refine ⟨read.2, ?_, hmatch.2⟩
  rw [← hmatch.1]
  exact hread

inductive Label where
  | readFence (pageId : String)
  | deliver (job : Nat) (write : PageWrite)
  | advance (job : Nat) (ambient : Ambient)
  /-- The caller goes away, or the database fails. -/
  | drop (job : Nat)
  | rewrite (job : Nat) (rewrite : Rewrite)
  | advanceRewrite (job : Nat) (now : Int)
  | event (event : Event) (now : Int)
  | crash

structure Outside where
  sha256 : List String → String
  toLowercase : String → String

/-- The process goes down, and with it all that was under way. -/
def System.crashed (s : System) : System :=
  { s with deliveries := ∅, rewrites := ∅ }

def System.afterEvent (out : Outside) (s : System) (event : Event) (now : Int) : System :=
  match event.run out.toLowercase now s.store with
  | .error _ => s
  | .ok store =>
    if event.isInterrupted then ({ s with store } : System).crashed else { s with store }

def System.advanceDelivery (out : Outside) (s : System) (job : Nat) (ambient : Ambient)
    (delivery : Delivery) : System :=
  let result := delivery.update.advance out.sha256 ambient s.store delivery.position
  { s with
    store := result.2
    deliveries := s.deliveries.insert job { delivery with position := result.1 } }

def System.advanceRewriteJob (s : System) (job : Nat) (now : Int) (rewrite : Rewrite)
    (position : RewritePosition) : System :=
  let result := rewrite.advance now s.store position
  { s with store := result.2, rewrites := s.rewrites.insert job (rewrite, result.1) }

def next (out : Outside) (s : System) : Label → Option System
  | .readFence pageId =>
    (getPageFence s.store pageId).map fun fence =>
      { s with fences := (pageId, fence) :: s.fences }
  | .deliver job write =>
    -- an accepted card is written through the database layer, never under its name here
    if s.started ≤ job ∧ write.toUpdate.fencesRead s.fences ∧
        write.toUpdate.editedBy ≠ "revision_accept" then
      some { s with
        started := job + 1
        deliveries := s.deliveries.insert job { update := write.toUpdate, position := .start } }
    else none
  | .advance job ambient =>
    (s.deliveries.lookup job).map fun delivery => s.advanceDelivery out job ambient delivery
  | .drop job => some { s with deliveries := s.deliveries.erase job }
  | .rewrite job rewrite =>
    if s.rewrites.lookup job = none then
      some { s with rewrites := s.rewrites.insert job (rewrite, .start) }
    else none
  | .advanceRewrite job now =>
    (s.rewrites.lookup job).map fun entry => s.advanceRewriteJob job now entry.1 entry.2
  | .event event now => some (s.afterEvent out event now)
  | .crash => some s.crashed

def Step (out : Outside) (s : System) (label : Label) (t : System) : Prop :=
  next out s label = some t

/-- Nothing is under way, and no fence has been read. -/
def Quiet (s : System) : Prop :=
  s.fences = [] ∧ s.deliveries = ∅ ∧ s.rewrites = ∅

end Wenlan.Updates
