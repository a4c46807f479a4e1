import Wenlan.Updates.EventEffects
import Wenlan.Updates.System

/-!
# What no transaction takes back

The counters of a page only go up, and its owner changes only when both of them do.  Every event,
every step of a delivery and every step of an acceptance or a backfill moves the pages in this
sense.
-/

namespace Wenlan.Updates

open Pages

/-- What may become of a row. -/
structure Page.Moves (page later : Page) : Prop where
  incarnation : later.incarnation = page.incarnation
  creationKind : later.creationKind = page.creationKind
  version : page.version ≤ later.version
  sourceRevision : page.sourceRevision ≤ later.sourceRevision
  owner : later.userEdited = page.userEdited ∨
    (page.version < later.version ∧ page.sourceRevision < later.sourceRevision)

namespace Page.Moves

variable {page middle later : Page}

theorem refl (page : Page) : page.Moves page where
  incarnation := rfl
  creationKind := rfl
  version := le_rfl
  sourceRevision := le_rfl
  owner := .inl rfl

theorem trans (h : page.Moves middle) (h' : middle.Moves later) : page.Moves later where
  incarnation := h'.incarnation.trans h.incarnation
  creationKind := h'.creationKind.trans h.creationKind
  version := h.version.trans h'.version
  sourceRevision := h.sourceRevision.trans h'.sourceRevision
  owner := by
    obtain hsame | ⟨hvers, hrevis⟩ := h.owner
    · obtain hsame' | ⟨hvers, hrevis⟩ := h'.owner
      · exact .inl (hsame'.trans hsame)
      · exact .inr ⟨h.version.trans_lt hvers, h.sourceRevision.trans_lt hrevis⟩
    · exact .inr ⟨hvers.trans_le h'.version, hrevis.trans_le h'.sourceRevision⟩

/-- A row that has one of its counters still has its owner. -/
theorem humanOwned_eq (h : page.Moves later)
    (hsame : later.version = page.version ∨ later.sourceRevision = page.sourceRevision) :
    pageIsHumanOwned later = pageIsHumanOwned page := by
  have howner : later.userEdited = page.userEdited := by
    obtain howner | ⟨hvers, hrevis⟩ := h.owner
    · exact howner
    · omega
  unfold pageIsHumanOwned
  rw [howner, h.creationKind]

end Page.Moves

def Store.Moves (s t : Store) : Prop :=
  ∀ pageId page, s.pages.lookup pageId = some page →
    ∃ later, t.pages.lookup pageId = some later ∧ page.Moves later

namespace Store.Moves

variable {s m t : Store} {pageId : String} {page later : Page}

theorem refl (s : Store) : s.Moves s :=
  fun _ page hpage => ⟨page, hpage, .refl page⟩

theorem trans (h : s.Moves m) (h' : m.Moves t) : s.Moves t := by
  intro pageId page hpage
  obtain ⟨middle, hmiddl, hmoves⟩ := h pageId page hpage
  obtain ⟨later, hlater, hmoves'⟩ := h' pageId middle hmiddl
  exact ⟨later, hlater, hmoves.trans hmoves'⟩

theorem of_pages_eq (h : t.pages = s.pages) : s.Moves t := by
  intro pageId page hpage
  exact ⟨page, by rw [h]; exact hpage, .refl page⟩

theorem of_insert (hpage : s.pages.lookup pageId = some page) (hmoves : page.Moves later)
    (h : t.pages = s.pages.insert pageId later) : s.Moves t := by
  intro other found hfound
  by_cases heq : other = pageId
  · obtain rfl := heq
    obtain rfl : page = found := Option.mem_unique hpage hfound
    exact ⟨later, by rw [h, AList.lookup_insert], hmoves⟩
  · exact ⟨found, by rw [h, AList.lookup_insert_ne heq]; exact hfound, .refl found⟩

theorem of_setPage (hpage : s.pages.lookup pageId = some page) (hmoves : page.Moves later) :
    s.Moves (s.setPage pageId later) :=
  of_insert hpage hmoves rfl

end Store.Moves

theorem ContentUpdate.moves_applied (u : ContentUpdate) (page : Page) :
    page.Moves (u.applied page) where
  incarnation := rfl
  creationKind := rfl
  version := by
    change page.version ≤ page.version + 1
    omega
  sourceRevision := by
    change page.sourceRevision ≤ page.sourceRevision + 1
    omega
  owner := by
    right
    change page.version < page.version + 1 ∧ page.sourceRevision < page.sourceRevision + 1
    omega

theorem Landed.moves {u : ContentUpdate} {pageId : String} {now : Int} {page : Page}
    {s after : Store} (h : Landed u pageId now page s after) : s.Moves after :=
  .of_insert h.there (u.moves_applied page) h.pages

theorem Page.moves_compiled (page : Page) : page.Moves page.compiled :=
  ⟨rfl, rfl, le_rfl, le_rfl, .inl rfl⟩

theorem Page.Touches.moves {page later : Page} (h : page.Touches later) : page.Moves later :=
  ⟨h.incarnation, h.creationKind, h.version.ge, h.sourceRevision, .inl h.userEdited⟩

/-- The row keeps its owner, and its version goes up. -/
theorem Page.Revises.moves {page later : Page} (h : page.Revises later) :
    page.Moves { later with version := later.version + 1 } where
  incarnation := h.incarnation
  creationKind := h.creationKind
  version := by
    have hvers := h.version
    change page.version ≤ later.version + 1
    omega
  sourceRevision := h.sourceRevision
  owner := .inl h.userEdited

theorem commitVersion_moves {pageId editedBy : String} {now : Int} {s after : Store}
    {page later : Page} (hpage : s.pages.lookup pageId = some page)
    (hrev : page.Revises later) (h : commitVersion pageId later editedBy now s = .ok after) :
    s.Moves after :=
  .of_insert hpage hrev.moves (appendPageHistory_pages h)

theorem EventEffect.moves {s after : Store} {interrupted : Bool}
    (h : EventEffect s interrupted after) : s.Moves after := by
  cases h with
  | kept after hpages _ _ => exact .of_pages_eq hpages
  | created new now hfresh =>
    have hpages : (insertFirstHistory new.pageId new.row now
        (s.setPage new.pageId new.row)).pages = s.pages.insert new.pageId new.row := by
      unfold insertFirstHistory
      split <;> rfl
    intro pageId page hpage
    have hne : pageId ≠ new.pageId := by
      rintro rfl
      rw [hpage] at hfresh
      cases hfresh
    exact ⟨page, by rw [hpages, AList.lookup_insert_ne hne]; exact hpage, .refl page⟩
  | touched pageId page later hpage htouches => exact .of_setPage hpage htouches.moves
  | committed _ _ _ _ _ _ hpage hrev hcommit => exact commitVersion_moves hpage hrev hcommit
  | cutOff pageId page _ hpage => exact .of_setPage hpage page.revises_archived.moves
  | merged _ _ _ _ _ absorbed middle _ _ hpage hrev hmiddl hthere hafter =>
    exact (commitVersion_moves hpage hrev hmiddl).trans
      (commitVersion_moves hthere absorbed.revises_archived hafter)

theorem Event.moves {event : Event} {toLowercase : String → String} {now : Int} {s after : Store}
    (h : event.run toLowercase now s = .ok after) : s.Moves after :=
  (Event.effect h).moves

end Wenlan.Updates

/-!
## What one step of a delivery does to the tables

`Effect` lists the transactions of a delivery with all that they change; a step that is not one
of them only reads.
-/

namespace Wenlan.Updates

open Pages

variable {sha256 : List String → String} {u : PageUpdate} {ambient : Ambient} {s after : Store}
  {position : Position}

/-- The position and the tables after a step of a delivery. -/
inductive Effect (sha256 : List String → String) (u : PageUpdate) (ambient : Ambient) (s : Store)
    (position : Position) : Position × Store → Prop
  | idle (following : Position) : Effect sha256 u ambient s position (following, s)
  | recorded (result : WriteResult) (receipt : KeyedReceipt) :
      position = .terminal result → u.receipt sha256 result ambient.now = some receipt →
      s.receipts.lookup receipt.1 = none →
      Effect sha256 u ambient s position
        (.answered (.ok result), { s with receipts := s.receipts.insert receipt.1 receipt.2 })
  | staged (current : Page) (sourceRevision : Int) (card : RevisionCard) (after : Store) :
      position = .stage current sourceRevision → card.pageId = u.pageId →
      card.content = u.req.content → after.pages = s.pages → after.history = s.history →
      after.cards = s.cards.insert ambient.cardId card →
      InsertsReceipt (u.receipt sha256 (u.stagedResult ambient.cardId) ambient.now) s after →
      Effect sha256 u ambient s position
        (u.afterCard current (u.stagedResult ambient.cardId) false, after)
  | cleared (current : Page) (result : WriteResult) (replayed : Bool) (page : Page) :
      position = .clear current result replayed → s.pages.lookup u.pageId = some page →
      (u.clearStaleness current s).isSome = true →
      Effect sha256 u ambient s position
        (.answered (.ok result), s.setPage u.pageId page.compiled)
  | acknowledged (current page : Page) (after : Store) :
      position = .acknowledge current → s.pages.lookup u.pageId = some page →
      after.pages = s.pages.insert u.pageId page.compiled → after.history = s.history →
      after.cards = s.cards →
      InsertsReceipt (u.receipt sha256 u.acknowledgedResult ambient.now) s after →
      Effect sha256 u ambient s position (.answered (.ok u.acknowledgedResult), after)
  | wrote (current : Page) (attempt : Nat) (changelog : Changelog) (page : Page)
      (after : Store) :
      position = .write current attempt changelog →
      Landed (u.contentUpdate current changelog
          (u.receipt sha256 (u.wroteResult current) ambient.now)) u.pageId ambient.now page s
        after →
      Effect sha256 u ambient s position (.answered (.ok (u.wroteResult current)), after)

theorem clearStale_eq_some {fence : CompileFence} {pageId : String}
    (h : clearStale fence pageId s = some after) :
    ∃ page, s.pages.lookup pageId = some page ∧ after = s.setPage pageId page.compiled := by
  obtain ⟨page, hpage, rfl⟩ := Option.map_eq_some_iff.mp h
  exact ⟨page, (Option.filter_eq_some_iff.mp hpage).1, rfl⟩

theorem acknowledge_eq_ok {fence : CompileFence} {pageId : String}
    {receipt : Option KeyedReceipt} (h : acknowledge fence pageId receipt s = .ok (some after)) :
    ∃ page, s.pages.lookup pageId = some page ∧
      after.pages = s.pages.insert pageId page.compiled ∧ after.history = s.history ∧
      after.cards = s.cards ∧ InsertsReceipt receipt s after := by
  unfold acknowledge at h
  split at h
  · cases h
  · rename_i cleared hcleared
    obtain ⟨page, hpage, rfl⟩ := clearStale_eq_some hcleared
    obtain ⟨inserted, hins, h⟩ := bind_eq_ok h
    obtain rfl : inserted = after := Option.some.inj (Except.ok.inj h)
    obtain ⟨hrec, hpages, hhist, hcards⟩ := insertReceipt_eq_ok hins
    exact ⟨page, hpage, hpages, hhist, hcards, hrec⟩

variable {cardId : String}

theorem upsertCard_eq_ok {card : RevisionCard} {receipt : Option KeyedReceipt}
    (h : upsertCard cardId card receipt s = .ok (some after)) :
    after.pages = s.pages ∧ after.history = s.history ∧
      after.cards = s.cards.insert cardId card ∧ InsertsReceipt receipt s after := by
  obtain ⟨inserted, hins, h⟩ := bind_eq_ok h
  obtain rfl : inserted = after := Option.some.inj (Except.ok.inj h)
  obtain ⟨hrec, hpages, hhist, hcards⟩ := insertReceipt_eq_ok hins
  exact ⟨hpages, hhist, hcards, hrec⟩

theorem stageCard_eq_ok {current : Page} {sourceRevision : Int} {receipt : Option KeyedReceipt}
    (h : u.stageCard current sourceRevision receipt cardId s = .ok (some after)) :
    ∃ card : RevisionCard, card.pageId = u.pageId ∧ card.content = u.req.content ∧
      after.pages = s.pages ∧ after.history = s.history ∧
      after.cards = s.cards.insert cardId card ∧ InsertsReceipt receipt s after := by
  obtain ⟨_, -, h⟩ := bind_eq_ok h
  unfold PageUpdate.upsertRevisionCard at h
  split at h
  · unfold upsertCardAtPageFence at h
    split at h
    · obtain ⟨hpages, hhist, hcards, hrec⟩ := upsertCard_eq_ok h
      exact ⟨_, rfl, rfl, hpages, hhist, hcards, hrec⟩
    · cases h
  · obtain ⟨hpages, hhist, hcards, hrec⟩ := upsertCard_eq_ok h
    exact ⟨_, rfl, rfl, hpages, hhist, hcards, hrec⟩

theorem acknowledgeCompile_eq_ok {current : Page} {receipt : Option KeyedReceipt}
    (h : u.acknowledgeCompile current receipt s = .ok (some after)) :
    ∃ page, s.pages.lookup u.pageId = some page ∧
      after.pages = s.pages.insert u.pageId page.compiled ∧ after.history = s.history ∧
      after.cards = s.cards ∧ InsertsReceipt receipt s after := by
  unfold PageUpdate.acknowledgeCompile at h
  split at h
  all_goals exact acknowledge_eq_ok h

theorem commitContent_eq_ok {current : Page} {changelog : Changelog} {receipt : Option KeyedReceipt}
    (h : u.commitContent current changelog receipt ambient s = .ok (some after)) :
    ∃ page, Landed (u.contentUpdate current changelog receipt) u.pageId ambient.now page s
      after := by
  obtain ⟨_, -, h⟩ := bind_eq_ok h
  exact tryUpdatePageContent_some h

theorem stage_effect (current : Page) (sourceRevision : Int) :
    Effect sha256 u ambient s (.stage current sourceRevision)
      (u.stage sha256 ambient s current sourceRevision) := by
  unfold PageUpdate.stage
  dsimp only
  split
  · rename_i after hstaged
    obtain ⟨card, hid, hcont, hpages, hhist, hcards, hrec⟩ := stageCard_eq_ok hstaged
    exact .staged current sourceRevision card after rfl hid hcont hpages hhist hcards
      hrec
  · exact .idle _
  · exact .idle _

theorem clear_effect (current : Page) (result : WriteResult) (replayed : Bool) :
    Effect sha256 u ambient s (.clear current result replayed) (u.clear s current result) := by
  change Effect sha256 u ambient s (.clear current result replayed)
    (.answered (.ok result), (u.clearStaleness current s).getD s)
  cases hcleared : u.clearStaleness current s with
  | none => exact .idle _
  | some after =>
    have hpage : ∃ page, s.pages.lookup u.pageId = some page ∧
        after = s.setPage u.pageId page.compiled := by
      unfold PageUpdate.clearStaleness at hcleared
      split at hcleared
      all_goals exact clearStale_eq_some hcleared
    obtain ⟨page, hpage, rfl⟩ := hpage
    exact .cleared current result replayed page rfl hpage (by rw [hcleared]; rfl)

theorem acknowledge_effect (current : Page) : Effect sha256 u ambient s (.acknowledge current)
      (u.acknowledgeStep sha256 ambient s current) := by
  unfold PageUpdate.acknowledgeStep
  split
  · rename_i after hacknowledged
    obtain ⟨page, hpage, hpages, hhist, hcards, hrec⟩ :=
      acknowledgeCompile_eq_ok hacknowledged
    exact .acknowledged current page after rfl hpage hpages hhist hcards hrec
  · exact .idle _
  · exact .idle _

theorem terminal_effect (result : WriteResult) :
    Effect sha256 u ambient s (.terminal result) (u.terminal sha256 ambient s result) := by
  unfold PageUpdate.terminal
  split
  · exact .idle _
  · rename_i receipt hrec
    split
    · rename_i after hrecorded
      unfold recordOperationReceipt insertReceipt at hrecorded
      dsimp only at hrecorded
      split at hrecorded
      · cases hrecorded
      · rename_i hfresh
        rw [← Except.ok.inj hrecorded]
        exact .recorded result receipt rfl hrec (Option.not_isSome_iff_eq_none.mp hfresh)
    · exact .idle _

theorem write_effect (current : Page) (attempt : Nat) (changelog : Changelog) :
    Effect sha256 u ambient s (.write current attempt changelog)
      (u.write sha256 ambient s current attempt changelog) := by
  unfold PageUpdate.write
  split
  · rename_i after hwrote
    obtain ⟨page, hland⟩ := commitContent_eq_ok hwrote
    exact .wrote current attempt changelog page after rfl hland
  · exact .idle _
  · exact .idle _

/-- Every step of a delivery is one of its transactions, or a read. -/
theorem advance_effect (sha256 : List String → String) (u : PageUpdate) (ambient : Ambient)
    (s : Store) (position : Position) :
    Effect sha256 u ambient s position (u.advance sha256 ambient s position) := by
  cases position with
  | stage current sourceRevision => exact stage_effect current sourceRevision
  | clear current result replayed => exact clear_effect current result replayed
  | acknowledge current => exact acknowledge_effect current
  | terminal result => exact terminal_effect result
  | write current attempt changelog => exact write_effect current attempt changelog
  | start | load _ | readRevision _ | replay _ _ | readChangelog _ _ | reload _ _
  | answered _ => exact .idle _

theorem Effect.moves {result : Position × Store}
    (h : Effect sha256 u ambient s position result) : s.Moves result.2 := by
  cases h with
  | idle following => exact .refl s
  | recorded result receipt _ _ _ => exact .of_pages_eq rfl
  | staged _ _ card _ _ _ _ hpages _ _ _ => exact .of_pages_eq hpages
  | cleared _ _ _ page _ hpage _ => exact .of_setPage hpage page.moves_compiled
  | acknowledged _ page _ _ hpage hpages _ _ _ =>
    exact .of_insert hpage page.moves_compiled hpages
  | wrote _ _ _ page _ _ hland => exact hland.moves

inductive RewriteEffect (rewrite : Rewrite) (now : Int) (s : Store) (position : RewritePosition) :
    Store → Prop
  | idle : RewriteEffect rewrite now s position s
  | requeued (page : Page) (pageId : String) :
      s.pages.lookup pageId = some page →
      RewriteEffect rewrite now s position (s.setPage pageId
        { page with
          staleReason := some "source_updated"
          refreshBlockedReason := none
          sourceRevision := page.sourceRevision + 1 })
  | discarded (cardId : String) :
      RewriteEffect rewrite now s position { s with cards := s.cards.erase cardId }
  | accepted (cardId : String) (card : RevisionCard) (current : Page) (changelog : Changelog)
      (page : Page) (after : Store) :
      rewrite = .accept cardId → position = .cardWrite card current changelog →
      tryUpdatePageContent (acceptUpdate cardId card current changelog) card.pageId now true s =
        .ok (some after) →
      Landed (acceptUpdate cardId card current changelog) card.pageId now page s after →
      RewriteEffect rewrite now s position after
  | annotated (pageId body citations summary : String) (fence : PageFence) (current : Page)
      (changelog : Changelog) (page : Page) (after : Store) :
      rewrite = .backfill pageId body citations summary →
      position = .backfillWrite fence current changelog →
      tryUpdatePageContent (backfillUpdate body citations fence current changelog) pageId now true
        s = .ok (some after) →
      Landed (backfillUpdate body citations fence current changelog) pageId now page s after →
      RewriteEffect rewrite now s position after

theorem Page.touches_requeued (page : Page) : page.Touches { page with
      staleReason := some "source_updated"
      refreshBlockedReason := none
      sourceRevision := page.sourceRevision + 1 } := by
  refine ⟨rfl, rfl, rfl, ?_, rfl, rfl, rfl, rfl⟩
  change page.sourceRevision ≤ page.sourceRevision + 1
  omega

variable {rewrite : Rewrite}

theorem requeuePage_effect {now : Int} {position : RewritePosition}
    (cardId : String) (card : RevisionCard) :
    RewriteEffect rewrite now s position (requeuePage cardId card s).2 := by
  unfold requeuePage
  split
  · exact .idle
  · rename_i after hstale
    obtain ⟨_, -, hstale⟩ := bind_eq_ok hstale
    rw [← Except.ok.inj hstale]
    unfold updatePage
    split
    · exact .idle
    · rename_i page hpage
      exact .requeued page card.pageId hpage

theorem advance_rewriteEffect (rewrite : Rewrite) (now : Int) (s : Store)
    (position : RewritePosition) :
    RewriteEffect rewrite now s position (rewrite.advance now s position).2 := by
  cases rewrite with
  | accept cardId =>
    cases position with
    | requeue card => exact requeuePage_effect cardId card
    | cardWrite card current changelog =>
      change RewriteEffect _ _ _ _ (writeCard cardId card now s current changelog).2
      unfold writeCard
      split
      · exact .idle
      · exact .idle
      · rename_i after hwrote
        obtain ⟨page, hland⟩ := tryUpdatePageContent_some hwrote
        exact .accepted cardId card current changelog page after rfl rfl hwrote hland
    | discard error => exact .discarded cardId
    | start | loadForCard _ | cardChangelog _ _ | missed _ | outdated _ | outdatedAt _ _ _
    | loadForBackfill _ | backfillChangelog _ _ | backfillWrite _ _ _ | answered _ =>
      exact .idle
  | backfill pageId body citations summary =>
    cases position with
    | backfillWrite fence current changelog =>
      change RewriteEffect _ _ _ _
        (writeBackfill pageId body citations fence now s current changelog).2
      unfold writeBackfill
      split
      · exact .idle
      · exact .idle
      · rename_i after hwrote
        obtain ⟨page, hland⟩ := tryUpdatePageContent_some hwrote
        exact .annotated pageId body citations summary fence current changelog page after rfl
          rfl hwrote hland
    | start | loadForCard _ | cardChangelog _ _ | cardWrite _ _ _ | missed _ | outdated _
    | outdatedAt _ _ _ | requeue _ | discard _ | loadForBackfill _ | backfillChangelog _ _
    | answered _ => exact .idle

theorem RewriteEffect.moves {now : Int} {position : RewritePosition}
    (h : RewriteEffect rewrite now s position after) : s.Moves after := by
  cases h with
  | idle => exact .refl s
  | requeued page pageId hpage =>
    exact .of_setPage hpage page.touches_requeued.moves
  | discarded cardId => exact .of_pages_eq rfl
  | accepted _ _ _ _ page _ _ _ _ hland => exact hland.moves
  | annotated _ _ _ _ _ _ _ page _ _ _ _ hland => exact hland.moves

inductive Stepped (out : Outside) (s : System) : Label → System → Prop
  | readFence (pageId : String) (page : Page) :
      s.store.pages.lookup pageId = some page →
      Stepped out s (.readFence pageId) { s with fences := (pageId, page.fence) :: s.fences }
  | deliver (job : Nat) (write : PageWrite) :
      s.started ≤ job → write.toUpdate.fencesRead s.fences = true →
      write.toUpdate.editedBy ≠ "revision_accept" →
      Stepped out s (.deliver job write)
        { s with
          started := job + 1
          deliveries := s.deliveries.insert job { update := write.toUpdate, position := .start } }
  | advance (job : Nat) (ambient : Ambient) (delivery : Delivery) :
      s.deliveries.lookup job = some delivery →
      Stepped out s (.advance job ambient) (s.advanceDelivery out job ambient delivery)
  | drop (job : Nat) :
      Stepped out s (.drop job) { s with deliveries := s.deliveries.erase job }
  | rewrite (job : Nat) (rewrite : Rewrite) :
      s.rewrites.lookup job = none →
      Stepped out s (.rewrite job rewrite)
        { s with rewrites := s.rewrites.insert job (rewrite, .start) }
  | advanceRewrite (job : Nat) (now : Int) (rewrite : Rewrite) (position : RewritePosition) :
      s.rewrites.lookup job = some (rewrite, position) →
      Stepped out s (.advanceRewrite job now) (s.advanceRewriteJob job now rewrite position)
  | event (event : Event) (now : Int) :
      Stepped out s (.event event now) (s.afterEvent out event now)
  | crash : Stepped out s .crash s.crashed

variable {out : Outside} {label : Label}

theorem Step.stepped {s t : System} (h : Step out s label t) :
    Stepped out s label t := by
  unfold Step next at h
  cases label with
  | readFence pageId =>
    obtain ⟨fence, hfence, rfl⟩ := Option.map_eq_some_iff.mp h
    obtain ⟨page, hpage, rfl⟩ := Option.map_eq_some_iff.mp hfence
    exact .readFence pageId page hpage
  | deliver job write =>
    dsimp only at h
    split at h
    · rename_i hfree
      cases h
      exact .deliver job write hfree.1 hfree.2.1 hfree.2.2
    · cases h
  | advance job ambient =>
    obtain ⟨delivery, hdel, rfl⟩ := Option.map_eq_some_iff.mp h
    exact .advance job ambient delivery hdel
  | drop job =>
    cases h
    exact .drop job
  | rewrite job rewrite =>
    dsimp only at h
    split at h
    · rename_i hfree
      cases h
      exact .rewrite job rewrite hfree
    · cases h
  | advanceRewrite job now =>
    obtain ⟨⟨rewrite, position⟩, hentry, rfl⟩ := Option.map_eq_some_iff.mp h
    exact .advanceRewrite job now rewrite position hentry
  | event event now =>
    cases h
    exact .event event now
  | crash =>
    cases h
    exact .crash

/-- The tables after an event are those of its transaction, or the old ones. -/
theorem afterEvent_store (out : Outside) (s : System) (event : Event) (now : Int) :
    (s.afterEvent out event now).store = s.store ∨
      event.run out.toLowercase now s.store = .ok (s.afterEvent out event now).store := by
  unfold System.afterEvent
  split
  · exact .inl rfl
  · rename_i store hrun
    right
    rw [hrun]
    split <;> rfl

theorem Stepped.moves {s t : System}
    (h : Stepped out s label t) : s.store.Moves t.store := by
  cases h with
  | advance job ambient delivery _ =>
    exact (advance_effect out.sha256 delivery.update ambient s.store delivery.position).moves
  | advanceRewrite job now rewrite position _ =>
    exact (advance_rewriteEffect rewrite now s.store position).moves
  | event event now =>
    obtain hsame | hrun := afterEvent_store out s event now
    · rw [hsame]
      exact .refl s.store
    · exact Event.moves hrun
  | readFence _ _ _ | deliver _ _ _ _ _ | drop _ | rewrite _ _ _ | crash =>
    exact .refl s.store

end Wenlan.Updates
