import Wenlan.Updates.Events

/-!
# What the cap takes from a changelog

The entries of a person stay; of the others the oldest go first.
-/

namespace Wenlan.Updates

open ChangelogEntry

def ChangelogEntry.isPersonal (entry : ChangelogEntry) : Bool :=
  isHumanEdit entry.editedBy

def ChangelogEntry.isTrimmed (entry : ChangelogEntry) : Bool :=
  !isHumanEdit entry.editedBy

section

variable (excess : Nat) (entries : Changelog)

theorem trimChangelog_sublist : (trimChangelog excess entries).Sublist entries := by
  fun_induction trimChangelog excess entries with
  | case1 entries => exact .refl entries
  | case2 excess => exact .refl []
  | case3 excess entry entries _ ih => exact ih.cons_cons entry
  | case4 excess entry entries _ ih => exact ih.cons entry

theorem filter_isPersonal_trimChangelog :
    (trimChangelog excess entries).filter isPersonal =
      entries.filter isPersonal := by
  fun_induction trimChangelog excess entries with
  | case1 entries => rfl
  | case2 excess => rfl
  | case3 excess entry entries hpersonal ih =>
    have hkept : entry.isPersonal := hpersonal
    rw [List.filter_cons_of_pos hkept, List.filter_cons_of_pos hkept, ih]
  | case4 excess entry entries hpersonal ih =>
    have hdrop : ¬ entry.isPersonal := hpersonal
    rw [List.filter_cons_of_neg hdrop, ih]

theorem filter_isTrimmed_trimChangelog :
    (trimChangelog excess entries).filter isTrimmed =
      (entries.filter isTrimmed).drop excess := by
  fun_induction trimChangelog excess entries with
  | case1 entries => rfl
  | case2 excess => rfl
  | case3 excess entry entries hpersonal ih =>
    have hkept : ¬ entry.isTrimmed := by
      unfold isTrimmed
      rw [hpersonal]
      decide
    rw [List.filter_cons_of_neg hkept, List.filter_cons_of_neg hkept, ih]
  | case4 excess entry entries hpersonal ih =>
    have hdrop : entry.isTrimmed := by
      unfold isTrimmed
      rw [Bool.eq_false_iff.mpr hpersonal]
      rfl
    rw [List.filter_cons_of_pos hdrop, List.drop_succ_cons, ih]

end

structure Appended (old : Changelog) (entry : ChangelogEntry) (new : Changelog) : Prop where
  sublist : new.Sublist (old ++ [entry])
  personal : new.filter isPersonal = (old ++ [entry]).filter isPersonal
  oldest : new.filter isTrimmed = ((old ++ [entry]).filter isTrimmed).drop
      ((old ++ [entry]).length - defaultChangelogCap)

theorem appended_appendChangelogEntry (old : Changelog) (entry : ChangelogEntry) :
    Appended old entry (appendChangelogEntry old entry) where
  sublist := trimChangelog_sublist _ _
  personal := filter_isPersonal_trimChangelog _ _
  oldest := filter_isTrimmed_trimChangelog _ _

structure Ascends (changelog : Changelog) (version : Int) : Prop where
  increasing : changelog.Pairwise fun earlier later => earlier.version < later.version
  bounded : ∀ entry ∈ changelog, entry.version ≤ version

theorem Ascends.mono {changelog : Changelog} {version later : Int} (h : Ascends changelog version)
    (hle : version ≤ later) : Ascends changelog later where
  increasing := h.increasing
  bounded := fun entry hentry => (h.bounded entry hentry).trans hle

theorem Ascends.append {old new : Changelog} {version : Int} {entry : ChangelogEntry}
    (h : Ascends old version) (hentry : entry.version = version + 1)
    (hnew : Appended old entry new) : Ascends new (version + 1) where
  increasing := by
    refine List.Pairwise.sublist hnew.sublist (List.pairwise_append.mpr ?_)
    refine ⟨h.increasing, List.pairwise_singleton _ entry, ?_⟩
    intro earlier hearlier later hlater
    rw [List.mem_singleton.mp hlater, hentry]
    have hbound := h.bounded earlier hearlier
    omega
  bounded := by
    intro found hfound
    obtain hold | hlast := List.mem_append.mp (hnew.sublist.subset hfound)
    · have hbound := h.bounded found hold
      omega
    · rw [List.mem_singleton.mp hlast, hentry]

end Wenlan.Updates

/-!
## What an event does to the tables

`EventEffect` lists the ways an event can go, with all that they change of the pages and their
history.  No event inserts or removes a receipt.
-/

namespace Wenlan.Updates

open Pages

/-- A row after a transaction that leaves its version. -/
structure Page.Touches (page later : Page) : Prop where
  incarnation : later.incarnation = page.incarnation
  creationKind : later.creationKind = page.creationKind
  userEdited : later.userEdited = page.userEdited
  sourceRevision : page.sourceRevision ≤ later.sourceRevision
  version : later.version = page.version
  title : later.title = page.title
  content : later.content = page.content
  changelog : later.changelog = page.changelog

/-- A row that is to be the next version of a page, before its version goes up. -/
structure Page.Revises (page later : Page) : Prop where
  incarnation : later.incarnation = page.incarnation
  creationKind : later.creationKind = page.creationKind
  userEdited : later.userEdited = page.userEdited
  sourceRevision : page.sourceRevision ≤ later.sourceRevision
  version : later.version = page.version
  changelog : later.changelog = page.changelog ∨
    ∃ entry, entry.version = page.version + 1 ∧ Appended page.changelog entry later.changelog

theorem Page.Touches.refl (page : Page) : page.Touches page :=
  ⟨rfl, rfl, rfl, le_rfl, rfl, rfl, rfl, rfl⟩

/-- The row that the first statement of `archive_page` leaves. -/
def Page.archived (page : Page) : Page :=
  { page with status := "archived" }

theorem Page.revises_archived (page : Page) : page.Revises page.archived :=
  ⟨rfl, rfl, rfl, le_rfl, rfl, .inl rfl⟩

inductive EventEffect (s : Store) (interrupted : Bool) : Store → Prop
  | kept (after : Store) :
      after.pages = s.pages → after.history = s.history → after.receipts = s.receipts →
      EventEffect s interrupted after
  | created (new : NewPage) (now : Int) :
      s.pages.lookup new.pageId = none →
      EventEffect s interrupted
        (insertFirstHistory new.pageId new.row now (s.setPage new.pageId new.row))
  | touched (pageId : String) (page later : Page) :
      s.pages.lookup pageId = some page → page.Touches later →
      EventEffect s interrupted (s.setPage pageId later)
  | committed (pageId editedBy : String) (now : Int) (page later : Page) (after : Store) :
      s.pages.lookup pageId = some page → page.Revises later →
      commitVersion pageId later editedBy now s = .ok after → EventEffect s interrupted after
  | cutOff (pageId : String) (page : Page) :
      interrupted = true → s.pages.lookup pageId = some page →
      EventEffect s interrupted
        (s.setPage pageId { page.archived with version := page.version + 1 })
  | merged (survivorId absorbedId : String) (now : Int) (survivor later absorbed : Page)
      (middle after : Store) :
      absorbedId ≠ survivorId → s.pages.lookup survivorId = some survivor →
      survivor.Revises later →
      commitVersion survivorId later "page_merge" now s = .ok middle →
      middle.pages.lookup absorbedId = some absorbed →
      commitVersion absorbedId absorbed.archived "archive" now middle = .ok after →
      EventEffect s interrupted after

variable {s after : Store} {interrupted : Bool} {toLowercase : String → String} {now : Int}

theorem EventEffect.refl (s : Store) : EventEffect s interrupted s :=
  .kept s rfl rfl rfl

theorem appendPageHistory_pages {pageId editedBy : String}
    (h : appendPageHistory pageId editedBy now s = .ok after) : after.pages = s.pages := by
  unfold appendPageHistory at h
  split at h
  · rw [← Except.ok.inj h]
  · split at h
    · cases h
    · rw [← Except.ok.inj h]

theorem updatePage_effect (pageId : String) (set : Page → Page)
    (hset : ∀ page : Page, page.Touches (set page)) (s : Store) :
    EventEffect s interrupted (updatePage pageId set s) := by
  unfold updatePage
  split
  · exact .refl s
  · rename_i page hpage
    exact .touched pageId page (set page) hpage (hset page)

theorem touches_resourced (sourceIds : List String) (page : Page) :
    page.Touches (resourced sourceIds page) := by
  refine ⟨rfl, rfl, rfl, ?_, rfl, rfl, rfl, rfl⟩
  change page.sourceRevision ≤ page.sourceRevision + 1
  omega

theorem insertPage_effect {new : NewPage} (h : insertPage new now s = .ok after) :
    EventEffect s interrupted after := by
  unfold insertPage at h
  split at h
  · cases h
  · rename_i hfresh
    rw [← Except.ok.inj h]
    exact .created new now (Option.not_isSome_iff_eq_none.mp hfresh)

theorem revises_retitled (page : Page) (title : String) (now : Int) :
    page.Revises (retitled page title now) :=
  ⟨rfl, rfl, rfl, le_rfl, rfl,
    .inr ⟨renameEntry page title now, rfl, appended_appendChangelogEntry _ _⟩⟩

theorem renamePage_effect {request : Rename}
    (h : renamePage toLowercase request now s = .ok after) : EventEffect s interrupted after := by
  obtain ⟨title, -, h⟩ := bind_eq_ok h
  obtain ⟨_, -, h⟩ := bind_eq_ok h
  obtain ⟨page, hpage, h⟩ := bind_eq_ok h
  obtain ⟨_, -, h⟩ := bind_eq_ok h
  obtain ⟨_, -, h⟩ := bind_eq_ok h
  obtain ⟨_, -, h⟩ := bind_eq_ok h
  split at h
  · rw [← Except.ok.inj h]
    exact .refl s
  · obtain ⟨_, -, h⟩ := bind_eq_ok h
    unfold requirePage at hpage
    split at hpage
    · rename_i found hfound
      obtain rfl := Except.ok.inj hpage
      exact .committed _ _ _ _ _ _ hfound (revises_retitled found title now) h
    · cases hpage

variable {sourceIds : List String}

theorem linkPageSource_effect {pageId : String}
    (h : linkPageSource pageId sourceIds s = .ok after) : EventEffect s interrupted after := by
  obtain ⟨_, -, h⟩ := bind_eq_ok h
  split at h
  · cases h
  · rename_i page hpage
    split at h
    · rw [← Except.ok.inj h]
      exact .touched pageId page _ hpage (touches_resourced sourceIds page)
    · rw [← Except.ok.inj h]
      exact .refl s

theorem replacePageSources_effect {pageId : String} {moved : Bool}
    (h : replacePageSources pageId sourceIds moved s = .ok after) :
    EventEffect s interrupted after := by
  obtain ⟨_, -, h⟩ := bind_eq_ok h
  split at h
  · rw [← Except.ok.inj h]
    exact .refl s
  · rename_i page hpage
    split at h
    · rw [← Except.ok.inj h]
      exact .touched pageId page _ hpage (touches_resourced sourceIds page)
    · rw [← Except.ok.inj h]
      exact .refl s

theorem setPageStale_effect {pageId reason : String}
    (h : setPageStale pageId reason s = .ok after) : EventEffect s interrupted after := by
  obtain ⟨_, -, h⟩ := bind_eq_ok h
  rw [← Except.ok.inj h]
  refine updatePage_effect pageId _ (fun page => ?_) s
  refine ⟨rfl, rfl, rfl, ?_, rfl, rfl, rfl, rfl⟩
  change page.sourceRevision ≤ page.sourceRevision + 1
  omega

theorem incrementPageSourcesUpdated_effect {pageId : String}
    (h : incrementPageSourcesUpdated pageId s = .ok after) : EventEffect s interrupted after := by
  obtain ⟨_, -, h⟩ := bind_eq_ok h
  rw [← Except.ok.inj h]
  refine updatePage_effect pageId _ (fun page => ?_) s
  refine ⟨rfl, rfl, rfl, ?_, rfl, rfl, rfl, rfl⟩
  change page.sourceRevision ≤ page.sourceRevision + 1
  omega

theorem setPageReviewRequired_effect (pageId : String) (required : Bool) (s : Store) :
    EventEffect s interrupted (setPageReviewRequired pageId required s) := by
  refine updatePage_effect pageId _ (fun page => ?_) s
  split
  · exact .refl page
  · exact ⟨rfl, rfl, rfl, le_rfl, rfl, rfl, rfl, rfl⟩

theorem SourceReplacement.revises_applied (r : SourceReplacement) (page : Page) :
    page.Revises (r.applied page) := by
  refine ⟨rfl, rfl, rfl, ?_, rfl, .inl rfl⟩
  change page.sourceRevision ≤ page.sourceRevision + 1
  omega

theorem replaceSourcePage_effect {r : SourceReplacement}
    (h : replaceSourcePage r now s = .ok after) : EventEffect s interrupted after := by
  unfold replaceSourcePage at h
  split at h
  · cases h
  · rename_i page hpage
    exact .committed _ _ _ _ _ _ (Option.filter_eq_some_iff.mp hpage).1 (r.revises_applied page)
      h

theorem archivePage_effect {pageId : String}
    (h : archivePage pageId now interrupted s = .ok after) : EventEffect s interrupted after := by
  obtain ⟨_, -, h⟩ := bind_eq_ok h
  obtain ⟨_, -, h⟩ := bind_eq_ok h
  split at h
  · rw [← Except.ok.inj h]
    exact .refl s
  · rename_i archived harchived
    obtain ⟨page, hpage, rfl⟩ := Option.map_eq_some_iff.mp harchived
    have hthere := (Option.filter_eq_some_iff.mp hpage).1
    split at h
    · rename_i hinter
      rw [← Except.ok.inj h]
      exact .cutOff pageId page hinter hthere
    · exact .committed pageId "archive" now page page.archived after hthere page.revises_archived h

theorem pageMergeRow_eq_ok {pageId : String} {page : Page}
    (h : pageMergeRow pageId s = .ok page) : s.pages.lookup pageId = some page := by
  unfold pageMergeRow at h
  split at h
  · rename_i found hfound
    rw [hfound, Except.ok.inj h]
  · cases h

theorem PageMerge.revises_surviving (m : PageMerge) (survivor absorbed : Page) :
    survivor.Revises (m.surviving survivor absorbed) := by
  refine ⟨rfl, rfl, rfl, ?_, rfl, .inl rfl⟩
  change survivor.sourceRevision ≤ survivor.sourceRevision + 1
  omega

theorem acceptPageMerge_effect {m : PageMerge} (h : acceptPageMerge m now s = .ok after) :
    EventEffect s interrupted after := by
  obtain ⟨_, hdist, h⟩ := bind_eq_ok h
  obtain ⟨survivor, hsurv, h⟩ := bind_eq_ok h
  obtain ⟨absorbed, habs, h⟩ := bind_eq_ok h
  obtain ⟨_, -, h⟩ := bind_eq_ok h
  obtain ⟨_, -, h⟩ := bind_eq_ok h
  obtain ⟨middle, hmiddl, h⟩ := bind_eq_ok h
  have hne : m.absorbedId ≠ m.survivorId := Ne.symm (refuseIf_eq_ok hdist)
  have hthere : middle.pages.lookup m.absorbedId = some absorbed := by
    rw [appendPageHistory_pages hmiddl, Store.lookup_setPage_ne _ _ hne]
    exact pageMergeRow_eq_ok habs
  exact .merged m.survivorId m.absorbedId now survivor _ absorbed middle after hne
    (pageMergeRow_eq_ok hsurv) (m.revises_surviving survivor absorbed) hmiddl hthere h

theorem Event.effect {event : Event} (h : event.run toLowercase now s = .ok after) :
    EventEffect s event.isInterrupted after := by
  cases event with
  | insertPage new => exact insertPage_effect h
  | renamePage request => exact renamePage_effect h
  | linkPageSource pageId sourceIds => exact linkPageSource_effect h
  | replacePageSources pageId sourceIds moved => exact replacePageSources_effect h
  | setPageStale pageId reason => exact setPageStale_effect h
  | incrementPageSourcesUpdated pageId => exact incrementPageSourcesUpdated_effect h
  | setPageRefreshBlockedReason pageId reason =>
    cases h
    refine updatePage_effect pageId _ (fun page => ?_) s
    exact ⟨rfl, rfl, rfl, le_rfl, rfl, rfl, rfl, rfl⟩
  | setPageReviewRequired pageId required =>
    cases h
    exact setPageReviewRequired_effect pageId required s
  | replaceSourcePage replacement => exact replaceSourcePage_effect h
  | archivePage pageId interrupted => exact archivePage_effect h
  | acceptPageMerge merge => exact acceptPageMerge_effect h
  | dismissCard cardId =>
    cases h
    exact .kept _ rfl rfl rfl

end Wenlan.Updates
