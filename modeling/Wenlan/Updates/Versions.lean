import Wenlan.Updates.Receipts

/-!
# Versions, changelogs and history

What a transaction may do to the versions of pages: a page keeps its version with its title, body
and changelog, or it gets the next one, with its row of history.
-/

namespace Wenlan.Updates

open Pages

variable {s m t : Store} {pageId : String} {page later : Page}

structure SameVersion (page later : Page) : Prop where
  version : later.version = page.version
  title : later.title = page.title
  content : later.content = page.content
  changelog : later.changelog = page.changelog

def HasRow (s : Store) (pageId : String) (page : Page) : Prop :=
  ∃ editedBy now, s.history.lookup (pageId, page.version) = some (page.historyRow editedBy now)

structure NewVersion (t : Store) (pageId : String) (page later : Page) : Prop where
  version : later.version = page.version + 1
  row : HasRow t pageId later
  changelog : later.changelog = page.changelog ∨
    ∃ entry, entry.version = later.version ∧ Appended page.changelog entry later.changelog

structure Versioned (s t : Store) : Prop where
  pages : ∀ pageId page, s.pages.lookup pageId = some page →
    ∃ later, t.pages.lookup pageId = some later ∧
      (SameVersion page later ∨ NewVersion t pageId page later)
  created : ∀ pageId later, s.pages.lookup pageId = none → t.pages.lookup pageId = some later →
    later.version = 1 ∧ later.changelog = [] ∧
      (s.history.lookup (pageId, 1) = none → HasRow t pageId later)
  history : ∀ key row, s.history.lookup key = some row → t.history.lookup key = some row
  /-- A row of history is new only with the version of its page. -/
  owned : ∀ pageId version, (t.history.lookup (pageId, version)).isSome = true →
    (s.history.lookup (pageId, version)).isSome = true ∨ (t.pages.lookup pageId).isSome = true

theorem SameVersion.refl (page : Page) : SameVersion page page :=
  ⟨rfl, rfl, rfl, rfl⟩

theorem Page.Touches.sameVersion (h : page.Touches later) : SameVersion page later :=
  ⟨h.version, h.title, h.content, h.changelog⟩

variable {editedBy : String}

namespace Versioned

theorem of_eq (hpages : t.pages = s.pages) (hhist : t.history = s.history) : Versioned s t where
  pages := by
    intro pageId page hpage
    exact ⟨page, by rw [hpages]; exact hpage, .inl (.refl page)⟩
  created := by
    intro pageId later hnone hsome
    rw [hpages, hnone] at hsome
    cases hsome
  history := by
    intro key row hrow
    rw [hhist]
    exact hrow
  owned := by
    intro pageId version hrow
    rw [hhist] at hrow
    exact .inl hrow

theorem of_touched (hpage : s.pages.lookup pageId = some page) (hsame : SameVersion page later)
    (hpages : t.pages = s.pages.insert pageId later) (hhist : t.history = s.history) :
    Versioned s t where
  pages := by
    intro other found hfound
    by_cases heq : other = pageId
    · obtain rfl := heq
      obtain rfl : page = found := Option.mem_unique hpage hfound
      exact ⟨later, by rw [hpages, AList.lookup_insert], .inl hsame⟩
    · exact ⟨found, by rw [hpages, AList.lookup_insert_ne heq]; exact hfound, .inl (.refl found)⟩
  created := by
    intro other found hnone hsome
    have hne : other ≠ pageId := by
      rintro rfl
      rw [hpage] at hnone
      cases hnone
    rw [hpages, AList.lookup_insert_ne hne, hnone] at hsome
    cases hsome
  history := by
    intro key row hrow
    rw [hhist]
    exact hrow
  owned := by
    intro other version hrow
    rw [hhist] at hrow
    exact .inl hrow

theorem of_revised {now : Int} (hpage : s.pages.lookup pageId = some page)
    (hversi : later.version = page.version + 1) (hchang : later.changelog = page.changelog ∨
      ∃ entry, entry.version = later.version ∧ Appended page.changelog entry later.changelog)
    (hfresh : s.history.lookup (pageId, later.version) = none)
    (hpages : t.pages = s.pages.insert pageId later) (hhist : t.history =
      s.history.insert (pageId, later.version) (later.historyRow editedBy now)) :
    Versioned s t where
  pages := by
    intro other found hfound
    by_cases heq : other = pageId
    · obtain rfl := heq
      obtain rfl : page = found := Option.mem_unique hpage hfound
      have hrow : HasRow t other later := ⟨editedBy, now, by rw [hhist, AList.lookup_insert]⟩
      exact ⟨later, by rw [hpages, AList.lookup_insert], .inr ⟨hversi, hrow, hchang⟩⟩
    · exact ⟨found, by rw [hpages, AList.lookup_insert_ne heq]; exact hfound, .inl (.refl found)⟩
  created := by
    intro other found hnone hsome
    have hne : other ≠ pageId := by
      rintro rfl
      rw [hpage] at hnone
      cases hnone
    rw [hpages, AList.lookup_insert_ne hne, hnone] at hsome
    cases hsome
  history := by
    intro key row hrow
    have hne : key ≠ (pageId, later.version) := by
      rintro rfl
      rw [hfresh] at hrow
      cases hrow
    rw [hhist, AList.lookup_insert_ne hne]
    exact hrow
  owned := by
    intro other version hrow
    by_cases heq : (other, version) = (pageId, later.version)
    · obtain ⟨rfl, rfl⟩ := Prod.mk.inj heq
      right
      rw [hpages, AList.lookup_insert]
      rfl
    · rw [hhist, AList.lookup_insert_ne heq] at hrow
      exact .inl hrow

theorem isSome_pages (h : Versioned s t) (hsome : (s.pages.lookup pageId).isSome) :
    (t.pages.lookup pageId).isSome := by
  obtain ⟨page, hpage⟩ := Option.isSome_iff_exists.mp hsome
  obtain ⟨later, hlater, -⟩ := h.pages pageId page hpage
  rw [hlater]
  rfl

theorem hasRow (h : Versioned s t) (hrow : HasRow s pageId page) : HasRow t pageId page := by
  obtain ⟨editedBy, now, hthere⟩ := hrow
  exact ⟨editedBy, now, h.history _ _ hthere⟩

theorem trans_disjoint (h : Versioned s m) (h' : Versioned m t)
    (hdisj : ∀ pageId, m.pages.lookup pageId = s.pages.lookup pageId ∨
      t.pages.lookup pageId = m.pages.lookup pageId)
    (hold : ∀ pageId, s.pages.lookup pageId = none → t.pages.lookup pageId = none) :
    Versioned s t where
  pages := by
    intro pageId page hpage
    obtain hsame | hsame := hdisj pageId
    · obtain ⟨later, hlater, hkept | hnew⟩ := h'.pages pageId page (hsame.trans hpage)
      · exact ⟨later, hlater, .inl hkept⟩
      · exact ⟨later, hlater, .inr hnew⟩
    · obtain ⟨later, hlater, hkept | hnew⟩ := h.pages pageId page hpage
      · exact ⟨later, hsame.trans hlater, .inl hkept⟩
      · exact ⟨later, hsame.trans hlater, .inr ⟨hnew.version, h'.hasRow hnew.row, hnew.changelog⟩⟩
  created := by
    intro pageId later hnone hsome
    rw [hold pageId hnone] at hsome
    cases hsome
  history := fun key row hrow => h'.history key row (h.history key row hrow)
  owned := by
    intro pageId version hrow
    obtain hmiddl | hthere := h'.owned pageId version hrow
    · obtain hstart | hpage := h.owned pageId version hmiddl
      · exact .inl hstart
      · exact .inr (h'.isSome_pages hpage)
    · exact .inr hthere

end Versioned

/-! ## Events -/

theorem commitVersion_eq_ok {now : Int} (h : commitVersion pageId later editedBy now s = .ok t) :
    s.history.lookup (pageId, later.version + 1) = none ∧
      t.pages = s.pages.insert pageId { later with version := later.version + 1 } ∧
      t.history = s.history.insert (pageId, later.version + 1)
        (({ later with version := later.version + 1 } : Page).historyRow editedBy now) := by
  obtain ⟨hfresh, rfl⟩ := appendPageHistory_eq_ok (s.lookup_setPage pageId _) h
  exact ⟨hfresh, rfl, rfl⟩

theorem commitVersion_versioned {now : Int}
    (hpage : s.pages.lookup pageId = some page) (hrev : page.Revises later)
    (h : commitVersion pageId later editedBy now s = .ok t) : Versioned s t := by
  obtain ⟨hfresh, hpages, hhist⟩ := commitVersion_eq_ok h
  refine .of_revised hpage ?_ ?_ hfresh hpages hhist
  · rw [hrev.version]
  · obtain hkept | ⟨entry, hentry, happ⟩ := hrev.changelog
    · exact .inl hkept
    · refine .inr ⟨entry, ?_, happ⟩
      rw [hentry, hrev.version]

theorem insertFirstHistory_versioned {now : Int} {new : NewPage}
    (hfresh : s.pages.lookup new.pageId = none) :
    Versioned s (insertFirstHistory new.pageId new.row now (s.setPage new.pageId new.row)) := by
  have hpages : (insertFirstHistory new.pageId new.row now
      (s.setPage new.pageId new.row)).pages = s.pages.insert new.pageId new.row := by
    unfold insertFirstHistory
    split <;> rfl
  have hother : ∀ key, key ≠ (new.pageId, 1) → (insertFirstHistory new.pageId new.row now
        (s.setPage new.pageId new.row)).history.lookup key = s.history.lookup key := by
    intro key hne
    unfold insertFirstHistory
    split
    · rfl
    · exact AList.lookup_insert_ne hne
  refine ⟨?_, ?_, ?_, ?_⟩
  · intro pageId page hpage
    have hne : pageId ≠ new.pageId := by
      rintro rfl
      rw [hpage] at hfresh
      cases hfresh
    exact ⟨page, by rw [hpages, AList.lookup_insert_ne hne]; exact hpage, .inl (.refl page)⟩
  · intro pageId later hnone hlater
    by_cases heq : pageId = new.pageId
    · obtain rfl := heq
      rw [hpages, AList.lookup_insert] at hlater
      cases hlater
      refine ⟨rfl, rfl, fun hempty => ⟨"create", now, ?_⟩⟩
      unfold insertFirstHistory
      have hclear : ¬ ((s.setPage new.pageId new.row).history.lookup
          (new.pageId, new.row.version)).isSome := by
        rw [Store.setPage_history]
        change ¬ (s.history.lookup (new.pageId, 1)).isSome
        rw [hempty]
        simp
      rw [if_neg hclear]
      exact AList.lookup_insert _
    · rw [hpages, AList.lookup_insert_ne heq, hnone] at hlater
      cases hlater
  · intro key row hrow
    by_cases heq : key = (new.pageId, 1)
    · obtain rfl := heq
      unfold insertFirstHistory
      have hthere : ((s.setPage new.pageId new.row).history.lookup
          (new.pageId, new.row.version)).isSome := by
        rw [Store.setPage_history]
        change (s.history.lookup (new.pageId, 1)).isSome
        rw [hrow]
        rfl
      rw [if_pos hthere]
      exact hrow
    · rw [hother key heq]
      exact hrow
  · intro pageId version hrow
    by_cases heq : (pageId, version) = (new.pageId, 1)
    · obtain ⟨rfl, rfl⟩ := Prod.mk.inj heq
      right
      rw [hpages, AList.lookup_insert]
      rfl
    · rw [hother _ heq] at hrow
      exact .inl hrow

theorem EventEffect.versioned (h : EventEffect s false t) : Versioned s t := by
  cases h with
  | kept after hpages hhist _ => exact .of_eq hpages hhist
  | created new now hfresh => exact insertFirstHistory_versioned hfresh
  | touched pageId page later hpage htouches =>
    exact .of_touched hpage htouches.sameVersion rfl rfl
  | committed _ _ _ _ _ _ hpage hrev hcommit =>
    exact commitVersion_versioned hpage hrev hcommit
  | cutOff _ _ hinterrupted _ => cases hinterrupted
  | merged survivorId absorbedId now survivor later absorbed middle after hne hpage hrev
      hmiddl hthere hafter =>
      have hfirst := commitVersion_versioned hpage hrev hmiddl
      have hsec := commitVersion_versioned hthere absorbed.revises_archived hafter
      obtain ⟨-, hmiddlePages, -⟩ := commitVersion_eq_ok hmiddl
      obtain ⟨-, haft, -⟩ := commitVersion_eq_ok hafter
      refine hfirst.trans_disjoint hsec (fun pageId => ?_) (fun pageId hnone => ?_)
      · by_cases heq : pageId = survivorId
        · right
          rw [haft, AList.lookup_insert_ne (heq ▸ Ne.symm hne)]
        · left
          rw [hmiddlePages, AList.lookup_insert_ne heq]
      · have hsurv : pageId ≠ survivorId := by
          rintro rfl
          rw [hpage] at hnone
          cases hnone
        have hmid : middle.pages.lookup pageId = none := by
          rw [hmiddlePages, AList.lookup_insert_ne hsurv]
          exact hnone
        have habs : pageId ≠ absorbedId := by
          rintro rfl
          rw [hthere] at hmid
          cases hmid
        rw [haft, AList.lookup_insert_ne habs]
        exact hmid

/-- The changelogs ascend to the versions of their pages, and no history is of a page that is not
there. -/
structure Sound (s : Store) : Prop where
  changelogs : ∀ pageId page, s.pages.lookup pageId = some page →
    Ascends page.changelog page.version
  owned : ∀ pageId version, (s.history.lookup (pageId, version)).isSome = true →
    (s.pages.lookup pageId).isSome = true

theorem NewVersion.ascends (h : NewVersion t pageId page later)
    (hold : Ascends page.changelog page.version) : Ascends later.changelog later.version := by
  rw [h.version]
  obtain hkept | ⟨entry, hentry, happ⟩ := h.changelog
  · rw [hkept]
    exact hold.mono (by omega)
  · exact hold.append (by rw [hentry, h.version]) happ

theorem Sound.of_versioned (h : Sound s) (hvers : Versioned s t) : Sound t where
  changelogs := by
    intro pageId later hlater
    cases hbefore : s.pages.lookup pageId with
    | none =>
      obtain ⟨-, hempty, -⟩ := hvers.created pageId later hbefore hlater
      rw [hempty]
      exact ⟨.nil, fun entry hentry => by cases hentry⟩
    | some page =>
      have hasc := h.changelogs pageId page hbefore
      obtain ⟨found, hfound, hsame | hnew⟩ := hvers.pages pageId page hbefore
      · obtain rfl : later = found := Option.mem_unique hlater hfound
        rw [hsame.changelog, hsame.version]
        exact hasc
      · obtain rfl : later = found := Option.mem_unique hlater hfound
        exact hnew.ascends hasc
  owned := by
    intro pageId version hrow
    obtain hold | hthere := hvers.owned pageId version hrow
    · exact hvers.isSome_pages (h.owned pageId version hold)
    · exact hthere

/-- Every version of a page after `base` has its row of history, the last with the title and the
body that the page has. -/
structure Recorded (base : String → Int) (s : Store) : Prop where
  rows : ∀ pageId page, s.pages.lookup pageId = some page → ∀ version, base pageId < version →
    version ≤ page.version → ∃ row, s.history.lookup (pageId, version) = some row ∧
      (version = page.version → row.title = page.title ∧ row.content = page.content)
  fresh : ∀ pageId, s.pages.lookup pageId = none → base pageId = 0

theorem Recorded.of_versioned {base : String → Int} (h : Recorded base s) (hsound : Sound s)
    (hvers : Versioned s t) : Recorded base t where
  rows := by
    intro pageId later hlater version hbase hversi
    cases hbefore : s.pages.lookup pageId with
    | none =>
      obtain ⟨hone, -, hcreat⟩ := hvers.created pageId later hbefore hlater
      have hempty : s.history.lookup (pageId, 1) = none := by
        rw [← Option.not_isSome_iff_eq_none]
        intro hsome
        have howned := hsound.owned pageId 1 hsome
        rw [hbefore] at howned
        cases howned
      have hzero := h.fresh pageId hbefore
      obtain ⟨editedBy, now, hrow⟩ := hcreat hempty
      obtain rfl : version = later.version := by omega
      exact ⟨_, hrow, fun _ => ⟨rfl, rfl⟩⟩
    | some page =>
      obtain ⟨found, hfound, hcase⟩ := hvers.pages pageId page hbefore
      obtain rfl : later = found := Option.mem_unique hlater hfound
      obtain hsame | hnew := hcase
      · rw [hsame.version] at hversi ⊢
        obtain ⟨row, hrow, hlast⟩ := h.rows pageId page hbefore version hbase hversi
        rw [hsame.title, hsame.content]
        exact ⟨row, hvers.history _ _ hrow, hlast⟩
      · have hnext := hnew.version
        by_cases hlast : version = later.version
        · obtain ⟨editedBy, now, hrow⟩ := hnew.row
          rw [hlast]
          exact ⟨_, hrow, fun _ => ⟨rfl, rfl⟩⟩
        · have hle : version ≤ page.version := by omega
          obtain ⟨row, hrow, -⟩ := h.rows pageId page hbefore version hbase hle
          exact ⟨row, hvers.history _ _ hrow, fun heq => absurd heq hlast⟩
  fresh := by
    intro pageId hnone
    apply h.fresh
    rw [← Option.not_isSome_iff_eq_none]
    intro hsome
    have hthere := hvers.isSome_pages hsome
    rw [hnone] at hthere
    cases hthere

end Wenlan.Updates
