import Wenlan.Updates.OperationSafety
import Wenlan.Updates.Versions

/-!
# Versions over a run

The changelog that a write carries was computed from the one its page had at the version that
was loaded.  Where the write lands on that version, nothing of the changelog is lost.
-/

namespace Wenlan.Updates

open Pages PageUpdate

variable {sha256 : List String → String} {u : PageUpdate} {ambient : Ambient} {s t : Store}
  {position : Position} {now : Int}

/-! ## What is about to be written -/

/-- The row that was loaded for a write, and the changelog once it was computed. -/
structure PendingWrite where
  pageId : String
  current : Page
  changelog : Option Changelog

def PageUpdate.pending (u : PageUpdate) : Position → Option PendingWrite
  | .readChangelog current _ => some { pageId := u.pageId, current, changelog := none }
  | .write current _ changelog =>
    some { pageId := u.pageId, current, changelog := some changelog }
  | _ => none

def Rewrite.pending : Rewrite → RewritePosition → Option PendingWrite
  | .accept _, .cardChangelog card current =>
    some { pageId := card.pageId, current, changelog := none }
  | .accept _, .cardWrite card current changelog =>
    some { pageId := card.pageId, current, changelog := some changelog }
  | .backfill pageId _ _ _, .backfillChangelog _ current =>
    some { pageId, current, changelog := none }
  | .backfill pageId _ _ _, .backfillWrite _ current changelog =>
    some { pageId, current, changelog := some changelog }
  | _, _ => none

/-- A changelog was computed from the one that the page has, if it still has the version that was
loaded. -/
structure PendingWrite.Composed (w : PendingWrite) (s : Store) : Prop where
  held : ∃ page, s.pages.lookup w.pageId = some page ∧ w.current.version ≤ page.version
  computed : ∀ changelog, w.changelog = some changelog →
    ∃ old entry, entry.version = w.current.version + 1 ∧
      changelog = appendChangelogEntry old entry ∧
      ∀ page, s.pages.lookup w.pageId = some page → page.version = w.current.version →
        page.changelog = old

namespace PendingWrite

variable {w : PendingWrite} {pageId : String} {current : Page}

theorem Composed.of_versioned (h : w.Composed s) (hversi : Versioned s t) : w.Composed t where
  held := by
    obtain ⟨page, hpage, hle⟩ := h.held
    obtain ⟨later, hlater, hsame | hnew⟩ := hversi.pages w.pageId page hpage
    · exact ⟨later, hlater, by rw [hsame.version]; exact hle⟩
    · exact ⟨later, hlater, by rw [hnew.version]; omega⟩
  computed := by
    intro changelog hchang
    obtain ⟨old, entry, hentry, happ, hold⟩ := h.computed changelog hchang
    refine ⟨old, entry, hentry, happ, fun later hlater hvers => ?_⟩
    obtain ⟨page, hpage, hle⟩ := h.held
    obtain ⟨found, hfound, hcase⟩ := hversi.pages w.pageId page hpage
    obtain rfl : later = found := Option.mem_unique hlater hfound
    obtain hsame | hnew := hcase
    · rw [hsame.changelog]
      exact hold page hpage (hsame.version.symm.trans hvers)
    · have hnext := hnew.version
      omega

theorem composed_of_getPage (h : getPage s pageId = some current) :
    ({ pageId, current, changelog := none } : PendingWrite).Composed s where
  held := ⟨current, getPage_eq_some h, le_rfl⟩
  computed := fun _ h => by cases h

theorem Composed.compute (h : ({ pageId, current, changelog := none } : PendingWrite).Composed s)
    {entry : ChangelogEntry} (hentry : entry.version = current.version + 1) :
    ({ pageId, current
       changelog := some (appendChangelogEntry (getPageChangelog s pageId) entry) } :
      PendingWrite).Composed s where
  held := h.held
  computed := by
    intro changelog hchang
    cases hchang
    refine ⟨getPageChangelog s pageId, entry, hentry, rfl, fun page hpage _ => ?_⟩
    have hthere : s.pages.lookup pageId = some page := hpage
    unfold getPageChangelog
    rw [hthere]
    rfl

end PendingWrite

theorem advance_pending {w : PendingWrite} (hold : ∀ w, u.pending position = some w → w.Composed s)
    (h : u.pending (u.advance sha256 ambient s position).1 = some w) : w.Composed s := by
  have hnext := advance_follows sha256 u ambient s position
  generalize (u.advance sha256 ambient s position).1 = next at h hnext
  cases hnext with
  | decided _ hfound =>
    cases hdecision : u.decide ambient _ with
    | write =>
      rw [hdecision] at h
      cases h
      exact PendingWrite.composed_of_getPage hfound
    | review =>
      rw [hdecision] at h
      dsimp only [follow] at h
      split at h <;> cases h
    | answer _ | terminal _ | acknowledge =>
      rw [hdecision] at h
      cases h
  | composed =>
    cases h
    exact (hold _ rfl).compute rfl
  | _ => cases h

variable {rewrite : Rewrite}

theorem advanceRewrite_pending {position : RewritePosition}
    {w : PendingWrite} (hold : ∀ w, rewrite.pending position = some w → w.Composed s)
    (h : rewrite.pending (rewrite.advance now s position).1 = some w) : w.Composed s := by
  cases rewrite with
  | accept cardId =>
    cases position with
    | start =>
      dsimp only [Rewrite.advance, readCard] at h
      split at h
      · cases h
      · split at h <;> cases h
    | loadForCard card =>
      dsimp only [Rewrite.advance, loadForCard] at h
      split at h
      · cases h
      · rename_i current hcurrent
        cases h
        exact PendingWrite.composed_of_getPage hcurrent
    | cardChangelog card current =>
      cases h
      exact (hold _ rfl).compute rfl
    | cardWrite card current changelog =>
      dsimp only [Rewrite.advance, writeCard] at h
      split at h <;> cases h
    | missed card =>
      dsimp only [Rewrite.advance, missedCard] at h
      split at h <;> cases h
    | outdated card =>
      dsimp only [Rewrite.advance, outdatedCard] at h
      split at h
      · cases h
      · split at h <;> cases h
    | requeue card =>
      dsimp only [Rewrite.advance, requeuePage] at h
      split at h <;> cases h
    | outdatedAt _ _ _ | discard _ | loadForBackfill _ | backfillChangelog _ _
    | backfillWrite _ _ _ | answered _ => cases h
  | backfill pageId body citations summary =>
    cases position with
    | start =>
      dsimp only [Rewrite.advance, readBackfillFence] at h
      split at h <;> cases h
    | loadForBackfill fence =>
      dsimp only [Rewrite.advance, loadForBackfill] at h
      split at h
      · cases h
      · rename_i current hcurrent
        cases h
        exact PendingWrite.composed_of_getPage hcurrent
    | backfillChangelog fence current =>
      cases h
      exact (hold _ rfl).compute rfl
    | backfillWrite fence current changelog =>
      dsimp only [Rewrite.advance, writeBackfill] at h
      split at h <;> cases h
    | loadForCard _ | cardChangelog _ _ | cardWrite _ _ _ | missed _ | outdated _
    | outdatedAt _ _ _ | requeue _ | discard _ | answered _ => cases h

/-! ## Writes that land on the version they loaded -/

def landsOn (s : Store) (pageId : String) (current : Page) : Bool :=
  (s.pages.lookup pageId).all fun page => page.version == current.version

theorem landsOn_eq {pageId : String} {current page : Page} (h : landsOn s pageId current)
    (hpage : s.pages.lookup pageId = some page) : page.version = current.version := by
  unfold landsOn at h
  rw [hpage, Option.all_some, beq_iff_eq] at h
  exact h

theorem Landed.versioned {update : ContentUpdate} {pageId : String} {page current : Page}
    {changelog : Changelog} (h : Landed update pageId now page s t)
    (hchang : update.changelog = changelog)
    (hcomp : ({ pageId, current, changelog := some changelog } : PendingWrite).Composed s)
    (hlands : landsOn s pageId current) : Versioned s t := by
  have hvers := landsOn_eq hlands h.there
  obtain ⟨old, entry, hentry, happ, hold⟩ := hcomp.computed changelog rfl
  have hentr : entry.version = current.version + 1 := hentry
  have hkept : page.changelog = old := hold page h.there hvers
  refine .of_revised h.there rfl (.inr ⟨entry, ?_, ?_⟩) h.fresh h.pages h.history
  · change entry.version = page.version + 1
    rw [hentr, hvers]
  · change Appended page.changelog entry update.changelog
    rw [hchang, happ, hkept]
    exact appended_appendChangelogEntry old entry

theorem PageUpdate.contentUpdate_changelog (current : Page) (changelog : Changelog)
    (receipt : Option KeyedReceipt) :
    (u.contentUpdate current changelog receipt).changelog = changelog := by
  unfold contentUpdate
  split <;> rfl

theorem Page.sameVersion_compiled (page : Page) : SameVersion page page.compiled :=
  ⟨rfl, rfl, rfl, rfl⟩

theorem advance_versioned (hpend : ∀ w, u.pending position = some w → w.Composed s)
    (hlands : ∀ current attempt changelog, position = .write current attempt changelog →
      u.acts sha256 ambient s position → landsOn s u.pageId current) :
    Versioned s (u.advance sha256 ambient s position).2 := by
  have heff := advance_effect sha256 u ambient s position
  cases hacts : u.acts sha256 ambient s position with
  | false =>
    by_cases hterminal : ∃ result, position = .terminal result
    · obtain ⟨result, rfl⟩ := hterminal
      generalize u.advance sha256 ambient s (.terminal result) = after at heff ⊢
      cases heff with
      | idle following => exact .of_eq rfl rfl
      | recorded answer receipt _ _ _ => exact .of_eq rfl rfl
      | staged _ _ _ _ hposition | cleared _ _ _ _ hposition | acknowledged _ _ _ hposition
      | wrote _ _ _ _ _ hposition => cases hposition
    · rw [advance_idle hacts fun result hres => hterminal ⟨result, hres⟩]
      exact .of_eq rfl rfl
  | true =>
    generalize u.advance sha256 ambient s position = after at heff ⊢
    cases heff with
    | idle following => exact .of_eq rfl rfl
    | recorded answer receipt _ _ _ => exact .of_eq rfl rfl
    | staged _ _ _ _ _ _ _ hpages hhistory _ _ => exact .of_eq hpages hhistory
    | cleared _ _ _ page _ hpage _ => exact .of_touched hpage page.sameVersion_compiled rfl rfl
    | acknowledged _ page _ _ hpage hpages hhistory _ _ =>
      exact .of_touched hpage page.sameVersion_compiled hpages hhistory
    | wrote current attempt changelog page store hposition hlanded =>
      have hcomp := hpend { pageId := u.pageId, current, changelog := some changelog }
        (by rw [hposition]; rfl)
      exact hlanded.versioned (u.contentUpdate_changelog current changelog _) hcomp
        (hlands current attempt changelog hposition hacts)

def Rewrite.lands (now : Int) (s : Store) : Rewrite → RewritePosition → Bool
  | .accept cardId, .cardWrite card current changelog =>
    succeeds (tryUpdatePageContent (acceptUpdate cardId card current changelog) card.pageId now
      true s)
  | .backfill pageId body citations _, .backfillWrite fence current changelog =>
    succeeds (tryUpdatePageContent (backfillUpdate body citations fence current changelog) pageId
      now true s)
  | _, _ => false

theorem advanceRewrite_versioned {position : RewritePosition}
    (hpend : ∀ w, rewrite.pending position = some w → w.Composed s)
    (hlands : ∀ w, rewrite.pending position = some w → rewrite.lands now s position →
      landsOn s w.pageId w.current) : Versioned s (rewrite.advance now s position).2 := by
  have heff := advance_rewriteEffect rewrite now s position
  generalize (rewrite.advance now s position).2 = after at heff ⊢
  cases heff with
  | idle => exact .of_eq rfl rfl
  | requeued page pageId hpage =>
    exact .of_touched hpage page.touches_requeued.sameVersion rfl rfl
  | discarded cardId => exact .of_eq rfl rfl
  | accepted cardId card current changelog page _ hrewrite hposition hwrote hlanded =>
    subst hrewrite hposition
    have hcomp := hpend _ rfl
    refine hlanded.versioned rfl hcomp (hlands _ rfl ?_)
    exact succeeds_iff.mpr ⟨after, hwrote⟩
  | annotated pageId body citations summary fence current changelog page _ hrewrite hposition
      hwrote hlanded =>
      subst hrewrite hposition
      have hcomp := hpend _ rfl
      refine hlanded.versioned rfl hcomp (hlands _ rfl ?_)
      exact succeeds_iff.mpr ⟨after, hwrote⟩

end Wenlan.Updates
