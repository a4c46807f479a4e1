import Wenlan.Updates.OperationIdentity
import Wenlan.Updates.VersionRuns

/-!
# Versions agree with changelogs and history

In every run whose writes land on the versions they loaded, and whose archives are not cut off
between their two statements.  A write that is fenced on the revision of the sources only may
land on a later version, and then names the one before.
-/

namespace Wenlan.Updates

open Pages
open Support.Transition (Run Restrict)

variable {out : Outside} {start s t : System} {label : Label} {labels : List Label} {job : Nat}
  {delivery : Delivery}

/-- A write that lands does so on the version it loaded, and no archive is cut off. -/
def aligned (out : Outside) (s : System) : Label → Bool
  | .advance job ambient => (s.deliveries.lookup job).all fun delivery =>
    !delivery.update.acts out.sha256 ambient s.store delivery.position ||
      (delivery.update.pending delivery.position).all fun w =>
        landsOn s.store w.pageId w.current
  | .advanceRewrite job now => (s.rewrites.lookup job).all fun entry =>
    !entry.1.lands now s.store entry.2 ||
      (entry.1.pending entry.2).all fun w => landsOn s.store w.pageId w.current
  | .event event _ => !event.isInterrupted
  | _ => true

def Aligned (out : Outside) (s : System) (label : Label) : Prop :=
  aligned out s label = true

/-! ## The invariant -/

structure Composing (s : System) : Prop where
  deliveries : ∀ job delivery, s.deliveries.lookup job = some delivery →
    ∀ w, delivery.update.pending delivery.position = some w → w.Composed s.store
  rewrites : ∀ job rewrite position, s.rewrites.lookup job = some (rewrite, position) →
    ∀ w, rewrite.pending position = some w → w.Composed s.store

theorem composing_of_quiet (h : Quiet s) : Composing s where
  deliveries := by
    intro job delivery hdelivery
    rw [h.2.1] at hdelivery
    cases hdelivery
  rewrites := by
    intro job rewrite position hentry
    rw [h.2.2] at hentry
    cases hentry

theorem Step.versioned (hcomp : Composing s) (haligned : Aligned out s label)
    (hstep : Step out s label t) : Versioned s.store t.store := by
  have hsteppe := hstep.stepped
  cases hsteppe with
  | advance job ambient delivery hjob =>
    refine advance_versioned (hcomp.deliveries job delivery hjob) ?_
    intro current attempt changelog hpos hacts
    unfold Aligned aligned at haligned
    dsimp only at haligned
    rw [hjob, Option.all_some, hacts, hpos] at haligned
    exact haligned
  | advanceRewrite job now rewrite position hentry =>
    refine advanceRewrite_versioned (hcomp.rewrites job rewrite position hentry) ?_
    intro w hw hlands
    unfold Aligned aligned at haligned
    dsimp only at haligned
    rw [hentry, Option.all_some, hlands, hw] at haligned
    exact haligned
  | event event now =>
    obtain hsame | hrun := afterEvent_store out s event now
    · rw [hsame]
      exact .of_eq rfl rfl
    · have hwhole : event.isInterrupted = false := (Bool.not_eq_true' _).mp haligned
      have heff := Event.effect hrun
      rw [hwhole] at heff
      exact heff.versioned
  | readFence _ _ _ | deliver _ _ _ _ _ | drop _ | rewrite _ _ _ | crash => exact .of_eq rfl rfl

/-- Where an acceptance or a backfill of the new state comes from. -/
theorem Step.rewrite_cases {rewrite : Rewrite} {position : RewritePosition}
    (hstep : Step out s label t) (h : t.rewrites.lookup job = some (rewrite, position)) :
    s.rewrites.lookup job = some (rewrite, position) ∨ position = .start ∨
      ∃ now held, s.rewrites.lookup job = some (rewrite, held) ∧
        position = (rewrite.advance now s.store held).1 := by
  have hsteppe := hstep.stepped
  cases hsteppe with
  | rewrite started new _ =>
    by_cases heq : job = started
    · obtain rfl := heq
      right
      left
      have hnew := Option.some.inj ((AList.lookup_insert s.rewrites).symm.trans h)
      rw [(Prod.mk.inj hnew).2]
    · exact .inl ((AList.lookup_insert_ne heq).symm.trans h)
  | advanceRewrite advanced now found held hentry =>
    by_cases heq : job = advanced
    · obtain rfl := heq
      have hnew := Option.some.inj ((AList.lookup_insert s.rewrites).symm.trans h)
      obtain ⟨rfl, rfl⟩ := Prod.mk.inj hnew
      exact .inr (.inr ⟨now, held, hentry, rfl⟩)
    · exact .inl ((AList.lookup_insert_ne heq).symm.trans h)
  | event event now =>
    left
    unfold System.afterEvent at h
    split at h
    · exact h
    · split at h
      · cases h
      · exact h
  | crash => cases h
  | readFence _ _ _ | deliver _ _ _ _ _ | advance _ _ _ _ | drop _ => exact .inl h

theorem Composing.step (h : Composing s) (haligned : Aligned out s label)
    (hstep : Step out s label t) : Composing t where
  deliveries := by
    have hvers := hstep.versioned h haligned
    intro job delivery hdelivery w hw
    obtain hold | hstart | ⟨ambient, found, -, hfound, -, rfl⟩ := hstep.delivery_cases hdelivery
    · exact (h.deliveries job delivery hold w hw).of_versioned hvers
    · rw [hstart] at hw
      cases hw
    · exact (advance_pending (h.deliveries job found hfound) hw).of_versioned hvers
  rewrites := by
    have hvers := hstep.versioned h haligned
    intro job rewrite position hentry w hw
    obtain hold | rfl | ⟨now, held, hheld, rfl⟩ := hstep.rewrite_cases hentry
    · exact (h.rewrites job rewrite position hold w hw).of_versioned hvers
    · cases rewrite <;> cases hw
    · exact (advanceRewrite_pending (h.rewrites job rewrite held hheld) hw).of_versioned
        hvers

def baseVersion (start : System) (pageId : String) : Int :=
  ((start.store.pages.lookup pageId).map Page.version).getD 0

theorem recorded_start (start : System) : Recorded (baseVersion start) start.store where
  rows := by
    intro pageId page hpage version hbase hversio
    unfold baseVersion at hbase
    rw [hpage, Option.map_some, Option.getD_some] at hbase
    omega
  fresh := by
    intro pageId hnone
    unfold baseVersion
    rw [hnone]
    rfl

structure Agreeing (start s : System) : Prop where
  composing : Composing s
  sound : Sound s.store
  recorded : Recorded (baseVersion start) s.store

theorem Agreeing.step (h : Agreeing start s) (haligned : Aligned out s label)
    (hstep : Step out s label t) : Agreeing start t where
  composing := h.composing.step haligned hstep
  sound := h.sound.of_versioned (hstep.versioned h.composing haligned)
  recorded := h.recorded.of_versioned h.sound (hstep.versioned h.composing haligned)

theorem agreeing_run (hquiet : Quiet start) (hsound : Sound start.store)
    (hrun : Run (Restrict (Step out) (Aligned out)) start labels s) : Agreeing start s := by
  have hstart : Agreeing start start :=
    ⟨composing_of_quiet hquiet, hsound, recorded_start start⟩
  exact hrun.invariant (fun _ _ _ hinv hone => hinv.step hone.1 hone.2) hstart

/-! ## The result -/

/-- What a step does to versions, changelogs and history, over the run that led to it. -/
structure VersionsAgree (out : Outside) (start s : System) (label : Label) (t : System) : Prop
    where
  /-- A page gets its next version with a row of history, and with an entry of that version or
  none; the cap takes the oldest entries that are not a person's. -/
  pages : ∀ pageId page, s.store.pages.lookup pageId = some page →
    ∃ later, t.store.pages.lookup pageId = some later ∧
      (SameVersion page later ∨ NewVersion t.store pageId page later)
  created : ∀ pageId later, s.store.pages.lookup pageId = none →
    t.store.pages.lookup pageId = some later →
    later.version = 1 ∧ later.changelog = [] ∧ HasRow t.store pageId later
  changelogs : ∀ pageId page, t.store.pages.lookup pageId = some page →
    Ascends page.changelog page.version
  history : ∀ key row, s.store.history.lookup key = some row → t.store.history.lookup key = some row
  rows : ∀ pageId page, t.store.pages.lookup pageId = some page → ∀ version,
    baseVersion start pageId < version → version ≤ page.version →
    ∃ row, t.store.history.lookup (pageId, version) = some row ∧
      (version = page.version → row.title = page.title ∧ row.content = page.content)
  /-- The response and the receipt of a write name the version that it produced. -/
  named : ∀ job ambient delivery current attempt changelog, label = .advance job ambient →
    s.deliveries.lookup job = some delivery → delivery.position = .write current attempt changelog →
    delivery.update.acts out.sha256 ambient s.store delivery.position = true →
    ∃ page later result, s.store.pages.lookup delivery.update.pageId = some page ∧
      t.store.pages.lookup delivery.update.pageId = some later ∧
      later.version = page.version + 1 ∧
      (t.deliveries.lookup job).map Delivery.position = some (.answered (.ok result)) ∧
      result.warnings = PageUpdate.writeWarnings (delivery.update.deltaSummary current)
        page.version later.version ∧
      ∀ key, delivery.update.key = some key →
        ∃ stored, t.store.receipts.lookup key = some stored ∧ stored.response = result

theorem write_named (htrack : Tracked s) {ambient : Ambient}
    {current : Page} {attempt : Nat} {changelog : Changelog}
    (haligned : Aligned out s (.advance job ambient))
    (hjob : s.deliveries.lookup job = some delivery)
    (hpos : delivery.position = .write current attempt changelog)
    (hacts : delivery.update.acts out.sha256 ambient s.store delivery.position) :
    ∃ page later result, s.store.pages.lookup delivery.update.pageId = some page ∧
      (s.advanceDelivery out job ambient delivery).store.pages.lookup delivery.update.pageId =
        some later ∧
      later.version = page.version + 1 ∧
      ((s.advanceDelivery out job ambient delivery).deliveries.lookup job).map Delivery.position =
        some (.answered (.ok result)) ∧
      result.warnings = PageUpdate.writeWarnings (delivery.update.deltaSummary current)
        page.version later.version ∧
      ∀ key, delivery.update.key = some key →
        ∃ stored, (s.advanceDelivery out job ambient delivery).store.receipts.lookup key =
          some stored ∧ stored.response = result := by
  have hlands : landsOn s.store delivery.update.pageId current := by
    unfold Aligned aligned at haligned
    dsimp only at haligned
    rw [hjob, Option.all_some, hacts, hpos] at haligned
    exact haligned
  rw [hpos] at hacts
  obtain ⟨after, hwrote⟩ := succeeds_iff.mp hacts
  obtain ⟨page, hland⟩ := commitContent_eq_ok hwrote
  have hres : delivery.update.advance out.sha256 ambient s.store delivery.position =
      (.answered (.ok (delivery.update.wroteResult current)), after) := by
    rw [hpos]
    dsimp only [PageUpdate.advance, PageUpdate.write]
    rw [hwrote]
  have hversio := landsOn_eq hlands hland.there
  have hstore : (s.advanceDelivery out job ambient delivery).store = after :=
    congrArg Prod.snd hres
  rw [lookup_advanceDelivery, hres, hstore, hland.pages, AList.lookup_insert]
  refine ⟨page, _, _, hland.there, rfl, rfl, rfl, ?_, fun key hkey => ?_⟩
  · change PageUpdate.writeWarnings _ current.version (current.version + 1) =
      PageUpdate.writeWarnings _ page.version (page.version + 1)
    rw [hversio]
  · have hins := hland.receipts
    rw [PageUpdate.contentUpdate_ownReceipt (htrack.growth hjob)] at hins
    exact ⟨_, (hins.of_key hkey).2, rfl⟩

/-- The changelog and the history of every page agree with its versions, in every run whose
writes land on the versions they loaded and whose archives are not cut off. -/
theorem page_versions_agree (hquiet : Quiet start) (hsound : Sound start.store)
    (hrun : Run (Restrict (Step out) (Aligned out)) start labels s) (haligned : Aligned out s label)
    (hstep : Step out s label t) : VersionsAgree out start s label t := by
  have hagr := agreeing_run hquiet hsound hrun
  have hvers := hstep.versioned hagr.composing haligned
  have hlater := hagr.step haligned hstep
  refine
    { pages := hvers.pages, created := ?_, changelogs := hlater.sound.changelogs
      history := hvers.history, rows := hlater.recorded.rows, named := ?_ }
  · intro pageId later hnone hsome
    obtain ⟨hone, hempty, hrow⟩ := hvers.created pageId later hnone hsome
    refine ⟨hone, hempty, hrow ?_⟩
    rw [← Option.not_isSome_iff_eq_none]
    intro hthere
    have howned := hagr.sound.owned pageId 1 hthere
    rw [hnone] at howned
    cases howned
  · rintro job ambient delivery current attempt changelog rfl hjob hpos hacts
    obtain rfl := hstep.advance_eq hjob
    have htrack : Tracked s := hrun.of_restrict.invariant
      (fun _ _ _ hinv hone => hinv.step hone) (tracked_of_quiet hquiet)
    exact write_named htrack haligned hjob hpos hacts

def renamedLabels : List Label :=
  [.event (.renamePage { pageId := "p", title := "Plans", expectedVersion := 4, visible := true })
      5,
    .deliver 0 (.update "p"
      { content := "second words", sourceMemoryIds := ["m1"], expectedVersion := none
        callerId := none, operationId := none } "manual_edit" false none none),
    .advance 0 twiceAmbient, .advance 0 twiceAmbient, .advance 0 twiceAmbient]

def alignedNext (out : Outside) (s : System) (label : Label) : Option System :=
  if aligned out s label then next out s label else none

theorem restrict_of_alignedNext (h : alignedNext out s label = some t) :
    Restrict (Step out) (Aligned out) s label t := by
  unfold alignedNext at h
  split at h
  · rename_i haligned
    exact ⟨haligned, h⟩
  · cases h

theorem sound_of_page {pageId : String} {page : Page} (h : Ascends page.changelog page.version) :
    Sound { pages := (∅ : AList fun _ : String => Page).insert pageId page, history := ∅
            receipts := ∅, cards := ∅ } where
  changelogs := by
    intro other found hfound
    by_cases heq : other = pageId
    · obtain rfl := heq
      rw [AList.lookup_insert] at hfound
      cases hfound
      exact h
    · rw [AList.lookup_insert_ne heq] at hfound
      cases hfound
  owned := by
    intro other version hrow
    cases hrow

theorem page_versions_agree_renamed :
    ∃ s t, Run (Restrict (Step twiceOutside) (Aligned twiceOutside)) twiceStart renamedLabels s ∧
      VersionsAgree twiceOutside twiceStart s (.advance 0 twiceAmbient) t ∧
      (t.store.pages.lookup "p").map (fun page => page.changelog.map ChangelogEntry.version) =
        some [5, 6] := by
  have hready : (renamedLabels.foldlM (alignedNext twiceOutside) twiceStart).any (fun s =>
      decide ((alignedNext twiceOutside s (.advance 0 twiceAmbient)).any (fun t =>
        (t.store.pages.lookup "p").map (fun page => page.changelog.map ChangelogEntry.version) ==
          some [5, 6]) = true)) = true := by
    decide +kernel
  have himp : ∀ s label t, alignedNext twiceOutside s label = some t →
      Restrict (Step twiceOutside) (Aligned twiceOutside) s label t :=
    fun _ _ _ h => restrict_of_alignedNext h
  obtain ⟨s, hrun, hwrit⟩ := Run.of_foldlM_any himp hready
  obtain ⟨t, hstep, hversi⟩ := (Option.any_eq_true _ _).mp hwrit
  obtain ⟨haligned, hplain⟩ := restrict_of_alignedNext hstep
  have hsound : Sound twiceStart.store := sound_of_page ⟨.nil, fun _ h => by cases h⟩
  exact ⟨s, t, hrun, page_versions_agree ⟨rfl, rfl, rfl⟩ hsound hrun haligned hplain,
    beq_iff_eq.mp hversi⟩

def cappedEntry (version : Int) (editedBy : String) : ChangelogEntry where
  version := version
  writtenAt := 0
  editedBy := editedBy
  deltaSummary := none
  incomingSourceIds := none
  counts := none
  agent := none
  citationsSummary := none

def cappedPage : Page :=
  { plainPage with
    version := 21
    changelog := cappedEntry 2 "manual_edit" ::
      (List.range 19).map fun n => cappedEntry (n + 3) "distill" }

def cappedStart : System :=
  { twiceStart with
    store := { pages := (∅ : AList fun _ : String => Page).insert "p" cappedPage, history := ∅
               receipts := ∅, cards := ∅ } }

/-- A rename takes the second entry of the changelog, and leaves the oldest. -/
theorem changelog_cap_spares_oldest : Quiet cappedStart ∧ Sound cappedStart.store ∧
    ∃ s, Run (Step twiceOutside) cappedStart [.event (.renamePage
        { pageId := "p", title := "Plans", expectedVersion := 21, visible := true }) 5] s ∧
      (s.store.pages.lookup "p").map (fun page => page.changelog.map ChangelogEntry.version) =
        some (2 :: (List.range 19).map fun n => (n : Int) + 4) := by
  refine ⟨⟨rfl, rfl, rfl⟩, sound_of_page ⟨?_, ?_⟩, ?_⟩
  · decide +kernel
  · decide +kernel
  · have hready : ([Label.event (.renamePage
        { pageId := "p", title := "Plans", expectedVersion := 21, visible := true }) 5].foldlM
        (next twiceOutside) cappedStart).any (fun s => decide
          ((s.store.pages.lookup "p").map
              (fun page => page.changelog.map ChangelogEntry.version) =
            some (2 :: (List.range 19).map fun n => (n : Int) + 4))) = true := by
      decide +kernel
    obtain ⟨s, hrun, hversi⟩ := Run.of_foldlM_any (fun _ _ _ h => h) hready
    exact ⟨s, hrun, hversi⟩

end Wenlan.Updates
