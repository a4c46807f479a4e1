import Wenlan.Updates.HumanProse

/-!
# A named version is written over once

Of the callers that have read the same version of a page and name it, one is answered with the
version after it.  The others are refused or conflict, whenever they come and however often
they try again.
-/

namespace Wenlan.Updates

open Pages ContentUpdate
open Support.Transition (Run)

variable {u : PageUpdate} {s t : Store} {current page : Page} {changelog : Changelog}
  {receipt : Option KeyedReceipt} {v : Int}

/-- A caller that names the version it has read, and is held to it when the write lands. -/
def PageUpdate.NamesVersion (u : PageUpdate) (v : Int) : Prop :=
  u.req.expectedVersion = some v ∧ u.userForced = false ∧
    (u.writer.isAgent = true ∨ u.expectedSourceRevision = none)

theorem version_of_named {write : PageWrite} (hwrite : u = write.toUpdate)
    (hnames : u.NamesVersion v) (hvers : u.versionRefusal current = none)
    (h : (u.contentUpdate current changelog receipt).admits page) : page.version = v := by
  obtain ⟨hexp, hforc, hheld⟩ := hnames
  have hcurrent := PageUpdate.expectedVersion_eq hvers hexp
  unfold PageUpdate.contentUpdate at h
  split at h
  · next guard hguard =>
    -- page growth names no version of its own
    rw [hwrite] at hguard hexp
    cases write <;> simp [PageWrite.toUpdate] at hguard hexp
  · next fence _ hforced _ => exact nomatch hforc.symm.trans hforced
  · next revision hrevision _ =>
    refine version_eq h ?_
    rw [if_pos (hheld.resolve_right fun hnone => by rw [hnone] at hrevision; cases hrevision), hexp]
  · exact (version_eq h rfl).trans hcurrent.symm

def pageVersion (s : Store) (pageId : String) : Option Int :=
  (s.pages.lookup pageId).map Page.version

/-- A step of a delivery that names a version gives its page another version. -/
def Lands (out : Outside) (pageId : String) (v : Int) (s t : System) : Prop :=
  ∃ job ambient delivery, s.deliveries.lookup job = some delivery ∧
    delivery.update.pageId = pageId ∧ delivery.update.NamesVersion v ∧
    Step out s (.advance job ambient) t ∧
    pageVersion t.store pageId ≠ pageVersion s.store pageId

theorem Delivery.Tracked.version_of_effect {sha256 : List String → String} {ambient : Ambient}
    {delivery : Delivery} {fences : List (String × PageFence)} (h : delivery.Tracked s fences)
    (hnames : delivery.update.NamesVersion v) {result : Position × Store}
    (heff : Effect sha256 delivery.update ambient s delivery.position result)
    (hne : pageVersion result.2 delivery.update.pageId ≠
      pageVersion s delivery.update.pageId) :
    pageVersion s delivery.update.pageId = some v ∧
      pageVersion result.2 delivery.update.pageId = some (v + 1) := by
  unfold pageVersion at hne ⊢
  cases heff with
  | idle | recorded => exact absurd rfl hne
  | staged _ _ _ _ _ _ _ hpages => exact absurd (by rw [hpages]) hne
  | cleared current result replayed page hposition hpage =>
    refine absurd ?_ hne
    rw [hpage, Store.lookup_setPage]
    rfl
  | acknowledged current page after hposition hpage hpages =>
    refine absurd ?_ hne
    rw [hpage, hpages, AList.lookup_insert]
    rfl
  | wrote current attempt changelog page after hposition hlanded =>
    have hgated : delivery.position.gated = some current := by
      rw [hposition]
      rfl
    obtain ⟨write, hwrite⟩ := h.write
    have hversion := version_of_named hwrite hnames (h.gate current hgated).2 hlanded.admitted
    rw [hlanded.there, hlanded.pages, AList.lookup_insert, ← hversion]
    exact ⟨rfl, rfl⟩

theorem Lands.version {out : Outside} {pageId : String} {s t : System} (htrack : Tracked s)
    (h : Lands out pageId v s t) :
    pageVersion s.store pageId = some v ∧ pageVersion t.store pageId = some (v + 1) := by
  obtain ⟨job, ambient, delivery, hjob, rfl, hnames, hstep, hne⟩ := h
  have hstepped := hstep.stepped
  cases hstepped with
  | advance _ _ found hfound =>
    obtain rfl : delivery = found := Option.mem_unique hjob hfound
    exact (htrack.deliveries job delivery hjob).version_of_effect hnames
      (advance_effect out.sha256 delivery.update ambient s.store delivery.position) hne

/-- Of all the writes that name a version of a page, one lands at most, on that very version. -/
theorem named_version_wins_once (out : Outside) {start s t : System} {labels : List Label}
    {pageId : String} (hquiet : Quiet start) (hrun : Run (Step out) start labels s)
    (hlands : Lands out pageId v s t) :
    (pageVersion s.store pageId = some v ∧ pageVersion t.store pageId = some (v + 1)) ∧
      ∀ later s' t', Run (Step out) t later s' → ¬ Lands out pageId v s' t' := by
  have htracked : ∀ labels s, Run (Step out) start labels s → Tracked s := fun _ _ hrun =>
    hrun.invariant (fun _ _ _ hinv hone => hinv.step hone) (tracked_of_quiet hquiet)
  have hversion := hlands.version (htracked labels s hrun)
  refine ⟨hversion, fun later s' t' hlater hagain => ?_⟩
  obtain ⟨job, ambient, -, -, -, -, hstep, -⟩ := hlands
  have hthere := (hagain.version (htracked _ s' ((hrun.snoc hstep).append hlater))).1
  obtain ⟨page, hpage, hnow⟩ := Option.map_eq_some_iff.mp hversion.2
  have hmoves : t.store.Moves s'.store := hlater.le_of_step (R := fun s t => s.store.Moves t.store)
    (fun _ => .refl _) (fun _ _ _ => .trans) (fun _ _ _ hone => hone.stepped.moves)
  obtain ⟨last, hlast, hmoved⟩ := hmoves pageId page hpage
  obtain ⟨found, hfound, hthen⟩ := Option.map_eq_some_iff.mp hthere
  obtain rfl : found = last := Option.mem_unique hfound hlast
  have hle := hmoved.version
  omega

def namedWrite (content : String) : PageWrite :=
  .update "p" { content, sourceMemoryIds := ["m1"], expectedVersion := some 4
                callerId := none, operationId := none } "manual_edit" false none none

/-- Two callers have read version 4, and both come to their writes before either lands. -/
def racedLabels : List Label :=
  [.deliver 0 (namedWrite "first words"), .deliver 1 (namedWrite "second words"),
    .advance 0 rebuiltAmbient, .advance 1 rebuiltAmbient, .advance 0 rebuiltAmbient,
    .advance 1 rebuiltAmbient, .advance 0 rebuiltAmbient, .advance 1 rebuiltAmbient]

theorem named_version_wins_once_raced :
    ∃ s t, Run (Step rebuiltOutside) rebuiltStart racedLabels s ∧
      Lands rebuiltOutside "p" 4 s t ∧ pageVersion t.store "p" = some 5 ∧
      ∀ later s' t', Run (Step rebuiltOutside) t later s' → ¬ Lands rebuiltOutside "p" 4 s' t' := by
  have hready : (racedLabels.foldlM (next rebuiltOutside) rebuiltStart).any (fun s =>
      decide ((s.deliveries.lookup 0).map Delivery.update =
          some (namedWrite "first words").toUpdate ∧
        (next rebuiltOutside s (.advance 0 rebuiltAmbient)).any (fun t =>
          pageVersion t.store "p" != pageVersion s.store "p") = true)) = true := by
    decide +kernel
  obtain ⟨s, hrun, hupd, hwrit⟩ := Run.of_foldlM_any (fun _ _ _ h => h) hready
  obtain ⟨delivery, hdeliv, hdel⟩ := Option.map_eq_some_iff.mp hupd
  obtain ⟨t, hstep, hne⟩ := (Option.any_eq_true _ _).mp hwrit
  have hlands : Lands rebuiltOutside "p" 4 s t := by
    refine ⟨0, rebuiltAmbient, delivery, hdeliv, ?_, ?_, hstep, bne_iff_ne.mp hne⟩
    · rw [hdel]
      rfl
    · rw [hdel]
      exact ⟨rfl, rfl, .inr rfl⟩
  have honce := named_version_wins_once rebuiltOutside ⟨rfl, rfl, rfl⟩ hrun hlands
  exact ⟨s, t, hrun, hlands, honce.1.2, honce.2⟩

end Wenlan.Updates
