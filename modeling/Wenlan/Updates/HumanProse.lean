import Wenlan.Updates.Ownership

/-!
# A machine write spares human prose

Every step of a machine's delivery leaves the pages alone, stages a card, takes note of a
compile, or writes a body; and the row that it writes is one it is permitted to write, as that
row stands in the transaction.
-/

namespace Wenlan.Updates

open Pages ContentUpdate Bool PageUpdate
open Support.Transition (Run)

variable {sha256 : List String → String} {u : PageUpdate} {ambient : Ambient} {s after : Store}
  {current page : Page} {position : Position} {changelog : Changelog}
  {receipt : Option KeyedReceipt}

/-- The row is one that a machine write may replace. -/
def Permitted (u : PageUpdate) (page : Page) : Prop :=
  page.reviewRequired = false ∧ (pageIsHumanOwned page = false ∨
      (u.writer.isAgent = true ∧ u.req.expectedVersion = some page.version) ∨
      (u.userForced = true ∧ page.creationKind ≠ "authored" ∧ u.pageFence = some page.fence))

section

variable {update : ContentUpdate} (h : update.admits page = true)
include h

theorem ContentUpdate.admits_and : update.admitsBase page ∧ update.admitsGrowth page ∧
      update.admitsFences page ∧
      (update.passesReviewLock ∨ page.reviewRequired = false) := by
  unfold admits at h
  rw [and_eq_true, and_eq_true, and_eq_true, or_eq_true, not_eq_true'] at h
  exact ⟨h.1.1.1, h.1.1.2, h.1.2, h.2⟩

theorem ContentUpdate.version_eq
    {version : Int} (hvers : update.expectedVersion = some version) :
    page.version = version := by
  obtain ⟨-, -, hfenc, -⟩ := admits_and h
  unfold admitsFences at hfenc
  rw [hvers, and_eq_true, and_eq_true, Option.all_some, and_eq_true,
    beq_iff_eq] at hfenc
  exact hfenc.1.1.1

theorem ContentUpdate.sourceRevision_eq
    {revision : Int} (hrev : update.expectedSourceRevision = some revision) :
    page.sourceRevision = revision := by
  obtain ⟨-, -, hfenc, -⟩ := admits_and h
  unfold admitsFences at hfenc
  rw [hrev, and_eq_true, and_eq_true, Option.all_some, and_eq_true,
    beq_iff_eq] at hfenc
  exact hfenc.1.2.1

theorem ContentUpdate.incarnation_eq
    {incarnation : String} (hinc : update.expectedIncarnation = some incarnation) :
    page.incarnation = incarnation := by
  obtain ⟨-, -, hfenc, -⟩ := admits_and h
  unfold admitsFences at hfenc
  rw [hinc, and_eq_true, Option.all_some, beq_iff_eq] at hfenc
  exact hfenc.2

theorem ContentUpdate.not_owned
    (hmachine : update.machineOwnedOnly) : pageIsHumanOwned page = false := by
  obtain ⟨-, hgrowt, -, -⟩ := admits_and h
  unfold admitsGrowth at hgrowt
  rw [hmachine] at hgrowt
  unfold pageIsHumanOwned
  simp only [Bool.not_true, Bool.false_or, Bool.and_eq_true, Bool.not_eq_true', bne_iff_ne,
    ne_eq] at hgrowt
  rw [hgrowt.1.1, Bool.false_or, beq_eq_false_iff_ne]
  exact hgrowt.1.2

end

/-! ## The six shapes -/

theorem contentUpdate_linkReason :
    (u.contentUpdate current changelog receipt).linkReason = u.editedBy ∨
      (u.contentUpdate current changelog receipt).linkReason = "page_growth" := by
  unfold contentUpdate
  split
  · exact .inr rfl
  all_goals exact .inl rfl

theorem contentUpdate_content :
    (u.contentUpdate current changelog receipt).content = u.req.content := by
  unfold contentUpdate
  split <;> rfl

theorem contentUpdate_consumes :
    (u.contentUpdate current changelog receipt).consumeRevisionId = none := by
  unfold contentUpdate
  split <;> rfl

theorem unlocked_of_admits (hmachine : u.writer.isMachine)
    (hname : u.editedBy ≠ "revision_accept")
    (h : (u.contentUpdate current changelog receipt).admits page) :
    page.reviewRequired = false := by
  obtain ⟨-, -, -, hpas | hunlocked⟩ := admits_and h
  · have hhuman : isHumanEdit u.editedBy = false := by
      unfold writer at hmachine
      rw [Writer.isMachine_classify, not_eq_true'] at hmachine
      exact hmachine
    unfold passesReviewLock at hpas
    have hreas : (u.contentUpdate current changelog receipt).linkReason = u.editedBy ∨
        (u.contentUpdate current changelog receipt).linkReason = "page_growth" :=
      contentUpdate_linkReason
    obtain hreason | hreason := hreas
    · rw [hreason, hhuman, Bool.false_or, beq_iff_eq] at hpas
      exact absurd hpas hname
    · rw [hreason] at hpas
      exact absurd hpas (by decide)
  · exact hunlocked

theorem owner_of_fenced (hmachine : u.writer.isMachine) (hforc : u.userForced = false)
    (hgate : u.requiresReview current = false) (hmoves : current.Moves page)
    (hsame : page.version = current.version ∨ page.sourceRevision = current.sourceRevision)
    (hagent : u.writer.isAgent → u.req.expectedVersion.isSome →
      u.req.expectedVersion = some page.version) : pageIsHumanOwned page = false ∨
      (u.writer.isAgent ∧ u.req.expectedVersion = some page.version) := by
  obtain ⟨hisAg, hsome⟩ | hrebuild | hunowned := gate_passed hmachine hgate
  · exact .inr ⟨hisAg, hagent hisAg hsome⟩
  · rw [hforc] at hrebuild
    cases hrebuild
  · rw [hmoves.humanOwned_eq hsame]
    exact .inl hunowned

theorem permitted_of_admits {write : PageWrite} (hwrite : u = write.toUpdate)
    (hmachine : u.writer.isMachine) (hname : u.editedBy ≠ "revision_accept")
    (hgate : u.requiresReview current = false) (hvers : u.versionRefusal current = none)
    (hmoves : current.Moves page)
    (hcapt : ∀ revision, u.expectedSourceRevision = some revision →
      revision ≤ current.sourceRevision)
    (h : (u.contentUpdate current changelog receipt).admits page) : Permitted u page := by
  refine ⟨unlocked_of_admits hmachine hname h, ?_⟩
  have hfenced : u.userForced → u.pageFence ≠ none := by
    intro hforc hnone
    rw [hwrite] at hforc hnone
    obtain ⟨fence, hfence⟩ := write.userForced_fence hforc
    rw [hfence] at hnone
    cases hnone
  unfold contentUpdate at h
  split at h
  · -- page growth is checked against the row in the transaction
    exact .inl (not_owned h rfl)
  · -- a rebuild that a person forced matches the fence and spares authored pages
    rename_i fence hnone hforc hfence
    right
    right
    have hrev := sourceRevision_eq h rfl
    have hinc := incarnation_eq h rfl
    have hbase : (page.status == "active" && page.creationKind != "authored") :=
      (admits_and h).1
    rw [and_eq_true, bne_iff_ne] at hbase
    refine ⟨hforc, hbase.2, ?_⟩
    rw [hfence]
    unfold Page.fence
    rw [hrev, hinc]
  · -- under a source revision the loaded row was no earlier than the captured one
    rename_i hrevis hnot
    have hrev := sourceRevision_eq h rfl
    have hsame : page.sourceRevision = current.sourceRevision := by
      have hle := hcapt _ hrevis
      have hup := hmoves.sourceRevision
      omega
    have hforc : u.userForced = false := by
      rw [eq_false_iff]
      intro hforc
      obtain ⟨fence, hfence⟩ := Option.ne_none_iff_exists'.mp (hfenced hforc)
      exact hnot fence hforc hfence
    refine (owner_of_fenced hmachine hforc hgate hmoves (.inr hsame) ?_).imp_right .inl
    intro hagent hsome
    obtain ⟨expected, hexp⟩ := Option.isSome_iff_exists.mp hsome
    have hpag : page.version = expected := by
      refine version_eq h ?_
      rw [if_pos hagent, hexp]
    rw [hexp, hpag]
  · -- otherwise the write is fenced on the version it loaded
    rename_i hrevi hnot
    have hpag := version_eq h rfl
    have hforc : u.userForced = false := by
      rw [eq_false_iff]
      intro hforc
      obtain ⟨fence, hfence⟩ := Option.ne_none_iff_exists'.mp (hfenced hforc)
      exact hnot fence hforc hfence
    refine (owner_of_fenced hmachine hforc hgate hmoves (.inl hpag) ?_).imp_right .inl
    intro hagent hsome
    obtain ⟨expected, hexp⟩ := Option.isSome_iff_exists.mp hsome
    have hexpec := expectedVersion_eq hvers hexp
    rw [hexp, hexpec, hpag]

inductive MachineStep (u : PageUpdate) (s after : Store) : Prop
  | untouched : after.pages = s.pages → after.cards = s.cards → MachineStep u s after
  | staged (cardId : String) (card : RevisionCard) :
      card.pageId = u.pageId → card.content = u.req.content → after.pages = s.pages →
      after.cards = s.cards.insert cardId card → MachineStep u s after
  /-- Only the marks of staleness go. -/
  | compiled (page : Page) :
      s.pages.lookup u.pageId = some page →
      after.pages = s.pages.insert u.pageId page.compiled → after.cards = s.cards →
      MachineStep u s after
  | wrote (page written : Page) :
      s.pages.lookup u.pageId = some page → Permitted u page →
      written.content = u.req.content → written.version = page.version + 1 →
      after.pages = s.pages.insert u.pageId written → after.cards = s.cards →
      MachineStep u s after

theorem Delivery.Tracked.machineStep {delivery : Delivery} {fences : List (String × PageFence)}
    (h : delivery.Tracked s fences) (hmachine : delivery.update.writer.isMachine)
    {result : Position × Store}
    (heff : Effect sha256 delivery.update ambient s delivery.position result) :
    MachineStep delivery.update s result.2 := by
  cases heff with
  | idle following => exact .untouched rfl rfl
  | recorded result receipt hposition hreceipt hfresh => exact .untouched rfl rfl
  | staged current sourceRevision card _ hposition hid hcont hpages hhistory hcards hreceipt =>
    exact .staged ambient.cardId card hid hcont hpages hcards
  | cleared current result replayed page hposition hpage _ => exact .compiled page hpage rfl rfl
  | acknowledged current page _ hposition hpage hpages hhistory hcards hreceipt =>
    exact .compiled page hpage hpages hcards
  | wrote current attempt changelog page _ hposition hlanded =>
    have hgated : delivery.position.gated = some current := by
      rw [hposition]
      rfl
    obtain ⟨hgate, hvers⟩ := h.gate current hgated
    have hheld := h.row current (Position.loaded_of_gated hgated)
    obtain ⟨there, hthere, hmoves⟩ := hheld.moves
    obtain rfl : there = page := Option.mem_unique hthere hlanded.there
    obtain ⟨write, hwrite⟩ := h.write
    refine .wrote there _ hlanded.there ?_ ?_ rfl hlanded.pages ?_
    · exact permitted_of_admits hwrite hmachine h.notAcceptance hgate hvers hmoves
        hheld.captured hlanded.admitted
    · exact contentUpdate_content
    · rw [hlanded.cards, contentUpdate_consumes]
      rfl

/-- In every run, a step of a machine's delivery replaces a body only where it is permitted to. -/
theorem machine_writes_spare_human_prose (out : Outside) {start s t : System}
    {labels : List Label} {job : Nat} {ambient : Ambient} {delivery : Delivery}
    (hquiet : Quiet start) (hrun : Run (Step out) start labels s)
    (hjob : s.deliveries.lookup job = some delivery)
    (hmachine : delivery.update.writer.isMachine = true)
    (hstep : Step out s (.advance job ambient) t) :
    MachineStep delivery.update s.store t.store := by
  have htrack : Tracked s :=
    hrun.invariant (fun _ _ _ hinv hone => hinv.step hone) (tracked_of_quiet hquiet)
  have heff := advance_effect out.sha256 delivery.update ambient s.store delivery.position
  have hsteppe := hstep.stepped
  cases hsteppe with
  | advance _ _ found hfound =>
    obtain rfl : delivery = found := Option.some.inj (hjob.symm.trans hfound)
    exact (htrack.deliveries job delivery hjob).machineStep hmachine heff

def rebuiltOutside : Outside where
  sha256 fields := ",".intercalate fields
  toLowercase := id

def rebuiltAmbient : Ambient where
  now := 5
  cardId := "card"
  grounded := true
  shrunkBelow := none
  memoryCurrent := true

def editedPage : Page where
  title := "Notes"
  content := "a person's words"
  sourceMemoryIds := ["m1"]
  version := 4
  sourceRevision := 2
  incarnation := "i1"
  status := "active"
  kind := "concept"
  creationKind := "distilled"
  reviewStatus := "confirmed"
  space := "work"
  userEdited := true
  reviewRequired := false
  staleReason := none
  refreshBlockedReason := none
  sourcesUpdatedCount := 0
  citations := none
  changelog := []

def rebuiltStart : System where
  store := { pages := (∅ : AList fun _ : String => Page).insert "p" editedPage, history := ∅
             receipts := ∅, cards := ∅ }
  fences := []
  started := 0
  deliveries := ∅
  rewrites := ∅

def rebuiltWrite : PageWrite :=
  .userForcedUpdate "p"
    { content := "rebuilt words", sourceMemoryIds := ["m1"], expectedVersion := none
      callerId := none, operationId := none }
    "re_distill" editedPage.fence none

def rebuiltLabels : List Label :=
  [.readFence "p", .deliver 0 rebuiltWrite, .advance 0 rebuiltAmbient,
    .advance 0 rebuiltAmbient, .advance 0 rebuiltAmbient]

theorem machine_writes_spare_human_prose_rebuilt :
    ∃ s t, Run (Step rebuiltOutside) rebuiltStart rebuiltLabels s ∧
      Step rebuiltOutside s (.advance 0 rebuiltAmbient) t ∧
      MachineStep rebuiltWrite.toUpdate s.store t.store ∧
      (t.store.pages.lookup "p").map Page.content = some "rebuilt words" := by
  have hready : (rebuiltLabels.foldlM (next rebuiltOutside) rebuiltStart).any (fun s =>
      decide ((s.deliveries.lookup 0).map Delivery.update = some rebuiltWrite.toUpdate ∧
        (next rebuiltOutside s (.advance 0 rebuiltAmbient)).any (fun t =>
          (t.store.pages.lookup "p").map Page.content == some "rebuilt words") = true)) = true := by
    decide +kernel
  obtain ⟨s, hrun, hupd, hwrit⟩ := Run.of_foldlM_any (fun _ _ _ h => h) hready
  obtain ⟨delivery, hdeliv, hdel⟩ := Option.map_eq_some_iff.mp hupd
  obtain ⟨t, hstep, hcont⟩ := (Option.any_eq_true _ _).mp hwrit
  have hmachine : delivery.update.writer.isMachine = true := by
    rw [hdel]
    decide +kernel
  have hmach := machine_writes_spare_human_prose rebuiltOutside ⟨rfl, rfl, rfl⟩ hrun
    hdeliv hmachine hstep
  rw [hdel] at hmach
  exact ⟨s, t, hrun, hstep, hmach, beq_iff_eq.mp hcont⟩

end Wenlan.Updates
