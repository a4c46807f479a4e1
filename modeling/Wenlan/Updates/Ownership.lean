import Wenlan.Updates.Effects

/-!
# Machine writes and human prose

A delivery decides from a row it loaded and writes under the fences of its shape.  The row it
loaded moves to the row it writes, the counters that its caller captured are no later than the
loaded ones, and so a fence that holds at the write tells that the owner is the one it decided
on.
-/

namespace Wenlan.Updates

open Pages PageUpdate

variable {sha256 : List String → String} {u : PageUpdate} {ambient : Ambient} {s t : Store}
  {current page : Page} {position : Position}

theorem PageUpdate.decide_eq_write (h : u.decide ambient current = .write) :
    u.requiresReview current = false ∧ u.versionRefusal current = none := by
  unfold decide at h
  split at h
  · cases h
  · split at h
    · cases h
    · split at h
      · cases h
      · rename_i hvers
        split at h
        · cases h
        · rename_i hrevie
          exact ⟨Bool.eq_false_iff.mpr hrevie, hvers⟩

/-- A caller that says which version it read has read the loaded one. -/
theorem PageUpdate.expectedVersion_eq (h : u.versionRefusal current = none) {expected : Int}
    (hexp : u.req.expectedVersion = some expected) : expected = current.version := by
  unfold versionRefusal at h
  rw [hexp] at h
  dsimp only at h
  split at h
  · cases h
  · rename_i heq
    exact not_not.mp heq

/-- The gate lets a machine write through in three cases. -/
theorem PageUpdate.gate_passed (hmach : u.writer.isMachine)
    (h : u.requiresReview current = false) :
    (u.writer.isAgent ∧ u.req.expectedVersion.isSome) ∨
      u.userForced ∨ pageIsHumanOwned current = false := by
  unfold requiresReview machineWriteRequiresReview at h
  rw [hmach] at h
  by_cases hagent : (u.writer.isAgent && u.req.expectedVersion.isSome)
  · rw [Bool.and_eq_true] at hagent
    exact .inl hagent
  · by_cases hforced : u.userForced
    · exact .inr (.inl hforced)
    · rw [if_neg (by decide), if_neg hagent, if_neg hforced] at h
      split at h
      · cases h
      · exact .inr (.inr h)

theorem PageWrite.userForced_fence (write : PageWrite)
    (h : write.toUpdate.userForced) : ∃ fence, write.toUpdate.pageFence = some fence := by
  cases write with
  | userForcedUpdate pageId req editedBy expectedFence citations => exact ⟨expectedFence, rfl⟩
  | update | agentUpdate | updatePreservingSources | growth => cases h

/-! ## The row that a delivery holds -/

def Position.loaded : Position → Option Page
  | .readRevision current | .stage current _ | .clear current _ _ | .acknowledge current
  | .readChangelog current _ | .write current _ _ | .reload current _ => some current
  | .replay _ staged => staged
  | .start | .load _ | .terminal _ | .answered _ => none

/-- The row that a position is about to write, the gate being passed. -/
def Position.gated : Position → Option Page
  | .readChangelog current _ | .write current _ _ => some current
  | _ => none

theorem Position.loaded_of_gated {position : Position} (h : position.gated = some current) :
    position.loaded = some current := by
  cases position with
  | readChangelog _ _ | write _ _ _ => exact h
  | _ => cases h

variable {decision : Decision}

theorem PageUpdate.follow_loaded {held : Page} {attempt : Nat}
    (h : (u.follow current attempt decision).loaded = some held) : held = current := by
  cases decision with
  | answer _ | terminal _ => cases h
  | acknowledge | write => exact (Option.some.inj h).symm
  | review =>
    dsimp only [follow] at h
    split at h
    all_goals exact (Option.some.inj h).symm

theorem PageUpdate.follow_gated {held : Page} {attempt : Nat}
    (h : (u.follow current attempt decision).gated = some held) :
    held = current ∧ decision = .write := by
  cases decision with
  | answer _ | terminal _ | acknowledge => cases h
  | write => exact ⟨(Option.some.inj h).symm, rfl⟩
  | review =>
    dsimp only [follow] at h
    split at h
    · cases h
    · cases h

/-- Where a step leads. -/
inductive Follows (sha256 : List String → String) (u : PageUpdate) (ambient : Ambient) (s : Store) :
    Position → Position → Prop
  | ended (position answer) : Follows sha256 u ambient s position (.answered answer)
  | canonical {content} (h : validateCanonicalPageContent u.req.content = .ok content) :
    Follows sha256 u ambient s .start (.load 1)
  | decided {found} (attempt) (h : getPage s u.pageId = some found) :
    Follows sha256 u ambient s (.load attempt) (u.follow found attempt (u.decide ambient found))
  | numbered (current revision) :
    Follows sha256 u ambient s (.readRevision current) (.stage current revision)
  | card (current revision) (h : InsertsReceipt
      (u.receipt sha256 (u.stagedResult ambient.cardId) ambient.now) s
      (u.stage sha256 ambient s current revision).2) :
    Follows sha256 u ambient s (.stage current revision)
      (.clear current (u.stagedResult ambient.cardId) false)
  | unstaged (current revision result) :
    Follows sha256 u ambient s (.stage current revision) (.terminal result)
  | collided (current revision error) :
    Follows sha256 u ambient s (.stage current revision) (.replay error (some current))
  | unacknowledged (current result) :
    Follows sha256 u ambient s (.acknowledge current) (.terminal result)
  | recorded (result error) : Follows sha256 u ambient s (.terminal result) (.replay error none)
  | replayed {key stored result} (error current) (hstored : u.stored s = some (key, stored))
      (h : u.replayed sha256 key stored = .ok result) :
    Follows sha256 u ambient s (.replay error (some current)) (.clear current result true)
  | composed (current attempt) : Follows sha256 u ambient s (.readChangelog current attempt)
      (u.readChangelog ambient s current attempt)
  | missed (current attempt changelog) :
    Follows sha256 u ambient s (.write current attempt changelog) (.reload current attempt)
  | again (current attempt next) :
    Follows sha256 u ambient s (.reload current attempt) (.load next)
  | landed (current attempt result) :
    Follows sha256 u ambient s (.reload current attempt) (.terminal result)

theorem advance_follows (sha256 : List String → String) (u : PageUpdate) (ambient : Ambient)
    (s : Store) (position : Position) :
    Follows sha256 u ambient s position (u.advance sha256 ambient s position).1 := by
  cases position with
  | start =>
    dsimp only [advance, lookUp]
    split
    · exact .ended _ _
    · split
      · exact .ended _ _
      · split
        · exact .ended _ _
        · rename_i hcanonical
          exact .canonical hcanonical
  | load attempt =>
    dsimp only [advance, load]
    split
    · exact .ended _ _
    · rename_i hfound
      exact .decided attempt hfound
  | readRevision current =>
    dsimp only [advance, readRevision]
    split
    · exact .ended _ _
    · exact .numbered current _
  | stage current revision =>
    dsimp only [advance, stage]
    split
    · rename_i after hstaged
      obtain ⟨_, -, -, -, -, -, hins⟩ := stageCard_eq_ok hstaged
      unfold afterCard
      split
      · refine .card current revision ?_
        unfold stage
        dsimp only
        rw [hstaged]
        exact hins
      · exact .ended _ _
    · exact .unstaged current revision _
    · unfold afterError
      split
      · exact .collided current revision _
      · exact .ended _ _
  | clear | answered => exact .ended _ _
  | acknowledge current =>
    dsimp only [advance, acknowledgeStep]
    split
    · exact .ended _ _
    · exact .unacknowledged current _
    · exact .ended _ _
  | terminal result =>
    dsimp only [advance, terminal]
    split
    · exact .ended _ _
    · split
      · exact .ended _ _
      · unfold afterError
        split
        · exact .recorded result _
        · exact .ended _ _
  | replay error staged =>
    dsimp only [advance, replay]
    split
    · exact .ended _ _
    · rename_i hstored
      split
      · rename_i hreplayed
        unfold afterCard
        split
        · exact .replayed error _ hstored hreplayed
        · exact .ended _ _
      · exact .ended _ _
  | readChangelog current attempt => exact .composed current attempt
  | write current attempt changelog =>
    dsimp only [advance, write]
    split
    · exact .ended _ _
    · exact .missed current attempt changelog
    · exact .ended _ _
  | reload current attempt =>
    dsimp only [advance, reload]
    split
    · split
      · exact .again current attempt _
      · exact .ended _ _
    · exact .landed current attempt _

/-- A step holds on to the row that it held, or to the one it loads. -/
theorem advance_loaded (h : (u.advance sha256 ambient s position).1.loaded = some current) :
    position.loaded = some current ∨ getPage s u.pageId = some current := by
  have hnext := advance_follows sha256 u ambient s position
  generalize (u.advance sha256 ambient s position).1 = next at h hnext
  cases hnext with
  | decided _ hfound =>
    obtain rfl := follow_loaded h
    exact .inr hfound
  | numbered | card | collided | replayed | composed | missed => exact .inl h
  | _ => cases h

/-- A step past the gate comes from one, or from a load that the gate lets through. -/
theorem advance_gated (h : (u.advance sha256 ambient s position).1.gated = some current) :
    position.gated = some current ∨ u.decide ambient current = .write := by
  have hnext := advance_follows sha256 u ambient s position
  generalize (u.advance sha256 ambient s position).1 = next at h hnext
  cases hnext with
  | decided =>
    obtain ⟨rfl, hwrite⟩ := follow_gated h
    exact .inr hwrite
  | composed => exact .inl h
  | _ => cases h

/-! ## The invariant -/

structure HoldsRow (u : PageUpdate) (s : Store) (current : Page) : Prop where
  moves : ∃ page, s.pages.lookup u.pageId = some page ∧ current.Moves page
  captured : ∀ revision, u.expectedSourceRevision = some revision →
    revision ≤ current.sourceRevision

def FenceOf (s : Store) (pageId : String) (fence : PageFence) : Prop :=
  ∃ page, s.pages.lookup pageId = some page ∧ page.incarnation = fence.incarnation ∧
    fence.sourceRevision ≤ page.sourceRevision

structure Delivery.Tracked (delivery : Delivery) (s : Store)
    (fences : List (String × PageFence)) : Prop where
  write : ∃ write : PageWrite, delivery.update = write.toUpdate
  fencesRead : delivery.update.fencesRead fences = true
  notAcceptance : delivery.update.editedBy ≠ "revision_accept"
  row : ∀ current, delivery.position.loaded = some current → HoldsRow delivery.update s current
  gate : ∀ current, delivery.position.gated = some current →
    delivery.update.requiresReview current = false ∧ delivery.update.versionRefusal current = none

structure Tracked (s : System) : Prop where
  fences : ∀ pageId fence, (pageId, fence) ∈ s.fences → FenceOf s.store pageId fence
  deliveries : ∀ job delivery, s.deliveries.lookup job = some delivery →
    delivery.Tracked s.store s.fences

theorem HoldsRow.of_moves (h : HoldsRow u s current) (hmoves : s.Moves t) :
    HoldsRow u t current where
  moves := by
    obtain ⟨page, hpage, hcur⟩ := h.moves
    obtain ⟨later, hlater, hpag⟩ := hmoves u.pageId page hpage
    exact ⟨later, hlater, hcur.trans hpag⟩
  captured := h.captured

theorem FenceOf.of_moves {pageId : String} {fence : PageFence} (h : FenceOf s pageId fence)
    (hmoves : s.Moves t) : FenceOf t pageId fence := by
  obtain ⟨page, hpage, hinc, hrev⟩ := h
  obtain ⟨later, hlater, hpag⟩ := hmoves pageId page hpage
  exact ⟨later, hlater, hpag.incarnation.trans hinc, hrev.trans hpag.sourceRevision⟩

variable {fences : List (String × PageFence)}

variable {more : List (String × PageFence)}

theorem PageUpdate.fencesRead_mono
    (h : u.fencesRead fences) (hsub : fences ⊆ more) : u.fencesRead more := by
  unfold fencesRead at h ⊢
  rw [Bool.and_eq_true, Option.all_eq_true, Option.all_eq_true] at h ⊢
  refine ⟨fun revision hrev => ?_, fun fence hfence => ?_⟩
  · obtain ⟨read, hread, hmatch⟩ := List.any_eq_true.mp (h.1 revision hrev)
    exact List.any_eq_true.mpr ⟨read, hsub hread, hmatch⟩
  · exact List.contains_iff_mem.mpr (hsub (List.contains_iff_mem.mp (h.2 fence hfence)))

theorem Delivery.Tracked.of_moves {delivery : Delivery}
    (h : delivery.Tracked s fences) (hmoves : s.Moves t) (hsub : fences ⊆ more) :
    delivery.Tracked t more where
  write := h.write
  fencesRead := fencesRead_mono h.fencesRead hsub
  notAcceptance := h.notAcceptance
  row := fun current hcur => (h.row current hcur).of_moves hmoves
  gate := h.gate

theorem holdsRow_of_getPage
    (hfenc : ∀ pageId fence, (pageId, fence) ∈ fences → FenceOf s pageId fence)
    (hread : u.fencesRead fences) (h : getPage s u.pageId = some current) :
    HoldsRow u s current where
  moves := ⟨current, getPage_eq_some h, .refl current⟩
  captured := by
    intro revision hrev
    obtain ⟨fence, hmem, hfence⟩ := fencesRead_revision hread hrev
    obtain ⟨page, hpage, -, hle⟩ := hfenc u.pageId fence hmem
    obtain rfl : page = current := Option.mem_unique hpage (getPage_eq_some h)
    rw [← hfence]
    exact hle

theorem Delivery.Tracked.advance {delivery : Delivery} (h : delivery.Tracked s fences)
    (hfenc : ∀ pageId fence, (pageId, fence) ∈ fences → FenceOf s pageId fence) : ({ delivery with
        position := (delivery.update.advance sha256 ambient s delivery.position).1 } :
      Delivery).Tracked (delivery.update.advance sha256 ambient s delivery.position).2 fences where
  write := h.write
  fencesRead := h.fencesRead
  notAcceptance := h.notAcceptance
  row := by
    intro current hcur
    have hmoves := (advance_effect sha256 delivery.update ambient s delivery.position).moves
    have hheld : HoldsRow delivery.update s current := by
      obtain hold | hload := advance_loaded hcur
      · exact h.row current hold
      · exact holdsRow_of_getPage hfenc h.fencesRead hload
    exact hheld.of_moves hmoves
  gate := by
    intro current hcur
    obtain hold | hwrite := advance_gated hcur
    · exact h.gate current hold
    · exact decide_eq_write hwrite

theorem tracked_of_quiet {start : System} (h : Quiet start) : Tracked start where
  fences := by
    intro pageId fence hmem
    rw [h.1] at hmem
    cases hmem
  deliveries := by
    intro job delivery hdelivery
    rw [h.2.1] at hdelivery
    cases hdelivery

theorem Tracked.of_moves {s t : System} (h : Tracked s) (hmoves : s.store.Moves t.store)
    (hfenc : t.fences = s.fences)
    (hdel : ∀ job delivery, t.deliveries.lookup job = some delivery →
      s.deliveries.lookup job = some delivery) : Tracked t where
  fences := by
    intro pageId fence hmem
    rw [hfenc] at hmem
    exact (h.fences pageId fence hmem).of_moves hmoves
  deliveries := by
    intro job delivery hdelivery
    rw [hfenc]
    exact (h.deliveries job delivery (hdel job delivery hdelivery)).of_moves hmoves
      (List.Subset.refl s.fences)

theorem Tracked.step {out : Outside} {s t : System} {label : Label} (h : Tracked s)
    (hstep : Step out s label t) : Tracked t := by
  have hsteppe := hstep.stepped
  have hmoves := hsteppe.moves
  cases hsteppe with
  | readFence pageId page hpage =>
    constructor
    · intro other fence hmem
      obtain heq | hold := List.mem_cons.mp hmem
      · obtain ⟨rfl, rfl⟩ := Prod.mk.inj heq
        exact ⟨page, hpage, rfl, le_rfl⟩
      · exact h.fences other fence hold
    · intro job delivery hdelivery
      exact (h.deliveries job delivery hdelivery).of_moves (.refl s.store)
        (List.subset_cons_self _ s.fences)
  | deliver job write hfree hread hname =>
    refine ⟨h.fences, fun other delivery hdelivery => ?_⟩
    by_cases heq : other = job
    · obtain rfl := heq
      have hnew : ({ update := write.toUpdate, position := .start } : Delivery) = delivery :=
        Option.some.inj ((AList.lookup_insert s.deliveries).symm.trans hdelivery)
      rw [← hnew]
      exact
        { write := ⟨write, rfl⟩
          fencesRead := hread
          notAcceptance := hname
          row := fun current hcur => by cases hcur
          gate := fun current hcur => by cases hcur }
    · exact h.deliveries other delivery ((AList.lookup_insert_ne heq).symm.trans hdelivery)
  | advance job ambient delivery hdelivery =>
    refine ⟨fun pageId fence hmem => (h.fences pageId fence hmem).of_moves hmoves,
      fun other found hfound => ?_⟩
    by_cases heq : other = job
    · obtain rfl := heq
      have hnew : ({ delivery with
          position := (delivery.update.advance out.sha256 ambient s.store
            delivery.position).1 } : Delivery) = found :=
        Option.some.inj ((AList.lookup_insert s.deliveries).symm.trans hfound)
      rw [← hnew]
      exact (h.deliveries other delivery hdelivery).advance h.fences
    · have hold : s.deliveries.lookup other = some found :=
        (AList.lookup_insert_ne heq).symm.trans hfound
      exact (h.deliveries other found hold).of_moves hmoves (List.Subset.refl s.fences)
  | drop job =>
    refine h.of_moves hmoves rfl fun other delivery hdelivery => ?_
    by_cases heq : other = job
    · obtain rfl := heq
      rw [AList.lookup_erase] at hdelivery
      cases hdelivery
    · exact (AList.lookup_erase_ne heq).symm.trans hdelivery
  | rewrite job rewrite hfree => exact h.of_moves hmoves rfl fun _ _ hdelivery => hdelivery
  | advanceRewrite job now rewrite position hentry =>
    exact h.of_moves hmoves rfl fun _ _ hdelivery => hdelivery
  | event event now =>
    refine h.of_moves hmoves ?_ ?_
    · unfold System.afterEvent
      split
      · rfl
      · split <;> rfl
    · intro job delivery hdelivery
      unfold System.afterEvent at hdelivery
      split at hdelivery
      · exact hdelivery
      · split at hdelivery
        · cases hdelivery
        · exact hdelivery
  | crash => exact h.of_moves hmoves rfl fun _ _ hdelivery => by cases hdelivery

end Wenlan.Updates
