import Wenlan.Claims.Support
import Wenlan.Support.Transition

/-!
# One active edge for a place

A judge's verdict on a place is one row of `edges`.  Writing a new verdict retires the
active row of the place, so there is never a second one on that path.  Writing a verdict
again that was retracted in the meantime brings its row back, and that path does not look
at the place: the rule holds exactly as long as no such call finds another active row there.
-/

namespace Wenlan.Claims

open Support.Transition

variable {Score : Type} {rt : Runtime Score}

inductive SupportOp (Score : Type) where
  | write (call : SupportCall Score)
  | movePage (pageId : String) (space : Option String) (now : Int)
  | deletePage (pageId : String) (now : Int)
  | moveMemory (rowId : String) (space : Option String) (version : Option Int) (now : Int)
  | deleteMemory (rowId : String) (now : Int)
  | rebindSource (oldSourceId newSourceId : String) (now : Int)
  | retireStale (pageId : String) (pageVersion runGeneration now : Int)

variable (rt) in
def SupportOp.apply (db : Database Score) : SupportOp Score → Database Score
  | .write call => (writeSupportEdge rt db call).2
  | .movePage pageId space now => Claims.movePage db pageId space now
  | .deletePage pageId now => Claims.deletePage db pageId now
  | .moveMemory rowId space version now => Claims.moveMemory db rowId space version now
  | .deleteMemory rowId now => Claims.deleteMemory db rowId now
  | .rebindSource oldSourceId newSourceId now => Claims.rebindSource db oldSourceId newSourceId now
  | .retireStale pageId pageVersion runGeneration now =>
    retireStaleSupport db pageId pageVersion runGeneration now

def Edge.unplaced (edge : Edge) : Edge := { edge with space := "" }

variable (rt) in
/-- A step is one of the operations, or anything else that the program does with the other
tables and with the column `space`. -/
inductive SupportStep : Database Score → Option (SupportOp Score) → Database Score → Prop
  | op (db : Database Score) (op : SupportOp Score) : SupportStep db (some op) (op.apply rt db)
  | other {db next : Database Score}
      (h : ∀ id, (next.edges id).map Edge.unplaced = (db.edges id).map Edge.unplaced) :
      SupportStep db none next

theorem SupportStep.ops (rt : Runtime Score) (db : Database Score) (ops : List (SupportOp Score)) :
    Run (SupportStep rt) db (ops.map some) (ops.foldl (SupportOp.apply rt) db) := by
  induction ops generalizing db with
  | nil => exact .refl db
  | cons op ops ih => exact .cons (.op db op) (ih (op.apply rt db))

namespace Database

def Active (db : Database Score) (id : String) (edge : Edge) : Prop :=
  db.edges id = some edge ∧ edge.validUntil = none

def OneActive (db : Database Score) : Prop :=
  ∀ id id' edge edge', db.Active id edge → db.Active id' edge' →
    edge.locator = edge'.locator → id = id'

/-- An active row was not superseded. -/
def Unreplaced (db : Database Score) : Prop :=
  ∀ id edge, db.Active id edge → edge.supersededBy = none

/-- Every active row of `next` was one of `db`, for the same place. -/
def Retires (db next : Database Score) : Prop :=
  ∀ id edge, next.Active id edge → ∃ before, db.Active id before ∧ before.locator = edge.locator ∧
      before.supersededBy = edge.supersededBy

variable {db next : Database Score}

theorem Retires.refl (db : Database Score) : db.Retires db :=
  fun _ edge h => ⟨edge, h, rfl, rfl⟩

theorem Retires.of_edges (h : next.edges = db.edges) : db.Retires next := by
  intro id edge hact
  have hsame : db.Active id edge := ⟨h ▸ hact.1, hact.2⟩
  exact ⟨edge, hsame, rfl, rfl⟩

theorem Retires.oneActive (h : db.Retires next) (hone : db.OneActive) : next.OneActive := by
  intro id id' edge edge' hedge hedge' hloc
  obtain ⟨before, hbef, hl, -⟩ := h id edge hedge
  obtain ⟨before', hbef', hl', -⟩ := h id' edge' hedge'
  exact hone id id' before before' hbef hbef' (by rw [hl, hl', hloc])

theorem Retires.unreplaced (h : db.Retires next) (hun : db.Unreplaced) : next.Unreplaced := by
  intro id edge hedge
  obtain ⟨before, hbef, -, hs⟩ := h id edge hedge
  rw [← hs]
  exact hun id before hbef

theorem retires_retract {moved : Database Score} (dependent : Edge → Bool) (now : Int)
    (hbef : moved.edges = db.edges) (hafter : next.edges = (moved.retract dependent now).edges) :
    db.Retires next := by
  intro id edge hedge
  obtain ⟨hrow, hvalid⟩ := hedge
  rw [hafter] at hrow
  obtain ⟨row, hstor, rfl⟩ := Option.map_eq_some_iff.mp hrow
  rw [hbef] at hstor
  split at hvalid
  · cases hvalid
  · rename_i hkept
    rw [if_neg hkept]
    exact ⟨row, ⟨hstor, hvalid⟩, rfl, rfl⟩

end Database

open Database

variable {db next : Database Score}

section

variable (db : Database Score)

theorem movePage_retires (pageId : String) (space : Option String)
    (now : Int) : db.Retires (Claims.movePage db pageId space now) := by
  unfold Claims.movePage
  split
  · exact .refl db
  · split
    · exact .of_edges rfl
    · exact retires_retract _ now rfl rfl

theorem deletePage_retires (pageId : String) (now : Int) :
    db.Retires (Claims.deletePage db pageId now) :=
  retires_retract (db.dependsOnPage pageId) now rfl rfl

theorem moveMemory_retires (rowId : String) (space : Option String)
    (version : Option Int) (now : Int) :
    db.Retires (Claims.moveMemory db rowId space version now) := by
  unfold Claims.moveMemory
  split
  · exact .refl db
  · split
    · exact .of_edges rfl
    · exact retires_retract _ now rfl rfl

theorem deleteMemory_retires (rowId : String) (now : Int) :
    db.Retires (Claims.deleteMemory db rowId now) := by
  unfold Claims.deleteMemory
  split
  · exact .refl db
  · rename_i row _
    dsimp only
    split
    · exact retires_retract (fun edge => edge.dstId == row.sourceId) now rfl rfl
    · exact .of_edges rfl

theorem rebindSource_retires (oldSourceId newSourceId : String)
    (now : Int) : db.Retires (Claims.rebindSource db oldSourceId newSourceId now) := by
  unfold Claims.rebindSource
  split
  · exact .refl db
  · exact retires_retract (fun edge => edge.dstId == oldSourceId) now rfl rfl

end

theorem SupportStep.other_retires
    (h : ∀ id, (next.edges id).map Edge.unplaced = (db.edges id).map Edge.unplaced) :
    db.Retires next := by
  intro id edge hedge
  have hrow : (db.edges id).map Edge.unplaced = some edge.unplaced := by
    rw [← h id, hedge.1]
    rfl
  obtain ⟨before, hstor, hsame⟩ := Option.map_eq_some_iff.mp hrow
  have hvalid : before.unplaced.validUntil = edge.unplaced.validUntil :=
    congrArg Edge.validUntil hsame
  have hloc : before.unplaced.locator = edge.unplaced.locator := congrArg Edge.locator hsame
  have hsup : before.unplaced.supersededBy = edge.unplaced.supersededBy :=
    congrArg Edge.supersededBy hsame
  exact ⟨before, ⟨hstor, hvalid.trans hedge.2⟩, hloc, hsup⟩

/-! ## Writing -/

/-- The call brings a retracted row back although another row of its place is active. -/
def ReactivatesBeside (rt : Runtime Score) (db : Database Score) (call : SupportCall Score) :
    Prop :=
  (∃ space, verifySupport rt db call = .ok space) ∧
    ∃ stored, db.edges (call.edgeId rt) = some stored ∧ stored.payload = call.payload rt ∧
      stored.validUntil ≠ none ∧ stored.supersededBy = none ∧ db.fenced stored ∧
      ∃ id edge, db.Active id edge ∧ edge.locator = stored.locator

variable {edge : Edge}

theorem insertEdge_active {id key : String} {row : Edge} {locator : SupportLocator}
    {now : Int} (hun : db.Unreplaced) (h : (db.insertEdge id edge locator now).Active key row) :
    key = id ∧ row = edge ∨ key ≠ id ∧ db.Active key row ∧ row.locator ≠ locator := by
  obtain ⟨hrow, hvalid⟩ := h
  change (if key = id then some edge
    else (db.edges key).map fun row => row.superseded id locator now) = some row at hrow
  by_cases hkey : key = id
  · rw [if_pos hkey] at hrow
    exact .inl ⟨hkey, (Option.some.inj hrow).symm⟩
  · rw [if_neg hkey] at hrow
    obtain ⟨stored, hstor, hsuper⟩ := Option.map_eq_some_iff.mp hrow
    unfold Edge.superseded at hsuper
    split at hsuper
    · rw [← hsuper] at hvalid
      cases hvalid
    · rename_i hkept
      subst hsuper
      have hact : db.Active key stored := ⟨hstor, hvalid⟩
      refine .inr ⟨hkey, hact, ?_⟩
      intro hloc
      apply hkept
      simp [hvalid, hun key stored hact, hloc]

theorem insertEdge_unreplaced {id : String} {locator : SupportLocator}
    {now : Int} (hnew : edge.supersededBy = none) (hun : db.Unreplaced) :
    (db.insertEdge id edge locator now).Unreplaced := by
  intro key row hrow
  rcases insertEdge_active hun hrow with ⟨-, rfl⟩ | ⟨-, hact, -⟩
  · exact hnew
  · exact hun key row hact

theorem insertEdge_oneActive {id : String} {now : Int} (hun : db.Unreplaced)
    (hone : db.OneActive) : (db.insertEdge id edge edge.locator now).OneActive := by
  intro key key' row row' hrow hrow' hloc
  rcases insertEdge_active hun hrow with ⟨hkey, hsame⟩ | ⟨-, hact, hplace⟩ <;>
    rcases insertEdge_active hun hrow' with ⟨hkey', hsame'⟩ | ⟨-, hact', hplace'⟩
  · rw [hkey, hkey']
  · rw [hsame] at hloc
    exact absurd hloc.symm hplace'
  · rw [hsame'] at hloc
    exact absurd hloc hplace
  · exact hone key key' row row' hact hact' hloc

theorem putEdge_active {id key : String} {row : Edge} (h : (db.putEdge id edge).Active key row) :
    key = id ∧ row = edge ∨ key ≠ id ∧ db.Active key row := by
  obtain ⟨hrow, hvalid⟩ := h
  change (if key = id then some edge else db.edges key) = some row at hrow
  by_cases hkey : key = id
  · rw [if_pos hkey] at hrow
    exact .inl ⟨hkey, (Option.some.inj hrow).symm⟩
  · rw [if_neg hkey] at hrow
    exact .inr ⟨hkey, hrow, hvalid⟩

theorem putEdge_unreplaced {id : String} (hedge : edge.supersededBy = none)
    (hun : db.Unreplaced) : (db.putEdge id edge).Unreplaced := by
  intro key row hrow
  rcases putEdge_active hrow with ⟨-, rfl⟩ | ⟨-, hact⟩
  · exact hedge
  · exact hun key row hact

theorem putEdge_oneActive_iff {id : String} {stored : Edge} (hone : db.OneActive)
    (hstor : db.edges id = some stored) (hended : stored.validUntil ≠ none) :
    (db.putEdge id stored.reactivated).OneActive ↔
      ¬ ∃ key edge, db.Active key edge ∧ edge.locator = stored.locator := by
  have hback : (db.putEdge id stored.reactivated).Active id stored.reactivated := by
    refine ⟨?_, rfl⟩
    exact if_pos rfl
  constructor
  · rintro hnext ⟨key, edge, hact, hloc⟩
    have hkey : key ≠ id := by
      rintro rfl
      have hsame : some edge = some stored := hact.1.symm.trans hstor
      rw [← Option.some.inj hsame] at hended
      exact hended hact.2
    have hkept : (db.putEdge id stored.reactivated).Active key edge := by
      refine ⟨?_, hact.2⟩
      exact (if_neg hkey).trans hact.1
    exact hkey (hnext key id edge stored.reactivated hkept hback hloc)
  · intro hfree key key' row row' hrow hrow' hloc
    rcases putEdge_active hrow with ⟨hkey, hsame⟩ | ⟨-, hact⟩ <;>
      rcases putEdge_active hrow' with ⟨hkey', hsame'⟩ | ⟨-, hact'⟩
    · rw [hkey, hkey']
    · rw [hsame] at hloc
      exact absurd ⟨key', row', hact', hloc.symm⟩ hfree
    · rw [hsame'] at hloc
      exact absurd ⟨key, row, hact, hloc⟩ hfree
    · exact hone key key' row row' hact hact' hloc

/-- What a call does to the table: nothing, a row brought back, or a new row. -/
theorem writeSupportEdge_cases (rt : Runtime Score) (db : Database Score)
    (call : SupportCall Score) :
    ((writeSupportEdge rt db call).2 = db ∧ ¬ ReactivatesBeside rt db call) ∨
    (∃ stored, db.edges (call.edgeId rt) = some stored ∧ stored.validUntil ≠ none ∧
      (writeSupportEdge rt db call).2 = db.putEdge (call.edgeId rt) stored.reactivated ∧
      (ReactivatesBeside rt db call ↔
        ∃ id edge, db.Active id edge ∧ edge.locator = stored.locator)) ∨
    (∃ space, (writeSupportEdge rt db call).2 =
        db.insertEdge (call.edgeId rt) (call.newEdge rt space) call.locator call.now ∧
      ¬ ReactivatesBeside rt db call) := by
  unfold writeSupportEdge
  cases hver : verifySupport rt db call with
  | error error =>
    refine .inl ⟨rfl, ?_⟩
    rintro ⟨⟨space, hok⟩, -⟩
    rw [hver] at hok
    cases hok
  | ok space =>
    dsimp only
    cases hrow : db.edges (call.edgeId rt) with
    | none =>
      have hnot : ¬ ReactivatesBeside rt db call := by
        rintro ⟨-, stored, hstor, -⟩
        rw [hrow] at hstor
        cases hstor
      dsimp only
      split
      · exact .inr (.inr ⟨space, rfl, hnot⟩)
      · exact .inl ⟨rfl, hnot⟩
    | some stored =>
      -- the row that the call finds is the one that the condition speaks of
      have hfound : ∀ other, db.edges (call.edgeId rt) = some other → other = stored := by
        intro other hother
        rw [hrow] at hother
        exact (Option.some.inj hother).symm
      dsimp only
      split
      · rename_i hpayl
        split
        · rename_i hretr
          rw [Bool.and_eq_true, Option.isSome_iff_ne_none, Option.isNone_iff_eq_none]
            at hretr
          split
          · rename_i hfenc
            refine .inr (.inl ⟨stored, rfl, hretr.1, rfl, ?_⟩)
            constructor
            · rintro ⟨-, other, hother, -, -, -, -, hact⟩
              rw [hfound other hother] at hact
              exact hact
            · intro hact
              exact ⟨⟨space, hver⟩, stored, hrow, hpayl, hretr.1, hretr.2, hfenc, hact⟩
          · rename_i hfenc
            refine .inl ⟨rfl, ?_⟩
            rintro ⟨-, other, hother, -, -, -, hin, -⟩
            rw [hfound other hother] at hin
            exact hfenc hin
        · rename_i hretr
          refine .inl ⟨rfl, ?_⟩
          rintro ⟨-, other, hother, -, hended, hunr, -⟩
          rw [hfound other hother] at hended hunr
          apply hretr
          rw [hunr, Option.isSome_iff_ne_none.mpr hended]
          rfl
      · rename_i hpayl
        refine .inl ⟨rfl, ?_⟩
        rintro ⟨-, other, hother, hsame, -⟩
        rw [hfound other hother] at hsame
        exact hpayl hsame

theorem writeSupportEdge_unreplaced (call : SupportCall Score) (hun : db.Unreplaced) :
    (writeSupportEdge rt db call).2.Unreplaced := by
  rcases writeSupportEdge_cases rt db call with
    ⟨hsame, -⟩ | ⟨stored, -, -, hput, -⟩ | ⟨space, hins, -⟩
  · rw [hsame]
    exact hun
  · rw [hput]
    exact putEdge_unreplaced rfl hun
  · rw [hins]
    exact insertEdge_unreplaced rfl hun

theorem writeSupportEdge_oneActive_iff (call : SupportCall Score) (hun : db.Unreplaced)
    (hone : db.OneActive) :
    (writeSupportEdge rt db call).2.OneActive ↔ ¬ ReactivatesBeside rt db call := by
  rcases writeSupportEdge_cases rt db call with
    ⟨hsame, hnot⟩ | ⟨stored, hstor, hended, hput, hiff⟩ | ⟨space, hins, hnot⟩
  · rw [hsame]
    exact iff_of_true hone hnot
  · rw [hput, hiff]
    exact putEdge_oneActive_iff hone hstor hended
  · rw [hins]
    have hnew : (call.newEdge rt space).locator = call.locator := rfl
    rw [← hnew]
    exact iff_of_true (insertEdge_oneActive hun hone) hnot

variable (rt) in
/-- The step is no call that brings a row back beside an active one. -/
def Spares (db : Database Score) : Option (SupportOp Score) → Prop
  | some (.write call) => ¬ ReactivatesBeside rt db call
  | _ => True

variable {op : Option (SupportOp Score)}

theorem SupportStep.unreplaced (hun : db.Unreplaced)
    (h : SupportStep rt db op next) : next.Unreplaced := by
  cases h with
  | other h => exact (other_retires h).unreplaced hun
  | op op =>
    cases op with
    | write call => exact writeSupportEdge_unreplaced call hun
    | movePage pageId space now => exact (movePage_retires db pageId space now).unreplaced hun
    | deletePage pageId now => exact (deletePage_retires db pageId now).unreplaced hun
    | moveMemory rowId space version now =>
      exact (moveMemory_retires db rowId space version now).unreplaced hun
    | deleteMemory rowId now => exact (deleteMemory_retires db rowId now).unreplaced hun
    | rebindSource old new now => exact (rebindSource_retires db old new now).unreplaced hun
    | retireStale pageId pageVersion runGeneration now =>
      exact (retires_retract _ now rfl rfl).unreplaced hun

theorem SupportStep.oneActive_iff (hun : db.Unreplaced)
    (hone : db.OneActive) (h : SupportStep rt db op next) : next.OneActive ↔ Spares rt db op := by
  cases h with
  | other h => exact iff_of_true ((other_retires h).oneActive hone) trivial
  | op op =>
    cases op with
    | write call => exact writeSupportEdge_oneActive_iff call hun hone
    | movePage pageId space now =>
      exact iff_of_true ((movePage_retires db pageId space now).oneActive hone) trivial
    | deletePage pageId now =>
      exact iff_of_true ((deletePage_retires db pageId now).oneActive hone) trivial
    | moveMemory rowId space version now =>
      exact iff_of_true ((moveMemory_retires db rowId space version now).oneActive hone) trivial
    | deleteMemory rowId now =>
      exact iff_of_true ((deleteMemory_retires db rowId now).oneActive hone) trivial
    | rebindSource old new now =>
      exact iff_of_true ((rebindSource_retires db old new now).oneActive hone) trivial
    | retireStale pageId pageVersion runGeneration now =>
      exact iff_of_true ((retires_retract _ now rfl rfl).oneActive hone) trivial

/-- What holds along a run that spares. -/
structure Placed (db : Database Score) : Prop where
  unreplaced : db.Unreplaced
  oneActive : db.OneActive

theorem Placed.of_empty (h : ∀ id, db.edges id = none) : Placed db := by
  constructor
  · rintro id edge ⟨hrow, -⟩
    rw [h id] at hrow
    cases hrow
  · rintro id id' edge edge' ⟨hrow, -⟩
    rw [h id] at hrow
    cases hrow

theorem Placed.run {start : Database Score} {ops : List (Option (SupportOp Score))}
    (hrun : Run (Restrict (SupportStep rt) (Spares rt)) start ops db) (hstart : Placed start) :
    Placed db := by
  refine hrun.invariant ?_ hstart
  rintro s op t hs ⟨hspar, hstep⟩
  exact ⟨hstep.unreplaced hs.unreplaced, (hstep.oneActive_iff hs.unreplaced hs.oneActive).mpr hspar⟩

def birds : Database Nat where
  pages := fun id => if id = "page-1" then some ⟨some "work"⟩ else none
  claims := fun id => if id = "claim-1" then some "page-1" else none
  claimRevisions := fun id => if id = "rev-1" then some ⟨"claim-1", "text-1"⟩ else none
  memories := [⟨"row-1", "mem-1", 0, "birds fly", some "work", some 1⟩]
  provenanceRoots := fun id =>
    if id = "root-1" then
      some ⟨1, identityDigest sumRuntime "document_ingest" "birds fly", "document_ingest", "active"⟩
    else none
  entailmentCache := fun key =>
    if key.claimTextDigest = "text-1" then some ⟨90, 75, "on_device"⟩ else none
  pageVersionClaims := [⟨"page-1", 1, "rev-1"⟩]
  runCandidates := []
  edges := fun _ => none

def judgedBy (modelVersion : String) (now : Int) : SupportCall Nat where
  claimRevisionId := "rev-1"
  memorySourceId := "mem-1"
  rootId := "root-1"
  verdict := ⟨0, 1, 0, 5, revisionContentDigest sumRuntime "birds", "qwen3", modelVersion, "p1",
    90, 75⟩
  now := now

/-- The first judge's verdict, the page out of the space and back, the second judge's
verdict, and the first judge's once more. -/
def twoJudges : List (SupportOp Nat) :=
  [.write (judgedBy "v1" 1), .movePage "page-1" (some "home") 2, .movePage "page-1" (some "work") 3,
    .write (judgedBy "v2" 4), .write (judgedBy "v1" 5)]

end Wenlan.Claims
