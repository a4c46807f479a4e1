import Wenlan.Spaces.Statements
import Wenlan.Support.Fallible

/-!
# What the statements do

One lemma for each statement.  The triggers of a statement over memories or pages write a few
tables of the closure and nothing else; a statement over one table of the closure writes that
table, and an update of the edges the graph states as well.
-/

namespace Wenlan.Spaces

open Pages (WenlanError refuseIf_eq_ok)
open Support.Fallible Database

variable {db db' mid : Database} {table other : ClosureTable}

/-- Everything beside the closure is as it was. -/
def OnlyRows (db db' : Database) : Prop :=
  db' = { db with rows := db'.rows }

theorem OnlyRows.refl (db : Database) : OnlyRows db db := rfl

theorem OnlyRows.trans (h : OnlyRows db mid) (h' : OnlyRows mid db') : OnlyRows db db' := by
  unfold OnlyRows at h h' ⊢
  rw [h'.trans (by rw [h])]

theorem OnlyRows.setRows {rows : List (Row table)} : OnlyRows db (db.setRows table rows) := rfl

def triggered : List ClosureTable :=
  [.edges, .spaceGraphState, .communityRouteSpaceInputs, .pageCommunityRouteInputs]

/-- What triggers may have done. -/
structure Fires (db db' : Database) : Prop where
  onlyRows : OnlyRows db db'
  rows : ∀ table, table ∉ triggered → db'.rows table = db.rows table

theorem Fires.refl (db : Database) : Fires db db :=
  ⟨.refl db, fun _ _ => rfl⟩

theorem Fires.trans (h : Fires db mid) (h' : Fires mid db') : Fires db db' :=
  ⟨h.onlyRows.trans h'.onlyRows,
    fun table htable => (h'.rows table htable).trans (h.rows table htable)⟩

theorem Fires.setRows {rows : List (Row table)} (htable : table ∈ triggered) :
    Fires db (db.setRows table rows) := by
  refine ⟨.setRows, fun other hother => rows_setRows_of_ne ?_⟩
  rintro rfl
  exact hother htable

theorem markDirty_onlyRows (space : String) : OnlyRows db (markDirty space db) := rfl

theorem upsertDirty_onlyRows (space : String) : OnlyRows db (upsertDirty space db) := by
  unfold upsertDirty
  split_ifs
  · exact markDirty_onlyRows space
  · exact .setRows

theorem markDirty_rows (space : String) (h : table ≠ .spaceGraphState) :
    (markDirty space db).rows table = db.rows table :=
  rows_setRows_of_ne h

theorem upsertDirty_rows (space : String) (h : table ≠ .spaceGraphState) :
    (upsertDirty space db).rows table = db.rows table := by
  unfold upsertDirty
  split_ifs
  · exact markDirty_rows space h
  · exact rows_setRows_of_ne h

theorem touchGrouping_onlyRows (edge : Edge) (space : String) :
    OnlyRows db (touchGrouping edge space db) := by
  unfold touchGrouping
  split_ifs
  · exact upsertDirty_onlyRows space
  · exact markDirty_onlyRows space

theorem touchGrouping_rows (edge : Edge) (space : String) (h : table ≠ .spaceGraphState) :
    (touchGrouping edge space db).rows table = db.rows table := by
  unfold touchGrouping
  split_ifs
  · exact upsertDirty_rows space h
  · exact markDirty_rows space h

theorem names_upsertDirty {space name : String} (hne : name ≠ space) :
    (upsertDirty space db).names .spaceGraphState name = db.names .spaceGraphState name := by
  unfold upsertDirty
  split_ifs
  · unfold markDirty names
    rw [rows_setRows_self, List.any_map]
    congr 1
    funext row
    simp only [Function.comp_apply]
    split_ifs <;> rfl
  · unfold names
    rw [rows_setRows_self, List.any_append]
    simp [Ne.symm hne]

theorem afterEdgeMove_onlyRows (old new : String) (edge : Edge) :
    OnlyRows db (afterEdgeMove old new db edge) := by
  unfold afterEdgeMove
  split_ifs
  · exact (touchGrouping_onlyRows edge old).trans (touchGrouping_onlyRows edge new)
  · exact .refl db

theorem afterEdgeMove_rows (old new : String) (edge : Edge) (h : table ≠ .spaceGraphState) :
    (afterEdgeMove old new db edge).rows table = db.rows table := by
  unfold afterEdgeMove
  split_ifs
  · rw [touchGrouping_rows edge new h, touchGrouping_rows edge old h]
  · rfl

theorem foldl_afterEdgeMove_onlyRows (old new : String) (edges : List Edge) :
    OnlyRows db (edges.foldl (afterEdgeMove old new) db) := by
  induction edges generalizing db with
  | nil => exact .refl db
  | cons edge rest ih => exact (afterEdgeMove_onlyRows old new edge).trans ih

theorem foldl_afterEdgeMove_rows (old new : String) (edges : List Edge)
    (h : table ≠ .spaceGraphState) :
    (edges.foldl (afterEdgeMove old new) db).rows table = db.rows table := by
  induction edges generalizing db with
  | nil => rfl
  | cons edge rest ih => rw [List.foldl_cons, ih, afterEdgeMove_rows old new edge h]

theorem markDirty_fires (space : String) : Fires db (markDirty space db) :=
  .setRows (by decide)

theorem upsertDirty_fires (space : String) : Fires db (upsertDirty space db) := by
  unfold upsertDirty
  split_ifs
  · exact markDirty_fires space
  · exact .setRows (by decide)

theorem afterEdgeEnd_fires (row : Row .edges) : Fires db (afterEdgeEnd db row) := by
  unfold afterEdgeEnd touchGrouping
  split_ifs
  · exact upsertDirty_fires row.space
  · exact markDirty_fires row.space
  · exact .refl db

theorem foldl_afterEdgeEnd_fires (ended : List (Row .edges)) :
    Fires db (ended.foldl afterEdgeEnd db) := by
  induction ended generalizing db with
  | nil => exact .refl db
  | cons row rest ih => exact (afterEdgeEnd_fires row).trans ih

theorem endEdges_fires {failed : String → WenlanError} {now : Int} {condition : Edge → Bool}
    (h : endEdges failed now condition db = .ok db') : Fires db db' := by
  unfold endEdges at h
  dsimp only at h
  split_ifs at h
  cases h
  exact (Fires.setRows (by decide)).trans (foldl_afterEdgeEnd_fires _)

theorem invalidateRoutes_fires (before after : PageRow) :
    Fires db (invalidateRoutes before after db) := by
  unfold invalidateRoutes
  split_ifs
  · exact .refl db
  · have hknown : ∀ space, Fires db (if db.names .communityRouteSpaceInputs space then db
        else db.setRows .communityRouteSpaceInputs
          (db.rows .communityRouteSpaceInputs ++ [⟨space, ()⟩])) := by
      intro space
      split_ifs
      · exact .refl db
      · exact .setRows (by decide)
    exact (hknown _).trans (.setRows (by decide))

theorem regroupEntity_fires (before after : PageRow) :
    Fires db (regroupEntity before after db) := by
  have hleft : ∀ scope : Option String,
      Fires db (scope.elim db fun space => markDirty space db) := by
    intro scope
    cases scope with
    | none => exact .refl db
    | some space => exact markDirty_fires space
  have hright : ∀ (scope : Option String) (left : Database), Fires db left →
      Fires db (scope.elim left fun space => upsertDirty space left) := by
    intro scope left h
    cases scope with
    | none => exact h
    | some space => exact h.trans (upsertDirty_fires space)
  unfold regroupEntity
  split_ifs
  · exact hright _ _ (.refl db)
  · exact hright _ _ (hleft _)
  · exact .refl db

theorem afterPageUpdate_fires {failed : String → WenlanError} {now : Int}
    {after : PageRow → PageRow} {before : PageRow}
    (h : afterPageUpdate failed now after db before = .ok db') : Fires db db' := by
  unfold afterPageUpdate at h
  have hupd : Fires db (regroupEntity before (after before)
      (invalidateRoutes before (after before) db)) :=
    (invalidateRoutes_fires before (after before)).trans (regroupEntity_fires _ _)
  split_ifs at h
  · cases h
    exact hupd
  · exact hupd.trans (endEdges_fires h)

theorem updatePages_eq_ok {failed : String → WenlanError} {now : Int}
    {selected : PageRow → Bool} {after : PageRow → PageRow}
    (h : updatePages failed now selected after db = .ok db') :
    Fires { db with pages := db.pages.map fun page => if selected page then after page else page }
      db' :=
  foldlM_invariant (P := Fires _)
    (fun _ _ _ _ hfires hstep => hfires.trans (afterPageUpdate_fires hstep)) (.refl _) h

theorem updateMemories_eq_ok {failed : String → WenlanError} {now : Int} {old : String}
    {after : MemoryRow → MemoryRow} (h : updateMemories failed now old after db = .ok db') :
    Fires { db with memories := db.memories.map fun memory =>
      if memory.space = old then after memory else memory } db' := by
  refine foldlM_invariant (P := Fires _) ?_ (.refl _) h
  intro memory _ current next hfires hstep
  split_ifs at hstep
  · cases hstep
    exact hfires
  · exact hfires.trans (endEdges_fires hstep)

theorem deleteSpaceRows_eq_ok {failed : String → WenlanError} {name : String}
    (h : deleteSpaceRows failed name table db = .ok db') :
    db' = db.setRows table ((db.rows table).filter fun row => row.space != name) := by
  unfold deleteSpaceRows at h
  split at h
  · cases h
  · cases h
    rfl

theorem updateSpace_plain {failed : String → WenlanError} {old new : String}
    (htable : table ≠ .edges) (h : updateSpace failed old new table db = .ok db') :
    db' = db.setRows table ((db.rows table).map (Row.rekey old new)) := by
  unfold updateSpace at h
  dsimp only at h
  split at h
  · cases h
  · cases h
    unfold afterMove
    split
    · exact absurd rfl htable
    · rfl

theorem updateSpace_edges {failed : String → WenlanError} {old new : String}
    (h : updateSpace failed old new .edges db = .ok db') :
    OnlyRows db db' ∧ db'.rows .edges = (db.rows .edges).map (Row.rekey old new) ∧
      ∀ table, table ≠ .edges → table ≠ .spaceGraphState → db'.rows table = db.rows table := by
  unfold updateSpace at h
  dsimp only at h
  split at h
  · cases h
  · cases h
    unfold afterMove
    refine ⟨OnlyRows.setRows.trans (foldl_afterEdgeMove_onlyRows old new _), ?_,
      fun table hedges hgraph => ?_⟩
    · rw [foldl_afterEdgeMove_rows old new _ (by decide), rows_setRows_self]
    · rw [foldl_afterEdgeMove_rows old new _ hgraph, rows_setRows_of_ne hedges]

def mergedRows (now : Int) (oldName targetName : String) :
    (table : ClosureTable) → List (Row table) → List (Row table)
  | .communities, rows => rows.map fun row =>
    if row.space = oldName ∧ row.columns.retiredAt = none then
      { row with columns := { row.columns with retiredAt := some now, updatedAt := now } }
    else row
  | .edges, rows => rows
  | table, rows =>
    if mergeRetainedTables.contains table then rows
    else if permanentGenesisTables.contains table then
      rows.map (Row.rekey oldName targetName)
    else rows.filter fun row => row.space != oldName

theorem setRows_self : db.setRows table (db.rows table) = db := by
  unfold setRows
  rw [Function.update_eq_self]

variable {targetName : String}

variable {oldName : String}

theorem mergedRows_plain {now : Int} {rows : List (Row table)}
    (hedges : table ≠ .edges) (hcom : table ≠ .communities) :
    mergedRows now oldName targetName table rows = if mergeRetainedTables.contains table then rows
      else if permanentGenesisTables.contains table then
        rows.map (Row.rekey oldName targetName)
      else rows.filter fun row => row.space != oldName := by
  cases table <;> first | rfl | exact absurd rfl hedges | exact absurd rfl hcom

theorem mergeTable_eq_ok {now : Int}
    (h : mergeTable now oldName targetName db table = .ok db') :
    db' = db.setRows table (mergedRows now oldName targetName table (db.rows table)) := by
  unfold mergeTable at h
  split_ifs at h with hedges hcom hretained hpermanent
  · cases h
    subst hedges
    exact setRows_self.symm
  · cases h
    subst hcom
    rfl
  · cases h
    rw [mergedRows_plain hedges hcom, if_pos hretained, setRows_self]
  · rw [mergedRows_plain hedges hcom, if_neg hretained, if_pos hpermanent]
    exact updateSpace_plain hedges h
  · rw [mergedRows_plain hedges hcom, if_neg hretained, if_neg hpermanent]
    exact deleteSpaceRows_eq_ok h

theorem mem_closure (table : ClosureTable) : table ∈ closure.map Prod.fst := by
  cases table <;> decide

theorem nodup_closure : (closure.map Prod.fst).Nodup := by
  decide

structure Merged (now : Int) (oldName targetName : String) (db db' : Database) : Prop where
  onlyRows : OnlyRows db db'
  edges : db'.rows .edges = (db.rows .edges).map (Row.rekey oldName targetName)
  rows : ∀ table, table ≠ .edges → table ≠ .spaceGraphState →
    db'.rows table = mergedRows now oldName targetName table (db.rows table)
  graphState : oldName ≠ targetName → db'.names .spaceGraphState oldName = false
  unspliced : ∀ table ∈ permanentGenesisTables, table ∉ mergeRetainedTables →
    ¬ (db.names table oldName = true ∧ db.names table targetName = true)

theorem cascadeSpaceMerge_eq_ok {now : Int}
    (h : cascadeSpaceMerge now oldName targetName db = .ok db') :
    Merged now oldName targetName db db' := by
  obtain ⟨_, href, h⟩ := bind_ok h
  obtain ⟨moved, hmoved, h⟩ := bind_ok h
  obtain ⟨folded, hfold, h⟩ := bind_ok h
  cases h
  obtain ⟨honly, hedges, hrows⟩ := updateSpace_edges hmoved
  have hpart : ∀ table, folded.rows table =
      mergedRows now oldName targetName table (moved.rows table) := by
    intro table
    have howned := foldlM_owned (fun db : Database => db.rows table) nodup_closure
      (fun item _ hne s s' hstep => by
        rw [mergeTable_eq_ok hstep, rows_setRows_of_ne hne.symm])
      (fun s s' hstep => by rw [mergeTable_eq_ok hstep, rows_setRows_self]) hfold
    rwa [if_pos (mem_closure table)] at howned
  have hframe : OnlyRows moved folded :=
    foldlM_invariant (P := OnlyRows moved)
      (fun item _ s s' hs hstep => by
        rw [mergeTable_eq_ok hstep]
        exact hs.trans .setRows) (.refl moved) hfold
  refine ⟨(honly.trans hframe).trans (upsertDirty_onlyRows targetName), ?_, ?_, ?_, ?_⟩
  · rw [upsertDirty_rows targetName (by decide), hpart, ← hedges]
    rfl
  · intro table hnotEdges hgraph
    rw [upsertDirty_rows targetName hgraph, hpart, hrows table hnotEdges hgraph]
  · intro hne
    rw [names_upsertDirty hne]
    unfold names
    rw [hpart]
    simp [mergedRows, mergeRetainedTables, permanentGenesisTables]
  · intro table hpermanent hretained hboth
    have htable := forM_ok href table hpermanent
    refine refuseIf_eq_ok htable ⟨?_, hboth⟩
    simpa using hretained

end Wenlan.Spaces
