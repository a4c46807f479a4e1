import Wenlan.Briefs.Tables

/-!
# What the mutations of a request do

Each mutation is applied or answered with a conflict, and what decides it is the version before
the request and whether the item is still there.
-/

namespace Wenlan.Briefs

open Pages BriefMutation

/-! ## One mutation -/

def hasIndex (applied : List BriefAppliedMutation) (index : Nat) : Bool :=
  applied.any fun entry => entry.mutationIndex == some index

def Present (items : AList fun _ : String => BriefItemRow) (spaceId itemId : String) : Prop :=
  ∃ row, items.lookup itemId = some row ∧ row.spaceId = spaceId

variable {now : Int} {spaceId newId itemId : String} {snapshot : String → Option Int}
  {newIds : Nat → String} {index : Nat} {mutation : BriefMutation} {p p' : Progress}

section

variable (items : AList fun _ : String => BriefItemRow)

theorem lookup_replaceItem (itemId : String)
    (row : Option BriefItemRow) : (replaceItem items itemId row).lookup itemId = row := by
  cases row with
  | none => exact AList.lookup_erase itemId items
  | some row => exact AList.lookup_insert items

theorem lookup_replaceItem_of_ne
    {itemId other : String} (row : Option BriefItemRow) (h : other ≠ itemId) :
    (replaceItem items itemId row).lookup other = items.lookup other := by
  cases row with
  | none => exact AList.lookup_erase_ne h
  | some row => exact AList.lookup_insert_ne h

theorem filter_present (spaceId itemId : String) (row : BriefItemRow) :
    ((items.lookup itemId).filter fun row => row.spaceId == spaceId) = some row ↔
      items.lookup itemId = some row ∧ row.spaceId = spaceId := by
  rw [Option.filter_eq_some_iff, beq_iff_eq]

end

/-- A mutation of an item: what it does, and when it is applied. -/
inductive Mutated (now : Int) (spaceId : String) (snapshot : String → Option Int) (index : Nat)
    (mutation : BriefMutation) (itemId : String) (expected : Int) (p : Progress) :
    Progress → Prop where
  | conflict (conflict : BriefMutationConflict)
      (h : ¬(snapshot itemId = some expected ∧ Present p.items spaceId itemId)) :
      Mutated now spaceId snapshot index mutation itemId expected p (p.conflict conflict)
  | applied (row : BriefItemRow) (version : Option Int)
      (hsnapshot : snapshot itemId = some expected) (hrow : p.items.lookup itemId = some row)
      (hspace : row.spaceId = spaceId) :
      Mutated now spaceId snapshot index mutation itemId expected p
        (p.apply (replaceItem p.items itemId (mutation.change now row))
          { mutationIndex := some index, kind := mutation.kind, itemId := some itemId, version })

theorem mutateItem_eq_ok {expected : Int}
    (h : mutateItem now spaceId snapshot index mutation itemId expected p = .ok p') :
    Mutated now spaceId snapshot index mutation itemId expected p p' := by
  unfold mutateItem at h
  split at h
  · rename_i hsnapshot
    rw [← Except.ok.inj h]
    exact .conflict _ fun hboth => hsnapshot hboth.1
  · rename_i hsnapshot
    split at h
    · rename_i hnone
      rw [← Except.ok.inj h]
      refine .conflict _ fun hboth => ?_
      obtain ⟨row, hrow, hspace⟩ := hboth.2
      have hsome := (filter_present p.items spaceId itemId row).mpr ⟨hrow, hspace⟩
      cases hnone.symm.trans hsome
    · rename_i row hsome
      obtain ⟨hrow, hspace⟩ := (filter_present p.items spaceId itemId row).mp hsome
      split at h
      · rw [← Except.ok.inj h]
        exact .applied row _ (not_not.mp hsnapshot) hrow hspace
      · cases h

theorem applyMutation_target {expected : Int} (htarg : mutation.target = some (itemId, expected))
    (h : applyMutation now spaceId snapshot newId index mutation p = .ok p') :
    Mutated now spaceId snapshot index mutation itemId expected p p' := by
  cases mutation with
  | add text state addedAt gate => cases htarg
  | edit id version text =>
    cases htarg
    exact mutateItem_eq_ok h
  | move id version state =>
    cases htarg
    exact mutateItem_eq_ok h
  | setGate id version gate =>
    cases htarg
    exact mutateItem_eq_ok h
  | complete id version =>
    cases htarg
    exact mutateItem_eq_ok h

theorem applyMutation_add (htarg : mutation.target = none)
    (h : applyMutation now spaceId snapshot newId index mutation p = .ok p') :
    ∃ row, p.items.lookup newId = none ∧ p' = p.apply (p.items.insert newId row)
      { mutationIndex := some index, kind := .add, itemId := some newId, version := some 1 } := by
  cases mutation with
  | add text state addedAt gate =>
    change addItem now spaceId index newId text state addedAt gate p = .ok p' at h
    unfold addItem at h
    split at h
    · rename_i hfree
      exact ⟨_, hfree.1, (Except.ok.inj h).symm⟩
    · cases h
  | edit id version text => cases htarg
  | move id version state => cases htarg
  | setGate id version gate => cases htarg
  | complete id version => cases htarg

theorem applyMutation_cases
    (h : applyMutation now spaceId snapshot newId index mutation p = .ok p') :
    (∃ entry, entry.mutationIndex = some index ∧ entry.kind ≠ .summary ∧
        (entry.itemId = mutation.itemId ∨ mutation.target = none ∧ entry.itemId = some newId) ∧
        p'.applied = p.applied ++ [entry] ∧ p'.changed ∧
        ∀ id, entry.itemId ≠ some id → p'.items.lookup id = p.items.lookup id) ∨
      p'.applied = p.applied ∧ p'.changed = p.changed ∧ p'.items = p.items := by
  cases htarg : mutation.target with
  | none =>
    obtain ⟨row, -, rfl⟩ := applyMutation_add htarg h
    refine .inl ⟨_, rfl, by simp, .inr ⟨rfl, rfl⟩, rfl, rfl, fun id hid => ?_⟩
    exact AList.lookup_insert_ne fun heq => hid (by rw [heq])
  | some target =>
    cases applyMutation_target htarg h with
    | conflict conflict _ => exact .inr ⟨rfl, rfl, rfl⟩
    | applied row version _ _ _ =>
      refine .inl ⟨_, rfl, ?_, .inl ?_, rfl, rfl, fun id hid => ?_⟩
      · cases mutation <;> simp [kind]
      · unfold itemId
        rw [htarg]
        rfl
      · exact lookup_replaceItem_of_ne _ _ fun heq => hid (by rw [heq])

theorem hasIndex_iff {applied : List BriefAppliedMutation} :
    hasIndex applied index ↔ ∃ entry ∈ applied, entry.mutationIndex = some index := by
  simp [hasIndex]

theorem hasIndex_append (applied added : List BriefAppliedMutation) :
    hasIndex (applied ++ added) index = (hasIndex applied index || hasIndex added index) :=
  List.any_append

variable {mutations : List BriefMutation}

theorem applyMutations_cons
    (h : applyMutations now spaceId snapshot newIds index (mutation :: mutations) p = .ok p') :
    ∃ m, applyMutation now spaceId snapshot (newIds index) index mutation p = .ok m ∧
      applyMutations now spaceId snapshot newIds (index + 1) mutations m = .ok p' := by
  rw [applyMutations] at h
  exact bind_eq_ok h

structure Recorded (index length : Nat) (added : List BriefAppliedMutation) (p p' : Progress) :
    Prop where
  applied : p'.applied = p.applied ++ added
  changed : p'.changed = (p.changed || !added.isEmpty)
  indices : ∀ i, hasIndex added i = true → index ≤ i ∧ i < index + length
  kinds : ∀ entry ∈ added, entry.kind ≠ .summary
  unchanged : ∀ id, (∀ entry ∈ added, entry.itemId ≠ some id) →
    p'.items.lookup id = p.items.lookup id

theorem applyMutations_recorded
    (h : applyMutations now spaceId snapshot newIds index mutations p = .ok p') :
    ∃ added, Recorded index mutations.length added p p' := by
  induction mutations generalizing index p with
  | nil =>
    cases h
    refine ⟨[], (List.append_nil _).symm, by simp, ?_, by simp, fun _ _ => rfl⟩
    intro i hi
    cases hi
  | cons mutation mutations ih =>
    obtain ⟨m, hone, hrest⟩ := applyMutations_cons h
    obtain ⟨added, hadded⟩ := ih hrest
    obtain ⟨entry, hindex, hkind, -, happ, hchang, hunch⟩ |
      ⟨happ, hchang, hitems⟩ := applyMutation_cases hone
    · refine ⟨entry :: added, ?_, ?_, ?_, ?_, ?_⟩
      · rw [hadded.applied, happ, List.append_assoc]
        rfl
      · rw [hadded.changed, hchang]
        simp
      · intro i hi
        rw [List.length_cons]
        unfold hasIndex at hi
        rw [List.any_cons, Bool.or_eq_true, beq_iff_eq, hindex, Option.some.injEq] at hi
        obtain rfl | hlater := hi
        · omega
        · have hboun := hadded.indices i hlater
          omega
      · exact List.forall_mem_cons.mpr ⟨hkind, hadded.kinds⟩
      · intro id hid
        rw [List.forall_mem_cons] at hid
        rw [hadded.unchanged id hid.2]
        exact hunch id hid.1
    · refine ⟨added, ?_, ?_, ?_, hadded.kinds, ?_⟩
      · rw [hadded.applied, happ]
      · rw [hadded.changed, hchang]
      · intro i hi
        rw [List.length_cons]
        have hboun := hadded.indices i hi
        omega
      · intro id hid
        rw [hadded.unchanged id hid, hitems]

/-! ## Which mutations are applied -/

/-- The item is completed by the applied mutation at an index past `base`. -/
def completes (mutations : List BriefMutation) (applied : List BriefAppliedMutation)
    (base index : Nat) (itemId : String) : Prop :=
  ∃ expected, mutations[index]? = some (.complete itemId expected) ∧
    hasIndex applied (base + index) = true

/-- An item of the request is in the Brief until it is completed; nothing that is added takes its
place. -/
def Tracked (spaceId : String) (snapshot : String → Option Int) (gone : String → Prop)
    (p : Progress) : Prop :=
  ∀ id version, snapshot id = some version → (Present p.items spaceId id ↔ ¬gone id)

def goneAfter (gone : String → Prop) (mutation : BriefMutation) (applied : Prop) (id : String) :
    Prop :=
  gone id ∨ applied ∧ ∃ expected, mutation = .complete id expected

theorem Present.congr {items items' : AList fun _ : String => BriefItemRow}
    (h : items'.lookup itemId = items.lookup itemId) :
    Present items' spaceId itemId ↔ Present items spaceId itemId := by
  unfold Present
  rw [h]

theorem change_present {row : BriefItemRow} (hspace : row.spaceId = spaceId)
    (hcomp : ∀ id expected, mutation ≠ .complete id expected) :
    ∃ changed, mutation.change now row = some changed ∧ changed.spaceId = spaceId := by
  cases mutation with
  | add text state addedAt gate => exact ⟨row, rfl, hspace⟩
  | edit id version text => exact ⟨_, rfl, hspace⟩
  | move id version state => exact ⟨_, rfl, hspace⟩
  | setGate id version gate => exact ⟨_, rfl, hspace⟩
  | complete id version => exact absurd rfl (hcomp id version)

variable {gone : String → Prop}

theorem goneAfter_of_ne {applied : Prop} {id : String}
    (h : ∀ expected, mutation ≠ .complete id expected) :
    goneAfter gone mutation applied id ↔ gone id :=
  or_iff_left fun hgone => hgone.2.elim fun expected heq => h expected heq

theorem goneAfter_false {id : String} : goneAfter gone mutation False id ↔ gone id :=
  or_iff_left fun hgone => hgone.1

theorem present_change {row : BriefItemRow} (hspace : row.spaceId = spaceId)
    (items : AList fun _ : String => BriefItemRow) (itemId : String) :
    Present (replaceItem items itemId (mutation.change now row)) spaceId itemId ↔
      ∀ id expected, mutation ≠ .complete id expected := by
  constructor
  · rintro ⟨changed, hlook, -⟩ id expected rfl
    rw [lookup_replaceItem] at hlook
    cases hlook
  · intro hcomp
    obtain ⟨changed, hchang, hsame⟩ := change_present hspace hcomp
    refine ⟨changed, ?_, hsame⟩
    rw [lookup_replaceItem, hchang]

/-- One mutation: what it adds to the record, which items it leaves, and when it is applied. -/
structure StepRecorded (spaceId : String) (snapshot : String → Option Int) (index : Nat)
    (mutation : BriefMutation) (gone : String → Prop) (added : List BriefAppliedMutation)
    (p p' : Progress) : Prop where
  applied : p'.applied = p.applied ++ added
  indices : ∀ i, hasIndex added i = true → i = index
  tracked : Tracked spaceId snapshot (goneAfter gone mutation (hasIndex added index = true)) p'
  target : ∀ id expected, mutation.target = some (id, expected) →
    (hasIndex added index = true ↔ snapshot id = some expected ∧ ¬gone id)

theorem target_complete {id : String} {expected : Int} :
    (complete id expected).target = some (id, expected) :=
  rfl

theorem hasIndex_single {entry : BriefAppliedMutation} (h : entry.mutationIndex = some index)
    (i : Nat) : hasIndex [entry] i ↔ i = index := by
  rw [hasIndex_iff]
  simp only [List.mem_singleton, exists_eq_left, h, Option.some.injEq]
  exact eq_comm

theorem applyMutation_stepRecorded (hfresh : snapshot newId = none)
    (htrack : Tracked spaceId snapshot gone p)
    (h : applyMutation now spaceId snapshot newId index mutation p = .ok p') :
    ∃ added, StepRecorded spaceId snapshot index mutation gone added p p' := by
  cases htarg : mutation.target with
  | none =>
    obtain ⟨row, -, rfl⟩ := applyMutation_add htarg h
    refine ⟨[_], rfl, fun i hi => (hasIndex_single rfl i).mp hi, ?_, ?_⟩
    · intro id version hid
      have hne : id ≠ newId := by
        intro heq
        rw [heq, hfresh] at hid
        cases hid
      have hlook : (p.items.insert newId row).lookup id = p.items.lookup id :=
        AList.lookup_insert_ne hne
      have hcomp : ∀ expected, mutation ≠ .complete id expected := by
        rintro expected rfl
        cases htarg
      rw [goneAfter_of_ne hcomp, ← htrack id version hid]
      exact Present.congr hlook
    · intro id expected hnone
      rw [htarg] at hnone
      cases hnone
  | some target =>
    have hmut := applyMutation_target htarg h
    cases hmut with
    | conflict conflict hno =>
      refine ⟨[], (List.append_nil _).symm, fun i hi => ?_, ?_, ?_⟩
      · cases hi
      · intro id version hid
        have hfalse : (hasIndex [] index) = False := by simp [hasIndex]
        rw [hfalse, goneAfter_false]
        exact htrack id version hid
      · intro id expected hsome
        obtain rfl := Option.mem_unique htarg hsome
        refine iff_of_false (fun hi => ?_) fun hboth => hno ⟨hboth.1, ?_⟩
        · cases hi
        · exact (htrack _ _ hboth.1).mpr hboth.2
    | applied row version hsnapshot hrow hspace =>
      have hindex : ∀ entry : BriefAppliedMutation, entry.mutationIndex = some index →
          (hasIndex [entry] index) = True := fun entry hentry =>
        eq_true ((hasIndex_single hentry index).mpr rfl)
      have hthere : ¬gone target.1 := (htrack _ _ hsnapshot).mp ⟨row, hrow, hspace⟩
      refine ⟨[_], rfl, fun i hi => (hasIndex_single rfl i).mp hi, ?_, ?_⟩
      · intro id current hid
        rw [hindex _ rfl]
        by_cases hsame : id = target.1
        · rw [hsame]
          refine (present_change hspace p.items target.1).trans ?_
          constructor
          · rintro hcomp (hgone | ⟨-, expected, heq⟩)
            · exact hthere hgone
            · exact hcomp _ _ heq
          · rintro hkept other expected rfl
            obtain rfl := Option.mem_unique target_complete htarg
            exact hkept (.inr ⟨trivial, expected, rfl⟩)
        · have hcomp : ∀ expected, mutation ≠ .complete id expected := by
            rintro expected rfl
            obtain rfl := Option.mem_unique target_complete htarg
            exact hsame rfl
          rw [goneAfter_of_ne hcomp, ← htrack id current hid]
          exact Present.congr (lookup_replaceItem_of_ne _ _ hsame)
      · intro id expected hsome
        obtain rfl := Option.mem_unique htarg hsome
        rw [hindex _ rfl, true_iff]
        exact ⟨hsnapshot, hthere⟩

/-- A mutation of an item is applied exactly when it expects the version before the request and
no earlier mutation has completed the item. -/
theorem applyMutations_target
    (hfresh : ∀ i, snapshot (newIds i) = none) (htrack : Tracked spaceId snapshot gone p)
    (h : applyMutations now spaceId snapshot newIds index mutations p = .ok p') :
    ∃ added, p'.applied = p.applied ++ added ∧ (∀ i, hasIndex added i → index ≤ i) ∧
      ∀ i mutation id expected, mutations[i]? = some mutation →
        mutation.target = some (id, expected) →
        (hasIndex added (index + i) ↔ snapshot id = some expected ∧ ¬gone id ∧
          ∀ j < i, ¬completes mutations added index j id) := by
  induction mutations generalizing index p gone with
  | nil =>
    cases h
    refine ⟨[], (List.append_nil _).symm, fun i hi => ?_, fun i mutation id expected hi => ?_⟩
    · cases hi
    · cases hi
  | cons mutation mutations ih =>
    obtain ⟨m, hone, hrest⟩ := applyMutations_cons h
    obtain ⟨first, hfirst⟩ := applyMutation_stepRecorded (hfresh index) htrack hone
    obtain ⟨later, hlater, hboun, htarge⟩ := ih hfirst.tracked hrest
    refine ⟨first ++ later, ?_, ?_, ?_⟩
    · rw [hlater, hfirst.applied, List.append_assoc]
    · intro i hi
      rw [hasIndex_append, Bool.or_eq_true] at hi
      obtain hi | hi := hi
      · exact (hfirst.indices i hi).ge
      · have hbound := hboun i hi
        omega
    · -- the index decides which of the two parts of the record it is in
      have hhead : hasIndex (first ++ later) index = hasIndex first index := by
        rw [hasIndex_append, Bool.or_eq_left_iff_imp]
        intro hi
        have hbound := hboun index hi
        omega
      have htail : ∀ i, hasIndex (first ++ later) (index + (i + 1)) =
          hasIndex later (index + 1 + i) := by
        intro i
        have heq : index + (i + 1) = index + 1 + i := by omega
        rw [hasIndex_append, heq, Bool.or_eq_right_iff_imp]
        intro hi
        have hbound := hfirst.indices _ hi
        omega
      intro i other id expected hi htarg
      cases i with
      | zero =>
        cases hi
        rw [Nat.add_zero, hhead, hfirst.target id expected htarg]
        have hnone : ∀ j < 0, ¬completes (mutation :: mutations) (first ++ later) index j id :=
          fun j hj => absurd hj (Nat.not_lt_zero j)
        exact and_congr_right fun _ => (and_iff_left hnone).symm
      | succ i =>
        rw [htail, htarge i other id expected hi htarg]
        have hsplit : (¬goneAfter gone mutation (hasIndex first index) id ∧
            ∀ j < i, ¬completes mutations later (index + 1) j id) ↔ ¬gone id ∧
            ∀ j < i + 1, ¬completes (mutation :: mutations) (first ++ later) index j id := by
          have hzero : completes (mutation :: mutations) (first ++ later) index 0 id ↔
              hasIndex first index ∧ ∃ expected, mutation = .complete id expected := by
            unfold completes
            rw [Nat.add_zero, hhead]
            simp [and_comm]
          have hsucc : ∀ j, completes (mutation :: mutations) (first ++ later) index (j + 1) id
              ↔ completes mutations later (index + 1) j id := by
            intro j
            unfold completes
            rw [htail, List.getElem?_cons_succ]
          unfold goneAfter
          rw [← hzero]
          constructor
          · rintro ⟨hgone, hoth⟩
            rw [not_or] at hgone
            refine ⟨hgone.1, fun j hj => ?_⟩
            cases j with
            | zero => exact hgone.2
            | succ j =>
              rw [hsucc]
              exact hoth j (by omega)
          · rintro ⟨hgone, hoth⟩
            refine ⟨not_or.mpr ⟨hgone, hoth 0 (by omega)⟩, fun j hj => ?_⟩
            rw [← hsucc]
            exact hoth (j + 1) (by omega)
        rw [hsplit]

/-! ## What the applied mutations do -/

/-- What an applied mutation makes of the row of an item, if there is one. -/
def BriefMutation.effect (now : Int) (spaceId newId id : String) :
    BriefMutation → Option BriefItemRow → Option BriefItemRow
  | .add text state addedAt gate, row =>
    if id = newId then
      some
        { spaceId, text := trim text, state, addedAt := addedAt.getD now, gate := gateText gate
          version := 1, updatedAt := now }
    else row
  | mutation, row => if mutation.itemId = some id then row.bind (mutation.change now) else row

/-- The row of an item after the applied mutations, in their order. -/
def effects (now : Int) (spaceId : String) (newIds : Nat → String)
    (applied : List BriefAppliedMutation) (id : String) :
    Nat → List BriefMutation → Option BriefItemRow → Option BriefItemRow
  | _, [], row => row
  | index, mutation :: mutations, row =>
    effects now spaceId newIds applied id (index + 1) mutations
      (if hasIndex applied index then mutation.effect now spaceId (newIds index) id row else row)

theorem effects_congr {applied other : List BriefAppliedMutation} {id : String}
    {row : Option BriefItemRow}
    (h : ∀ i, index ≤ i → hasIndex applied i = hasIndex other i) :
    effects now spaceId newIds applied id index mutations row =
      effects now spaceId newIds other id index mutations row := by
  induction mutations generalizing index row with
  | nil => rfl
  | cons mutation mutations ih =>
    rw [effects, effects, h index le_rfl]
    exact ih fun i hi => h i (by omega)

theorem effect_target {id : String} {target : String × Int} {row : Option BriefItemRow}
    (htarg : mutation.target = some target) : mutation.effect now spaceId newId id row =
      if target.1 = id then row.bind (mutation.change now) else row := by
  have hitem : mutation.itemId = some target.1 := by
    unfold itemId
    rw [htarg]
    rfl
  cases mutation with
  | add text state addedAt gate => cases htarg
  | edit other version text => simp [effect, hitem]
  | move other version state => simp [effect, hitem]
  | setGate other version gate => simp [effect, hitem]
  | complete other version => simp [effect, hitem]

theorem effect_add {id : String} {row : BriefItemRow}
    (h : applyMutation now spaceId snapshot newId index mutation p = .ok
      (p.apply (p.items.insert newId row)
        { mutationIndex := some index, kind := .add, itemId := some newId, version := some 1 }))
    (htarg : mutation.target = none) :
    (p.items.insert newId row).lookup id =
      mutation.effect now spaceId newId id (p.items.lookup id) := by
  cases mutation with
  | add text state addedAt gate =>
    change addItem now spaceId index newId text state addedAt gate p = _ at h
    unfold addItem at h
    split at h
    · have hitems := congrArg Progress.items (Except.ok.inj h)
      change p.items.insert newId _ = p.items.insert newId row at hitems
      rw [← hitems]
      by_cases hid : id = newId
      · rw [hid, AList.lookup_insert]
        simp [effect]
      · rw [AList.lookup_insert_ne hid]
        simp [effect, hid]
    · cases h
  | edit other version text => cases htarg
  | move other version state => cases htarg
  | setGate other version gate => cases htarg
  | complete other version => cases htarg

theorem applyMutation_effect
    (h : applyMutation now spaceId snapshot newId index mutation p = .ok p') :
    ∃ added, p'.applied = p.applied ++ added ∧ (∀ i, hasIndex added i → i = index) ∧
      ∀ id, p'.items.lookup id =
        if hasIndex added index then mutation.effect now spaceId newId id (p.items.lookup id)
        else p.items.lookup id := by
  cases htarg : mutation.target with
  | none =>
    obtain ⟨row, -, rfl⟩ := applyMutation_add htarg h
    refine ⟨[_], rfl, fun i hi => (hasIndex_single rfl i).mp hi, fun id => ?_⟩
    rw [if_pos ((hasIndex_single rfl index).mpr rfl)]
    exact effect_add h htarg
  | some target =>
    have hmut := applyMutation_target htarg h
    cases hmut with
    | conflict conflict hno =>
      refine ⟨[], (List.append_nil _).symm, fun i hi => ?_, fun id => rfl⟩
      cases hi
    | applied row version hsnapshot hrow hspace =>
      refine ⟨[_], rfl, fun i hi => (hasIndex_single rfl i).mp hi, fun id => ?_⟩
      rw [if_pos ((hasIndex_single rfl index).mpr rfl), effect_target htarg]
      change (replaceItem p.items target.1 (mutation.change now row)).lookup id = _
      by_cases hid : target.1 = id
      · rw [if_pos hid, ← hid, lookup_replaceItem, hrow]
        rfl
      · rw [if_neg hid]
        exact lookup_replaceItem_of_ne _ _ (Ne.symm hid)

theorem applyMutations_effects
    (h : applyMutations now spaceId snapshot newIds index mutations p = .ok p') :
    ∃ added, p'.applied = p.applied ++ added ∧ (∀ i, hasIndex added i → index ≤ i) ∧
      ∀ id, p'.items.lookup id =
        effects now spaceId newIds added id index mutations (p.items.lookup id) := by
  induction mutations generalizing index p with
  | nil =>
    cases h
    refine ⟨[], (List.append_nil _).symm, fun i hi => ?_, fun id => rfl⟩
    cases hi
  | cons mutation mutations ih =>
    obtain ⟨m, hone, hrest⟩ := applyMutations_cons h
    obtain ⟨first, hfirst, hind, heff⟩ := applyMutation_effect hone
    obtain ⟨later, hlater, hboun, heffec⟩ := ih hrest
    refine ⟨first ++ later, ?_, ?_, fun id => ?_⟩
    · rw [hlater, hfirst, List.append_assoc]
    · intro i hi
      rw [hasIndex_append, Bool.or_eq_true] at hi
      obtain hi | hi := hi
      · exact (hind i hi).ge
      · have hbound := hboun i hi
        omega
    · have hhead : hasIndex (first ++ later) index = hasIndex first index := by
        rw [hasIndex_append, Bool.or_eq_left_iff_imp]
        intro hi
        have hbound := hboun index hi
        omega
      have htail : ∀ i, index + 1 ≤ i → hasIndex later i = hasIndex (first ++ later) i := by
        intro i hi
        rw [hasIndex_append, eq_comm, Bool.or_eq_right_iff_imp]
        intro hfirst
        have hbound := hind i hfirst
        omega
      rw [heffec, heff, effects, hhead]
      exact effects_congr htail

end Wenlan.Briefs
