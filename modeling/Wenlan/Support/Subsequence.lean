import Mathlib.Data.List.Infix
import Mathlib.Order.Bounds.Basic

/-!
# Longest common subsequences

Their length as a recursion on the two lists, and the table that holds it for every two suffixes.
-/

namespace Wenlan.Support.Subsequence

variable {α : Type} [DecidableEq α]

def lcsLength : List α → List α → ℕ
  | x :: a, y :: b =>
    if x = y then lcsLength a b + 1 else max (lcsLength a (y :: b)) (lcsLength (x :: a) b)
  | _, _ => 0
termination_by a b => a.length + b.length

def Common (a b s : List α) : Prop := List.Sublist s a ∧ List.Sublist s b

theorem lcsLength_nil (a : List α) : lcsLength a [] = 0 := by
  cases a <;> rw [lcsLength] <;> simp

theorem exists_common (a b : List α) : ∃ s, Common a b s ∧ s.length = lcsLength a b := by
  fun_induction lcsLength a b with
  | case1 a y b ih =>
    obtain ⟨s, hs, hlength⟩ := ih
    exact ⟨y :: s, ⟨hs.1.cons_cons y, hs.2.cons_cons y⟩, congrArg (· + 1) hlength⟩
  | case2 x a y b hne iha ihb =>
    obtain ⟨s, hs, hlength⟩ := iha
    obtain ⟨t, ht, hlength'⟩ := ihb
    rcases le_total (lcsLength a (y :: b)) (lcsLength (x :: a) b) with hle | hle
    · exact ⟨t, ⟨ht.1, ht.2.cons y⟩, hlength'.trans (max_eq_right hle).symm⟩
    · exact ⟨s, ⟨hs.1.cons x, hs.2⟩, hlength.trans (max_eq_left hle).symm⟩
  | case3 => exact ⟨[], ⟨List.nil_sublist _, List.nil_sublist _⟩, rfl⟩

theorem Common.length_le {a b s : List α} (h : Common a b s) : s.length ≤ lcsLength a b := by
  fun_induction lcsLength a b generalizing s with
  | case1 a y b ih =>
    cases s with
    | nil => exact Nat.zero_le _
    | cons c s => exact Nat.succ_le_succ (ih ⟨h.1.of_cons_cons, h.2.of_cons_cons⟩)
  | case2 x a y b hne iha ihb =>
    cases s with
    | nil => exact Nat.zero_le _
    | cons c s =>
      rcases List.cons_sublist_cons'.mp h.1 with hx | ⟨rfl, -⟩
      · exact (iha ⟨hx, h.2⟩).trans (le_max_left _ _)
      · rcases List.cons_sublist_cons'.mp h.2 with hy | ⟨heq, -⟩
        · exact (ihb ⟨h.1, hy⟩).trans (le_max_right _ _)
        · exact absurd heq hne
  | case3 a b hnil =>
    cases a with
    | nil => rw [List.sublist_nil.mp h.1]; rfl
    | cons x a =>
      cases b with
      | nil => rw [List.sublist_nil.mp h.2]; rfl
      | cons y b => exact absurd rfl (hnil x a y b rfl)

theorem isGreatest_lcsLength (a b : List α) :
    IsGreatest {n | ∃ s, Common a b s ∧ s.length = n} (lcsLength a b) := by
  refine ⟨exists_common a b, ?_⟩
  rintro n ⟨s, hs, rfl⟩
  exact hs.length_le

theorem lcsLength_le_cons (a : List α) (y : α) (b : List α) :
    lcsLength a b ≤ lcsLength a (y :: b) := by
  obtain ⟨s, hs, hlength⟩ := exists_common a b
  rw [← hlength]
  exact Common.length_le ⟨hs.1, hs.2.cons y⟩

def lcsRow (x : α) : List α → List ℕ → List ℕ
  | [], _ => [0]
  | y :: b, below =>
    let rest := lcsRow x b below.tail
    (if x = y then below.tail.headD 0 + 1 else max (below.headD 0) (rest.headD 0)) :: rest

def lcsTable (a b : List α) : List (List ℕ) :=
  a.foldr (fun x rows => lcsRow x b (rows.headD []) :: rows) [List.replicate (b.length + 1) 0]

omit [DecidableEq α] in
theorem headD_tails {β : Type} (f : List α → β) (b : List α) (d : β) :
    (b.tails.map f).headD d = f b := by
  cases b <;> rfl

theorem lcsRow_eq (x : α) (a b : List α) :
    lcsRow x b (b.tails.map (lcsLength a)) = b.tails.map (lcsLength (x :: a)) := by
  induction b with
  | nil => simp [lcsRow, lcsLength]
  | cons y b ih =>
    rw [List.tails_cons, List.map_cons, List.map_cons, lcsRow, List.tail_cons, ih, headD_tails,
      headD_tails, List.headD_cons, lcsLength]

theorem lcsTable_eq (a b : List α) :
    lcsTable a b = a.tails.map fun a => b.tails.map (lcsLength a) := by
  induction a with
  | nil =>
    have hzero : ∀ b : List α, lcsLength [] b = 0 := fun b => by rw [lcsLength]; simp
    simp [lcsTable, List.map_congr_left fun b _ => hzero b, List.map_const']
  | cons x a ih =>
    rw [lcsTable, List.foldr_cons, ← lcsTable, ih, headD_tails, lcsRow_eq, List.tails_cons,
      List.map_cons]

/-- The cell of a row and a column. -/
def cell (table : List (List ℕ)) (i j : ℕ) : ℕ := (table.getD i []).getD j 0

theorem cell_lcsTable {a b : List α} {i j : ℕ} (hi : i ≤ a.length) (hj : j ≤ b.length) :
    cell (lcsTable a b) i j = lcsLength (a.drop i) (b.drop j) := by
  have hrow : i < a.tails.length := by
    rw [List.length_tails]
    omega
  have hcolumn : j < b.tails.length := by
    rw [List.length_tails]
    omega
  simp [cell, lcsTable_eq, List.getElem?_eq_getElem hrow, List.getElem?_eq_getElem hcolumn,
    List.getElem_tails]

end Wenlan.Support.Subsequence
