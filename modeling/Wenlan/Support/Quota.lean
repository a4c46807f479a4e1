import Mathlib.Data.List.Basic
import Mathlib.Logic.Function.Basic

/-!
# Quotas

A list is split in one pass into the items within the quota of their key and those over it.
-/

namespace Wenlan.Support.Quota

variable {α κ : Type} [DecidableEq κ]

/-- `taken` counts the items of each key so far.  An item without a key has no quota. -/
def split (key : α → Option κ) (quota : Nat) : (κ → Nat) → List α → List α × List α
  | _, [] => ([], [])
  | taken, item :: rest =>
    match key item with
    | none => (split key quota taken rest).map (item :: ·) id
    | some k =>
      if taken k < quota then
        (split key quota (Function.update taken k (taken k + 1)) rest).map (item :: ·) id
      else (split key quota taken rest).map id (item :: ·)

variable (key : α → Option κ) (quota : Nat)

theorem split_perm (taken : κ → Nat) (items : List α) :
    ((split key quota taken items).1 ++ (split key quota taken items).2).Perm items := by
  induction items generalizing taken with
  | nil => rfl
  | cons item rest ih =>
    unfold split
    split
    · exact (ih taken).cons item
    · split
      · exact (ih _).cons item
      · exact List.perm_middle.trans ((ih taken).cons item)

/-- Of each key, the first items up to the quota are within it. -/
theorem split_filter (k : κ) (taken : κ → Nat) (items : List α) :
    (split key quota taken items).1.filter (key · = some k) =
        (items.filter (key · = some k)).take (quota - taken k) ∧
      (split key quota taken items).2.filter (key · = some k) =
        (items.filter (key · = some k)).drop (quota - taken k) := by
  induction items generalizing taken with
  | nil => simp [split]
  | cons item rest ih =>
    unfold split
    split
    · next hkey => simpa [hkey] using ih taken
    · next other hkey =>
      by_cases hsame : other = k
      · subst hsame
        split
        · next hlt =>
          obtain ⟨hkept, hover⟩ := ih (Function.update taken other (taken other + 1))
          have hroom : quota - taken other = quota - (taken other + 1) + 1 := by omega
          rw [Function.update_self] at hkept hover
          simp [hkey, hroom, hkept, hover]
        · next hge =>
          obtain ⟨hkept, hover⟩ := ih taken
          have hfull : quota - taken other = 0 := by omega
          rw [hfull] at hkept hover
          simp [hkey, hfull, hkept, hover]
      · have hskip : ¬ key item = some k := by simp [hkey, hsame]
        split
        · have hrest := ih (Function.update taken other (taken other + 1))
          rw [Function.update_of_ne (Ne.symm hsame)] at hrest
          simpa [hskip] using hrest
        · simpa [hskip] using ih taken

/-- The two parts together keep the order of the items of one key. -/
theorem split_rejoin (k : κ) (taken : κ → Nat) (items : List α) :
    ((split key quota taken items).1 ++ (split key quota taken items).2).filter (key · = some k) =
      items.filter (key · = some k) := by
  obtain ⟨hkept, hover⟩ := split_filter key quota k taken items
  rw [List.filter_append, hkept, hover, List.take_append_drop]

end Wenlan.Support.Quota
