import Mathlib.Data.List.Induction
import Mathlib.Data.List.Nodup
import Mathlib.Tactic.Push

/-!
# Greedy matchings

Pairs are taken in the order of a list, each one whose two ends no earlier taken pair has.  The
result is a matching, and it consists of given pairs, one for each left end, exactly if they are
in the list and every other pair comes after one of them that shares an end with it.
-/

namespace Wenlan.Support.GreedyMatching

open List

variable {κ ι : Type*}

def Free (taken : List (κ × ι)) (pair : κ × ι) : Prop :=
  ∀ other ∈ taken, other.1 ≠ pair.1 ∧ other.2 ≠ pair.2

instance [DecidableEq κ] [DecidableEq ι] (taken : List (κ × ι)) (pair : κ × ι) :
    Decidable (Free taken pair) :=
  inferInstanceAs (Decidable (∀ other ∈ taken, _))

/-- No two pairs share an end. -/
def Matching (taken : List (κ × ι)) : Prop :=
  taken.Pairwise fun first second => first.1 ≠ second.1 ∧ first.2 ≠ second.2

variable [DecidableEq κ] [DecidableEq ι]

def accept (taken : List (κ × ι)) (pair : κ × ι) : List (κ × ι) :=
  if Free taken pair then taken ++ [pair] else taken

def greedy (pairs : List (κ × ι)) : List (κ × ι) := pairs.foldl accept []

variable {taken pairs front rest : List (κ × ι)} {pair : κ × ι} {k h : κ} {i j : ι}

theorem subset_accept (pair : κ × ι) (taken : List (κ × ι)) : taken ⊆ accept taken pair := by
  intro other hmem
  unfold accept
  split
  · exact mem_append_left _ hmem
  · exact hmem

theorem Matching.accept (hmatch : Matching taken) : Matching (accept taken pair) := by
  unfold GreedyMatching.accept
  split
  · next hfree =>
      refine pairwise_append.mpr ⟨hmatch, pairwise_singleton _ _, ?_⟩
      intro other hother last hlast
      rw [mem_singleton.mp hlast]
      exact hfree other hother
  · exact hmatch

theorem Matching.foldl (hmatch : Matching taken) :
    Matching (pairs.foldl GreedyMatching.accept taken) := by
  induction pairs generalizing taken with
  | nil => exact hmatch
  | cons pair rest ih => exact ih hmatch.accept

theorem greedy_matching (pairs : List (κ × ι)) : Matching (greedy pairs) :=
  Matching.foldl List.Pairwise.nil

theorem subset_foldl (pairs taken : List (κ × ι)) : taken ⊆ pairs.foldl accept taken := by
  induction pairs generalizing taken with
  | nil => exact fun _ hmem => hmem
  | cons pair rest ih => exact fun other hmem => ih _ (subset_accept pair taken hmem)

theorem of_mem_foldl (hmem : pair ∈ pairs.foldl accept taken) : pair ∈ taken ∨ pair ∈ pairs := by
  induction pairs generalizing taken with
  | nil => exact .inl hmem
  | cons first rest ih =>
    rcases ih hmem with hacc | hrest
    · unfold accept at hacc
      split at hacc
      · rcases mem_append.mp hacc with htaken | hfirst
        · exact .inl htaken
        · exact .inr (mem_cons.mpr (.inl (mem_singleton.mp hfirst)))
      · exact .inl hacc
    · exact .inr (mem_cons_of_mem _ hrest)

theorem greedy_subset (pairs : List (κ × ι)) : greedy pairs ⊆ pairs := by
  intro pair hmem
  rcases of_mem_foldl hmem with htaken | hpairs
  · exact absurd htaken not_mem_nil
  · exact hpairs

omit [DecidableEq κ] [DecidableEq ι] in
/-- Pairs of a matching that share an end are the same. -/
theorem Matching.eq_of_shared (hmatch : Matching taken) {first second : κ × ι}
    (hfirst : first ∈ taken) (hsecond : second ∈ taken)
    (hshar : first.1 = second.1 ∨ first.2 = second.2) : first = second := by
  induction taken with
  | nil => exact absurd hfirst not_mem_nil
  | cons head tail ih =>
    obtain ⟨hhead, htail⟩ := pairwise_cons.mp hmatch
    rcases mem_cons.mp hfirst with hfirst | hfirst <;>
      rcases mem_cons.mp hsecond with hsecond | hsecond
    · rw [hfirst, hsecond]
    · rw [hfirst] at hshar
      rcases hshar with hleft | hright
      · exact absurd hleft (hhead second hsecond).1
      · exact absurd hright (hhead second hsecond).2
    · rw [hsecond] at hshar
      rcases hshar with hleft | hright
      · exact absurd hleft.symm (hhead first hfirst).1
      · exact absurd hright.symm (hhead first hfirst).2
    · exact ih htail hfirst hsecond

theorem greedy_append (front rest : List (κ × ι)) :
    greedy (front ++ rest) = rest.foldl accept (greedy front) :=
  foldl_append

theorem greedy_front_subset (front rest : List (κ × ι)) :
    greedy front ⊆ greedy (front ++ rest) := by
  rw [greedy_append]
  exact subset_foldl _ _

theorem mem_greedy_of_free (hfree : Free (greedy front) pair) :
    pair ∈ greedy (front ++ pair :: rest) := by
  rw [greedy_append, foldl_cons]
  apply subset_foldl
  rw [accept, if_pos hfree]
  exact mem_append_right _ (mem_singleton_self _)

section Own

variable {own : κ → ι}

def Blocked (own : κ → ι) (front : List (κ × ι)) (pair : κ × ι) : Prop :=
  (pair.1, own pair.1) ∈ front ∨ ∃ h, own h = pair.2 ∧ (h, own h) ∈ front

/-- Where every other pair is blocked, only own pairs are taken, and all of those in the list. -/
theorem greedy_own (hdist : pairs.Nodup)
    (hinj : ∀ k h, (k, own k) ∈ pairs → (h, own h) ∈ pairs → own k = own h → k = h)
    (hblock : ∀ front pair rest, pairs = front ++ pair :: rest → pair.2 ≠ own pair.1 →
      Blocked own front pair) :
    ∀ pair, pair ∈ greedy pairs ↔ pair ∈ pairs ∧ pair.2 = own pair.1 := by
  induction pairs using reverseRecOn with
  | nil => simp [greedy]
  | append_singleton front last ih =>
    have hdist' := nodup_append.mp hdist
    have hfront := ih hdist'.1
      (fun k h hk hh => hinj k h (mem_append_left _ hk) (mem_append_left _ hh))
      (by
        intro front' pair rest heq hcross
        refine hblock front' pair (rest ++ [last]) ?_ hcross
        rw [heq, append_assoc, cons_append])
    have hstep : greedy (front ++ [last]) = accept (greedy front) last := greedy_append _ _
    by_cases hown : last.2 = own last.1
    · have hfree : Free (greedy front) last := by
        intro other hother
        obtain ⟨hmem, heq⟩ := (hfront other).mp hother
        have hne : other ≠ last := fun h =>
          hdist'.2.2 other hmem last (mem_singleton_self _) h
        have hleft : other.1 ≠ last.1 := by
          intro hsame
          exact hne (Prod.ext hsame (by rw [heq, hown, hsame]))
        refine ⟨hleft, ?_⟩
        intro hsame
        apply hleft
        apply hinj other.1 last.1
        · rw [← heq]
          exact mem_append_left _ hmem
        · rw [← hown]
          exact mem_append_right _ (mem_singleton_self _)
        · rw [← heq, ← hown, hsame]
      intro pair
      rw [hstep, accept, if_pos hfree, mem_append, mem_append, hfront, mem_singleton]
      constructor
      · rintro (h | rfl)
        · exact ⟨.inl h.1, h.2⟩
        · exact ⟨.inr rfl, hown⟩
      · rintro ⟨h | h, heq⟩
        · exact .inl ⟨h, heq⟩
        · exact .inr h
    · have hnotfr : ¬ Free (greedy front) last := by
        intro hfree
        rcases hblock front last [] rfl hown with hleft | ⟨h, hright, hmem⟩
        · exact (hfree _ ((hfront _).mpr ⟨hleft, rfl⟩)).1 rfl
        · exact (hfree _ ((hfront _).mpr ⟨hmem, rfl⟩)).2 hright
      intro pair
      rw [hstep, accept, if_neg hnotfr, hfront, mem_append, mem_singleton]
      constructor
      · rintro ⟨h, heq⟩
        exact ⟨.inl h, heq⟩
      · rintro ⟨h | rfl, heq⟩
        · exact ⟨h, heq⟩
        · exact absurd heq hown

/-- Where all own pairs are taken, every other pair is blocked. -/
theorem blocked_of_greedy (hown : ∀ pair ∈ pairs, (pair.1, own pair.1) ∈ greedy pairs ∧
      ∃ h, own h = pair.2 ∧ (h, own h) ∈ greedy pairs)
    (hsplit : pairs = front ++ pair :: rest) (hcross : pair.2 ≠ own pair.1) :
    Blocked own front pair := by
  have hmatch := greedy_matching pairs
  have hmem : pair ∈ pairs := by
    rw [hsplit]
    exact mem_append_right _ mem_cons_self
  obtain ⟨hleft, h, hright, hh⟩ := hown pair hmem
  have hnotfr : ¬ Free (greedy front) pair := by
    intro hfree
    have htaken : pair ∈ greedy pairs := hsplit ▸ mem_greedy_of_free hfree
    have hsame := hmatch.eq_of_shared htaken hleft (.inl rfl)
    exact hcross (congrArg Prod.snd hsame)
  unfold Free at hnotfr
  push Not at hnotfr
  obtain ⟨other, hother, hshar⟩ := hnotfr
  have htaken : other ∈ greedy pairs := hsplit ▸ greedy_front_subset front _ hother
  have hfront : other ∈ front := greedy_subset front hother
  by_cases hfirst : other.1 = pair.1
  · have hsame := hmatch.eq_of_shared htaken hleft (.inl hfirst)
    exact .inl (hsame ▸ hfront)
  · have hsame := hmatch.eq_of_shared htaken hh (.inr ((hshar hfirst).trans hright.symm))
    exact .inr ⟨h, hright, hsame ▸ hfront⟩

end Own

end Wenlan.Support.GreedyMatching
