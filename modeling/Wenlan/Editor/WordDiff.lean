import Mathlib.Data.List.Chain
import Mathlib.Data.List.DropRight
import Wenlan.Editor.PageAutosave
import Wenlan.Support.Subsequence

/-!
# The word diff

`diffWords` of `wordDiff.ts`.  What it compares of a token is the word without the white space in
front of it.
-/

namespace Wenlan.Editor

open Support.Subsequence List

/-- The matches of `\s*\S+`. -/
def tokenize : List Char → List (List Char)
  | [] => []
  | c :: rest =>
    if isTrimmed c || rest.head?.any (!isTrimmed ·) then (tokenize rest).modifyHead (c :: ·)
    else [c] :: tokenize rest

def key (token : List Char) : List Char :=
  (token.dropWhile isTrimmed).rdropWhile isTrimmed

inductive DiffKind where
  | same
  | del
  | ins
  deriving DecidableEq

structure DiffSegment where
  kind : DiffKind
  text : List Char
  deriving DecidableEq

/-- The segment pushed last is the first. -/
def push (out : List DiffSegment) (kind : DiffKind) (text : List Char) : List DiffSegment :=
  if text = [] then out
  else
    match out with
    | [] => [⟨kind, text⟩]
    | last :: rest =>
      if last.kind = kind then ⟨kind, last.text ++ text⟩ :: rest else ⟨kind, text⟩ :: last :: rest

def walk (a b : List (List Char)) (lcs : List (List ℕ)) (i j : ℕ) (out : List DiffSegment) :
    List DiffSegment :=
  if h : i < a.length ∧ j < b.length then
    if key (a.get ⟨i, h.1⟩) = key (b.get ⟨j, h.2⟩) then walk a b lcs (i + 1) (j + 1) (push out .same (a.get ⟨i, h.1⟩))
    else if cell lcs i (j + 1) ≤ cell lcs (i + 1) j then
      walk a b lcs (i + 1) j (push out .del (a.get ⟨i, h.1⟩))
    else walk a b lcs i (j + 1) (push out .ins (b.get ⟨j, h.2⟩))
  else
    (b.drop j).foldl (push · .ins ·) ((a.drop i).foldl (push · .del ·) out)
termination_by a.length - i + (b.length - j)

def diffWords (before after : List Char) : List DiffSegment :=
  let a := tokenize before
  let b := tokenize after
  if 1000000 < a.length * b.length then
    (if before = [] then [] else [⟨.del, before⟩]) ++ if after = [] then [] else [⟨.ins, after⟩]
  else (walk a b (lcsTable (a.map key) (b.map key)) 0 0 []).reverse

/-! ## Tokens -/

/-- The text ends in a word. -/
def Closed (text : List Char) : Prop := text.getLast?.any (!isTrimmed ·)

def Spaced (text : List Char) : Prop := text.head?.any isTrimmed

theorem tokenize_append {text rest : List Char} (h : Closed text)
    (hrest : rest.head?.all isTrimmed) :
    tokenize (text ++ rest) = tokenize text ++ tokenize rest ∧ tokenize text ≠ [] := by
  induction text with
  | nil => simp [Closed] at h
  | cons c text ih =>
    cases text with
    | nil =>
      have hc : isTrimmed c = false := by simpa [Closed] using h
      have hnext : rest.head?.any (!isTrimmed ·) = false := by
        cases rest <;> simp_all
      rw [singleton_append, tokenize, hc, hnext]
      simp [tokenize, hc]
    | cons d text =>
      obtain ⟨happend, hne⟩ := ih (by simpa [Closed] using h)
      have hunfold : ∀ rest, tokenize (c :: d :: rest) =
          if isTrimmed c || !isTrimmed d then (tokenize (d :: rest)).modifyHead (c :: ·)
          else [c] :: tokenize (d :: rest) := fun rest => by rw [tokenize]; rfl
      obtain ⟨token, tokens, htokens⟩ := exists_cons_of_ne_nil hne
      rw [cons_append] at happend
      rw [cons_append, cons_append, hunfold, hunfold, happend, htokens]
      split <;> simp

/-- A token is one match, and those behind the first start with white space. -/
theorem tokens_spec (text : List Char) :
    (∀ token ∈ tokenize text, Closed token ∧ tokenize token = [token]) ∧
      (∀ token ∈ (tokenize text).tail, Spaced token) ∧
      ∀ token ∈ (tokenize text).head?, token.head? = text.head? := by
  induction text with
  | nil => simp [tokenize]
  | cons c text ih =>
    obtain ⟨hclosed, hspaced, hhead⟩ := ih
    rw [tokenize]
    cases htokens : tokenize text with
    | nil =>
      split
      · simp
      · next hc => simp_all [tokenize, Closed]
    | cons token tokens =>
      rw [htokens] at hclosed hspaced hhead
      rw [forall_mem_cons] at hclosed
      have hsame : token.head? = text.head? := hhead token rfl
      split
      · next hc =>
        refine ⟨forall_mem_cons.mpr ⟨⟨?_, ?_⟩, hclosed.2⟩, hspaced, by simp⟩
        · cases token with
          | nil => simp [Closed] at hclosed
          | cons d token => simpa [Closed] using hclosed.1.1
        · rw [tokenize, hsame, if_pos hc, hclosed.1.2]
          rfl
      · next hc =>
        rw [Bool.or_eq_true, not_or, Bool.not_eq_true] at hc
        refine ⟨forall_mem_cons.mpr ⟨⟨by simp [Closed, hc.1], by simp [tokenize, hc.1]⟩,
          forall_mem_cons.mpr hclosed⟩, forall_mem_cons.mpr ⟨?_, hspaced⟩, by simp⟩
        rw [Spaced, hsame]
        cases text with
        | nil => cases htokens
        | cons d text => simpa using hc.2

/-! ## The script -/

def deletesFirst (a b : List (List Char)) : Bool :=
  lcsLength (a.map key) (b.tail.map key) ≤ lcsLength (a.tail.map key) (b.map key)

/-- The pushes of the walk over what is left of both lists. -/
def script : List (List Char) → List (List Char) → List (DiffKind × List Char)
  | x :: a, y :: b =>
    if key x = key y then (.same, x) :: script a b
    else if deletesFirst (x :: a) (y :: b) then (.del, x) :: script a (y :: b)
    else (.ins, y) :: script (x :: a) b
  | a, b => a.map (.del, ·) ++ b.map (.ins, ·)
termination_by a b => a.length + b.length

theorem deletesFirst_cons {x y : List Char} {a b : List (List Char)} :
    deletesFirst (x :: a) (y :: b) = true ↔
      lcsLength (key x :: a.map key) (b.map key) ≤ lcsLength (a.map key) (key y :: b.map key) :=
  decide_eq_true_iff

theorem cell_le_cell {a b : List (List Char)} {i j : ℕ} (hi : i < a.length) (hj : j < b.length) :
    cell (lcsTable (a.map key) (b.map key)) i (j + 1) ≤
        cell (lcsTable (a.map key) (b.map key)) (i + 1) j ↔
      deletesFirst (a.drop i) (b.drop j) = true := by
  rw [cell_lcsTable (by simpa using hi.le) (by simpa using Nat.succ_le_of_lt hj),
    cell_lcsTable (by simpa using Nat.succ_le_of_lt hi) (by simpa using hj.le), deletesFirst,
    decide_eq_true_iff, tail_drop, tail_drop]
  simp

theorem drop_eq_get {α : Type} {l : List α} {i : ℕ} (h : i < l.length) :
    l.drop i = l.get ⟨i, h⟩ :: l.drop (i + 1) :=
  drop_eq_getElem_cons h

theorem walk_eq (a b : List (List Char)) (i j : ℕ) (out : List DiffSegment) :
    walk a b (lcsTable (a.map key) (b.map key)) i j out =
      (script (a.drop i) (b.drop j)).foldl (fun out e => push out e.1 e.2) out := by
  fun_induction walk a b (lcsTable (a.map key) (b.map key)) i j out with
  | case1 i j out h heq ih =>
    rw [ih, drop_eq_get h.1, drop_eq_get h.2, script, if_pos heq]
    rfl
  | case2 i j out h hne hle ih =>
    rw [cell_le_cell h.1 h.2, drop_eq_get h.1, drop_eq_get h.2] at hle
    rw [ih, drop_eq_get h.1, drop_eq_get h.2, script, if_neg hne,
      if_pos hle]
    rfl
  | case3 i j out h hne hlt ih =>
    rw [cell_le_cell h.1 h.2, drop_eq_get h.1, drop_eq_get h.2] at hlt
    rw [ih, drop_eq_get h.1, drop_eq_get h.2, script, if_neg hne,
      if_neg hlt]
    rfl
  | case4 i j out h =>
    have hend : a.drop i = [] ∨ b.drop j = [] := by
      rw [drop_eq_nil_iff, drop_eq_nil_iff]
      omega
    rw [script, foldl_append, foldl_map, foldl_map]
    rintro x a' y b' ha hb
    simp [ha, hb] at hend

theorem script_old (a b : List (List Char)) :
    ((script a b).filter (·.1 ≠ .ins)).map Prod.snd = a := by
  fun_induction script a b with
  | case1 x a y b heq ih => simpa using ih
  | case2 x a y b hne hdel ih => simpa using ih
  | case3 x a y b hne hdel ih => simpa using ih
  | case4 a b => simp [filter_map, Function.comp_def]

theorem script_new (a b : List (List Char)) :
    (((script a b).filter (·.1 ≠ .del)).map Prod.snd).map key = b.map key := by
  fun_induction script a b with
  | case1 x a y b heq ih => simpa [heq] using ih
  | case2 x a y b hne hdel ih => simpa using ih
  | case3 x a y b hne hdel ih => simpa using ih
  | case4 a b => simp [filter_map, Function.comp_def]

theorem script_same (a b : List (List Char)) :
    ((script a b).filter (·.1 = .same)).length = lcsLength (a.map key) (b.map key) := by
  fun_induction script a b with
  | case1 x a y b heq ih =>
    rw [map_cons, map_cons, lcsLength, if_pos heq]
    simpa using ih
  | case2 x a y b hne hdel ih =>
    rw [map_cons, map_cons, lcsLength, if_neg hne,
      max_eq_left (deletesFirst_cons.mp hdel)]
    simpa using ih
  | case3 x a y b hne hdel ih =>
    rw [map_cons, map_cons, lcsLength, if_neg hne,
      max_eq_right (Nat.le_of_not_le (mt deletesFirst_cons.mpr hdel))]
    simpa using ih
  | case4 a b hnil =>
    rw [lcsLength]
    · simp [filter_map, Function.comp_def]
    · intro x a' y b' ha hb
      obtain ⟨x, a', rfl, -⟩ := map_eq_cons_iff.mp ha
      obtain ⟨y, b', rfl, -⟩ := map_eq_cons_iff.mp hb
      exact hnil x a' y b' rfl rfl

theorem mem_script (a b : List (List Char)) :
    ∀ e ∈ script a b, if e.1 = .ins then e.2 ∈ b else e.2 ∈ a := by
  fun_induction script a b with
  | case1 x a y b heq ih => grind
  | case2 x a y b hne hdel ih => grind
  | case3 x a y b hne hdel ih => grind
  | case4 a b => grind

/-- What follows an insertion is not a deletion: it would have been pushed in its place. -/
theorem head_script {x y : List Char} {a b : List (List Char)}
    (h : ¬ deletesFirst (x :: a) (y :: b) = true) :
    ∀ e ∈ (script (x :: a) b).head?, e.1 ≠ .del := by
  rw [deletesFirst_cons, Nat.not_le] at h
  cases b with
  | nil => simp [lcsLength_nil] at h
  | cons z b =>
    rw [script]
    split_ifs with heq hdel
    · simp
    · have hle := lcsLength_le_cons (a.map key) (key y) (key z :: b.map key)
      rw [map_cons, lcsLength, if_neg heq, max_eq_left (deletesFirst_cons.mp hdel)] at h
      omega
    · simp

/-- What one push of the script may follow. -/
def Follows (d e : DiffKind × List Char) : Prop :=
  (d.1 = e.1 → Spaced e.2) ∧ ¬(d.1 = .ins ∧ e.1 = .del)

theorem isChain_script {a b : List (List Char)} (ha : ∀ token ∈ a.tail, Spaced token)
    (hb : ∀ token ∈ b.tail, Spaced token) : (script a b).IsChain Follows := by
  fun_induction script a b with
  | case1 x a y b heq ih =>
    refine isChain_cons.mpr ⟨fun e he => ⟨fun hkind => ?_, by simp⟩,
      ih (fun t ht => ha t (mem_of_mem_tail ht)) fun t ht => hb t (mem_of_mem_tail ht)⟩
    have hmem := mem_script a b e (mem_of_mem_head? he)
    rw [← hkind] at hmem
    exact ha _ hmem
  | case2 x a y b hne hdel ih =>
    refine isChain_cons.mpr ⟨fun e he => ⟨fun hkind => ?_, by simp⟩,
      ih (fun t ht => ha t (mem_of_mem_tail ht)) hb⟩
    have hmem := mem_script a (y :: b) e (mem_of_mem_head? he)
    rw [← hkind] at hmem
    exact ha _ hmem
  | case3 x a y b hne hdel ih =>
    refine isChain_cons.mpr ⟨fun e he => ⟨fun hkind => ?_, fun h => head_script hdel e he h.2⟩,
      ih ha fun t ht => hb t (mem_of_mem_tail ht)⟩
    have hmem := mem_script (x :: a) b e (mem_of_mem_head? he)
    rw [← hkind] at hmem
    exact hb _ hmem
  | case4 a b hnil =>
    have hall : ∀ (kind : DiffKind) (tokens : List (List Char)),
        (∀ token ∈ tokens.tail, Spaced token) →
        (tokens.map (kind, ·)).IsChain Follows := by
      intro kind tokens htokens
      cases tokens with
      | nil => exact .nil
      | cons token tokens =>
        refine List.Pairwise.isChain (pairwise_cons.mpr ⟨fun e he => ?_, ?_⟩)
        · obtain ⟨t, ht, rfl⟩ := mem_map.mp he
          exact ⟨fun _ => htokens t ht, by grind⟩
        · refine pairwise_map.mpr (pairwise_of_forall_mem_list fun t _ u hu => ?_)
          exact ⟨fun _ => htokens u hu, by grind⟩
    cases a with
    | nil => simpa using hall .ins b hb
    | cons x a =>
      cases b with
      | nil => simpa using hall .del (x :: a) ha
      | cons y b => exact absurd rfl (hnil x a y b rfl)

/-! ## The segments -/

def tokensOf (p : DiffKind → Bool) (segments : List DiffSegment) : List (List Char) :=
  (segments.filter (p ·.kind)).flatMap (tokenize ·.text)

structure Pushed (out : List DiffSegment) (done : List (DiffKind × List Char)) : Prop where
  last : out.head?.map (·.kind) = done.getLast?.map Prod.fst
  closed : ∀ segment ∈ out, Closed segment.text
  tokens : ∀ p, tokensOf p out.reverse = (done.filter (p ·.1)).map Prod.snd
  ordered : (out.map (·.kind)).IsChain fun l k => ¬(k = .ins ∧ l = .del)

theorem tokensOf_concat (p : DiffKind → Bool) (out : List DiffSegment) (segment : DiffSegment) :
    tokensOf p (out ++ [segment]) =
      tokensOf p out ++ if p segment.kind then tokenize segment.text else [] := by
  rw [tokensOf, tokensOf, filter_append, flatMap_append]
  cases hp : p segment.kind <;> simp [hp]

theorem Pushed.push {out : List DiffSegment} {done : List (DiffKind × List Char)}
    (h : Pushed out done) {e : DiffKind × List Char} (hclosed : Closed e.2)
    (htoken : tokenize e.2 = [e.2]) (hfollows : ∀ d ∈ done.getLast?, Follows d e) :
    Pushed (push out e.1 e.2) (done ++ [e]) := by
  have hne : e.2 ≠ [] := by
    intro hnil
    rw [hnil] at htoken
    cases htoken
  have hlast := h.last
  unfold Editor.push
  rw [if_neg hne]
  split
  · have hdone : done = [] := by simpa using hlast
    subst hdone
    refine ⟨rfl, by simpa using hclosed, fun p => ?_, .singleton _⟩
    cases hp : p e.1 <;> simp [tokensOf, hp, htoken]
  · next last rest =>
    obtain ⟨d, hd, hkind⟩ : ∃ d ∈ done.getLast?, d.1 = last.kind := by
      simpa using hlast.symm
    have hd' := hfollows d hd
    have hrest := forall_mem_cons.mp h.closed
    split
    · next hsame =>
      have hspaced : e.2.head?.all isTrimmed := by
        have hany := hd'.1 (hkind.trans hsame)
        revert hany
        unfold Spaced
        cases e.2.head? <;> simp
      have happend := (tokenize_append hrest.1 hspaced).1
      refine ⟨by simp, forall_mem_cons.mpr ⟨?_, hrest.2⟩, fun p => ?_, ?_⟩
      · rw [Closed, getLast?_append_of_ne_nil _ hne]
        exact hclosed
      · have htokens := h.tokens p
        rw [reverse_cons, tokensOf_concat] at htokens ⊢
        rw [happend, htoken, filter_append, map_append, ← htokens, hsame]
        cases hp : p e.1 <;> simp [hp]
      · rw [map_cons]
        have := h.ordered
        rw [map_cons, hsame] at this
        exact this
    · next hother =>
      refine ⟨by simp, forall_mem_cons.mpr ⟨hclosed, h.closed⟩, fun p => ?_, ?_⟩
      · rw [reverse_cons, tokensOf_concat, h.tokens, htoken, filter_append,
          map_append]
        cases hp : p e.1 <;> simp [hp]
      · rw [map_cons]
        exact isChain_cons_cons.mpr ⟨fun hboth => hd'.2 ⟨hkind.trans hboth.1, hboth.2⟩,
          h.ordered⟩

theorem pushed_foldl {es out done} (h : Pushed out done)
    (htokens : ∀ e ∈ es, Closed e.2 ∧ tokenize e.2 = [e.2])
    (hchain : (done ++ es).IsChain Follows) :
    Pushed (es.foldl (fun out e => push out e.1 e.2) out) (done ++ es) := by
  induction es generalizing out done with
  | nil => rwa [append_nil]
  | cons e es ih =>
    rw [append_cons] at hchain ⊢
    rw [forall_mem_cons] at htokens
    refine ih (h.push htokens.1.1 htokens.1.2 fun d hd => ?_) htokens.2 hchain
    have hleft := (isChain_append.mp hchain).1
    exact (isChain_append.mp hleft).2.2 d hd e rfl

theorem diffWords_spec (before after : List Char)
    (h : (tokenize before).length * (tokenize after).length ≤ 1000000) :
    tokensOf (· ≠ .ins) (diffWords before after) = tokenize before ∧
    (tokensOf (· ≠ .del) (diffWords before after)).map key = (tokenize after).map key ∧
    IsGreatest
      {n | ∃ s, Common ((tokenize before).map key) ((tokenize after).map key) s ∧ s.length = n}
      (tokensOf (· = .same) (diffWords before after)).length ∧
    ((diffWords before after).map (·.kind)).IsChain fun k l => ¬(k = .ins ∧ l = .del) := by
  obtain ⟨hold, hspacedOld, -⟩ := tokens_spec before
  obtain ⟨hnew, hspacedNew, -⟩ := tokens_spec after
  have hpushed : Pushed (diffWords before after).reverse
      (script (tokenize before) (tokenize after)) := by
    rw [diffWords, if_neg (Nat.not_lt.mpr h), List.reverse_reverse, walk_eq]
    have hnil : Pushed [] [] := ⟨rfl, by simp, fun _ => rfl, .nil⟩
    refine pushed_foldl hnil (fun e he => ?_) (isChain_script hspacedOld hspacedNew)
    have hmem := mem_script _ _ e he
    split_ifs at hmem
    · exact hnew _ hmem
    · exact hold _ hmem
  have htokens := hpushed.tokens
  rw [List.reverse_reverse] at htokens
  refine ⟨?_, ?_, ?_, ?_⟩
  · rw [htokens, script_old]
  · rw [htokens, script_new]
  · rw [htokens, List.length_map, script_same]
    exact isGreatest_lcsLength _ _
  · have := hpushed.ordered
    rw [List.map_reverse, List.isChain_reverse] at this
    exact this

theorem diffWords_sentence :
    (tokensOf (· ≠ .del) (diffWords "a b  c".toList "b  d c".toList)).map key =
      (tokenize "b  d c".toList).map key :=
  (diffWords_spec "a b  c".toList "b  d c".toList (by decide)).2.1

/-- The unchanged word comes with the white space of the old text. -/
theorem diffWords_spaces :
    tokensOf (· ≠ .del) (diffWords "a  b".toList "a b".toList) ≠ tokenize "a b".toList := by
  decide +kernel

end Wenlan.Editor
