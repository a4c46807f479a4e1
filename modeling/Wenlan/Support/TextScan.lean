import Mathlib.Data.List.Basic
import Mathlib.Data.List.TakeWhile
/-!
# Finding and editing text from left to right

A pattern reads from a place in a text and says what it captured and where it
stopped.  Its matches are searched from left to right without overlap.
-/

namespace Wenlan.Support.TextScan

open List

/-- A place in a text: what stands before it, nearest character first, and the rest. -/
structure Cursor where
  past : List Char
  rest : List Char

abbrev Pattern (α : Type) := Cursor → Option (α × Cursor)

namespace Cursor

def headIs (p : Char → Bool) : List Char → Bool
  | [] => false
  | c :: _ => p c

/-- A place between a character of the class and one that is not, or the end of the text. -/
def boundary (p : Char → Bool) (c : Cursor) : Option Cursor :=
  if headIs p c.past = headIs p c.rest then none else some c

def one (p : Char → Bool) (c : Cursor) : Option (Char × Cursor) :=
  match c.rest with
  | [] => none
  | x :: rest => if p x then some (x, ⟨x :: c.past, rest⟩) else none

def many (p : Char → Bool) (c : Cursor) : List Char × Cursor :=
  (c.rest.takeWhile p, ⟨(c.rest.takeWhile p).reverse ++ c.past, c.rest.dropWhile p⟩)

def many1 (p : Char → Bool) (c : Cursor) : Option (List Char × Cursor) :=
  if headIs p c.rest then some (c.many p) else none

end Cursor

/-- A small letter without regard to case: beside its capital, `s` is written as
the long s and `k` as the Kelvin sign. -/
def sameLetter (letter c : Char) : Bool :=
  c = letter || c = letter.toUpper || (letter = 's' && c = 'ſ') || (letter = 'k' && c = '\u212A')

def shape : List (Char → Bool) → Pattern (List Char)
  | [], c => some ([], c)
  | test :: tests, c => do
    let (x, c) ← c.one test
    let (read, c) ← shape tests c
    pure (x :: read, c)

/-- A word of small letters without regard to case. -/
def literal (word : List Char) : Pattern (List Char) :=
  shape (word.map sameLetter)

def oneOf (words : List (List Char)) : Pattern (List Char) := fun c =>
  words.findSome? fun word => literal word c

/-- The characters read satisfy the tests, and nothing else is needed. -/
theorem shape_eq_some_iff (tests : List (Char → Bool)) (c : Cursor) (read : List Char)
    (after : Cursor) : shape tests c = some (read, after) ↔
      c.rest = read ++ after.rest ∧ after.past = read.reverse ++ c.past ∧
        List.Forall₂ (fun test x => test x) tests read := by
  induction tests generalizing c read after with
  | nil =>
    rw [shape]
    constructor
    · intro same
      cases same
      exact ⟨rfl, rfl, List.Forall₂.nil⟩
    · rintro ⟨rest, past, reads⟩
      cases reads
      cases c
      cases after
      simp only [nil_append, reverse_nil] at rest past
      rw [rest, past]
  | cons test tests ih =>
    obtain ⟨past, rest⟩ := c
    cases rest with
    | nil =>
      constructor
      · intro same
        cases same
      · rintro ⟨rest, _, reads⟩
        cases reads
        cases rest
    | cons x rest =>
      by_cases passes : test x
      · simp only [shape, Cursor.one, if_pos passes, Option.bind_eq_bind, Option.bind_some]
        constructor
        · intro same
          cases tail : shape tests ⟨x :: past, rest⟩ with
          | none =>
            rw [tail] at same
            cases same
          | some hit =>
            rw [tail] at same
            have inner := (ih ⟨x :: past, rest⟩ hit.1 hit.2).1 tail
            cases same
            refine ⟨?_, ?_, List.Forall₂.cons passes inner.2.2⟩
            · rw [cons_append, ← inner.1]
            · rw [inner.2.1, reverse_cons, append_assoc]
              rfl
        · rintro ⟨split, back, reads⟩
          cases reads with
          | @cons _ y _ read first others =>
            simp only [cons_append, cons.injEq] at split
            have inner := (ih ⟨x :: past, rest⟩ read after).2 ⟨split.2, by
              rw [back, reverse_cons, append_assoc, split.1]
              rfl, others⟩
            rw [inner, split.1]
            rfl
      · simp only [shape, Cursor.one, if_neg passes, Option.bind_eq_bind, Option.bind_none]
        constructor
        · intro same
          cases same
        · rintro ⟨split, _, reads⟩
          cases reads with
          | cons first others =>
            simp only [cons_append, cons.injEq] at split
            rw [split.1] at passes
            exact absurd first passes

structure Match (α : Type) where
  start : Nat
  stop : Nat
  groups : α

/-- The matches from a place on; the first `skip` characters belong to the match before. -/
def findFrom {α : Type} (p : Pattern α) : Nat → Nat → List Char → List Char → List (Match α)
  | _, _, _, [] => []
  | pos, skip + 1, past, c :: rest => findFrom p (pos + 1) skip (c :: past) rest
  | pos, 0, past, c :: rest =>
    match p ⟨past, c :: rest⟩ with
    | none => findFrom p (pos + 1) 0 (c :: past) rest
    | some (groups, after) =>
      ⟨pos, pos + ((c :: rest).length - after.rest.length), groups⟩ ::
        findFrom p (pos + 1) (rest.length - after.rest.length) (c :: past) rest

def findIter {α : Type} (p : Pattern α) (text : List Char) : List (Match α) :=
  findFrom p 0 0 [] text

def isMatch {α : Type} (p : Pattern α) (text : List Char) : Bool :=
  !(findIter p text).isEmpty

def captures {α : Type} (p : Pattern α) (text : List Char) : Option α :=
  (findIter p text).head?.map (·.groups)

section Search

variable {α : Type} {p : Pattern α}

/-- What a found match was read from. -/
theorem of_mem_findFrom {pos skip : Nat} {past rest : List Char} {m : Match α}
    (found : m ∈ findFrom p pos skip past rest) :
    ∃ a b after, rest = a ++ b ∧ b ≠ [] ∧ skip ≤ a.length ∧ m.start = pos + a.length ∧
      p ⟨a.reverse ++ past, b⟩ = some (m.groups, after) ∧
      m.stop = m.start + (b.length - after.rest.length) := by
  induction rest generalizing pos skip past with
  | nil => cases found
  | cons c rest ih =>
    cases skip with
    | succ skip =>
      obtain ⟨a, b, after, split, b_ne, skipped, start, reads, stop⟩ := ih found
      refine ⟨c :: a, b, after, ?_, b_ne, ?_, ?_, ?_, stop⟩
      · rw [split, cons_append]
      · simpa using skipped
      · rw [start, length_cons]
        omega
      · simpa using reads
    | zero =>
      rw [findFrom] at found
      cases here : p ⟨past, c :: rest⟩ with
      | none =>
        rw [here] at found
        obtain ⟨a, b, after, split, b_ne, -, start, reads, stop⟩ := ih found
        refine ⟨c :: a, b, after, ?_, b_ne, Nat.zero_le _, ?_, ?_, stop⟩
        · rw [split, cons_append]
        · rw [start, length_cons]
          omega
        · simpa using reads
      | some hit =>
        rw [here] at found
        cases found with
        | head =>
          exact ⟨[], c :: rest, hit.2, rfl, by simp, Nat.zero_le _, rfl, here, rfl⟩
        | tail _ found =>
          obtain ⟨a, b, after, split, b_ne, -, start, reads, stop⟩ := ih found
          refine ⟨c :: a, b, after, ?_, b_ne, Nat.zero_le _, ?_, ?_, stop⟩
          · rw [split, cons_append]
          · rw [start, length_cons]
            omega
          · simpa using reads

theorem reads_of_captures {text : List Char} {groups : α}
    (found : captures p text = some groups) : ∃ c after, p c = some (groups, after) := by
  rw [captures, Option.map_eq_some_iff] at found
  obtain ⟨m, first, same⟩ := found
  obtain ⟨a, b, after, -, -, -, -, reads, -⟩ := of_mem_findFrom (mem_of_head? first)
  exact ⟨_, after, same ▸ reads⟩

/-- No match begins inside another. -/
def Apart (p : Pattern α) : Prop :=
  ∀ past a b hit, a ≠ [] → p ⟨past, a ++ b⟩ = some hit →
    a.length < (a ++ b).length - hit.2.rest.length → p ⟨a.reverse ++ past, b⟩ = none

theorem mem_findFrom (pos : Nat) (apart : Apart p) {skip : Nat} {past a b : List Char}
    {hit : α × Cursor}
    (b_ne : b ≠ []) (skipped : skip ≤ a.length) (reads : p ⟨a.reverse ++ past, b⟩ = some hit) :
    ⟨pos + a.length, pos + a.length + (b.length - hit.2.rest.length), hit.1⟩ ∈
      findFrom p pos skip past (a ++ b) := by
  induction a generalizing pos skip past with
  | nil =>
    cases b with
    | nil => exact absurd rfl b_ne
    | cons c b =>
      have zero : skip = 0 := by simpa using skipped
      subst zero
      simp only [reverse_nil, nil_append] at reads ⊢
      rw [findFrom, reads]
      exact mem_cons_self
  | cons c a ih =>
    have shift : pos + (c :: a).length = pos + 1 + a.length := by
      rw [length_cons]
      omega
    rw [shift, cons_append]
    have reads' : p ⟨a.reverse ++ c :: past, b⟩ = some hit := by simpa using reads
    cases skip with
    | succ skip =>
      rw [findFrom]
      exact ih (pos + 1) (by simpa using skipped) reads'
    | zero =>
      rw [findFrom]
      cases here : p ⟨past, c :: (a ++ b)⟩ with
      | none => exact ih (pos + 1) (Nat.zero_le _) reads'
      | some outer =>
        apply mem_cons_of_mem
        apply ih (pos + 1) _ reads'
        by_contra inside
        have none := apart past (c :: a) b outer (by simp) here (by
          simp only [length_cons, length_append, cons_append] at inside ⊢
          omega)
        rw [none] at reads
        cases reads

theorem start_ge_of_mem_findFrom {pos skip : Nat} {past rest : List Char} {m : Match α}
    (found : m ∈ findFrom p pos skip past rest) : pos + skip ≤ m.start := by
  obtain ⟨a, b, after, -, -, skipped, start, -, -⟩ := of_mem_findFrom found
  omega

theorem findFrom_pairwise (pos skip : Nat) (past rest : List Char) :
    (findFrom p pos skip past rest).Pairwise fun m m' => m.start < m'.start := by
  induction rest generalizing pos skip past with
  | nil => exact List.Pairwise.nil
  | cons c rest ih =>
    cases skip with
    | succ skip => exact ih _ _ _
    | zero =>
      rw [findFrom]
      cases p ⟨past, c :: rest⟩ with
      | none => exact ih _ _ _
      | some hit =>
        apply List.Pairwise.cons _ (ih _ _ _)
        intro m found
        have later := start_ge_of_mem_findFrom found
        simp only
        omega

/-- The matches of a pattern that never begins inside a match of its own are
all the places where it reads. -/
theorem mem_findIter_iff (apart : Apart p) {text : List Char} {m : Match α} : m ∈ findIter p text ↔
      ∃ a b after, text = a ++ b ∧ b ≠ [] ∧ m.start = a.length ∧
        p ⟨a.reverse, b⟩ = some (m.groups, after) ∧
        m.stop = m.start + (b.length - after.rest.length) := by
  constructor
  · intro found
    obtain ⟨a, b, after, split, b_ne, -, start, reads, stop⟩ := of_mem_findFrom found
    refine ⟨a, b, after, split, b_ne, by omega, ?_, stop⟩
    simpa using reads
  · rintro ⟨a, b, after, split, b_ne, start, reads, stop⟩
    have found := mem_findFrom 0 apart b_ne (Nat.zero_le a.length)
      (show p ⟨a.reverse ++ [], b⟩ = some (m.groups, after) by simpa using reads)
    rw [split]
    obtain ⟨start', stop', groups⟩ := m
    simp only [Nat.zero_add] at found start stop
    subst start stop
    exact found

end Search

/-! ## The pieces of a text -/

/-- A character between the matches, or a match with its text. -/
inductive Piece (α : Type)
  | plain (c : Char)
  | hit (read : List Char) (groups : α)

def piecesFrom {α : Type} (p : Pattern α) : Nat → List Char → List Char → List (Piece α)
  | _, _, [] => []
  | skip + 1, past, c :: rest => piecesFrom p skip (c :: past) rest
  | 0, past, c :: rest =>
    match p ⟨past, c :: rest⟩ with
    | none => .plain c :: piecesFrom p 0 (c :: past) rest
    | some (groups, after) =>
      .hit ((c :: rest).take (rest.length - after.rest.length + 1)) groups ::
        piecesFrom p (rest.length - after.rest.length) (c :: past) rest

/-- `captures_iter` with the text between the matches. -/
def pieces {α : Type} (p : Pattern α) (text : List Char) : List (Piece α) :=
  piecesFrom p 0 [] text

/-- A piece as it is written, with `new` in the place of a match. -/
def Piece.write {α : Type} (new : List Char → α → List Char) : Piece α → List Char
  | .plain c => [c]
  | .hit read groups => new read groups

def replaceAll {α : Type} (p : Pattern α) (new : List Char → α → List Char) (text : List Char) :
    List Char :=
  (pieces p text).flatMap (Piece.write new)

section Pieces

variable {α : Type} {p : Pattern α}

/-- What the pattern reads does not depend on the text before its place. -/
def Forward (p : Pattern α) : Prop :=
  ∀ past past' rest, (p ⟨past, rest⟩).map (fun hit => (hit.1, hit.2.rest)) =
    (p ⟨past', rest⟩).map fun hit => (hit.1, hit.2.rest)

theorem one_eq_some {q : Char → Bool} {c : Cursor} {hit : Char × Cursor}
    (hread : c.one q = some hit) :
    c.rest = hit.1 :: hit.2.rest ∧ q hit.1 := by
  unfold Cursor.one at hread
  cases hrest : c.rest with
  | nil =>
    rw [hrest] at hread
    cases hread
  | cons x rest =>
    rw [hrest] at hread
    simp only [Option.ite_none_right_eq_some] at hread
    obtain ⟨hx, heq⟩ := hread
    cases heq
    exact ⟨rfl, hx⟩

theorem many_spec (q : Char → Bool) (c : Cursor) :
    c.rest = (c.many q).1 ++ (c.many q).2.rest ∧ ∀ x ∈ (c.many q).1, q x := by
  exact ⟨takeWhile_append_dropWhile.symm, fun x hmem => mem_takeWhile_imp hmem⟩

theorem many1_eq_some {q : Char → Bool} {c : Cursor} {hit : List Char × Cursor}
    (hread : c.many1 q = some hit) :
    c.rest = hit.1 ++ hit.2.rest ∧ hit.1 ≠ [] ∧ ∀ x ∈ hit.1, q x := by
  unfold Cursor.many1 at hread
  split_ifs at hread with hhead
  cases hread
  refine ⟨(many_spec q c).1, ?_, (many_spec q c).2⟩
  cases hrest : c.rest with
  | nil =>
    rw [hrest] at hhead
    cases hhead
  | cons x rest =>
    rw [hrest] at hhead
    have hx : q x := hhead
    simp [Cursor.many, hrest, hx]

theorem piecesFrom_past (hforw : Forward p) (skip : Nat) (past past' text : List Char) :
    piecesFrom p skip past text = piecesFrom p skip past' text := by
  induction text generalizing skip past past' with
  | nil => cases skip <;> rfl
  | cons c text ih =>
    cases skip with
    | succ skip => exact ih skip _ _
    | zero =>
      have hsame := hforw past past' (c :: text)
      simp only [piecesFrom]
      cases hhere : p ⟨past, c :: text⟩ with
      | none =>
        rw [hhere, Option.map_none, eq_comm, Option.map_eq_none_iff] at hsame
        rw [hsame]
        exact congrArg _ (ih 0 _ _)
      | some hit =>
        rw [hhere, Option.map_some, eq_comm, Option.map_eq_some_iff] at hsame
        obtain ⟨hit', hhit', heq⟩ := hsame
        have hgroup := congrArg Prod.fst heq
        have hrest := congrArg Prod.snd heq
        simp only at hgroup hrest
        rw [hhit']
        simp only [hgroup, hrest]
        exact congrArg _ (ih _ _ _)

theorem piecesFrom_skip (past a text : List Char) :
    piecesFrom p a.length past (a ++ text) = piecesFrom p 0 (a.reverse ++ past) text := by
  induction a generalizing past with
  | nil => rfl
  | cons c a ih =>
    rw [length_cons, cons_append, piecesFrom, ih, reverse_cons, append_assoc]
    rfl

theorem pieces_of_none (hforw : Forward p) {c : Char} {text : List Char}
    (hnone : p ⟨[], c :: text⟩ = none) : pieces p (c :: text) = .plain c :: pieces p text := by
  simp only [pieces, piecesFrom, hnone]
  exact congrArg _ (piecesFrom_past hforw 0 _ _ text)

theorem pieces_of_some (hforw : Forward p) {c : Char} {a text : List Char} {hit : α × Cursor}
    (hsome : p ⟨[], c :: (a ++ text)⟩ = some hit) (hrest : hit.2.rest = text) :
    pieces p (c :: (a ++ text)) = .hit (c :: a) hit.1 :: pieces p text := by
  have hlen : (a ++ text).length - text.length = a.length := by
    rw [length_append]
    omega
  have htake : (c :: (a ++ text)).take (a.length + 1) = c :: a := by simp
  simp only [pieces, piecesFrom, hsome, hrest, hlen, htake]
  rw [piecesFrom_skip]
  exact congrArg _ (piecesFrom_past hforw 0 _ _ text)

variable {new : List Char → α → List Char}

theorem replaceAll_of_none (hforw : Forward p) {c : Char} {text : List Char}
    (hnone : p ⟨[], c :: text⟩ = none) :
    replaceAll p new (c :: text) = c :: replaceAll p new text := by
  rw [replaceAll, pieces_of_none hforw hnone]
  rfl

theorem replaceAll_of_some (hforw : Forward p) {c : Char} {a text : List Char}
    {hit : α × Cursor} (hsome : p ⟨[], c :: (a ++ text)⟩ = some hit) (hrest : hit.2.rest = text) :
    replaceAll p new (c :: (a ++ text)) = new (c :: a) hit.1 ++ replaceAll p new text := by
  rw [replaceAll, pieces_of_some hforw hsome hrest]
  rfl

theorem piecesFrom_write (skip : Nat) (past text : List Char) :
    (piecesFrom p skip past text).flatMap (Piece.write fun read _ => read) = text.drop skip := by
  induction text generalizing skip past with
  | nil => cases skip <;> rfl
  | cons c text ih =>
    cases skip with
    | succ skip => exact ih skip _
    | zero =>
      simp only [piecesFrom]
      cases p ⟨past, c :: text⟩ with
      | none =>
        simp only [flatMap_cons, ih]
        rfl
      | some hit =>
        simp [ih, Piece.write]

theorem pieces_write (text : List Char) :
    (pieces p text).flatMap (Piece.write fun read _ => read) = text := by
  exact piecesFrom_write 0 [] text

theorem mem_piecesFrom {skip : Nat} {past text read : List Char} {groups : α}
    (hmem : .hit read groups ∈ piecesFrom p skip past text) :
    ∃ past c rest after, p ⟨past, c :: rest⟩ = some (groups, after) ∧
      read = (c :: rest).take (rest.length - after.rest.length + 1) := by
  induction text generalizing skip past with
  | nil => cases skip <;> cases hmem
  | cons c text ih =>
    cases skip with
    | succ skip => exact ih hmem
    | zero =>
      simp only [piecesFrom] at hmem
      cases hread : p ⟨past, c :: text⟩ with
      | none =>
        rw [hread, mem_cons] at hmem
        exact hmem.elim (fun heq => by cases heq) ih
      | some hit =>
        rw [hread, mem_cons] at hmem
        apply hmem.elim
        · intro heq
          cases heq
          exact ⟨past, c, text, hit.2, hread, rfl⟩
        · exact ih

theorem filter_replaceAll {keep : Char → Bool} {text : List Char}
    (hsame : ∀ read groups, .hit read groups ∈ pieces p text →
      (new read groups).filter keep = read.filter keep) :
    (replaceAll p new text).filter keep = text.filter keep := by
  conv_rhs => rw [← pieces_write (p := p) text]
  rw [replaceAll]
  generalize pieces p text = found at hsame ⊢
  induction found with
  | nil => rfl
  | cons piece others ih =>
    have hoth := ih fun read groups hmem => hsame read groups (mem_cons_of_mem _ hmem)
    rw [flatMap_cons, flatMap_cons, filter_append, filter_append, hoth]
    cases piece with
    | plain c => rfl
    | hit read groups =>
      exact congrArg (· ++ _) (hsame read groups mem_cons_self)

def Settled (p : Pattern α) (new : List Char → α → List Char) (text : List Char) : Prop :=
  ∀ read groups, .hit read groups ∈ pieces p text → new read groups = read

theorem replaceAll_of_settled {text : List Char} (hset : Settled p new text) :
    replaceAll p new text = text := by
  conv_rhs => rw [← pieces_write (p := p) text]
  unfold Settled at hset
  rw [replaceAll]
  generalize pieces p text = found at hset ⊢
  induction found with
  | nil => rfl
  | cons piece others ih =>
    rw [flatMap_cons, flatMap_cons,
      ih fun read groups hmem => hset read groups (mem_cons_of_mem _ hmem)]
    cases piece with
    | plain c => rfl
    | hit read groups => exact congrArg (· ++ _) (hset read groups mem_cons_self)

end Pieces

/-- The ranges of a text of the given length that the matches separate. -/
def spansFrom {α : Type} : Nat → List (Match α) → Nat → List (Nat × Nat)
  | start, [], length => [(start, length)]
  | start, m :: later, length => (start, m.start) :: spansFrom m.stop later length

def spans {α : Type} (p : Pattern α) (text : List Char) : List (Nat × Nat) :=
  spansFrom 0 (findIter p text) text.length

theorem spansFrom_within {α : Type} {p : Pattern α} {start pos skip : Nat} {past text : List Char}
    (hstart : start ≤ pos + skip) (hskip : skip ≤ text.length) :
    ∀ range ∈ spansFrom start (findFrom p pos skip past text) (pos + text.length),
      range.1 ≤ range.2 ∧ range.2 ≤ pos + text.length := by
  induction text generalizing start pos skip past with
  | nil =>
    intro range hmem
    rw [length_nil] at hskip ⊢
    simp only [findFrom, spansFrom, length_nil, mem_singleton] at hmem
    rw [hmem]
    omega
  | cons c text ih =>
    have hlen : pos + (c :: text).length = pos + 1 + text.length := by
      rw [length_cons]
      omega
    rw [length_cons] at hskip
    rw [hlen]
    cases skip with
    | succ skip =>
      rw [findFrom]
      apply ih
      · omega
      · omega
    | zero =>
      rw [findFrom]
      cases p ⟨past, c :: text⟩ with
      | none =>
        apply ih
        · omega
        · omega
      | some hit =>
        intro range hmem
        simp only [spansFrom, mem_cons] at hmem
        cases hmem with
        | inl heq =>
          rw [heq]
          simp only
          omega
        | inr hmem =>
          apply ih _ _ range hmem
          · rw [length_cons]
            omega
          · omega

theorem spans_within {α : Type} {p : Pattern α} {text : List Char} :
    ∀ range ∈ spans p text, range.1 ≤ range.2 ∧ range.2 ≤ text.length := by
  intro range hmem
  have hwith : range.1 ≤ range.2 ∧ range.2 ≤ 0 + text.length := by
    apply spansFrom_within (Nat.le_refl 0) (Nat.zero_le _)
    rw [Nat.zero_add]
    exact hmem
  rw [Nat.zero_add] at hwith
  exact hwith

theorem spans_ne_nil {α : Type} (p : Pattern α) (text : List Char) : spans p text ≠ [] := by
  unfold spans
  cases findIter p text with
  | nil => exact cons_ne_nil _ _
  | cons m others => exact cons_ne_nil _ _

/-- The text with `added pos` written before its character at `pos`, and at the end. -/
def weave (added : Nat → List Char) : Nat → List Char → List Char
  | pos, [] => added pos
  | pos, c :: rest => added pos ++ c :: weave added (pos + 1) rest

/-- Taking out of a text what `weave` wrote into one of the given length. -/
def unweave (added : Nat → List Char) : Nat → Nat → List Char → List Char
  | pos, 0, text => text.drop (added pos).length
  | pos, length + 1, text =>
    match text.drop (added pos).length with
    | [] => []
    | c :: rest => c :: unweave added (pos + 1) length rest

theorem unweave_weave (added : Nat → List Char) (pos : Nat) (text : List Char) :
    unweave added pos text.length (weave added pos text) = text := by
  induction text generalizing pos with
  | nil => simp [weave, unweave]
  | cons c text ih => simp [weave, unweave, ih]

theorem weave_congr {added added' : Nat → List Char} {pos : Nat} {text : List Char}
    (same : ∀ i, pos ≤ i → i ≤ pos + text.length → added i = added' i) :
    weave added pos text = weave added' pos text := by
  induction text generalizing pos with
  | nil => exact same pos (Nat.le_refl _) (by simp)
  | cons c text ih =>
    have here := same pos (Nat.le_refl _) (by simp)
    have later : weave added (pos + 1) text = weave added' (pos + 1) text :=
      ih fun i lower upper => same i (by omega) (by rw [length_cons]; omega)
    simp only [weave, here, later]

theorem weave_append {added : Nat → List Char} {pos : Nat} {a b : List Char}
    (none : ∀ i, pos ≤ i → i < pos + a.length → added i = []) :
    weave added pos (a ++ b) = a ++ weave added (pos + a.length) b := by
  induction a generalizing pos with
  | nil => rfl
  | cons c a ih =>
    have here := none pos (Nat.le_refl _) (by simp)
    have later : weave added (pos + 1) (a ++ b) = a ++ weave added (pos + 1 + a.length) b :=
      ih fun i lower upper => none i (by omega) (by rw [length_cons]; omega)
    have shift : pos + (c :: a).length = pos + 1 + a.length := by
      rw [length_cons]
      omega
    rw [cons_append, weave, here, nil_append, later, cons_append, shift]

theorem weave_nothing {added : Nat → List Char} {pos : Nat} {text : List Char}
    (none : ∀ i, pos ≤ i → i ≤ pos + text.length → added i = []) : weave added pos text = text := by
  have front := weave_append (b := []) fun i lower upper => none i lower (Nat.le_of_lt upper)
  rw [append_nil, weave, none _ (by omega) (Nat.le_refl _), append_nil] at front
  exact front

/-- The text with `note past rest` written at each place between `past`, nearest
character first, and `rest`. -/
def addNotes (note : List Char → List Char → List Char) : List Char → List Char → List Char
  | past, [] => note past []
  | past, c :: rest => note past (c :: rest) ++ c :: addNotes note (c :: past) rest

section Notes

variable {note : List Char → List Char → List Char}

theorem addNotes_eq_weave {added : Nat → List Char} {pos : Nat} {past text : List Char}
    (same : ∀ a b, text = a ++ b → added (pos + a.length) = note (a.reverse ++ past) b) :
    addNotes note past text = weave added pos text := by
  induction text generalizing pos past with
  | nil => exact (same [] [] rfl).symm
  | cons c text ih =>
    have here := same [] (c :: text) rfl
    have later : addNotes note (c :: past) text = weave added (pos + 1) text := ih fun a b split => by
      have shifted := same (c :: a) b (by rw [split, cons_append])
      simp only [length_cons, reverse_cons, append_assoc, singleton_append]
        at shifted
      rw [← shifted]
      congr 1
      omega
    rw [addNotes, weave, later]
    exact congrArg (· ++ _) here.symm

/-- Places that get no note are passed over. -/
theorem addNotes_append {past a b : List Char}
    (quiet : ∀ a₁ a₂, a = a₁ ++ a₂ → a₂ ≠ [] → note (a₁.reverse ++ past) (a₂ ++ b) = []) :
    addNotes note past (a ++ b) = a ++ addNotes note (a.reverse ++ past) b := by
  induction a generalizing past with
  | nil => rfl
  | cons c a ih =>
    have here := quiet [] (c :: a) rfl (by simp)
    simp only [reverse_nil, nil_append, cons_append] at here
    have later : addNotes note (c :: past) (a ++ b) =
        a ++ addNotes note (a.reverse ++ c :: past) b := ih fun a₁ a₂ split ne => by
      simpa using quiet (c :: a₁) a₂ (by rw [split, cons_append]) ne
    rw [cons_append, addNotes, here, nil_append, later, cons_append,
      reverse_cons, append_assoc]
    rfl

variable (note) in
theorem length_addNotes_ge (past text : List Char) :
    text.length ≤ (addNotes note past text).length := by
  induction text generalizing past with
  | nil => exact Nat.zero_le _
  | cons c text ih =>
    have later := ih (c :: past)
    simp only [addNotes, length_append, length_cons]
    omega

/-- A text that notes leave as it is gets none. -/
theorem no_note_of_addNotes_eq {past text : List Char} (same : addNotes note past text = text)
    {a b : List Char} (split : text = a ++ b) : note (a.reverse ++ past) b = [] := by
  induction a generalizing past text with
  | nil =>
    simp only [nil_append, reverse_nil] at split ⊢
    subst split
    have count := congrArg length same
    apply eq_nil_of_length_eq_zero
    cases text with
    | nil => simpa [addNotes] using count
    | cons c text =>
      have later := length_addNotes_ge note (c :: past) text
      simp only [addNotes, length_append, length_cons] at count
      omega
  | cons c a ih =>
    subst split
    have count := congrArg length same
    have later := length_addNotes_ge note (c :: past) (a ++ b)
    simp only [cons_append, addNotes, length_append, length_cons] at count later
    have none : note past (c :: (a ++ b)) = [] := by
      apply eq_nil_of_length_eq_zero
      omega
    rw [cons_append, addNotes, none, nil_append] at same
    have tail := ih (cons.inj same).2 rfl
    simpa using tail

end Notes

def replaceRange (text : List Char) (start stop : Nat) (new : List Char) : List Char :=
  text.take start ++ new ++ text.drop stop

structure Note where
  start : Nat
  stop : Nat
  note : List Char

def slice (text : List Char) (start stop : Nat) : List Char :=
  (text.take stop).drop start

def notedAt (notes : List Note) (pos : Nat) : List Char :=
  match notes.find? fun n => n.stop = pos with
  | none => []
  | some n => n.note

theorem notedAt_cons_self (n : Note) (notes : List Note) :
    notedAt (n :: notes) n.stop = n.note := by
  simp [notedAt]

theorem notedAt_cons_ne {n : Note} {notes : List Note} {pos : Nat} (ne : n.stop ≠ pos) :
    notedAt (n :: notes) pos = notedAt notes pos := by
  simp [notedAt, ne]

theorem notedAt_eq_nil {notes : List Note} {pos : Nat} (none : ∀ n ∈ notes, n.stop ≠ pos) :
    notedAt notes pos = [] := by
  have missing : notes.find? (fun n => n.stop = pos) = Option.none := by
    simpa using none
  rw [notedAt, missing]

/-- Ranges in order, none beginning before the one in front of it has ended. -/
def Ordered (notes : List Note) : Prop :=
  notes.Pairwise fun n n' => n.stop ≤ n'.start

theorem take_append_slice {text : List Char} {start stop : Nat} (le : start ≤ stop) :
    text.take start ++ slice text start stop = text.take stop := by
  have short : text.take start = (text.take stop).take start := by
    rw [take_take, Nat.min_eq_left le]
  rw [slice, short, take_append_drop]

/-- A note whose place the text already shows is written in front of what the later notes wrote. -/
theorem weave_cons {n : Note} {notes : List Note} {text : List Char}
    (within : n.stop ≤ text.length) (later : ∀ n' ∈ notes, n.stop < n'.stop) :
    weave (notedAt (n :: notes)) 0 text =
      text.take n.stop ++ n.note ++ (weave (notedAt notes) 0 text).drop n.stop := by
  have front : (text.take n.stop).length = n.stop := by
    rw [length_take]
    omega
  have split : text = text.take n.stop ++ text.drop n.stop := (take_append_drop _ _).symm
  have quiet : ∀ i, i ≤ n.stop → notedAt notes i = [] := by
    intro i le
    apply notedAt_eq_nil
    intro n' mem
    have := later n' mem
    omega
  have quiet' : ∀ i, i < n.stop → notedAt (n :: notes) i = [] := by
    intro i lt
    rw [notedAt_cons_ne (by omega), quiet i (by omega)]
  have rest : weave (notedAt notes) 0 text =
      text.take n.stop ++ weave (notedAt notes) n.stop (text.drop n.stop) := by
    conv_lhs => rw [split]
    rw [weave_append (fun i _ lt => quiet i (by omega)), front, Nat.zero_add]
  have whole : weave (notedAt (n :: notes)) 0 text =
      text.take n.stop ++ weave (notedAt (n :: notes)) n.stop (text.drop n.stop) := by
    conv_lhs => rw [split]
    rw [weave_append (fun i _ lt => quiet' i (by omega)), front, Nat.zero_add]
  have dropped : (weave (notedAt notes) 0 text).drop n.stop =
      weave (notedAt notes) n.stop (text.drop n.stop) := by
    rw [rest, drop_left' front]
  rw [whole, dropped, append_assoc]
  congr 1
  cases text.drop n.stop with
  | nil => rw [weave, weave, notedAt_cons_self, quiet _ (Nat.le_refl _), append_nil]
  | cons c tail =>
    rw [weave, weave, notedAt_cons_self, quiet _ (Nat.le_refl _), nil_append]
    congr 2
    apply weave_congr
    intro i lower _
    exact notedAt_cons_ne (by omega)

/-- Writing notes behind ranges from the back of a text to its front, as
replacements that repeat the range, adds the notes and changes nothing else. -/
theorem foldr_replaceRange (text : List Char) (notes : List Note) (ordered : Ordered notes)
    (within : ∀ n ∈ notes, n.start < n.stop ∧ n.stop ≤ text.length) :
    notes.foldr (fun n t => replaceRange t n.start n.stop
        (slice text n.start n.stop ++ n.note)) text =
      weave (notedAt notes) 0 text := by
  induction notes with
  | nil => exact (weave_nothing fun _ _ _ => rfl).symm
  | cons n notes ih =>
    have inside := within n mem_cons_self
    have later : ∀ n' ∈ notes, n.stop < n'.stop := by
      intro n' mem
      have after := (pairwise_cons.1 ordered).1 n' mem
      have := within n' (mem_cons_of_mem _ mem)
      omega
    have kept : (weave (notedAt notes) 0 text).take n.start = text.take n.start := by
      have quiet : ∀ i, i < n.start → notedAt notes i = [] := by
        intro i lt
        apply notedAt_eq_nil
        intro n' mem
        have := later n' mem
        omega
      have front : (text.take n.start).length = n.start := by
        rw [length_take]
        omega
      conv_lhs => rw [← take_append_drop n.start text]
      rw [weave_append (fun i _ lt => quiet i (by omega)), take_left' front]
    rw [foldr_cons, ih (pairwise_cons.1 ordered).2 fun n' mem =>
      within n' (mem_cons_of_mem _ mem)]
    rw [replaceRange, kept, ← append_assoc, take_append_slice (by omega),
      weave_cons inside.2 later]

end Wenlan.Support.TextScan
