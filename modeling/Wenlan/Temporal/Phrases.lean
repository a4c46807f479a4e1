import Wenlan.Claims.Provenance
import Wenlan.Support.Calendar
import Wenlan.Support.TextScan
/-!
# The relative days a text names

The patterns for `yesterday`, `today` and `tomorrow` as whole words in any case.
-/

namespace Wenlan.Temporal

open Support.TextScan Support.Calendar Cursor

/-- The Unicode tables of the pattern library: its classes `\w` and `\d`. -/
structure UnicodeClasses where
  isWord : Char → Bool
  isDigit : Char → Bool
  word_ascii : ∀ c : Char, c.toNat < 128 → isWord c = (c.isAlphanum || c = '_')
  word_longS : isWord 'ſ' = true
  word_kelvin : isWord '\u212A' = true
  digit_ascii : ∀ c : Char, c.toNat < 128 → isDigit c = c.isDigit

inductive RelativeDay
  | yesterday
  | today
  | tomorrow
  deriving DecidableEq

namespace RelativeDay

def word : RelativeDay → List Char
  | yesterday => ['y', 'e', 's', 't', 'e', 'r', 'd', 'a', 'y']
  | today => ['t', 'o', 'd', 'a', 'y']
  | tomorrow => ['t', 'o', 'm', 'o', 'r', 'r', 'o', 'w']

end RelativeDay

/-- A word of small letters that stands alone. -/
def wholeWord (chars : UnicodeClasses) (word : List Char) : Pattern Unit := fun c => do
  let c ← c.boundary chars.isWord
  let (_, c) ← literal word c
  let c ← c.boundary chars.isWord
  pure ((), c)

def RelativeDay.re (chars : UnicodeClasses) (day : RelativeDay) : Pattern Unit :=
  wholeWord chars day.word

def RE_YESTERDAY (chars : UnicodeClasses) : Pattern Unit :=
  RelativeDay.yesterday.re chars

def RE_TODAY (chars : UnicodeClasses) : Pattern Unit :=
  RelativeDay.today.re chars

def RE_TOMORROW (chars : UnicodeClasses) : Pattern Unit :=
  RelativeDay.tomorrow.re chars

section Letters

variable (chars : UnicodeClasses)

/-- A small letter of the ASCII alphabet; its capital is one too. -/
structure IsLetter (letter : Char) : Prop where
  small : letter.toNat < 128
  alphanum : letter.isAlphanum = true
  capital : letter.toUpper.toNat < 128
  capitalAlphanum : letter.toUpper.isAlphanum = true

instance (letter : Char) : Decidable (IsLetter letter) :=
  decidable_of_iff (letter.toNat < 128 ∧ letter.isAlphanum = true ∧ letter.toUpper.toNat < 128 ∧
      letter.toUpper.isAlphanum = true)
    ⟨fun fields => ⟨fields.1, fields.2.1, fields.2.2.1, fields.2.2.2⟩,
      fun letter => ⟨letter.small, letter.alphanum, letter.capital, letter.capitalAlphanum⟩⟩

theorem RelativeDay.word_letters (day : RelativeDay) : ∀ letter ∈ day.word, IsLetter letter := by
  have all : (day.word.all fun letter => decide (IsLetter letter)) := by
    cases day <;> decide
  intro letter mem
  exact of_decide_eq_true (List.all_eq_true.1 all letter mem)

theorem RelativeDay.word_ne_nil (day : RelativeDay) : day.word ≠ [] := by
  cases day <;> simp [RelativeDay.word]

theorem isWord_of_sameLetter {letter c : Char} (isLetter : IsLetter letter)
    (same : sameLetter letter c) : chars.isWord c := by
  simp only [sameLetter, Bool.or_eq_true, Bool.and_eq_true, decide_eq_true_eq] at same
  rcases same with ((rfl | rfl) | ⟨-, rfl⟩) | ⟨-, rfl⟩
  · rw [chars.word_ascii c isLetter.small, isLetter.alphanum, Bool.true_or]
  · rw [chars.word_ascii _ isLetter.capital, isLetter.capitalAlphanum, Bool.true_or]
  · exact chars.word_longS
  · exact chars.word_kelvin

theorem isWord_of_spelled {word read : List Char} (letters : ∀ letter ∈ word, IsLetter letter)
    (spelled : List.Forall₂ (fun test x => test x) (word.map sameLetter) read) :
    ∀ x ∈ read, chars.isWord x := by
  induction word generalizing read with
  | nil =>
    cases spelled
    intro x mem
    cases mem
  | cons letter word ih =>
    cases spelled with
    | @cons _ y _ read first others =>
      have tail := ih (fun l mem => letters l (List.mem_cons_of_mem _ mem)) others
      have head := isWord_of_sameLetter chars (letters letter List.mem_cons_self) first
      intro x mem
      rw [List.mem_cons] at mem
      cases mem with
      | inl same => rw [same, head]
      | inr mem => exact tail x mem

theorem wholeWord_eq_some_iff {word : List Char} (letters : ∀ letter ∈ word, IsLetter letter)
    (ne : word ≠ []) (past rest : List Char) (after : Cursor) :
    wholeWord chars word ⟨past, rest⟩ = some ((), after) ↔
      ∃ read, rest = read ++ after.rest ∧ after.past = read.reverse ++ past ∧
        List.Forall₂ (fun test x => test x) (word.map sameLetter) read ∧
        headIs chars.isWord past = false ∧
        headIs chars.isWord after.rest = false := by
  constructor
  · intro found
    simp only [wholeWord, Option.bind_eq_bind, Option.bind_eq_some_iff] at found
    obtain ⟨start, opens, ⟨read, stop⟩, reads, stop', closes, same⟩ := found
    cases same
    have spelled := (shape_eq_some_iff _ _ _ _).1 reads
    have inWord := isWord_of_spelled chars letters spelled.2.2
    have read_ne : read ≠ [] := by
      intro empty
      rw [empty] at spelled
      cases word with
      | nil => exact ne rfl
      | cons letter word => cases spelled.2.2
    unfold boundary at opens closes
    by_cases equal : headIs chars.isWord past = headIs chars.isWord rest
    · rw [if_pos equal] at opens
      cases opens
    · rw [if_neg equal] at opens
      cases opens
      by_cases equal' :
          headIs chars.isWord stop.past = headIs chars.isWord stop.rest
      · rw [if_pos equal'] at closes
        cases closes
      · rw [if_neg equal'] at closes
        cases closes
        have first : headIs chars.isWord rest := by
          rw [show rest = read ++ _ from spelled.1]
          cases read with
          | nil => exact absurd rfl read_ne
          | cons x read => exact inWord x List.mem_cons_self
        have last : headIs chars.isWord stop.past := by
          rw [spelled.2.1]
          cases back : read.reverse with
          | nil => exact absurd (List.reverse_eq_nil_iff.1 back) read_ne
          | cons x tail =>
            apply inWord x
            rw [← List.mem_reverse, back]
            exact List.mem_cons_self
        rw [first] at equal
        rw [last] at equal'
        refine ⟨read, spelled.1, spelled.2.1, spelled.2.2, ?_, ?_⟩
        · exact Bool.eq_false_iff.2 equal
        · exact Bool.eq_false_iff.2 (Ne.symm equal')
  · rintro ⟨read, split, back, spelled, opens, closes⟩
    have inWord := isWord_of_spelled chars letters spelled
    have read_ne : read ≠ [] := by
      intro empty
      rw [empty] at spelled
      cases word with
      | nil => exact ne rfl
      | cons letter word => cases spelled
    have first : headIs chars.isWord rest := by
      rw [split]
      cases read with
      | nil => exact absurd rfl read_ne
      | cons x read => exact inWord x List.mem_cons_self
    have last : headIs chars.isWord after.past := by
      rw [back]
      cases turned : read.reverse with
      | nil => exact absurd (List.reverse_eq_nil_iff.1 turned) read_ne
      | cons x tail =>
        apply inWord x
        rw [← List.mem_reverse, turned]
        exact List.mem_cons_self
    have reads : literal word ⟨past, rest⟩ = some (read, after) :=
      (shape_eq_some_iff _ _ _ _).2 ⟨split, back, spelled⟩
    have opened : boundary chars.isWord ⟨past, rest⟩ = some ⟨past, rest⟩ := by
      rw [boundary, if_neg (by rw [opens, first]; decide)]
    have closed : boundary chars.isWord after = some after := by
      rw [boundary, if_neg (by rw [closes, last]; decide)]
    simp only [wholeWord, Option.bind_eq_bind, opened, Option.bind_some, reads, closed]
    rfl

end Letters

def asciiClasses : UnicodeClasses where
  isWord c := c.isAlphanum || c = '_' || c = 'ſ' || c = '\u212A'
  isDigit c := c.isDigit
  word_ascii c small := by
    have longS : c ≠ 'ſ' := by
      intro same
      rw [same] at small
      exact absurd small (by decide)
    have kelvin : c ≠ '\u212A' := by
      intro same
      rw [same] at small
      exact absurd small (by decide)
    simp [longS, kelvin]
  word_longS := by decide
  word_kelvin := by decide
  digit_ascii _ _ := rfl

def midnight (year : Int) (month day : Nat) (valid : ValidDate year month day)
    (lower : MIN_YEAR ≤ year) (upper : year ≤ MAX_YEAR) : DateTime :=
  ⟨⟨year, month, day, valid, lower, upper⟩, 0, by omega⟩

def mayDay : DateTime := midnight 2026 5 1 (by decide) (by decide) (by decide)

end Wenlan.Temporal
