import Wenlan.Temporal.GroundingPlaces
/-!
# Notes and annotations

The result as notes written place by place, what an annotation looks like to a
second pass, and that a note is taken for one exactly when its year has four digits.
-/

namespace Wenlan.Temporal

open Support.TextScan Support.Calendar List NaiveDate
open Claims (isWhitespace)

def dayDates (before today after : NaiveDate) : RelativeDay → NaiveDate
  | .yesterday => before
  | .today => today
  | .tomorrow => after

section Result

variable {chars : UnicodeClasses} {content : List Char} {observationDate : DateTime}
variable {before after : NaiveDate}

variable (chars content) in
/-- The result of the code, as notes woven into the text. -/
theorem groundRelativeDates_weave (earlier : observationDate.date.addDays (-1) = some before)
    (later : observationDate.date.addDays 1 = some after) :
    groundRelativeDates chars content observationDate =
      some (weave (notedAt (inOrder (allNotes chars content
        (dayDates before observationDate.date after)))) 0 content) := by
  have patches : patchesOf chars content (RE_YESTERDAY chars) before ++
      (patchesOf chars content (RE_TODAY chars) observationDate.date ++
        patchesOf chars content (RE_TOMORROW chars) after) =
      (allNotes chars content (dayDates before observationDate.date after)).map
        (toPatch content) := by
    simp [allNotes, allDays, dayDates, RE_YESTERDAY, RE_TODAY, RE_TOMORROW, patchesOf_eq]
  have woven := foldr_replaceRange content
    (inOrder (allNotes chars content (dayDates before observationDate.date after)))
    inOrder_ordered fun n mem => allNotes_within (mem_inOrder.1 mem)
  have sorted : ((allNotes chars content (dayDates before observationDate.date after)).map
      (toPatch content)).mergeSort (fun p q => decide (q.start ≤ p.start)) =
      (inOrder (allNotes chars content (dayDates before observationDate.date after))).reverse.map
        (toPatch content) := by
    rw [inOrder, reverse_reverse]
    exact (map_mergeSort (f := toPatch content) fun _ _ _ _ => rfl).symm
  simp only [groundRelativeDates, candidates, earlier, later, Option.bind_eq_bind,
    Option.bind_some, pure, flatMap_cons, flatMap_nil, append_nil, patches]
  by_cases empty : ((allNotes chars content (dayDates before observationDate.date after)).map
      (toPatch content)).isEmpty
  · rw [if_pos empty]
    rw [List.isEmpty_iff, List.map_eq_nil_iff] at empty
    rw [empty]
    apply congrArg some
    symm
    apply weave_nothing
    intro i _ _
    apply notedAt_eq_nil
    intro n mem
    cases mem_inOrder.1 mem
  · rw [if_neg empty, sorted, foldl_map, foldl_reverse]
    exact congrArg some woven

/-- The same result, place by place. -/
theorem groundRelativeDates_eq (earlier : observationDate.date.addDays (-1) = some before)
    (later : observationDate.date.addDays 1 = some after) :
    groundRelativeDates chars content observationDate =
      some (addNotes (noteAt chars (dayDates before observationDate.date after)) [] content) := by
  rw [groundRelativeDates_weave _ _ earlier later]
  apply congrArg some
  symm
  apply addNotes_eq_weave
  intro a b split
  rw [Nat.zero_add, append_nil]
  exact notedAt_eq_noteAt _ _ split

end Result

/-! ## Annotations -/

section Annotations

variable (chars : UnicodeClasses)

def endsPhrase (c : Char) : Bool :=
  c = 'y' || c = 'Y' || c = 'w' || c = 'W'

theorem endsPhrase_of_endsAt {day : RelativeDay} {c : Char} {past rest : List Char}
    (ends : endsAt chars day (c :: past) rest) : endsPhrase c := by
  have spelled := ((endsAt_iff chars day (c :: past) rest).1 ends).1
  have ne := spelled.ne_nil
  by_cases inWord : chars.isWord c
  · rw [runBefore, takeWhile_cons, if_pos inWord, reverse_cons] at spelled
    have last : ∃ letter, (letter = 'y' ∨ letter = 'w') ∧ sameLetter letter c := by
      have turned := rel_reverse spelled
      rw [reverse_append] at turned
      cases day with
      | yesterday => exact ⟨'y', Or.inl rfl, (forall₂_cons.1 turned).1⟩
      | today => exact ⟨'y', Or.inl rfl, (forall₂_cons.1 turned).1⟩
      | tomorrow => exact ⟨'w', Or.inr rfl, (forall₂_cons.1 turned).1⟩
    obtain ⟨letter, kind, same⟩ := last
    have capitals : 'y'.toUpper = 'Y' ∧ 'w'.toUpper = 'W' := by decide
    cases kind with
    | inl y =>
      rw [y, sameLetter, capitals.1] at same
      simp only [endsPhrase]
      simp at same ⊢
      tauto
    | inr w =>
      rw [w, sameLetter, capitals.2] at same
      simp only [endsPhrase]
      simp at same ⊢
      tauto
  · rw [runBefore, takeWhile_cons, if_neg inWord] at ne
    exact absurd rfl ne

/-- Nothing is written right behind a character that ends no phrase. -/
theorem noteAt_quiet {dateOf : RelativeDay → NaiveDate} {c : Char} {past rest : List Char}
    (quiet : endsPhrase c = false) : noteAt chars dateOf (c :: past) rest = [] := by
  apply (noteAt_eq_nil_iff chars).2
  intro day
  by_contra here
  rw [Bool.not_eq_false] at here
  have ends := endsPhrase_of_endsAt chars ((groundable_iff _ _ _ _).1 here).1
  rw [quiet] at ends
  cases ends

/-- Blanks and a date in parentheses. -/
structure Annotated (rest spaces read tail : List Char) : Prop where
  split : rest = spaces ++ (read ++ tail)
  blank : ∀ c ∈ spaces, isWhitespace c = true
  date : List.Forall₂ (fun test x => test x = true) (dateTests chars) read

variable {chars}

theorem Annotated.takeWhile {rest spaces read tail : List Char}
    (annotated : Annotated chars rest spaces read tail) (tail' : List Char) :
    (spaces ++ (read ++ tail')).takeWhile isWhitespace = spaces ∧
      (spaces ++ (read ++ tail')).dropWhile isWhitespace = read ++ tail' := by
  have open_paren : ∃ read', read = '(' :: read' := by
    cases annotated.date with
    | cons first others => exact ⟨_, congrArg (· :: _) (of_decide_eq_true first)⟩
  obtain ⟨read', paren⟩ := open_paren
  have off : isWhitespace '(' = false := by decide
  constructor
  · rw [takeWhile_append_of_pos annotated.blank, paren, cons_append,
      takeWhile_cons_of_neg (by rw [off]; decide), append_nil]
  · rw [dropWhile_append_of_pos annotated.blank, paren, cons_append,
      dropWhile_cons_of_neg (by rw [off]; decide)]

theorem Annotated.alreadyGrounded {rest spaces read tail : List Char}
    (annotated : Annotated chars rest spaces read tail) (tail' : List Char) :
    alreadyGrounded chars (spaces ++ (read ++ tail')) := by
  have parts := annotated.takeWhile tail'
  have found := (shape_eq_some_iff (dateTests chars) ⟨spaces.reverse ++ [], read ++ tail'⟩ read
    ⟨read.reverse ++ (spaces.reverse ++ []), tail'⟩).2 ⟨rfl, rfl, annotated.date⟩
  simp only [Temporal.alreadyGrounded, Cursor.many, parts.1, parts.2, found]
  rfl

theorem annotated_of_alreadyGrounded {rest : List Char}
    (grounded : alreadyGrounded chars rest) :
    ∃ spaces read tail, Annotated chars rest spaces read tail := by
  obtain ⟨⟨read, after⟩, found⟩ := Option.isSome_iff_exists.1 grounded
  have fields := (shape_eq_some_iff _ _ _ _).1 found
  refine ⟨rest.takeWhile isWhitespace, read, after.rest, ?_, ?_, fields.2.2⟩
  · rw [← fields.1]
    exact takeWhile_append_dropWhile.symm
  · intro c mem
    exact mem_takeWhile_imp mem

variable (chars)

theorem quiet_of_isDigit {c : Char} (digit : chars.isDigit c) : endsPhrase c = false := by
  by_contra ends
  simp only [Bool.not_eq_false, endsPhrase, Bool.or_eq_true, decide_eq_true_eq] at ends
  have letter : c.toNat < 128 ∧ c.isDigit = false := by
    rcases ends with ((rfl | rfl) | rfl) | rfl <;> decide
  rw [chars.digit_ascii c letter.1, letter.2] at digit
  cases digit

theorem quiet_of_isWhitespace {c : Char} (blank : isWhitespace c) :
    endsPhrase c = false := by
  by_contra ends
  simp only [Bool.not_eq_false, endsPhrase, Bool.or_eq_true, decide_eq_true_eq] at ends
  have letter : isWhitespace c = false := by
    rcases ends with ((rfl | rfl) | rfl) | rfl <;> decide
  rw [letter] at blank
  cases blank

theorem quiet_of_dateTests :
    ∀ test ∈ dateTests chars, ∀ c, test c → endsPhrase c = false := by
  have mark (m : Char) (quiet : endsPhrase m = false) (c : Char) (same : decide (c = m)) :
      endsPhrase c = false := by
    rw [of_decide_eq_true same]
    exact quiet
  have digit (c : Char) (is : chars.isDigit c) := quiet_of_isDigit chars is
  simp only [dateTests, forall_mem_cons]
  exact ⟨mark _ (by decide), digit, digit, digit, digit, mark _ (by decide), digit, digit,
    mark _ (by decide), digit, digit, mark _ (by decide), fun test mem => by cases mem⟩

theorem quiet_of_tests {tests : List (Char → Bool)} {read : List Char}
    (quiet : ∀ test ∈ tests, ∀ c, test c → endsPhrase c = false)
    (reads : List.Forall₂ (fun test x => test x) tests read) :
    ∀ c ∈ read, endsPhrase c = false := by
  induction reads with
  | nil =>
    intro c mem
    cases mem
  | @cons test x tests read first others ih =>
    intro c mem
    rw [mem_cons] at mem
    cases mem with
    | inl same =>
      rw [same]
      exact quiet test mem_cons_self x first
    | inr mem => exact ih (fun test mem => quiet test (mem_cons_of_mem _ mem)) c mem

variable {chars}

theorem Annotated.quiet {rest spaces read tail : List Char}
    (annotated : Annotated chars rest spaces read tail) :
    ∀ c ∈ spaces ++ read, endsPhrase c = false := by
  intro c mem
  rw [mem_append] at mem
  cases mem with
  | inl mem => exact quiet_of_isWhitespace (annotated.blank c mem)
  | inr mem => exact quiet_of_tests (quiet_of_dateTests chars) annotated.date c mem

def FourDigits (date : NaiveDate) : Prop :=
  0 ≤ date.year ∧ date.year ≤ 9999

instance (date : NaiveDate) : Decidable (FourDigits date) :=
  inferInstanceAs (Decidable (0 ≤ date.year ∧ date.year ≤ 9999))

variable (chars) in
theorem isDigit_digit (n : Nat) : chars.isDigit (digit n) := by
  have ascii : ∀ k, k < 10 → (Nat.digitChar k).toNat < 128 ∧ (Nat.digitChar k).isDigit := by
    decide
  have here := ascii (n % 10) (Nat.mod_lt _ (by omega))
  rw [digit, chars.digit_ascii _ here.1, here.2]

variable (chars) in
theorem annotated_dateNote {date : NaiveDate} (four : FourDigits date) (tail : List Char) :
    Annotated chars (dateNote date ++ tail) [' '] (('(' :: date.format) ++ [')']) tail := by
  constructor
  · simp [dateNote]
  · intro c mem
    rw [mem_singleton] at mem
    rw [mem]
    decide
  · have year : formatYear date.year = fourDigits date.year.toNat := if_pos four
    have mark (m : Char) : (fun c => decide (c = m)) m := decide_eq_true rfl
    rw [NaiveDate.format, year]
    have digit := isDigit_digit chars
    exact .cons (mark _) (.cons (digit _) (.cons (digit _) (.cons (digit _) (.cons (digit _)
      (.cons (mark _) (.cons (digit _) (.cons (digit _) (.cons (mark _) (.cons (digit _)
      (.cons (digit _) (.cons (mark _) .nil)))))))))))

theorem not_alreadyGrounded_dateNote {date : NaiveDate} (other : ¬FourDigits date)
    (tail : List Char) : alreadyGrounded chars (dateNote date ++ tail) = false := by
  have year : ∃ sign digits, formatYear date.year = sign :: digits ∧
      chars.isDigit sign = false := by
    rw [formatYear, if_neg (show ¬(0 ≤ date.year ∧ date.year ≤ 9999) from other)]
    by_cases positive : 0 ≤ date.year
    · refine ⟨'+', _, by simp only [positive, if_true]; rfl, ?_⟩
      rw [chars.digit_ascii _ (by decide)]
      decide
    · refine ⟨'-', _, by simp only [positive, if_false]; rfl, ?_⟩
      rw [chars.digit_ascii _ (by decide)]
      decide
  obtain ⟨sign, digits, form, off⟩ := year
  by_contra grounded
  rw [Bool.not_eq_false] at grounded
  have text : dateNote date ++ tail = ' ' :: '(' :: sign :: (digits ++ ('-' ::
      (twoDigits date.month ++ '-' :: NaiveDate.twoDigits date.day)) ++ (')' :: tail)) := by
    simp [dateNote, NaiveDate.format, form]
  rw [text, alreadyGrounded, Cursor.many] at grounded
  have blank : isWhitespace ' ' := by decide
  have paren : isWhitespace '(' = false := by decide
  simp only [dropWhile_cons, blank, paren, if_true] at grounded
  simp [shape, dateTests, Cursor.one, off] at grounded

end Annotations

end Wenlan.Temporal
