import Wenlan.Temporal.Phrases
/-!
# Writing absolute dates behind relative days

What `ground_relative_dates` writes: the patches of each phrase, applied from
the back of the text, and the same result place by place.
-/

namespace Wenlan.Temporal

open Support.TextScan Support.Calendar
open Claims (isWhitespace)

/-- The tests of `\(\d{4}-\d{2}-\d{2}\)`. -/
def dateTests (chars : UnicodeClasses) : List (Char → Bool) :=
  [(· = '('), chars.isDigit, chars.isDigit, chars.isDigit, chars.isDigit, (· = '-'),
    chars.isDigit, chars.isDigit, (· = '-'), chars.isDigit, chars.isDigit, (· = ')')]

/-- `RE_ALREADY_GROUNDED` at the start of a text. -/
def alreadyGrounded (chars : UnicodeClasses) (after : List Char) : Bool :=
  (shape (dateTests chars) (Cursor.many isWhitespace ⟨[], after⟩).2).isSome

def possessive : List Char → Bool
  | [] => false
  | c :: _ => c = '\'' || c = '\u2019'

/-- What is written behind a phrase. -/
def dateNote (date : NaiveDate) : List Char :=
  " (".toList ++ date.format ++ ")".toList

structure Patch where
  start : Nat
  stop : Nat
  replacement : List Char

def candidates (chars : UnicodeClasses) (today : NaiveDate) :
    Option (List (Pattern Unit × NaiveDate)) := do
  let before ← today.addDays (-1)
  let after ← today.addDays 1
  pure [(RE_YESTERDAY chars, before), (RE_TODAY chars, today), (RE_TOMORROW chars, after)]

def patchesOf (chars : UnicodeClasses) (content : List Char) (re : Pattern Unit)
    (date : NaiveDate) : List Patch :=
  (findIter re content).filterMap fun m =>
    let after := content.drop m.stop
    if possessive after then none
    else if alreadyGrounded chars after then none
    else some ⟨m.start, m.stop, slice content m.start m.stop ++ dateNote date⟩

/-- `none` is a panic of the calendar library. -/
def groundRelativeDates (chars : UnicodeClasses) (content : List Char)
    (observationDate : DateTime) : Option (List Char) := do
  let candidates ← candidates chars observationDate.date
  let patches := candidates.flatMap fun (re, date) => patchesOf chars content re date
  if patches.isEmpty then pure content
  else
    -- from the back to the front, so that earlier offsets stay valid
    let sorted := patches.mergeSort fun p q => decide (q.start ≤ p.start)
    pure (sorted.foldl (fun result p => replaceRange result p.start p.stop p.replacement) content)

/-! ## Place by place -/

section Places

variable (chars : UnicodeClasses)

/-- The characters of a word right before a place, in order. -/
def runBefore (past : List Char) : List Char :=
  (past.takeWhile chars.isWord).reverse

/-- The whole word right before a place is the phrase. -/
def endsAt (day : RelativeDay) (past rest : List Char) : Bool :=
  match literal day.word ⟨[], runBefore chars past⟩ with
  | none => false
  | some (_, c) => c.rest.isEmpty && !Cursor.headIs chars.isWord rest

/-- A phrase ends here that is neither possessive nor annotated. -/
def groundable (day : RelativeDay) (past rest : List Char) : Bool :=
  endsAt chars day past rest && !possessive rest && !alreadyGrounded chars rest

def allDays : List RelativeDay :=
  [.yesterday, .today, .tomorrow]

def noteAt (dateOf : RelativeDay → NaiveDate) (past rest : List Char) : List Char :=
  match allDays.find? fun day => groundable chars day past rest with
  | none => []
  | some day => dateNote (dateOf day)

/-- Reading a phrase: its letters in any case, alone between non-word characters. -/
def Spelled (day : RelativeDay) (read : List Char) : Prop :=
  List.Forall₂ (fun test x => test x = true) (day.word.map sameLetter) read

variable {day : RelativeDay}

theorem Spelled.isWord {read : List Char} (spelled : Spelled day read) :
    ∀ x ∈ read, chars.isWord x :=
  isWord_of_spelled chars day.word_letters spelled

theorem Spelled.length {read : List Char} (spelled : Spelled day read) :
    read.length = day.word.length := by
  have same := List.Forall₂.length_eq spelled
  rw [List.length_map] at same
  exact same.symm

theorem Spelled.ne_nil {read : List Char} (spelled : Spelled day read) : read ≠ [] := by
  intro empty
  have count := spelled.length
  rw [empty] at count
  exact day.word_ne_nil (List.eq_nil_of_length_eq_zero count.symm)

theorem endsAt_iff (day : RelativeDay) (past rest : List Char) : endsAt chars day past rest ↔
      Spelled day (runBefore chars past) ∧ Cursor.headIs chars.isWord rest = false := by
  unfold endsAt
  cases reads : literal day.word ⟨[], runBefore chars past⟩ with
  | none =>
    simp only [Bool.false_eq_true, false_iff]
    rintro ⟨spelled, _⟩
    have found := (shape_eq_some_iff (day.word.map sameLetter) ⟨[], runBefore chars past⟩
      (runBefore chars past) ⟨(runBefore chars past).reverse, []⟩).2
      ⟨(List.append_nil _).symm, (List.append_nil _).symm, spelled⟩
    rw [literal, found] at reads
    cases reads
  | some hit =>
    have fields := (shape_eq_some_iff _ _ _ _).1 reads
    simp only [Bool.and_eq_true, List.isEmpty_iff, Bool.not_eq_true']
    constructor
    · rintro ⟨empty, closes⟩
      have whole : runBefore chars past = hit.1 := by
        have split := fields.1
        rw [empty, List.append_nil] at split
        exact split
      refine ⟨?_, closes⟩
      rw [whole]
      exact fields.2.2
    · rintro ⟨spelled, closes⟩
      refine ⟨?_, closes⟩
      have split : runBefore chars past = hit.1 ++ hit.2.rest := fields.1
      have count := congrArg List.length split
      have long := spelled.length
      have long' := Spelled.length (show Spelled day hit.1 from fields.2.2)
      rw [List.length_append] at count
      apply List.eq_nil_of_length_eq_zero
      omega

theorem spelled_unique {day' : RelativeDay} {read : List Char} (spelled : Spelled day read)
    (spelled' : Spelled day' read) : day = day' := by
  have same := spelled.length.symm.trans spelled'.length
  cases day <;> cases day' <;> simp [RelativeDay.word] at same ⊢

theorem groundable_iff (day : RelativeDay) (past rest : List Char) :
    groundable chars day past rest ↔ endsAt chars day past rest ∧ possessive rest = false ∧
        alreadyGrounded chars rest = false := by
  simp [groundable, and_assoc]

theorem dateNote_ne_nil (date : NaiveDate) : dateNote date ≠ [] := by
  simp [dateNote]

theorem noteAt_of_groundable {dateOf : RelativeDay → NaiveDate}
    {past rest : List Char} (here : groundable chars day past rest) :
    noteAt chars dateOf past rest = dateNote (dateOf day) := by
  unfold noteAt
  cases found : allDays.find? fun day => groundable chars day past rest with
  | none =>
    have none := List.find?_eq_none.1 found day (by cases day <;> simp [allDays])
    exact absurd here none
  | some day' =>
    have here' := List.find?_some found
    have spelled := ((endsAt_iff chars day past rest).1 ((groundable_iff _ _ _ _).1 here).1).1
    have spelled' := ((endsAt_iff chars day' past rest).1 ((groundable_iff _ _ _ _).1 here').1).1
    rw [spelled_unique spelled' spelled]

theorem noteAt_eq_nil_iff {dateOf : RelativeDay → NaiveDate} {past rest : List Char} :
    noteAt chars dateOf past rest = [] ↔
      ∀ day, groundable chars day past rest = false := by
  constructor
  · intro empty day
    by_contra here
    rw [Bool.not_eq_false] at here
    rw [noteAt_of_groundable chars here] at empty
    exact dateNote_ne_nil _ empty
  · intro none
    have missing : (allDays.find? fun day => groundable chars day past rest) = Option.none := by
      apply List.find?_eq_none.2
      intro day _
      rw [none day]
      decide
    rw [noteAt, missing]

end Places

end Wenlan.Temporal
