import Wenlan.Temporal.GroundingAnnotations
/-!
# Grounding a text twice

A second pass leaves the notes of the first alone as long as each has a year of
four digits, whatever the two dates are.
-/

namespace Wenlan.Temporal

open Support.TextScan Support.Calendar List

section Second

variable {chars : UnicodeClasses} {first second : RelativeDay → NaiveDate}

theorem runBefore_congr {past past' : List Char}
    (runs : past.takeWhile chars.isWord = past'.takeWhile chars.isWord) :
    runBefore chars past = runBefore chars past' := by
  rw [runBefore, runBefore, runs]

theorem endsAt_congr {day : RelativeDay} {past past' rest rest' : List Char}
    (runs : past.takeWhile chars.isWord = past'.takeWhile chars.isWord)
    (heads : Cursor.headIs chars.isWord rest = Cursor.headIs chars.isWord rest') :
    endsAt chars day past rest = endsAt chars day past' rest' := by
  rw [endsAt, endsAt, runBefore_congr runs, heads]

theorem noteAt_annotated {past rest : List Char} (grounded : alreadyGrounded chars rest) :
    noteAt chars second past rest = [] := by
  apply (noteAt_eq_nil_iff chars).2
  intro day
  rw [groundable, grounded, Bool.not_true, Bool.and_false]

theorem addNotes_quiet {past a b : List Char} (quiet : ∀ c ∈ a, endsPhrase c = false)
    (here : a ≠ [] → noteAt chars second past (a ++ b) = []) :
    addNotes (noteAt chars second) past (a ++ b) =
      a ++ addNotes (noteAt chars second) (a.reverse ++ past) b := by
  apply addNotes_append
  intro a₁ a₂ split ne
  cases turned : a₁.reverse with
  | nil =>
    have empty : a₁ = [] := reverse_eq_nil_iff.1 turned
    rw [empty, nil_append] at split
    rw [nil_append, ← split]
    exact here (split ▸ ne)
  | cons c back =>
    apply noteAt_quiet
    apply quiet
    rw [split]
    apply mem_append_left
    rw [← mem_reverse, turned]
    exact mem_cons_self

variable (chars second) in
theorem addNotes_dateNote {date : NaiveDate} (four : FourDigits date) (past b : List Char) :
    addNotes (noteAt chars second) past (dateNote date ++ b) =
        dateNote date ++ addNotes (noteAt chars second) ((dateNote date).reverse ++ past) b ∧
      noteAt chars second ((dateNote date).reverse ++ past) b = [] := by
  have annotated := annotated_dateNote chars four b
  have whole : dateNote date = [' '] ++ (('(' :: date.format) ++ [')']) := by simp [dateNote]
  constructor
  · apply addNotes_quiet
    · intro c mem
      rw [whole] at mem
      exact annotated.quiet c mem
    · intro _
      apply noteAt_annotated
      have grounded := annotated.alreadyGrounded b
      rw [← append_assoc, ← whole] at grounded
      exact grounded
  · rw [whole, reverse_append, reverse_append]
    exact noteAt_quiet chars (by decide)

/-- What is not grounded at a place is not grounded there in the second pass. -/
theorem groundable_kept {day : RelativeDay} {c : Char} {past past' rest : List Char}
    (runs : past.takeWhile chars.isWord = past'.takeWhile chars.isWord)
    (none : groundable chars day past (c :: rest) = false) :
    groundable chars day past' (c :: addNotes (noteAt chars first) (c :: past) rest) = false := by
  by_contra here
  rw [Bool.not_eq_false] at here
  obtain ⟨ends, straight, bare⟩ := (groundable_iff _ _ _ _).1 here
  have grounded : alreadyGrounded chars (c :: rest) := by
    by_contra bare'
    rw [Bool.not_eq_true] at bare'
    have here' := (groundable_iff chars day past (c :: rest)).2
      ⟨(endsAt_congr runs rfl).trans ends, straight, bare'⟩
    rw [none] at here'
    cases here'
  obtain ⟨spaces, read, tail, annotated⟩ := annotated_of_alreadyGrounded grounded
  have quiet := annotated.quiet
  have split := annotated.split
  rw [← append_assoc] at split
  cases front : spaces ++ read with
  | nil =>
    have empty := (append_eq_nil_iff.1 front).2
    have date := annotated.date
    rw [empty] at date
    cases date
  | cons x others =>
    rw [front, cons_append] at split
    obtain ⟨head, tail_eq⟩ := cons.inj split
    rw [front] at quiet
    have passed : addNotes (noteAt chars first) (c :: past) (others ++ tail) =
        others ++ addNotes (noteAt chars first) (others.reverse ++ c :: past) tail := addNotes_quiet
      (fun y mem => quiet y (mem_cons_of_mem x mem)) fun _ =>
        noteAt_quiet chars (by rw [head]; exact quiet x mem_cons_self)
    have kept := annotated.alreadyGrounded
      (addNotes (noteAt chars first) (others.reverse ++ c :: past) tail)
    rw [← append_assoc, front, cons_append, ← head, ← passed, ← tail_eq, bare] at kept
    cases kept

/-- Every note that is written has a year of four digits. -/
def NotesRead (chars : UnicodeClasses) (dateOf : RelativeDay → NaiveDate)
    (past rest : List Char) : Prop :=
  ∀ day a b, rest = a ++ b → groundable chars day (a.reverse ++ past) b = true →
    FourDigits (dateOf day)

theorem NotesRead.tail {c : Char} {past rest : List Char}
    (reads : NotesRead chars first past (c :: rest)) : NotesRead chars first (c :: past) rest := by
  intro day a b split here
  apply reads day (c :: a) b (by rw [split, cons_append])
  rw [reverse_cons, append_assoc]
  exact here

theorem addNotes_twice {past past' rest : List Char}
    (runs : past.takeWhile chars.isWord = past'.takeWhile chars.isWord)
    (reads : NotesRead chars first past rest) :
    addNotes (noteAt chars second) past' (addNotes (noteAt chars first) past rest) =
      addNotes (noteAt chars first) past rest := by
  induction rest generalizing past past' with
  | nil =>
    by_cases here : ∃ day, groundable chars day past []
    · obtain ⟨day, here⟩ := here
      have behind := addNotes_dateNote chars second (reads day [] [] rfl here) past' []
      rw [append_nil] at behind
      rw [addNotes, noteAt_of_groundable chars here, behind.1, addNotes, behind.2, append_nil]
    · have none : ∀ day, groundable chars day past [] = false := fun day =>
        Bool.eq_false_iff.2 fun is => here ⟨day, is⟩
      have none' : ∀ day, groundable chars day past' [] = false := fun day => by
        rw [← none day, groundable, groundable, endsAt_congr runs rfl]
      rw [addNotes, (noteAt_eq_nil_iff chars).2 none, addNotes, (noteAt_eq_nil_iff chars).2 none']
  | cons c rest ih =>
    by_cases here : ∃ day, groundable chars day past (c :: rest)
    · obtain ⟨day, here⟩ := here
      have behind := addNotes_dateNote chars second (reads day [] (c :: rest) rfl here) past'
        (c :: addNotes (noteAt chars first) (c :: past) rest)
      have closes : chars.isWord c = false :=
        ((endsAt_iff chars day past (c :: rest)).1 ((groundable_iff _ _ _ _).1 here).1).2
      rw [addNotes, noteAt_of_groundable chars here, behind.1, addNotes, behind.2, nil_append,
        ih _ reads.tail]
      rw [takeWhile_cons_of_neg (by rw [closes]; decide),
        takeWhile_cons_of_neg (by rw [closes]; decide)]
    · have none : ∀ day, groundable chars day past (c :: rest) = false := fun day =>
        Bool.eq_false_iff.2 fun is => here ⟨day, is⟩
      rw [addNotes, (noteAt_eq_nil_iff chars).2 none, nil_append, addNotes,
        (noteAt_eq_nil_iff chars).2 fun day => groundable_kept runs (none day), nil_append,
        ih _ reads.tail]
      rw [takeWhile_cons, takeWhile_cons, runs]

variable (chars first) in
theorem addNotes_split (a b : List Char) {past past' : List Char}
    (runs : past.takeWhile chars.isWord = past'.takeWhile chars.isWord) :
    ∃ front, addNotes (noteAt chars first) past (a ++ b) =
        front ++ addNotes (noteAt chars first) (a.reverse ++ past) b ∧
      (a.reverse ++ past).takeWhile chars.isWord =
        (front.reverse ++ past').takeWhile chars.isWord := by
  induction a generalizing past past' with
  | nil => exact ⟨[], rfl, runs⟩
  | cons c a ih =>
    have step : (c :: past).takeWhile chars.isWord =
        (c :: ((noteAt chars first past (c :: (a ++ b))).reverse ++ past')).takeWhile
          chars.isWord := by
      by_cases here : ∃ day, groundable chars day past (c :: (a ++ b))
      · obtain ⟨day, here⟩ := here
        have closes : chars.isWord c = false :=
          ((endsAt_iff chars day past _).1 ((groundable_iff _ _ _ _).1 here).1).2
        rw [takeWhile_cons_of_neg (by rw [closes]; decide),
          takeWhile_cons_of_neg (by rw [closes]; decide)]
      · have none : ∀ day, groundable chars day past (c :: (a ++ b)) = false := fun day =>
          Bool.eq_false_iff.2 fun is => here ⟨day, is⟩
        rw [(noteAt_eq_nil_iff chars).2 none, reverse_nil, nil_append,
          takeWhile_cons, takeWhile_cons, runs]
    obtain ⟨front, text, runs'⟩ := ih step
    refine ⟨noteAt chars first past (c :: (a ++ b)) ++ c :: front, ?_, ?_⟩
    · rw [cons_append, addNotes, text, reverse_cons, append_assoc, append_assoc,
        cons_append]
      rfl
    · rw [reverse_cons, append_assoc, reverse_append, reverse_cons,
        append_assoc, append_assoc]
      exact runs'

theorem notesRead_of_twice {content : List Char}
    (same : addNotes (noteAt chars second) [] (addNotes (noteAt chars first) [] content) =
      addNotes (noteAt chars first) [] content) : NotesRead chars first [] content := by
  intro day a b split here
  by_contra other
  obtain ⟨front, text, runs⟩ := addNotes_split chars first a b
    (show ([] : List Char).takeWhile chars.isWord = [].takeWhile chars.isWord from rfl)
  have note : ∃ tail, addNotes (noteAt chars first) (a.reverse ++ []) b =
      dateNote (first day) ++ tail := by
    cases b with
    | nil => exact ⟨[], by rw [addNotes, noteAt_of_groundable chars here, append_nil]⟩
    | cons c b => exact ⟨_, by rw [addNotes, noteAt_of_groundable chars here]⟩
  obtain ⟨tail, note⟩ := note
  rw [← split, note] at text
  have none := no_note_of_addNotes_eq same text
  rw [noteAt_eq_nil_iff] at none
  have opens : Cursor.headIs chars.isWord (dateNote (first day) ++ tail) = false := by
    change chars.isWord ' ' = false
    rw [chars.word_ascii _ (by decide)]
    decide
  obtain ⟨ends, -, -⟩ := (groundable_iff _ _ _ _).1 here
  have closes := ((endsAt_iff _ _ _ _).1 ends).2
  have again := (groundable_iff chars day (front.reverse ++ [])
    (dateNote (first day) ++ tail)).2
    ⟨(endsAt_congr runs (closes.trans opens.symm)).symm.trans ends, rfl,
      not_alreadyGrounded_dateNote other tail⟩
  rw [none day] at again
  cases again

end Second

/-! ## The rewriter -/

def RelativeDay.date (observationDate : DateTime) : RelativeDay → Option NaiveDate
  | .yesterday => observationDate.date.addDays (-1)
  | .today => some observationDate.date
  | .tomorrow => observationDate.date.addDays 1

section Rewriter

variable (chars : UnicodeClasses)

/-- An occurrence that is neither possessive nor annotated ends at the place. -/
def GroundedAt (content : List Char) (day : RelativeDay) (pos : Nat) : Prop :=
  ∃ m ∈ findIter (day.re chars) content, m.stop = pos ∧ guardsPass chars content m = true

def OnlyAdds (content : List Char) (observationDate : DateTime) (result : List Char) : Prop :=
  ∃ added : Nat → List Char, result = weave added 0 content ∧
    unweave added 0 content.length result = content ∧
    ∀ pos note, note ≠ [] → (added pos = note ↔ ∃ day date,
      day.date observationDate = some date ∧ GroundedAt chars content day pos ∧
        note = dateNote date)

def GroundsOnce (content : List Char) (first second : DateTime) : Prop :=
  ∃ result, groundRelativeDates chars content first = some result ∧
    groundRelativeDates chars result second = some result ∧
    OnlyAdds chars content first result

variable {chars} {content : List Char} {observationDate : DateTime} {before after : NaiveDate}

variable (chars) in
theorem groundedAt_iff (day : RelativeDay) {a b : List Char} (split : content = a ++ b) :
    GroundedAt chars content day a.length ↔ groundable chars day a.reverse b := by
  have behind : content.drop a.length = b := by rw [split, drop_left]
  rw [groundable_iff, endsAt_iff_stands, ← split]
  constructor
  · rintro ⟨m, mem, stop, passes⟩
    obtain ⟨a₀, read, b₀, stands, -, stop'⟩ := (mem_findIter_re chars day content m).1 mem
    have parts := append_inj ((split.symm.trans stands.split).trans
      (append_assoc _ _ _).symm) (by rw [length_append]; omega)
    rw [guardsPass, stop, behind] at passes
    simp only [Bool.and_eq_true, Bool.not_eq_true'] at passes
    exact ⟨⟨a₀, read, parts.1, parts.2 ▸ stands⟩, passes⟩
  · rintro ⟨⟨a₀, read, split', stands⟩, straight, bare⟩
    have stop : a₀.length + read.length = a.length := by rw [split', length_append]
    refine ⟨⟨a₀.length, a.length, ()⟩, ?_, rfl, ?_⟩
    · exact (mem_findIter_re chars day content _).2 ⟨a₀, read, b, stands, rfl, stop.symm⟩
    · simp only [guardsPass, behind, straight, bare]
      decide

theorem GroundedAt.le {day : RelativeDay} {pos : Nat} (here : GroundedAt chars content day pos) :
    pos ≤ content.length := by
  obtain ⟨m, mem, stop, -⟩ := here
  obtain ⟨a, read, b, stands, -, stop'⟩ := (mem_findIter_re chars day content m).1 mem
  have count := congrArg length stands.split
  simp only [length_append] at count
  omega

theorem date_eq_dayDates (earlier : observationDate.date.addDays (-1) = some before)
    (later : observationDate.date.addDays 1 = some after) (day : RelativeDay) :
    day.date observationDate = some (dayDates before observationDate.date after day) := by
  cases day with
  | yesterday => exact earlier
  | today => rfl
  | tomorrow => exact later

theorem onlyAdds (earlier : observationDate.date.addDays (-1) = some before)
    (later : observationDate.date.addDays 1 = some after) : OnlyAdds chars content observationDate
      (addNotes (noteAt chars (dayDates before observationDate.date after)) [] content) := by
  have woven := groundRelativeDates_weave chars content earlier later
  rw [groundRelativeDates_eq earlier later, Option.some_inj] at woven
  refine ⟨_, woven, ?_, ?_⟩
  · rw [woven, unweave_weave]
  · intro pos note ne
    by_cases within : pos ≤ content.length
    · have split : content = content.take pos ++ content.drop pos :=
        (take_append_drop _ _).symm
      have place : (content.take pos).length = pos := by
        rw [length_take]
        omega
      have here := notedAt_eq_noteAt chars (dayDates before observationDate.date after) split
      have grounded (day : RelativeDay) := groundedAt_iff chars day split
      rw [place] at here grounded
      rw [here]
      constructor
      · intro same
        have some : ∃ day, groundable chars day (content.take pos).reverse (content.drop pos) =
            true := by
          by_contra none
          apply ne
          rw [← same]
          apply (noteAt_eq_nil_iff chars).2
          intro day
          exact Bool.eq_false_iff.2 fun is => none ⟨day, is⟩
        obtain ⟨day, is⟩ := some
        refine ⟨day, _, date_eq_dayDates earlier later day, (grounded day).2 is, ?_⟩
        rw [← same, noteAt_of_groundable chars is]
      · rintro ⟨day, date, dated, ends, same⟩
        rw [date_eq_dayDates earlier later day, Option.some_inj] at dated
        rw [noteAt_of_groundable chars ((grounded day).1 ends), same, dated]
    · constructor
      · intro same
        apply absurd _ ne
        rw [← same]
        apply notedAt_eq_nil
        intro n mem
        have inside := (allNotes_within (mem_inOrder.1 mem)).2
        omega
      · rintro ⟨day, date, _, ends, _⟩
        exact absurd ends.le within

theorem notesRead_iff : NotesRead chars (dayDates before observationDate.date after) [] content ↔
    ∀ day pos, GroundedAt chars content day pos →
      FourDigits (dayDates before observationDate.date after day) := by
  constructor
  · intro reads day pos here
    have split : content = content.take pos ++ content.drop pos := (take_append_drop _ _).symm
    have place : (content.take pos).length = pos := by
      have := here.le
      rw [length_take]
      omega
    rw [← place] at here
    apply reads day _ _ split
    rw [append_nil]
    exact (groundedAt_iff chars _ split).1 here
  · intro four day a b split here
    rw [append_nil] at here
    exact four day a.length ((groundedAt_iff chars _ split).2 here)

theorem four_iff (date : NaiveDate) :
    FourDigits date ↔ dayNumber 0 1 1 ≤ date.dayNum ∧ date.dayNum < dayNumber 10000 1 1 := by
  have lower := date.le_year_iff 0
  have upper := date.le_year_iff 10000
  unfold FourDigits
  omega

theorem addDays_of_four {date : NaiveDate} (four : FourDigits date) {days : Int}
    (small : -1 ≤ days ∧ days ≤ 1) : ∃ date', date.addDays days = some date' := by
  have bounds := (four_iff date).1 four
  have first : NaiveDate.firstDay < dayNumber 0 1 1 := by decide
  have last : dayNumber 10000 1 1 < NaiveDate.lastDay := by decide
  rw [← Option.isSome_iff_exists]
  apply (NaiveDate.ofDays_isSome_iff _).2
  omega

theorem four_before_iff {date : NaiveDate} (four : FourDigits date)
    (earlier : date.addDays (-1) = some before) : FourDigits before ↔ ¬date.Is 0 1 1 := by
  have number := NaiveDate.dayNum_of_addDays earlier
  have bounds := (four_iff date).1 four
  rw [four_iff, date.is_iff (by decide)]
  omega

theorem four_after_iff {date : NaiveDate} (four : FourDigits date)
    (later : date.addDays 1 = some after) : FourDigits after ↔ ¬date.Is 9999 12 31 := by
  have number := NaiveDate.dayNum_of_addDays later
  have bounds := (four_iff date).1 four
  have year : dayNumber 10000 1 1 = dayNumber 9999 12 31 + 1 := dayNumber_year_succ 9999
  rw [four_iff, date.is_iff (by decide)]
  omega

/-- Grounding only adds the dates of the occurrences, and a second pass leaves
the result alone, exactly when no phrase names a day outside the years of four digits. -/
theorem grounding_idempotent_iff (chars : UnicodeClasses) (content : List Char)
    {first second : DateTime} (firstFour : FourDigits first.date)
    (secondFour : FourDigits second.date) : GroundsOnce chars content first second ↔
      (first.date.Is 0 1 1 → ∀ pos, ¬GroundedAt chars content .yesterday pos) ∧
        (first.date.Is 9999 12 31 → ∀ pos, ¬GroundedAt chars content .tomorrow pos) := by
  obtain ⟨before, earlier⟩ := addDays_of_four firstFour (show -1 ≤ -1 ∧ -1 ≤ 1 by omega)
  obtain ⟨after, later⟩ := addDays_of_four firstFour (show -1 ≤ 1 ∧ 1 ≤ 1 by omega)
  obtain ⟨before', earlier'⟩ := addDays_of_four secondFour (show -1 ≤ -1 ∧ -1 ≤ 1 by omega)
  obtain ⟨after', later'⟩ := addDays_of_four secondFour (show -1 ≤ 1 ∧ 1 ≤ 1 by omega)
  have once : GroundsOnce chars content first second ↔
      NotesRead chars (dayDates before first.date after) [] content := by
    constructor
    · rintro ⟨result, written, again, _⟩
      rw [groundRelativeDates_eq earlier later, Option.some_inj] at written
      rw [groundRelativeDates_eq earlier' later', Option.some_inj, ← written] at again
      exact notesRead_of_twice again
    · intro reads
      refine ⟨_, groundRelativeDates_eq earlier later, ?_, onlyAdds earlier later⟩
      rw [groundRelativeDates_eq earlier' later', addNotes_twice rfl reads]
  rw [once, notesRead_iff]
  have yesterday := four_before_iff firstFour earlier
  have tomorrow := four_after_iff firstFour later
  constructor
  · intro four
    constructor
    · intro is pos here
      exact yesterday.1 (four .yesterday pos here) is
    · intro is pos here
      exact tomorrow.1 (four .tomorrow pos here) is
  · rintro ⟨first, last⟩ day pos here
    cases day with
    | yesterday => exact yesterday.2 fun is => first is pos here
    | today => exact firstFour
    | tomorrow => exact tomorrow.2 fun is => last is pos here

end Rewriter

def lastFour : DateTime := midnight 9999 12 31 (by decide) (by decide) (by decide)

theorem grounding_idempotent_iff_may : FourDigits mayDay.date ∧ FourDigits lastFour.date ∧
      GroundsOnce asciiClasses "met her yesterday".toList mayDay lastFour := by
  refine ⟨by decide, by decide, ?_⟩
  apply (grounding_idempotent_iff asciiClasses _ (by decide) (by decide)).2
  exact ⟨fun is => absurd is (by decide), fun is => absurd is (by decide)⟩

/-- The day behind the last one of four digits is written with a sign and five,
so that the next pass writes its own date in front of it. -/
theorem tomorrow_grounded_twice :
    ¬ ∀ content first second, FourDigits first.date → FourDigits second.date →
      GroundsOnce asciiClasses content first second := by
  intro all
  obtain ⟨result, written, again, _⟩ :=
    all "tomorrow".toList lastFour mayDay (by decide) (by decide)
  have earlier : lastFour.date.addDays (-1) =
      some ⟨9999, 12, 30, by decide, by decide, by decide⟩ :=
    (NaiveDate.ofDays_eq_some_iff _ _).2 (by decide)
  have later : lastFour.date.addDays 1 = some ⟨10000, 1, 1, by decide, by decide, by decide⟩ :=
    (NaiveDate.ofDays_eq_some_iff _ _).2 (by decide)
  have earlier' : mayDay.date.addDays (-1) = some ⟨2026, 4, 30, by decide, by decide, by decide⟩ :=
    (NaiveDate.ofDays_eq_some_iff _ _).2 (by decide)
  have later' : mayDay.date.addDays 1 = some ⟨2026, 5, 2, by decide, by decide, by decide⟩ :=
    (NaiveDate.ofDays_eq_some_iff _ _).2 (by decide)
  have once : result = "tomorrow (+10000-01-01)".toList := by
    rw [groundRelativeDates_eq earlier later, Option.some_inj] at written
    rw [← written]
    decide
  rw [once, groundRelativeDates_eq earlier' later', Option.some_inj] at again
  exact absurd again (by decide)

end Wenlan.Temporal
