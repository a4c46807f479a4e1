import Wenlan.Temporal.CueSafety
/-!
# Extracting the cue of a query

The cue a query names, and the instants for which `extract_cue` returns a range
that starts no later than it ends.
-/

namespace Wenlan.Temporal

open Support.TextScan Support.Calendar Support.IntegerText Support.Fallible

/-- What the first pattern that matches names. -/
inductive Cue
  | yesterday
  | today
  | tomorrow
  | week (this : Bool)
  | month (this : Bool)
  | year (this : Bool)
  | weekday (target : Int)
  | ago (days : Int)
  | quarter
  | since (year : Int)
  | before (year : Int)

/-- The year in a text; one that cannot be read is 2000. -/
def yearNamed (digits : List Char) : Int :=
  (parseI32 digits).getD 2000

/-- The days in a text; a number that cannot be read is 1. -/
def daysNamed (n unit : List Char) : Int :=
  let n := (parseI64 n).getD 1
  let unit := toAsciiLowercase unit
  if unit = ['w', 'e', 'e', 'k'] then n * 7
  else if unit = ['m', 'o', 'n', 't', 'h'] then n * 30
  else n

def periodNamed (which unit : List Char) : Cue :=
  let this := isThis (toLowercase which)
  let unit := toLowercase unit
  if unit = ['w', 'e', 'e', 'k'] then .week this
  else if unit = ['m', 'o', 'n', 't', 'h'] then .month this
  else .year this

def cueOf (chars : UnicodeClasses) (query : List Char) : Option Cue :=
  if isMatch (RE_YESTERDAY chars) query then some .yesterday
  else if isMatch (RE_TODAY chars) query then some .today
  else if isMatch (RE_TOMORROW chars) query then some .tomorrow
  else match captures (RE_LAST_PERIOD chars) query with
  | some (which, unit) => some (periodNamed which unit)
  | none =>
    match (captures (RE_LAST_WEEKDAY chars) query).bind weekdayFromStr with
    | some target => some (.weekday target)
    | none =>
      match captures (RE_N_AGO chars) query with
      | some (n, unit) => some (.ago (daysNamed n unit))
      | none =>
        match captures (RE_QUARTER chars) query with
        | some _ => some .quarter
        | none =>
          match captures (RE_SINCE chars) query with
          | some year => some (.since (yearNamed year))
          | none => (captures (RE_BEFORE chars) query).map fun year => .before (yearNamed year)

/-- The instants at which a cue stays in the calendar and does not end before it starts. -/
def Cue.Fits (now : DateTime) : Cue → Prop
  | .yesterday => now.date.dayNum ≠ NaiveDate.firstDay
  | .today => True
  | .tomorrow => now.date.dayNum ≠ NaiveDate.lastDay
  | .week this => WeekFits now.date this
  | .month this => MonthFits now.date this
  | .year this => now.date.year ≠ MAX_YEAR ∧ (this = false → now.date.year ≠ MIN_YEAR)
  | .weekday target => NaiveDate.firstDay ≤ now.date.dayNum - daysBack now.date target
  | .ago days => NaiveDate.firstDay ≤ now.date.dayNum - days - 1 ∧
      now.date.dayNum - days + 1 ≤ NaiveDate.lastDay
  | .quarter => True
  | .since first => dayNumber first 1 1 * 86400 ≤ now.timestamp
  | .before next => 1971 ≤ next

/-- A range is returned, or no cue was found, and the range does not end before it starts. -/
def WellFormed (result : Except Fault (Option ExtractedCue)) : Prop :=
  Yields (fun cue => ∀ c, cue = some c → c.range.Ordered) result

theorem wellFormed_some {range : DateRange} {confidence : CueConfidence} :
    WellFormed (pure (some ⟨range, confidence⟩)) ↔ range.Ordered := by
  rw [WellFormed, yields_pure]
  constructor
  · intro all
    exact all _ rfl
  · intro ordered c same
    cases same
    exact ordered

theorem wellFormed_bind {α : Type} {first : Except Fault α}
    {rest : α → Except Fault (Option ExtractedCue)} :
    WellFormed (first >>= rest) ↔ Yields (fun a => WellFormed (rest a)) first :=
  yields_bind

/-! ## Days -/

section Days

variable (now : DateTime)

theorem day_wellFormed_iff {days : Int} {d : NaiveDate} : WellFormed (do
      let day ← orPanic (d.addDays days)
      pure (some ⟨fullDayRange day, .high⟩)) ↔
      NaiveDate.firstDay ≤ d.dayNum + days ∧ d.dayNum + days ≤ NaiveDate.lastDay := by
  rw [wellFormed_bind, yields_addDays]
  constructor
  · rintro ⟨e, number, _⟩
    rw [← number]
    exact ⟨e.firstDay_le, e.le_lastDay⟩
  · rintro ⟨lower, upper⟩
    obtain ⟨e, number⟩ := exists_dayNum _ lower upper
    exact ⟨e, number, wellFormed_some.2 (daysRange_ordered.2 (Int.le_refl _))⟩

theorem weekdayFromStr_range {s : List Char} {target : Int}
    (named : weekdayFromStr s = some target) :
    0 ≤ target ∧ target ≤ 6 := by
  simp only [weekdayFromStr] at named
  split_ifs at named <;> cases named <;> omega

theorem weekday_wellFormed_iff {target : Int} (range : 0 ≤ target ∧ target ≤ 6) : WellFormed (do
      let range ← lastWeekdayRange now.date target
      pure (some ⟨range, .high⟩)) ↔ (Cue.weekday target).Fits now := by
  have upper := now.date.le_lastDay
  have back : 0 ≤ daysBack now.date target := by
    have inWeek : 0 ≤ now.date.numDaysFromMonday ∧ now.date.numDaysFromMonday ≤ 6 := by
      unfold NaiveDate.numDaysFromMonday
      omega
    unfold daysBack
    split_ifs <;> omega
  rw [wellFormed_bind]
  simp only [lastWeekdayRange, yields_bind, yields_addDays, yields_pure, wellFormed_some,
    fullDayRange, daysRange_ordered, Cue.Fits]
  constructor
  · rintro ⟨e, number, _⟩
    have lower := e.firstDay_le
    omega
  · intro lower
    obtain ⟨e, number⟩ := exists_dayNum
      (now.date.dayNum + -daysBack now.date target) (by omega) (by omega)
    exact ⟨e, number, Int.le_refl _⟩

theorem yields_addDays_instant {P : DateTime → Prop} {instant : DateTime} {days : Int} :
    Yields P (orPanic (instant.addDays days)) ↔
      ∃ e : NaiveDate, e.dayNum = instant.date.dayNum + days ∧
        P ⟨e, instant.second, instant.inDay⟩ := by
  have same : orPanic (instant.addDays days) =
      orPanic (instant.date.addDays days) >>= fun e =>
        .ok ⟨e, instant.second, instant.inDay⟩ := by
    rw [DateTime.addDays]
    cases instant.date.addDays days <;> rfl
  rw [same, yields_bind, yields_addDays]
  simp only [yields_ok]

theorem ago_wellFormed_iff (n unit : List Char) :
    WellFormed (agoCue now n unit) ↔ (Cue.ago (daysNamed n unit)).Fits now := by
  have lower := now.date.firstDay_le
  have upper := now.date.le_lastDay
  have first := firstDay_ge
  have last := lastDay_le
  -- a count that overflows is far outside the calendar
  have days : ∀ m : Int, WellFormed (do
      let days ← durationDays m
      let point ← orPanic (now.addDays (-days))
      let start ← orPanic (point.addDays (-1))
      let stop ← orPanic (point.addDays 1)
      pure (some ⟨⟨start.timestamp, stop.timestamp⟩, .high⟩)) ↔ (Cue.ago m).Fits now := by
    intro m
    simp only [wellFormed_bind, durationDays, yields_ite, yields_ok, yields_error,
      yields_addDays_instant, wellFormed_some, DateRange.Ordered, DateTime.timestamp, Cue.Fits]
    constructor
    · intro holds
      by_cases fits : -MAX_SECONDS ≤ m * 86400 ∧ m * 86400 ≤ MAX_SECONDS
      · rw [if_pos fits] at holds
        obtain ⟨_, number, start, number', stop, number'', _⟩ := holds
        have bottom := start.firstDay_le
        have top := stop.le_lastDay
        omega
      · rw [if_neg fits] at holds
        cases holds
    · rintro ⟨bottom, top⟩
      have fits : -MAX_SECONDS ≤ m * 86400 ∧ m * 86400 ≤ MAX_SECONDS := by
        unfold MAX_SECONDS
        omega
      rw [if_pos fits]
      obtain ⟨point, number⟩ := exists_dayNum (now.date.dayNum + -m) (by omega) (by omega)
      obtain ⟨start, number'⟩ := exists_dayNum (point.dayNum + -1) (by omega) (by omega)
      obtain ⟨stop, number''⟩ := exists_dayNum (point.dayNum + 1) (by omega) (by omega)
      refine ⟨point, number, start, number', stop, number'', ?_⟩
      omega
  have checked (m : Int) : WellFormed (do
      let days ← checkedI64 m
      let days ← durationDays days
      let point ← orPanic (now.addDays (-days))
      let start ← orPanic (point.addDays (-1))
      let stop ← orPanic (point.addDays 1)
      pure (some ⟨⟨start.timestamp, stop.timestamp⟩, .high⟩)) ↔ (Cue.ago m).Fits now := by
    rw [wellFormed_bind, yields_checkedI64, days]
    apply and_iff_right_of_imp
    rintro ⟨bottom, top⟩
    unfold InI64
    omega
  unfold agoCue daysNamed
  by_cases day : toAsciiLowercase unit = ['d', 'a', 'y']
  · have week : toAsciiLowercase unit ≠ ['w', 'e', 'e', 'k'] := by rw [day]; decide
    have month : toAsciiLowercase unit ≠ ['m', 'o', 'n', 't', 'h'] := by rw [day]; decide
    simp only [if_pos day, if_neg week, if_neg month]
    exact days _
  · by_cases week : toAsciiLowercase unit = ['w', 'e', 'e', 'k']
    · simp only [if_neg day, if_pos week]
      exact checked _
    · by_cases month : toAsciiLowercase unit = ['m', 'o', 'n', 't', 'h']
      · simp only [if_neg day, if_neg week, if_pos month]
        exact checked _
      · simp only [if_neg day, if_neg week, if_neg month]
        exact days _

end Days

/-! ## Years -/

section Years

variable (chars : UnicodeClasses)

/-- Four digits of the pattern: they are no sign, and a number they are read as is small. -/
theorem yearNamed_range {digits : List Char}
    (reads : List.Forall₂ (fun test x => test x) (List.replicate 4 chars.isDigit) digits) :
    0 ≤ yearNamed digits ∧ yearNamed digits ≤ 9999 := by
  unfold yearNamed parseI32
  cases reads with
  | @cons _ a _ _ ha reads =>
  cases reads with
  | @cons _ b _ _ hb reads =>
  cases reads with
  | @cons _ c _ _ hc reads =>
  cases reads with
  | @cons _ d _ _ hd reads =>
  cases reads
  have signs : a ≠ '-' ∧ a ≠ '+' := by
    constructor
    all_goals
      intro same
      rw [same, chars.digit_ascii _ (by decide)] at ha
      cases ha
  have unsigned : signedValue [a, b, c, d] =
      (digitsValue [a, b, c, d]).map fun n : ℕ => (n : Int) := by
    rw [signedValue]
    · intro digits same
      exact signs.1 (List.cons.inj same).1
    · intro digits same
      exact signs.2 (List.cons.inj same).1
  rw [unsigned, digitsValue]
  by_cases ascii : [a, b, c, d] ≠ [] ∧ ([a, b, c, d].all Char.isDigit)
  · rw [if_pos ascii]
    have small {x : Char} (digit : x.isDigit) : x.toNat - '0'.toNat ≤ 9 := by
      have range := Char.isDigit_iff_toNat.1 digit
      have zero : '0'.toNat = 48 := by decide
      have nine : '9'.toNat = 57 := by decide
      omega
    have all := List.all_eq_true.1 ascii.2
    have ha := small (all a (by simp))
    have hb := small (all b (by simp))
    have hc := small (all c (by simp))
    have hd := small (all d (by simp))
    simp only [Option.map_some, Nat.ofDigitChars, List.foldl_cons, List.foldl_nil]
    rw [Option.filter_some, if_pos (by
      rw [decide_eq_true_eq]
      omega), Option.getD_some]
    omega
  · rw [if_neg ascii]
    exact ⟨by decide, by decide⟩

theorem yearDigits_reads {c : Cursor} {digits : List Char} {after : Cursor}
    (reads : yearDigits chars c = some (digits, after)) :
    List.Forall₂ (fun test x => test x) (List.replicate 4 chars.isDigit) digits := by
  simp only [yearDigits, Option.bind_eq_bind, Option.bind_eq_some_iff] at reads
  obtain ⟨⟨year, c'⟩, found, c'', _, same⟩ := reads
  cases same
  exact ((shape_eq_some_iff _ _ _ _).1 found).2.2

theorem since_range {query year : List Char} (found : captures (RE_SINCE chars) query = some year) :
    0 ≤ yearNamed year ∧ yearNamed year ≤ 9999 := by
  obtain ⟨c, after, reads⟩ := reads_of_captures found
  simp only [RE_SINCE, Option.bind_eq_bind, Option.bind_eq_some_iff] at reads
  obtain ⟨_, _, _, _, _, _, digits⟩ := reads
  exact yearNamed_range chars (yearDigits_reads chars digits)

theorem before_range {query year : List Char}
    (found : captures (RE_BEFORE chars) query = some year) :
    0 ≤ yearNamed year ∧ yearNamed year ≤ 9999 := by
  obtain ⟨c, after, reads⟩ := reads_of_captures found
  simp only [RE_BEFORE, Option.bind_eq_bind, Option.bind_eq_some_iff] at reads
  obtain ⟨_, _, _, _, _, _, digits⟩ := reads
  exact yearNamed_range chars (yearDigits_reads chars digits)

theorem quarter_reads {query year : List Char} {q : Char}
    (found : captures (RE_QUARTER chars) query = some (q, year)) :
    quarterDigit q ∧ 0 ≤ yearNamed year ∧ yearNamed year ≤ 9999 := by
  obtain ⟨c, after, reads⟩ := reads_of_captures found
  simp only [RE_QUARTER, Option.bind_eq_bind, Option.bind_eq_some_iff] at reads
  obtain ⟨_, _, _, _, _, _, _, _, ⟨q', c'⟩, one, ⟨year', c''⟩, digits, same⟩ := reads
  cases same
  refine ⟨?_, yearNamed_range chars (yearDigits_reads chars digits)⟩
  rw [Cursor.one] at one
  split at one
  · cases one
  · split at one
    · next passes =>
      cases one
      exact passes
    · cases one

theorem since_wellFormed_iff (now : DateTime) {year : List Char}
    (range : 0 ≤ yearNamed year ∧ yearNamed year ≤ 9999) :
    WellFormed (sinceCue now year) ↔ (Cue.since (yearNamed year)).Fits now := by
  have lower : MIN_YEAR ≤ yearNamed year := Int.le_trans (by decide) range.1
  have upper : yearNamed year ≤ MAX_YEAR := Int.le_trans range.2 (by decide)
  change WellFormed (orPanic (NaiveDate.fromYmdOpt (yearNamed year) 1 1) >>= _) ↔ _
  rw [NaiveDate.fromYmdOpt_eq_some (validNewYear _) lower upper]
  change WellFormed (pure (some ⟨⟨dayAt _ 0 0 0, now.timestamp⟩, .high⟩)) ↔ _
  rw [wellFormed_some, DateRange.Ordered, dayAt, NaiveDate.dayNum, Cue.Fits]
  simp only
  omega

theorem before_wellFormed_iff (now : DateTime) {year : List Char}
    (range : 0 ≤ yearNamed year ∧ yearNamed year ≤ 9999) :
    WellFormed (beforeCue year) ↔ (Cue.before (yearNamed year)).Fits now := by
  have lower : MIN_YEAR ≤ yearNamed year - 1 := Int.le_trans (by decide) (Int.sub_le_sub_right range.1 1)
  have upper : yearNamed year - 1 ≤ MAX_YEAR :=
    Int.le_trans (Int.sub_le_sub_right range.2 1) (by decide)
  change WellFormed (checkedI32 (yearNamed year - 1) >>= _) ↔ _
  rw [wellFormed_bind, yields_checkedI32, NaiveDate.fromYmdOpt_eq_some (validLastDay _) lower upper]
  change _ ∧ WellFormed (pure (some ⟨⟨0, dayAt _ 23 59 59⟩, .high⟩)) ↔ _
  rw [and_iff_right (by omega), wellFormed_some, DateRange.Ordered, dayAt, NaiveDate.dayNum, Cue.Fits]
  have next : dayNumber (yearNamed year) 1 1 = dayNumber (yearNamed year - 1) 12 31 + 1 := by
    have step := dayNumber_year_succ (yearNamed year - 1)
    rw [Int.sub_add_cancel] at step
    exact step
  have epoch : dayNumber 1970 1 1 = 0 := by decide
  have second : dayNumber 1971 1 1 = 365 := by decide
  simp only
  constructor
  · intro order
    by_contra early
    have mono := dayNumber_newYear_mono (show yearNamed year ≤ 1970 by omega)
    omega
  · intro late
    have mono := dayNumber_newYear_mono late
    omega

theorem quarter_wellFormed {q : Char} {year : List Char} (digit : quarterDigit q)
    (range : 0 ≤ yearNamed year ∧ yearNamed year ≤ 9999) : WellFormed (quarterCue q year) := by
  have lower : MIN_YEAR ≤ yearNamed year := Int.le_trans (by decide) range.1
  have upper : yearNamed year < MAX_YEAR := Int.lt_of_le_of_lt range.2 (by decide)
  have months {start stop : ℕ} (pos : 1 ≤ start) (le : start ≤ stop) (twelve : stop ≤ 12) :
      Yields DateRange.Ordered (monthsRange (yearNamed year) start stop) := by
    apply (months_ordered_iff (by omega) pos le twelve).2
    exact ⟨lower, by omega, fun both => by omega⟩
  change WellFormed (quarterRange ((signedValue [q]).getD 1) (yearNamed year) >>= _)
  rw [wellFormed_bind]
  simp only [wellFormed_some]
  have value : (signedValue [q]).getD 1 = 1 ∨ (signedValue [q]).getD 1 = 2 ∨
      (signedValue [q]).getD 1 = 3 ∨ (signedValue [q]).getD 1 = 4 := by
    simp only [quarterDigit, Bool.or_eq_true, decide_eq_true_eq] at digit
    rcases digit with ((rfl | rfl) | rfl) | rfl
    · exact Or.inl (by decide)
    · exact Or.inr (Or.inl (by decide))
    · exact Or.inr (Or.inr (Or.inl (by decide)))
    · exact Or.inr (Or.inr (Or.inr (by decide)))
  unfold quarterRange
  rcases value with value | value | value | value
  all_goals
    rw [value]
    exact months (by omega) (by omega) (by omega)

end Years

/-! ## Periods -/

section Periods

/-- A letter that its capital and itself are the lowercase of; `s` is also written another way. -/
def Lowers (letter : Char) : Bool :=
  letter.toLower = letter && letter.toUpper.toLower = letter && letter ≠ 's' &&
    letter ≠ '\u212A' && letter.toUpper ≠ '\u212A'

theorem toLowercase_spelled {word read : List Char} (lowers : word.all Lowers)
    (spelled : List.Forall₂ (fun test x => test x) (word.map sameLetter) read) :
    toLowercase read = word := by
  induction word generalizing read with
  | nil =>
    cases spelled
    rfl
  | cons letter word ih =>
    cases spelled with
    | @cons _ x _ read first others =>
      rw [List.all_cons, Bool.and_eq_true] at lowers
      have tail := ih lowers.2 others
      have head : (if x = '\u212A' then 'k' else x.toLower) = letter := by
        have fields := lowers.1
        simp only [Lowers, Bool.and_eq_true, decide_eq_true_eq] at fields
        simp only [sameLetter, Bool.or_eq_true, Bool.and_eq_true, decide_eq_true_eq] at first
        obtain ⟨⟨⟨⟨small, capital⟩, notS⟩, kelvin⟩, kelvin'⟩ := fields
        rcases first with ((rfl | rfl) | ⟨s, _⟩) | ⟨k, rfl⟩
        · rw [if_neg kelvin, small]
        · rw [if_neg kelvin', capital]
        · exact absurd s notS
        · rw [if_pos rfl, k]
      rw [toLowercase, List.map_cons, head]
      exact congrArg (letter :: ·) tail

theorem oneOf_reads {words : List (List Char)} {c : Cursor} {read : List Char} {after : Cursor}
    (reads : oneOf words c = some (read, after)) :
    ∃ word ∈ words, List.Forall₂ (fun test x => test x) (word.map sameLetter) read := by
  obtain ⟨word, mem, found⟩ := List.exists_of_findSome?_eq_some reads
  exact ⟨word, mem, ((shape_eq_some_iff _ _ _ _).1 found).2.2⟩

theorem period_unit (chars : UnicodeClasses) {query which unit : List Char}
    (found : captures (RE_LAST_PERIOD chars) query = some (which, unit)) :
    toLowercase unit = ['w', 'e', 'e', 'k'] ∨ toLowercase unit = ['m', 'o', 'n', 't', 'h'] ∨
      toLowercase unit = ['y', 'e', 'a', 'r'] := by
  obtain ⟨c, after, reads⟩ := reads_of_captures found
  simp only [RE_LAST_PERIOD, Option.bind_eq_bind, Option.bind_eq_some_iff] at reads
  obtain ⟨_, _, _, _, _, _, ⟨unit', c'⟩, units, _, _, same⟩ := reads
  cases same
  obtain ⟨word, mem, spelled⟩ := oneOf_reads units
  simp only [List.mem_cons, List.not_mem_nil, or_false] at mem
  rcases mem with rfl | rfl | rfl
  · exact Or.inl (toLowercase_spelled (by decide) spelled)
  · exact Or.inr (Or.inl (toLowercase_spelled (by decide) spelled))
  · exact Or.inr (Or.inr (toLowercase_spelled (by decide) spelled))

theorem both_iff {range : Except Fault DateRange} {near : Except Fault Bool} :
    WellFormed (range >>= fun range => near >>= fun near => pure (range, near) >>= fun both =>
      pure (some ⟨both.1, if both.2 then .low else .high⟩)) ↔
      Yields DateRange.Ordered range ∧ Yields (fun _ => True) near := by
  simp only [wellFormed_bind, yields_pure, wellFormed_some]
  constructor
  · rintro ⟨r, found, b, found', ordered⟩
    exact ⟨⟨r, found, ordered⟩, b, found', trivial⟩
  · rintro ⟨⟨r, found, ordered⟩, b, found', _⟩
    exact ⟨r, found, b, found', ordered⟩

theorem period_wellFormed_iff (now : DateTime) {which unit : List Char}
    (named : toLowercase unit = ['w', 'e', 'e', 'k'] ∨ toLowercase unit = ['m', 'o', 'n', 't', 'h'] ∨
      toLowercase unit = ['y', 'e', 'a', 'r']) :
    WellFormed (periodCue now which unit) ↔ (periodNamed which unit).Fits now := by
  have month_ne : (['m', 'o', 'n', 't', 'h'] : List Char) ≠ ['w', 'e', 'e', 'k'] := by decide
  have year_ne : (['y', 'e', 'a', 'r'] : List Char) ≠ ['w', 'e', 'e', 'k'] := by decide
  have year_ne' : (['y', 'e', 'a', 'r'] : List Char) ≠ ['m', 'o', 'n', 't', 'h'] := by decide
  unfold periodCue periodNamed
  rcases named with named | named | named
  · simp only [named, if_true]
    rw [both_iff, week_ordered_iff, nearWeek_returns_iff, Cue.Fits]
    apply and_iff_left_of_imp
    unfold WeekFits
    split_ifs
    · intro fits
      exact fits.1
    · intro fits
      omega
  · simp only [named, if_neg month_ne, if_true]
    rw [both_iff, month_ordered_iff, nearMonth_returns_iff, Cue.Fits, MonthFits]
    by_cases this : isThis (toLowercase which)
    · rw [if_pos this, this]
      tauto
    · rw [if_neg this, Bool.eq_false_iff.2 this]
      tauto
  · simp only [named, if_neg year_ne, if_neg year_ne', if_true]
    rw [both_iff, year_ordered_iff, nearYear_returns_iff, Cue.Fits]
    exact and_comm

end Periods

/-- The cue of a query is extracted, with a range that does not end before it
starts, exactly when the cue fits the instant. -/
theorem extract_cue_iff (chars : UnicodeClasses) (query : List Char) (now : DateTime) :
    WellFormed (extractCue chars query now) ↔ ∀ cue, cueOf chars query = some cue → cue.Fits now := by
  have lower := now.date.firstDay_le
  have upper := now.date.le_lastDay
  have one {cue : Cue} : (∀ cue', some cue = some cue' → cue'.Fits now) ↔ cue.Fits now :=
    ⟨fun all => all cue rfl, fun fits cue' same => Option.some_inj.1 same ▸ fits⟩
  unfold extractCue cueOf
  by_cases yesterday : isMatch (RE_YESTERDAY chars) query = true
  · simp only [if_pos yesterday]
    rw [one, day_wellFormed_iff, Cue.Fits]
    omega
  by_cases today : isMatch (RE_TODAY chars) query = true
  · simp only [if_neg yesterday, if_pos today]
    rw [one, wellFormed_some]
    exact iff_of_true (daysRange_ordered.2 (Int.le_refl _)) trivial
  by_cases tomorrow : isMatch (RE_TOMORROW chars) query = true
  · simp only [if_neg yesterday, if_neg today, if_pos tomorrow]
    rw [one, day_wellFormed_iff, Cue.Fits]
    omega
  simp only [if_neg yesterday, if_neg today, if_neg tomorrow]
  cases period : captures (RE_LAST_PERIOD chars) query with
  | some groups =>
    simp only [one]
    exact period_wellFormed_iff now (period_unit chars period)
  | none =>
    cases weekday : (captures (RE_LAST_WEEKDAY chars) query).bind weekdayFromStr with
    | some target =>
      simp only [one]
      obtain ⟨name, _, named⟩ := Option.bind_eq_some_iff.1 weekday
      exact weekday_wellFormed_iff now (weekdayFromStr_range named)
    | none =>
      cases ago : captures (RE_N_AGO chars) query with
      | some groups =>
        simp only [one]
        exact ago_wellFormed_iff now _ _
      | none =>
        cases quarter : captures (RE_QUARTER chars) query with
        | some groups =>
          have reads := quarter_reads chars quarter
          simp only [one]
          exact iff_of_true (quarter_wellFormed reads.1 reads.2) trivial
        | none =>
          cases since : captures (RE_SINCE chars) query with
          | some year =>
            simp only [one]
            exact since_wellFormed_iff now (since_range chars since)
          | none =>
            cases before : captures (RE_BEFORE chars) query with
            | some year =>
              simp only [Option.map_some, one]
              exact before_wellFormed_iff now (before_range chars before)
            | none =>
              simp only [Option.map_none]
              constructor
              · intro _ cue same
                cases same
              · intro _
                rw [WellFormed, yields_pure]
                intro c same
                cases same

/-- The count is a number of 64 bits, and the library's durations hold no such number of days. -/
theorem count_outside_calendar : ¬ ∀ query now, WellFormed (extractCue asciiClasses query now) := by
  intro all
  obtain ⟨cue, returned, _⟩ := all "99999999999999999 days ago".toList mayDay
  have fault : extractCue asciiClasses "99999999999999999 days ago".toList mayDay =
      .error .panic := by
    rfl
  rw [fault] at returned
  cases returned

/-- A year ahead of the clock gives a range that ends before it starts. -/
example : extractCue asciiClasses "since 2030".toList mayDay =
    .ok (some ⟨⟨1893456000, 1777593600⟩, .high⟩) := by
  rfl

end Wenlan.Temporal
