import Wenlan.Support.Fallible
import Wenlan.Temporal.Cues
/-!
# When a cue can be extracted

For each kind of cue, the instants and numbers for which the calendar stays in
its range and the range starts no later than it ends.
-/

namespace Wenlan.Temporal

open Support.TextScan Support.Calendar Support.IntegerText Support.Fallible NaiveDate

variable {P : NaiveDate → Prop}

section Steps

theorem yields_addDays {d : NaiveDate} {days : Int} :
    Yields P (orPanic (d.addDays days)) ↔ ∃ e : NaiveDate, e.dayNum = d.dayNum + days ∧ P e := by
  cases sum : d.addDays days with
  | none =>
    constructor
    · intro yields
      cases yields_error.1 yields
    · rintro ⟨e, number, _⟩
      have found := (ofDays_eq_some_iff _ e).2 number
      rw [addDays, found] at sum
      cases sum
  | some e =>
    have number := dayNum_of_addDays sum
    rw [orPanic, yields_ok]
    constructor
    · intro holds
      exact ⟨e, number, holds⟩
    · rintro ⟨e', number', holds⟩
      rw [dayNum_injective (number.trans number'.symm)]
      exact holds

theorem yields_fromYmd {year : Int} {month day : Nat} (valid : ValidDate year month day) :
    Yields P (orPanic (fromYmdOpt year month day)) ↔
      ∃ e : NaiveDate, e.dayNum = dayNumber year month day ∧ P e := by
  by_cases range : MIN_YEAR ≤ year ∧ year ≤ MAX_YEAR
  · rw [fromYmdOpt_eq_some valid range.1 range.2, orPanic, yields_ok]
    constructor
    · intro holds
      exact ⟨⟨year, month, day, valid, range.1, range.2⟩, rfl, holds⟩
    · rintro ⟨e, number, holds⟩
      have same : e = ⟨year, month, day, valid, range.1, range.2⟩ :=
        dayNum_injective number
      rw [← same]
      exact holds
  · rw [fromYmdOpt_eq_none range, orPanic, yields_error]
    constructor
    · intro impossible
      cases impossible
    · rintro ⟨e, number, _⟩
      have is := (e.is_iff valid).2 number
      apply range
      rw [← is.1]
      exact ⟨e.lower, e.upper⟩

theorem yields_checkedI64 {P : Int → Prop} {n : Int} : Yields P (checkedI64 n) ↔ InI64 n ∧ P n := by
  unfold checkedI64
  by_cases fits : InI64 n
  · rw [if_pos fits, yields_ok]
    exact (and_iff_right fits).symm
  · rw [if_neg fits, yields_error]
    exact (iff_false_intro fun both => fits both.1).symm

theorem yields_checkedI32 {P : Int → Prop} {n : Int} :
    Yields P (checkedI32 n) ↔ (-2 ^ 31 ≤ n ∧ n < 2 ^ 31) ∧ P n := by
  unfold checkedI32
  by_cases fits : -2 ^ 31 ≤ n ∧ n < 2 ^ 31
  · rw [if_pos fits, yields_ok]
    exact (and_iff_right fits).symm
  · rw [if_neg fits, yields_error]
    exact (iff_false_intro fun both => fits both.1).symm

theorem exists_dayNum (days : Int) (lower : firstDay ≤ days)
    (upper : days ≤ lastDay) : ∃ e : NaiveDate, e.dayNum = days := by
  obtain ⟨e, found⟩ := Option.isSome_iff_exists.1
    ((ofDays_isSome_iff days).2 ⟨lower, upper⟩)
  exact ⟨e, (ofDays_eq_some_iff days e).1 found⟩

theorem firstDay_ge : -100000000 ≤ firstDay := by
  decide

theorem lastDay_le : lastDay ≤ 100000000 := by
  decide

theorem validFirst (year : Int) {month : Nat} (lower : 1 ≤ month) (upper : month ≤ 12) :
    ValidDate year month 1 := by
  have pos := daysInMonth_pos year month
  exact ⟨lower, upper, by omega, by omega⟩

end Steps

def DateRange.Ordered (range : DateRange) : Prop :=
  range.start ≤ range.stop

section Periods

theorem daysRange_ordered {first last : NaiveDate} :
    (daysRange first last).Ordered ↔ first.dayNum ≤ last.dayNum := by
  simp only [DateRange.Ordered, daysRange, dayAt]
  omega

theorem nearBoundary_returns {nowTs firstTs nextTs bound : Int}
    (now : -10000000000000 ≤ nowTs ∧ nowTs ≤ 10000000000000)
    (first : -10000000000000 ≤ firstTs ∧ firstTs ≤ 10000000000000)
    (next : -10000000000000 ≤ nextTs ∧ nextTs ≤ 10000000000000) :
    Yields (fun _ => True) (nearBoundary nowTs firstTs nextTs bound) := by
  have fits {n : Int} (lower : -20000000000000 ≤ n) (upper : n ≤ 20000000000000) : InI64 n := by
    unfold InI64
    omega
  simp only [nearBoundary, yields_bind, yields_checkedI64]
  have passed : InI64 |nowTs - firstTs| := by
    apply fits
    · have := abs_nonneg (nowTs - firstTs)
      omega
    · apply abs_le.2
      omega
  have left : InI64 |nextTs - nowTs| := by
    apply fits
    · have := abs_nonneg (nextTs - nowTs)
      omega
    · apply abs_le.2
      omega
  refine ⟨fits (by omega) (by omega), passed, ?_⟩
  by_cases close : |nowTs - firstTs| < bound
  · rw [if_pos close, yields_pure]
    trivial
  · rw [if_neg close]
    simp only [yields_bind, yields_checkedI64, yields_pure]
    exact ⟨fits (by omega) (by omega), left, trivial⟩

theorem dayAt_bounds (d : NaiveDate) :
    -10000000000000 ≤ dayAt d 0 0 0 ∧ dayAt d 0 0 0 ≤ 8640000000000 := by
  have lower := d.firstDay_le
  have upper := d.le_lastDay
  have first := firstDay_ge
  have last := lastDay_le
  unfold dayAt
  omega

theorem timestamp_bounds (now : DateTime) :
    -10000000000000 ≤ now.timestamp ∧ now.timestamp ≤ 10000000000000 := by
  have lower := now.date.firstDay_le
  have upper := now.date.le_lastDay
  have first := firstDay_ge
  have last := lastDay_le
  have second := now.inDay
  unfold DateTime.timestamp
  omega

def mondayOf (d : NaiveDate) : Int :=
  d.dayNum - d.numDaysFromMonday

theorem mondayOf_bounds (d : NaiveDate) : mondayOf d ≤ d.dayNum ∧ d.dayNum ≤ mondayOf d + 6 := by
  unfold mondayOf numDaysFromMonday
  omega

theorem yields_thisMonday {d : NaiveDate} :
    Yields P (thisMonday d) ↔ ∃ e : NaiveDate, e.dayNum = mondayOf d ∧ P e := by
  rw [thisMonday, yields_addDays]
  exact Iff.rfl

def WeekFits (d : NaiveDate) (this : Bool) : Prop :=
  if this then NaiveDate.firstDay ≤ mondayOf d ∧ mondayOf d + 6 ≤ NaiveDate.lastDay
  else NaiveDate.firstDay ≤ mondayOf d - 7

theorem week_ordered_iff (d : NaiveDate) (which : List Char) :
    Yields DateRange.Ordered (weekRangeStartingMonday d which) ↔ WeekFits d (isThis which) := by
  have monday := mondayOf_bounds d
  have upper := d.le_lastDay
  simp only [weekRangeStartingMonday, yields_bind, yields_thisMonday, yields_ite, WeekFits]
  by_cases this : isThis which
  · simp only [if_pos this, yields_pure, yields_addDays, daysRange_ordered]
    constructor
    · rintro ⟨start, number, stop, number', _⟩
      have lower := start.firstDay_le
      have inside := stop.le_lastDay
      omega
    · rintro ⟨first, last⟩
      obtain ⟨start, number⟩ := exists_dayNum _ first (by omega)
      obtain ⟨stop, number'⟩ := exists_dayNum (mondayOf d + 6) (by omega) last
      exact ⟨start, number, stop, by omega, by omega⟩
  · simp only [if_neg this, yields_pure, yields_addDays, daysRange_ordered]
    constructor
    · rintro ⟨_, number, start, number', _⟩
      have lower := start.firstDay_le
      omega
    · intro first
      obtain ⟨monday', number⟩ := exists_dayNum (mondayOf d) (by omega) (by omega)
      obtain ⟨start, number'⟩ := exists_dayNum _ first (by omega)
      obtain ⟨stop, number''⟩ := exists_dayNum (mondayOf d - 1) (by omega) (by omega)
      exact ⟨monday', number, start, by omega, stop, by omega, by omega⟩

theorem nearWeek_returns_iff (now : DateTime) :
    Yields (fun _ => True) (nearWeekBoundary now) ↔ firstDay ≤ mondayOf now.date := by
  have monday := mondayOf_bounds now.date
  have upper := now.date.le_lastDay
  simp only [nearWeekBoundary, yields_bind, yields_thisMonday, yields_checkedI64]
  constructor
  · rintro ⟨start, number, _⟩
    have lower := start.firstDay_le
    omega
  · intro first
    obtain ⟨start, number⟩ := exists_dayNum _ first (by omega)
    have bounds := dayAt_bounds start
    refine ⟨start, number, ?_, ?_⟩
    · unfold InI64
      omega
    · exact nearBoundary_returns (timestamp_bounds now) (by omega) (by omega)

/-! ### Months and years -/

theorem yields_nextMonthFirst {year : Int} {month : Nat}
    (pos : 1 ≤ month) (le : month ≤ 12) (small : -2 ^ 31 ≤ year + 1 ∧ year + 1 < 2 ^ 31) :
    Yields P (nextMonthFirst year month) ↔
      ∃ e : NaiveDate, e.dayNum = dayNumber year month 1 + daysInMonth year month ∧ P e := by
  by_cases december : month = 12
  · have next : dayNumber (year + 1) 1 1 = dayNumber year month 1 + daysInMonth year month := by
      subst december
      exact dayNumber_december year
    rw [nextMonthFirst, if_pos december, yields_bind, yields_checkedI32,
      yields_fromYmd (validFirst _ (by omega) (by omega)), next]
    exact and_iff_right small
  · rw [nextMonthFirst, if_neg december, yields_fromYmd (validFirst _ (by omega) (by omega)),
      dayNumber_month_succ year pos]

theorem month_start_bounds (year : Int) (month : Nat) (lower : MIN_YEAR ≤ year)
    (upper : year ≤ MAX_YEAR) (pos : 1 ≤ month) (le : month ≤ 12) :
    firstDay ≤ dayNumber year month 1 ∧
      dayNumber year month 1 ≤ lastDay := by
  have start := firstDay_le ⟨year, month, 1, validFirst year pos le, lower, upper⟩
  have finish := le_lastDay ⟨year, month, 1, validFirst year pos le, lower, upper⟩
  exact ⟨start, finish⟩

/-- A month of the calendar has a next one unless it is the last. -/
theorem month_end_iff {year : Int} (lower : MIN_YEAR ≤ year) (upper : year ≤ MAX_YEAR)
    {month : Nat} (pos : 1 ≤ month) (le : month ≤ 12) :
    dayNumber year month 1 + daysInMonth year month ≤ lastDay ↔
      ¬(year = MAX_YEAR ∧ month = 12) := by
  by_cases december : month = 12
  · have next := dayNumber_december year
    have long : daysInMonth year 12 = 31 := rfl
    subst december
    rw [long]
    by_cases top : year = MAX_YEAR
    · have last := dayNumber_year_succ MAX_YEAR
      subst top
      unfold lastDay
      constructor
      · intro inside
        omega
      · intro other
        exact absurd ⟨rfl, rfl⟩ other
    · have bounds := month_start_bounds (year + 1) 1 (by omega) (by omega) (by omega)
        (by omega)
      constructor
      · intro _ both
        exact top both.1
      · intro _
        omega
  · have bounds := month_start_bounds year (month + 1) lower upper (by omega) (by omega)
    rw [dayNumber_month_succ year pos] at bounds
    constructor
    · intro _ both
      exact december both.2
    · intro _
      exact bounds.2

theorem year_of_dayNum {e : NaiveDate} {year : Int} {month day : Nat}
    (valid : ValidDate year month day) (number : e.dayNum = dayNumber year month day) :
    MIN_YEAR ≤ year ∧ year ≤ MAX_YEAR := by
  have is := (e.is_iff valid).2 number
  rw [← is.1]
  exact ⟨e.lower, e.upper⟩

theorem months_ordered_iff {year : Int} (small : -2 ^ 31 ≤ year + 1 ∧ year + 1 < 2 ^ 31)
    {startMonth endMonth : Nat} (pos : 1 ≤ startMonth) (le : startMonth ≤ endMonth)
    (twelve : endMonth ≤ 12) : Yields DateRange.Ordered (monthsRange year startMonth endMonth) ↔
      MIN_YEAR ≤ year ∧ year ≤ MAX_YEAR ∧ ¬(year = MAX_YEAR ∧ endMonth = 12) := by
  have valid := validFirst year pos (show startMonth ≤ 12 by omega)
  have long := daysInMonth_pos year endMonth
  simp only [monthsRange, yields_bind, yields_fromYmd valid,
    yields_nextMonthFirst (show 1 ≤ endMonth by omega) twelve small, yields_addDays, yields_pure,
    daysRange_ordered]
  constructor
  · rintro ⟨first, number, next, number', _⟩
    have years := year_of_dayNum valid number
    have inside := next.le_lastDay
    rw [number'] at inside
    exact ⟨years.1, years.2, (month_end_iff years.1 years.2 (by omega) twelve).1 inside⟩
  · rintro ⟨lower, upper, other⟩
    have bounds := month_start_bounds _ _ lower upper pos (show startMonth ≤ 12 by omega)
    have bounds' := month_start_bounds _ _ lower upper (show 1 ≤ endMonth by omega) twelve
    have inside := (month_end_iff lower upper (show 1 ≤ endMonth by omega) twelve).2 other
    have order : dayNumber year startMonth 1 ≤ dayNumber year endMonth 1 := by
      have mono := daysBeforeMonth_mono year le
      unfold dayNumber
      omega
    obtain ⟨first, number⟩ := exists_dayNum _ bounds.1 bounds.2
    obtain ⟨next, number'⟩ := exists_dayNum
      (dayNumber year endMonth 1 + daysInMonth year endMonth) (by omega) inside
    obtain ⟨last, number''⟩ := exists_dayNum
      (dayNumber year endMonth 1 + daysInMonth year endMonth + -1) (by omega) (by omega)
    exact ⟨first, number, next, number', last, by omega, by omega⟩

def MonthFits (d : NaiveDate) (this : Bool) : Prop :=
  ¬(d.year = MAX_YEAR ∧ d.month = 12) ∧ (this = false → ¬(d.year = MIN_YEAR ∧ d.month = 1))

theorem small_year (d : NaiveDate) : -262143 ≤ d.year ∧ d.year ≤ 262142 :=
  ⟨d.lower, d.upper⟩

theorem month_ordered_iff (d : NaiveDate) (which : List Char) :
    Yields DateRange.Ordered (monthRange d which) ↔
      if isThis which then ¬(d.year = MAX_YEAR ∧ d.month = 12)
      else ¬(d.year = MIN_YEAR ∧ d.month = 1) := by
  have small := small_year d
  have valid := d.valid
  have pos := valid.month_pos
  have twelve := valid.month_le
  simp only [monthRange, yields_ite]
  by_cases this : isThis which
  · rw [if_pos this, if_pos this, months_ordered_iff (by omega) pos (Nat.le_refl _) twelve]
    constructor
    · intro fits
      exact fits.2.2
    · intro fits
      exact ⟨d.lower, d.upper, fits⟩
  · rw [if_neg this, if_neg this]
    by_cases january : d.month = 1
    · simp only [if_pos january, yields_bind, yields_checkedI32]
      rw [months_ordered_iff (by omega) (by omega) (Nat.le_refl _) (Nat.le_refl _)]
      have lower := d.lower
      have upper := d.upper
      constructor
      · intro fits both
        omega
      · intro other
        have above : d.year ≠ MIN_YEAR := fun bottom => other ⟨bottom, january⟩
        omega
    · rw [if_neg january, months_ordered_iff (by omega) (by omega) (Nat.le_refl _) (by omega)]
      have lower := d.lower
      have upper := d.upper
      constructor
      · intro _ both
        exact january both.2
      · intro _
        omega

theorem nearMonth_returns_iff (now : DateTime) : Yields (fun _ => True) (nearMonthBoundary now) ↔
      ¬(now.date.year = MAX_YEAR ∧ now.date.month = 12) := by
  have small := small_year now.date
  have pos := now.date.valid.month_pos
  have twelve := now.date.valid.month_le
  have bounds := month_start_bounds _ _ now.date.lower now.date.upper pos twelve
  have long := daysInMonth_pos now.date.year now.date.month
  have fits : -2 ^ 31 ≤ now.date.year + 1 ∧ now.date.year + 1 < 2 ^ 31 := by omega
  rw [← month_end_iff now.date.lower now.date.upper pos twelve]
  simp only [nearMonthBoundary, yields_bind, yields_fromYmd (validFirst _ pos twelve),
    yields_nextMonthFirst pos twelve fits]
  constructor
  · rintro ⟨_, _, next, number, _⟩
    have inside := next.le_lastDay
    rw [number] at inside
    exact inside
  · intro inside
    obtain ⟨first, number⟩ := exists_dayNum _ bounds.1 bounds.2
    obtain ⟨next, number'⟩ := exists_dayNum (dayNumber now.date.year now.date.month 1 +
      daysInMonth now.date.year now.date.month) (by omega) inside
    have early := dayAt_bounds first
    have late := dayAt_bounds next
    exact ⟨first, number, next, number',
      nearBoundary_returns (timestamp_bounds now) (by omega) (by omega)⟩

theorem validNewYear (year : Int) : ValidDate year 1 1 :=
  validFirst year (by omega) (by omega)

theorem validLastDay (year : Int) : ValidDate year 12 31 :=
  ⟨by omega, by omega, by omega, Nat.le_refl _⟩

theorem year_ordered_iff (d : NaiveDate) (which : List Char) :
    Yields DateRange.Ordered (yearRange d which) ↔
      (isThis which = false → d.year ≠ MIN_YEAR) := by
  have small := small_year d
  have range (year : Int) : (∃ first : NaiveDate, first.dayNum = dayNumber year 1 1 ∧
      ∃ last : NaiveDate, last.dayNum = dayNumber year 12 31 ∧ first.dayNum ≤ last.dayNum) ↔
      MIN_YEAR ≤ year ∧ year ≤ MAX_YEAR := by
    constructor
    · rintro ⟨first, number, _⟩
      exact year_of_dayNum (validNewYear year) number
    · rintro ⟨lower, upper⟩
      have order := (validLastDay year).year_start_le
      exact ⟨⟨year, 1, 1, validNewYear year, lower, upper⟩, rfl,
        ⟨year, 12, 31, validLastDay year, lower, upper⟩, rfl, order⟩
  have lower := d.lower
  have upper := d.upper
  simp only [yearRange, yields_bind, yields_ite]
  by_cases this : isThis which
  · simp only [yields_pure, yields_fromYmd (validNewYear _), yields_fromYmd (validLastDay _),
      daysRange_ordered, range, this]
    constructor
    · intro _ other
      cases other
    · intro _
      exact ⟨lower, upper⟩
  · simp only [if_neg this, yields_checkedI32, yields_pure, yields_fromYmd (validNewYear _),
      yields_fromYmd (validLastDay _), daysRange_ordered, range]
    constructor
    · intro fits _ bottom
      omega
    · intro other
      have above := other (Bool.eq_false_iff.2 this)
      omega

theorem nearYear_returns_iff (now : DateTime) :
    Yields (fun _ => True) (nearYearBoundary now) ↔ now.date.year ≠ MAX_YEAR := by
  have small := small_year now.date
  have lower := now.date.lower
  have upper := now.date.upper
  simp only [nearYearBoundary, yields_bind, yields_fromYmd (validNewYear _), yields_checkedI32]
  constructor
  · rintro ⟨_, _, _, next, number, _⟩ top
    have years := year_of_dayNum (validNewYear _) number
    omega
  · intro other
    have above : now.date.year + 1 ≤ MAX_YEAR := by omega
    refine ⟨⟨now.date.year, 1, 1, validNewYear _, lower, upper⟩, rfl, by omega,
      ⟨now.date.year + 1, 1, 1, validNewYear _, by omega, above⟩, rfl, ?_⟩
    have early := dayAt_bounds ⟨now.date.year, 1, 1, validNewYear _, lower, upper⟩
    have late := dayAt_bounds ⟨now.date.year + 1, 1, 1, validNewYear _, by omega, above⟩
    exact nearBoundary_returns (timestamp_bounds now) (by omega) (by omega)

end Periods

end Wenlan.Temporal
