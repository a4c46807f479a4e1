import Mathlib.Tactic.Linarith
/-!
# The proleptic Gregorian calendar

Day numbers count days from 1970-01-01.  A date of the calendar library is a
valid triple whose year lies in the range the library can represent.
-/

namespace Wenlan.Support.Calendar

def isLeap (year : Int) : Bool :=
  year % 4 = 0 ∧ (year % 100 ≠ 0 ∨ year % 400 = 0)

def daysInMonth (year : Int) (month : Nat) : Nat :=
  match month with
  | 2 => if isLeap year then 29 else 28
  | 4 | 6 | 9 | 11 => 30
  | _ => 31

def daysBeforeYear (year : Int) : Int :=
  365 * (year - 1) + (year - 1) / 4 - (year - 1) / 100 + (year - 1) / 400

def daysBeforeMonth (year : Int) : Nat → Nat
  | 0 => 0
  | 1 => 0
  | month + 1 => daysBeforeMonth year month + daysInMonth year month

def epochDays : Int := 719162

def dayNumber (year : Int) (month day : Nat) : Int :=
  daysBeforeYear year + daysBeforeMonth year month + day - 1 - epochDays

structure ValidDate (year : Int) (month day : Nat) : Prop where
  month_pos : 1 ≤ month
  month_le : month ≤ 12
  day_pos : 1 ≤ day
  day_le : day ≤ daysInMonth year month

theorem isLeap_iff (year : Int) :
    isLeap year ↔ year % 4 = 0 ∧ (year % 100 ≠ 0 ∨ year % 400 = 0) := by
  simp [isLeap]

def daysInYear (year : Int) : Nat :=
  if isLeap year then 366 else 365

theorem daysBeforeYear_succ (year : Int) :
    daysBeforeYear (year + 1) = daysBeforeYear year + daysInYear year := by
  unfold daysBeforeYear daysInYear
  by_cases leap : isLeap year
  · rw [if_pos leap]
    have fields := (isLeap_iff year).1 leap
    omega
  · rw [if_neg leap]
    have fields := mt (isLeap_iff year).2 leap
    omega

theorem daysBeforeYear_mono {a b : Int} (le : a ≤ b) : daysBeforeYear a ≤ daysBeforeYear b := by
  unfold daysBeforeYear
  omega

theorem daysInMonth_pos (year : Int) (month : Nat) : 28 ≤ daysInMonth year month := by
  unfold daysInMonth
  split
  · split <;> omega
  all_goals omega

theorem daysBeforeMonth_succ (year : Int) {month : Nat} (pos : 1 ≤ month) :
    daysBeforeMonth year (month + 1) =
      daysBeforeMonth year month + daysInMonth year month := by
  cases month with
  | zero => omega
  | succ month => rfl

theorem daysBeforeMonth_december (year : Int) : daysBeforeMonth year 12 + 31 = daysInYear year := by
  by_cases leap : isLeap year
  all_goals simp [daysBeforeMonth, daysInMonth, daysInYear, leap]

theorem daysBeforeMonth_mono (year : Int) {a b : Nat} (le : a ≤ b) :
    daysBeforeMonth year a ≤ daysBeforeMonth year b := by
  induction b with
  | zero =>
    have zero : a = 0 := by omega
    rw [zero]
  | succ b ih =>
    by_cases last : a = b + 1
    · rw [last]
    · have before := ih (by omega)
      cases b with
      | zero =>
        have zero : a = 0 := by omega
        rw [zero]
        rfl
      | succ b =>
        have step := daysBeforeMonth_succ year (show 1 ≤ b + 1 by omega)
        omega

theorem dayNumber_month_succ (year : Int) {month : Nat} (pos : 1 ≤ month) :
    dayNumber year (month + 1) 1 = dayNumber year month 1 + daysInMonth year month := by
  have step := daysBeforeMonth_succ year pos
  unfold dayNumber
  omega

theorem dayNumber_year_succ (year : Int) : dayNumber (year + 1) 1 1 = dayNumber year 12 31 + 1 := by
  have step := daysBeforeYear_succ year
  have december := daysBeforeMonth_december year
  have january : daysBeforeMonth (year + 1) 1 = 0 := rfl
  unfold dayNumber
  omega

theorem dayNumber_december (year : Int) : dayNumber (year + 1) 1 1 = dayNumber year 12 1 + 31 := by
  have last := dayNumber_year_succ year
  unfold dayNumber at last ⊢
  omega

namespace ValidDate

variable {year : Int} {month day : Nat}

theorem ordinal_lt (valid : ValidDate year month day) :
    daysBeforeMonth year month + day ≤ daysInYear year := by
  have inside := valid.day_le
  have tail := daysBeforeMonth_mono year (show month ≤ 12 from valid.month_le)
  by_cases december : month = 12
  · subst december
    have whole := daysBeforeMonth_december year
    have last : daysInMonth year 12 = 31 := rfl
    omega
  · have next := daysBeforeMonth_mono year (show month + 1 ≤ 12 by have := valid.month_le; omega)
    have step := daysBeforeMonth_succ year valid.month_pos
    have whole := daysBeforeMonth_december year
    omega

theorem year_start_le (valid : ValidDate year month day) :
    dayNumber year 1 1 ≤ dayNumber year month day := by
  have first := valid.day_pos
  have january : daysBeforeMonth year 1 = 0 := rfl
  unfold dayNumber
  omega

theorem lt_year_end (valid : ValidDate year month day) :
    dayNumber year month day < dayNumber (year + 1) 1 1 := by
  have inside := valid.ordinal_lt
  have step := daysBeforeYear_succ year
  have january : daysBeforeMonth (year + 1) 1 = 0 := rfl
  unfold dayNumber
  omega

end ValidDate

/-! ## The date of a day number -/

/-- The year of a day number: whole spans of 400, 100, 4 and 1 years are taken
off in turn, a leap day at the end of a span staying in it. -/
def yearOf (days : Int) : Int :=
  let z := days + epochDays
  let r400 := z % 146097
  let q100 := min (r400 / 36524) 3
  let r100 := r400 - 36524 * q100
  let q4 := r100 / 1461
  let r4 := r100 % 1461
  let q1 := min (r4 / 365) 3
  400 * (z / 146097) + 100 * q100 + 4 * q4 + q1 + 1

theorem daysBeforeYear_spans {a h b g : Int} (h_lo : 0 ≤ h) (h_hi : h ≤ 3) (b_lo : 0 ≤ b)
    (b_hi : b ≤ 24) (g_lo : 0 ≤ g) (g_hi : g ≤ 3) :
    daysBeforeYear (400 * a + 100 * h + 4 * b + g + 1) =
      146097 * a + 36524 * h + 1461 * b + 365 * g := by
  have fours : (400 * a + 100 * h + 4 * b + g + 1 - 1) / 4 = 100 * a + 25 * h + b := by omega
  have hundr : (400 * a + 100 * h + 4 * b + g + 1 - 1) / 100 = 4 * a + h := by omega
  have cycles : (400 * a + 100 * h + 4 * b + g + 1 - 1) / 400 = a := by omega
  rw [daysBeforeYear, fours, hundr, cycles]
  omega

theorem isLeap_spans {a h b g : Int} (h_lo : 0 ≤ h) (h_hi : h ≤ 3) (b_lo : 0 ≤ b)
    (b_hi : b ≤ 24) (g_lo : 0 ≤ g) (g_hi : g ≤ 3) :
    isLeap (400 * a + 100 * h + 4 * b + g + 1) ↔ g = 3 ∧ (b ≠ 24 ∨ h = 3) := by
  rw [isLeap_iff]
  have fours : (400 * a + 100 * h + 4 * b + g + 1) % 4 = (g + 1) % 4 := by omega
  have hundr : (400 * a + 100 * h + 4 * b + g + 1) % 100 = (4 * b + g + 1) % 100 := by omega
  have cycles : (400 * a + 100 * h + 4 * b + g + 1) % 400 = (100 * h + 4 * b + g + 1) % 400 := by
    omega
  rw [fours, hundr, cycles]
  omega

theorem yearOf_spans (days : Int) : ∃ a h b g left : Int,
    yearOf days = 400 * a + 100 * h + 4 * b + g + 1 ∧
      days + epochDays = 146097 * a + 36524 * h + 1461 * b + 365 * g + left ∧
      (0 ≤ h ∧ h ≤ 3) ∧ (0 ≤ b ∧ b ≤ 24) ∧ (0 ≤ g ∧ g ≤ 3) ∧ 0 ≤ left ∧
      (left < 365 ∨ left = 365 ∧ g = 3 ∧ (b ≠ 24 ∨ h = 3)) := by
  refine ⟨_, _, _, _, _, rfl, (add_sub_cancel _ _).symm, ?_⟩
  omega

theorem yearOf_bounds (days : Int) :
    dayNumber (yearOf days) 1 1 ≤ days ∧ days < dayNumber (yearOf days + 1) 1 1 := by
  have january (year : Int) : daysBeforeMonth year 1 = 0 := rfl
  have next := daysBeforeYear_succ (yearOf days)
  obtain ⟨a, h, b, g, left, year, total, ⟨h_lo, h_hi⟩, ⟨b_lo, b_hi⟩, ⟨g_lo, g_hi⟩, left_lo, inside⟩ :=
    yearOf_spans days
  have leap := isLeap_spans (a := a) h_lo h_hi b_lo b_hi g_lo g_hi
  have start := daysBeforeYear_spans (a := a) h_lo h_hi b_lo b_hi g_lo g_hi
  rw [← year] at leap start
  have length : left < daysInYear (yearOf days) := by
    unfold daysInYear
    by_cases long : isLeap (yearOf days)
    · rw [if_pos long]
      omega
    · have fields := mt leap.2 long
      rw [if_neg long]
      omega
  simp only [dayNumber, january]
  omega

theorem dayNumber_newYear_mono {a b : Int} (le : a ≤ b) : dayNumber a 1 1 ≤ dayNumber b 1 1 := by
  have mono := daysBeforeYear_mono le
  have january (year : Int) : daysBeforeMonth year 1 = 0 := rfl
  simp only [dayNumber, january]
  omega

theorem yearOf_eq {days year : Int} (lower : dayNumber year 1 1 ≤ days)
    (upper : days < dayNumber (year + 1) 1 1) : yearOf days = year := by
  have bounds := yearOf_bounds days
  by_contra differ
  by_cases less : yearOf days < year
  · have mono := dayNumber_newYear_mono (show yearOf days + 1 ≤ year by omega)
    omega
  · have mono := dayNumber_newYear_mono (show year + 1 ≤ yearOf days by omega)
    omega

theorem yearOf_dayNumber {year : Int} {month day : Nat} (valid : ValidDate year month day) :
    yearOf (dayNumber year month day) = year :=
  yearOf_eq valid.year_start_le valid.lt_year_end

/-- The month and day of the day with a given number of days before it in its
year: months are walked until the day falls inside one. -/
def monthWalk (year : Int) : Nat → Nat → Nat → Nat × Nat
  | 0, month, ordinal => (month, ordinal + 1)
  | fuel + 1, month, ordinal =>
    if ordinal < daysInMonth year month then (month, ordinal + 1)
    else monthWalk year fuel (month + 1) (ordinal - daysInMonth year month)

theorem monthWalk_spec (year : Int) (fuel month ordinal : Nat) (pos : 1 ≤ month)
    (twelve : fuel + month = 12) (inside : daysBeforeMonth year month + ordinal < daysInYear year) :
    let found := monthWalk year fuel month ordinal
    ValidDate year found.1 found.2 ∧
      daysBeforeMonth year found.1 + found.2 = daysBeforeMonth year month + ordinal + 1 := by
  induction fuel generalizing month ordinal with
  | zero =>
    have december : month = 12 := by omega
    subst december
    have whole := daysBeforeMonth_december year
    have last : daysInMonth year 12 = 31 := rfl
    simp only [monthWalk]
    exact ⟨⟨by omega, by omega, by omega, by omega⟩, by omega⟩
  | succ fuel ih =>
    simp only [monthWalk]
    by_cases here : ordinal < daysInMonth year month
    · rw [if_pos here]
      exact ⟨⟨pos, by omega, by simp only; omega, by simp only; omega⟩, by simp only; omega⟩
    · rw [if_neg here]
      have step := daysBeforeMonth_succ year pos
      have rest := ih (month + 1) (ordinal - daysInMonth year month) (by omega) (by omega) (by omega)
      exact ⟨rest.1, by omega⟩

def ordinalOf (days : Int) : Nat :=
  (days - dayNumber (yearOf days) 1 1).toNat

theorem ordinalOf_lt (days : Int) : ordinalOf days < daysInYear (yearOf days) := by
  have bounds := yearOf_bounds days
  have step := dayNumber_year_succ (yearOf days)
  have december := daysBeforeMonth_december (yearOf days)
  have january : daysBeforeMonth (yearOf days) 1 = 0 := rfl
  simp only [dayNumber, ordinalOf, january] at bounds step ⊢
  omega

def monthDayOf (days : Int) : Nat × Nat :=
  monthWalk (yearOf days) 11 1 (ordinalOf days)

theorem monthDayOf_spec (days : Int) :
    ValidDate (yearOf days) (monthDayOf days).1 (monthDayOf days).2 ∧
      dayNumber (yearOf days) (monthDayOf days).1 (monthDayOf days).2 = days := by
  have january : daysBeforeMonth (yearOf days) 1 = 0 := rfl
  have inside := ordinalOf_lt days
  have walk := monthWalk_spec (yearOf days) 11 1 (ordinalOf days) (by omega) (by omega)
    (by omega)
  have bounds := yearOf_bounds days
  refine ⟨walk.1, ?_⟩
  have place := walk.2
  change daysBeforeMonth (yearOf days) (monthDayOf days).1 + (monthDayOf days).2 = _ at place
  simp only [dayNumber, ordinalOf, january] at bounds place ⊢
  omega

theorem ValidDate.eq_of_dayNumber {year : Int} {month day month' day' : Nat}
    (valid : ValidDate year month day) (valid' : ValidDate year month' day')
    (same : dayNumber year month day = dayNumber year month' day') :
    month = month' ∧ day = day' := by
  have days : daysBeforeMonth year month + day = daysBeforeMonth year month' + day' := by
    unfold dayNumber at same
    omega
  have months : month = month' := by
    by_contra differ
    by_cases less : month < month'
    · have mono := daysBeforeMonth_mono year (show month + 1 ≤ month' by omega)
      have step := daysBeforeMonth_succ year valid.month_pos
      have inside := valid.day_le
      have first := valid'.day_pos
      omega
    · have mono := daysBeforeMonth_mono year (show month' + 1 ≤ month by omega)
      have step := daysBeforeMonth_succ year valid'.month_pos
      have inside := valid'.day_le
      have first := valid.day_pos
      omega
  subst months
  exact ⟨rfl, by omega⟩

/-! ## Dates the calendar library represents -/

def MIN_YEAR : Int := -262143

def MAX_YEAR : Int := 262142

structure NaiveDate where
  year : Int
  month : Nat
  day : Nat
  valid : ValidDate year month day
  lower : MIN_YEAR ≤ year
  upper : year ≤ MAX_YEAR

instance (year : Int) (month day : Nat) : Decidable (ValidDate year month day) :=
  decidable_of_iff (1 ≤ month ∧ month ≤ 12 ∧ 1 ≤ day ∧ day ≤ daysInMonth year month)
    ⟨fun fields => ⟨fields.1, fields.2.1, fields.2.2.1, fields.2.2.2⟩,
      fun valid => ⟨valid.month_pos, valid.month_le, valid.day_pos, valid.day_le⟩⟩

namespace NaiveDate

def dayNum (date : NaiveDate) : Int :=
  dayNumber date.year date.month date.day

def fromYmdOpt (year : Int) (month day : Nat) : Option NaiveDate :=
  if fields : ValidDate year month day ∧ MIN_YEAR ≤ year ∧ year ≤ MAX_YEAR then
    some ⟨year, month, day, fields.1, fields.2.1, fields.2.2⟩
  else none

def ofDays (days : Int) : Option NaiveDate :=
  if range : MIN_YEAR ≤ yearOf days ∧ yearOf days ≤ MAX_YEAR then
    some ⟨yearOf days, (monthDayOf days).1, (monthDayOf days).2, (monthDayOf_spec days).1,
      range.1, range.2⟩
  else none

/-- Adding days; `none` is the panic of the operator outside the range. -/
def addDays (date : NaiveDate) (days : Int) : Option NaiveDate :=
  ofDays (date.dayNum + days)

def firstDay : Int := dayNumber MIN_YEAR 1 1

def lastDay : Int := dayNumber MAX_YEAR 12 31

theorem yearOf_dayNum (date : NaiveDate) : yearOf date.dayNum = date.year :=
  yearOf_dayNumber date.valid

theorem dayNum_injective {date date' : NaiveDate} (same : date.dayNum = date'.dayNum) :
    date = date' := by
  have years : date.year = date'.year := by
    rw [← date.yearOf_dayNum, ← date'.yearOf_dayNum, same]
  obtain ⟨year, month, day, valid, _, _⟩ := date
  obtain ⟨year', month', day', valid', _, _⟩ := date'
  subst years
  have fields := valid.eq_of_dayNumber valid' same
  obtain ⟨months, days⟩ := fields
  subst months days
  rfl

theorem ofDays_eq_some_iff (days : Int) (date : NaiveDate) :
    ofDays days = some date ↔ date.dayNum = days := by
  have spec := monthDayOf_spec days
  constructor
  · intro found
    unfold ofDays at found
    by_cases range : MIN_YEAR ≤ yearOf days ∧ yearOf days ≤ MAX_YEAR
    · rw [dif_pos range] at found
      cases found
      exact spec.2
    · rw [dif_neg range] at found
      cases found
  · intro number
    have year : yearOf days = date.year := by rw [← number, date.yearOf_dayNum]
    unfold ofDays
    rw [dif_pos (by rw [year]; exact ⟨date.lower, date.upper⟩)]
    apply congrArg some
    apply dayNum_injective
    rw [number]
    exact spec.2

theorem firstDay_le (date : NaiveDate) : firstDay ≤ date.dayNum := by
  have year := date.valid.year_start_le
  have mono := dayNumber_newYear_mono date.lower
  unfold firstDay dayNum
  omega

theorem le_lastDay (date : NaiveDate) : date.dayNum ≤ lastDay := by
  have year := date.valid.lt_year_end
  have mono := dayNumber_newYear_mono (show date.year + 1 ≤ MAX_YEAR + 1 by
    have := date.upper
    omega)
  have last := dayNumber_year_succ MAX_YEAR
  unfold lastDay dayNum
  omega

theorem dayNum_of_addDays {date date' : NaiveDate} {days : Int}
    (sum : date.addDays days = some date') : date'.dayNum = date.dayNum + days :=
  (ofDays_eq_some_iff _ _).1 sum

theorem le_year_iff (date : NaiveDate) (year : Int) :
    year ≤ date.year ↔ dayNumber year 1 1 ≤ date.dayNum := by
  have start := date.valid.year_start_le
  have finish := date.valid.lt_year_end
  unfold dayNum
  constructor
  · intro le
    have mono := dayNumber_newYear_mono le
    omega
  · intro le
    by_contra less
    have mono := dayNumber_newYear_mono (show date.year + 1 ≤ year by omega)
    omega

def Is (date : NaiveDate) (year : Int) (month day : Nat) : Prop :=
  date.year = year ∧ date.month = month ∧ date.day = day

instance (date : NaiveDate) (year : Int) (month day : Nat) : Decidable (date.Is year month day) :=
  inferInstanceAs (Decidable (date.year = year ∧ date.month = month ∧ date.day = day))

theorem is_iff (date : NaiveDate) {year : Int} {month day : Nat}
    (valid : ValidDate year month day) :
    date.Is year month day ↔ date.dayNum = dayNumber year month day := by
  constructor
  · rintro ⟨years, months, days⟩
    rw [dayNum, years, months, days]
  · intro same
    have years : date.year = year := by
      rw [← date.yearOf_dayNum, same, yearOf_dayNumber valid]
    have valid' := date.valid
    rw [years] at valid'
    have fields := valid'.eq_of_dayNumber valid (by rw [← same, dayNum, years])
    exact ⟨years, fields.1, fields.2⟩

theorem ofDays_isSome_iff (days : Int) :
    (ofDays days).isSome ↔ firstDay ≤ days ∧ days ≤ lastDay := by
  rw [Option.isSome_iff_exists]
  constructor
  · rintro ⟨date, found⟩
    rw [← (ofDays_eq_some_iff days date).1 found]
    exact ⟨date.firstDay_le, date.le_lastDay⟩
  · rintro ⟨lower, upper⟩
    have bounds := yearOf_bounds days
    have last := dayNumber_year_succ MAX_YEAR
    have above : MIN_YEAR ≤ yearOf days := by
      by_contra below
      have mono := dayNumber_newYear_mono (show yearOf days + 1 ≤ MIN_YEAR by omega)
      unfold firstDay at lower
      omega
    have below : yearOf days ≤ MAX_YEAR := by
      by_contra above
      have mono := dayNumber_newYear_mono (show MAX_YEAR + 1 ≤ yearOf days by omega)
      unfold lastDay at upper
      omega
    exact ⟨_, dif_pos ⟨above, below⟩⟩

theorem fromYmdOpt_eq_some {year : Int} {month day : Nat} (valid : ValidDate year month day)
    (lower : MIN_YEAR ≤ year) (upper : year ≤ MAX_YEAR) :
    fromYmdOpt year month day = some ⟨year, month, day, valid, lower, upper⟩ :=
  dif_pos ⟨valid, lower, upper⟩

theorem fromYmdOpt_eq_none {year : Int} {month day : Nat}
    (outside : ¬(MIN_YEAR ≤ year ∧ year ≤ MAX_YEAR)) : fromYmdOpt year month day = none :=
  dif_neg fun fields => outside fields.2

def numDaysFromMonday (date : NaiveDate) : Int :=
  (date.dayNum + 3) % 7

def digit (n : Nat) : Char :=
  Nat.digitChar (n % 10)

def twoDigits (n : Nat) : List Char :=
  [digit (n / 10), digit n]

def fourDigits (n : Nat) : List Char :=
  [digit (n / 1000), digit (n / 100), digit (n / 10), digit n]

/-- Years from 0 to 9999 take four digits; the others a sign and at least four. -/
def formatYear (year : Int) : List Char :=
  if 0 ≤ year ∧ year ≤ 9999 then fourDigits year.toNat
  else
    let digits := Nat.toDigits 10 year.natAbs
    (if 0 ≤ year then '+' else '-') :: (List.replicate (4 - digits.length) '0' ++ digits)

def format (date : NaiveDate) : List Char :=
  formatYear date.year ++ '-' :: (twoDigits date.month ++ '-' :: twoDigits date.day)

end NaiveDate

/-- An instant to the second. -/
structure DateTime where
  date : NaiveDate
  second : Nat
  inDay : second < 86400

namespace DateTime

/-- Seconds since 1970-01-01T00:00:00. -/
def timestamp (instant : DateTime) : Int :=
  instant.date.dayNum * 86400 + instant.second

def addDays (instant : DateTime) (days : Int) : Option DateTime :=
  (instant.date.addDays days).map fun date => ⟨date, instant.second, instant.inDay⟩

end DateTime

end Wenlan.Support.Calendar
