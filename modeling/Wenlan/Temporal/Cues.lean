import Wenlan.Support.IntegerText
import Wenlan.Temporal.Phrases
/-!
# Temporal cues of a query

`extract_cue`: the first pattern that matches decides, and its arithmetic on
the calendar may leave the range of the calendar library or of an integer.
-/

namespace Wenlan.Temporal

open Support.TextScan Support.Calendar Support.IntegerText
open Claims (isWhitespace)

/-- How a computation stops early. -/
inductive Fault
  | panic
  | overflow

def orPanic {α : Type} : Option α → Except Fault α
  | none => .error .panic
  | some a => .ok a

def checkedI64 (n : Int) : Except Fault Int :=
  if InI64 n then .ok n else .error .overflow

def checkedI32 (n : Int) : Except Fault Int :=
  if -2 ^ 31 ≤ n ∧ n < 2 ^ 31 then .ok n else .error .overflow

structure DateRange where
  start : Int
  stop : Int

inductive CueConfidence
  | high
  | low

structure ExtractedCue where
  range : DateRange
  confidence : CueConfidence

/-- `(?i)\b(this|last)\s+(week|month|year)\b` -/
def RE_LAST_PERIOD (chars : UnicodeClasses) : Pattern (List Char × List Char) := fun c => do
  let c ← c.boundary chars.isWord
  let (which, c) ← oneOf [['t', 'h', 'i', 's'], ['l', 'a', 's', 't']] c
  let (_, c) ← c.many1 isWhitespace
  let (unit, c) ← oneOf [['w', 'e', 'e', 'k'], ['m', 'o', 'n', 't', 'h'], ['y', 'e', 'a', 'r']] c
  let c ← c.boundary chars.isWord
  pure ((which, unit), c)

def weekdays : List (List Char) :=
  ["monday".toList, "tuesday".toList, "wednesday".toList, "thursday".toList, "friday".toList,
    "saturday".toList, "sunday".toList]

/-- `(?i)\blast\s+(monday|...|sunday)\b` -/
def RE_LAST_WEEKDAY (chars : UnicodeClasses) : Pattern (List Char) := fun c => do
  let c ← c.boundary chars.isWord
  let (_, c) ← literal ['l', 'a', 's', 't'] c
  let (_, c) ← c.many1 isWhitespace
  let (weekday, c) ← oneOf weekdays c
  let c ← c.boundary chars.isWord
  pure (weekday, c)

/-- `(?i)\b(\d+)\s+(day|week|month)s?\s+ago\b`; an `s` read greedily is never given back, since a
blank has to follow. -/
def RE_N_AGO (chars : UnicodeClasses) : Pattern (List Char × List Char) := fun c => do
  let c ← c.boundary chars.isWord
  let (n, c) ← c.many1 chars.isDigit
  let (_, c) ← c.many1 isWhitespace
  let (unit, c) ← oneOf [['d', 'a', 'y'], ['w', 'e', 'e', 'k'], ['m', 'o', 'n', 't', 'h']] c
  let c := match literal ['s'] c with
    | some (_, plural) => plural
    | none => c
  let (_, c) ← c.many1 isWhitespace
  let (_, c) ← literal ['a', 'g', 'o'] c
  let c ← c.boundary chars.isWord
  pure ((n, unit), c)

/-- `(\d{4})\b` -/
def yearDigits (chars : UnicodeClasses) : Pattern (List Char) := fun c => do
  let (year, c) ← shape (List.replicate 4 chars.isDigit) c
  let c ← c.boundary chars.isWord
  pure (year, c)

def quarterDigit (c : Char) : Bool :=
  c = '1' || c = '2' || c = '3' || c = '4'

/-- `(?i)\b(?:in|during|throughout)\s+(Q[1-4])\s*(\d{4})\b`; the digit of the quarter is captured. -/
def RE_QUARTER (chars : UnicodeClasses) : Pattern (Char × List Char) := fun c => do
  let c ← c.boundary chars.isWord
  let (_, c) ← oneOf [['i', 'n'], "during".toList, "throughout".toList] c
  let (_, c) ← c.many1 isWhitespace
  let (_, c) ← literal ['q'] c
  let (q, c) ← c.one quarterDigit
  let (_, c) := c.many isWhitespace
  let (year, c) ← yearDigits chars c
  pure ((q, year), c)

/-- `(?i)\b(?:since|after)\s+(\d{4})\b` -/
def RE_SINCE (chars : UnicodeClasses) : Pattern (List Char) := fun c => do
  let c ← c.boundary chars.isWord
  let (_, c) ← oneOf ["since".toList, "after".toList] c
  let (_, c) ← c.many1 isWhitespace
  yearDigits chars c

/-- `(?i)\bbefore\s+(\d{4})\b` -/
def RE_BEFORE (chars : UnicodeClasses) : Pattern (List Char) := fun c => do
  let c ← c.boundary chars.isWord
  let (_, c) ← literal "before".toList c
  let (_, c) ← c.many1 isWhitespace
  yearDigits chars c

/-- `to_lowercase` on the letters of a captured word. -/
def toLowercase (word : List Char) : List Char :=
  word.map fun c => if c = '\u212A' then 'k' else c.toLower

def toAsciiLowercase (word : List Char) : List Char :=
  word.map Char.toLower

def WEEK_BOUNDARY_SECONDS : Int := 12 * 3600

def MONTH_BOUNDARY_SECONDS : Int := 24 * 3600

def YEAR_BOUNDARY_SECONDS : Int := 72 * 3600

def dayAt (d : NaiveDate) (hour minute second : Int) : Int :=
  d.dayNum * 86400 + hour * 3600 + minute * 60 + second

def daysRange (first last : NaiveDate) : DateRange :=
  ⟨dayAt first 0 0 0, dayAt last 23 59 59⟩

def fullDayRange (d : NaiveDate) : DateRange :=
  daysRange d d

/-- Whether an instant is close to the start of its period or to the next one's. -/
def nearBoundary (nowTs firstTs nextTs bound : Int) : Except Fault Bool := do
  let passed ← checkedI64 (nowTs - firstTs)
  let passed ← checkedI64 |passed|
  if passed < bound then pure true
  else
    let left ← checkedI64 (nextTs - nowTs)
    let left ← checkedI64 |left|
    pure (left < bound)

def isThis (thisOrLast : List Char) : Bool :=
  thisOrLast = ['t', 'h', 'i', 's']

def thisMonday (d : NaiveDate) : Except Fault NaiveDate :=
  orPanic (d.addDays (-d.numDaysFromMonday))

def weekRangeStartingMonday (d : NaiveDate) (thisOrLast : List Char) : Except Fault DateRange := do
  let monday ← thisMonday d
  let weekStart ← if isThis thisOrLast then pure monday else orPanic (monday.addDays (-7))
  let weekEnd ← orPanic (weekStart.addDays 6)
  pure (daysRange weekStart weekEnd)

def nearWeekBoundary (now : DateTime) : Except Fault Bool := do
  let monday ← thisMonday now.date
  let mondayTs := dayAt monday 0 0 0
  let nextMondayTs ← checkedI64 (mondayTs + 7 * 24 * 3600)
  nearBoundary now.timestamp mondayTs nextMondayTs WEEK_BOUNDARY_SECONDS

def nextMonthFirst (year : Int) (month : Nat) : Except Fault NaiveDate := do
  if month = 12 then
    let next ← checkedI32 (year + 1)
    orPanic (NaiveDate.fromYmdOpt next 1 1)
  else orPanic (NaiveDate.fromYmdOpt year (month + 1) 1)

def monthsRange (year : Int) (startMonth endMonth : Nat) : Except Fault DateRange := do
  let first ← orPanic (NaiveDate.fromYmdOpt year startMonth 1)
  let nextFirst ← nextMonthFirst year endMonth
  let lastDay ← orPanic (nextFirst.addDays (-1))
  pure (daysRange first lastDay)

def monthRange (d : NaiveDate) (thisOrLast : List Char) : Except Fault DateRange := do
  if isThis thisOrLast then monthsRange d.year d.month d.month
  else if d.month = 1 then
    let year ← checkedI32 (d.year - 1)
    monthsRange year 12 12
  else monthsRange d.year (d.month - 1) (d.month - 1)

def nearMonthBoundary (now : DateTime) : Except Fault Bool := do
  let firstOfMonth ← orPanic (NaiveDate.fromYmdOpt now.date.year now.date.month 1)
  let nextMonthFirst ← nextMonthFirst now.date.year now.date.month
  nearBoundary now.timestamp (dayAt firstOfMonth 0 0 0) (dayAt nextMonthFirst 0 0 0)
    MONTH_BOUNDARY_SECONDS

def yearRange (d : NaiveDate) (thisOrLast : List Char) : Except Fault DateRange := do
  let year ← if isThis thisOrLast then pure d.year else checkedI32 (d.year - 1)
  let first ← orPanic (NaiveDate.fromYmdOpt year 1 1)
  let last ← orPanic (NaiveDate.fromYmdOpt year 12 31)
  pure (daysRange first last)

def nearYearBoundary (now : DateTime) : Except Fault Bool := do
  let first ← orPanic (NaiveDate.fromYmdOpt now.date.year 1 1)
  let nextYear ← checkedI32 (now.date.year + 1)
  let next ← orPanic (NaiveDate.fromYmdOpt nextYear 1 1)
  nearBoundary now.timestamp (dayAt first 0 0 0) (dayAt next 0 0 0) YEAR_BOUNDARY_SECONDS

def weekdayFromStr (s : List Char) : Option Int :=
  let name := toAsciiLowercase s
  if name = "monday".toList then some 0
  else if name = "tuesday".toList then some 1
  else if name = "wednesday".toList then some 2
  else if name = "thursday".toList then some 3
  else if name = "friday".toList then some 4
  else if name = "saturday".toList then some 5
  else if name = "sunday".toList then some 6
  else none

def daysBack (today : NaiveDate) (target : Int) : Int :=
  if target < today.numDaysFromMonday then today.numDaysFromMonday - target
  else 7 - (target - today.numDaysFromMonday)

def lastWeekdayRange (today : NaiveDate) (target : Int) : Except Fault DateRange := do
  let targetDate ← orPanic (today.addDays (-daysBack today target))
  pure (fullDayRange targetDate)

def quarterRange (q : Int) (year : Int) : Except Fault DateRange :=
  if q = 1 then monthsRange year 1 3
  else if q = 2 then monthsRange year 4 6
  else if q = 3 then monthsRange year 7 9
  else if q = 4 then monthsRange year 10 12
  else .error .panic

/-- The seconds a `TimeDelta` can hold. -/
def MAX_SECONDS : Int := 9223372036854775

/-- `Duration::days` -/
def durationDays (days : Int) : Except Fault Int :=
  if -MAX_SECONDS ≤ days * 86400 ∧ days * 86400 ≤ MAX_SECONDS then .ok days else .error .panic

/-- `str::parse::<i32>` -/
def parseI32 (text : List Char) : Option Int :=
  (signedValue text).filter fun n => decide (-2 ^ 31 ≤ n ∧ n < 2 ^ 31)

def periodCue (now : DateTime) (which unit : List Char) : Except Fault (Option ExtractedCue) := do
  let thisOrLast := toLowercase which
  let unit := toLowercase unit
  let today := now.date
  let (range, near) ← if unit = ['w', 'e', 'e', 'k'] then
      let range ← weekRangeStartingMonday today thisOrLast
      let near ← nearWeekBoundary now
      pure (range, near)
    else if unit = ['m', 'o', 'n', 't', 'h'] then
      let range ← monthRange today thisOrLast
      let near ← nearMonthBoundary now
      pure (range, near)
    else if unit = ['y', 'e', 'a', 'r'] then
      let range ← yearRange today thisOrLast
      let near ← nearYearBoundary now
      pure (range, near)
    else .error .panic
  pure (some ⟨range, if near then .low else .high⟩)

def agoCue (now : DateTime) (n unit : List Char) : Except Fault (Option ExtractedCue) := do
  let n := (parseI64 n).getD 1
  let unit := toAsciiLowercase unit
  let days ← if unit = ['d', 'a', 'y'] then pure n
    else if unit = ['w', 'e', 'e', 'k'] then checkedI64 (n * 7)
    else if unit = ['m', 'o', 'n', 't', 'h'] then checkedI64 (n * 30)
    else pure n
  let days ← durationDays days
  let point ← orPanic (now.addDays (-days))
  let start ← orPanic (point.addDays (-1))
  let stop ← orPanic (point.addDays 1)
  pure (some ⟨⟨start.timestamp, stop.timestamp⟩, .high⟩)

def quarterCue (q : Char) (year : List Char) : Except Fault (Option ExtractedCue) := do
  let year := (parseI32 year).getD 2000
  let q := (signedValue [q]).getD 1
  let range ← quarterRange q year
  pure (some ⟨range, .high⟩)

def sinceCue (now : DateTime) (year : List Char) : Except Fault (Option ExtractedCue) := do
  let year := (parseI32 year).getD 2000
  let first ← orPanic (NaiveDate.fromYmdOpt year 1 1)
  pure (some ⟨⟨dayAt first 0 0 0, now.timestamp⟩, .high⟩)

def beforeCue (year : List Char) : Except Fault (Option ExtractedCue) := do
  let year := (parseI32 year).getD 2000
  let previous ← checkedI32 (year - 1)
  let last ← orPanic (NaiveDate.fromYmdOpt previous 12 31)
  pure (some ⟨⟨0, dayAt last 23 59 59⟩, .high⟩)

def extractCue (chars : UnicodeClasses) (query : List Char) (now : DateTime) :
    Except Fault (Option ExtractedCue) :=
  let today := now.date
  if isMatch (RE_YESTERDAY chars) query then do
    let day ← orPanic (today.addDays (-1))
    pure (some ⟨fullDayRange day, .high⟩)
  else if isMatch (RE_TODAY chars) query then pure (some ⟨fullDayRange today, .high⟩)
  else if isMatch (RE_TOMORROW chars) query then do
    let day ← orPanic (today.addDays 1)
    pure (some ⟨fullDayRange day, .high⟩)
  else match captures (RE_LAST_PERIOD chars) query with
  | some (which, unit) => periodCue now which unit
  | none =>
    -- a name that no weekday has in ASCII goes on to the patterns below
    match (captures (RE_LAST_WEEKDAY chars) query).bind weekdayFromStr with
    | some target => do
      let range ← lastWeekdayRange today target
      pure (some ⟨range, .high⟩)
    | none =>
      match captures (RE_N_AGO chars) query with
      | some (n, unit) => agoCue now n unit
      | none =>
        match captures (RE_QUARTER chars) query with
        | some (q, year) => quarterCue q year
        | none =>
          match captures (RE_SINCE chars) query with
          | some year => sinceCue now year
          | none =>
            match captures (RE_BEFORE chars) query with
            | some year => beforeCue year
            | none => pure none

end Wenlan.Temporal
