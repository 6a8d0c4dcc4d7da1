/-!
# The calendar

Dates of the Gregorian calendar, carried on over all years in both directions,
and their count in days from the first of January 1970.

Both directions start the year in March, so that the leap day is the last day of
its year. A cycle of 400 years then has 146097 days, and the day within a cycle
is taken apart from the largest unit down: centuries of 36524 days, groups of
four years of 1461 days, and years of 365 days, where the last century and the
last year of a group are the ones that may be a day longer. The months from March
on follow the pattern of 153 days in five months.
-/

namespace AccessBroker.Time

/-- A day of the calendar. -/
structure Date where
  year : Int
  /-- From 1 for January to 12 for December. -/
  month : Nat
  day : Nat
  deriving Repr, DecidableEq

/-- Has the year a leap day? -/
def isLeapYear (year : Int) : Bool :=
  year % 4 == 0 && (year % 100 != 0 || year % 400 == 0)

/-- The number of days of a month. -/
def daysInMonth (year : Int) (month : Nat) : Nat :=
  if month = 2 then (if isLeapYear year then 29 else 28)
  else if month = 4 ∨ month = 6 ∨ month = 9 ∨ month = 11 then 30
  else 31

/-- Is there such a day? -/
def Date.IsValid (date : Date) : Prop :=
  1 ≤ date.month ∧ date.month ≤ 12 ∧ 1 ≤ date.day ∧ date.day ≤ daysInMonth date.year date.month

instance (date : Date) : Decidable date.IsValid :=
  inferInstanceAs (Decidable (_ ∧ _))

/-- The days from the first of March of year 0 to the first of January 1970. -/
def daysToEpoch : Int := 719468

/-- The days of a year that start in March, before its month number `month`
counted from 0 for March. -/
def daysBeforeMonth (month : Nat) : Nat :=
  (153 * month + 2) / 5

/-- The day of a cycle, counted from 0, on which year `year` of the cycle
begins. -/
def daysBeforeYear (year : Nat) : Nat :=
  365 * year + year / 4 - year / 100

/-- The days from the first of January 1970 to a date. -/
def Date.toDays (date : Date) : Int :=
  let year := if date.month ≤ 2 then date.year - 1 else date.year
  let month := (date.month + 9) % 12
  146097 * (year / 400) + (daysBeforeYear (year % 400).toNat + daysBeforeMonth month : Nat)
    + date.day - 1 - daysToEpoch

/-- The year of a cycle that holds a day of the cycle, and the day within that
year. -/
def yearOfDay (day : Nat) : Nat × Nat :=
  let century := min 3 (day / 36524)
  let day := day - 36524 * century
  let group := day / 1461
  let day := day - 1461 * group
  let year := min 3 (day / 365)
  (100 * century + 4 * group + year, day - 365 * year)

/-- The date a number of days from the first of January 1970. -/
def Date.ofDays (days : Int) : Date :=
  let days := days + daysToEpoch
  let (year, day) := yearOfDay (days % 146097).toNat
  -- Months are counted from March here, so January and February are the last two.
  let month := (5 * day + 2) / 153
  let calendarMonth := if month < 10 then month + 3 else month - 9
  let calendarYear := 400 * (days / 146097) + year
  { year := if calendarMonth ≤ 2 then calendarYear + 1 else calendarYear
    month := calendarMonth
    day := day - daysBeforeMonth month + 1 }

example : Date.toDays ⟨1970, 1, 1⟩ = 0 := by decide

example : Date.ofDays 11016 = ⟨2000, 2, 29⟩ := by decide

end AccessBroker.Time
