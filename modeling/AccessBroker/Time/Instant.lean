import AccessBroker.Time.Calendar

/-!
# Instants

An instant is a second of the calendar, counted from the start of 1970, and a
fraction of it in nanoseconds. The fraction of the last second of a minute may
run past a whole second: that is a leap second, which has no number of its own.

The calendar ends: instants lie in the years from -262143 to 262142, and moving an
instant forward (`AccessBroker.Time.Instant.after?`) fails when that would leave
them. Instants are ordered by second and then by fraction, so a leap second comes
after everything else in its minute.

Lengths of time are numbers of nanoseconds.
-/

namespace AccessBroker.Time

/-- The nanoseconds of a second. -/
def nanosPerSecond : Nat := 1000000000

/-- The nanoseconds of a millisecond. -/
def nanosPerMilli : Nat := 1000000

/-- The nanoseconds of a minute. -/
def nanosPerMinute : Nat := 60 * nanosPerSecond

/-- The seconds of a day. -/
def secondsPerDay : Int := 86400

/-- The first year of the calendar. -/
def firstYear : Int := -262143

/-- The last year of the calendar. -/
def lastYear : Int := 262142

/-- The first second of the calendar. -/
def firstSecond : Int := Date.toDays ⟨firstYear, 1, 1⟩ * secondsPerDay

/-- The last second of the calendar. -/
def lastSecond : Int := Date.toDays ⟨lastYear, 12, 31⟩ * secondsPerDay + secondsPerDay - 1

/-- A point in time. -/
structure Instant where
  /-- Seconds from the start of 1970. -/
  second : Int
  /-- Nanoseconds since the start of the second. -/
  nano : Nat
  first_le : firstSecond ≤ second
  le_last : second ≤ lastSecond
  nano_lt : nano < 2000000000
  leap : 1000000000 ≤ nano → second % 60 = 59
  deriving DecidableEq

namespace Instant

instance : Repr Instant :=
  ⟨fun instant _ => s!"({instant.second} s, {instant.nano} ns)"⟩

/-- The start of 1970. -/
def epoch : Instant where
  second := 0
  nano := 0
  first_le := by decide
  le_last := by decide
  nano_lt := by decide
  leap := by decide

instance : Inhabited Instant := ⟨epoch⟩

/-- The instant with a given second and fraction, if the calendar has it. -/
def ofParts? (second : Int) (nano : Nat) : Option Instant :=
  if h : (firstSecond ≤ second ∧ second ≤ lastSecond) ∧
      nano < 2000000000 ∧ (1000000000 ≤ nano → second % 60 = 59) then
    some ⟨second, nano, h.1.1, h.1.2, h.2.1, h.2.2⟩
  else none

/-- Does the instant lie in a leap second? -/
def isLeap (instant : Instant) : Bool :=
  1000000000 ≤ instant.nano

instance : LT Instant where
  lt a b := a.second < b.second ∨ (a.second = b.second ∧ a.nano < b.nano)

instance : LE Instant where
  le a b := a.second < b.second ∨ (a.second = b.second ∧ a.nano ≤ b.nano)

instance (a b : Instant) : Decidable (a < b) :=
  inferInstanceAs (Decidable (_ ∨ _))

instance (a b : Instant) : Decidable (a ≤ b) :=
  inferInstanceAs (Decidable (_ ∨ _))

/-- The nanoseconds from the start of 1970 to an instant, where a leap second
counts as the second before it. -/
def sinceEpoch (instant : Instant) : Int :=
  instant.second * 1000000000 + (instant.nano % 1000000000 : Nat)

/-- The instant a number of nanoseconds from the start of 1970. -/
def ofSinceEpoch? (nanos : Int) : Option Instant :=
  ofParts? (nanos / 1000000000) (nanos % 1000000000).toNat

/-- The instant that comes `span` nanoseconds after another. Within a leap second
only the fraction moves. -/
def after? (instant : Instant) (span : Nat) : Option Instant :=
  if instant.isLeap ∧ instant.nano + span < 2000000000 then
    ofParts? instant.second (instant.nano + span)
  else ofSinceEpoch? (instant.sinceEpoch + span)

/-- The last instant of the calendar that is no leap second. -/
def last : Instant where
  second := lastSecond
  nano := 999999999
  first_le := by decide
  le_last := by decide
  nano_lt := by decide
  leap := by decide

/-- The instant that comes `span` nanoseconds after another, or the end of the
calendar if that is earlier. -/
def after (instant : Instant) (span : Nat) : Instant :=
  (instant.after? span).getD last

/-- The nanoseconds from one instant to another, negative when the other one is
earlier. A leap second that lies between the two counts. -/
def timeTo (start finish : Instant) : Int :=
  let plain := (finish.second - start.second) * 1000000000 + ((finish.nano : Int) - start.nano)
  if start.second < finish.second ∧ start.isLeap then plain + 1000000000
  else if finish.second < start.second ∧ finish.isLeap then plain - 1000000000
  else plain

end Instant

end AccessBroker.Time
