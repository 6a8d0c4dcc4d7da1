import AccessBroker.Failure
import AccessBroker.Text.Blank
import AccessBroker.Text.Numeral

/-!
# Access spans

Requesters and the authors of policies write lengths of time as `10m`, `1h30m`
or `2.5h`: one or more components, each a decimal number and a unit, which add
up. A plain `0` is a span as well, a plus may stand in front, and blanks around
the whole are dropped. A span is a number of nanoseconds, exact and never
negative.

A component is worth its whole part times its unit, plus the fraction of the
unit that its further digits make, rounded down; of these digits the first
eighteen count. Sums are kept below `2 ^ 128` while they are built, and the final
one below `2 ^ 63`.
-/

namespace AccessBroker

open AccessBroker.Text

namespace Span

/-- Why a text is no access span. -/
inductive Error where
  /-- There is nothing but blanks. -/
  | empty
  /-- A minus stands in front. -/
  | negative
  /-- A component has no digit. -/
  | malformed
  /-- A number has no unit behind it. -/
  | missingUnit
  /-- The unit behind a number is not one of the known ones. -/
  | unknownUnit (name : String)
  /-- The span is too long to be held. -/
  | outOfRange
  deriving Repr, DecidableEq

/-- The sentence shown for a text that is no access span. -/
def Error.message (text : String) : Error → String
  | .empty => "access span must not be empty"
  | .negative => s!"access span '{text}' must not be negative"
  | .malformed => s!"invalid access span '{text}'"
  | .missingUnit => s!"missing unit in access span '{text}'"
  | .unknownUnit name => s!"unknown unit '{name}' in access span '{text}'"
  | .outOfRange => s!"access span '{text}' is out of range"

/-- The units and their nanoseconds. Microseconds may be written with either of
the two signs for micro. -/
def units : List (String × Nat) :=
  [("ns", 1), ("us", 1000), ("\u00B5s", 1000), ("\u03BCs", 1000), ("ms", 1000000),
    ("s", 1000000000), ("m", 60000000000), ("h", 3600000000000)]

/-- The nanoseconds of a unit. -/
def unitNanos? (name : String) : Option Nat :=
  (units.find? fun unit => unit.1 == name).map Prod.snd

/-- The number of digits behind the point that count. -/
def fractionDigits : Nat := 18

/-- What sums are kept below while they are built. -/
def sumBound : Nat := Nat.pow 2 128

/-- What every span is below, in nanoseconds. -/
def bound : Nat := Nat.pow 2 63

/-- The nanoseconds that the digits behind the point make of a unit. -/
def fractionNanos (fraction : List Char) (unit : Nat) : Nat :=
  let digits := fraction.take fractionDigits
  valueOf digits * unit / Nat.pow 10 digits.length

/-- Is the character part of a number, and so no part of a unit? -/
def isNumeric (c : Char) : Bool :=
  isDigit c || c == '.'

/-- The number at the front of a text as its digits before and behind the point,
and what follows it. -/
def cutNumber (text : List Char) : (List Char × List Char) × List Char :=
  let (whole, rest) := cutDigits text
  match rest with
  | '.' :: behind =>
    let (fraction, rest) := cutDigits behind
    ((whole, fraction), rest)
  | _ => ((whole, []), rest)

/-- The unit at the front of a text, and what follows it. -/
def cutUnit (text : List Char) : List Char × List Char :=
  (text.takeWhile fun c => !isNumeric c, text.dropWhile fun c => !isNumeric c)

/-- A number, if it is below the bound for sums. -/
def bounded (n : Nat) : Except Error Nat :=
  if n < sumBound then .ok n else .error .outOfRange

/-- The nanoseconds of one component. -/
def componentNanos (whole fraction : List Char) (unit : Nat) : Except Error Nat := do
  let value ← bounded (valueOf whole)
  bounded ((← bounded (value * unit)) + fractionNanos fraction unit)

/-- Reads one component off the front of a text: its nanoseconds, and what
follows it. -/
def readComponent (text : List Char) : Except Error (Nat × List Char) := do
  let ((whole, fraction), rest) := cutNumber text
  if whole.isEmpty && fraction.isEmpty then throw .malformed
  let (unit, rest) := cutUnit rest
  if unit.isEmpty then throw .missingUnit
  match unitNanos? (String.ofList unit) with
  | none => throw (.unknownUnit (String.ofList unit))
  | some nanos => return (← componentNanos whole fraction nanos, rest)

/-- Reads components onto the sum `total` until the text is used up. Every
component takes at least one character, so `fuel` steps are enough for a text of
that length. -/
def readComponents : (fuel : Nat) → (total : Nat) → List Char → Except Error Nat
  | _, total, [] => .ok total
  | 0, _, _ :: _ => .error .malformed
  | fuel + 1, total, text => do
    let (nanos, rest) ← readComponent text
    readComponents fuel (← bounded (total + nanos)) rest

/-- Reads a span from a text without blanks around it. -/
def readTrimmed (text : List Char) : Except Error Nat :=
  match text with
  | [] => .error .empty
  -- The only number that needs no unit.
  | ['0'] => .ok 0
  | '-' :: _ => .error .negative
  | _ => do
    let digits := match text with
      | '+' :: rest => rest
      | _ => text
    if digits.isEmpty then throw .malformed
    let total ← readComponents digits.length 0 digits
    if total < bound then pure total else throw .outOfRange

/-- The nanoseconds of an access span. -/
def read (text : String) : Except Error Nat :=
  readTrimmed (trimChars text.toList)

/-- The nanoseconds of an access span, with the failure that a wrong one is
reported as. -/
def parse (text : String) : Except Failure Nat :=
  match read text with
  | .ok nanos => .ok nanos
  | .error cause => .error (.validation (cause.message text))

end Span

end AccessBroker
