import AccessBroker.Json
import AccessBroker.Text.Blank
import AccessBroker.Text.Numeral
import AccessBroker.Time.Instant

/-!
# Timestamps

An instant is written in the form of RFC 3339, in universal time with a `Z`
behind it. The fraction has no digit, three, six or nine, whichever is the first
of these that is exact. A year outside 0 to 9999 has a sign and at least four
digits; a leap second is written as second 60.

Reading is more generous: any offset is accepted, a blank may stand where the `T`
does, blanks may stand around the separators, numbers may lack their leading
zeros, and digits of the fraction behind the ninth are passed over.
-/

namespace AccessBroker.Time

open AccessBroker.Text

/-! ### Writing -/

/-- A year, with a sign when it needs one. -/
def yearChars (year : Int) : List Char :=
  let size := year.natAbs
  let width := if size < 10000 then 4 else if size < 100000 then 5 else 6
  let digits := fixedDigits width size
  if year < 0 then '-' :: digits else if 9999 < year then '+' :: digits else digits

/-- A fraction of a second, with the point in front of it. -/
def fractionChars (nano : Nat) : List Char :=
  if nano = 0 then []
  else if nano % 1000000 = 0 then '.' :: fixedDigits 3 (nano / 1000000)
  else if nano % 1000 = 0 then '.' :: fixedDigits 6 (nano / 1000)
  else '.' :: fixedDigits 9 nano

/-- The characters of a timestamp. -/
def timestampChars (instant : Instant) : List Char :=
  let date := Date.ofDays (instant.second / secondsPerDay)
  let second := (instant.second % secondsPerDay).toNat
  let leap := if instant.isLeap then 1 else 0
  yearChars date.year ++ '-' :: fixedDigits 2 date.month ++ '-' :: fixedDigits 2 date.day ++
    'T' :: fixedDigits 2 (second / 3600) ++ ':' :: fixedDigits 2 (second / 60 % 60) ++
    ':' :: fixedDigits 2 (second % 60 + leap) ++ fractionChars (instant.nano % 1000000000) ++ ['Z']

/-- The timestamp of an instant. -/
def Instant.timestamp (instant : Instant) : String :=
  String.ofList (timestampChars instant)

/-! ### Reading -/

/-- What is left of a text behind a character that has to stand at its front. -/
def expect (c : Char) : List Char → Option (List Char)
  | d :: rest => if d = c then some rest else none
  | [] => none

/-- A number of at least one and at most `limit` digits behind blanks, and what
follows it. -/
def readNumber (limit : Nat) (text : List Char) : Option (Nat × List Char) :=
  let (digits, rest) := cutDigitsUpTo limit (dropBlanks text)
  if digits.isEmpty then none else some (valueOf digits, rest)

/-- A year behind blanks, and what follows it. Behind a sign it may have any
number of digits, otherwise it has at most four. -/
def readYear (text : List Char) : Option (Int × List Char) :=
  let signed (sign : Int) (rest : List Char) : Option (Int × List Char) :=
    let (digits, rest) := cutDigits rest
    if digits.isEmpty then none else some (sign * valueOf digits, rest)
  match dropBlanks text with
  | '-' :: rest => signed (-1) rest
  | '+' :: rest => signed 1 rest
  | rest => (readNumber 4 rest).map fun (year, rest) => ((year : Int), rest)

/-- A separator with blanks allowed in front of it. -/
def readSeparator (c : Char) (text : List Char) : Option (List Char) :=
  expect c (dropBlanks text)

/-- A date, and what follows it. -/
def readDate (text : List Char) : Option (Date × List Char) := do
  let (year, rest) ← readYear text
  let (month, rest) ← readNumber 2 (← readSeparator '-' rest)
  let (day, rest) ← readNumber 2 (← readSeparator '-' rest)
  let date : Date := ⟨year, month, day⟩
  if date.IsValid then some (date, rest) else none

/-- The fraction of a second in nanoseconds, and what follows it. -/
def readFraction (text : List Char) : Option (Nat × List Char) :=
  match text with
  | '.' :: rest =>
    let (digits, rest) := cutDigitsUpTo 9 rest
    if digits.isEmpty then none
    else some (valueOf digits * Nat.pow 10 (9 - digits.length), (cutDigits rest).2)
  | _ => some (0, text)

/-- The seconds since midnight and the fraction in nanoseconds, and what follows
them. Second 60 is the fraction of second 59 past a whole second. -/
def readTime (text : List Char) : Option ((Nat × Nat) × List Char) := do
  let (hour, rest) ← readNumber 2 text
  let (minute, rest) ← readNumber 2 (← readSeparator ':' rest)
  let (second, rest) ← readNumber 2 (← readSeparator ':' rest)
  let (nano, rest) ← readFraction rest
  if hour < 24 ∧ minute < 60 ∧ second ≤ 60 then
    let seconds := 3600 * hour + 60 * minute + min second 59
    some ((seconds, if second = 60 then nano + 1000000000 else nano), rest)
  else none

/-- Is the character one that may stand between the hours and the minutes of an
offset? -/
def isOffsetSeparator (c : Char) : Bool :=
  c == ':' || isBlank c

/-- The two digits at the front of a text, and what follows them. -/
def readTwoDigits : List Char → Option (Nat × List Char)
  | c :: d :: rest => if isDigit c && isDigit d then some (valueOf [c, d], rest) else none
  | _ => none

/-- An offset from universal time in seconds, and what follows it. -/
def readOffset (text : List Char) : Option (Int × List Char) :=
  let signed (sign : Int) (rest : List Char) : Option (Int × List Char) := do
    let (hours, rest) ← readTwoDigits rest
    let (minutes, rest) ← readTwoDigits (rest.dropWhile isOffsetSeparator)
    if minutes < 60 ∧ hours < 24 then some (sign * (3600 * hours + 60 * minutes : Nat), rest)
    else none
  match text with
  | '+' :: rest => signed 1 rest
  | '-' :: rest => signed (-1) rest
  | '\u2212' :: rest => signed (-1) rest
  | c :: rest =>
    if c = 'Z' ∨ c = 'z' then some (0, rest)
    else if (text.take 3).map Char.toUpper = ['U', 'T', 'C'] then some (0, text.drop 3)
    else none
  | [] => none

/-- The instant that a timestamp names, if the text is one. -/
def readTimestamp (text : List Char) : Option Instant := do
  let (date, rest) ← readDate text
  let rest ← match rest with
    | c :: rest => if c = 'T' ∨ c = 't' ∨ c = ' ' then some rest else none
    | [] => none
  let ((seconds, nano), rest) ← readTime rest
  let (offset, rest) ← readOffset (dropBlanks rest)
  -- The calendar has to have the instant both as it is stated and without the offset.
  let stated ← Instant.ofParts? (date.toDays * secondsPerDay + seconds) nano
  if (dropBlanks rest).isEmpty then Instant.ofParts? (stated.second - offset) nano else none

instance : Document Instant where
  encode instant := .str instant.timestamp
  decode
    | .str text => readTimestamp text.toList
    | _ => none

end AccessBroker.Time
