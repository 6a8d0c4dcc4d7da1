/-!
# Decimal numerals

Digits are the ten ASCII ones. This file reads the value of a run of digits
(`AccessBroker.Text.valueOf`), cuts such a run off the front of a text
(`AccessBroker.Text.cutDigits`), writes a number with a fixed count of digits
(`AccessBroker.Text.fixedDigits`), and reads a whole text as a number below a
bound (`AccessBroker.Text.readBelow`), saying what is wrong when it is none.

The last of these goes through the text from the left and stops at the first
thing that is wrong, so a text with two faults is refused for the earlier one.
-/

namespace AccessBroker.Text

/-- Is the character one of the ten ASCII digits? -/
def isDigit (c : Char) : Bool :=
  48 ≤ c.toNat && c.toNat ≤ 57

/-- The value of a digit. -/
def digitValue (c : Char) : Nat :=
  c.toNat - 48

/-- The digit of a value below ten. -/
def digitOf (n : Nat) : Char :=
  Char.ofNat (48 + n)

/-- The value that a run of digits continues to, after the value `acc` read so
far. -/
def valueFrom (acc : Nat) (digits : List Char) : Nat :=
  digits.foldl (fun value c => 10 * value + digitValue c) acc

/-- The value of a run of digits; an empty run is worth nothing. -/
def valueOf (digits : List Char) : Nat :=
  valueFrom 0 digits

/-- The digits at the front of a text, and what follows them. -/
def cutDigits (text : List Char) : List Char × List Char :=
  (text.takeWhile isDigit, text.dropWhile isDigit)

/-- At most `limit` digits from the front of a text, and what follows them. -/
def cutDigitsUpTo (limit : Nat) (text : List Char) : List Char × List Char :=
  let digits := (text.take limit).takeWhile isDigit
  (digits, text.drop digits.length)

/-- The last `width` digits of a number, zeros in front. -/
def fixedDigits : Nat → Nat → List Char
  | 0, _ => []
  | width + 1, n => fixedDigits width (n / 10) ++ [digitOf (n % 10)]

theorem length_fixedDigits (width n : Nat) : (fixedDigits width n).length = width := by
  induction width generalizing n with
  | zero => rfl
  | succ width ih => simp [fixedDigits, ih]

/-- Nothing is lost by cutting the digits off. -/
theorem cutDigits_append (text : List Char) :
    (cutDigits text).1 ++ (cutDigits text).2 = text :=
  List.takeWhile_append_dropWhile

/-! ### Numbers below a bound -/

/-- Why a text is no number below a bound. -/
inductive NumeralError where
  /-- There is nothing to read. -/
  | empty
  /-- A character is no digit. -/
  | invalidDigit
  /-- The digits read so far are worth the bound or more. -/
  | tooLarge
  deriving Repr, DecidableEq

/-- The sentence shown for a text that is no number. -/
def NumeralError.message : NumeralError → String
  | .empty => "cannot parse integer from empty string"
  | .invalidDigit => "invalid digit found in string"
  | .tooLarge => "number too large to fit in target type"

/-- Reads digits from the left onto the value `acc`, which stays below `bound`. -/
def readDigitsBelow (bound : Nat) (acc : Nat) : List Char → Except NumeralError Nat
  | [] => .ok acc
  | c :: rest =>
    if isDigit c then
      let value := 10 * acc + digitValue c
      if value < bound then readDigitsBelow bound value rest else .error .tooLarge
    else .error .invalidDigit

/-- Reads a whole text as a number below `bound`: an optional plus, then at least
one digit. A sign with nothing behind it counts as a wrong digit. -/
def readBelow (bound : Nat) (text : String) : Except NumeralError Nat :=
  match text.toList with
  | [] => .error .empty
  -- The minus needs no case of its own: it is no digit.
  | ['+'] => .error .invalidDigit
  | '+' :: digits => readDigitsBelow bound 0 digits
  | digits => readDigitsBelow bound 0 digits

end AccessBroker.Text
