import AccessBroker.Proofs.Time.Calendar
import AccessBroker.Time.Timestamp
import Mathlib.Algebra.Group.Nat.Defs

/-!
# Timestamps are read back

A timestamp is read from the front, one part after the other, and each part ends where the next one
begins: a number in front of something that is no digit, or at the greatest length that is read. So
what is written for an instant is read as that instant
(`AccessBroker.Time.readTimestamp_timestampChars`). The parts that are written in more than one way
are the year, which has a sign only if it needs one, and the fraction, which ends with its last
three digits that are not all zero.
-/

namespace AccessBroker

open AccessBroker.Time

namespace Text

variable {digits rest : List Char} {c : Char}

/-! ### Digits -/

theorem isDigit_digitOf {n : Nat} (h : n < 10) : isDigit (digitOf n) = true := by
  have hall : ∀ n < 10, isDigit (digitOf n) = true := by decide
  exact hall n h

theorem digitValue_digitOf {n : Nat} (h : n < 10) : digitValue (digitOf n) = n := by
  have hall : ∀ n < 10, digitValue (digitOf n) = n := by decide
  exact hall n h

/-- What is written with a fixed count of digits consists of digits. -/
theorem isDigit_of_mem_fixedDigits {width n : Nat} (h : c ∈ fixedDigits width n) :
    isDigit c = true := by
  induction width generalizing n with
  | zero => cases h
  | succ width ih =>
    rcases List.mem_append.1 h with hfront | hlast
    · exact ih hfront
    · rw [List.mem_singleton.1 hlast]
      exact isDigit_digitOf (Nat.mod_lt n (by decide))

theorem valueOf_concat (digits : List Char) (c : Char) :
    valueOf (digits ++ [c]) = 10 * valueOf digits + digitValue c := by
  rw [valueOf, valueFrom, List.foldl_append]
  rfl

/-- **A number is read back from its digits**, if they are enough. -/
theorem valueOf_fixedDigits {width n : Nat} (h : n < 10 ^ width) :
    valueOf (fixedDigits width n) = n := by
  induction width generalizing n with
  | zero =>
    have hzero : n = 0 := by omega
    rw [hzero]
    rfl
  | succ width ih =>
    have hfront : n / 10 < 10 ^ width := by
      rw [Nat.pow_succ] at h
      omega
    rw [fixedDigits, valueOf_concat, ih hfront, digitValue_digitOf (Nat.mod_lt n (by decide))]
    omega

theorem isBlank_of_isDigit (h : isDigit c = true) : isBlank c = false := by
  rw [isDigit, Bool.and_eq_true, decide_eq_true_eq, decide_eq_true_eq] at h
  simp only [isBlank, Bool.or_eq_false_iff, Bool.and_eq_false_iff, decide_eq_false_iff_not,
    beq_eq_false_iff_ne]
  omega

/-! ### Cutting digits off -/

/-- What follows is no digit. -/
def Ends (rest : List Char) : Prop :=
  ∀ c, rest.head? = some c → isDigit c = false

theorem takeWhile_of_ends (h : Ends rest) : rest.takeWhile isDigit = [] := by
  cases rest with
  | nil => rfl
  | cons c rest => rw [List.takeWhile_cons, h c rfl]; rfl

/-- **All digits in front are cut off.** -/
theorem cutDigits_digits (hdigits : ∀ c ∈ digits, isDigit c = true) (hrest : Ends rest) :
    cutDigits (digits ++ rest) = (digits, rest) := by
  have hfront : (cutDigits (digits ++ rest)).1 = digits := by
    rw [cutDigits, List.takeWhile_append_of_pos hdigits, takeWhile_of_ends hrest, List.append_nil]
  have hback := cutDigits_append (digits ++ rest)
  rw [hfront] at hback
  exact Prod.ext hfront (List.append_cancel_left hback)

/-- **As many digits as are read are cut off**, or all that there are. -/
theorem cutDigitsUpTo_digits {limit : Nat} (hdigits : ∀ c ∈ digits, isDigit c = true)
    (hlimit : digits.length = limit ∨ digits.length ≤ limit ∧ Ends rest) :
    cutDigitsUpTo limit (digits ++ rest) = (digits, rest) := by
  have hle : digits.length ≤ limit := by
    rcases hlimit with hsame | ⟨hle, -⟩
    · exact Nat.le_of_eq hsame
    · exact hle
  have hends : Ends (rest.take (limit - digits.length)) := by
    rcases hlimit with rfl | ⟨-, hrest⟩
    · rw [Nat.sub_self]
      exact fun c hc => by cases hc
    · intro c hc
      refine hrest c ?_
      rw [List.head?_take] at hc
      split at hc
      · cases hc
      · exact hc
  have hcut : ((digits ++ rest).take limit).takeWhile isDigit = digits := by
    rw [List.take_append, List.take_of_length_le hle, List.takeWhile_append_of_pos hdigits,
      takeWhile_of_ends hends, List.append_nil]
  rw [cutDigitsUpTo, hcut, List.drop_left]

theorem dropBlanks_cons (h : isBlank c = false) (rest : List Char) :
    dropBlanks (c :: rest) = c :: rest := by
  rw [dropBlanks, List.dropWhile_cons, h]
  rfl

theorem exists_cons_fixedDigits (width n : Nat) :
    ∃ c digits, fixedDigits (width + 1) n = c :: digits :=
  List.exists_cons_of_length_pos (by rw [length_fixedDigits]; exact Nat.succ_pos width)

theorem isEmpty_fixedDigits (width n : Nat) : (fixedDigits (width + 1) n).isEmpty = false := by
  obtain ⟨c, digits, hdigits⟩ := exists_cons_fixedDigits width n
  rw [hdigits]
  rfl

/-- In front of digits there are no blanks. -/
theorem dropBlanks_fixedDigits (width n : Nat) (rest : List Char) :
    dropBlanks (fixedDigits (width + 1) n ++ rest) = fixedDigits (width + 1) n ++ rest := by
  obtain ⟨c, digits, hdigits⟩ := exists_cons_fixedDigits width n
  have hc : isDigit c = true :=
    isDigit_of_mem_fixedDigits (hdigits ▸ List.mem_cons_self : c ∈ fixedDigits (width + 1) n)
  rw [hdigits]
  exact dropBlanks_cons (isBlank_of_isDigit hc) _

end Text

namespace Time

open AccessBroker.Text

variable {rest : List Char}

/-! ### The date -/

/-- **A number is read back from as many digits as are read.** -/
theorem readNumber_fixedDigits {width n : Nat} (h : n < 10 ^ (width + 1)) (rest : List Char) :
    readNumber (width + 1) (fixedDigits (width + 1) n ++ rest) = some (n, rest) := by
  have hcut : cutDigitsUpTo (width + 1) (fixedDigits (width + 1) n ++ rest) =
      (fixedDigits (width + 1) n, rest) :=
    cutDigitsUpTo_digits (fun _ => isDigit_of_mem_fixedDigits) (.inl (length_fixedDigits _ n))
  rw [readNumber, dropBlanks_fixedDigits, hcut]
  dsimp only
  rw [isEmpty_fixedDigits, valueOf_fixedDigits h]
  rfl

theorem readSeparator_cons {c : Char} (h : isBlank c = false) (rest : List Char) :
    readSeparator c (c :: rest) = some rest := by
  rw [readSeparator, dropBlanks_cons h, expect, if_pos rfl]

/-- What a year is read as when it has a sign. -/
theorem readYear_signed {width n : Nat} (h : n < 10 ^ (width + 1)) (hrest : Ends rest) :
    readYear ('-' :: fixedDigits (width + 1) n ++ rest) = some (-(n : Int), rest) ∧
      readYear ('+' :: fixedDigits (width + 1) n ++ rest) = some ((n : Int), rest) := by
  have hcut : cutDigits (fixedDigits (width + 1) n ++ rest) = (fixedDigits (width + 1) n, rest) :=
    cutDigits_digits (fun _ => isDigit_of_mem_fixedDigits) hrest
  have hread (sign : Int) : (if (cutDigits (fixedDigits (width + 1) n ++ rest)).1.isEmpty then none
      else some (sign * valueOf (cutDigits (fixedDigits (width + 1) n ++ rest)).1,
        (cutDigits (fixedDigits (width + 1) n ++ rest)).2)) = some (sign * n, rest) := by
    rw [hcut]
    dsimp only
    rw [isEmpty_fixedDigits, valueOf_fixedDigits h]
    rfl
  constructor
  · rw [← Int.neg_one_mul]
    exact hread (-1)
  · rw [← Int.one_mul (n : Int)]
    exact hread 1

/-- What a year is read as when it has no sign. -/
theorem readYear_unsigned {n : Nat} (h : n < 10000) (rest : List Char) :
    readYear (fixedDigits 4 n ++ rest) = some ((n : Int), rest) := by
  have hread : readNumber 4 (fixedDigits 4 n ++ rest) = some (n, rest) :=
    readNumber_fixedDigits h rest
  have hdrop : dropBlanks (fixedDigits 4 n ++ rest) = fixedDigits 4 n ++ rest :=
    dropBlanks_fixedDigits 3 n rest
  have hdigit (c : Char) (tail : List Char) (heq : fixedDigits 4 n ++ rest = c :: tail) :
      isDigit c = true := by
    obtain ⟨d, digits, hdigits⟩ := exists_cons_fixedDigits 3 n
    rw [hdigits, List.cons_append] at heq
    rw [← (List.cons.inj heq).1]
    exact isDigit_of_mem_fixedDigits (hdigits ▸ List.mem_cons_self)
  rw [readYear, hdrop]
  split
  · next heq => exact absurd (hdigit _ _ heq) (by decide)
  · next heq => exact absurd (hdigit _ _ heq) (by decide)
  · rw [hread]
    rfl

/-- **A year is read back.** -/
theorem readYear_yearChars {year : Int} (h : year.natAbs < 1000000) (hrest : Ends rest) :
    readYear (yearChars year ++ rest) = some (year, rest) := by
  obtain ⟨width, hwidth, hfits, hshort⟩ : ∃ width,
      (if year.natAbs < 10000 then 4 else if year.natAbs < 100000 then 5 else 6) = width + 1 ∧
        year.natAbs < 10 ^ (width + 1) ∧ (year.natAbs < 10000 → width = 3) := by
    split
    · next hfour => exact ⟨3, rfl, hfour, fun _ => rfl⟩
    · next hfour =>
      split
      · next hfive => exact ⟨4, rfl, hfive, fun hlt => absurd hlt hfour⟩
      · exact ⟨5, rfl, h, fun hlt => absurd hlt hfour⟩
  obtain ⟨hminus, hplus⟩ := readYear_signed hfits hrest
  unfold yearChars
  dsimp only
  rw [hwidth]
  split
  · rw [hminus, Int.ofNat_natAbs_of_nonpos (by omega), Int.neg_neg]
  · next hnonneg =>
    have hsize : (year.natAbs : Int) = year := Int.natAbs_of_nonneg (by omega)
    split
    · rw [hplus, hsize]
    · obtain rfl := hshort (by omega)
      rw [readYear_unsigned hfits, hsize]

/-- **A date is read back.** -/
theorem readDate_chars {date : Date} (hvalid : date.IsValid) (hyear : date.year.natAbs < 1000000)
    (rest : List Char) :
    readDate (yearChars date.year ++ ('-' :: (fixedDigits 2 date.month ++
      ('-' :: (fixedDigits 2 date.day ++ rest))))) = some (date, rest) := by
  have hmonth : date.month < 10 ^ 2 := by
    have := hvalid.2.1
    omega
  have hday : date.day < 10 ^ 2 := by
    have hle := hvalid.2.2.2
    unfold daysInMonth at hle
    split at hle <;> split at hle <;> omega
  have hends (tail : List Char) : Ends ('-' :: tail) := by
    intro c hc
    cases hc
    decide
  rw [readDate, readYear_yearChars hyear (hends _)]
  have hhyphen : isBlank '-' = false := by decide
  simp only [Option.bind_eq_bind, Option.bind_some, readSeparator_cons hhyphen,
    readNumber_fixedDigits hmonth, readNumber_fixedDigits hday]
  rw [if_pos hvalid]

/-! ### The time of the day -/

/-- What a fraction is read as, up to the digits that it has not. -/
theorem readFraction_digits {width n : Nat} (h : n < 10 ^ (width + 1)) (hwidth : width < 9)
    (hrest : Ends rest) :
    readFraction ('.' :: (fixedDigits (width + 1) n ++ rest)) =
      some (n * 10 ^ (9 - (width + 1)), rest) := by
  have hcut : cutDigitsUpTo 9 (fixedDigits (width + 1) n ++ rest) =
      (fixedDigits (width + 1) n, rest) :=
    cutDigitsUpTo_digits (fun _ => isDigit_of_mem_fixedDigits)
      (.inr ⟨by rw [length_fixedDigits]; exact hwidth, hrest⟩)
  have hpast : cutDigits ([] ++ rest) = ([], rest) :=
    cutDigits_digits (fun c hc => absurd hc List.not_mem_nil) hrest
  rw [List.nil_append] at hpast
  rw [readFraction]
  rw [hcut]
  dsimp only
  rw [isEmpty_fixedDigits, valueOf_fixedDigits h, length_fixedDigits, hpast]
  rfl

/-- **A fraction is read back.** -/
theorem readFraction_fractionChars {nano : Nat} (h : nano < 1000000000) (rest : List Char) :
    readFraction (fractionChars nano ++ 'Z' :: rest) = some (nano, 'Z' :: rest) := by
  have hends : Ends ('Z' :: rest) := by
    intro c hc
    cases hc
    decide
  unfold fractionChars
  split
  · next hzero =>
    rw [hzero]
    rfl
  · split
    · rw [List.cons_append, readFraction_digits (by omega) (by decide) hends]
      have hvalue : nano / 1000000 * 10 ^ (9 - 3) = nano := by omega
      exact congrArg (fun nano => some (nano, 'Z' :: rest)) hvalue
    · split
      · rw [List.cons_append, readFraction_digits (by omega) (by decide) hends]
        have hvalue : nano / 1000 * 10 ^ (9 - 6) = nano := by omega
        exact congrArg (fun nano => some (nano, 'Z' :: rest)) hvalue
      · rw [List.cons_append, readFraction_digits h (by decide) hends]
        have hvalue : nano * 10 ^ (9 - 9) = nano := by omega
        exact congrArg (fun nano => some (nano, 'Z' :: rest)) hvalue

/-- **A time of the day is read back**; a leap second is read as one. -/
theorem readTime_chars {second leap nano : Nat} (hsecond : second < 86400) (hleap : leap ≤ 1)
    (hlast : leap = 1 → second % 60 = 59) (hnano : nano < 1000000000) (rest : List Char) :
    readTime (fixedDigits 2 (second / 3600) ++ (':' :: (fixedDigits 2 (second / 60 % 60) ++
      (':' :: (fixedDigits 2 (second % 60 + leap) ++ (fractionChars nano ++ 'Z' :: rest)))))) =
      some ((second, nano + 1000000000 * leap), 'Z' :: rest) := by
  have hhour : second / 3600 < 10 ^ 2 := by omega
  have hminute : second / 60 % 60 < 10 ^ 2 := by omega
  have hshown : second % 60 + leap < 10 ^ 2 := by omega
  rw [readTime, readNumber_fixedDigits hhour]
  have hcolon : isBlank ':' = false := by decide
  simp only [Option.bind_eq_bind, Option.bind_some, readSeparator_cons hcolon,
    readNumber_fixedDigits hminute, readNumber_fixedDigits hshown, readFraction_fractionChars hnano]
  rw [if_pos (by omega)]
  have hseconds : 3600 * (second / 3600) + 60 * (second / 60 % 60) + min (second % 60 + leap) 59 =
      second := by omega
  have hnanos : (if second % 60 + leap = 60 then nano + 1000000000 else nano) =
      nano + 1000000000 * leap := by
    split <;> omega
  rw [hseconds, hnanos]

/-! ### The whole -/

/-- The years of the calendar have at most six digits. -/
theorem natAbs_year_lt (instant : Instant) :
    (Date.ofDays (instant.second / secondsPerDay)).year.natAbs < 1000000 := by
  have hfirst : (-8334601228800 : Int) ≤ instant.second := instant.first_le
  have hlast : instant.second ≤ 8210266876799 := instant.le_last
  have hdays := Date.toDays_ofDays (instant.second / secondsPerDay)
  obtain ⟨-, -, -, hday⟩ := Date.isValid_ofDays (instant.second / secondsPerDay)
  have hmonths : daysInMonth (Date.ofDays (instant.second / secondsPerDay)).year
      (Date.ofDays (instant.second / secondsPerDay)).month ≤ 31 := by
    unfold daysInMonth
    split <;> split <;> decide
  generalize Date.ofDays (instant.second / secondsPerDay) = date at *
  simp only [Date.toDays, secondsPerDay, daysBeforeYear, daysBeforeMonth, daysToEpoch] at hdays
  split at hdays <;> omega

/-- **What is written for an instant is read as that instant.** -/
theorem readTimestamp_timestampChars (instant : Instant) :
    readTimestamp (timestampChars instant) = some instant := by
  obtain ⟨second, hsecond⟩ : ∃ second, (instant.second % secondsPerDay).toNat = second := ⟨_, rfl⟩
  obtain ⟨leap, hleap⟩ : ∃ leap, (if instant.isLeap then 1 else 0) = leap := ⟨_, rfl⟩
  have hday : instant.second = instant.second / secondsPerDay * secondsPerDay + second ∧
      second < 86400 := by
    unfold secondsPerDay at *
    omega
  have hnano := instant.nano_lt
  have hlast := instant.leap
  have hparts : leap ≤ 1 ∧ (leap = 1 → second % 60 = 59) ∧
      instant.nano % 1000000000 + 1000000000 * leap = instant.nano := by
    unfold secondsPerDay at hday
    rw [Instant.isLeap] at hleap
    split at hleap
    · next hlong =>
      have hlong : 1000000000 ≤ instant.nano := of_decide_eq_true hlong
      have := hlast hlong
      omega
    · next hshort =>
      have hshort : ¬1000000000 ≤ instant.nano := fun hlong => hshort (decide_eq_true hlong)
      omega
  have hexact : Instant.ofParts? instant.second instant.nano = some instant := by
    rw [Instant.ofParts?, dif_pos ⟨⟨instant.first_le, instant.le_last⟩, hnano, hlast⟩]
  have hoffset : readOffset (dropBlanks ['Z']) = some (0, []) := by rfl
  rw [timestampChars, hsecond, hleap]
  simp only [List.append_assoc, List.cons_append]
  rw [readTimestamp, readDate_chars (Date.isValid_ofDays _) (natAbs_year_lt instant)]
  simp only [Option.bind_eq_bind, Option.bind_some, true_or, if_true,
    readTime_chars hday.2 hparts.1 hparts.2.1 (Nat.mod_lt _ (by decide)), hoffset]
  rw [hparts.2.2, Date.toDays_ofDays, ← hday.1, hexact]
  change Instant.ofParts? (instant.second - 0) instant.nano = some instant
  rw [Int.sub_zero, hexact]

end Time

end AccessBroker
