import AccessBroker.Proofs.SpanNotation

/-!
# How exact spans are

Of the digits behind a point the first eighteen count, and what they are worth is rounded down. So a
component may come out below what is written in two ways, by the digits that are cut off and by the
rounding. What is written is worth an exact fraction (`AccessBroker.Span.Component.exact`), and the
question is whether the reader gives its whole part.

The eighteenth digit counts in steps, `10 ^ 18` of them to a unit. In lowest terms a number of steps
(`AccessBroker.Span.TimeUnit.cycle`) makes a number of nanoseconds
(`AccessBroker.Span.TimeUnit.weight`). For units up to a second this is one nanosecond, so whatever
is left of a nanosecond is left in whole steps, and the digits behind the eighteenth, which make
less than one, never complete it. For minutes and hours it is three and nine nanoseconds, and then
they may (`AccessBroker.Span.Component.Completes`). The reader gives the whole part except for these
components, where it gives one nanosecond less (`AccessBroker.Span.whole_part_iff`).
-/

namespace AccessBroker.Span

open AccessBroker.Text

/-! ### What is written -/

/-- The nanoseconds that are written, with nothing cut off and nothing rounded. -/
def Component.exact (component : Component) : ℚ :=
  (decimal component.whole + decimal component.fraction / 10 ^ component.fraction.length) *
    component.unit.nanos

/-- What the digits behind the eighteenth are worth, as a part of one step of the eighteenth. -/
def cutOff (fraction : List Char) : ℚ :=
  decimal (fraction.drop 18) / 10 ^ (fraction.drop 18).length

namespace TimeUnit

/-- The least number of steps of the eighteenth digit that makes whole nanoseconds. -/
def cycle : TimeUnit → Nat
  | nanosecond => 10 ^ 18
  | microsecond => 10 ^ 15
  | millisecond => 10 ^ 12
  | second => 10 ^ 9
  | minute => 5 * 10 ^ 7
  | hour => 25 * 10 ^ 5

/-- The number of nanoseconds that it makes. -/
def weight : TimeUnit → Nat
  | nanosecond | microsecond | millisecond | second => 1
  | minute => 3
  | hour => 9

theorem nanos_mul_cycle (unit : TimeUnit) : unit.nanos * unit.cycle = unit.weight * 10 ^ 18 := by
  cases unit <;> decide

/-- Up to a second a number of steps makes one nanosecond. -/
theorem weight_eq_one {unit : TimeUnit} (hminute : unit ≠ .minute) (hhour : unit ≠ .hour) :
    unit.weight = 1 := by
  cases unit with
  | nanosecond | microsecond | millisecond | second => rfl
  | minute => exact absurd rfl hminute
  | hour => exact absurd rfl hhour

theorem weight_le_cycle (unit : TimeUnit) : unit.weight ≤ unit.cycle := by
  cases unit <;> decide

theorem cycle_pos (unit : TimeUnit) : 0 < unit.cycle := by
  cases unit <;> decide

end TimeUnit

/-- **The digits behind the eighteenth complete a nanosecond**: the first eighteen fall short of a
whole number of nanoseconds by a little, and these make up for it. What is missing is counted in
parts of a nanosecond, `unit.cycle` of them to one. -/
def Component.Completes (component : Component) : Prop :=
  ∃ missing : Nat, 0 < missing ∧
    component.unit.cycle ∣
      component.unit.weight * decimal (component.fraction.take 18) + missing ∧
    missing ≤ component.unit.weight * cutOff component.fraction

/-! ### Digits -/

variable {digits more fraction : List Char}

theorem decimal_append (digits more : List Char) :
    decimal (digits ++ more) = decimal digits * 10 ^ more.length + decimal more := by
  rw [decimal, List.reverse_append, List.map_append, Nat.ofDigits_append, List.length_map,
    List.length_reverse, Nat.add_comm, Nat.mul_comm]
  rfl

/-- **The digits that count and those that are cut off** make up the fraction. -/
theorem decimal_div_eq (fraction : List Char) :
    (decimal fraction / 10 ^ fraction.length : ℚ) =
      (decimal (fraction.take 18) + cutOff fraction) / 10 ^ (fraction.take 18).length := by
  have hvalue := decimal_append (fraction.take 18) (fraction.drop 18)
  have hlength : fraction.length = (fraction.take 18).length + (fraction.drop 18).length := by
    rw [← List.length_append, List.take_append_drop]
  rw [List.take_append_drop] at hvalue
  rw [hvalue, hlength, cutOff, pow_add]
  push_cast
  field_simp

theorem cutOff_nonneg (fraction : List Char) : 0 ≤ cutOff fraction := by
  unfold cutOff
  positivity

theorem cutOff_lt_one (h : ∀ c ∈ fraction, isDigit c = true) : cutOff fraction < 1 := by
  have hlt := decimal_lt (fraction.drop 18) fun c hc => h c (List.mem_of_mem_drop hc)
  rw [cutOff, div_lt_one (by positivity)]
  exact_mod_cast hlt

theorem cutOff_of_short (h : fraction.length ≤ 18) : cutOff fraction = 0 := by
  rw [cutOff, List.drop_eq_nil_of_le h]
  norm_num [decimal]

/-! ### Rounding -/

section Rounding

variable {steps cycle : Nat} {extra : ℚ}

/-- A little more than some steps has the same whole part as long as no missing step is reached. -/
theorem floor_div_of_missing (hcycle : 0 < cycle) (hextra : 0 ≤ extra)
    (h : ∀ missing : Nat, 0 < missing → cycle ∣ steps + missing → extra < missing) :
    ⌊(steps + extra) / cycle⌋₊ = steps / cycle := by
  have hpos : (0 : ℚ) < cycle := by exact_mod_cast hcycle
  have hrest := Nat.mod_lt steps hcycle
  have hparts := Nat.div_add_mod steps cycle
  have hshort : extra < ((cycle - steps % cycle : Nat) : ℚ) := by
    refine h _ (by omega) ⟨steps / cycle + 1, ?_⟩
    rw [Nat.mul_add, Nat.mul_one]
    omega
  have hsteps : (steps : ℚ) = cycle * (steps / cycle : Nat) + (steps % cycle : Nat) := by
    exact_mod_cast hparts.symm
  rw [Nat.cast_sub hrest.le] at hshort
  rw [Nat.floor_eq_iff (by positivity), le_div_iff₀ hpos, div_lt_iff₀ hpos, hsteps]
  have hleft : (0 : ℚ) ≤ (steps % cycle : Nat) := Nat.cast_nonneg _
  constructor <;> linarith

/-- It has the next one if a missing step is reached. -/
theorem floor_div_of_reached {missing : Nat} (hextra : extra < cycle) (hmissing : 0 < missing)
    (hwhole : cycle ∣ steps + missing) (hreached : missing ≤ extra) :
    ⌊(steps + extra) / cycle⌋₊ = steps / cycle + 1 := by
  have hpos : (0 : ℚ) < cycle := lt_of_le_of_lt ((Nat.cast_nonneg _).trans hreached) hextra
  have hcycle : 0 < cycle := by exact_mod_cast hpos
  obtain ⟨whole, hwhole⟩ := hwhole
  have hnext : cycle * (steps / cycle + 1) ≤ steps + missing := by
    have hbelow : cycle * (steps / cycle) < cycle * whole := by
      have hdown := Nat.mul_div_le steps cycle
      omega
    rw [hwhole]
    exact Nat.mul_le_mul_left cycle (Nat.lt_of_mul_lt_mul_left hbelow)
  have habove : steps < cycle * (steps / cycle + 1) := Nat.lt_mul_div_succ steps hcycle
  have hnext : (cycle : ℚ) * ((steps / cycle : Nat) + 1) ≤ steps + missing := by
    exact_mod_cast hnext
  have habove : (steps : ℚ) < cycle * ((steps / cycle : Nat) + 1) := by exact_mod_cast habove
  have hnonneg : 0 ≤ extra := (Nat.cast_nonneg _).trans hreached
  rw [Nat.floor_eq_iff (by positivity), le_div_iff₀ hpos, div_lt_iff₀ hpos]
  push_cast
  constructor <;> linarith

end Rounding

/-! ### Components -/

namespace Component

variable (component : Component)

theorem isDigit_of_mem_fraction : ∀ c ∈ component.fraction, isDigit c = true :=
  fun c hc => component.digits c (List.mem_append_right _ hc)

/-- What completes a nanosecond is behind the eighteenth digit of minutes or hours. -/
theorem Completes.place {component : Component} (h : component.Completes) :
    18 < component.fraction.length ∧ (component.unit = .minute ∨ component.unit = .hour) := by
  obtain ⟨missing, hmissing, -, hreached⟩ := h
  have hmissing : (1 : ℚ) ≤ missing := by exact_mod_cast hmissing
  constructor
  · by_contra hshort
    rw [cutOff_of_short (Nat.not_lt.1 hshort), mul_zero] at hreached
    linarith
  · have hlt := cutOff_lt_one component.isDigit_of_mem_fraction
    by_contra hother
    obtain ⟨hminute, hhour⟩ := not_or.1 hother
    have hweight : component.unit.weight = 1 := TimeUnit.weight_eq_one hminute hhour
    rw [hweight, Nat.cast_one, one_mul] at hreached
    linarith

/-- The whole part of what is written is that of the digits behind the point, on top of the digits
before it. -/
theorem floor_exact : ⌊component.exact⌋₊ = decimal component.whole * component.unit.nanos +
    ⌊(decimal component.fraction / 10 ^ component.fraction.length : ℚ) *
      component.unit.nanos⌋₊ := by
  have hsum : component.exact =
      (decimal component.fraction / 10 ^ component.fraction.length : ℚ) * component.unit.nanos +
        (decimal component.whole * component.unit.nanos : ℕ) := by
    rw [exact]
    push_cast
    ring
  rw [hsum, Nat.floor_add_natCast (by positivity), Nat.add_comm]

/-- With more than eighteen digits the fraction is worth whole and cut steps in lowest terms. -/
theorem fraction_mul_nanos (h : 18 ≤ component.fraction.length) :
    (decimal component.fraction / 10 ^ component.fraction.length : ℚ) * component.unit.nanos =
      ((component.unit.weight * decimal (component.fraction.take 18) : ℕ) +
        component.unit.weight * cutOff component.fraction) / component.unit.cycle := by
  have hcycle : (component.unit.cycle : ℚ) ≠ 0 := by exact_mod_cast component.unit.cycle_pos.ne'
  have hlowest : (component.unit.nanos : ℚ) * component.unit.cycle =
      component.unit.weight * 10 ^ 18 := by
    exact_mod_cast component.unit.nanos_mul_cycle
  rw [decimal_div_eq, List.length_take_of_le h, eq_div_iff hcycle, mul_assoc, hlowest]
  push_cast
  field_simp

/-- The steps that count make their whole nanoseconds. -/
theorem floor_share (h : 18 ≤ component.fraction.length) :
    ⌊share component.fraction * component.unit.nanos⌋₊ =
      component.unit.weight * decimal (component.fraction.take 18) / component.unit.cycle := by
  have hcycle : (component.unit.cycle : ℚ) ≠ 0 := by exact_mod_cast component.unit.cycle_pos.ne'
  have hlowest : (component.unit.nanos : ℚ) * component.unit.cycle =
      component.unit.weight * 10 ^ 18 := by
    exact_mod_cast component.unit.nanos_mul_cycle
  have hshare : share component.fraction * component.unit.nanos =
      ((component.unit.weight * decimal (component.fraction.take 18) : ℕ) : ℚ) /
        (component.unit.cycle : ℕ) := by
    rw [share, List.length_take_of_le h, eq_div_iff hcycle, mul_assoc, hlowest]
    push_cast
    field_simp
  rw [hshare, Nat.floor_div_eq_div]

/-- **What is cut off is lost only if it completes a nanosecond**, and then it is that one. -/
theorem floor_exact_eq [Decidable component.Completes] :
    ⌊component.exact⌋₊ = component.worth + if component.Completes then 1 else 0 := by
  rw [floor_exact, worth, Nat.add_assoc]
  congr 1
  by_cases hlong : 18 ≤ component.fraction.length
  · rw [component.floor_share hlong, component.fraction_mul_nanos hlong]
    have hcut := cutOff_nonneg component.fraction
    have hweight : (0 : ℚ) ≤ component.unit.weight * cutOff component.fraction := by positivity
    split
    · next hcompletes =>
      obtain ⟨missing, hmissing, hwhole, hreached⟩ := hcompletes
      refine floor_div_of_reached ?_ hmissing hwhole hreached
      have hlt := cutOff_lt_one component.isDigit_of_mem_fraction
      have hcycle : (component.unit.weight : ℚ) ≤ component.unit.cycle := by
        exact_mod_cast component.unit.weight_le_cycle
      have hpos : (0 : ℚ) < component.unit.cycle := by exact_mod_cast component.unit.cycle_pos
      calc component.unit.weight * cutOff component.fraction
          ≤ component.unit.cycle * cutOff component.fraction :=
            mul_le_mul_of_nonneg_right hcycle hcut
        _ < component.unit.cycle * 1 := mul_lt_mul_of_pos_left hlt hpos
        _ = component.unit.cycle := mul_one _
    · next hopen =>
      rw [Nat.add_zero]
      refine floor_div_of_missing component.unit.cycle_pos hweight fun missing hmissing hwhole => ?_
      exact lt_of_not_ge fun hreached => hopen ⟨missing, hmissing, hwhole, hreached⟩
  · rw [if_neg fun hcompletes => hlong hcompletes.place.1.le, Nat.add_zero, share,
      List.take_of_length_le (Nat.not_le.1 hlong).le]

end Component

/-! ### The whole part -/

/-- A component is a span of its own. -/
theorem means_text (component : Component) :
    Means (String.ofList component.text) component.worth := by
  have hspells : Spells ([] ++ textOf [component]) (total [component]) :=
    .sum (.inl rfl) (List.cons_ne_nil _ _)
  rw [List.nil_append, textOf_cons, total_cons] at hspells
  refine ⟨[], component.text, [], ?_, nofun, ?_⟩
  · rw [String.toList_ofList, List.nil_append, List.append_nil]
  · rwa [show textOf [] = [] from rfl, List.append_nil, show total [] = 0 from rfl,
      Nat.add_zero] at hspells

/-- What a text means is what is read, if it can be held. -/
theorem parse_of_means {text : String} {nanos : Nat} (h : Means text nanos)
    (hheld : nanos < bound) : parse text = .ok nanos := by
  rw [parse, read_eq_ok_iff.2 ⟨h, hheld⟩]

/-- **A component is read as the whole part of what is written** if and only if the digits behind
the eighteenth do not complete a nanosecond. They do so only for minutes and hours, and then it is
read as one nanosecond less. It is read so wherever it stands, alone or in front of other
components. -/
theorem whole_part_iff (component : Component) (hheld : ⌊component.exact⌋₊ < 2 ^ 63) :
    ∃ nanos, parse (String.ofList component.text) = .ok nanos ∧
      (∀ rest, Opens rest → readComponent (component.text ++ rest) = .ok (nanos, rest)) ∧
      (nanos = ⌊component.exact⌋₊ ↔ ¬component.Completes) ∧
      (component.Completes → nanos + 1 = ⌊component.exact⌋₊ ∧ 18 < component.fraction.length ∧
        (component.unit = .minute ∨ component.unit = .hour)) := by
  classical
  have hexact := component.floor_exact_eq
  have hworth : component.worth < bound := by
    have hbound : bound = 2 ^ 63 := rfl
    omega
  refine ⟨component.worth, parse_of_means (means_text component) hworth, fun rest hrest => ?_, ?_,
    fun hcompletes => ⟨?_, hcompletes.place⟩⟩
  · have hsum : bound ≤ sumBound := by decide
    rw [readComponent_text component hrest, bounded_of_lt (by omega)]
    rfl
  · rw [hexact]
    split
    · next hcompletes =>
      exact ⟨fun hsame => absurd hsame.symm (Nat.succ_ne_self _),
        fun hopen => absurd hcompletes hopen⟩
    · next hopen => exact ⟨fun _ => hopen, fun _ => rfl⟩
  · rw [hexact, if_pos hcompletes]

namespace Scenario

/-- A little more than four nanoseconds, of which the last digit makes up the fourth. -/
def nines : Component where
  whole := ['0']
  fraction? := some "0000000000011111112".toList
  unit := .hour
  spelling := "h"
  digits := List.all_eq_true.1 (by decide)
  hasDigit := by decide
  spelled := by decide

/-- A little more than two nanoseconds, of which the last digit makes up the second. -/
def thirds : Component where
  whole := ['0']
  fraction? := some "0000000000333333334".toList
  unit := .minute
  spelling := "m"
  digits := List.all_eq_true.1 (by decide)
  hasDigit := by decide
  spelled := by decide

theorem exact_nines : nines.exact = 400000032 / 10 ^ 8 := by
  have hdigits : decimal nines.fraction = 11111112 := by decide
  have hwhole : decimal nines.whole = 0 := by decide
  have hlength : nines.fraction.length = 19 := by decide
  have hunit : nines.unit.nanos = 3600000000000 := rfl
  rw [Component.exact, hdigits, hwhole, hlength, hunit]
  norm_num

theorem exact_thirds : thirds.exact = 2000000004 / 10 ^ 9 := by
  have hdigits : decimal thirds.fraction = 333333334 := by decide
  have hwhole : decimal thirds.whole = 0 := by decide
  have hlength : thirds.fraction.length = 19 := by decide
  have hunit : thirds.unit.nanos = 60000000000 := rfl
  rw [Component.exact, hdigits, hwhole, hlength, hunit]
  norm_num

end Scenario

/-- Four nanoseconds in hours are read as three. -/
theorem whole_part_nines : ⌊Scenario.nines.exact⌋₊ < 2 ^ 63 ∧ Scenario.nines.Completes ∧
    parse "0.0000000000011111112h" = .ok 3 ∧ ⌊Scenario.nines.exact⌋₊ = 3 + 1 := by
  have hheld : ⌊Scenario.nines.exact⌋₊ < 2 ^ 63 := by
    rw [Scenario.exact_nines]
    norm_num
  have hcompletes : Scenario.nines.Completes := by
    refine ⟨1, by decide, by decide, ?_⟩
    have hcut : decimal (Scenario.nines.fraction.drop 18) = 2 := by decide
    have hlength : (Scenario.nines.fraction.drop 18).length = 1 := by decide
    have hweight : Scenario.nines.unit.weight = 9 := rfl
    rw [cutOff, hcut, hlength, hweight]
    norm_num
  obtain ⟨nanos, hparse, -, -, hless⟩ := whole_part_iff Scenario.nines hheld
  have hread : parse "0.0000000000011111112h" = .ok nanos := hparse
  have hthree : parse "0.0000000000011111112h" = .ok 3 := by rfl
  obtain rfl : nanos = 3 := Except.ok.inj (hread.symm.trans hthree)
  exact ⟨hheld, hcompletes, hthree, (hless hcompletes).1.symm⟩

/-- **Digits behind the eighteenth can add a nanosecond** that the reader does not give. -/
theorem cut_not_exact : String.ofList Scenario.thirds.text = "0.0000000000333333334m" ∧
    ⌊Scenario.thirds.exact⌋₊ = 2 ∧ parse "0.0000000000333333334m" = .ok 1 := by
  refine ⟨by rfl, ?_, by rfl⟩
  rw [Scenario.exact_thirds, Nat.floor_eq_iff (by norm_num)]
  norm_num

end AccessBroker.Span
