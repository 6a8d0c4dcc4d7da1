import AccessBroker.Proofs.Blanks
import AccessBroker.Proofs.Time.Timestamps
import AccessBroker.Span
import Mathlib.Algebra.Order.Floor.Semifield
import Mathlib.Data.List.Induction
import Mathlib.Data.List.TakeWhile
import Mathlib.Data.Nat.Digits.Defs
import Mathlib.Data.Rat.Floor

/-!
# How spans are written

A span is written as a row of components, each a number and a unit
(`AccessBroker.Span.Component`). What a component is worth is said here with exact fractions and
without any bound (`AccessBroker.Span.Component.worth`), and `AccessBroker.Span.Means` says which
texts are spans, and of how many nanoseconds.

Nothing separates the components. A unit ends where the next digit or point begins, and no unit has
either in it, so the reader takes off a text exactly the component that was put in front
(`AccessBroker.Span.readComponent_text`), and what it takes off was put there
(`AccessBroker.Span.exists_component`). The bound for sums never hides a span that can be held,
since sums only grow, and the number of steps that the reader is given never ends it
(`AccessBroker.Span.parse_exact`).
-/

namespace AccessBroker.Span

open AccessBroker.Text

/-! ### The notation -/

/-- The units of time. -/
inductive TimeUnit where
  | nanosecond
  | microsecond
  | millisecond
  | second
  | minute
  | hour

namespace TimeUnit

/-- How a unit is written. For micro there are the plain letter, the micro sign and the Greek
letter. -/
def spellings : TimeUnit → List String
  | nanosecond => ["ns"]
  | microsecond => ["us", "\u00B5s", "\u03BCs"]
  | millisecond => ["ms"]
  | second => ["s"]
  | minute => ["m"]
  | hour => ["h"]

/-- The nanoseconds of a unit. -/
def nanos : TimeUnit → Nat
  | nanosecond => 1
  | microsecond => 1000
  | millisecond => 1000 * 1000
  | second => 1000 * 1000 * 1000
  | minute => 60 * (1000 * 1000 * 1000)
  | hour => 60 * (60 * (1000 * 1000 * 1000))

end TimeUnit

/-- The number that digits stand for, the last one counting once. -/
def decimal (digits : List Char) : Nat :=
  Nat.ofDigits 10 (digits.reverse.map digitValue)

/-- The part of one that digits behind a point stand for. The first eighteen count. -/
def share (digits : List Char) : ℚ :=
  decimal (digits.take 18) / 10 ^ (digits.take 18).length

/-- One component of a span: digits with at most one point, and a unit. -/
structure Component where
  whole : List Char
  /-- The digits behind the point, if there is a point. -/
  fraction? : Option (List Char)
  unit : TimeUnit
  spelling : String
  digits : ∀ c ∈ whole ++ fraction?.getD [], isDigit c = true
  /-- There is a digit on one side of the point. -/
  hasDigit : whole ++ fraction?.getD [] ≠ []
  spelled : spelling ∈ unit.spellings

namespace Component

/-- The digits behind the point. -/
def fraction (component : Component) : List Char :=
  component.fraction?.getD []

/-- The number as it is written. -/
def number (component : Component) : List Char :=
  component.whole ++ component.fraction?.elim [] ('.' :: ·)

/-- The component as it is written. -/
def text (component : Component) : List Char :=
  component.number ++ component.spelling.toList

/-- The nanoseconds of a component: the whole part is exact, the fraction is rounded down. -/
def worth (component : Component) : Nat :=
  decimal component.whole * component.unit.nanos +
    ⌊share component.fraction * component.unit.nanos⌋₊

end Component

/-- The text of components in a row. -/
def textOf (components : List Component) : List Char :=
  components.flatMap Component.text

/-- The nanoseconds of components together. -/
def total (components : List Component) : Nat :=
  (components.map Component.worth).sum

/-- A text without blanks around it is a span of so many nanoseconds. -/
inductive Spells : List Char → Nat → Prop
  /-- A plain zero needs no unit. -/
  | zero : Spells ['0'] 0
  /-- Components, with or without a plus in front, add up. -/
  | sum {sign : List Char} {components : List Component} (signed : sign = [] ∨ sign = ['+'])
    (some : components ≠ []) : Spells (sign ++ textOf components) (total components)

/-- A text is a span of so many nanoseconds, with blanks around it. -/
def Means (text : String) (nanos : Nat) : Prop :=
  ∃ before core after, text.toList = before ++ core ++ after ∧
    (∀ c ∈ before ++ after, isBlank c = true) ∧ Spells core nanos

/-! ### Units -/

variable {text rest left whole fraction : List Char} {c : Char} {name : String} {nanos : Nat}

/-- What follows a unit begins with a digit or a point, if there is anything. -/
def Opens (rest : List Char) : Prop :=
  ∀ c, rest.head? = some c → isNumeric c = true

/-- **The units are known by their spellings.** -/
theorem unitNanos?_eq_some_iff :
    unitNanos? name = some nanos ↔
      ∃ unit : TimeUnit, name ∈ unit.spellings ∧ unit.nanos = nanos := by
  constructor
  · intro h
    obtain ⟨⟨spelling, value⟩, hfound, rfl⟩ := Option.map_eq_some_iff.1 h
    have hname : spelling = name := by simpa using List.find?_some hfound
    have hmem : (spelling, value) ∈ units := List.mem_of_find?_eq_some hfound
    subst hname
    simp only [units, List.mem_cons, Prod.mk.injEq, List.not_mem_nil, or_false] at hmem
    rcases hmem with h | h | h | h | h | h | h | h <;> obtain ⟨rfl, rfl⟩ := h
    · exact ⟨.nanosecond, by decide, rfl⟩
    · exact ⟨.microsecond, by decide, rfl⟩
    · exact ⟨.microsecond, by decide, rfl⟩
    · exact ⟨.microsecond, by decide, rfl⟩
    · exact ⟨.millisecond, by decide, rfl⟩
    · exact ⟨.second, by decide, rfl⟩
    · exact ⟨.minute, by decide, rfl⟩
    · exact ⟨.hour, by decide, rfl⟩
  · rintro ⟨unit, hname, rfl⟩
    have hall : ∀ name ∈ unit.spellings, unitNanos? name = some unit.nanos := by
      cases unit <;> decide
    exact hall name hname

/-- A unit is made of characters that are neither blank nor part of a number. -/
theorem spelling_letters {unit : TimeUnit} (h : name ∈ unit.spellings) :
    (∀ c ∈ name.toList, isNumeric c = false ∧ isBlank c = false) ∧ name.toList ≠ [] := by
  have hall : ∀ name ∈ unit.spellings,
      (name.toList.all fun c => !isNumeric c && !isBlank c) = true ∧
        name.toList.isEmpty = false := by
    cases unit <;> decide
  obtain ⟨hletters, hsome⟩ := hall name h
  refine ⟨fun c hc => ?_, List.isEmpty_eq_false_iff.1 hsome⟩
  obtain ⟨hnumeric, hblank⟩ := Bool.and_eq_true_iff.1 (List.all_eq_true.1 hletters c hc)
  exact ⟨(Bool.not_eq_true' _).mp hnumeric, (Bool.not_eq_true' _).mp hblank⟩

theorem TimeUnit.nanos_pos (unit : TimeUnit) : 0 < unit.nanos := by
  cases unit <;> decide

/-! ### Values -/

/-- **Reading digits from the left** gives the number that they stand for. -/
theorem valueOf_eq_decimal (digits : List Char) : valueOf digits = decimal digits := by
  induction digits using List.reverseRecOn with
  | nil => rfl
  | append_singleton digits c ih =>
    have hlast : decimal (digits ++ [c]) = digitValue c + 10 * decimal digits := by
      rw [decimal, List.reverse_append, List.reverse_singleton, List.singleton_append,
        List.map_cons, Nat.ofDigits_cons]
      rfl
    rw [valueOf_concat, ih, hlast, Nat.add_comm]

/-- **What digits behind the point add** is their share of the unit, rounded down. -/
theorem fractionNanos_eq_floor (fraction : List Char) (unit : Nat) :
    fractionNanos fraction unit = ⌊share fraction * unit⌋₊ := by
  have hshare : share fraction * unit = ((decimal (fraction.take 18) * unit : ℕ) : ℚ) /
      ((10 ^ (fraction.take 18).length : ℕ) : ℚ) := by
    rw [share]
    push_cast
    ring
  rw [hshare, Nat.floor_div_eq_div, ← valueOf_eq_decimal]
  rfl

theorem bounded_of_lt {n : Nat} (h : n < sumBound) : bounded n = .ok n :=
  if_pos h

theorem bounded_of_le {n : Nat} (h : sumBound ≤ n) : bounded n = .error .outOfRange :=
  if_neg (Nat.not_lt.2 h)

theorem bounded_eq_ok {n m : Nat} (h : bounded n = .ok m) : n < sumBound ∧ m = n := by
  unfold bounded at h
  split at h
  · next hlt => exact ⟨hlt, (Except.ok.inj h).symm⟩
  · cases h

/-- The bounds on the way to the nanoseconds of a component come down to the one on the result. -/
theorem componentNanos_eq_bounded (whole fraction : List Char) (unit : TimeUnit) :
    componentNanos whole fraction unit.nanos =
      bounded (valueOf whole * unit.nanos + fractionNanos fraction unit.nanos) := by
  have hvalue : valueOf whole ≤ valueOf whole * unit.nanos :=
    Nat.le_mul_of_pos_right _ unit.nanos_pos
  have hproduct : valueOf whole * unit.nanos ≤
      valueOf whole * unit.nanos + fractionNanos fraction unit.nanos := Nat.le_add_right _ _
  unfold componentNanos
  by_cases hfits : valueOf whole < sumBound
  · rw [bounded_of_lt hfits]
    by_cases hlow : valueOf whole * unit.nanos < sumBound
    · change (bounded (valueOf whole * unit.nanos) >>= fun product =>
        bounded (product + fractionNanos fraction unit.nanos)) = _
      rw [bounded_of_lt hlow]
      rfl
    · change (bounded (valueOf whole * unit.nanos) >>= fun product =>
        bounded (product + fractionNanos fraction unit.nanos)) = _
      rw [bounded_of_le (Nat.not_lt.1 hlow), bounded_of_le (by omega)]
      rfl
  · rw [bounded_of_le (Nat.not_lt.1 hfits), bounded_of_le (by omega)]
    rfl

theorem Component.worth_eq (component : Component) :
    component.worth = valueOf component.whole * component.unit.nanos +
      fractionNanos component.fraction component.unit.nanos := by
  rw [Component.worth, fractionNanos_eq_floor, valueOf_eq_decimal]

/-! ### Taking a component off -/

theorem isNumeric_of_isDigit (h : isDigit c = true) : isNumeric c = true := by
  rw [isNumeric, h, Bool.true_or]

theorem isNumeric_eq_false_iff : isNumeric c = false ↔ isDigit c = false ∧ c ≠ '.' := by
  rw [isNumeric, Bool.or_eq_false_iff, beq_eq_false_iff_ne]

/-- **A number is cut off** in front of a character that is no part of it. -/
theorem cutNumber_number (component : Component) (hc : isNumeric c = false) :
    cutNumber (component.number ++ c :: rest) =
      ((component.whole, component.fraction), c :: rest) := by
  obtain ⟨hdigit, hpoint⟩ := isNumeric_eq_false_iff.1 hc
  have hends : Ends (c :: rest) := fun other hother => Option.some.inj hother ▸ hdigit
  have hwhole : ∀ c ∈ component.whole, isDigit c = true := fun c hc =>
    component.digits c (List.mem_append_left _ hc)
  unfold cutNumber Component.number Component.fraction
  cases hfraction : component.fraction? with
  | none =>
    simp only [Option.elim_none, List.append_nil, Option.getD_none]
    rw [cutDigits_digits hwhole hends]
    dsimp only
    split
    · next heq => exact absurd (List.cons.inj heq).1 hpoint
    · rfl
  | some fraction =>
    have hbehind : ∀ c ∈ fraction, isDigit c = true := fun c hc =>
      component.digits c (List.mem_append_right _ (by rwa [hfraction]))
    have hstop : Ends ('.' :: (fraction ++ c :: rest)) := fun other hother =>
      Option.some.inj hother ▸ rfl
    simp only [Option.elim_some, Option.getD_some, List.append_assoc, List.cons_append]
    rw [cutDigits_digits hwhole hstop]
    change ((component.whole, (cutDigits (fraction ++ c :: rest)).1),
      (cutDigits (fraction ++ c :: rest)).2) = _
    rw [cutDigits_digits hbehind hends]

/-- **The number of a component is cut off** in front of its unit. -/
theorem cutNumber_text (component : Component) (rest : List Char) :
    cutNumber (component.text ++ rest) =
      ((component.whole, component.fraction), component.spelling.toList ++ rest) := by
  obtain ⟨hletters, hsome⟩ := spelling_letters component.spelled
  obtain ⟨c, more, hspelling⟩ := List.exists_cons_of_ne_nil hsome
  rw [Component.text, List.append_assoc, hspelling]
  exact cutNumber_number component (hletters c (hspelling ▸ List.mem_cons_self)).1

/-- **The unit is cut off** where the next component begins. -/
theorem cutUnit_spelling (component : Component) (hrest : Opens rest) :
    cutUnit (component.spelling.toList ++ rest) = (component.spelling.toList, rest) := by
  have hall : ∀ c ∈ component.spelling.toList, (!isNumeric c) = true := fun c hc => by
    rw [((spelling_letters component.spelled).1 c hc).1]
    rfl
  unfold cutUnit
  rw [List.takeWhile_append_of_pos hall, List.dropWhile_append_of_pos hall]
  cases rest with
  | nil => rw [List.takeWhile_nil, List.append_nil, List.dropWhile_nil]
  | cons c rest =>
    have hc : isNumeric c = true := hrest c rfl
    simp [hc]

theorem unitNanos?_spelling (component : Component) :
    unitNanos? component.spelling = some component.unit.nanos :=
  unitNanos?_eq_some_iff.2 ⟨component.unit, component.spelled, rfl⟩

/-- **The component in front of a text is read**, whatever component comes next. -/
theorem readComponent_text (component : Component) (hrest : Opens rest) :
    readComponent (component.text ++ rest) =
      (bounded component.worth).map fun nanos => (nanos, rest) := by
  have hdigits : (component.whole.isEmpty && component.fraction.isEmpty) = false := by
    have hsome := component.hasDigit
    rw [Bool.eq_false_iff]
    simpa [Component.fraction] using hsome
  unfold readComponent
  rw [cutNumber_text]
  dsimp only
  rw [hdigits, if_neg Bool.false_ne_true, cutUnit_spelling component hrest]
  dsimp only
  rw [List.isEmpty_eq_false_iff.2 (spelling_letters component.spelled).2,
    if_neg Bool.false_ne_true, String.ofList_toList, unitNanos?_spelling]
  dsimp only
  rw [componentNanos_eq_bounded, ← component.worth_eq]
  cases bounded component.worth <;> rfl

/-- **Only one component can be in front of a text**, up to its spelling. -/
theorem eq_of_text_append {component other : Component} (hrest : Opens rest) (hleft : Opens left)
    (h : component.text ++ rest = other.text ++ left) :
    component.worth = other.worth ∧ rest = left := by
  have hnumber := cutNumber_text component rest
  rw [h, cutNumber_text] at hnumber
  obtain ⟨hparts, hunit⟩ := Prod.mk.inj hnumber
  obtain ⟨hwhole, hfraction⟩ := Prod.mk.inj hparts
  have hspelling := cutUnit_spelling component hrest
  rw [← hunit, cutUnit_spelling other hleft] at hspelling
  obtain ⟨hname, hrest⟩ := Prod.mk.inj hspelling
  have hnanos := unitNanos?_spelling component
  rw [← String.toList_inj.1 hname, unitNanos?_spelling] at hnanos
  rw [component.worth_eq, other.worth_eq, hwhole, hfraction, Option.some.inj hnanos]
  exact ⟨rfl, hrest.symm⟩

/-- What was cut off as a number is one, if there is a digit in it. -/
theorem eq_of_cutNumber (h : cutNumber text = ((whole, fraction), rest)) :
    ∃ fraction? : Option (List Char), fraction?.getD [] = fraction ∧
      text = whole ++ fraction?.elim [] ('.' :: ·) ++ rest ∧
      ∀ c ∈ whole ++ fraction, isDigit c = true := by
  have hparts {text : List Char} : text = text.takeWhile isDigit ++ text.dropWhile isDigit :=
    (cutDigits_append text).symm
  have hdigits {text : List Char} : ∀ c ∈ text.takeWhile isDigit, isDigit c = true :=
    fun c hc => List.mem_takeWhile_imp hc
  unfold cutNumber cutDigits at h
  dsimp only at h
  split at h
  · next behind hbehind =>
    cases h
    refine ⟨some (behind.takeWhile isDigit), rfl, ?_, fun c hc => ?_⟩
    · rw [Option.elim_some, List.append_assoc, List.cons_append, ← hparts, ← hbehind]
      exact hparts
    · exact (List.mem_append.1 hc).elim (hdigits c) (hdigits c)
  · cases h
    refine ⟨none, rfl, ?_, fun c hc => ?_⟩
    · rw [Option.elim_none, List.append_nil]
      exact hparts
    · rw [List.append_nil] at hc
      exact hdigits c hc

/-- **What is read was written as a component**, and the next one begins behind it. -/
theorem exists_component (h : readComponent text = .ok (nanos, rest)) :
    ∃ component : Component, text = component.text ++ rest ∧ Opens rest ∧
      component.worth < sumBound ∧ nanos = component.worth := by
  unfold readComponent at h
  rcases hnumber : cutNumber text with ⟨⟨whole, fraction⟩, behind⟩
  obtain ⟨fraction?, rfl, htext, hdigits⟩ := eq_of_cutNumber hnumber
  rw [hnumber] at h
  dsimp only [cutUnit] at h
  -- Whatever is refused, for want of a digit or of a unit or as too long, gives nothing.
  split at h
  · cases h
  next hsome =>
  split at h
  · cases h
  split at h
  · cases h
  next value hvalue =>
  obtain ⟨unit, hspelled, rfl⟩ := unitNanos?_eq_some_iff.1 hvalue
  let component : Component := {
    whole, fraction?, unit
    spelling := String.ofList (behind.takeWhile fun c => !isNumeric c)
    digits := hdigits
    hasDigit := by simpa using hsome
    spelled := hspelled }
  have hworth : componentNanos whole (fraction?.getD []) unit.nanos = bounded component.worth := by
    rw [componentNanos_eq_bounded, component.worth_eq]
    rfl
  rw [hworth] at h
  cases hbounded : bounded component.worth with
  | error cause =>
    rw [hbounded] at h
    cases h
  | ok value =>
    rw [hbounded] at h
    obtain ⟨hlt, rfl⟩ := bounded_eq_ok hbounded
    cases h
    refine ⟨component, ?_, fun c hc => ?_, hlt, rfl⟩
    · have hspelling : component.spelling.toList ++ behind.dropWhile (fun c => !isNumeric c) =
          behind := by
        rw [String.toList_ofList]
        exact List.takeWhile_append_dropWhile
      rw [Component.text, List.append_assoc, hspelling]
      exact htext
    · rw [← List.find?_eq_head?_dropWhile_not] at hc
      exact List.find?_some hc

/-! ### Rows of components -/

variable {components others : List Component} {fuel sum : Nat}

theorem textOf_cons (component : Component) (components : List Component) :
    textOf (component :: components) = component.text ++ textOf components :=
  List.flatMap_cons

theorem total_cons (component : Component) (components : List Component) :
    total (component :: components) = component.worth + total components := by
  rw [total, List.map_cons, List.sum_cons, total]

/-- A component begins with a digit or a point. -/
theorem Component.exists_cons_text (component : Component) :
    ∃ c more, component.text = c :: more ∧ isNumeric c = true := by
  obtain ⟨whole, fraction?, unit, spelling, digits, hasDigit, spelled⟩ := component
  cases whole with
  | cons c more =>
    exact ⟨c, _, rfl, isNumeric_of_isDigit (digits c (List.mem_append_left _ List.mem_cons_self))⟩
  | nil =>
    cases fraction? with
    | none => exact absurd rfl hasDigit
    | some fraction => exact ⟨'.', _, rfl, rfl⟩

theorem opens_textOf (components : List Component) : Opens (textOf components) := by
  intro c hc
  cases components with
  | nil => cases hc
  | cons component components =>
    obtain ⟨first, more, htext, hfirst⟩ := component.exists_cons_text
    rw [textOf_cons, htext] at hc
    exact Option.some.inj hc ▸ hfirst

/-- Every step takes at least one character off. -/
theorem length_lt_of_readComponent (h : readComponent text = .ok (nanos, rest)) :
    rest.length < text.length := by
  obtain ⟨component, rfl, -⟩ := exists_component h
  obtain ⟨c, more, htext, -⟩ := component.exists_cons_text
  rw [htext, List.length_append, List.length_cons]
  omega

/-- One step of the reader. -/
theorem readComponents_cons (fuel sum : Nat) (c : Char) (text : List Char) :
    readComponents (fuel + 1) sum (c :: text) = (readComponent (c :: text) >>= fun read =>
      bounded (sum + read.1) >>= fun sum => readComponents fuel sum read.2) := by
  rw [readComponents]
  exact List.cons_ne_nil _ _

/-- **Components that were written are read**, and their sum is refused only if it is too large. -/
theorem readComponents_textOf (hfuel : (textOf components).length ≤ fuel) (hsum : sum < sumBound) :
    readComponents fuel sum (textOf components) = bounded (sum + total components) := by
  induction components generalizing fuel sum with
  | nil =>
    rw [total, List.map_nil, List.sum_nil, Nat.add_zero, bounded_of_lt hsum]
    cases fuel <;> rfl
  | cons component components ih =>
    obtain ⟨c, more, htext, -⟩ := component.exists_cons_text
    have hread := readComponent_text component (opens_textOf components)
    rw [textOf_cons, htext, List.cons_append] at hfuel ⊢
    rw [htext, List.cons_append] at hread
    cases fuel with
    | zero => cases hfuel
    | succ fuel =>
      rw [List.length_cons, List.length_append] at hfuel
      rw [readComponents_cons, hread, total_cons]
      by_cases hworth : component.worth < sumBound
      · rw [bounded_of_lt hworth]
        change (bounded (sum + component.worth) >>= fun sum =>
          readComponents fuel sum (textOf components)) = _
        by_cases hnext : sum + component.worth < sumBound
        · rw [bounded_of_lt hnext, ← Nat.add_assoc]
          exact ih (by omega) hnext
        · rw [bounded_of_le (Nat.not_lt.1 hnext), bounded_of_le (by omega)]
          rfl
      · rw [bounded_of_le (Nat.not_lt.1 hworth), bounded_of_le (by omega)]
        rfl

/-- **What is read are components** that were written one after the other. -/
theorem exists_components (h : readComponents fuel sum text = .ok nanos) :
    ∃ components, text = textOf components ∧ nanos = sum + total components := by
  induction fuel generalizing sum text with
  | zero =>
    cases text with
    | nil => exact ⟨[], rfl, (Except.ok.inj h).symm⟩
    | cons c text => cases h
  | succ fuel ih =>
    cases text with
    | nil => exact ⟨[], rfl, (Except.ok.inj h).symm⟩
    | cons c text =>
      rw [readComponents_cons] at h
      cases hread : readComponent (c :: text) with
      | error cause =>
        rw [hread] at h
        cases h
      | ok read =>
        obtain ⟨first, rest⟩ := read
        rw [hread] at h
        change (bounded (sum + first) >>= fun sum => readComponents fuel sum rest) = _ at h
        cases hnext : bounded (sum + first) with
        | error cause =>
          rw [hnext] at h
          cases h
        | ok next =>
          rw [hnext] at h
          obtain ⟨component, htext, -, -, rfl⟩ := exists_component hread
          obtain ⟨-, rfl⟩ := bounded_eq_ok hnext
          obtain ⟨components, rfl, hnanos⟩ := ih h
          refine ⟨component :: components, htext.trans (textOf_cons _ _).symm, ?_⟩
          rw [hnanos, total_cons, Nat.add_assoc]

/-- **The number of steps never matters**, as long as there is one for each character. -/
theorem readComponents_eq_of_le {steps : Nat} (hfuel : text.length ≤ fuel)
    (hsteps : text.length ≤ steps) :
    readComponents fuel sum text = readComponents steps sum text := by
  induction fuel generalizing steps sum text with
  | zero =>
    cases text with
    | nil => cases steps <;> rfl
    | cons c text => cases hfuel
  | succ fuel ih =>
    cases text with
    | nil => cases steps <;> rfl
    | cons c text =>
      obtain ⟨steps, rfl⟩ : ∃ fewer, steps = fewer + 1 := Nat.exists_eq_add_one.2 (by
        rw [List.length_cons] at hsteps
        omega)
      rw [readComponents_cons, readComponents_cons]
      cases hread : readComponent (c :: text) with
      | error cause => rfl
      | ok read =>
        have hshorter := length_lt_of_readComponent hread
        have hrest (sum : Nat) : readComponents fuel sum read.2 = readComponents steps sum read.2 :=
          ih (by omega) (by omega)
        change (bounded (sum + read.1) >>= fun sum => readComponents fuel sum read.2) =
          (bounded (sum + read.1) >>= fun sum => readComponents steps sum read.2)
        exact congrArg (bounded (sum + read.1) >>= ·) (funext hrest)

/-! ### Whole spans -/

/-- A number of nanoseconds, if it can be held. -/
def held (n : Nat) : Except Error Nat :=
  if n < bound then .ok n else .error .outOfRange

theorem held_eq_ok {n : Nat} (h : held n = .ok nanos) : n = nanos ∧ nanos < bound := by
  unfold held at h
  split at h
  · next hlt =>
    obtain rfl := Except.ok.inj h
    exact ⟨rfl, hlt⟩
  · cases h

/-- The bound for sums refuses nothing that could be held. -/
theorem held_of_bounded (n : Nat) : (bounded n >>= held) = held n := by
  by_cases hsum : n < sumBound
  · rw [bounded_of_lt hsum]
    rfl
  · have hbound : bound ≤ sumBound := by decide
    rw [bounded_of_le (Nat.not_lt.1 hsum), held, if_neg (by omega)]
    rfl

/-- A text that begins like a number is read component by component, with a plus in front or
without, unless it is a plain zero. -/
theorem readTrimmed_signed {sign : List Char} (hsign : sign = [] ∨ sign = ['+'])
    (hc : isNumeric c = true) (hzero : c :: rest ≠ ['0']) :
    readTrimmed (sign ++ c :: rest) =
      (readComponents (c :: rest).length 0 (c :: rest) >>= held) := by
  rcases hsign with rfl | rfl
  · have hminus : c ≠ '-' := by rintro rfl; cases hc
    have hplus : c ≠ '+' := by rintro rfl; cases hc
    rw [List.nil_append]
    unfold readTrimmed
    split
    · next heq => cases heq
    · next heq => exact absurd heq hzero
    · next heq => exact absurd (List.cons.inj heq).1 hminus
    · split
      · next heq => exact absurd (List.cons.inj heq).1 hplus
      · rfl
  · rfl

/-- A row of components is not a plain zero: it has a unit in it. -/
theorem textOf_ne_zero (components : List Component) : textOf components ≠ ['0'] := by
  intro h
  cases components with
  | nil => cases h
  | cons component components =>
    obtain ⟨hletters, hsome⟩ := spelling_letters component.spelled
    obtain ⟨c, more, hspelling⟩ := List.exists_cons_of_ne_nil hsome
    have hc : c ∈ component.text :=
      List.mem_append_right _ (hspelling ▸ List.mem_cons_self)
    have hzero : c ∈ ['0'] := h ▸ textOf_cons component components ▸ List.mem_append_left _ hc
    obtain rfl := List.mem_singleton.1 hzero
    cases (hletters '0' (hspelling ▸ List.mem_cons_self)).1

/-- A row of components begins like a number. -/
theorem exists_cons_textOf (hsome : components ≠ []) :
    ∃ c more, textOf components = c :: more ∧ isNumeric c = true := by
  obtain ⟨component, components, rfl⟩ := List.exists_cons_of_ne_nil hsome
  obtain ⟨c, more, htext, hc⟩ := component.exists_cons_text
  exact ⟨c, more ++ textOf components, by rw [textOf_cons, htext, List.cons_append], hc⟩

/-- **Every span is read**, and refused only if it is too long. -/
theorem readTrimmed_of_spells (h : Spells text nanos) : readTrimmed text = held nanos := by
  cases h with
  | zero => rfl
  | @sum sign components hsign hsome =>
    obtain ⟨c, more, hrow, hc⟩ := exists_cons_textOf hsome
    have hzero : 0 < sumBound := by decide
    rw [hrow, readTrimmed_signed hsign hc (hrow ▸ textOf_ne_zero components), ← hrow,
      readComponents_textOf (Nat.le_refl _) hzero, Nat.zero_add, held_of_bounded]

/-- **What is read is a span** that can be held. -/
theorem spells_of_readTrimmed (h : readTrimmed text = .ok nanos) :
    Spells text nanos ∧ nanos < bound := by
  -- What is read behind the sign.
  have hsum {sign row : List Char} (hsign : sign = [] ∨ sign = ['+'])
      (h : (if row.isEmpty then throw .malformed else
        readComponents row.length 0 row >>= held) = .ok nanos) :
      Spells (sign ++ row) nanos ∧ nanos < bound := by
    split at h
    · cases h
    next hsome =>
    cases hread : readComponents row.length 0 row with
    | error cause =>
      rw [hread] at h
      cases h
    | ok sum =>
      rw [hread] at h
      obtain ⟨rfl, hbound⟩ := held_eq_ok h
      obtain ⟨components, rfl, rfl⟩ := exists_components hread
      rw [Nat.zero_add] at hbound ⊢
      refine ⟨.sum hsign ?_, hbound⟩
      rintro rfl
      exact hsome rfl
  unfold readTrimmed at h
  split at h
  · cases h
  · obtain rfl := Except.ok.inj h
    exact ⟨.zero, by decide⟩
  · cases h
  · split at h
    · exact hsum (.inr rfl) h
    · exact hsum (.inl rfl) h

/-- **A row of components has one sum**, however its text is taken apart. -/
theorem total_eq_of_textOf (h : textOf components = textOf others) :
    total components = total others := by
  induction components generalizing others with
  | nil =>
    cases others with
    | nil => rfl
    | cons other others =>
      obtain ⟨c, more, hrow, -⟩ := exists_cons_textOf (List.cons_ne_nil other others)
      rw [hrow] at h
      cases h
  | cons component components ih =>
    cases others with
    | nil =>
      obtain ⟨c, more, hrow, -⟩ := exists_cons_textOf (List.cons_ne_nil component components)
      rw [hrow] at h
      cases h
    | cons other others =>
      rw [textOf_cons, textOf_cons] at h
      obtain ⟨hworth, hrest⟩ := eq_of_text_append (opens_textOf _) (opens_textOf _) h
      rw [total_cons, total_cons, hworth, ih hrest]

/-- A sign in front of a row of components is known by the first character. -/
theorem signed_inj {sign mark : List Char} (hsign : sign = [] ∨ sign = ['+'])
    (hmark : mark = [] ∨ mark = ['+']) (hsome : components ≠ []) (hothers : others ≠ [])
    (h : sign ++ textOf components = mark ++ textOf others) :
    textOf components = textOf others := by
  obtain ⟨c, more, hrow, hc⟩ := exists_cons_textOf hsome
  obtain ⟨d, rest, hother, hd⟩ := exists_cons_textOf hothers
  rcases hsign with rfl | rfl <;> rcases hmark with rfl | rfl
  · exact h
  · rw [hrow] at h
    obtain rfl := (List.cons.inj h).1
    cases hc
  · rw [hother] at h
    obtain rfl := (List.cons.inj h).1
    cases hd
  · exact (List.cons.inj h).2

/-- A row of components behind a sign is not a plain zero. -/
theorem signed_ne_zero {sign : List Char} (hsign : sign = [] ∨ sign = ['+']) :
    sign ++ textOf components ≠ ['0'] := by
  intro h
  rcases hsign with rfl | rfl
  · exact textOf_ne_zero components h
  · cases (List.cons.inj h).1

/-- **A span is worth one number of nanoseconds.** -/
theorem Spells.unique {other : Nat} (h : Spells text nanos) (h' : Spells text other) :
    nanos = other := by
  generalize hsame : text = again at h'
  cases h with
  | zero =>
    cases h' with
    | zero => rfl
    | sum hsign => exact absurd hsame.symm (signed_ne_zero hsign)
  | sum hsign hsome =>
    cases h' with
    | zero => exact absurd hsame (signed_ne_zero hsign)
    | sum hmark hothers => exact total_eq_of_textOf (signed_inj hsign hmark hsome hothers hsame)

/-! ### Blanks around a span -/

/-- There is no blank in a component. -/
theorem Component.isBlank_eq_false (component : Component) (hc : c ∈ component.text) :
    isBlank c = false := by
  have hdigit (hc : c ∈ component.whole ++ component.fraction?.getD []) : isBlank c = false :=
    isBlank_of_isDigit (component.digits c hc)
  rcases List.mem_append.1 hc with hnumber | hunit
  · rcases List.mem_append.1 hnumber with hwhole | hbehind
    · exact hdigit (List.mem_append_left _ hwhole)
    · cases hfraction : component.fraction? with
      | none =>
        rw [hfraction] at hbehind
        cases hbehind
      | some fraction =>
        rw [hfraction] at hbehind hdigit
        rcases List.mem_cons.1 hbehind with rfl | hbehind
        · rfl
        · exact hdigit (List.mem_append_right _ hbehind)
  · exact ((spelling_letters component.spelled).1 c hunit).2

/-- There is no blank in a span. -/
theorem Spells.isBlank_eq_false (h : Spells text nanos) (hc : c ∈ text) : isBlank c = false := by
  cases h with
  | zero =>
    obtain rfl := List.mem_singleton.1 hc
    rfl
  | sum hsign =>
    rcases List.mem_append.1 hc with hc | hc
    · rcases hsign with rfl | rfl
      · cases hc
      · obtain rfl := List.mem_singleton.1 hc
        rfl
    · obtain ⟨component, -, hc⟩ := List.mem_flatMap.1 hc
      exact component.isBlank_eq_false hc

/-- What a text means is what is left of it without the blanks around it. -/
theorem means_iff {text : String} : Means text nanos ↔ Spells (trimChars text.toList) nanos := by
  constructor
  · rintro ⟨before, core, after, htext, hblank, hcore⟩
    rw [htext, trimChars_of_blanks hblank
      (fun c hc => hcore.isBlank_eq_false (List.mem_of_head? hc))
      fun c hc => hcore.isBlank_eq_false (List.mem_of_getLast? hc)]
    exact hcore
  · intro h
    obtain ⟨before, after, htext, hblank⟩ := exists_blanks text.toList
    exact ⟨before, _, after, htext, hblank, h⟩

/-! ### Reading -/

/-- **Spans are read as what they mean.** -/
theorem read_eq_ok_iff {text : String} :
    read text = .ok nanos ↔ Means text nanos ∧ nanos < bound := by
  rw [means_iff, read]
  refine ⟨spells_of_readTrimmed, fun ⟨hspells, hbound⟩ => ?_⟩
  rw [readTrimmed_of_spells hspells, held, if_pos hbound]

/-- A run of digits stands for a number with no more digits. -/
theorem decimal_lt (digits : List Char) (h : ∀ c ∈ digits, isDigit c = true) :
    decimal digits < 10 ^ digits.length := by
  have hvalues : ∀ d ∈ digits.reverse.map digitValue, d < 10 := by
    intro d hd
    obtain ⟨c, hc, rfl⟩ := List.mem_map.1 hd
    have hdigit := h c (List.mem_reverse.1 hc)
    rw [isDigit, Bool.and_eq_true, decide_eq_true_eq, decide_eq_true_eq] at hdigit
    rw [digitValue]
    omega
  have hlt := Nat.ofDigits_lt_base_pow_length (by decide : 1 < 10) hvalues
  rwa [List.length_map, List.length_reverse] at hlt

/-- **The share of a unit is worked out below the bound for sums**, so that it needs no check. -/
theorem fraction_fits (fraction : List Char) (h : ∀ c ∈ fraction, isDigit c = true)
    (unit : TimeUnit) :
    10 ^ (fraction.take fractionDigits).length < sumBound ∧
      valueOf (fraction.take fractionDigits) * unit.nanos < sumBound := by
  have hlength : (fraction.take fractionDigits).length ≤ 18 := List.length_take_le _ _
  have hpower : 10 ^ (fraction.take fractionDigits).length ≤ 10 ^ 18 :=
    Nat.pow_le_pow_right (by decide) hlength
  have hvalue := decimal_lt (fraction.take fractionDigits) fun c hc =>
    h c (List.mem_of_mem_take hc)
  have hunit : unit.nanos ≤ 3600000000000 := by cases unit <;> decide
  have hbound : 10 ^ 18 * 3600000000000 < sumBound := by decide
  rw [valueOf_eq_decimal]
  refine ⟨by omega, lt_of_le_of_lt (Nat.mul_le_mul ?_ hunit) hbound⟩
  omega

/-- **Spans are read exactly.** A text is read as a number of nanoseconds if and only if, without
the blanks around it, it is a plain zero, or components with a plus in front or without it, and the
nanoseconds are what the components are worth together and are below `2 ^ 63`; they are the only
number that the text can mean. Every other text, however long, is refused as invalid. The reader
comes to an end with every text: each component takes something off, so that one step for each
character is always enough; and what is worked out without a check stays below `2 ^ 128`. -/
theorem parse_exact (text : String) :
    (∀ nanos, parse text = .ok nanos ↔ Means text nanos ∧ nanos < 2 ^ 63) ∧
    ((∀ nanos, Means text nanos → 2 ^ 63 ≤ nanos) →
      ∃ detail, parse text = .error (.validation detail)) ∧
    (∀ nanos other, Means text nanos → Means text other → nanos = other) ∧
    (∀ row nanos rest, readComponent row = .ok (nanos, rest) → rest.length < row.length) ∧
    (∀ row steps sum, row.length ≤ steps →
      readComponents steps sum row = readComponents row.length sum row) ∧
    ∀ fraction : List Char, (∀ c ∈ fraction, isDigit c = true) → ∀ unit : TimeUnit,
      10 ^ (fraction.take fractionDigits).length < 2 ^ 128 ∧
        valueOf (fraction.take fractionDigits) * unit.nanos < 2 ^ 128 := by
  have hparse {nanos : Nat} : parse text = .ok nanos ↔ Means text nanos ∧ nanos < bound := by
    rw [← read_eq_ok_iff, parse]
    cases read text <;> simp
  refine ⟨fun nanos => hparse, fun hlong => ?_, fun nanos other h h' => ?_,
    fun _ _ _ => length_lt_of_readComponent,
    fun _ _ _ hsteps => readComponents_eq_of_le hsteps (Nat.le_refl _), fraction_fits⟩
  · cases hread : read text with
    | error cause => exact ⟨cause.message text, by rw [parse, hread]⟩
    | ok nanos =>
      obtain ⟨hmeans, hbound⟩ := read_eq_ok_iff.1 hread
      exact absurd (hlong nanos hmeans) (Nat.not_le.2 hbound)
  · exact (means_iff.1 h).unique (means_iff.1 h')

/-- An hour and half a minute, with a blank and a plus in front; without its unit the half means
nothing. -/
theorem parse_exact_hour : Means " +1h.5m" 3630000000000 ∧
    (∀ other, Means " +1h.5m" other → other = 3630000000000) ∧
    ∃ detail, parse " +1h.5" = .error (.validation detail) := by
  have hmeans := (((parse_exact " +1h.5m").1 3630000000000).1 rfl).1
  refine ⟨hmeans, fun other hother => (parse_exact _).2.2.1 _ _ hother hmeans,
    (parse_exact _).2.1 fun nanos hnanos => Nat.not_lt.1 fun hlt => ?_⟩
  cases ((parse_exact " +1h.5").1 nanos).2 ⟨hnanos, hlt⟩

end AccessBroker.Span
