import AccessBroker.Time.Calendar

/-!
# Days and dates

Naming the date of a day and counting the days to a date are inverse to one another
(`AccessBroker.Time.Date.toDays_ofDays`), and the dates that days get are dates of the calendar
(`AccessBroker.Time.Date.isValid_ofDays`). In both directions a day is taken apart into its cycle of
400 years, the year of the cycle, the month and the day of the month, where years start in March
(`AccessBroker.Time.Date.fromMarch`). What has to be checked is that the year and the month that a
day falls into are those that begin last before it. The delicate case is the last day of a year of
366 days, which is there only where the calendar has a leap day.
-/

namespace AccessBroker.Time

/-- **The year of a cycle that a day falls into** begins that many days before. It has a 366th day
only if the next February has a leap day. -/
theorem daysBeforeYear_yearOfDay {day : Nat} (h : day < 146097) :
    daysBeforeYear (yearOfDay day).1 + (yearOfDay day).2 = day ∧ (yearOfDay day).1 < 400 ∧
      ((yearOfDay day).2 < 365 ∨ (yearOfDay day).2 = 365 ∧ ((yearOfDay day).1 + 1) % 4 = 0 ∧
        (((yearOfDay day).1 + 1) % 100 = 0 → (yearOfDay day).1 + 1 = 400)) := by
  obtain ⟨century, hcentury⟩ : ∃ century, min 3 (day / 36524) = century := ⟨_, rfl⟩
  obtain ⟨ofCentury, hofCentury⟩ : ∃ rest, day - 36524 * century = rest := ⟨_, rfl⟩
  obtain ⟨group, hgroup⟩ : ∃ group, ofCentury / 1461 = group := ⟨_, rfl⟩
  obtain ⟨ofGroup, hofGroup⟩ : ∃ rest, ofCentury - 1461 * group = rest := ⟨_, rfl⟩
  obtain ⟨year, hyear⟩ : ∃ year, min 3 (ofGroup / 365) = year := ⟨_, rfl⟩
  obtain ⟨ofYear, hofYear⟩ : ∃ rest, ofGroup - 365 * year = rest := ⟨_, rfl⟩
  have hsplit : yearOfDay day = (100 * century + 4 * group + year, ofYear) := by
    simp only [yearOfDay, hcentury, hofCentury, hgroup, hofGroup, hyear, hofYear]
  rw [hsplit, daysBeforeYear]
  dsimp only
  -- Centuries, groups of four years and years are taken off one after the other.
  have hday : day = 36524 * century + ofCentury ∧ century ≤ 3 ∧ ofCentury ≤ 36524 ∧
      (century < 3 → ofCentury < 36524) := by omega
  clear hcentury hofCentury
  have hofCentury : ofCentury = 1461 * group + ofGroup ∧ ofGroup < 1461 ∧ group ≤ 24 := by omega
  clear hgroup hofGroup
  have hofGroup : ofGroup = 365 * year + ofYear ∧ year ≤ 3 ∧ ofYear ≤ 365 ∧
      (year < 3 → ofYear < 365) := by omega
  clear hyear hofYear
  have hgroups : (100 * century + 4 * group + year) / 4 = 25 * century + group := by omega
  have hcenturies : (100 * century + 4 * group + year) / 100 = century := by omega
  rw [hgroups, hcenturies]
  exact ⟨by omega, by omega, by omega⟩

/-- **The month that a day of a year falls into** begins before it, and the next one behind it. -/
theorem daysBeforeMonth_le {day : Nat} (h : day ≤ 365) :
    daysBeforeMonth ((5 * day + 2) / 153) ≤ day ∧
      day < daysBeforeMonth ((5 * day + 2) / 153 + 1) ∧ (5 * day + 2) / 153 < 12 := by
  simp only [daysBeforeMonth]
  omega

namespace Date

/-- The date in a year that starts in March, and in its month that is counted from 0. -/
def fromMarch (year : Int) (month day : Nat) : Date :=
  if month < 10 then ⟨year, month + 3, day⟩ else ⟨year + 1, month - 9, day⟩

theorem toDays_fromMarch (year : Int) {month : Nat} (hmonth : month < 12) (day : Nat) :
    (fromMarch year month day).toDays =
      146097 * (year / 400) + (daysBeforeYear (year % 400).toNat + daysBeforeMonth month : Nat) +
        day - 1 - daysToEpoch := by
  unfold fromMarch toDays
  split
  · have hindex : (month + 3 + 9) % 12 = month := by omega
    simp only [hindex]
    rw [if_neg (by omega)]
  · have hindex : (month - 9 + 9) % 12 = month := by omega
    simp only [hindex]
    rw [if_pos (by omega), Int.add_sub_cancel]

/-- A day is named by way of the year that starts in March. -/
theorem ofDays_eq (days : Int) {year day : Nat}
    (h : yearOfDay ((days + daysToEpoch) % 146097).toNat = (year, day)) (hday : day ≤ 365) :
    ofDays days = fromMarch (400 * ((days + daysToEpoch) / 146097) + year) ((5 * day + 2) / 153)
      (day - daysBeforeMonth ((5 * day + 2) / 153) + 1) := by
  have htwelve : (5 * day + 2) / 153 < 12 := by omega
  unfold ofDays fromMarch
  dsimp only
  rw [h]
  dsimp only
  split
  · rw [if_neg (by omega)]
  · rw [if_pos (by omega)]

/-- **Counting the days to the date of a day gives the day.** -/
theorem toDays_ofDays (days : Int) : (ofDays days).toDays = days := by
  have hcycle : ((days + daysToEpoch) % 146097).toNat < 146097 := by omega
  rcases hsplit : yearOfDay ((days + daysToEpoch) % 146097).toNat with ⟨year, day⟩
  obtain ⟨hyear, hbelow, hday⟩ := daysBeforeYear_yearOfDay hcycle
  rw [hsplit] at hyear hbelow hday
  dsimp only at hyear hbelow hday
  have hday : day ≤ 365 := by omega
  obtain ⟨hmonth, -, htwelve⟩ := daysBeforeMonth_le hday
  rw [ofDays_eq days hsplit hday, toDays_fromMarch _ htwelve]
  have hcycles : (400 * ((days + daysToEpoch) / 146097) + (year : Int)) / 400 =
      (days + daysToEpoch) / 146097 := by omega
  have hyears : ((400 * ((days + daysToEpoch) / 146097) + (year : Int)) % 400).toNat = year := by
    omega
  rw [hcycles, hyears]
  omega

/-- The year behind such a year of a cycle is a leap year. -/
theorem isLeapYear_of_cycle {cycle : Int} {year : Nat} (hfour : (year + 1) % 4 = 0)
    (hhundred : (year + 1) % 100 = 0 → year + 1 = 400) :
    isLeapYear (400 * cycle + year + 1) = true := by
  simp only [isLeapYear, Bool.and_eq_true, Bool.or_eq_true, beq_iff_eq, bne_iff_ne]
  omega

/-- **A day of a year that starts in March has a date.** -/
theorem isValid_fromMarch {year : Int} {day : Nat} (hday : day ≤ 365)
    (hleap : day = 365 → isLeapYear (year + 1) = true) :
    (fromMarch year ((5 * day + 2) / 153)
      (day - daysBeforeMonth ((5 * day + 2) / 153) + 1)).IsValid := by
  obtain ⟨hstart, hend, htwelve⟩ := daysBeforeMonth_le hday
  generalize (5 * day + 2) / 153 = month at *
  by_cases hfebruary : month = 11
  · subst hfebruary
    refine ⟨(by decide : 1 ≤ 2), (by decide : 2 ≤ 12), Nat.le_add_left 1 _, ?_⟩
    change day - 337 + 1 ≤ if isLeapYear (year + 1) = true then 29 else 28
    split
    · omega
    · next hplain =>
      have hshort : day ≠ 365 := fun hlast => hplain (hleap hlast)
      omega
  · simp only [IsValid, fromMarch, daysInMonth, daysBeforeMonth] at *
    split <;> dsimp only <;> repeat' split
    all_goals omega

/-- **Every day has a date.** -/
theorem isValid_ofDays (days : Int) : (ofDays days).IsValid := by
  have hcycle : ((days + daysToEpoch) % 146097).toNat < 146097 := by omega
  rcases hsplit : yearOfDay ((days + daysToEpoch) % 146097).toNat with ⟨year, day⟩
  obtain ⟨-, -, hday⟩ := daysBeforeYear_yearOfDay hcycle
  rw [hsplit] at hday
  dsimp only at hday
  rw [ofDays_eq days hsplit (by omega)]
  refine isValid_fromMarch (by omega) fun hlast => ?_
  obtain ⟨-, hfour, hhundred⟩ := hday.resolve_left (by omega)
  exact isLeapYear_of_cycle hfour hhundred

end Date
end AccessBroker.Time
