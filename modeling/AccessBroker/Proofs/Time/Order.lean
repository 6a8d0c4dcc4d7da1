import AccessBroker.Time.Instant

/-!
# The order of instants

What comes some time after an instant does not come before it
(`AccessBroker.Time.Instant.not_lt_of_after?`). Nor does it help to begin later, except within a
leap second: adding to an instant there leaves out the leap second, so that the sum can come before
one that was begun in the second before (`AccessBroker.Time.Instant.le_of_after?`).
-/

namespace AccessBroker.Time.Instant

variable {a b c time latest : Instant} {span : Nat}

theorem le_trans (h : a ≤ b) (h' : b ≤ c) : a ≤ c := by
  change a.second < b.second ∨ (a.second = b.second ∧ a.nano ≤ b.nano) at h
  change b.second < c.second ∨ (b.second = c.second ∧ b.nano ≤ c.nano) at h'
  change a.second < c.second ∨ (a.second = c.second ∧ a.nano ≤ c.nano)
  omega

theorem le_of_not_lt (h : ¬a < b) : b ≤ a := by
  change ¬(a.second < b.second ∨ (a.second = b.second ∧ a.nano < b.nano)) at h
  change b.second < a.second ∨ (b.second = a.second ∧ b.nano ≤ a.nano)
  omega

theorem parts_of_ofParts? {second : Int} {nano : Nat} (h : ofParts? second nano = some time) :
    time.second = second ∧ time.nano = nano := by
  unfold ofParts? at h
  split at h
  · cases h
    exact ⟨rfl, rfl⟩
  · cases h

/-- Time is added within a leap second, or from the start of 1970 on. -/
theorem parts_of_after? (h : a.after? span = some time) :
    1000000000 ≤ a.nano ∧ time.second = a.second ∧ time.nano = a.nano + span ∨
      (1000000000 ≤ a.nano → 2000000000 ≤ a.nano + span) ∧
        time.second = (a.sinceEpoch + span) / 1000000000 ∧
        time.nano = ((a.sinceEpoch + span) % 1000000000).toNat := by
  unfold after? at h
  split at h
  · next hwithin =>
    obtain ⟨hsecond, hnano⟩ := parts_of_ofParts? h
    exact .inl ⟨of_decide_eq_true hwithin.1, hsecond, hnano⟩
  · next hover =>
    obtain ⟨hsecond, hnano⟩ := parts_of_ofParts? h
    simp only [isLeap, decide_eq_true_eq, not_and, Nat.not_lt] at hover
    exact .inr ⟨hover, hsecond, hnano⟩

/-- **Time does not go back** by adding to it, not even within a leap second. -/
theorem not_lt_of_after? (h : a.after? span = some time) : ¬time < a := by
  change ¬(time.second < a.second ∨ (time.second = a.second ∧ time.nano < a.nano))
  have hbound := a.nano_lt
  rcases parts_of_after? h with ⟨-, hsecond, hnano⟩ | ⟨hover, hsecond, hnano⟩
  · omega
  · rw [sinceEpoch] at hsecond hnano
    omega

/-- **Who begins earlier, ends earlier**, if the later one does not begin within a leap second. -/
theorem le_of_after? (h : a ≤ b) (hplain : b.isLeap = false) (htime : a.after? span = some time)
    (hlatest : b.after? span = some latest) : time ≤ latest := by
  change a.second < b.second ∨ (a.second = b.second ∧ a.nano ≤ b.nano) at h
  change time.second < latest.second ∨ (time.second = latest.second ∧ time.nano ≤ latest.nano)
  have hplain : ¬1000000000 ≤ b.nano := of_decide_eq_false hplain
  rcases parts_of_after? hlatest with ⟨hleap, -⟩ | ⟨-, hsecond, hnano⟩
  · exact absurd hleap hplain
  · rw [sinceEpoch] at hsecond hnano
    rcases parts_of_after? htime with ⟨-, hsecond', hnano'⟩ | ⟨-, hsecond', hnano'⟩
    · omega
    · rw [sinceEpoch] at hsecond' hnano'
      omega

/-- A second after the last nanosecond before a leap second comes later than a second after its
first one. -/
example : ∃ b ∈ ofParts? 59 1000000000, ∃ a ∈ ofParts? 59 999999999, a ≤ b ∧
    ∃ time ∈ a.after? 1000000000, ∃ latest ∈ b.after? 1000000000, ¬time ≤ latest := by decide

end AccessBroker.Time.Instant
