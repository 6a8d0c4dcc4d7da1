import AccessBroker.Time.Instant

/-!
# Growing delays

The delay before a failed target is tried again doubles with each failure, from a
base delay up to a greatest one. Delays are numbers of nanoseconds, of which only so
many can be told (`AccessBroker.Backoff.longest`): a product that cannot be told
counts as the greatest delay.
-/

namespace AccessBroker

open AccessBroker.Time

/-- The delays before failed targets are tried again. -/
structure Backoff where
  /-- The delay after the first failure. -/
  base : Nat
  /-- The greatest delay. -/
  max : Nat
  deriving Repr, DecidableEq, Inhabited

namespace Backoff

/-- The longest delay that can be told: the seconds fit in 64 bits, and the
nanoseconds on top do not make up another one. -/
def longest : Nat := (UInt64.size - 1) * nanosPerSecond + (nanosPerSecond - 1)

/-- How often the base delay is doubled at most. -/
def mostDoublings : Nat := 31

/-- What the base delay is multiplied by after a number of failures in a row. -/
def factor (failures : Nat) : UInt32 :=
  1 <<< UInt32.ofNat (min (failures - 1) mostDoublings)

/-- A multiple of a delay, if it can be told. -/
def multiple? (delay : Nat) (factor : UInt32) : Option Nat :=
  if delay * factor.toNat ≤ longest then some (delay * factor.toNat) else none

/-- The delay after a number of failures in a row. -/
def delay (backoff : Backoff) (failures : Nat) : Nat :=
  match multiple? backoff.base (factor failures) with
  | some delay => min delay backoff.max
  | none => backoff.max

/-- Delays never exceed the greatest one. -/
theorem delay_le_max (backoff : Backoff) (failures : Nat) :
    backoff.delay failures ≤ backoff.max := by
  unfold delay
  split
  · exact Nat.min_le_right _ _
  · exact Nat.le_refl _

end Backoff

end AccessBroker
