/-!
# The doorbell

Workers that find the queue empty wait at a doorbell. Ringing it once wakes the one
who has been waiting longest; if nobody is waiting, the ring is kept for the next
one who comes, and further rings before that are not kept. Ringing for all wakes
everybody who is waiting, and is not kept.

Whoever wants a target puts the name down at the bell *before* looking at the queue,
so no ring is missed in between, and takes it off again when leaving with a target.
A single ring that such a leaver has received but not answered goes to the next one
in line.
-/

namespace AccessBroker

/-- How somebody was woken. -/
inductive Ring where
  /-- By a ring that had been kept. -/
  | kept
  /-- Alone. -/
  | one
  /-- Together with all others. -/
  | all
  deriving Repr, DecidableEq, Inhabited

/-- The state of a doorbell. Waiters are known by numbers. -/
structure Doorbell where
  /-- Is a ring kept for the next one who comes? -/
  kept : Bool := false
  /-- Who is waiting, the longest waiting first. -/
  waiting : List Nat := []
  /-- Who was woken and has not noticed yet. -/
  woken : List (Nat × Ring) := []
  deriving Repr, DecidableEq, Inhabited

namespace Doorbell

/-- A newcomer puts the name down. A ring that was kept wakes the newcomer at
once. -/
def enrol (bell : Doorbell) (waiter : Nat) : Doorbell :=
  if bell.kept then { bell with kept := false, woken := bell.woken ++ [(waiter, .kept)] }
  else { bell with waiting := bell.waiting ++ [waiter] }

/-- Rings once. -/
def ring (bell : Doorbell) : Doorbell :=
  match bell.waiting with
  | [] => { bell with kept := true }
  | first :: rest => { bell with waiting := rest, woken := bell.woken ++ [(first, .one)] }

/-- Rings for all. -/
def ringAll (bell : Doorbell) : Doorbell :=
  { bell with
    waiting := []
    woken := bell.woken ++ bell.waiting.map fun waiter => (waiter, .all) }

/-- Was somebody woken? -/
def isWoken (bell : Doorbell) (waiter : Nat) : Bool :=
  bell.woken.any fun woken => woken.1 == waiter

/-- Somebody who was woken notices it. -/
def notice (bell : Doorbell) (waiter : Nat) : Doorbell :=
  { bell with woken := bell.woken.filter fun woken => woken.1 != waiter }

/-- Somebody leaves. A single ring that was not noticed goes to the next one in
line. -/
def leave (bell : Doorbell) (waiter : Nat) : Doorbell :=
  let left := { bell with
    waiting := bell.waiting.filter (· != waiter)
    woken := bell.woken.filter fun woken => woken.1 != waiter }
  if bell.woken.contains (waiter, .one) then left.ring else left

end Doorbell

end AccessBroker
