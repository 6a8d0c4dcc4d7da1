import AccessBroker.Time.Instant

/-!
# Agendas

Who is to act next, when several tasks share one clock. Tasks that are ready act in
the order in which they became ready; sleeping tasks become ready when the clock
reaches the time they are waiting for, the earlier ones first, and of those that wait
for the same time the one that went to sleep first. The clock counts whole
milliseconds, so a sleep lasts until the first millisecond that is late enough.
-/

namespace AccessBroker

open AccessBroker.Time

/-- The tasks that are ready and those that sleep. -/
structure Agenda (τ : Type) where
  /-- The clock, in milliseconds. -/
  time : Nat := 0
  /-- The tasks that are ready, the next one first. -/
  ready : List τ := []
  /-- The tasks that sleep and when they wake up, in the order in which they will. -/
  sleeping : List (Nat × τ) := []
  deriving Repr, DecidableEq

namespace Agenda

variable {τ : Type}

instance : Inhabited (Agenda τ) := ⟨{}⟩

/-- A task becomes ready. -/
def wake (agenda : Agenda τ) (task : τ) : Agenda τ :=
  { agenda with ready := agenda.ready ++ [task] }

/-- The first millisecond that is not before a number of nanoseconds. -/
def millisUp (nanos : Nat) : Nat :=
  (nanos + nanosPerMilli - 1) / nanosPerMilli

/-- A task goes to sleep for a number of nanoseconds. -/
def sleep (agenda : Agenda τ) (nanos : Nat) (task : τ) : Agenda τ :=
  let due := agenda.time + millisUp nanos
  { agenda with
    sleeping := agenda.sleeping.takeWhile (fun other => other.1 ≤ due) ++
      (due, task) :: agenda.sleeping.dropWhile fun other => other.1 ≤ due }

/-- The clock moves on by a number of milliseconds. -/
def advance (agenda : Agenda τ) (millis : Nat) : Agenda τ :=
  let time := agenda.time + millis
  { time
    ready := agenda.ready ++
      (agenda.sleeping.takeWhile fun other => other.1 ≤ time).map Prod.snd
    sleeping := agenda.sleeping.dropWhile fun other => other.1 ≤ time }

/-- The tasks that sleep, without some of them. -/
def cancel (agenda : Agenda τ) (isCancelled : τ → Bool) : Agenda τ :=
  { agenda with sleeping := agenda.sleeping.filter fun other => !isCancelled other.2 }

/-- The next task that is ready. -/
def next (agenda : Agenda τ) : Option (τ × Agenda τ) :=
  match agenda.ready with
  | [] => none
  | task :: rest => some (task, { agenda with ready := rest })

end Agenda

end AccessBroker
