import AccessBroker.Simulation.Agenda
import AccessBroker.WorkQueue.Shared

/-!
# A bench for work queues

A shared queue on its own, with an agenda for the timers of targets that are to be
added later and for those who wait for a target. Everybody here wants one target and
leaves with it; what they left with is remembered in order.
-/

namespace AccessBroker

open AccessBroker.Time

/-- What can be due on the agenda of a bench. -/
inductive BenchJob (κ : Type) where
  /-- Somebody looks for a target. -/
  | getter (number : Nat)
  /-- The delay of a target begins. -/
  | delay (key : κ) (nanos : Nat)
  /-- The delay of a target is over. -/
  | due (key : κ)
  deriving Repr, DecidableEq

/-- A shared queue, and those who want something from it. -/
structure QueueBench (κ : Type) where
  shared : SharedQueue κ := {}
  backoff : Backoff
  agenda : Agenda (BenchJob κ) := {}
  /-- The number of those who ever wanted a target. They are numbered from one. -/
  getters : Nat := 0
  /-- What those who have left were given, nothing if the queue was closed. -/
  received : List (Option κ) := []

namespace QueueBench

variable {κ : Type} [DecidableEq κ]

/-- The number under which somebody looks who does not wait. -/
def visitor : Nat := 0

/-- The bench after something happened to the queue: those who were woken by it are
ready. -/
def afterQueue (bench : QueueBench κ) (shared : SharedQueue κ) : QueueBench κ :=
  let woken := shared.bell.woken.filter fun entry => !bench.shared.bell.woken.contains entry
  { bench with
    shared
    agenda := woken.foldl (fun agenda entry => agenda.wake (.getter entry.1)) bench.agenda }

/-- Adds a target. -/
def add (bench : QueueBench κ) (key : κ) : QueueBench κ :=
  bench.afterQueue (bench.shared.add key)

/-- Takes a target back. -/
def done (bench : QueueBench κ) (key : κ) : QueueBench κ :=
  bench.afterQueue (bench.shared.done key)

/-- Closes the queue. -/
def close (bench : QueueBench κ) : QueueBench κ :=
  bench.afterQueue bench.shared.close

/-- Clears the failures of a target. -/
def forget (bench : QueueBench κ) (key : κ) : QueueBench κ :=
  { bench with shared := { bench.shared with queue := bench.shared.queue.forget key } }

/-- Adds a target when it is time to. -/
def postpone (bench : QueueBench κ) (key : κ) : Postponed → QueueBench κ
  | .now => bench.add key
  | .later nanos => { bench with agenda := bench.agenda.wake (.delay key nanos) }
  | .never => bench

/-- Adds a target after a delay. -/
def addAfter (bench : QueueBench κ) (key : κ) (nanos : Nat) : QueueBench κ :=
  bench.postpone key (bench.shared.queue.postpone nanos)

/-- Adds a target after the delay for one more failure. -/
def retry (bench : QueueBench κ) (key : κ) : QueueBench κ :=
  let (postponed, queue) := bench.shared.queue.retry bench.backoff key
  { bench with shared := { bench.shared with queue } }.postpone key postponed

/-- Asks for a target without waiting for one. -/
def poll (bench : QueueBench κ) : Handout κ × QueueBench κ :=
  let (handout, shared) := bench.shared.ask visitor
  match handout with
  | .nothingYet => (handout, bench.afterQueue (shared.giveUp visitor))
  | .target _ _ | .nothingMore => (handout, bench.afterQueue shared)

/-- Somebody comes who wants a target. -/
def enter (bench : QueueBench κ) : QueueBench κ :=
  let number := bench.getters + 1
  { bench with getters := number, agenda := bench.agenda.wake (.getter number) }

/-- Does one job. -/
def act (bench : QueueBench κ) : BenchJob κ → QueueBench κ
  | .delay key nanos => { bench with agenda := bench.agenda.sleep nanos (.due key) }
  | .due key => bench.add key
  | .getter number =>
    let (handout, shared) :=
      if bench.shared.bell.isWoken number then bench.shared.resume number
      else bench.shared.ask number
    let bench := bench.afterQueue shared
    match handout with
    | .target key _ => { bench with received := bench.received ++ [some key] }
    | .nothingMore => { bench with received := bench.received ++ [none] }
    | .nothingYet => bench

/-- Does jobs until nobody is ready. -/
def settle : (fuel : Nat) → QueueBench κ → QueueBench κ
  | 0, bench => bench
  | fuel + 1, bench =>
    match bench.agenda.next with
    | none => bench
    | some (job, agenda) => settle fuel ({ bench with agenda }.act job)

/-- The most jobs that are done until a bench is taken to be busy for ever. -/
def turns : Nat := 1000000

/-- Moves the clock. -/
def advance (bench : QueueBench κ) (millis : Nat) : QueueBench κ :=
  { bench with agenda := bench.agenda.advance millis }

end QueueBench

end AccessBroker
