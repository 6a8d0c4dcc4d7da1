import AccessBroker.WorkQueue.Backoff

/-!
# The work queue

A queue of targets that wait for a worker. It holds no target twice, and hands no
target to two workers at once: a target that is added while a worker has it is
*dirty* and comes back into the queue when that worker is done with it.

The functions of this file are the sections of the queue's operations during which
nobody else looks at it. Where a waiting worker has to be woken afterwards, the
section says so; `AccessBroker.Doorbell` is what wakes it.
-/

namespace AccessBroker

variable {κ : Type} [DecidableEq κ]

/-- The state of a work queue. -/
structure WorkQueue (κ : Type) where
  /-- The targets to be handed out, the next one first. -/
  queue : List κ := []
  /-- The targets that were added and not handed out since. -/
  dirty : List κ := []
  /-- The targets that workers have. -/
  processing : List κ := []
  /-- How often in a row targets failed; targets that did not are left out. -/
  failures : List (κ × Nat) := []
  /-- Are no more targets accepted? -/
  closed : Bool := false
  deriving Repr, DecidableEq

/-- What somebody who asks for a target gets. -/
inductive Handout (κ : Type) where
  /-- A target, and whether others are waiting. -/
  | target (key : κ) (more : Bool)
  /-- Nothing, because there is nothing yet. -/
  | nothingYet
  /-- Nothing, because there will be nothing more. -/
  | nothingMore
  deriving Repr, DecidableEq

/-- When a target is added that may have to wait. -/
inductive Postponed where
  /-- It is added at once. -/
  | now
  /-- It is added when a timer fires. -/
  | later (delay : Nat)
  /-- It is not added. -/
  | never
  deriving Repr, DecidableEq

namespace WorkQueue

instance : Inhabited (WorkQueue κ) := ⟨{}⟩

/-- The highest number of failures that is told apart. -/
def mostFailures : Nat := UInt32.size - 1

/-- Adds a target, and says whether a worker is to be woken. -/
def add (state : WorkQueue κ) (key : κ) : Bool × WorkQueue κ :=
  if state.closed || state.dirty.contains key then (false, state)
  else
    let state := { state with dirty := key :: state.dirty }
    if state.processing.contains key then (false, state)
    else (true, { state with queue := state.queue ++ [key] })

/-- Hands out the next target. -/
def take (state : WorkQueue κ) : Handout κ × WorkQueue κ :=
  match state.queue with
  | key :: rest =>
    (.target key (!rest.isEmpty),
      { state with
        queue := rest
        dirty := state.dirty.filter (· ≠ key)
        processing := key :: state.processing })
  | [] => (if state.closed then .nothingMore else .nothingYet, state)

/-- Takes a target back from a worker, and says whether a worker is to be woken. -/
def done (state : WorkQueue κ) (key : κ) : Bool × WorkQueue κ :=
  let state := { state with processing := state.processing.filter (· ≠ key) }
  if state.dirty.contains key then (true, { state with queue := state.queue ++ [key] })
  else (false, state)

/-- Accepts no more targets. Every waiting worker is to be woken. -/
def close (state : WorkQueue κ) : WorkQueue κ :=
  { state with closed := true }

/-- When a target is added that is to be added after a delay. A closed queue starts
no timer. -/
def postpone (state : WorkQueue κ) (delay : Nat) : Postponed :=
  if delay = 0 then .now
  else if state.closed then .never
  else .later delay

/-- How often in a row a target failed. -/
def requeues (state : WorkQueue κ) (key : κ) : Nat :=
  ((state.failures.find? fun failure => failure.1 == key).map Prod.snd).getD 0

/-- The queue without any failures of a target. -/
def forget (state : WorkQueue κ) (key : κ) : WorkQueue κ :=
  { state with failures := state.failures.filter fun failure => failure.1 ≠ key }

/-- The queue with one more failure of a target. -/
def fail (state : WorkQueue κ) (key : κ) : WorkQueue κ :=
  let count := min (state.requeues key + 1) mostFailures
  let state := state.forget key
  { state with failures := (key, count) :: state.failures }

/-- The queue with one more failure of a target, and when the target is added again. -/
def retry (state : WorkQueue κ) (backoff : Backoff) (key : κ) : Postponed × WorkQueue κ :=
  let state := state.fail key
  (state.postpone (backoff.delay (state.requeues key)), state)

end WorkQueue

end AccessBroker
