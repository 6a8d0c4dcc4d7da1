import AccessBroker.Controller.Target
import AccessBroker.Engine.Grant
import AccessBroker.Engine.Request
import AccessBroker.WorkQueue.Basic

/-!
# Workers

A worker takes a target off the work queue, runs a pass on it, and settles what the
pass came to before it gives the target back: after a success the record of failures
is cleared, and the target comes back at the time that the pass asked for, if it
asked for one; after a failure it comes back once its delay is over.
-/

namespace AccessBroker

open AccessBroker.Time

/-- One pass on a target. -/
def Target.reconcile : Target → Pass Outcome
  | .request key => Request.reconcile key
  | .grant key => Grant.reconcile key

namespace WorkQueue

/-- The time from `now` to a later instant; none is left to an earlier one. -/
def timeLeft (now time : Instant) : Nat :=
  (now.timeTo time).toNat

/-- Settles a pass: the queue with what is now known of failures, and when the target
comes back. -/
def settle (queue : WorkQueue Target) (backoff : Backoff) (now : Instant) (target : Target) :
    Except Failure Outcome → Postponed × WorkQueue Target
  | .ok .done => (.never, queue.forget target)
  | .ok (.requeueAt time) =>
    let queue := queue.forget target
    (queue.postpone (timeLeft now time), queue)
  | .error _ => queue.retry backoff target

end WorkQueue

end AccessBroker
