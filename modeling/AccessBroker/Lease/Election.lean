import AccessBroker.Lease.Coordinator
import AccessBroker.Time.Instant

/-!
# Election

Of several brokers only the one that holds the lease on leadership works. A broker
tries to take the lease at a steady pace until it has it, and renews it at the same
pace. It stops working when it learns that the lease is somebody else's, or when it
could not renew it for as long as it lasts; told to stop, it gives the lease back.

Times are numbers of nanoseconds on a clock of the broker.
-/

namespace AccessBroker

open AccessBroker.Time

/-- The scope that all brokers compete for. -/
def leaderScope : String := "controller-leader"

/-- What a broker competes as. -/
structure Candidate where
  holder : String
  /-- How long a lease lasts, in seconds. -/
  leaseSeconds : Nat
  deriving Repr, DecidableEq, Inhabited

namespace Candidate

/-- How long a lease lasts. -/
def leaseLength (candidate : Candidate) : Nat :=
  candidate.leaseSeconds * nanosPerSecond

/-- The pause between two attempts to take or renew the lease: a third of its
length. -/
def pause (candidate : Candidate) : Nat :=
  candidate.leaseLength / 3

end Candidate

/-- Where a broker is in the competition. -/
inductive ElectionState where
  /-- It has not got the lease. -/
  | seeking
  /-- It has had the lease since its last renewal. -/
  | holding (lease : Lease) (renewedAt : Nat)
  /-- It stopped before it got the lease. -/
  | withdrawn
  /-- It cannot compete. -/
  | rejected (failure : Failure)
  /-- It has lost the lease and has to stop working. -/
  | lost (lease : Lease)
  /-- It was told to stop and has given the lease back. -/
  | released (lease : Lease)
  deriving Repr

namespace ElectionState

/-- Is the competition over? -/
def isOver : ElectionState → Bool
  | .seeking | .holding _ _ => false
  | .withdrawn | .rejected _ | .lost _ | .released _ => true

/-- After an attempt to take the lease at a time. Only a failure of the arguments is
final; after any other one, the broker tries again unless it has been told to stop. -/
def afterAttempt (now : Nat) (isStopping : Bool) :
    Except Failure (Option Lease) → ElectionState
  | .ok (some lease) => .holding lease now
  | .error (.validation detail) => .rejected (.validation detail)
  | .ok none | .error _ => if isStopping then .withdrawn else .seeking

/-- After an attempt to renew a lease at a time. -/
def afterRenewal (candidate : Candidate) (lease : Lease) (renewedAt now : Nat) :
    Except Failure Bool → ElectionState
  | .ok true => .holding lease now
  | .ok false => .lost lease
  | .error _ =>
    if candidate.leaseLength ≤ now - renewedAt then .lost lease else .holding lease renewedAt

end ElectionState

end AccessBroker
