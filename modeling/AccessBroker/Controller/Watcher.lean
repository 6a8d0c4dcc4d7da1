import AccessBroker.Controller.Target
import AccessBroker.Policy.Snapshot
import AccessBroker.Program

/-!
# The watcher

The watcher turns writes into work. It lists the live requests and grants once, all
of which become targets, and from then on follows the change feed from the position
of that listing: every change is a reason to look at a target, to read the policies
again, or nothing. Changes that have been seen are dropped from the feed.

The parts of this file are programs over the watcher's calls. How they follow each
other in time – when to look again after a failure, and when to read the policies
although nothing has changed – is said by `AccessBroker.WatchState`.
-/

namespace AccessBroker

/-- What the watcher can ask for. -/
inductive WatchEffect where
  /-- A call to the store. -/
  | store (call : StoreCall)
  /-- Adds a target to the work queue. -/
  | enqueue (target : Target)
  /-- Replaces the policy snapshot. -/
  | replacePolicies (policies : List Policy)

/-- The calls of the watcher, and their answers. -/
def watchInterface : Interface where
  Call := WatchEffect
  Reply
    | .store call => call.Reply
    | .enqueue _ => Unit
    | .replacePolicies _ => Nat

/-- A part of the watcher's work, which may fail. -/
abbrev Watch (α : Type) := ExceptT Failure (Program watchInterface) α

namespace Watch

/-- A call to the store. -/
def ask (call : StoreCall) : Watch call.Result :=
  ExceptT.mk (Program.call (I := watchInterface) (.store call))

/-- Adds targets to the work queue, in order. -/
def enqueueEach : List Target → Watch Unit
  | [] => pure ()
  | target :: rest => do
    ExceptT.lift (Program.call (I := watchInterface) (.enqueue target))
    enqueueEach rest

/-- Goes on whether or not a part fails. -/
def toleratingFailure {α : Type} (part : Watch α) : Watch Unit :=
  ExceptT.lift do
    let _ ← part.run
    return ()

/-- Reads all policies again, and gives the version of the snapshot. -/
def syncPolicies : Watch Nat := do
  let policies ← ask .listPolicies
  ExceptT.lift (Program.call (I := watchInterface) (.replacePolicies policies))

/-- Makes every live request and grant a target, and gives the position to follow
the feed from: no write that comes after one of the two listings lies before it. -/
def listLive : Watch Nat := do
  let requests ← ask (.listKeys .request)
  let grants ← ask (.listKeys .grant)
  enqueueEach (requests.keys.map Target.request ++ grants.keys.map Target.grant)
  return min requests.cursor grants.cursor

/-- The targets that some changes give rise to. -/
def targetsOf (changes : List Change) : List Target :=
  changes.filterMap fun change =>
    match change.reaction with
    | .enqueue target => some target
    | .resyncPolicies | .ignore => none

/-- Is one of the changes a reason to read the policies again? -/
def touchesPolicies (changes : List Change) : Bool :=
  changes.any fun change => change.reaction == .resyncPolicies

/-- Reads and handles one page of the feed. The next position is given, and whether
the page was full. -/
def pollOnce (batchSize cursor : Nat) : Watch (Nat × Bool) := do
  let page ← ask (.changesSince cursor batchSize)
  enqueueEach (targetsOf page.changes)
  if touchesPolicies page.changes then
    toleratingFailure syncPolicies
  -- Changes that could not be dropped now are dropped with a later page.
  if !page.changes.isEmpty then
    toleratingFailure (ask (.compact page.nextCursor))
  return (page.nextCursor, decide (batchSize ≤ page.changes.length))

end Watch

/-! ### The watcher in time -/

/-- How the watcher spaces out its work, in nanoseconds. -/
structure WatchPace where
  pollInterval : Nat
  /-- The most changes that are read at once. -/
  batchSize : Nat
  resyncInterval : Nat
  deriving Repr, DecidableEq, Inhabited

/-- Where the watcher is. -/
inductive WatchState where
  /-- The live objects have not been listed yet. -/
  | listing
  /-- The feed is followed from a position; the policies are due to be read again at
  a time. -/
  | following (cursor resyncDue : Nat)
  /-- The watcher has stopped. -/
  | stopped
  deriving Repr, DecidableEq, Inhabited

namespace WatchState

/-- The policies are still due at their old pace when they were read no later than
this after they were due, in nanoseconds. -/
def tickTolerance : Nat := 5000000

/-- When the policies are due again after they were due at `due` and read at `now`.
A late reading moves all later ones. -/
def nextResync (pace : WatchPace) (due now : Nat) : Nat :=
  (if due + tickTolerance < now then now else due) + pace.resyncInterval

/-- One piece of work at a given time: listing the live objects, or reading one page
of the feed. The state afterwards is given, and whether the watcher waits then; it
does not after a full page, nor once the live objects have been listed. -/
def work (pace : WatchPace) (now : Nat) (isStopping : Bool) :
    WatchState → Program watchInterface (WatchState × Bool)
  | .listing => do
    match ← Watch.listLive.run with
    | .ok cursor => return (.following cursor (now + pace.resyncInterval), false)
    | .error _ => return if isStopping then (.stopped, false) else (.listing, true)
  | .following cursor due => do
    let (cursor, isFull) := match ← (Watch.pollOnce pace.batchSize cursor).run with
      | .ok (next, isFull) => (next, isFull)
      | .error _ => (cursor, false)
    return if isStopping then (.stopped, false) else (.following cursor due, !isFull)
  | .stopped => return (.stopped, false)

/-- When a watcher that waits from `now` on goes on by itself. -/
def waitsUntil (pace : WatchPace) (now : Nat) : WatchState → Nat
  | .following _ due => min due (now + pace.pollInterval)
  | .listing | .stopped => now + pace.pollInterval

/-- The end of a wait: the signal to stop ends the watcher, and otherwise the
policies are read again if they are due. -/
def resume (pace : WatchPace) (now : Nat) (isSignalled : Bool) :
    WatchState → Program watchInterface WatchState
  | .following cursor due => do
    if isSignalled then return .stopped
    else if now < due then return .following cursor due
    else
      let _ ← (Watch.toleratingFailure Watch.syncPolicies).run
      return .following cursor (nextResync pace due now)
  | .listing => return if isSignalled then .stopped else .listing
  | .stopped => return .stopped

end WatchState

end AccessBroker
