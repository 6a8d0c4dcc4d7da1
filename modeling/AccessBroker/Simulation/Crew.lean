import AccessBroker.Controller.Watcher
import AccessBroker.Controller.Worker
import AccessBroker.Simulation.Agenda
import AccessBroker.Simulation.World
import AccessBroker.WorkQueue.Shared

/-!
# Crews

A crew is a world together with the workers and the watcher that keep it in order:
they share a work queue, and an agenda says who of them acts next. Nobody is
interrupted: a worker goes on until it finds the queue empty, and the watcher until it
waits for its next look at the feed. Once nobody is ready any more
(`AccessBroker.Crew.settle`), nothing happens until the clock is moved
(`AccessBroker.Crew.advance`), a target is added or the crew is told to stop.
-/

namespace AccessBroker

open AccessBroker.Time

/-- What can be due on the agenda of a crew. -/
inductive Job where
  /-- A worker looks for targets. -/
  | worker (number : Nat)
  /-- The watcher goes on. -/
  | watcher
  /-- The delay of a target begins. -/
  | delay (target : Target) (nanos : Nat)
  /-- The delay of a target is over. -/
  | due (target : Target)
  deriving Repr, DecidableEq

/-- The watcher of a crew. -/
structure Lookout where
  state : WatchState := .listing
  /-- Is the watcher waiting? -/
  isWaiting : Bool := false
  /-- Was the watcher told to stop since it started? -/
  isSignalled : Bool := false
  deriving Repr, DecidableEq

/-- A world and those who work in it. -/
structure Crew where
  world : World
  queue : SharedQueue Target := {}
  backoff : Backoff
  pace : WatchPace
  agenda : Agenda Job := {}
  /-- The number of workers that were ever started. They are numbered from one. -/
  workers : Nat := 0
  /-- The watchers that were started and have not stopped, in the order of their
  start. -/
  lookout : Option Lookout := none
  isStopping : Bool := false
  /-- The number of workers and watchers at work. -/
  running : Nat := 0
  /-- The number of those who have stopped and were not yet reported. -/
  ended : Nat := 0

/-- What a crew does. -/
abbrev InCrew (α : Type) := StateM Crew α

namespace Crew

/-- The most turns that are taken until a crew is taken to be busy for ever. -/
def turns : Nat := 1000000

/-- The number under which others than workers look for targets. -/
def visitor : Nat := 0

/-- Something happens in the world of a crew. -/
def inWorld {α : Type} (action : InWorld α) : InCrew α :=
  modifyGet fun crew =>
    let (value, world) := action crew.world
    (value, { crew with world })

/-- Something happens to the queue, and the workers that it wakes are ready. -/
def inQueue {α : Type} (action : SharedQueue Target → α × SharedQueue Target) : InCrew α :=
  modifyGet fun crew =>
    let (value, queue) := action crew.queue
    let woken := (queue.bell.woken.filter fun entry => !crew.queue.bell.woken.contains entry).map
      Prod.fst
    (value, { crew with
      queue
      agenda := woken.foldl (fun agenda number => agenda.wake (.worker number)) crew.agenda })

/-- Adds a target to the queue. -/
def add (target : Target) : InCrew Unit :=
  inQueue fun queue => ((), queue.add target)

/-- The clock of the agenda in nanoseconds. -/
def clock : InCrew Nat :=
  return (← get).agenda.time * nanosPerMilli

/-- Changes the agenda. -/
def schedule (change : Agenda Job → Agenda Job) : InCrew Unit :=
  modify fun crew => { crew with agenda := change crew.agenda }

/-- Somebody stops. -/
def stop : InCrew Unit :=
  modify fun crew => { crew with running := crew.running - 1, ended := crew.ended + 1 }

/-! ### Workers -/

/-- Adds a target when it is time to. -/
def postpone (target : Target) : Postponed → InCrew Unit
  | .now => add target
  | .later delay => schedule fun agenda => agenda.wake (.delay target delay)
  | .never => return ()

/-- Runs a pass on a target, settles it and gives the target back. -/
def handle (target : Target) : InCrew Unit := do
  let outcome ← inWorld (World.runPass target.reconcile)
  let crew ← get
  let (postponed, queue) :=
    crew.queue.queue.settle crew.backoff crew.world.now target outcome
  set { crew with queue := { crew.queue with queue } }
  postpone target postponed
  inQueue fun queue => ((), queue.done target)

/-- A worker handles what it is handed out until there is nothing. -/
def work (number : Nat) : (fuel : Nat) → Handout Target → InCrew Unit
  | 0, _ | _, .nothingYet => return ()
  | _, .nothingMore => stop
  | fuel + 1, .target target _ => do
    handle target
    work number fuel (← inQueue fun queue => queue.ask number)

/-- A worker looks for targets: one that was woken goes on, and another one has just
come. -/
def visit (number : Nat) : InCrew Unit := do
  let isWoken := (← get).queue.bell.isWoken number
  work number turns (← inQueue fun queue =>
    if isWoken then queue.resume number else queue.ask number)

/-- Starts a number of workers. -/
def startWorkers : (count : Nat) → InCrew Unit
  | 0 => return ()
  | count + 1 => do
    modify fun crew =>
      let number := crew.workers + 1
      { crew with
        workers := number
        running := crew.running + 1
        agenda := crew.agenda.wake (.worker number) }
    startWorkers count

/-- Takes every target that is ready off the queue, and gives each one back at once. -/
def drain : (fuel : Nat) → InCrew (List Target)
  | 0 => return []
  | fuel + 1 => do
    match ← inQueue fun queue => queue.ask visitor with
    | .target target _ => do
      inQueue fun queue => ((), queue.done target)
      return target :: (← drain fuel)
    | .nothingYet | .nothingMore => do
      inQueue fun queue => ((), queue.giveUp visitor)
      return []

/-! ### The watcher -/

/-- Answers the calls of the watcher. -/
def answerWatch : (effect : WatchEffect) → InCrew (watchInterface.Reply effect)
  | .store call => inWorld (World.call call)
  | .enqueue target => add target
  | .replacePolicies policies => inWorld (World.replacePolicies policies)

/-- Runs a part of the watcher's work. -/
def runWatch {α : Type} (part : Watch α) : InCrew (Except Failure α) :=
  part.run.interpret answerWatch

/-- The watcher works until it waits or stops. -/
def watch : (fuel : Nat) → WatchState → InCrew Unit
  | 0, _ => return ()
  | _, .stopped => do
    modify fun crew => { crew with lookout := none }
    stop
  | fuel + 1, state => do
    let crew ← get
    let (state, isWaiting) ←
      (state.work crew.pace (← clock) crew.isStopping).interpret answerWatch
    if isWaiting then
      -- A wait that is over already lasts until the others had their turn.
      let now ← clock
      let due := state.waitsUntil crew.pace now
      modify fun crew => { crew with lookout := some { state, isWaiting := true } }
      schedule fun agenda =>
        if due ≤ now then agenda.wake .watcher else agenda.sleep (due - now) .watcher
    else watch fuel state

/-- The watcher starts, or goes on after a wait. -/
def lookOut : InCrew Unit := do
  let crew ← get
  match crew.lookout with
  | none => return ()
  | some lookout =>
    let state ←
      if lookout.isWaiting then
        (lookout.state.resume crew.pace (← clock) lookout.isSignalled).interpret answerWatch
      else pure lookout.state
    watch turns state

/-- Starts the watcher. -/
def startWatcher : InCrew Unit :=
  modify fun crew =>
    { crew with
      lookout := some {}
      running := crew.running + 1
      agenda := crew.agenda.wake .watcher }

/-! ### Time -/

/-- Does one job. -/
def act : Job → InCrew Unit
  | .worker number => visit number
  | .watcher => lookOut
  | .delay target nanos => schedule fun agenda => agenda.sleep nanos (.due target)
  | .due target => add target

/-- Does jobs until nobody is ready. -/
def settleWithin : (fuel : Nat) → InCrew Unit
  | 0 => return ()
  | fuel + 1 => do
    match (← get).agenda.next with
    | none => return ()
    | some (job, agenda) =>
      modify fun crew => { crew with agenda }
      act job
      settleWithin fuel

/-- Does jobs until nobody is ready. -/
def settle : InCrew Unit :=
  settleWithin turns

/-- Moves the clock of the world alone. -/
def moveClock (nanos : Nat) : InCrew Unit :=
  inWorld (modify fun world => { world with now := world.now.after nanos })

/-- Moves all clocks by a number of milliseconds, and lets everybody act who is
due. -/
def advance (millis : Nat) : InCrew Unit := do
  moveClock (millis * nanosPerMilli)
  schedule fun agenda => agenda.advance millis
  settle

/-- Moves all clocks by a number of milliseconds, in slices of a given length. -/
def advanceBy (slice : Nat) : (millis : Nat) → InCrew Unit
  | 0 => return ()
  | millis + 1 => do
    let part := if slice = 0 then millis + 1 else min slice (millis + 1)
    advance part
    advanceBy slice (millis + 1 - part)
  termination_by millis => millis
  decreasing_by
    have : 0 < part := by
      show 0 < if slice = 0 then millis + 1 else min slice (millis + 1)
      split <;> omega
    omega

/-- Tells everybody to stop: the watcher first, then those who wait for targets. -/
def shutDown : InCrew Unit := do
  modify fun crew =>
    let crew := { crew with isStopping := true }
    match crew.lookout with
    | some lookout =>
      let agenda := crew.agenda.cancel (· == .watcher)
      -- A watcher whose wait has just ended goes on by itself, and notices then.
      let isDue := agenda.ready.contains .watcher
      { crew with
        lookout := some { lookout with isSignalled := true }
        agenda := if lookout.isWaiting && !isDue then agenda.wake .watcher else agenda }
    | none => crew
  inQueue fun queue => ((), queue.close)

/-- The number of those who have stopped since they were last counted. -/
def takeEnded : InCrew Nat :=
  modifyGet fun crew => (crew.ended, { crew with ended := 0 })

end Crew

end AccessBroker
