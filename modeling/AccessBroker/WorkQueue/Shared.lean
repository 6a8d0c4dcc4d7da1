import AccessBroker.WorkQueue.Basic
import AccessBroker.WorkQueue.Doorbell

/-!
# A queue with a doorbell

The work queue as workers share it. Asking for a target takes several looks: put the
name down at the bell, look at the queue, and either leave with a target or wait to
be woken and look again (`AccessBroker.SharedQueue.look`). The operations that add
targets ring the bell once they have changed the queue.
-/

namespace AccessBroker

variable {κ : Type} [DecidableEq κ]

/-- A work queue and the bell of those who wait for it. -/
structure SharedQueue (κ : Type) where
  queue : WorkQueue κ := {}
  bell : Doorbell := {}
  deriving Repr, DecidableEq

namespace SharedQueue

instance : Inhabited (SharedQueue κ) := ⟨{}⟩

/-- Rings the bell if a section of the queue asked for it. -/
def afterSection (shared : SharedQueue κ) (outcome : Bool × WorkQueue κ) : SharedQueue κ where
  queue := outcome.2
  bell := if outcome.1 then shared.bell.ring else shared.bell

/-- Adds a target. -/
def add (shared : SharedQueue κ) (key : κ) : SharedQueue κ :=
  shared.afterSection (shared.queue.add key)

/-- Takes a target back from a worker. -/
def done (shared : SharedQueue κ) (key : κ) : SharedQueue κ :=
  shared.afterSection (shared.queue.done key)

/-- Closes the queue, and wakes everybody. -/
def close (shared : SharedQueue κ) : SharedQueue κ where
  queue := shared.queue.close
  bell := shared.bell.ringAll

/-- A waiter who has put the name down looks at the queue, and leaves unless there
is nothing yet. Whoever leaves with a target while others remain rings for them. -/
def look (shared : SharedQueue κ) (waiter : Nat) : Handout κ × SharedQueue κ :=
  let (handout, queue) := shared.queue.take
  let bell := match handout with
    -- The ring for those who remain comes before the ring that is passed on.
    | .target _ more => (if more then shared.bell.ring else shared.bell).leave waiter
    | .nothingMore => shared.bell.leave waiter
    | .nothingYet => shared.bell
  (handout, { queue, bell })

/-- A newcomer puts the name down and looks, again if there was a ring meanwhile. A
ring can have been kept only once, so the second look is the last. -/
def ask (shared : SharedQueue κ) (waiter : Nat) : Handout κ × SharedQueue κ :=
  let enrolled := { shared with bell := shared.bell.enrol waiter }
  let (handout, looked) := enrolled.look waiter
  if handout = .nothingYet ∧ looked.bell.isWoken waiter then
    let noticed := { looked with bell := (looked.bell.notice waiter).enrol waiter }
    noticed.look waiter
  else (handout, looked)

/-- A waiter who was woken asks again; another one goes on waiting. -/
def resume (shared : SharedQueue κ) (waiter : Nat) : Handout κ × SharedQueue κ :=
  if shared.bell.isWoken waiter then
    { shared with bell := shared.bell.notice waiter }.ask waiter
  else (.nothingYet, shared)

/-- A waiter gives up. -/
def giveUp (shared : SharedQueue κ) (waiter : Nat) : SharedQueue κ :=
  { shared with bell := shared.bell.leave waiter }

end SharedQueue

end AccessBroker
