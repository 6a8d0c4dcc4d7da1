import AccessBroker.Event
import AccessBroker.Policy.Snapshot
import AccessBroker.Program
import AccessBroker.Store.Call
import AccessBroker.Time.Instant

/-!
# Passes

Requests and grants are brought forward by passes. A pass looks at one object and
does what its state calls for; it is run again when the object changes, or at a
time that it asks for. A pass is a program over the calls below, so that every
place where another pass, a user or a failing store can come in between is a node
of its tree.
-/

namespace AccessBroker

open AccessBroker.Time

/-- What a pass can ask for. -/
inductive Effect where
  /-- A call to the store. -/
  | store (call : StoreCall)
  /-- Tells the listeners of an event. -/
  | tell (event : AccessEvent)
  /-- The policy snapshot. -/
  | policies
  /-- The time. -/
  | clock
  /-- An identifier that was never given out before. -/
  | freshId

/-- The calls of a pass, and their answers. -/
def passInterface : Interface where
  Call := Effect
  Reply
    | .store call => call.Reply
    | .tell _ => Except Failure Unit
    | .policies => PolicySnapshot
    | .clock => Instant
    | .freshId => String

/-- A program over the calls of a pass. -/
abbrev Steps (α : Type) := Program passInterface α

/-- A part of a pass, which may fail. -/
abbrev Pass (α : Type) := ExceptT Failure (Program passInterface) α

/-- What is left to do after a pass. -/
inductive Outcome where
  /-- Nothing until the object changes. -/
  | done
  /-- Another pass at a given time. -/
  | requeueAt (time : Instant)
  deriving Repr, DecidableEq

namespace Pass

/-- A call to the store. -/
def ask (call : StoreCall) : Pass call.Result :=
  ExceptT.mk (Program.call (I := passInterface) (.store call))

/-- The time. -/
def clock : Pass Instant :=
  ExceptT.lift (Program.call (I := passInterface) .clock)

/-- A new identifier. -/
def freshId : Pass String :=
  ExceptT.lift (Program.call (I := passInterface) .freshId)

/-- Tells the listeners of an event. It is too late to take back what happened, so
their failures are passed over. -/
def tell (event : AccessEvent) : Pass Unit :=
  ExceptT.lift do
    let _ ← Program.call (I := passInterface) (.tell event)
    return ()

/-- Tells the listeners of some events, in order. -/
def tellEach : List AccessEvent → Pass Unit
  | [] => pure ()
  | event :: rest => do
    tell event
    tellEach rest

/-- A pass whose failure is a value that the rest of the pass can look at. -/
def attempt {α : Type} (pass : Pass α) : Pass (Except Failure α) :=
  ExceptT.lift pass.run

/-- The pass, where a missing object counts as the desired end state. -/
def toleratingMissing {α : Type} (pass : Pass α) : Pass (Option α) :=
  ExceptT.mk do return Failure.toleratingMissing (← pass.run)

/-- Makes calls one after the other, whichever of them fail, and joins the
failures; a missing object is none. -/
def askEach (calls : List StoreCall) : Pass Unit :=
  ExceptT.mk do return Failure.join (← failures calls)
where
  /-- The failures of the calls, in order. -/
  failures : List StoreCall → Steps (List Failure)
    | [] => pure []
    | call :: rest => do
      match ← (Pass.ask call).toleratingMissing.run with
      | .ok _ => failures rest
      | .error failure => return failure :: (← failures rest)

end Pass

end AccessBroker
