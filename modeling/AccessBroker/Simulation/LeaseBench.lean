import AccessBroker.Lease.Coordinator
import AccessBroker.Simulation.World

/-!
# A bench for leases

A lease server with a clock, whose commands can be made to fail. Commands are known
by the names `SET`, `EVALSHA` and `SCRIPT`.
-/

namespace AccessBroker

/-- The name of a command. -/
def LeaseCommand.label : LeaseCommand → String
  | .setIfAbsent _ _ _ => "SET"
  | .runScript _ _ _ _ => "EVALSHA"
  | .loadScript _ => "SCRIPT"

/-- A lease server and those who use it. -/
structure LeaseBench where
  server : LeaseServer := {}
  /-- The clock, in milliseconds. -/
  now : Nat := 0
  /-- The number of identifiers that were given out. -/
  drawn : Nat := 0
  faults : List StatementFault := []
  /-- Is the server out of reach? -/
  isDown : Bool := false
  /-- The leases that were taken, in order. -/
  leases : List Lease := []

namespace LeaseBench

/-- Answers the calls of the operations on leases. -/
def answer : (effect : LeaseEffect) → StateM LeaseBench (leaseInterface.Reply effect)
  | .connect => return if (← get).isDown then none else some ()
  | .freshId => modifyGet fun bench =>
      (numberedId (bench.drawn + 1), { bench with drawn := bench.drawn + 1 })
  | .command command => modifyGet fun bench =>
      let (fault, faults) := StatementFault.pull bench.faults command.label
      match fault with
      | some _ => (none, { bench with faults })
      | none =>
        let (value, server) := bench.server.execute bench.now command
        (some value, { bench with server, faults })

/-- Runs an operation on leases. -/
def run {α : Type} (operation : Leasing α) : StateM LeaseBench (Except Failure α) :=
  operation.run.interpret answer

/-- The keys that are there, with their texts and the milliseconds that they have
left. -/
def listing (bench : LeaseBench) : List (String × String × Option Nat) :=
  (bench.server.purge bench.now).entries.entries.map fun (key, entry) =>
    (key, entry.text, entry.goneAt.map (· - bench.now))

end LeaseBench

end AccessBroker
