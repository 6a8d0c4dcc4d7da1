import AccessBroker.Simulation.Fault
import AccessBroker.Store.Memory

/-!
# Simulated worlds

A world is a store, the policy snapshot, and a clock that stands still until it is
moved. Identifiers are numbered in the order in which they are given out. The engines
reach the store through the planned faults (`AccessBroker.World.call`); other clients
reach it directly (`AccessBroker.World.perform`). Listeners are one that remembers
every event and, when the store is a database, possibly one that keeps it there.
-/

namespace AccessBroker

open AccessBroker.Time

/-- What a world stores its objects in. -/
inductive Backend where
  | memory (store : MemoryStore)
  | database (database : Database)

/-- A simulated world. -/
structure World where
  backend : Backend
  now : Instant
  /-- The number of identifiers that were given out. -/
  drawn : Nat := 0
  callFaults : List CallFault := []
  statementFaults : List StatementFault := []
  snapshot : PolicySnapshot := {}
  /-- Does a database keep the events that are told? -/
  keepsAudit : Bool := true
  /-- The events that were told and not yet reported. -/
  heard : List AccessEvent := []

/-- What happens in a world. -/
abbrev InWorld (α : Type) := StateM World α

/-- The last `width` hexadecimal digits of a number, zeros in front. -/
def hexDigits : Nat → Nat → List Char
  | 0, _ => []
  | width + 1, n => hexDigits width (n / 16) ++ [Nat.digitChar (n % 16)]

/-- The identifier with a number. -/
def numberedId (n : Nat) : String :=
  "00000000-0000-4000-8000-" ++ String.ofList (hexDigits 12 n)

namespace World

/-- Gives out an identifier. -/
def freshId : InWorld String :=
  modifyGet fun world => (numberedId (world.drawn + 1), { world with drawn := world.drawn + 1 })

/-! ### The store -/

/-- Runs a statement, unless a fault hits it. Where there is no database, there is no
connection to one. -/
def execute (statement : Statement) : InWorld (Except StatementError statement.Result) :=
  modifyGet fun world =>
    let (fault, statementFaults) := StatementFault.pull world.statementFaults statement.label
    let world := { world with statementFaults }
    match fault, world.backend with
    | some fault, _ => (.error (.refused fault.reason), world)
    | none, .memory _ => (.error .closed, world)
    | none, .database database =>
      let (value, database) := database.execute statement
      (.ok value, { world with backend := .database database })

/-- Answers the calls of a store in a database. -/
def answerRelational : (effect : RelationalEffect) → InWorld (relationalInterface.Reply effect)
  | .execute statement => execute statement
  | .clock => return (← get).now
  | .freshId => freshId

/-- Runs a part of what a store in a database does. -/
def relational {α : Type} (part : Relational α) : InWorld (Except Failure α) :=
  part.run.interpret answerRelational

/-- Makes a call to the store directly. -/
def perform (call : StoreCall) : InWorld call.Reply := do
  let world ← get
  match world.backend with
  | .memory store =>
    let drawn := if store.takesUid call then world.drawn + 1 else world.drawn
    let (reply, store) := store.perform world.now (numberedId (world.drawn + 1)) call
    set { world with backend := .memory store, drawn }
    return reply
  | .database _ => relational (Relational.perform call)

/-- Lets a client do something with the store directly. -/
def client : ClientStep → InWorld Unit
  | .direct call => do
    let _ ← perform call
  | .edit kind key version edit => do
    match ← perform (.find kind key) with
    | .error _ => return
    | .ok read =>
      match edit.toCall? read key version with
      | none => return
      | some call =>
        let _ ← perform call

/-- One occasion for the planned faults of calls: the fault that hits, if one does,
once other clients have done what they do meanwhile. -/
def occasion (label : String) (key : Option Key) : InWorld (Option CallFault) := do
  let world ← get
  let (fault, callFaults) := CallFault.pull world.callFaults label key
  set { world with callFaults }
  match fault with
  | none => return none
  | some fault =>
    fault.meanwhile.forM client
    return some fault

/-- Makes a call to the store through the planned faults. -/
def call (call : StoreCall) : InWorld call.Reply := do
  match ← occasion call.label call.key? with
  | none => perform call
  | some fault =>
    match fault.failure, fault.isAfter with
    | none, _ => perform call
    | some failure, false => return .error failure
    | some failure, true =>
      match ← perform call with
      | .ok _ => return .error failure
      | .error own => return .error own

/-! ### Listeners -/

/-- The listener that remembers events. -/
def hear (event : AccessEvent) : InWorld (Except Failure Unit) := do
  let remember : InWorld Unit := modify fun world => { world with heard := world.heard ++ [event] }
  match ← occasion "record" (some event.key) with
  | none => do
    remember
    return .ok ()
  | some fault =>
    if fault.failure.isNone || fault.isAfter then remember
    return match fault.failure with
      | none => .ok ()
      | some failure => .error failure

/-- Tells the listeners of an event. -/
def tell (event : AccessEvent) : InWorld (Except Failure Unit) := do
  let world ← get
  let listeners := match world.backend, world.keepsAudit with
    | .database _, true => [hear, fun event => relational (Relational.keepEvent event)]
    | _, _ => [hear]
  event.tellAll listeners

/-- Takes note of the events that were told, which are reported once. -/
def takeHeard : InWorld (List AccessEvent) :=
  modifyGet fun world => (world.heard, { world with heard := [] })

/-! ### Passes -/

/-- Answers the calls of a pass. -/
def answerPass : (effect : Effect) → InWorld (passInterface.Reply effect)
  | .store storeCall => call storeCall
  | .tell event => tell event
  | .policies => return (← get).snapshot
  | .clock => return (← get).now
  | .freshId => freshId

/-- Runs a pass. -/
def runPass {α : Type} (pass : Pass α) : InWorld (Except Failure α) :=
  pass.run.interpret answerPass

/-- Replaces the policy snapshot, and gives its version. -/
def replacePolicies (policies : List Policy) : InWorld Nat :=
  modifyGet fun world =>
    let snapshot := world.snapshot.replace policies
    (snapshot.version, { world with snapshot })

end World

end AccessBroker
