import AccessBroker.Failure
import AccessBroker.Lease.KeyValue
import AccessBroker.Program
import AccessBroker.Text.Blank

/-!
# Leases

A lease says that its holder alone leads in a scope, for a limited time. It is a key
of the lease server that holds a token which nobody else has: taking the lease writes
the key if it is absent, and renewing or giving it back acts only while the key still
holds the token. The three operations are programs over the commands of the server.
-/

namespace AccessBroker

/-- A lease. -/
structure Lease where
  scope : String
  /-- What the key holds while the lease lasts. -/
  token : String
  holder : String
  deriving Repr, DecidableEq, Inhabited

/-- What the operations on leases can ask for. An answer is missing when the server
does not give one. -/
inductive LeaseEffect where
  /-- A connection to the server. -/
  | connect
  | command (command : LeaseCommand)
  /-- An identifier that was never given out before. -/
  | freshId

/-- The calls of the operations on leases, and their answers. -/
def leaseInterface : Interface where
  Call := LeaseEffect
  Reply
    | .connect => Option Unit
    | .command command => Option command.Result
    | .freshId => String

/-- An operation on leases, which may fail. -/
abbrev Leasing (α : Type) := ExceptT Failure (Program leaseInterface) α

namespace Leasing

/-- Connects to the server. -/
def connect : Leasing Unit :=
  ExceptT.mk do
    match ← Program.call (I := leaseInterface) .connect with
    | some () => return .ok ()
    | none => return .error (.internal "failed to connect to redis")

/-- Gives the server a command; the failure says what the command was to do. -/
def execute (task : String) (command : LeaseCommand) : Leasing command.Result :=
  ExceptT.mk do
    match ← Program.call (I := leaseInterface) (.command command) with
    | some value => return .ok value
    | none => return .error (.internal s!"failed to {task} leader lease")

/-- Runs a script, which is given to the server first if the server does not know it.
The answer says whether the script did something. -/
def runScript (task : String) (script : LeaseScript) (key token : String) (seconds : Nat) :
    Leasing Bool := do
  let run := LeaseCommand.runScript script key token seconds
  match ← execute task run with
  | .ran hasActed => return hasActed
  | .unknown =>
    execute task (.loadScript script)
    match ← execute task run with
    | .ran hasActed => return hasActed
    | .unknown => throw (.internal s!"failed to {task} leader lease")

/-- Refuses a lease that does not last. -/
def checkSeconds (seconds : Nat) : Except Failure Unit :=
  if seconds = 0 then .error (.validation "leader lease_seconds must be greater than zero")
  else .ok ()

/-- Refuses a lease without a scope or holder, or one that does not last. -/
def checkArguments (scope holder : String) (seconds : Nat) : Except Failure Unit :=
  if Text.isBlankText scope then
    .error (.validation "leader lease scope_key must not be empty")
  else if Text.isBlankText holder then
    .error (.validation "leader lease holder_id must not be empty")
  else checkSeconds seconds

/-- The key of a scope. -/
def keyOf (start scope : String) : String :=
  start ++ ":" ++ scope

/-- Takes the lease of a scope; there is none if somebody has it. -/
def acquire (start scope holder : String) (seconds : Nat) : Leasing (Option Lease) := do
  ExceptT.mk (pure (checkArguments scope holder seconds))
  -- The token is new even if nothing comes of the attempt.
  let id : String ← ExceptT.lift (Program.call (I := leaseInterface) .freshId)
  let token := holder ++ ":" ++ id
  connect
  let isWritten ← execute "acquire" (.setIfAbsent (keyOf start scope) token seconds)
  return if isWritten then some ⟨scope, token, holder⟩ else none

/-- Renews a lease; the answer says whether it still was the holder's. -/
def renew (start : String) (lease : Lease) (seconds : Nat) : Leasing Bool := do
  ExceptT.mk (pure (checkSeconds seconds))
  connect
  runScript "renew" .renew (keyOf start lease.scope) lease.token seconds

/-- Gives a lease back, if it still is the holder's. -/
def release (start : String) (lease : Lease) : Leasing Unit := do
  connect
  let _ ← runScript "release" .release (keyOf start lease.scope) lease.token 0
  return ()

end Leasing

end AccessBroker
