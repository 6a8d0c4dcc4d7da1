import AccessBroker.Store.Table

/-!
# The lease server

Leases are kept by a server that holds texts under keys, each possibly for a limited
time: once its time is reached, the key is gone. The server writes a key only if it is
absent, and runs two small scripts, which look at the text under a key before they do
anything, in one go. A script has to be given to the server once before it can be
asked for. Times are in milliseconds.
-/

namespace AccessBroker

/-- The scripts. -/
inductive LeaseScript where
  /-- Removes the key. -/
  | release
  /-- Sets the time that the key has left. -/
  | renew
  deriving Repr, DecidableEq

/-- What is asked of the server. -/
inductive LeaseCommand where
  /-- Writes a text under a key for a number of seconds, if the key is absent. -/
  | setIfAbsent (key text : String) (seconds : Nat)
  /-- Runs a script on a key, if the text under it is the given one. -/
  | runScript (script : LeaseScript) (key text : String) (seconds : Nat)
  /-- Gives a script to the server. -/
  | loadScript (script : LeaseScript)
  deriving Repr, DecidableEq

/-- What the server says when it is asked to run a script. -/
inductive ScriptReply where
  /-- The script is not known. -/
  | unknown
  /-- The script has run, and may have done something. -/
  | ran (hasActed : Bool)
  deriving Repr, DecidableEq

/-- What a command that succeeds gives. -/
abbrev LeaseCommand.Result : LeaseCommand → Type
  | .setIfAbsent _ _ _ => Bool
  | .runScript _ _ _ _ => ScriptReply
  | .loadScript _ => Unit

/-- A text under a key. -/
structure LeaseEntry where
  text : String
  /-- When the key goes, if it ever does. -/
  goneAt : Option Nat
  deriving Repr, DecidableEq

/-- The keys and the scripts of a lease server. -/
structure LeaseServer where
  entries : Table String LeaseEntry := {}
  scripts : List LeaseScript := []

namespace LeaseServer

instance : Inhabited LeaseServer := ⟨{}⟩

/-- The milliseconds of a number of seconds. -/
def millis (seconds : Nat) : Nat :=
  1000 * seconds

/-- Is an entry still there at a time? -/
def isLive (now : Nat) (entry : LeaseEntry) : Bool :=
  (entry.goneAt.map fun time => decide (now < time)).getD true

/-- The server without the keys that are gone at a time. -/
def purge (server : LeaseServer) (now : Nat) : LeaseServer :=
  { server with entries := server.entries.retain fun _ entry => isLive now entry }

/-- The text under a key. -/
def text? (server : LeaseServer) (key : String) : Option String :=
  (server.entries.find? key).map (·.text)

/-- The server with a text under a key. -/
def put (server : LeaseServer) (key text : String) (goneAt : Option Nat) : LeaseServer :=
  { server with entries := server.entries.insert key ⟨text, goneAt⟩ }

/-- Does what a script does once it has found the right text. -/
def actOn (server : LeaseServer) (now : Nat) (key text : String) (seconds : Nat) :
    LeaseScript → LeaseServer
  | .release => { server with entries := server.entries.erase key }
  | .renew => server.put key text (some (now + millis seconds))

/-- Carries out a command at a time. -/
def execute (server : LeaseServer) (now : Nat) :
    (command : LeaseCommand) → command.Result × LeaseServer
  | .setIfAbsent key text seconds =>
    let server := server.purge now
    if server.entries.contains key then (false, server)
    else (true, server.put key text (some (now + millis seconds)))
  | .runScript script key text seconds =>
    let server := server.purge now
    if !server.scripts.contains script then (.unknown, server)
    else if server.text? key = some text then
      (.ran true, server.actOn now key text seconds script)
    else (.ran false, server)
  | .loadScript script => ((), { server with scripts := script :: server.scripts })

end LeaseServer

end AccessBroker
