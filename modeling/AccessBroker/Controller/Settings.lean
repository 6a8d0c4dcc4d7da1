import AccessBroker.Failure
import AccessBroker.Text.Blank
import AccessBroker.Text.Numeral
import AccessBroker.Time.Instant
import AccessBroker.WorkQueue.Backoff

/-!
# Settings

The broker is set up by named texts, its environment. Every setting has a default
but the address of the database, which has to be given when the database is the
store. Numbers are positive and bounded by what they are used for.

The first setting that is wrong, in the order in which they are read here, is the
one that is reported.
-/

namespace AccessBroker

open AccessBroker.Text AccessBroker.Time

/-- The environment: the texts that are given, by name. -/
abbrev Environment := List (String × String)

/-- The text with a name, if it is given. -/
def Environment.get? (environment : Environment) (name : String) : Option String :=
  (environment.find? fun entry => entry.1 == name).map Prod.snd

/-- Where objects are stored. -/
inductive StoreBackend where
  /-- In a database that all brokers share. -/
  | postgres (url : String) (maxConnections : Nat)
  /-- In the memory of this broker. -/
  | memory
  deriving Repr, DecidableEq, Inhabited

/-- The settings of a broker. Lengths of time are numbers of nanoseconds. -/
structure Settings where
  backend : StoreBackend
  /-- The name of this broker among others. -/
  controllerId : String
  /-- The number of workers. -/
  workers : Nat
  /-- The pause between two looks at the change feed. -/
  pollInterval : Nat
  /-- The most changes that are read at once. -/
  batchSize : Nat
  /-- The pause between two times that all policies are read. -/
  resyncInterval : Nat
  /-- The delays before failed targets are tried again. -/
  backoff : Backoff
  /-- Where the lease on leadership is kept, if brokers compete for it. -/
  leaseUrl : Option String
  /-- How long a lease lasts, in seconds. -/
  leaseSeconds : Nat
  /-- Are events kept in the database? -/
  keepsAudit : Bool
  deriving Repr, DecidableEq

namespace Settings

/-- What is wrong with the environment. -/
inductive Error where
  /-- The store is none of the known ones. -/
  | unknownBackend (name : String)
  /-- A text that has to be given is not. -/
  | missing (name : String)
  /-- A text is no number. -/
  | invalidNumber (name value : String) (cause : NumeralError)
  /-- A number that has to be positive is zero. -/
  | notPositive (name : String)
  /-- A text is neither true nor false. -/
  | invalidFlag (name value : String)
  /-- The base delay is greater than the greatest one. -/
  | delaysOutOfOrder
  deriving Repr, DecidableEq

/-- The sentence shown for a wrong environment. -/
def Error.message : Error → String
  | .unknownBackend name =>
    s!"JITGATE_STORE_BACKEND must be either 'postgres' or 'memory', got '{name}'"
  | .missing name => s!"{name} is required"
  | .invalidNumber name value cause => s!"invalid {name} value '{value}': {cause.message}"
  | .notPositive name => s!"{name} must be greater than zero"
  | .invalidFlag name value => s!"invalid {name} value '{value}': expected true or false"
  | .delaysOutOfOrder =>
    "JITGATE_REQUEUE_BASE_DELAY_MS must not exceed JITGATE_REQUEUE_MAX_DELAY_SECONDS"

/-- What numbers of 32 bits are below. -/
def bound32 : Nat := UInt32.size

/-- What numbers of 64 bits are below. -/
def bound64 : Nat := UInt64.size

/-- A positive number below a bound, or the default if none is given. -/
def readNumber (environment : Environment) (name : String) (bound default : Nat) :
    Except Error Nat :=
  match environment.get? name with
  | none => .ok default
  | some value =>
    match readBelow bound value with
    | .error cause => .error (.invalidNumber name value cause)
    | .ok 0 => .error (.notPositive name)
    | .ok number => .ok number

/-- A text without the blanks around it, and with its ASCII letters lowered. -/
def normalize (value : String) : String :=
  (trim value).map Char.toLower

/-- A truth value, or the default if none is given. -/
def readFlag (environment : Environment) (name : String) (default : Bool) : Except Error Bool :=
  match environment.get? name with
  | none => .ok default
  | some value =>
    let normal := normalize value
    if normal = "true" ∨ normal = "1" then .ok true
    else if normal = "false" ∨ normal = "0" then .ok false
    else .error (.invalidFlag name value)

/-- Where objects are stored. What concerns the database is read only if objects are
stored there. -/
def readBackend (environment : Environment) : Except Error StoreBackend := do
  let name := normalize ((environment.get? "JITGATE_STORE_BACKEND").getD "postgres")
  if name = "postgres" then
    match environment.get? "DATABASE_URL" with
    | none => throw (.missing "DATABASE_URL")
    | some url =>
      return .postgres url (← readNumber environment "DATABASE_MAX_CONNECTIONS" bound32 5)
  else if name = "memory" then return .memory
  else throw (.unknownBackend name)

/-- The name of this broker: the one that is given, or the default if that is
blank. -/
def readControllerId (environment : Environment) (default : String) : String :=
  let given := trim ((environment.get? "JITGATE_CONTROLLER_ID").getD "")
  if given.isEmpty then default else given

/-- Reads the settings. -/
def read (environment : Environment) (defaultControllerId : String) : Except Error Settings := do
  let number := readNumber environment
  let backend ← readBackend environment
  let workers ← number "JITGATE_WORKER_CONCURRENCY" bound64 4
  let pollMillis ← number "JITGATE_WATCH_POLL_INTERVAL_MS" bound64 1000
  let batchSize ← number "JITGATE_WATCH_BATCH_SIZE" bound64 200
  let resyncSeconds ← number "JITGATE_POLICY_RESYNC_SECONDS" bound64 300
  let baseMillis ← number "JITGATE_REQUEUE_BASE_DELAY_MS" bound64 500
  let maxSeconds ← number "JITGATE_REQUEUE_MAX_DELAY_SECONDS" bound64 300
  let leaseSeconds ← number "JITGATE_LEADER_LEASE_SECONDS" bound32 15
  let keepsAudit ← readFlag environment "JITGATE_AUDIT_PERSIST" true
  let backoff : Backoff := ⟨baseMillis * nanosPerMilli, maxSeconds * nanosPerSecond⟩
  -- Every single setting is fine by now; what remains is how two of them go together.
  if backoff.max < backoff.base then throw .delaysOutOfOrder
  return {
    backend
    controllerId := readControllerId environment defaultControllerId
    workers
    pollInterval := pollMillis * nanosPerMilli
    batchSize
    resyncInterval := resyncSeconds * nanosPerSecond
    backoff
    leaseUrl := (environment.get? "REDIS_URL").filter fun url => !isBlankText url
    leaseSeconds
    keepsAudit }

/-- Reads the settings, with the failure that a wrong environment is reported as. -/
def load (environment : Environment) (defaultControllerId : String) : Except Failure Settings :=
  match read environment defaultControllerId with
  | .ok settings => .ok settings
  | .error cause => .error (.validation cause.message)

end Settings

end AccessBroker
