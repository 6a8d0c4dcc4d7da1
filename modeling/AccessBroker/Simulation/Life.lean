import AccessBroker.Controller.Notice
import AccessBroker.Controller.Settings
import AccessBroker.Lease.Election
import AccessBroker.Simulation.Crew
import AccessBroker.Simulation.LeaseBench

/-!
# The life of a broker

A whole run of a broker from its environment on, at a site where there may be a
database and a lease server: it reads its settings, opens its store, competes for
leadership if it was given a lease server, reads the policies and goes to work. Once
it works – or once it has tried in vain to lead – it is told to stop.

A broker that fails before it works leaves things as they are: a lease that it has
taken stays with the server.
-/

namespace AccessBroker

open AccessBroker.Time

/-- What there is at a site. -/
structure Site where
  /-- The address of a database, empty at first. -/
  databaseUrl : Option String := none
  /-- The address of a lease server. -/
  leaseUrl : Option String := none
  /-- Who has the lease on leadership, for good. -/
  leader : Option String := none
  /-- The failures of statements of the database. -/
  faults : List StatementFault := []

/-- What the keys of the lease server start with. -/
def leaseKeyStart : String := "jitgate:leader"

namespace Site

/-- What the addresses of lease servers start with. -/
def leaseScheme : String := "redis://"

/-- Is a text the address of a lease server, whether or not there is one? -/
def isLeaseAddress (site : Site) (url : String) : Bool :=
  site.leaseUrl == some url || ((Text.trim url).map Char.toLower).startsWith leaseScheme

/-- Opens the store of a broker, once the address of its lease server has been
looked at. -/
def openStore (site : Site) (settings : Settings) (now : Instant) : Except Failure World := do
  if !(settings.leaseUrl.map site.isLeaseAddress).getD true then
    throw (.validation "invalid REDIS_URL")
  match settings.backend with
  | .memory => return { backend := .memory {}, now }
  | .postgres url _ =>
    if site.databaseUrl ≠ some url then throw (.internal "failed to connect to database")
    let world : World := {
      backend := .database {}
      now
      statementFaults := site.faults
      keepsAudit := settings.keepsAudit }
    match World.relational Relational.setUp world with
    | (.ok (), world) => return world
    | (.error failure, _) => throw failure

/-- What the lease server holds at first. -/
def leaseServer (site : Site) : LeaseServer :=
  match site.leader with
  | some leader => LeaseServer.put {} (Leasing.keyOf leaseKeyStart leaderScope) leader none
  | none => {}

/-- What a broker finds at the address of a lease server. -/
def leaseBench (site : Site) (url : String) : LeaseBench where
  server := site.leaseServer
  isDown := site.leaseUrl != some url

end Site

/-- What is known of a broker's life afterwards. -/
structure LifeReport where
  /-- What it failed of, if it failed. -/
  failure : Option Failure := none
  notices : List Notice := []
  /-- The keys that are left with the lease server. -/
  leaseKeys : List String := []

namespace LifeReport

/-- The exit status of a broker: zero unless it failed. -/
def exitStatus (report : LifeReport) : Nat :=
  if report.failure.isSome then 1 else 0

/-- The last words of a broker that failed. -/
def lastWords (report : LifeReport) : String :=
  (report.failure.map fun failure => "Error: " ++ failure.report).getD ""

end LifeReport

namespace Life

/-- The keys that are there. -/
def keysOf (bench : LeaseBench) : List String :=
  bench.listing.map fun (key, _, _) => key

/-- The crew of a broker, before anybody has started. -/
def crewOf (settings : Settings) (world : World) : Crew where
  world := world
  backoff := settings.backoff
  pace := ⟨settings.pollInterval, settings.batchSize, settings.resyncInterval⟩

/-- A crew reads the policies, and if it can, everybody goes to work. -/
def goToWork (workers : Nat) : InCrew (Except Failure Unit) := do
  match ← Crew.runWatch Watch.syncPolicies with
  | .error failure => return .error failure
  | .ok _ =>
    Crew.startWorkers workers
    Crew.startWatcher
    Crew.settle
    return .ok ()

/-- The notices of a crew that was at work when it was told to stop. A watcher that
could not list the live objects stops without a word. -/
def noticesOf (crew : Crew) : List Notice :=
  let watching : List Notice := match crew.lookout.map Lookout.state with
    | some (.following _ _) => [.listedLive, .watcherStopped]
    | _ => []
  [.policiesUpdated, .started, .toldToStop, .stopped] ++ watching

/-- The working life of a broker that leads or has nobody to compete with: what it
failed of, if it failed, and its notices. -/
def atWork (settings : Settings) (world : World) : Option Failure × List Notice :=
  match (goToWork settings.workers).run (crewOf settings world) with
  | (.error failure, _) => (some failure, [])
  | (.ok (), crew) => (none, noticesOf crew)

/-- The life of a broker that competes for leadership. -/
def asCandidate (settings : Settings) (world : World) (bench : LeaseBench) : LifeReport :=
  let (answer, bench) := (bench.run <| Leasing.acquire leaseKeyStart leaderScope
    settings.controllerId settings.leaseSeconds)
  match ElectionState.afterAttempt 0 false answer with
  | .holding lease _ =>
    let (failure, notices) := atWork settings world
    let (keys, given) : List String × List Notice :=
      if failure.isSome then (keysOf bench, [])
      else match bench.run (Leasing.release leaseKeyStart lease) with
        | (.ok (), bench) => (keysOf bench, [.releasedLeadership])
        | (.error _, bench) => (keysOf bench, [])
    { failure, notices := .acquiredLeadership :: notices ++ given, leaseKeys := keys }
  | .rejected failure => { failure := some failure, leaseKeys := keysOf bench }
  | _ => { notices := [.stoppedBeforeLeadership, .toldToStop], leaseKeys := keysOf bench }

/-- The life of a broker with an environment, at a site. -/
def live (site : Site) (environment : Environment) (defaultControllerId : String)
    (now : Instant) : LifeReport :=
  let leaseKeys := keysOf { server := site.leaseServer }
  match Settings.load environment defaultControllerId with
  | .error failure => { failure := some failure, leaseKeys }
  | .ok settings =>
    match site.openStore settings now with
    | .error failure => { failure := some failure, leaseKeys }
    | .ok world =>
      let opened : Notice := match world.backend with
        | .memory _ => .usingMemory
        | .database _ => .usingDatabase
      let report := match settings.leaseUrl with
        | some url => asCandidate settings world (site.leaseBench url)
        | none =>
          let (failure, notices) := atWork settings world
          { failure, notices, leaseKeys }
      { report with notices := Notice.inOrder (opened :: report.notices) }

end Life

end AccessBroker
