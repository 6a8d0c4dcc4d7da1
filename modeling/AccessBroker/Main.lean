import AccessBroker.Simulation.Life
import Std.Time.DateTime.Timestamp

/-!
# The program

A broker that is set up by the environment of its process and works in its memory until
its standard input ends, which is how it is told to stop. Its notices go to the standard
output, and its last words, if it fails, to the standard error. It has no way to reach
a database or a lease server: with the first it does not start, and with the second
it never leads.
-/

namespace AccessBroker

open AccessBroker.Time

/-- The names of the settings. -/
def settingNames : List String :=
  ["JITGATE_STORE_BACKEND", "DATABASE_URL", "DATABASE_MAX_CONNECTIONS", "JITGATE_CONTROLLER_ID",
    "JITGATE_WORKER_CONCURRENCY", "JITGATE_WATCH_POLL_INTERVAL_MS", "JITGATE_WATCH_BATCH_SIZE",
    "JITGATE_POLICY_RESYNC_SECONDS", "JITGATE_REQUEUE_BASE_DELAY_MS",
    "JITGATE_REQUEUE_MAX_DELAY_SECONDS", "REDIS_URL", "JITGATE_LEADER_LEASE_SECONDS",
    "JITGATE_AUDIT_PERSIST"]

/-- The environment of this process. -/
def processEnvironment : IO Environment :=
  settingNames.filterMapM fun name => do
    return (← IO.getEnv name).map fun value => (name, value)

/-- The time of this machine. -/
def machineTime : IO Instant := do
  let time ← Std.Time.Timestamp.now
  return (Instant.ofSinceEpoch? time.toNanosecondsSinceUnixEpoch.val).getD Instant.epoch

/-- Says what has happened. -/
def say (notice : Notice) : IO Unit :=
  IO.println notice.text

/-- Reads a stream to its end. -/
partial def readToEnd (stream : IO.FS.Stream) : IO Unit := do
  let line ← stream.getLine
  unless line.isEmpty do readToEnd stream

/-- How often a crew is told how late it is, in milliseconds. -/
def heartbeat : UInt32 := 50

/-- Keeps a crew that started at a time of the machine's clock at work until a task has
ended. -/
partial def keepWorking {α : Type} (start : Nat) (ended : Task α) (crew : Crew) : IO Crew := do
  if ← IO.hasFinished ended then return crew
  IO.sleep heartbeat
  let elapsed := (← IO.monoMsNow) - start
  let ((), crew) : Unit × Crew := (Crew.advance (elapsed - crew.agenda.time)).run crew
  keepWorking start ended crew

/-- Ends with the last words of a broker that failed. -/
def fail (failure : Failure) : IO UInt32 := do
  let report : LifeReport := { failure := some failure }
  IO.eprintln report.lastWords
  return 1

/-- The working life of a broker: it works until a task has ended. -/
def workUntil {α : Type} (ended : Task α) (settings : Settings) (world : World) : IO UInt32 := do
  let start ← IO.monoMsNow
  match (Life.goToWork settings.workers).run (Life.crewOf settings world) with
  | (.error failure, _) => fail failure
  | (.ok (), crew) =>
    let atOnce : List Notice := [.policiesUpdated, .started]
    atOnce.forM say
    let crew ← keepWorking start ended crew
    let inTheEnd := (Notice.inOrder (Life.noticesOf crew)).filter (!atOnce.contains ·)
    inTheEnd.forM say
    return 0

/-- The life of a broker in this process. -/
def live : IO UInt32 := do
  let name ← IO.rand 0 999999
  match Settings.load (← processEnvironment) s!"controller-{name}" with
  | .error failure => fail failure
  | .ok settings =>
    match ({} : Site).openStore settings (← machineTime) with
    | .error failure => fail failure
    | .ok world =>
      say .usingMemory
      let ended ← IO.asTask (readToEnd (← IO.getStdin)) .dedicated
      match settings.leaseUrl with
      | none => workUntil ended settings world
      | some _ =>
        let _ ← IO.wait ended
        say .toldToStop
        say .stoppedBeforeLeadership
        return 0

end AccessBroker

/-- Runs a broker; the exit status is zero unless it fails. -/
def main : IO UInt32 :=
  AccessBroker.live
