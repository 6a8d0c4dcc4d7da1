/-!
# Notices

What a broker says of its own life while it runs, in the order in which a reader of
its log looks for it.
-/

namespace AccessBroker

/-- The turns in the life of a broker. -/
inductive Notice where
  /-- Objects are stored in a database. -/
  | usingDatabase
  /-- Objects are stored in memory. -/
  | usingMemory
  /-- This broker leads. -/
  | acquiredLeadership
  /-- This broker has given the lease back. -/
  | releasedLeadership
  /-- This broker was told to stop before it led. -/
  | stoppedBeforeLeadership
  /-- The policies have been read. -/
  | policiesUpdated
  /-- The workers and the watcher are at work. -/
  | started
  /-- The broker was told to stop. -/
  | toldToStop
  /-- The live objects have been listed. -/
  | listedLive
  /-- The watcher has stopped. -/
  | watcherStopped
  /-- Everybody has stopped. -/
  | stopped
  deriving Repr, DecidableEq

namespace Notice

/-- Every notice, in order. -/
def all : List Notice :=
  [.usingDatabase, .usingMemory, .acquiredLeadership, .releasedLeadership,
    .stoppedBeforeLeadership, .policiesUpdated, .started, .toldToStop, .listedLive,
    .watcherStopped, .stopped]

/-- The sentence of a notice. -/
def text : Notice → String
  | .usingDatabase => "using postgres object store"
  | .usingMemory => "using in-memory object store"
  | .acquiredLeadership => "acquired controller leadership"
  | .releasedLeadership => "released controller leadership"
  | .stoppedBeforeLeadership => "shutdown before leadership was acquired"
  | .policiesUpdated => "policy snapshot updated"
  | .started => "jitgate-controller started"
  | .toldToStop => "shutdown signal received"
  | .listedLive => "listed live requests and grants"
  | .watcherStopped => "change watcher stopped"
  | .stopped => "jitgate-controller stopped"

/-- Those of the notices that were given, each once and in order. -/
def inOrder (given : List Notice) : List Notice :=
  all.filter given.contains

end Notice

end AccessBroker
