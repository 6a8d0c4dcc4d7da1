import AccessBroker.Event
import AccessBroker.Object.Lifecycle
import AccessBroker.Program
import AccessBroker.Store.Call
import AccessBroker.Store.Database

/-!
# Stores in a database

How the calls to a store are answered with the statements of a database. Every answer
is a program over statements, so that any of them may fail and others may come
between two transactions.

A write is one transaction, which is rolled back when anything in it fails. It locks
the row first and takes a version only after its checks have passed; the creation of
an object, which has nothing to lock, takes its version at once. Whatever goes into
the table of objects is also recorded in the table of changes, and a removal goes on
to the rows that name the object as an owner.
-/

namespace AccessBroker

open AccessBroker.Time

/-- Why a statement failed. -/
inductive StatementError where
  /-- The database refused it. -/
  | refused (reason : String)
  /-- The connections to the database are closed. -/
  | closed
  deriving Repr, DecidableEq

/-- The sentence shown for a statement that failed. -/
def StatementError.message : StatementError → String
  | .refused reason => "error returned from database: " ++ reason
  | .closed => "attempted to acquire a connection on a closed pool"

/-- What a store in a database can ask for. -/
inductive RelationalEffect where
  | execute (statement : Statement)
  /-- The time. -/
  | clock
  /-- An identifier that was never given out before. -/
  | freshId

/-- The calls of a store in a database, and their answers. -/
def relationalInterface : Interface where
  Call := RelationalEffect
  Reply
    | .execute statement => Except StatementError statement.Result
    | .clock => Instant
    | .freshId => String

/-- A part of an answer, which may fail. -/
abbrev Relational (α : Type) := ExceptT Failure (Program relationalInterface) α

/-- What columns of numbers are below. -/
def columnBound : Nat := Nat.pow 2 63

namespace Key

/-- The row that the object of a kind with this key is in. -/
def row (key : Key) (kind : Kind) : RowKey :=
  ⟨kind.label, key.space.getD "", key.name⟩

/-- The key that two columns stand for. -/
def ofColumns (space name : String) : Key :=
  ⟨if space.isEmpty then none else some space, name⟩

end Key

namespace ChangeRow

/-- The change that a row tells of. -/
def toChange (row : ChangeRow) : Except Failure Change := do
  if row.sequence < 0 then throw (.internal s!"change sequence {row.sequence} is negative")
  let kind ← Kind.parse row.kind
  return ⟨row.sequence.toNat, kind, Key.ofColumns row.space row.name, row.requestRef⟩

end ChangeRow

namespace Object

variable {kind : Kind}

/-- The columns and the document of an object. -/
def toRow (object : Object kind) : Row where
  uid := object.metadata.uid
  version := object.metadata.version
  ownerUids := object.metadata.ownerUids
  requestRef := object.requestRef?
  document := encode object

/-- The object of a kind in a document. -/
def ofDocument (kind : Kind) (document : Json) : Except Failure (Object kind) :=
  match decode document with
  | some object => .ok object
  | none => .error (.internal s!"failed to decode {kind.label} document")

/-- Refuses a write that was based on another version than the stored one. -/
def checkVersion (stored base : Object kind) : Except Failure Unit :=
  if stored.metadata.version = base.metadata.version then .ok ()
  else .error (kind.outdated stored.key base.metadata.version stored.metadata.version)

end Object

namespace Relational

variable {kind : Kind} {α : Type}

/-! ### Statements and transactions -/

/-- Runs a statement; its failure says what it was to do. -/
def execute (task : String) (statement : Statement) : Relational statement.Result :=
  ExceptT.mk do
    match ← Program.call (I := relationalInterface) (.execute statement) with
    | .ok value => return .ok value
    | .error cause => return .error (.internal s!"failed to {task}: {cause.message}")

/-- The time. -/
def clock : Relational Instant :=
  ExceptT.lift (Program.call (I := relationalInterface) .clock)

/-- A new identifier. -/
def freshId : Relational String :=
  ExceptT.lift (Program.call (I := relationalInterface) .freshId)

/-- A part that has already succeeded or failed. -/
def settled (outcome : Except Failure α) : Relational α :=
  ExceptT.mk (pure outcome)

/-- Runs a part in a transaction, which is rolled back if the part or the commit
fails. -/
def inTransaction (part : Relational α) : Relational α := do
  execute "begin transaction" .begin
  let whole : Relational α := do
    let value ← part
    execute "commit transaction" .commit
    return value
  ExceptT.mk do
    match ← whole.run with
    | .ok value => return .ok value
    | .error failure => do
      -- What is reported is why the part failed, whatever comes of rolling it back.
      let _ ← (execute "roll back transaction" .rollback).run
      return .error failure

/-- The next version. -/
def nextVersion : Relational Nat := do
  let version ← execute "allocate resource version" .nextVersion
  if version < 0 then throw (.internal s!"resource version {version} is negative")
  return version.toNat

/-- The stored object with a key, locked. -/
def lock (kind : Kind) (key : Key) : Relational (Option (Object kind)) := do
  match ← execute s!"lock {kind.label} '{key.text}'" (.lock (key.row kind)) with
  | none => return none
  | some document => return some (← settled (Object.ofDocument kind document))

/-- The stored object with a key, locked, where there has to be one. -/
def lockExisting (kind : Kind) (key : Key) : Relational (Object kind) := do
  match ← lock kind key with
  | some stored => return stored
  | none => throw (kind.missing key)

/-- Records that an object was written or removed. -/
def recordChange (key : RowKey) (requestRef : Option String) : Relational Unit :=
  execute "record object change" (.recordChange key requestRef)

/-- Writes a new row. -/
def insertRow (object : Object kind) : Relational Unit := do
  let key := object.key
  let isWritten ← execute s!"store {kind.label} '{key.text}'" (.insert (key.row kind) object.toRow)
  if isWritten then recordChange (key.row kind) object.requestRef?
  else throw (kind.taken key)

/-- Writes a row, whether or not there is one already. -/
def upsertRow (object : Object kind) : Relational Unit := do
  let key := object.key
  execute s!"store {kind.label} '{key.text}'" (.upsert (key.row kind) object.toRow)
  recordChange (key.row kind) object.requestRef?

/-- Records that rows were removed. -/
def recordEach : List (RowKey × Option String) → Relational Unit
  | [] => return ()
  | (key, requestRef) :: rest => do
    recordChange key requestRef
    recordEach rest

/-- Removes a row and the rows that name its object as an owner. -/
def removeRow (object : Object kind) : Relational Unit := do
  let key := object.key
  execute s!"delete {kind.label} '{key.text}'" (.delete (key.row kind))
  recordChange (key.row kind) object.requestRef?
  let collected ← execute s!"collect objects owned by {kind.label} '{key.text}'"
    (.collect object.metadata.uid)
  recordEach collected

/-! ### Writes -/

/-- Stores a new object. -/
def create (object : Object kind) : Relational (Object kind) := do
  settled object.key.validate
  inTransaction do
    let version ← nextVersion
    let uid ← freshId
    let now ← clock
    let created := object.pristine.born now uid version
    insertRow created
    return created

/-- Stores a policy, which keeps the identity of the one with its key. -/
def savePolicy (policy : Policy) : Relational Policy := do
  settled policy.key.validate
  inTransaction do
    let stored ← lock .policy policy.key
    -- A policy that is deleting stays so: its mark belongs to its identity.
    let version ← nextVersion
    let saved ← match stored with
      | some stored => pure (policy.inPlaceOf stored version)
      | none => do
        let uid ← freshId
        let now ← clock
        pure (policy.born now uid version)
    upsertRow saved
    return saved

/-- Writes the finalizers and owners of an object; one that has nothing left to wait
for is removed. -/
def updateMetadata (object : Object kind) : Relational (Object kind) :=
  inTransaction do
    let stored ← lockExisting kind object.key
    settled (stored.checkVersion object)
    let updated := stored.withLinksOf object (← nextVersion)
    if updated.isSpent then removeRow updated else upsertRow updated
    return updated

/-- Writes the status of an object. -/
def patchStatus (base : Object kind) (status : kind.Status) : Relational (Object kind) :=
  inTransaction do
    let stored ← lockExisting kind base.key
    settled (stored.checkVersion base)
    let patched := stored.patched status (← nextVersion)
    upsertRow patched
    return patched

/-- Removes an object, or marks it as deleting. An object that is marked already is
not written again. -/
def delete (kind : Kind) (key : Key) : Relational Unit :=
  inTransaction do
    let stored ← lockExisting kind key
    if stored.metadata.finalizers.isEmpty then removeRow stored
    else if !stored.metadata.isDeleting then
      let version ← nextVersion
      let now ← clock
      upsertRow (stored.marked now version)

/-! ### Look-ups, listings and feed -/

/-- The object of a kind with a key. -/
def find (kind : Kind) (key : Key) : Relational (Option (Object kind)) := do
  match ← execute s!"find {kind.label} '{key.text}'" (.find (key.row kind)) with
  | none => return none
  | some document => return some (← settled (Object.ofDocument kind document))

/-- Every policy. -/
def listPolicies : Relational (List Policy) := do
  let documents ← execute s!"list {Kind.label .policy}" (.list (Kind.label .policy))
  settled (documents.mapM (Object.ofDocument .policy))

/-- The responses to a request. -/
def listResponses (scope : Scope) (request : String) : Relational (List Response) := do
  let label := Kind.label .response
  let documents ← execute s!"list {label} for request '{request}'"
    (.listReferencing label (scope.namespace?.getD "") request)
  settled (documents.mapM (Object.ofDocument .response))

/-- The keys of a kind. The position in the feed is read first, so that no write is
missed that comes after it. -/
def listKeys (kind : Kind) : Relational KeyListing := do
  -- A write between the two statements may be listed and lie behind the head as well,
  -- but it is not missed.
  let head ← execute "read change head" .head
  if head < 0 then throw (.internal s!"change sequence {head} is negative")
  let rows ← execute s!"list {kind.label} keys" (.listKeys kind.label)
  return ⟨rows.map fun (space, name) => Key.ofColumns space name, head.toNat⟩

/-- A position in the feed, which has to fit its column. -/
def position (cursor : Nat) : Except Failure Nat :=
  if cursor < columnBound then .ok cursor
  else .error (.validation s!"change cursor {cursor} is out of range")

/-- At most `limit` of the changes that follow a position. -/
def changesSince (cursor limit : Nat) : Relational ChangePage := do
  let cursor ← settled (position cursor)
  let rows ← execute "read object changes" (.changes cursor (min limit (columnBound - 1)))
  let changes ← settled (rows.mapM ChangeRow.toChange)
  return .following cursor changes

/-- Drops the changes up to a position, and counts them. -/
def compact (through : Nat) : Relational Nat := do
  let through ← settled (position through)
  execute "compact object changes" (.compact through)

/-- Answers a call. -/
def perform : (call : StoreCall) → Relational call.Result
  | .find kind key => find kind key
  | .create _ object => create object
  | .savePolicy policy => savePolicy policy
  | .updateMetadata _ object => updateMetadata object
  | .patchStatus _ base status => patchStatus base status
  | .delete kind key => delete kind key
  | .listPolicies => listPolicies
  | .listResponses scope request => listResponses scope request
  | .listKeys kind => listKeys kind
  | .changesSince cursor limit => changesSince cursor limit
  | .compact through => compact through

/-! ### Events -/

/-- Keeps an event. -/
def keepEvent (event : AccessEvent) : Relational Unit :=
  execute "append access audit entry" (.audit {
    action := event.action.label
    space := event.key.space
    name := event.key.name
    subject := event.subject
    requestId := event.requestId
    detail := event.detail })

/-! ### Setting up -/

/-- The number of migrations that make the tables. -/
def migrationCount : Nat := 2

/-- The statements of one migration. -/
def migrationStatements : List Statement :=
  [.begin, .setup .migrate, .setup .migrationRow, .commit, .setup .migrationTime]

/-- The statements that set up the tables of an empty database. -/
def setupStatements : List Statement :=
  [.setup .database, .setup .advisoryLock, .setup .migrationsTable, .setup .dirty,
    .setup .applied] ++
  (List.replicate migrationCount migrationStatements).flatten ++
  [.setup .database, .setup .advisoryLock]

/-- Runs statements until one fails. -/
def executeEach : List Statement → Relational Unit
  | [] => return ()
  | statement :: rest => do
    let _ ← execute "run migrations" statement
    executeEach rest

/-- Sets up the tables. Which statement failed is not told. -/
def setUp : Relational Unit :=
  ExceptT.mk do
    match ← (executeEach setupStatements).run with
    | .ok () => return .ok ()
    | .error _ => return .error (.internal "failed to run migrations")

end Relational

end AccessBroker
