import AccessBroker.Object.Basic
import AccessBroker.Store.Table

/-!
# The database

The tables in which brokers share their objects, and the statements that they run on
them. A row holds an object as a document; what look-ups go by is repeated in columns
beside it. Namespaces are texts here, and the empty one stands for the whole cluster.
Every write of an object is accompanied by a row in the table of changes, and a
further table takes the events that are kept.

A transaction works on a copy of the tables, which replaces them when it is committed
and is forgotten when it is rolled back. The two sequences that versions and change
rows are numbered from do not go back.
-/

namespace AccessBroker

/-- The key of a row. -/
structure RowKey where
  /-- The name of the kind. -/
  kind : String
  /-- The namespace, empty for the whole cluster. -/
  space : String
  name : String
  deriving Repr, DecidableEq, Inhabited

/-- Rows are ordered by kind, namespace and name. -/
instance : Ord RowKey :=
  ⟨compareLex (compareOn RowKey.kind) (compareLex (compareOn RowKey.space) (compareOn RowKey.name))⟩

instance : Std.TransOrd RowKey :=
  inferInstanceAs (Std.TransCmp (compareLex (compareOn RowKey.kind)
    (compareLex (compareOn RowKey.space) (compareOn RowKey.name))))

instance : Std.LawfulEqOrd RowKey where
  eq_of_compare {a b} h := by
    obtain ⟨hkind, hspace, hname⟩ : compare a.kind b.kind = .eq ∧
        compare a.space b.space = .eq ∧ compare a.name b.name = .eq := by
      simpa [compare, compareLex, compareOn, Ordering.then_eq_eq] using h
    cases a
    cases b
    simp only [Std.LawfulEqOrd.compare_eq_iff_eq] at hkind hspace hname
    simp [hkind, hspace, hname]

/-- What a row holds of an object. -/
structure Row where
  uid : String
  version : Int
  /-- The identifiers of the owners. -/
  ownerUids : List String
  /-- The request that the object names. -/
  requestRef : Option String
  document : Json
  deriving Repr

/-- A row of the table of changes. -/
structure ChangeRow where
  sequence : Int
  kind : String
  space : String
  name : String
  requestRef : Option String
  deriving Repr, DecidableEq

/-- A row of the table of events. -/
structure AuditRow where
  action : String
  /-- The namespace, absent for the whole cluster. -/
  space : Option String
  name : String
  subject : String
  requestId : String
  detail : Option String
  deriving Repr, DecidableEq

/-- The three tables. -/
structure Tables where
  objects : Table RowKey Row := {}
  /-- The rows in the order in which they were appended. -/
  changes : List ChangeRow := []
  audit : List AuditRow := []

/-- The tables, the transaction that is under way, and the two sequences. -/
structure Database where
  tables : Tables := {}
  /-- The copy that a transaction works on. -/
  transaction : Option Tables := none
  /-- The last version that was given out. -/
  lastVersion : Int := 0
  /-- The number of the last change row. -/
  lastSequence : Int := 0

/-! ### Statements -/

/-- The statements that set up the tables. -/
inductive SetupStatement where
  /-- Asks for the name of the database. -/
  | database
  /-- Takes or returns the lock that keeps two brokers from setting up at once. -/
  | advisoryLock
  /-- Makes sure that the table of past migrations exists. -/
  | migrationsTable
  /-- Asks for a migration that stopped half-way. -/
  | dirty
  /-- Asks for the migrations that have run. -/
  | applied
  /-- Runs a migration. -/
  | migrate
  /-- Notes that a migration has run. -/
  | migrationRow
  /-- Notes how long a migration took. -/
  | migrationTime
  deriving Repr, DecidableEq

/-- The statements. -/
inductive Statement where
  | setup (statement : SetupStatement)
  | begin
  | commit
  | rollback
  /-- The next version. -/
  | nextVersion
  /-- The document of a row, which nobody else may change until the transaction
  ends. -/
  | lock (key : RowKey)
  /-- The document of a row. -/
  | find (key : RowKey)
  /-- Adds a row unless there is one with its key. -/
  | insert (key : RowKey) (row : Row)
  /-- Adds a row, or overwrites the one with its key up to its identifier. -/
  | upsert (key : RowKey) (row : Row)
  /-- Removes a row. -/
  | delete (key : RowKey)
  /-- Removes the rows that name an owner. -/
  | collect (owner : String)
  /-- Appends to the table of changes. -/
  | recordChange (key : RowKey) (requestRef : Option String)
  /-- The documents of a kind. -/
  | list (kind : String)
  /-- The namespaces and names of a kind. -/
  | listKeys (kind : String)
  /-- The documents of a kind and namespace that name a request. -/
  | listReferencing (kind space request : String)
  /-- The greatest number in the table of changes. -/
  | head
  /-- At most `limit` changes with numbers above `cursor`. -/
  | changes (cursor limit : Nat)
  /-- Removes the changes with numbers up to a given one. -/
  | compact (through : Nat)
  /-- Appends to the table of events. -/
  | audit (row : AuditRow)

namespace Statement

/-- What a statement that succeeds gives. -/
abbrev Result : Statement → Type
  | .setup _ | .begin | .commit | .rollback | .upsert _ _ | .delete _ | .recordChange _ _
  | .audit _ => Unit
  | .nextVersion | .head => Int
  | .lock _ | .find _ => Option Json
  | .insert _ _ => Bool
  | .collect _ => List (RowKey × Option String)
  | .list _ | .listReferencing _ _ _ => List Json
  | .listKeys _ => List (String × String)
  | .changes _ _ => List ChangeRow
  | .compact _ => Nat

end Statement

namespace Tables

/-- The rows of a kind, in the order of their keys. -/
def rowsOf (tables : Tables) (kind : String) : List (RowKey × Row) :=
  tables.objects.entries.filter fun entry => entry.1.kind == kind

/-- The changes in the order of their numbers. -/
def changesInOrder (tables : Tables) : List ChangeRow :=
  tables.changes.mergeSort fun a b => a.sequence ≤ b.sequence

/-- The greatest number of a change, or zero without changes. -/
def head (tables : Tables) : Int :=
  match tables.changes.map (·.sequence) with
  | [] => 0
  | first :: rest => rest.foldl max first

/-- The tables with a row written: an identifier that is there stays. -/
def upsert (tables : Tables) (key : RowKey) (row : Row) : Tables :=
  let uid := ((tables.objects.find? key).map (·.uid)).getD row.uid
  { tables with objects := tables.objects.insert key { row with uid } }

end Tables

namespace Database

instance : Inhabited Database := ⟨{}⟩

/-- The tables as the next statement sees them. -/
def current (database : Database) : Tables :=
  database.transaction.getD database.tables

/-- The database with other tables for the next statement. -/
def withCurrent (database : Database) (tables : Tables) : Database :=
  match database.transaction with
  | some _ => { database with transaction := some tables }
  | none => { database with tables }

/-- Runs a statement. -/
def execute (database : Database) : (statement : Statement) → statement.Result × Database
  | .setup _ => ((), database)
  | .begin => ((), { database with transaction := some database.tables })
  | .commit => ((), { database with tables := database.current, transaction := none })
  | .rollback => ((), { database with transaction := none })
  | .nextVersion =>
    let version := database.lastVersion + 1
    (version, { database with lastVersion := version })
  | .lock key | .find key =>
    ((database.current.objects.find? key).map (·.document), database)
  | .insert key row =>
    let tables := database.current
    if tables.objects.contains key then (false, database)
    else (true, database.withCurrent { tables with objects := tables.objects.insert key row })
  | .upsert key row => ((), database.withCurrent (database.current.upsert key row))
  | .delete key =>
    let tables := database.current
    ((), database.withCurrent { tables with objects := tables.objects.erase key })
  | .collect owner =>
    let tables := database.current
    let isOwned (row : Row) : Bool := row.ownerUids.contains owner
    let owned := tables.objects.entries.filter fun entry => isOwned entry.2
    (owned.map fun entry => (entry.1, entry.2.requestRef),
      database.withCurrent
        { tables with objects := tables.objects.retain fun _ row => !isOwned row })
  | .recordChange key requestRef =>
    let tables := database.current
    let sequence := database.lastSequence + 1
    let change : ChangeRow := ⟨sequence, key.kind, key.space, key.name, requestRef⟩
    ((), { database.withCurrent { tables with changes := tables.changes ++ [change] } with
      lastSequence := sequence })
  | .list kind => ((database.current.rowsOf kind).map fun entry => entry.2.document, database)
  | .listKeys kind =>
    ((database.current.rowsOf kind).map fun entry => (entry.1.space, entry.1.name), database)
  | .listReferencing kind space request =>
    let rows := (database.current.rowsOf kind).filter fun entry =>
      entry.1.space == space && entry.2.requestRef == some request
    (rows.map fun entry => entry.2.document, database)
  | .head => (database.current.head, database)
  | .changes cursor limit =>
    let later := database.current.changesInOrder.filter fun change =>
      decide ((cursor : Int) < change.sequence)
    (later.take limit, database)
  | .compact through =>
    let tables := database.current
    let isSeen (change : ChangeRow) : Bool := change.sequence ≤ through
    ((tables.changes.filter isSeen).length,
      database.withCurrent { tables with changes := tables.changes.filter (!isSeen ·) })
  | .audit row =>
    let tables := database.current
    ((), database.withCurrent { tables with audit := tables.audit ++ [row] })

end Database

end AccessBroker
