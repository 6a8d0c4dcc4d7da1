import AccessBroker.Proofs.Documents
import AccessBroker.Proofs.Store.LookUps
import AccessBroker.Store.Relational

/-!
# A database that one store has for itself

A store in a database is a program over statements. Here it is run against tables that nobody else
uses meanwhile, and on which no statement fails (`AccessBroker.Relational.serve`).

All that the store goes by is on its shelf (`AccessBroker.Shelf`): the rows of objects and the last
version that was given out. The table of changes is written along and never decides anything; the
one thing to know of it is that its numbers are not negative. `AccessBroker.Relational.Gives` says
of a part of an answer what it comes to from one shelf to another, with a transaction under way or
without. Parts are put together by `AccessBroker.Relational.Gives.bind`, and a transaction keeps
what its part has done to the rows or forgets it, but versions do not come back
(`AccessBroker.Relational.Gives.committed`, `AccessBroker.Relational.Gives.rolledBack`).
-/

namespace AccessBroker

open AccessBroker.Time

/-- Answers what a store in a database asks for: every statement is carried out, the time is `now`,
and the identifier that is not used yet is `uid`. -/
def answering (now : Instant) (uid : String) : (effect : relationalInterface.Call) → Database →
    relationalInterface.Reply effect × Database
  | .execute statement, database =>
    (.ok (database.execute statement).1, (database.execute statement).2)
  | .clock, database => (now, database)
  | .freshId, database => (uid, database)

/-- Runs a part of an answer on a database that nobody else uses meanwhile. -/
def Relational.serve {α : Type} (now : Instant) (uid : String) (part : Relational α)
    (database : Database) : Except Failure α × Database :=
  Program.run (answering now uid) part.run database

/-- What a store in a database goes by. -/
structure Shelf where
  /-- The rows of objects. -/
  rows : Table RowKey Row := {}
  /-- The last version that was given out. -/
  version : Nat := 0

namespace Shelf

variable {kind : Kind}

/-- The shelf with the next version given out. -/
def renewed (shelf : Shelf) : Shelf :=
  { shelf with version := shelf.version + 1 }

/-- The shelf with the row of an object. -/
def put (shelf : Shelf) (object : Object kind) : Shelf :=
  { shelf with rows := shelf.rows.insert (object.key.row kind) object.toRow }

/-- The shelf without the row of an object and without the rows that name it as an owner. -/
def drop (shelf : Shelf) (object : Object kind) : Shelf :=
  { shelf with rows := (shelf.rows.erase (object.key.row kind)).retain fun _ row =>
      !row.ownerUids.contains object.metadata.uid }

/-- What lies under a key: nothing, or the row of an object whose version has 64 bits. -/
def Holds (shelf : Shelf) (kind : Kind) (key : Key) (found : Option (Object kind)) : Prop :=
  shelf.rows.find? (key.row kind) = found.map Object.toRow ∧
    ∀ object, found = some object → object.metadata.version < UInt64.size

/-- The rows of a kind, in the order of their keys. -/
def rowsOf (shelf : Shelf) (kind : Kind) : List (RowKey × Row) :=
  shelf.rows.entries.filter fun entry => entry.1.kind == kind.label

/-- The rows of a kind are those of some objects, whose versions have 64 bits. -/
def Lists (shelf : Shelf) (kind : Kind) (objects : List (Object kind)) : Prop :=
  shelf.rowsOf kind = objects.map (fun object => (object.key.row kind, object.toRow)) ∧
    ∀ object ∈ objects, object.metadata.version < UInt64.size

end Shelf

/-- An object whose version has 64 bits is read from its document. -/
theorem Object.ofDocument_encode {kind : Kind} {object : Object kind}
    (h : object.metadata.version < UInt64.size) :
    Object.ofDocument kind (encode object) = .ok object := by
  rw [Object.ofDocument, object.decode_encode_object h]

/-- What a database looks like to its store. -/
structure Database.Shows (database : Database) (base : Option Tables) (shelf : Shelf) : Prop where
  rows : database.current.objects = shelf.rows
  version : database.lastVersion = shelf.version
  /-- A transaction is under way over the tables `base`, or none is. -/
  under : match base with
    | none => database.transaction = none
    | some tables => database.tables = tables ∧ database.transaction.isSome = true
  sequence : 0 ≤ database.lastSequence
  changes : ∀ change ∈ database.current.changes, 0 ≤ change.sequence

namespace Database.Shows

variable {database : Database} {base : Option Tables} {shelf : Shelf}

/-- Other tables for the next statement. -/
theorem withCurrent (h : database.Shows base shelf) (tables : Tables) {rows : Table RowKey Row}
    (hrows : tables.objects = rows) (hchanges : ∀ change ∈ tables.changes, 0 ≤ change.sequence) :
    (database.withCurrent tables).Shows base { shelf with rows } := by
  have hunder := h.under
  unfold Database.withCurrent
  split
  · next held hheld =>
    refine ⟨hrows, h.version, ?_, h.sequence, hchanges⟩
    cases base with
    | none => exact absurd (hheld.symm.trans hunder) (by rintro ⟨⟩)
    | some tables => exact ⟨hunder.1, rfl⟩
  · next hnone =>
    refine ⟨?_, h.version, ?_, h.sequence, ?_⟩
    · rw [Database.current, hnone]
      exact hrows
    · cases base with
      | none => exact hnone
      | some tables => exact absurd (hnone ▸ hunder.2) (by rintro ⟨⟩)
    · rw [Database.current, hnone]
      exact hchanges

/-- Without a transaction the next statement sees the tables themselves. -/
theorem current_eq (h : database.Shows none shelf) : database.current = database.tables := by
  rw [Database.current, h.under]
  rfl

/-- The greatest number of a change is not negative. -/
theorem head_nonneg (h : database.Shows base shelf) : 0 ≤ database.current.head := by
  have hfold (rest : List Int) (first : Int) (hfirst : 0 ≤ first) : 0 ≤ rest.foldl max first := by
    induction rest generalizing first with
    | nil => exact hfirst
    | cons next rest ih => exact ih (max first next) (by omega)
  unfold Tables.head
  split
  · exact Int.le_refl 0
  · next first rest hnumbers =>
    refine hfold rest first ?_
    obtain ⟨change, hchange, hsame⟩ :
        ∃ change ∈ database.current.changes, change.sequence = first :=
      List.mem_map.1 (hnumbers ▸ List.mem_cons_self)
    exact hsame ▸ h.changes change hchange

end Database.Shows

namespace Relational

variable {α β : Type} {kind : Kind} {now : Instant} {uid : String}

theorem serve_bind (part : Relational α) (rest : α → Relational β) (database : Database) :
    (part >>= rest).serve now uid database =
      match part.serve now uid database with
      | (.ok value, database) => (rest value).serve now uid database
      | (.error failure, database) => (.error failure, database) := by
  rw [serve, ExceptT.run_bind, Program.run_bind]
  unfold serve
  rcases Program.run (answering now uid) part.run database with ⟨_ | value, after⟩ <;> rfl

/-- A transaction is committed when its part has succeeded, and rolled back when it has failed. -/
theorem serve_inTransaction (part : Relational α) (database : Database) :
    (inTransaction part).serve now uid database =
      match part.serve now uid (database.execute .begin).2 with
      | (.ok value, middle) => (.ok value, (middle.execute .commit).2)
      | (.error failure, middle) => (.error failure, (middle.execute .rollback).2) := by
  have hwhole : (do
      let value ← part
      execute "commit transaction" .commit
      return value : Relational α).serve now uid (database.execute .begin).2 =
        match part.serve now uid (database.execute .begin).2 with
        | (.ok value, middle) => (.ok value, (middle.execute .commit).2)
        | (.error failure, middle) => (.error failure, middle) := by
    rw [serve_bind]
    rcases part.serve now uid (database.execute .begin).2 with ⟨_ | value, middle⟩ <;> rfl
  rw [inTransaction, serve_bind]
  change Program.run (answering now uid) (_ >>= _) (database.execute .begin).2 = _
  rw [Program.run_bind]
  unfold serve at hwhole ⊢
  rw [hwhole]
  rcases Program.run (answering now uid) part.run (database.execute .begin).2 with
    ⟨_ | value, middle⟩ <;> rfl

/-- **What a part of an answer comes to**, from one shelf to another. -/
def Gives (now : Instant) (uid : String) (base : Option Tables) (part : Relational α)
    (shelf : Shelf) (outcome : Except Failure α) (after : Shelf) : Prop :=
  ∀ database : Database, database.Shows base shelf →
    ∃ left : Database, part.serve now uid database = (outcome, left) ∧ left.Shows base after

variable {base : Option Tables} {part : Relational α} {shelf between after : Shelf}
  {outcome : Except Failure β} {value : α} {failure : Failure}

namespace Gives

/-! ### Putting parts together -/

theorem pure (value : α) (shelf : Shelf) :
    Gives now uid base (Pure.pure value) shelf (.ok value) shelf :=
  fun database h => ⟨database, rfl, h⟩

theorem throw (failure : Failure) (shelf : Shelf) :
    Gives now uid base (MonadExcept.throw failure : Relational α) shelf (.error failure) shelf :=
  fun database h => ⟨database, rfl, h⟩

theorem settled (outcome : Except Failure α) (shelf : Shelf) :
    Gives now uid base (Relational.settled outcome) shelf outcome shelf :=
  fun database h => ⟨database, rfl, h⟩

/-- **One part after the other.** -/
theorem bind (hpart : Gives now uid base part shelf (.ok value) between)
    {rest : α → Relational β} (hrest : Gives now uid base (rest value) between outcome after) :
    Gives now uid base (part >>= rest) shelf outcome after := by
  intro database hshows
  obtain ⟨middle, hserve, hmiddle⟩ := hpart database hshows
  obtain ⟨left, hleft, hafter⟩ := hrest middle hmiddle
  refine ⟨left, ?_, hafter⟩
  rw [serve_bind, hserve]
  exact hleft

/-- After a failure nothing is done any more. -/
theorem bind_error (hpart : Gives now uid base part shelf (.error failure) after)
    (rest : α → Relational β) :
    Gives now uid base (part >>= rest) shelf (.error failure) after := by
  intro database hshows
  obtain ⟨left, hserve, hafter⟩ := hpart database hshows
  refine ⟨left, ?_, hafter⟩
  rw [serve_bind, hserve]

theorem clock (shelf : Shelf) : Gives now uid base Relational.clock shelf (.ok now) shelf :=
  fun database h => ⟨database, rfl, h⟩

theorem freshId (shelf : Shelf) : Gives now uid base Relational.freshId shelf (.ok uid) shelf :=
  fun database h => ⟨database, rfl, h⟩

/-- A statement gives what the database gives. -/
theorem execute {statement : Statement} {result : statement.Result} (task : String)
    (h : ∀ database : Database, database.Shows base shelf →
      (database.execute statement).1 = result ∧ (database.execute statement).2.Shows base after) :
    Gives now uid base (Relational.execute task statement) shelf (.ok result) after := by
  intro database hshows
  obtain ⟨hresult, hafter⟩ := h database hshows
  refine ⟨(database.execute statement).2, ?_, hafter⟩
  change (Except.ok (database.execute statement).1, (database.execute statement).2) = _
  rw [hresult]

/-! ### Transactions -/

theorem begin_transaction {database : Database} (h : database.Shows none shelf) :
    (database.execute .begin).2.Shows (some database.tables) shelf :=
  ⟨(congrArg Tables.objects h.current_eq).symm.trans h.rows, h.version, ⟨rfl, rfl⟩, h.sequence,
    fun change hchange => h.changes change (h.current_eq ▸ hchange)⟩

/-- **A transaction whose part succeeds** keeps what it has done. -/
theorem committed (h : ∀ base, Gives now uid base part shelf (.ok value) after) :
    Gives now uid none (inTransaction part) shelf (.ok value) after := by
  intro database hshows
  obtain ⟨middle, hserve, hmiddle⟩ := h _ _ (begin_transaction hshows)
  refine ⟨(middle.execute .commit).2, ?_, hmiddle.rows, hmiddle.version, rfl, hmiddle.sequence,
    hmiddle.changes⟩
  rw [serve_inTransaction, hserve]

/-- **A transaction whose part fails** leaves the rows alone. Versions that it took are gone. -/
theorem rolledBack {rows : Table RowKey Row} {version : Nat}
    (h : ∀ base, Gives now uid base part shelf (.error failure) ⟨rows, version⟩) :
    Gives now uid none (inTransaction part) shelf (.error failure) ⟨shelf.rows, version⟩ := by
  intro database hshows
  obtain ⟨middle, hserve, hmiddle⟩ := h _ _ (begin_transaction hshows)
  have htables : middle.tables = database.current := hmiddle.under.1.trans hshows.current_eq.symm
  refine ⟨(middle.execute .rollback).2, ?_, (congrArg Tables.objects htables).trans hshows.rows,
    hmiddle.version, rfl, hmiddle.sequence, fun change hchange =>
      hshows.changes change (congrArg Tables.changes htables ▸ hchange)⟩
  rw [serve_inTransaction, hserve]

end Gives

namespace Gives

/-! ### Parts of an answer -/

/-- A statement that only reads gives what there is on the shelf. -/
theorem query {statement : Statement} {result : statement.Result} (task : String)
    (h : ∀ database : Database, database.Shows base shelf →
      database.execute statement = (result, database)) :
    Gives now uid base (Relational.execute task statement) shelf (.ok result) shelf :=
  execute task fun database hshows => by
    rw [h database hshows]
    exact ⟨rfl, hshows⟩

theorem nextVersion (shelf : Shelf) :
    Gives now uid base Relational.nextVersion shelf (.ok (shelf.version + 1)) shelf.renewed := by
  have hstatement : Gives now uid base
      (Relational.execute "allocate resource version" .nextVersion) shelf
      (.ok ((shelf.version + 1 : Nat) : Int)) shelf.renewed := by
    refine execute _ fun database h => ?_
    have hnext : database.lastVersion + 1 = ((shelf.version + 1 : Nat) : Int) := by
      rw [h.version]
      rfl
    exact ⟨hnext, h.rows, hnext, h.under, h.sequence, h.changes⟩
  refine hstatement.bind ?_
  rw [if_neg (Int.not_lt.2 (Int.natCast_nonneg _))]
  exact pure _ _

/-- What is read of a row is the object in it. -/
theorem read {object : Object kind} (h : object.metadata.version < UInt64.size) (shelf : Shelf) :
    Gives now uid base (do
      return some (← Relational.settled (Object.ofDocument kind (encode object))))
      shelf (.ok (some object)) shelf := by
  rw [Object.ofDocument_encode h]
  exact (settled (.ok object) shelf).bind (pure _ shelf)

theorem document_of_holds {database : Database} (hshows : database.Shows base shelf) {key : Key}
    {found : Option (Object kind)} (h : shelf.Holds kind key found) :
    (database.current.objects.find? (key.row kind)).map (·.document) = found.map encode := by
  rw [hshows.rows, h.1, Option.map_map]
  rfl

/-- **The stored object with a key**, if there is one. -/
theorem lock {key : Key} {found : Option (Object kind)} (h : shelf.Holds kind key found) :
    Gives now uid base (Relational.lock kind key) shelf (.ok found) shelf := by
  have hstatement : Gives now uid base
      (Relational.execute s!"lock {kind.label} '{key.text}'" (.lock (key.row kind))) shelf
      (.ok (found.map encode)) shelf :=
    query _ fun database hshows =>
      congrArg (fun documents => (documents, database)) (document_of_holds hshows h)
  refine hstatement.bind ?_
  cases found with
  | none => exact pure none shelf
  | some object => exact read (h.2 object rfl) shelf

/-- The stored object with a key, looked up without a lock. -/
theorem find {key : Key} {found : Option (Object kind)} (h : shelf.Holds kind key found) :
    Gives now uid base (Relational.find kind key) shelf (.ok found) shelf := by
  have hstatement : Gives now uid base
      (Relational.execute s!"find {kind.label} '{key.text}'" (.find (key.row kind))) shelf
      (.ok (found.map encode)) shelf :=
    query _ fun database hshows =>
      congrArg (fun documents => (documents, database)) (document_of_holds hshows h)
  refine hstatement.bind ?_
  cases found with
  | none => exact pure none shelf
  | some object => exact read (h.2 object rfl) shelf

theorem lockExisting {key : Key} {object : Object kind} (h : shelf.Holds kind key (some object)) :
    Gives now uid base (Relational.lockExisting kind key) shelf (.ok object) shelf :=
  (lock h).bind (pure object shelf)

theorem lockMissing {key : Key} (h : shelf.Holds kind key none) :
    Gives now uid base (Relational.lockExisting kind key) shelf (.error (kind.missing key)) shelf :=
  (lock h).bind (throw _ shelf)

theorem recordChange (key : RowKey) (requestRef : Option String) (shelf : Shelf) :
    Gives now uid base (Relational.recordChange key requestRef) shelf (.ok ()) shelf := by
  refine execute _ fun database h => ⟨rfl, ?_⟩
  have hsequence : 0 ≤ database.lastSequence + 1 := Int.le_add_one h.sequence
  have hafter := h.withCurrent { database.current with
    changes := database.current.changes ++
      [⟨database.lastSequence + 1, key.kind, key.space, key.name, requestRef⟩] } h.rows
    fun change hchange => by
      rcases List.mem_append.1 hchange with hold | hnew
      · exact h.changes change hold
      · cases List.mem_singleton.1 hnew
        exact hsequence
  exact ⟨hafter.rows, hafter.version, hafter.under, hsequence, hafter.changes⟩

theorem recordEach (collected : List (RowKey × Option String)) (shelf : Shelf) :
    Gives now uid base (Relational.recordEach collected) shelf (.ok ()) shelf := by
  induction collected with
  | nil => exact pure () shelf
  | cons entry rest ih => exact (recordChange entry.1 entry.2 shelf).bind ih

/-- A new row is written where there is none. -/
theorem insertRow {object : Object kind} (h : shelf.Holds kind object.key none) :
    Gives now uid base (Relational.insertRow object) shelf (.ok ()) (shelf.put object) := by
  have hstatement : Gives now uid base
      (Relational.execute s!"store {kind.label} '{object.key.text}'"
        (.insert (object.key.row kind) object.toRow)) shelf (.ok true) (shelf.put object) := by
    refine execute _ fun database hshows => ?_
    have hvacant : database.current.objects.contains (object.key.row kind) = false := by
      rw [Table.contains, hshows.rows, h.1]
      rfl
    rw [Database.execute, hvacant]
    exact ⟨rfl, hshows.withCurrent _ (congrArg (Table.insert · _ _) hshows.rows) hshows.changes⟩
  exact hstatement.bind (recordChange _ _ _)

/-- A new row is not written where there is one. -/
theorem insertTaken {object stored : Object kind} (h : shelf.Holds kind object.key (some stored)) :
    Gives now uid base (Relational.insertRow object) shelf
      (.error (kind.taken object.key)) shelf := by
  have hstatement : Gives now uid base
      (Relational.execute s!"store {kind.label} '{object.key.text}'"
        (.insert (object.key.row kind) object.toRow)) shelf (.ok false) shelf := by
    refine query _ fun database hshows => ?_
    have htaken : database.current.objects.contains (object.key.row kind) = true := by
      rw [Table.contains, hshows.rows, h.1]
      rfl
    rw [Database.execute, htaken]
    rfl
  exact hstatement.bind (throw _ shelf)

/-- **A row is written** under the identifier that it has. -/
theorem upsertRow {object : Object kind} {found : Option (Object kind)}
    (h : shelf.Holds kind object.key found)
    (huid : ∀ stored, found = some stored → stored.metadata.uid = object.metadata.uid) :
    Gives now uid base (Relational.upsertRow object) shelf (.ok ()) (shelf.put object) := by
  have hstatement : Gives now uid base
      (Relational.execute s!"store {kind.label} '{object.key.text}'"
        (.upsert (object.key.row kind) object.toRow)) shelf (.ok ()) (shelf.put object) := by
    refine execute _ fun database hshows => ⟨rfl, hshows.withCurrent _ ?_ hshows.changes⟩
    have hkept : ((database.current.objects.find? (object.key.row kind)).map (·.uid)).getD
        object.metadata.uid = object.metadata.uid := by
      rw [hshows.rows, h.1]
      cases found with
      | none => rfl
      | some stored => exact huid stored rfl
    change database.current.objects.insert (object.key.row kind) { object.toRow with
      uid := ((database.current.objects.find? (object.key.row kind)).map (·.uid)).getD
        object.metadata.uid } = _
    rw [hkept, hshows.rows]
    rfl
  exact hstatement.bind (recordChange _ _ _)

/-- **A row is removed**, and with it the rows that name its object as an owner. -/
theorem removeRow (object : Object kind) (shelf : Shelf) :
    Gives now uid base (Relational.removeRow object) shelf (.ok ()) (shelf.drop object) := by
  have hdelete : Gives now uid base
      (Relational.execute s!"delete {kind.label} '{object.key.text}'"
        (.delete (object.key.row kind))) shelf (.ok ())
      { shelf with rows := shelf.rows.erase (object.key.row kind) } := by
    refine execute _ fun database hshows => ⟨rfl, hshows.withCurrent _ ?_ hshows.changes⟩
    exact congrArg (Table.erase · _) hshows.rows
  have hcollect : Gives now uid base
      (Relational.execute s!"collect objects owned by {kind.label} '{object.key.text}'"
        (.collect object.metadata.uid))
      { shelf with rows := shelf.rows.erase (object.key.row kind) }
      (.ok (((shelf.rows.erase (object.key.row kind)).entries.filter fun entry =>
        entry.2.ownerUids.contains object.metadata.uid).map fun entry =>
          (entry.1, entry.2.requestRef)))
      (shelf.drop object) := by
    refine execute _ fun database hshows => ⟨?_, hshows.withCurrent _ ?_ hshows.changes⟩
    · exact congrArg (fun rows : Table RowKey Row => (rows.entries.filter fun entry =>
        entry.2.ownerUids.contains object.metadata.uid).map fun entry =>
          (entry.1, entry.2.requestRef)) hshows.rows
    · exact congrArg (fun rows : Table RowKey Row => rows.retain fun _ row =>
        !row.ownerUids.contains object.metadata.uid) hshows.rows
  exact hdelete.bind ((recordChange _ _ _).bind (hcollect.bind (recordEach _ _)))

/-! ### Answers -/

variable {object sent stored : Object kind} {key : Key} {policy : Policy} {passed : Unit}

theorem validated (h : key.validate = .ok passed) (shelf : Shelf) :
    Gives now uid base (Relational.settled key.validate) shelf (.ok ()) shelf :=
  h ▸ settled _ shelf

theorem refused (h : key.validate = .error failure) (shelf : Shelf) :
    Gives now uid base (Relational.settled key.validate) shelf (.error failure) shelf :=
  h ▸ settled _ shelf

theorem create_refused (h : object.key.validate = .error failure) (shelf : Shelf) :
    Gives now uid none (Relational.create object) shelf (.error failure) shelf :=
  (refused h shelf).bind_error _

/-- The creation of an object whose key is taken uses up a version. -/
theorem create_taken (hkey : object.key.validate = .ok passed)
    (h : shelf.Holds kind object.key (some stored)) :
    Gives now uid none (Relational.create object) shelf (.error (kind.taken object.key))
      shelf.renewed := by
  have htaken (version : Nat) (base : Option Tables) : Gives now uid base
      (Relational.insertRow (object.pristine.born now uid version)) shelf.renewed
      (.error (kind.taken object.key)) shelf.renewed := by
    have hborn : shelf.renewed.Holds kind (object.pristine.born now uid version).key
        (some stored) := h
    exact insertTaken hborn
  exact (validated hkey shelf).bind <| rolledBack fun base => (nextVersion shelf).bind <|
    (freshId _).bind <| (clock _).bind <| (htaken _ base).bind_error _

/-- **A new object is stored.** -/
theorem created (hkey : object.key.validate = .ok passed) (h : shelf.Holds kind object.key none) :
    Gives now uid none (Relational.create object) shelf
      (.ok (object.pristine.born now uid (shelf.version + 1)))
      (shelf.renewed.put (object.pristine.born now uid (shelf.version + 1))) := by
  have hinsert (version : Nat) (base : Option Tables) : Gives now uid base
      (Relational.insertRow (object.pristine.born now uid version)) shelf.renewed (.ok ())
      (shelf.renewed.put (object.pristine.born now uid version)) :=
    insertRow h
  exact (validated hkey shelf).bind <| committed fun base => (nextVersion shelf).bind <|
    (freshId _).bind <| (clock _).bind <| (hinsert _ base).bind <| pure _ _

theorem savePolicy_refused (h : policy.key.validate = .error failure) (shelf : Shelf) :
    Gives now uid none (Relational.savePolicy policy) shelf (.error failure) shelf :=
  (refused h shelf).bind_error _

/-- **A new policy is stored.** -/
theorem declared (hkey : policy.key.validate = .ok passed)
    (h : shelf.Holds .policy policy.key none) :
    Gives now uid none (Relational.savePolicy policy) shelf
      (.ok (policy.born now uid (shelf.version + 1)))
      (shelf.renewed.put (policy.born now uid (shelf.version + 1))) := by
  have hupsert (version : Nat) (base : Option Tables) : Gives now uid base
      (Relational.upsertRow (policy.born now uid version)) shelf.renewed (.ok ())
      (shelf.renewed.put (policy.born now uid version)) := by
    have hborn : shelf.renewed.Holds .policy (policy.born now uid version).key none := h
    exact upsertRow hborn fun stored hstored => by cases hstored
  exact (validated hkey shelf).bind <| committed fun base => (lock h).bind <|
    (nextVersion shelf).bind <| (freshId _).bind <| (clock _).bind <| (pure _ _).bind <|
    (hupsert _ base).bind <| pure _ _

/-- **A policy takes the place of another one.** -/
theorem replaced {stored : Policy} (hkey : policy.key.validate = .ok passed)
    (h : shelf.Holds .policy policy.key (some stored)) :
    Gives now uid none (Relational.savePolicy policy) shelf
      (.ok (policy.inPlaceOf stored (shelf.version + 1)))
      (shelf.renewed.put (policy.inPlaceOf stored (shelf.version + 1))) := by
  have hupsert (version : Nat) (base : Option Tables) : Gives now uid base
      (Relational.upsertRow (policy.inPlaceOf stored version)) shelf.renewed (.ok ())
      (shelf.renewed.put (policy.inPlaceOf stored version)) := by
    have hplace : shelf.renewed.Holds .policy (policy.inPlaceOf stored version).key
        (some stored) := h
    exact upsertRow hplace fun other hother => by
      cases hother
      rfl
  exact (validated hkey shelf).bind <| committed fun base => (lock h).bind <|
    (nextVersion shelf).bind <| (pure _ _).bind <| (hupsert _ base).bind <| pure _ _

/-- A write without its object fails. -/
theorem missing (h : shelf.Holds kind key none) (rest : Object kind → Relational α) :
    Gives now uid none (inTransaction (Relational.lockExisting kind key >>= rest)) shelf
      (.error (kind.missing key)) shelf :=
  rolledBack fun _ => (lockMissing h).bind_error rest

/-- A write that is based on another version fails, and takes no version. -/
theorem outdated (h : shelf.Holds kind sent.key (some stored))
    (hversion : stored.metadata.version ≠ sent.metadata.version)
    (rest : Object kind → Relational α) :
    Gives now uid none (inTransaction (do
      let stored ← Relational.lockExisting kind sent.key
      Relational.settled (stored.checkVersion sent)
      rest stored)) shelf
      (.error (kind.outdated stored.key sent.metadata.version stored.metadata.version)) shelf := by
  have hcheck (base : Option Tables) : Gives now uid base
      (Relational.settled (stored.checkVersion sent)) shelf
      (.error (kind.outdated stored.key sent.metadata.version stored.metadata.version)) shelf := by
    rw [Object.checkVersion, if_neg hversion]
    exact settled _ shelf
  exact rolledBack fun base => (lockExisting h).bind ((hcheck base).bind_error _)

/-- A write that is based on the stored version goes on. -/
theorem upToDate (hversion : stored.metadata.version = sent.metadata.version) (shelf : Shelf) :
    Gives now uid base (Relational.settled (stored.checkVersion sent)) shelf (.ok ()) shelf := by
  rw [Object.checkVersion, if_pos hversion]
  exact settled _ shelf

/-- A row is written in place of the one that was locked. -/
theorem rewritten (written : Object kind) (h : shelf.Holds kind key (some stored))
    (hkey : written.key = key) (huid : written.metadata.uid = stored.metadata.uid) :
    Gives now uid base (Relational.upsertRow written) shelf.renewed (.ok ())
      (shelf.renewed.put written) := by
  subst hkey
  have hholds : shelf.renewed.Holds kind written.key (some stored) := h
  refine upsertRow hholds fun other hother => ?_
  cases hother
  exact huid.symm

/-- **The finalizers and owners are written.** -/
theorem linked (h : shelf.Holds kind sent.key (some stored)) (hkey : stored.key = sent.key)
    (hversion : stored.metadata.version = sent.metadata.version)
    (hspent : (stored.withLinksOf sent (shelf.version + 1)).isSpent = false) :
    Gives now uid none (Relational.updateMetadata sent) shelf
      (.ok (stored.withLinksOf sent (shelf.version + 1)))
      (shelf.renewed.put (stored.withLinksOf sent (shelf.version + 1))) := by
  refine committed fun base => (lockExisting h).bind <| (upToDate hversion shelf).bind <|
    (nextVersion shelf).bind ?_
  dsimp only
  rw [hspent, if_neg Bool.false_ne_true]
  exact (rewritten (stored.withLinksOf sent (shelf.version + 1)) h hkey rfl).bind (pure _ _)

/-- **The last finalizer of a deleted object is taken off.** -/
theorem released (h : shelf.Holds kind sent.key (some stored))
    (hversion : stored.metadata.version = sent.metadata.version)
    (hspent : (stored.withLinksOf sent (shelf.version + 1)).isSpent = true) :
    Gives now uid none (Relational.updateMetadata sent) shelf
      (.ok (stored.withLinksOf sent (shelf.version + 1)))
      (shelf.renewed.drop (stored.withLinksOf sent (shelf.version + 1))) := by
  refine committed fun base => (lockExisting h).bind <| (upToDate hversion shelf).bind <|
    (nextVersion shelf).bind ?_
  dsimp only
  rw [hspent, if_pos rfl]
  exact (removeRow _ _).bind (pure _ _)

/-- **The status is written.** -/
theorem patched {status : kind.Status} (h : shelf.Holds kind sent.key (some stored))
    (hkey : stored.key = sent.key) (hversion : stored.metadata.version = sent.metadata.version) :
    Gives now uid none (Relational.patchStatus sent status) shelf
      (.ok (stored.patched status (shelf.version + 1)))
      (shelf.renewed.put (stored.patched status (shelf.version + 1))) := by
  refine committed fun base => (lockExisting h).bind <| (upToDate hversion shelf).bind <|
    (nextVersion shelf).bind ?_
  exact (rewritten (stored.patched status (shelf.version + 1)) h hkey rfl).bind (pure _ _)

/-- **An object without finalizers is removed.** -/
theorem removed (h : shelf.Holds kind key (some stored))
    (hfree : stored.metadata.finalizers.isEmpty = true) :
    Gives now uid none (Relational.delete kind key) shelf (.ok ()) (shelf.drop stored) := by
  refine committed fun base => (lockExisting h).bind ?_
  rw [hfree]
  exact removeRow _ _

/-- **An object with finalizers is marked as deleting.** -/
theorem marked (h : shelf.Holds kind key (some stored)) (hkey : stored.key = key)
    (hheld : stored.metadata.finalizers.isEmpty = false)
    (hfresh : stored.metadata.isDeleting = false) :
    Gives now uid none (Relational.delete kind key) shelf (.ok ())
      (shelf.renewed.put (stored.marked now (shelf.version + 1))) := by
  refine committed fun base => (lockExisting h).bind ?_
  rw [hheld, hfresh]
  refine (nextVersion shelf).bind <| (clock _).bind <| rewritten _ h ?_ ?_
  · rw [Object.key_marked, hkey]
  · rw [Object.uid_marked]

/-- An object that is marked already stays as it is. -/
theorem markedBefore (h : shelf.Holds kind key (some stored))
    (hheld : stored.metadata.finalizers.isEmpty = false)
    (hdeleting : stored.metadata.isDeleting = true) :
    Gives now uid none (Relational.delete kind key) shelf (.ok ()) shelf := by
  refine committed fun base => (lockExisting h).bind ?_
  rw [hheld, hdeleting]
  exact pure () shelf

/-! ### Listings -/

variable {objects : List (Object kind)}

theorem mapM_ofDocument (h : ∀ object ∈ objects, object.metadata.version < UInt64.size) :
    (objects.map encode).mapM (Object.ofDocument kind) = .ok objects :=
  mapM_map_of_read_write fun object hobject => Object.ofDocument_encode (h object hobject)

theorem rowsOf_current {database : Database} (hshows : database.Shows base shelf)
    (h : shelf.Lists kind objects) : database.current.rowsOf kind.label =
      objects.map fun object => (object.key.row kind, object.toRow) := by
  rw [← h.1, Tables.rowsOf, hshows.rows, Shelf.rowsOf]

/-- **Every policy is listed.** -/
theorem listPolicies {policies : List Policy} (h : shelf.Lists .policy policies) :
    Gives now uid base Relational.listPolicies shelf (.ok policies) shelf := by
  have hstatement : Gives now uid base
      (Relational.execute s!"list {Kind.label .policy}" (.list (Kind.label .policy))) shelf
      (.ok (policies.map encode)) shelf := by
    refine query _ fun database hshows => ?_
    rw [Database.execute, rowsOf_current hshows h, List.map_map]
    rfl
  refine hstatement.bind ?_
  rw [mapM_ofDocument h.2]
  exact settled _ shelf

/-- **The responses to a request are listed**, which are found by the columns of their rows. -/
theorem listResponses {responses : List Response} (h : shelf.Lists .response responses)
    (scope : Scope) (request : String) :
    Gives now uid base (Relational.listResponses scope request) shelf
      (.ok (responses.filter fun response => response.key.space.getD "" ==
        scope.namespace?.getD "" && response.requestRef? == some request)) shelf := by
  have hstatement : Gives now uid base
      (Relational.execute s!"list {Kind.label .response} for request '{request}'"
        (.listReferencing (Kind.label .response) (scope.namespace?.getD "") request)) shelf
      (.ok ((responses.filter fun response => response.key.space.getD "" ==
        scope.namespace?.getD "" && response.requestRef? == some request).map encode)) shelf := by
    refine query _ fun database hshows => ?_
    rw [Database.execute, rowsOf_current hshows h, List.filter_map, List.map_map]
    rfl
  refine hstatement.bind ?_
  rw [mapM_ofDocument fun response hresponse => h.2 response (List.mem_filter.1 hresponse).1]
  exact settled _ shelf

end Gives

/-- **The keys of a kind are listed**, with some position in the table of changes. -/
theorem serve_listKeys (now : Instant) (uid : String) {database : Database}
    (hshows : database.Shows base shelf)
    {objects : List (Object kind)} (h : shelf.Lists kind objects) :
    ∃ cursor, (listKeys kind).serve now uid database =
      (.ok ⟨objects.map fun object =>
        Key.ofColumns (object.key.space.getD "") object.key.name, cursor⟩, database) := by
  refine ⟨database.current.head.toNat, ?_⟩
  have hrows : (execute s!"list {kind.label} keys" (.listKeys kind.label)).serve now uid database =
      (.ok (objects.map fun object => (object.key.space.getD "", object.key.name)), database) := by
    change (Except.ok ((database.current.rowsOf kind.label).map fun entry =>
      (entry.1.space, entry.1.name)), database) = _
    rw [Gives.rowsOf_current hshows h, List.map_map]
    rfl
  have hhead : (execute "read change head" .head).serve now uid database =
      (.ok database.current.head, database) := rfl
  rw [listKeys, serve_bind, hhead]
  dsimp only
  rw [if_neg (Int.not_lt.2 hshows.head_nonneg), serve_bind, hrows]
  change (Except.ok (KeyListing.mk ((objects.map _).map _) _), database) = _
  rw [List.map_map]
  rfl

end Relational

end AccessBroker
