import AccessBroker.Proofs.Store.Faults
import AccessBroker.Proofs.Store.Versions

/-!
# Every write is all or nothing

Whatever the tables hold and whichever statements of a write fail, a write that fails leaves the
tables as they were, and a write that succeeds has committed the row of the object, the removal of
the rows that went with it, and a change row for each of them, all of it in one statement
(`AccessBroker.Relational.all_or_nothing`).

What a write has done where no statement fails is followed from one part to the next by
`AccessBroker.Database.Goes`: which rows of objects there are now, and of which rows the table of
changes has told since. The rows need not be in order: a document is taken as it is read, and its
object need not lie under its own key.
-/

namespace AccessBroker

open AccessBroker.Time

/-! ### Change rows -/

/-- The rows of the table of changes that tell of some rows of objects, numbered from a position
on. -/
def changeRows (position : Int) : List (RowKey × Option String) → List ChangeRow
  | [] => []
  | (key, requestRef) :: rest =>
    ⟨position + 1, key.kind, key.space, key.name, requestRef⟩ :: changeRows (position + 1) rest

theorem changeRows_append (position : Int) (told more : List (RowKey × Option String)) :
    changeRows position (told ++ more) =
      changeRows position told ++ changeRows (position + told.length) more := by
  induction told generalizing position with
  | nil => simp [changeRows]
  | cons first rest ih =>
    have hposition : position + 1 + rest.length = position + ((rest.length + 1 : Nat) : Int) := by
      omega
    rw [List.cons_append, changeRows, ih, changeRows, List.cons_append, List.length_cons, hposition]

namespace Database

variable {kind : Kind} {before between after : Database} {objects others : Table RowKey Row}
  {told more : List (RowKey × Option String)}

/-- One database comes after another: it has other rows of objects, and its table of changes has
told of some rows since. -/
structure Goes (before after : Database) (objects : Table RowKey Row)
    (told : List (RowKey × Option String)) : Prop where
  objects : after.current.objects = objects
  changes : after.current.changes = before.current.changes ++ changeRows before.lastSequence told
  audit : after.current.audit = before.current.audit
  sequence : after.lastSequence = before.lastSequence + told.length

theorem Goes.refl (database : Database) : database.Goes database database.current.objects [] :=
  ⟨rfl, (List.append_nil _).symm, rfl, (Int.add_zero _).symm⟩

theorem Goes.trans (h : before.Goes between objects told) (h' : between.Goes after others more) :
    before.Goes after others (told ++ more) where
  objects := h'.objects
  changes := by rw [h'.changes, h.changes, h.sequence, changeRows_append, List.append_assoc]
  audit := h'.audit.trans h.audit
  sequence := by rw [h'.sequence, h.sequence, List.length_append, Int.natCast_add, Int.add_assoc]

theorem current_withCurrent (database : Database) (tables : Tables) :
    (database.withCurrent tables).current = tables := by
  unfold withCurrent current
  split
  · rfl
  · next hnone =>
    simp only [hnone]
    rfl

/-- Other tables with the same changes and events. -/
theorem goes_withCurrent (database : Database) (objects : Table RowKey Row) :
    database.Goes (database.withCurrent { database.current with objects }) objects [] := by
  have hsequence : (database.withCurrent { database.current with objects }).lastSequence =
      database.lastSequence := by
    unfold withCurrent
    split <;> rfl
  refine ⟨?_, ?_, ?_, hsequence.trans (Int.add_zero _).symm⟩
  · rw [current_withCurrent]
  · rw [current_withCurrent]
    exact (List.append_nil _).symm
  · rw [current_withCurrent]

/-- One more change is told of. -/
theorem goes_recordChange (database : Database) (key : RowKey) (requestRef : Option String) :
    database.Goes (database.execute (.recordChange key requestRef)).2 database.current.objects
      [(key, requestRef)] := by
  let told := changeRows database.lastSequence [(key, requestRef)]
  have hcurrent : (database.execute (.recordChange key requestRef)).2.current =
      { database.current with changes := database.current.changes ++ told } :=
    current_withCurrent database _
  refine ⟨?_, ?_, ?_, rfl⟩
  all_goals rw [hcurrent]

end Database

namespace Relational

variable {α β : Type} {kind : Kind} {now : Instant} {uid : String} {database after : Database}

/-! ### What parts have done -/

/-- A part that succeeds is one part that succeeds after the other. -/
theorem serve_bind_ok {part : Relational α} {rest : α → Relational β} {value : β}
    (h : (part >>= rest).serve now uid database = (.ok value, after)) :
    ∃ first middle, part.serve now uid database = (.ok first, middle) ∧
      (rest first).serve now uid middle = (.ok value, after) := by
  rw [serve_bind] at h
  rcases hpart : part.serve now uid database with ⟨_ | first, middle⟩
  · rw [hpart] at h
    cases h
  · rw [hpart] at h
    exact ⟨first, middle, rfl, h⟩

theorem settled_ok {outcome : Except Failure α} {value : α}
    (h : (settled outcome).serve now uid database = (.ok value, after)) :
    outcome = .ok value ∧ after = database := by
  cases h
  exact ⟨rfl, rfl⟩

/-- A statement gives what the database gives. -/
theorem execute_ok {task : String} {statement : Statement} {result : statement.Result}
    (h : (execute task statement).serve now uid database = (.ok result, after)) :
    result = (database.execute statement).1 ∧ after = (database.execute statement).2 := by
  obtain ⟨hresult, rfl⟩ := Prod.mk.inj h
  exact ⟨(Except.ok.inj hresult).symm, rfl⟩

theorem nextVersion_ok {version : Nat}
    (h : nextVersion.serve now uid database = (.ok version, after)) :
    version = (database.lastVersion + 1).toNat ∧
      database.Goes after database.current.objects [] := by
  obtain ⟨given, middle, hgiven, hchecked⟩ := serve_bind_ok h
  obtain ⟨rfl, rfl⟩ := execute_ok hgiven
  split at hchecked
  · cases hchecked
  · cases hchecked
    exact ⟨rfl, rfl, (List.append_nil _).symm, rfl, (Int.add_zero _).symm⟩

@[simp]
theorem serve_bind_freshId (rest : String → Relational α) :
    (freshId >>= rest).serve now uid database = (rest uid).serve now uid database :=
  rfl

@[simp]
theorem serve_bind_clock (rest : Instant → Relational α) :
    (clock >>= rest).serve now uid database = (rest now).serve now uid database :=
  rfl

theorem pure_ok {given value : α}
    (h : (pure given : Relational α).serve now uid database = (.ok value, after)) :
    value = given ∧ after = database := by
  obtain ⟨hvalue, rfl⟩ := Prod.mk.inj h
  exact ⟨(Except.ok.inj hvalue).symm, rfl⟩

/-- A part that does something and then gives a value that is known before. -/
theorem bind_pure_ok {part : Relational Unit} {given value : α}
    (h : (part >>= fun _ => pure given).serve now uid database = (.ok value, after)) :
    value = given ∧ part.serve now uid database = (.ok (), after) := by
  obtain ⟨_, middle, hpart, hgiven⟩ := serve_bind_ok h
  obtain ⟨hvalue, hsame⟩ := pure_ok hgiven
  exact ⟨hvalue, hsame ▸ hpart⟩

theorem lock_ok {key : Key} {found : Option (Object kind)}
    (h : (lock kind key).serve now uid database = (.ok found, after)) :
    after = database ∧ (found = none ∧ database.current.objects.find? (key.row kind) = none ∨
      ∃ stored row, found = some stored ∧
        database.current.objects.find? (key.row kind) = some row ∧
        Object.ofDocument kind row.document = .ok stored) := by
  obtain ⟨document, middle, hdocument, hread⟩ := serve_bind_ok h
  obtain ⟨hdocument, hsame⟩ := execute_ok hdocument
  change document = (database.current.objects.find? (key.row kind)).map (·.document) at hdocument
  change middle = database at hsame
  rw [hsame] at hread
  cases hfound : database.current.objects.find? (key.row kind) with
  | none =>
    obtain rfl : document = none := by rw [hdocument, hfound, Option.map_none]
    cases hread
    exact ⟨rfl, .inl ⟨rfl, rfl⟩⟩
  | some row =>
    obtain rfl : document = some row.document := by rw [hdocument, hfound, Option.map_some]
    obtain ⟨stored, last, hstored, hread⟩ := serve_bind_ok hread
    obtain ⟨hstored, hlast⟩ := settled_ok hstored
    rw [hlast] at hread
    cases hread
    exact ⟨rfl, .inr ⟨stored, row, rfl, rfl, hstored⟩⟩

theorem lockExisting_ok {key : Key} {stored : Object kind}
    (h : (lockExisting kind key).serve now uid database = (.ok stored, after)) :
    after = database ∧ ∃ row, database.current.objects.find? (key.row kind) = some row ∧
      Object.ofDocument kind row.document = .ok stored := by
  obtain ⟨found, middle, hlock, hread⟩ := serve_bind_ok h
  obtain ⟨rfl, ⟨rfl, -⟩ | ⟨object, row, rfl, hrow, hobject⟩⟩ := lock_ok hlock
  · cases hread
  · cases hread
    exact ⟨rfl, row, hrow, hobject⟩

theorem recordChange_ok {key : RowKey} {requestRef : Option String}
    (h : (recordChange key requestRef).serve now uid database = (.ok (), after)) :
    database.Goes after database.current.objects [(key, requestRef)] := by
  obtain ⟨-, rfl⟩ := execute_ok h
  exact database.goes_recordChange key requestRef

/-- A row is added where there was none, and told of. -/
theorem insertRow_ok {object : Object kind}
    (h : (insertRow object).serve now uid database = (.ok (), after)) :
    database.current.objects.find? (object.key.row kind) = none ∧
      database.Goes after (database.current.objects.insert (object.key.row kind) object.toRow)
        [(object.key.row kind, object.requestRef?)] := by
  obtain ⟨isWritten, middle, hwritten, hrest⟩ := serve_bind_ok h
  obtain ⟨rfl, rfl⟩ := execute_ok hwritten
  cases hfound : database.current.objects.contains (object.key.row kind) with
  | true =>
    have hrefused : database.execute (.insert (object.key.row kind) object.toRow) =
        (false, database) := by
      rw [Database.execute, hfound]
      rfl
    rw [hrefused] at hrest
    cases hrest
  | false =>
    have hadded : database.execute (.insert (object.key.row kind) object.toRow) =
        (true, database.withCurrent { database.current with
          objects := database.current.objects.insert (object.key.row kind) object.toRow }) := by
      rw [Database.execute, hfound]
      rfl
    rw [hadded] at hrest
    have hvacant : (database.current.objects.find? (object.key.row kind)).isSome = false := hfound
    have htold := recordChange_ok hrest
    rw [Database.current_withCurrent] at htold
    exact ⟨Option.not_isSome_iff_eq_none.1 (by simpa using hvacant),
      (database.goes_withCurrent _).trans htold⟩

/-- A row is written, and told of. -/
theorem upsertRow_ok {object : Object kind}
    (h : (upsertRow object).serve now uid database = (.ok (), after)) :
    database.Goes after (database.current.upsert (object.key.row kind) object.toRow).objects
      [(object.key.row kind, object.requestRef?)] := by
  obtain ⟨_, middle, hwritten, hrest⟩ := serve_bind_ok h
  obtain ⟨-, rfl⟩ := execute_ok hwritten
  have htold := recordChange_ok hrest
  have hwrote := database.goes_withCurrent
    (database.current.upsert (object.key.row kind) object.toRow).objects
  change database.Goes (database.execute
    (.upsert (object.key.row kind) object.toRow)).2 _ [] at hwrote
  rw [hwrote.objects] at htold
  exact hwrote.trans htold

/-- Some rows are told of, one after the other. -/
theorem recordEach_ok {collected : List (RowKey × Option String)}
    (h : (recordEach collected).serve now uid database = (.ok (), after)) :
    database.Goes after database.current.objects collected := by
  induction collected generalizing database with
  | nil =>
    cases h
    exact .refl _
  | cons entry rest ih =>
    obtain ⟨_, middle, hfirst, hrest⟩ := serve_bind_ok h
    have hfirst := recordChange_ok hfirst
    have hrest := ih hrest
    rw [hfirst.objects] at hrest
    exact hfirst.trans hrest

/-- The rows that go with an object, once its own is removed. -/
def collectedRows (rows : Table RowKey Row) (object : Object kind) :
    List (RowKey × Option String) :=
  ((rows.erase (object.key.row kind)).entries.filter fun entry =>
    entry.2.ownerUids.contains object.metadata.uid).map fun entry => (entry.1, entry.2.requestRef)

/-- A row is removed with those that go with it, and they are told of. -/
theorem removeRow_ok {object : Object kind}
    (h : (removeRow object).serve now uid database = (.ok (), after)) :
    database.Goes after ((database.current.objects.erase (object.key.row kind)).retain fun _ row =>
        !row.ownerUids.contains object.metadata.uid)
      ((object.key.row kind, object.requestRef?) ::
        collectedRows database.current.objects object) := by
  obtain ⟨_, middle, herased, hrest⟩ := serve_bind_ok h
  obtain ⟨-, rfl⟩ := execute_ok herased
  obtain ⟨_, middle, htold, hrest⟩ := serve_bind_ok hrest
  obtain ⟨collected, last, hcollected, hrest⟩ := serve_bind_ok hrest
  obtain ⟨rfl, rfl⟩ := execute_ok hcollected
  -- The rows that go with the object are picked when its own is gone, so that it is told of once
  -- also where it names itself as an owner.
  have htold := recordChange_ok htold
  have herase := database.goes_withCurrent (database.current.objects.erase (object.key.row kind))
  change database.Goes (database.execute (.delete (object.key.row kind))).2 _ [] at herase
  rw [herase.objects] at htold
  have hgone := middle.goes_withCurrent (middle.current.objects.retain fun _ row =>
    !row.ownerUids.contains object.metadata.uid)
  change middle.Goes (middle.execute (.collect object.metadata.uid)).2 _ [] at hgone
  have heach := recordEach_ok hrest
  have hcollected : (middle.execute (.collect object.metadata.uid)).1 =
      collectedRows database.current.objects object := by
    rw [collectedRows, ← htold.objects]
    rfl
  rw [hgone.objects, htold.objects, hcollected] at heach
  exact (herase.trans htold).trans (hgone.trans heach)

/-! ### Parts of writes -/

theorem isPart_nextVersion : nextVersion.IsPart := by
  refine .bind (.execute _ rfl) fun version => ?_
  split
  · exact .throw _
  · exact .pure _

theorem isPart_lock (kind : Kind) (key : Key) : (lock kind key).IsPart := by
  refine .bind (.execute _ rfl) fun document => ?_
  cases document with
  | none => exact .pure _
  | some document => exact .bind (.settled _) fun _ => .pure _

theorem isPart_lockExisting (kind : Kind) (key : Key) : (lockExisting kind key).IsPart := by
  refine .bind (isPart_lock kind key) fun found => ?_
  cases found with
  | none => exact .throw _
  | some stored => exact .pure _

theorem isPart_recordChange (key : RowKey) (requestRef : Option String) :
    (recordChange key requestRef).IsPart :=
  .execute _ rfl

theorem isPart_insertRow (object : Object kind) : (insertRow object).IsPart := by
  refine .bind (.execute _ rfl) fun isWritten => ?_
  split
  · exact isPart_recordChange _ _
  · exact .throw _

theorem isPart_upsertRow (object : Object kind) : (upsertRow object).IsPart :=
  .bind (.execute _ rfl) fun _ => isPart_recordChange _ _

theorem isPart_recordEach (collected : List (RowKey × Option String)) :
    (recordEach collected).IsPart := by
  induction collected with
  | nil => exact .pure ()
  | cons entry rest ih => exact .bind (isPart_recordChange _ _) fun _ => ih

theorem isPart_removeRow (object : Object kind) : (removeRow object).IsPart :=
  .bind (.execute _ rfl) fun _ => .bind (isPart_recordChange _ _) fun _ =>
    .bind (.execute _ rfl) fun collected => isPart_recordEach collected

end Relational

/-! ### What a write has committed -/

namespace Database

variable {kind : Kind} {before middle : Database} {objects : Table RowKey Row}
  {told : List (RowKey × Option String)}

/-- An object can be read from the row under a key. -/
def Stores (database : Database) (key : Key) (stored : Object kind) : Prop :=
  ∃ row, database.tables.objects.find? (key.row kind) = some row ∧
    Object.ofDocument kind row.document = .ok stored

/-- The row of an object was written, under the identifier that the row had if there was one; and
one change row tells of it. -/
structure Wrote (before after : Database) (object : Object kind) : Prop where
  rows (key : RowKey) : after.tables.objects.find? key =
    if key = object.key.row kind then
      some { object.toRow with
        uid := ((before.tables.objects.find? key).map (·.uid)).getD object.metadata.uid }
    else before.tables.objects.find? key
  changes : after.tables.changes = before.tables.changes ++
    changeRows before.lastSequence [(object.key.row kind, object.requestRef?)]
  audit : after.tables.audit = before.tables.audit

/-- The row of an object was removed, and so were the rows that name it as an owner; one change row
tells of the object, and one of each of those. -/
structure Removed (before after : Database) (object : Object kind) : Prop where
  rows (key : RowKey) : after.tables.objects.find? key =
    if key = object.key.row kind then none
    else (before.tables.objects.find? key).filter fun row =>
      !row.ownerUids.contains object.metadata.uid
  changes : ∃ collected, after.tables.changes = before.tables.changes ++
      changeRows before.lastSequence ((object.key.row kind, object.requestRef?) :: collected) ∧
    (collected.map Prod.fst).Nodup ∧ ∀ key requestRef, (key, requestRef) ∈ collected ↔
      key ≠ object.key.row kind ∧ ∃ row, before.tables.objects.find? key = some row ∧
        row.ownerUids.contains object.metadata.uid = true ∧ row.requestRef = requestRef
  audit : after.tables.audit = before.tables.audit

/-- What is committed of a transaction. -/
theorem Goes.committed (h : (before.execute .begin).2.Goes middle objects told) :
    (middle.execute .commit).2.tables.objects = objects ∧
      (middle.execute .commit).2.tables.changes =
        before.tables.changes ++ changeRows before.lastSequence told ∧
      (middle.execute .commit).2.tables.audit = before.tables.audit :=
  ⟨h.objects, h.changes, h.audit⟩

theorem Goes.wrote {object : Object kind} (h : (before.execute .begin).2.Goes middle
      (before.tables.upsert (object.key.row kind) object.toRow).objects
      [(object.key.row kind, object.requestRef?)]) :
    before.Wrote (middle.execute .commit).2 object := by
  obtain ⟨hobjects, hchanges, haudit⟩ := h.committed
  refine ⟨fun key => ?_, hchanges, haudit⟩
  rw [hobjects, Tables.upsert, Table.find?_insert]
  by_cases hkey : key = object.key.row kind
  · subst hkey
    rfl
  · rw [if_neg hkey, if_neg hkey]

/-- A row that is added where there was none is written under its own identifier. -/
theorem Goes.added {object : Object kind} (h : (before.execute .begin).2.Goes middle
      (before.tables.objects.insert (object.key.row kind) object.toRow)
      [(object.key.row kind, object.requestRef?)])
    (hvacant : before.tables.objects.find? (object.key.row kind) = none) :
    before.Wrote (middle.execute .commit).2 object := by
  have hsame : before.tables.objects.insert (object.key.row kind) object.toRow =
      (before.tables.upsert (object.key.row kind) object.toRow).objects := by
    rw [Tables.upsert, hvacant]
    rfl
  rw [hsame] at h
  exact h.wrote

theorem mem_collectedRows {rows : Table RowKey Row} {object : Object kind} {key : RowKey}
    {requestRef : Option String} :
    (key, requestRef) ∈ Relational.collectedRows rows object ↔
      key ≠ object.key.row kind ∧ ∃ row, rows.find? key = some row ∧
        row.ownerUids.contains object.metadata.uid = true ∧ row.requestRef = requestRef := by
  have hentry (key : RowKey) (row : Row) :
      (key, row) ∈ (rows.erase (object.key.row kind)).entries ↔
        key ≠ object.key.row kind ∧ rows.find? key = some row := by
    rw [Table.mem_entries_iff, Table.find?_erase]
    by_cases hkey : key = object.key.row kind
    · simp [hkey]
    · simp [hkey]
  rw [Relational.collectedRows, List.mem_map]
  constructor
  · rintro ⟨⟨place, row⟩, hmem, hsame⟩
    obtain ⟨rfl, rfl⟩ := Prod.mk.inj hsame
    obtain ⟨hmem, howned⟩ := List.mem_filter.1 hmem
    obtain ⟨hkey, hfound⟩ := (hentry place row).1 hmem
    exact ⟨hkey, row, hfound, howned, rfl⟩
  · rintro ⟨hkey, row, hfound, howned, rfl⟩
    exact ⟨(key, row), List.mem_filter.2 ⟨(hentry key row).2 ⟨hkey, hfound⟩, howned⟩, rfl⟩

theorem nodup_collectedRows (rows : Table RowKey Row) (object : Object kind) :
    ((Relational.collectedRows rows object).map Prod.fst).Nodup := by
  rw [Relational.collectedRows, List.map_map, List.Nodup, List.pairwise_map]
  refine List.Pairwise.filter _ ((rows.erase (object.key.row kind)).ascending.imp ?_)
  intro first second hless hsame
  change first.1 = second.1 at hsame
  rw [hsame, Std.ReflOrd.compare_self] at hless
  cases hless

theorem Goes.removed {object : Object kind} (h : (before.execute .begin).2.Goes middle
      ((before.tables.objects.erase (object.key.row kind)).retain fun _ row =>
        !row.ownerUids.contains object.metadata.uid)
      ((object.key.row kind, object.requestRef?) ::
        Relational.collectedRows before.tables.objects object)) :
    before.Removed (middle.execute .commit).2 object := by
  obtain ⟨hobjects, hchanges, haudit⟩ := h.committed
  refine ⟨fun key => ?_, ⟨_, hchanges, nodup_collectedRows _ _, fun key requestRef =>
    mem_collectedRows⟩, haudit⟩
  rw [hobjects, Table.find?_retain, Table.find?_erase]
  by_cases hkey : key = object.key.row kind
  · rw [if_pos hkey, if_pos hkey, Option.filter_none]
  · rw [if_neg hkey, if_neg hkey]

end Database

namespace Relational

variable {α : Type} {kind : Kind} {now : Instant} {uid : String} {trial : Trial}
  {done : α → Database → Prop}

/-- What a write that has succeeded has committed, by the write. -/
def Done (now : Instant) (uid : String) (before : Database) :
    (call : StoreCall) → call.Result → Database → Prop
  | .create kind object, created, after =>
    created = object.pristine.born now uid (before.lastVersion + 1).toNat ∧
      before.tables.objects.find? (object.key.row kind) = none ∧ before.Wrote after created
  | .savePolicy policy, saved, after =>
    (before.tables.objects.find? (policy.key.row .policy) = none ∧
        saved = policy.born now uid (before.lastVersion + 1).toNat ∨
      ∃ stored : Policy, before.Stores policy.key stored ∧
        saved = policy.inPlaceOf stored (before.lastVersion + 1).toNat) ∧
      before.Wrote after saved
  | .updateMetadata kind object, updated, after =>
    ∃ stored : Object kind, before.Stores object.key stored ∧
      stored.metadata.version = object.metadata.version ∧
      updated = stored.withLinksOf object (before.lastVersion + 1).toNat ∧
      if updated.isSpent = true then before.Removed after updated else before.Wrote after updated
  | .patchStatus kind base status, patched, after =>
    ∃ stored : Object kind, before.Stores base.key stored ∧
      stored.metadata.version = base.metadata.version ∧
      patched = stored.patched status (before.lastVersion + 1).toNat ∧ before.Wrote after patched
  | .delete kind key, _, after =>
    ∃ stored : Object kind, before.Stores key stored ∧
      if stored.metadata.finalizers = [] then before.Removed after stored
      else if stored.metadata.isDeleting = true then after.tables = before.tables
      else before.Wrote after (stored.marked now (before.lastVersion + 1).toNat)
  | _, _, _ => False

/-- An attempt is all or nothing: it has failed and left the tables alone, or it has succeeded and
committed what is to be done; and all the while others could read the tables as they were before or
as they are afterwards. -/
def Settles (trial : Trial) (done : α → Database → Prop) :
    Except Failure α × Trial → Prop
  | (.error _, last) => last.database.tables = trial.database.tables ∧
    trial.Sees last (· = trial.database.tables)
  | (.ok value, last) => done value last.database ∧
    trial.Sees last fun tables => tables = trial.database.tables ∨ tables = last.database.tables

theorem settles_inTransaction {part : Relational α} (h : part.IsPart)
    (hdone : ∀ value middle, part.serve now uid (trial.database.execute .begin).2 =
      (.ok value, middle) → done value (middle.execute .commit).2) :
    Settles trial done ((inTransaction part).attempt now uid trial) := by
  rcases attempt_inTransaction now uid h trial with ⟨failure, last, hattempt, htables, hsees⟩ |
    ⟨value, middle, last, hattempt, hserve, hlast, hsees⟩
  · rw [hattempt]
    exact ⟨htables, hsees⟩
  · rw [hattempt]
    exact ⟨hlast ▸ hdone value middle hserve, hsees⟩

/-- What is refused before its transaction begins leaves the tables alone. -/
theorem settles_checked {check : Except Failure Unit} {rest : Relational α}
    (h : Settles trial done (rest.attempt now uid trial)) :
    Settles trial done ((settled check >>= fun _ => rest).attempt now uid trial) := by
  rw [attempt_bind]
  cases check with
  | error failure => exact ⟨rfl, .refl _ _⟩
  | ok _ => exact h

theorem settles_create (object : Object kind) :
    Settles trial (Done now uid trial.database (.create kind object))
      ((create object).attempt now uid trial) := by
  refine settles_checked (settles_inTransaction ?_ fun created middle hserve => ?_)
  · exact .bind isPart_nextVersion fun _ => .bind .freshId fun _ => .bind .clock fun _ =>
      .bind (isPart_insertRow _) fun _ => .pure _
  · obtain ⟨version, versioned, hversion, hborn⟩ := serve_bind_ok hserve
    obtain ⟨rfl, hversioned⟩ := nextVersion_ok hversion
    rw [serve_bind_freshId, serve_bind_clock] at hborn
    obtain ⟨rfl, hinserted⟩ := bind_pure_ok hborn
    obtain ⟨hvacant, hinserted⟩ := insertRow_ok hinserted
    rw [hversioned.objects] at hvacant hinserted
    exact ⟨rfl, hvacant, (hversioned.trans hinserted).added hvacant⟩

/-- A part that changes a stored object goes on once the object is locked, its version is that of
another one and there is a next version. -/
theorem versioned_ok {before after : Database} {key : Key} {base : Object kind}
    {rest : Object kind → Nat → Relational α} {value : α}
    (h : (do
      let stored ← lockExisting kind key
      settled (stored.checkVersion base)
      let version ← nextVersion
      rest stored version : Relational α).serve now uid (before.execute .begin).2 =
        (.ok value, after)) :
    ∃ stored versioned, before.Stores key stored ∧
      stored.metadata.version = base.metadata.version ∧
      (before.execute .begin).2.Goes versioned before.tables.objects [] ∧
      (rest stored (before.lastVersion + 1).toNat).serve now uid versioned =
        (.ok value, after) := by
  obtain ⟨stored, locked, hlock, hchecked⟩ := serve_bind_ok h
  obtain ⟨hlocked, row, hrow, hstored⟩ := lockExisting_ok hlock
  rw [hlocked] at hchecked
  obtain ⟨_, checked, hcheck, hrest⟩ := serve_bind_ok hchecked
  obtain ⟨hcheck, hsame⟩ := settled_ok hcheck
  rw [hsame] at hrest
  obtain ⟨version, versioned, hversion, hrest⟩ := serve_bind_ok hrest
  obtain ⟨rfl, hversioned⟩ := nextVersion_ok hversion
  unfold Object.checkVersion at hcheck
  split at hcheck
  · next hcurrent => exact ⟨stored, versioned, ⟨row, hrow, hstored⟩, hcurrent, hversioned, hrest⟩
  · cases hcheck

/-- A row that a part has written last, once it had a version. -/
theorem wrote_of_upsertRow {before versioned after : Database} {object : Object kind}
    (hversioned : (before.execute .begin).2.Goes versioned before.tables.objects [])
    (hwritten : (upsertRow object).serve now uid versioned = (.ok (), after)) :
    before.Wrote (after.execute .commit).2 object := by
  have hwritten := upsertRow_ok hwritten
  have hrows : (versioned.current.upsert (object.key.row kind) object.toRow).objects =
      (before.tables.upsert (object.key.row kind) object.toRow).objects := by
    rw [Tables.upsert, Tables.upsert, hversioned.objects]
  rw [hrows] at hwritten
  exact (hversioned.trans hwritten).wrote

/-- A row that a part has removed last. -/
theorem removed_of_removeRow {before begun after : Database} {object : Object kind}
    (hbegun : (before.execute .begin).2.Goes begun before.tables.objects [])
    (hremoved : (removeRow object).serve now uid begun = (.ok (), after)) :
    before.Removed (after.execute .commit).2 object := by
  have hremoved := removeRow_ok hremoved
  rw [hbegun.objects] at hremoved
  exact (hbegun.trans hremoved).removed

theorem settles_savePolicy (policy : Policy) :
    Settles trial (Done now uid trial.database (.savePolicy policy))
      ((savePolicy policy).attempt now uid trial) := by
  refine settles_checked (settles_inTransaction ?_ fun saved middle hserve => ?_)
  · refine .bind (isPart_lock _ _) fun stored => .bind isPart_nextVersion fun _ => ?_
    have hwrite (policy : Policy) : IsPart (upsertRow policy >>= fun _ => pure policy) :=
      .bind (isPart_upsertRow policy) fun _ => .pure _
    cases stored with
    | some stored => exact .bind (.pure _) hwrite
    | none => exact .bind .freshId fun _ => .bind .clock fun _ => .bind (.pure _) hwrite
  · obtain ⟨found, locked, hlock, hsaved⟩ := serve_bind_ok hserve
    obtain ⟨hlocked, hfound⟩ := lock_ok hlock
    rw [hlocked] at hsaved
    obtain ⟨version, versioned, hversion, hsaved⟩ := serve_bind_ok hsaved
    obtain ⟨rfl, hversioned⟩ := nextVersion_ok hversion
    -- A policy that is new is given an identity; one that takes a place has it already.
    obtain ⟨rfl, hvacant⟩ | ⟨stored, row, rfl, hrow, hstored⟩ := hfound
    · dsimp only at hsaved
      rw [serve_bind_freshId, serve_bind_clock] at hsaved
      obtain ⟨rfl, hwritten⟩ := bind_pure_ok hsaved
      exact ⟨.inl ⟨hvacant, rfl⟩, wrote_of_upsertRow hversioned hwritten⟩
    · obtain ⟨rfl, hwritten⟩ := bind_pure_ok hsaved
      exact ⟨.inr ⟨stored, ⟨row, hrow, hstored⟩, rfl⟩, wrote_of_upsertRow hversioned hwritten⟩

theorem settles_updateMetadata (object : Object kind) :
    Settles trial (Done now uid trial.database (.updateMetadata kind object))
      ((updateMetadata object).attempt now uid trial) := by
  refine settles_inTransaction ?_ fun updated middle hserve => ?_
  · refine .bind (isPart_lockExisting _ _) fun _ => .bind (.settled _) fun _ =>
      .bind isPart_nextVersion fun _ => ?_
    dsimp only
    split
    · exact .bind (isPart_removeRow _) fun _ => .pure _
    · exact .bind (isPart_upsertRow _) fun _ => .pure _
  · obtain ⟨stored, versioned, hstored, hcheck, hversioned, hupdated⟩ := versioned_ok hserve
    refine ⟨stored, hstored, hcheck, ?_⟩
    dsimp only at hupdated
    split at hupdated
    · next hspent =>
      obtain ⟨rfl, hremoved⟩ := bind_pure_ok hupdated
      refine ⟨rfl, ?_⟩
      rw [if_pos hspent]
      exact removed_of_removeRow hversioned hremoved
    · next hspent =>
      obtain ⟨rfl, hwritten⟩ := bind_pure_ok hupdated
      refine ⟨rfl, ?_⟩
      rw [if_neg hspent]
      exact wrote_of_upsertRow hversioned hwritten

theorem settles_patchStatus (base : Object kind) (status : kind.Status) :
    Settles trial (Done now uid trial.database (.patchStatus kind base status))
      ((patchStatus base status).attempt now uid trial) := by
  refine settles_inTransaction ?_ fun patched middle hserve => ?_
  · exact .bind (isPart_lockExisting _ _) fun _ => .bind (.settled _) fun _ =>
      .bind isPart_nextVersion fun _ => .bind (isPart_upsertRow _) fun _ => .pure _
  · obtain ⟨stored, versioned, hstored, hcheck, hversioned, hpatched⟩ := versioned_ok hserve
    obtain ⟨rfl, hwritten⟩ := bind_pure_ok hpatched
    exact ⟨stored, hstored, hcheck, rfl, wrote_of_upsertRow hversioned hwritten⟩

theorem settles_delete (kind : Kind) (key : Key) :
    Settles trial (Done now uid trial.database (.delete kind key))
      ((delete kind key).attempt now uid trial) := by
  refine settles_inTransaction ?_ fun _ middle hserve => ?_
  · refine .bind (isPart_lockExisting _ _) fun stored => ?_
    split
    · exact isPart_removeRow _
    · split
      · exact .bind isPart_nextVersion fun _ => .bind .clock fun _ => isPart_upsertRow _
      · exact .pure _
  · obtain ⟨stored, locked, hlock, hdeleted⟩ := serve_bind_ok hserve
    obtain ⟨hlocked, row, hrow, hstored⟩ := lockExisting_ok hlock
    rw [hlocked] at hdeleted
    refine ⟨stored, ⟨row, hrow, hstored⟩, ?_⟩
    split at hdeleted
    · next hfree =>
      rw [if_pos (List.isEmpty_iff.1 hfree)]
      exact removed_of_removeRow (.refl _) hdeleted
    · next hheld =>
      rw [if_neg (mt List.isEmpty_iff.2 hheld)]
      cases hdeleting : stored.metadata.isDeleting with
      | true =>
        -- It is marked already, so an empty transaction is committed.
        rw [hdeleting] at hdeleted
        obtain ⟨-, rfl⟩ := pure_ok hdeleted
        rw [if_pos rfl]
        rfl
      | false =>
        rw [hdeleting] at hdeleted
        obtain ⟨version, versioned, hversion, hdeleted⟩ := serve_bind_ok hdeleted
        obtain ⟨rfl, hversioned⟩ := nextVersion_ok hversion
        rw [serve_bind_clock] at hdeleted
        rw [if_neg Bool.false_ne_true]
        exact wrote_of_upsertRow hversioned hdeleted

/-- **Every write is all or nothing**, whatever the tables hold and whichever statements fail.

If it fails, the tables are as they were. If it succeeds, the row of the object and the rows that
were removed with it are committed with one change row for each of them, or nothing at all for an
object that was marked as deleting already. Nobody else sees anything in between. -/
theorem all_or_nothing (now : Instant) (uid : String) (trial : Trial) (call : StoreCall)
    (hwrite : call.place?.isSome = true) :
    Settles trial (Done now uid trial.database call) ((perform call).attempt now uid trial) := by
  cases call with
  | create kind object => exact settles_create object
  | savePolicy policy => exact settles_savePolicy policy
  | updateMetadata kind object => exact settles_updateMetadata object
  | patchStatus kind base status => exact settles_patchStatus base status
  | delete kind key => exact settles_delete kind key
  | find | listPolicies | listResponses | listKeys | changesSince | compact => cases hwrite

namespace Scenario

/-- A policy that owns a role. -/
def rota : Policy where
  metadata := .ofKey ⟨some "team", "rota"⟩
  body := ⟨[]⟩

/-- A role that is owned by the policy. -/
def oncall : Object .role where
  metadata := { Metadata.ofKey ⟨some "team", "oncall"⟩ with owners := [⟨.policy, "rota", "u1"⟩] }
  body := ⟨[]⟩

/-- The policy and the role are stored, and their changes are numbered one and two. -/
def owning : Database :=
  let saved := ((perform (.savePolicy rota)).serve .epoch "u1" {}).2
  ((perform (.create .role oncall)).serve .epoch "u2" saved).2

/-- The sixth statement fails: of a deletion of the policy, the one that is to tell of the role. -/
def untold : Trial where
  database := owning
  faults := [none, none, none, none, none, some .closed]

end Scenario

/-- A deletion that cannot tell of the role leaves the policy and the role where they are; one that
can removes both, and tells of each. -/
theorem all_or_nothing_untold :
    (StoreCall.delete .policy Scenario.rota.key).place?.isSome = true ∧
    ((perform (.delete .policy Scenario.rota.key)).attempt .epoch ""
      Scenario.untold).2.database.tables = Scenario.owning.tables ∧
    ∃ stored : Policy, Scenario.owning.Stores Scenario.rota.key stored ∧
      Scenario.owning.Removed ((perform (.delete .policy Scenario.rota.key)).attempt .epoch ""
        ⟨Scenario.owning, [], []⟩).2.database stored := by
  refine ⟨rfl, ?_, ?_⟩
  · have hsettles := all_or_nothing .epoch "" Scenario.untold
      (.delete .policy Scenario.rota.key) rfl
    have hfails : ((perform (.delete .policy Scenario.rota.key)).attempt .epoch ""
        Scenario.untold).1.toBool = false := rfl
    rcases hattempt : (perform (.delete .policy Scenario.rota.key)).attempt .epoch ""
      Scenario.untold with ⟨failure | _, last⟩
    · rw [hattempt] at hsettles
      exact hsettles.1
    · rw [hattempt] at hfails
      cases hfails
  · have hsettles := all_or_nothing .epoch "" ⟨Scenario.owning, [], []⟩
      (.delete .policy Scenario.rota.key) rfl
    have hsucceeds : ((perform (.delete .policy Scenario.rota.key)).attempt .epoch ""
        ⟨Scenario.owning, [], []⟩).1.toBool = true := rfl
    have hfree : ((Scenario.owning.tables.objects.find? (Scenario.rota.key.row .policy)).map
        fun row => (Object.ofDocument .policy row.document).map (·.metadata.finalizers)) =
          some (.ok []) := rfl
    rcases hattempt : (perform (.delete .policy Scenario.rota.key)).attempt .epoch ""
      ⟨Scenario.owning, [], []⟩ with ⟨_ | value, last⟩
    · rw [hattempt] at hsucceeds
      cases hsucceeds
    · rw [hattempt] at hsettles
      obtain ⟨⟨stored, ⟨row, hrow, hstored⟩, hremoved⟩, -⟩ := hsettles
      rw [hrow, Option.map_some, hstored] at hfree
      have hfree : stored.metadata.finalizers = [] := Except.ok.inj (Option.some.inj hfree)
      rw [if_pos hfree] at hremoved
      exact ⟨stored, ⟨row, hrow, hstored⟩, hremoved⟩

end Relational

end AccessBroker
