import AccessBroker.Proofs.Atomicity
import AccessBroker.Proofs.Store.Counterparts

/-!
# What the rows of a database are made of

A row is written from an object: the document is the whole object, the key of the row is the key of
the object, and the columns repeat what look-ups go by. Nothing in the tables says so, and a write
that overwrites a row leaves one column as it is, the identifier. So that every row is the row of
one object (`AccessBroker.Tables.Faithful`) has to be kept up by each of the five writes, which make
the object that they write partly of the one that was stored and partly of the one that was
submitted.

The tables begin empty, and store after store works on them, one call at a time, any statement of
which may fail (`AccessBroker.Database.Reachable`). What a call does to them is
`AccessBroker.Database.Advance`: the rows stay faithful, and each new change row tells of a row that
is there before the call or after it. From this follows what holds of every database that can come
about (`AccessBroker.Database.Reachable.sound`).
-/

namespace AccessBroker

open AccessBroker.Time

/-- A key that is not refused is plain. -/
theorem Key.isPlain_of_validate {key : Key} {passed : Unit} (h : key.validate = .ok passed) :
    key.IsPlain := by
  intro hspace
  unfold validate at h
  split at h
  · cases h
  · rw [hspace] at h
    cases h

/-! ### Rows of objects -/

namespace Tables

variable {tables : Tables} {bound bound' : Int}

/-- Every row is the row of an object under a plain key, whose version is within a bound. -/
def Faithful (tables : Tables) (bound : Int) : Prop :=
  ∀ place row, tables.objects.find? place = some row →
    ∃ (kind : Kind) (object : Object kind), place = object.key.row kind ∧ object.key.IsPlain ∧
      row = object.toRow ∧ object.metadata.version ≤ bound

/-- A change row tells of a row: it repeats the key, and the request that is named. -/
def Tells (tables : Tables) (change : ChangeRow) : Prop :=
  ∃ place row, tables.objects.find? place = some row ∧
    change = ⟨change.sequence, place.kind, place.space, place.name, row.requestRef⟩

theorem Faithful.mono (h : tables.Faithful bound) (hbound : bound ≤ bound') :
    tables.Faithful bound' := by
  intro place row hrow
  obtain ⟨kind, object, hplace, hplain, hobject, hversion⟩ := h place row hrow
  exact ⟨kind, object, hplace, hplain, hobject, Int.le_trans hversion hbound⟩

end Tables

namespace Database

variable {kind : Kind} {before after : Database} {bound : Int}

/-- **What is read under a key** is the object whose row lies there. The key itself need not be
plain: the empty namespace leads to the objects of the whole cluster. -/
theorem Stores.row_eq {database : Database} {key : Key} {stored : Object kind}
    (h : database.Stores key stored) (hrows : database.tables.Faithful bound)
    (hbound : bound < UInt64.size) :
    stored.key.row kind = key.row kind ∧ stored.key.IsPlain ∧
      database.tables.objects.find? (stored.key.row kind) = some stored.toRow := by
  obtain ⟨row, hrow, hread⟩ := h
  obtain ⟨other, object, hplace, hplain, rfl, hversion⟩ := hrows _ row hrow
  obtain rfl : kind = other := Kind.label_inj (RowKey.mk.inj hplace).1
  have hsize : object.metadata.version < UInt64.size := by omega
  obtain rfl : object = stored := Except.ok.inj ((Object.ofDocument_encode hsize).symm.trans hread)
  exact ⟨hplace.symm, hplain, hplace ▸ hrow⟩

/-! ### What a write leaves -/

/-- What comes of a call: faithful rows, and change rows that tell of rows before or after it. -/
structure Advance (before after : Database) (bound : Int) : Prop where
  rows : after.tables.Faithful bound
  changes : ∀ change ∈ after.tables.changes, change ∈ before.tables.changes ∨
    before.lastSequence < change.sequence ∧
      (before.tables.Tells change ∨ after.tables.Tells change)

/-- Tables that stay as they are. -/
theorem advance_of_eq (hrows : before.tables.Faithful bound)
    (htables : after.tables = before.tables) : before.Advance after bound :=
  ⟨htables ▸ hrows, fun _ hchange => .inl (htables ▸ hchange)⟩

theorem mem_changeRows {change : ChangeRow} {position : Int}
    {told : List (RowKey × Option String)} (h : change ∈ changeRows position told) :
    position < change.sequence ∧ ∃ place requestRef, (place, requestRef) ∈ told ∧
      change = ⟨change.sequence, place.kind, place.space, place.name, requestRef⟩ := by
  induction told generalizing position with
  | nil => cases h
  | cons first rest ih =>
    obtain ⟨place, requestRef⟩ := first
    rcases List.mem_cons.1 h with rfl | hrest
    · exact ⟨Int.lt_succ position, place, requestRef, List.mem_cons_self, rfl⟩
    · obtain ⟨hlater, place, requestRef, hmem, hchange⟩ := ih hrest
      exact ⟨Int.lt_trans (Int.lt_succ position) hlater, place, requestRef,
        List.mem_cons_of_mem _ hmem, hchange⟩

/-- **An object is written** under its own identifier, if its row had another one there. -/
theorem Wrote.advance {object : Object kind} (h : before.Wrote after object)
    (hrows : before.tables.Faithful bound) (hplain : object.key.IsPlain)
    (huid : ∀ row, before.tables.objects.find? (object.key.row kind) = some row →
      row.uid = object.metadata.uid)
    (hversion : object.metadata.version ≤ bound) : before.Advance after bound := by
  have hrow : after.tables.objects.find? (object.key.row kind) = some object.toRow := by
    rw [h.rows, if_pos rfl]
    cases hfound : before.tables.objects.find? (object.key.row kind) with
    | none => rfl
    | some row =>
      rw [Option.map_some, Option.getD_some, huid row hfound]
      rfl
  refine ⟨fun place row hplace => ?_, fun change hchange => ?_⟩
  · by_cases hsame : place = object.key.row kind
    · subst hsame
      exact ⟨kind, object, rfl, hplain, Option.some.inj (hplace.symm.trans hrow), hversion⟩
    · rw [h.rows, if_neg hsame] at hplace
      exact hrows place row hplace
  · rw [h.changes] at hchange
    refine (List.mem_append.1 hchange).imp id fun hnew => ?_
    obtain ⟨hlater, place, requestRef, hmem, hsame⟩ := mem_changeRows hnew
    obtain ⟨rfl, rfl⟩ := Prod.mk.inj (List.mem_singleton.1 hmem)
    exact ⟨hlater, .inr ⟨_, _, hrow, hsame⟩⟩

/-- **A row is removed** with those that name its object as an owner. -/
theorem Removed.advance {object : Object kind} (h : before.Removed after object)
    (hrows : before.tables.Faithful bound) {row : Row}
    (hrow : before.tables.objects.find? (object.key.row kind) = some row)
    (hrequest : row.requestRef = object.requestRef?) : before.Advance after bound := by
  refine ⟨fun place row hplace => ?_, fun change hchange => ?_⟩
  · rw [h.rows] at hplace
    split at hplace
    · cases hplace
    · exact hrows place row (Option.filter_eq_some_iff.1 hplace).1
  · obtain ⟨collected, hchanges, -, hcollected⟩ := h.changes
    rw [hchanges] at hchange
    refine (List.mem_append.1 hchange).imp id fun hnew => ?_
    obtain ⟨hlater, place, requestRef, hmem, hsame⟩ := mem_changeRows hnew
    refine ⟨hlater, .inl ?_⟩
    rcases List.mem_cons.1 hmem with hfirst | hrest
    · obtain ⟨rfl, rfl⟩ := Prod.mk.inj hfirst
      exact ⟨_, row, hrow, hrequest ▸ hsame⟩
    · obtain ⟨-, other, hother, -, rfl⟩ := (hcollected place requestRef).1 hrest
      exact ⟨place, other, hother, hsame⟩

end Database

namespace Relational

variable {α β : Type} {kind : Kind} {now : Instant} {uid : String} {trial : Trial}

/-- An attempt that is all or nothing goes on as what is done goes on. -/
theorem advance_of_settles {done : α → Database → Prop} {attempted : Except Failure α × Trial}
    {bound : Int} (h : Settles trial done attempted)
    (hrows : trial.database.tables.Faithful bound)
    (hdone : ∀ value, attempted.1 = .ok value → done value attempted.2.database →
      trial.database.Advance attempted.2.database bound) :
    trial.database.Advance attempted.2.database bound := by
  rcases attempted with ⟨failure | value, last⟩
  · exact Database.advance_of_eq hrows h.1
  · exact hdone value rfl h.1

/-- What succeeds after a check has passed it. -/
theorem passed_of_attempt {check : Except Failure Unit} {rest : Relational α} {value : α}
    (h : ((settled check >>= fun _ => rest).attempt now uid trial).1 = .ok value) :
    check = .ok () := by
  rw [attempt_bind] at h
  cases check with
  | error failure => cases h
  | ok _ => rfl

section Writes

variable (hrows : trial.database.tables.Faithful (trial.database.lastVersion + 1))
  (hversion : 0 ≤ trial.database.lastVersion)
  (hsize : trial.database.lastVersion + 1 < UInt64.size)

include hversion

/-- The next version is within the bound. -/
theorem nextVersion_le :
    ((trial.database.lastVersion + 1).toNat : Int) ≤ trial.database.lastVersion + 1 := by
  omega

include hrows

theorem advance_create (object : Object kind) :
    trial.database.Advance ((create object).attempt now uid trial).2.database
      (trial.database.lastVersion + 1) := by
  refine advance_of_settles (settles_create object) hrows fun created hok hdone => ?_
  obtain ⟨rfl, hvacant, hwrote⟩ := hdone
  refine hwrote.advance hrows (Key.isPlain_of_validate (passed_of_attempt hok)) ?_ ?_
  · intro row hrow
    cases hvacant.symm.trans hrow
  · exact nextVersion_le hversion

include hsize

theorem advance_savePolicy (policy : Policy) :
    trial.database.Advance ((savePolicy policy).attempt now uid trial).2.database
      (trial.database.lastVersion + 1) := by
  refine advance_of_settles (settles_savePolicy policy) hrows fun saved hok hdone => ?_
  obtain ⟨hsaved, hwrote⟩ := hdone
  have hplain := Key.isPlain_of_validate (passed_of_attempt hok)
  rcases hsaved with ⟨hvacant, rfl⟩ | ⟨stored, hstored, rfl⟩
  · refine hwrote.advance hrows hplain (fun row hrow => ?_) (nextVersion_le hversion)
    cases hvacant.symm.trans hrow
  · obtain ⟨hplace, -, hfound⟩ := hstored.row_eq hrows hsize
    refine hwrote.advance hrows hplain (fun row hrow => ?_) (nextVersion_le hversion)
    rw [hplace] at hfound
    obtain rfl := Option.some.inj (hfound.symm.trans hrow)
    rfl

/-- An object that is made of a stored one is written in its place. -/
theorem advance_of_rewritten {key : Key} {stored written : Object kind} {after : Database}
    (hstored : trial.database.Stores key stored) (hkey : written.key = stored.key)
    (huid : written.metadata.uid = stored.metadata.uid)
    (hwritten : written.metadata.version = (trial.database.lastVersion + 1).toNat)
    (hwrote : trial.database.Wrote after written) :
    trial.database.Advance after (trial.database.lastVersion + 1) := by
  obtain ⟨-, hplain, hfound⟩ := hstored.row_eq hrows hsize
  refine hwrote.advance hrows (hkey ▸ hplain) (fun row hrow => ?_) ?_
  · rw [hkey] at hrow
    obtain rfl := Option.some.inj (hfound.symm.trans hrow)
    exact huid.symm
  · rw [hwritten]
    exact nextVersion_le hversion

theorem advance_updateMetadata (object : Object kind) :
    trial.database.Advance ((updateMetadata object).attempt now uid trial).2.database
      (trial.database.lastVersion + 1) := by
  refine advance_of_settles (settles_updateMetadata object) hrows fun updated _ hdone => ?_
  obtain ⟨stored, hstored, -, rfl, hdone⟩ := hdone
  split at hdone
  · obtain ⟨-, -, hfound⟩ := hstored.row_eq hrows hsize
    refine hdone.advance hrows hfound ?_
    cases kind <;> rfl
  · refine advance_of_rewritten hrows hversion hsize hstored ?_ ?_ ?_ hdone
    all_goals rfl

theorem advance_patchStatus (base : Object kind) (status : kind.Status) :
    trial.database.Advance ((patchStatus base status).attempt now uid trial).2.database
      (trial.database.lastVersion + 1) := by
  refine advance_of_settles (settles_patchStatus base status) hrows fun patched _ hdone => ?_
  obtain ⟨stored, hstored, -, rfl, hwrote⟩ := hdone
  refine advance_of_rewritten hrows hversion hsize hstored ?_ ?_ ?_ hwrote
  all_goals rfl

theorem advance_delete (kind : Kind) (key : Key) :
    trial.database.Advance ((delete kind key).attempt now uid trial).2.database
      (trial.database.lastVersion + 1) := by
  refine advance_of_settles (settles_delete kind key) hrows fun _ _ hdone => ?_
  obtain ⟨stored, hstored, hdone⟩ := hdone
  split at hdone
  · obtain ⟨-, -, hfound⟩ := hstored.row_eq hrows hsize
    exact hdone.advance hrows hfound rfl
  · split at hdone
    · exact Database.advance_of_eq hrows hdone
    · next hfresh =>
      refine advance_of_rewritten hrows hversion hsize hstored ?_ ?_ ?_ hdone
      · rw [Object.key_marked]
      · rw [Object.uid_marked]
      · rw [Object.marked, if_neg hfresh]

end Writes

/-! ### What a reading leaves -/

/-- A part leaves the rows alone, and records no change. -/
def Reads (part : Relational α) : Prop :=
  ∀ now uid trial, (part.attempt now uid trial).2.database.tables.objects =
      trial.database.tables.objects ∧
    (part.attempt now uid trial).2.database.tables.changes ⊆ trial.database.tables.changes

namespace Reads

theorem pure (value : α) : Reads (Pure.pure value : Relational α) :=
  fun _ _ _ => ⟨rfl, fun _ => id⟩

theorem throw (failure : Failure) : Reads (MonadExcept.throw failure : Relational α) :=
  fun _ _ _ => ⟨rfl, fun _ => id⟩

theorem settled (outcome : Except Failure α) : Reads (Relational.settled outcome) :=
  fun _ _ _ => ⟨rfl, fun _ => id⟩

theorem bind {part : Relational α} {rest : α → Relational β} (hpart : part.Reads)
    (hrest : ∀ value, (rest value).Reads) : (part >>= rest).Reads := by
  intro now uid trial
  have hfirst := hpart now uid trial
  rw [attempt_bind]
  rcases hattempt : part.attempt now uid trial with ⟨failure | value, middle⟩ <;>
    rw [hattempt] at hfirst
  · exact hfirst
  · obtain ⟨hrows, hchanges⟩ := hrest value now uid middle
    exact ⟨hrows.trans hfirst.1, fun _ hchange => hfirst.2 (hchanges hchange)⟩

/-- A statement that leaves the rows alone and records no change. -/
theorem execute (task : String) {statement : Statement}
    (h : ∀ database : Database,
      (database.execute statement).2.tables.objects = database.tables.objects ∧
        (database.execute statement).2.tables.changes ⊆ database.tables.changes) :
    Reads (Relational.execute task statement) := by
  intro now uid trial
  rcases attempt_execute task statement trial with ⟨failure, hattempt⟩ | hattempt
  · rw [hattempt]
    exact ⟨rfl, fun _ => id⟩
  · rw [hattempt]
    exact h trial.database

/-- A statement that changes nothing. -/
theorem query (task : String) {statement : Statement}
    (h : ∀ database : Database, (database.execute statement).2 = database) :
    Reads (Relational.execute task statement) :=
  execute task fun database => by
    rw [h]
    exact ⟨rfl, fun _ => id⟩

theorem find (kind : Kind) (key : Key) : Reads (Relational.find kind key) := by
  refine .bind (.query _ fun _ => rfl) fun document => ?_
  cases document with
  | none => exact .pure none
  | some document => exact .bind (.settled _) fun _ => .pure _

theorem listPolicies : Reads Relational.listPolicies :=
  .bind (.query _ fun _ => rfl) fun _ => .settled _

theorem listResponses (scope : Scope) (request : String) :
    Reads (Relational.listResponses scope request) :=
  .bind (.query _ fun _ => rfl) fun _ => .settled _

theorem listKeys (kind : Kind) : Reads (Relational.listKeys kind) := by
  refine .bind (.query _ fun _ => rfl) fun head => ?_
  split
  · exact .throw _
  · exact .bind (.query _ fun _ => rfl) fun _ => .pure _

theorem changesSince (cursor limit : Nat) : Reads (Relational.changesSince cursor limit) :=
  .bind (.settled _) fun _ => .bind (.query _ fun _ => rfl) fun _ =>
    .bind (.settled _) fun _ => .pure _

/-- Old changes are dropped. -/
theorem compact (through : Nat) : Reads (Relational.compact through) := by
  refine .bind (.settled _) fun through => .execute _ fun database => ?_
  change (database.withCurrent _).tables.objects = _ ∧ (database.withCurrent _).tables.changes ⊆ _
  unfold Database.withCurrent
  split
  · exact ⟨rfl, fun _ => id⟩
  · next hidle =>
    rw [Database.current, hidle]
    exact ⟨rfl, List.filter_sublist.subset⟩

theorem advance {part : Relational α} (h : part.Reads) {bound : Int}
    (hrows : trial.database.tables.Faithful bound) :
    trial.database.Advance (part.attempt now uid trial).2.database bound := by
  obtain ⟨hobjects, hchanges⟩ := h now uid trial
  exact ⟨fun place row hrow => hrows place row (hobjects ▸ hrow),
    fun change hchange => .inl (hchanges hchange)⟩

end Reads

/-- **What any call leaves**, whichever of its statements fail. -/
theorem advance_perform (now : Instant) (uid : String) (trial : Trial)
    (hrows : trial.database.tables.Faithful (trial.database.lastVersion + 1))
    (hversion : 0 ≤ trial.database.lastVersion)
    (hsize : trial.database.lastVersion + 1 < UInt64.size) (call : StoreCall) :
    trial.database.Advance ((perform call).attempt now uid trial).2.database
      (trial.database.lastVersion + 1) := by
  cases call with
  | create kind object => exact advance_create hrows hversion object
  | savePolicy policy => exact advance_savePolicy hrows hversion hsize policy
  | updateMetadata kind object => exact advance_updateMetadata hrows hversion hsize object
  | patchStatus kind base status => exact advance_patchStatus hrows hversion hsize base status
  | delete kind key => exact advance_delete hrows hversion hsize kind key
  | find kind key => exact (Reads.find kind key).advance hrows
  | listPolicies => exact Reads.listPolicies.advance hrows
  | listResponses scope request => exact (Reads.listResponses scope request).advance hrows
  | listKeys kind => exact (Reads.listKeys kind).advance hrows
  | changesSince cursor limit => exact (Reads.changesSince cursor limit).advance hrows
  | compact through => exact (Reads.compact through).advance hrows

end Relational

/-! ### Sequences -/

namespace Database

/-- One database comes after another, in which no sequence has gone back. -/
def Follows (before after : Database) : Prop :=
  before.lastVersion ≤ after.lastVersion ∧ before.lastSequence ≤ after.lastSequence

theorem follows_execute (database : Database) (statement : Statement) :
    database.Follows (database.execute statement).2 := by
  have hsame (tables : Tables) : database.Follows (database.withCurrent tables) := by
    unfold withCurrent
    split <;> exact ⟨Int.le_refl _, Int.le_refl _⟩
  cases statement with
  | nextVersion => exact ⟨Int.le_of_lt (Int.lt_succ _), Int.le_refl _⟩
  | recordChange key requestRef =>
    obtain ⟨hversion, -⟩ := hsame { database.current with changes := database.current.changes ++
      [⟨database.lastSequence + 1, key.kind, key.space, key.name, requestRef⟩] }
    exact ⟨hversion, Int.le_of_lt (Int.lt_succ _)⟩
  | insert key row =>
    unfold execute
    dsimp only
    split
    · exact ⟨Int.le_refl _, Int.le_refl _⟩
    · exact hsame _
  | upsert | delete | collect | compact | audit => exact hsame _
  | setup | begin | commit | rollback | lock | find | list | listKeys | listReferencing | head
  | changes => exact ⟨Int.le_refl _, Int.le_refl _⟩

/-- **No sequence goes back**, whatever is asked and whatever fails. -/
theorem follows_run {α : Type} (now : Instant) (uid : String)
    (program : Program relationalInterface α) (trial : Trial) :
    trial.database.Follows (program.run (Trial.answer now uid) trial).2.database := by
  induction program generalizing trial with
  | done value => exact ⟨Int.le_refl _, Int.le_refl _⟩
  | ask effect next ih =>
    have hanswer : trial.database.Follows (Trial.answer now uid effect trial).2.database := by
      cases effect with
      | execute statement =>
        unfold Trial.answer
        dsimp only
        split
        · exact ⟨Int.le_refl _, Int.le_refl _⟩
        · exact trial.database.follows_execute statement
      | clock | freshId => exact ⟨Int.le_refl _, Int.le_refl _⟩
    have hrest := ih (Trial.answer now uid effect trial).1 (Trial.answer now uid effect trial).2
    exact ⟨Int.le_trans hanswer.1 hrest.1, Int.le_trans hanswer.2 hrest.2⟩

/-! ### Databases that can come about -/

/-- A database can come about, with some tables on the way: it begins empty, and answers one call
after the other, any statement of which may fail. A transaction that a call has left under way is
given up. -/
inductive Reachable : List Tables → Database → Prop
  /-- The tables are set up. -/
  | start : Reachable [{}] {}
  /-- A call is answered. -/
  | step {seen : List Tables} {before after : Database} (earlier : Reachable seen before)
    (now : Instant) (uid : String) (faults : List (Option StatementError)) (call : StoreCall)
    (answered : after = { ((Relational.perform call).attempt now uid
      ⟨before, faults, []⟩).2.database with transaction := none }) :
    Reachable (after.tables :: seen) after

/-- What is so in every database that can come about. -/
structure Sound (seen : List Tables) (database : Database) : Prop where
  idle : database.transaction = none
  version : 0 ≤ database.lastVersion
  sequence : 0 ≤ database.lastSequence
  current : database.tables ∈ seen
  rows : ∀ tables ∈ seen, tables.Faithful (database.lastVersion + 1)
  /-- Every change row tells of a row that has been there. -/
  changes : ∀ change ∈ database.tables.changes,
    0 < change.sequence ∧ ∃ tables ∈ seen, tables.Tells change

variable {seen : List Tables} {database before after : Database}

theorem sound_empty : Sound [{}] {} where
  idle := rfl
  version := Int.le_refl _
  sequence := Int.le_refl _
  current := List.mem_singleton_self _
  rows tables htables place row hrow := by
    obtain rfl := List.mem_singleton.1 htables
    cases hrow
  changes change hchange := by cases hchange

/-- **A call keeps a database sound.** -/
theorem Sound.step (h : Sound seen before)
    (hadvance : before.Advance after (before.lastVersion + 1)) (hfollows : before.Follows after) :
    Sound (after.tables :: seen) { after with transaction := none } where
  idle := rfl
  version := Int.le_trans h.version hfollows.1
  sequence := Int.le_trans h.sequence hfollows.2
  current := List.mem_cons_self
  rows tables htables := by
    have hbound : before.lastVersion + 1 ≤ after.lastVersion + 1 :=
      Int.add_le_add_right hfollows.1 1
    rcases List.mem_cons.1 htables with rfl | hearlier
    · exact hadvance.rows.mono hbound
    · exact (h.rows tables hearlier).mono hbound
  changes change hchange := by
    rcases hadvance.changes change hchange with hold | ⟨hlater, hbefore | hafter⟩
    · obtain ⟨hpositive, tables, htables, htells⟩ := h.changes change hold
      exact ⟨hpositive, tables, List.mem_cons_of_mem _ htables, htells⟩
    · exact ⟨Int.lt_of_le_of_lt h.sequence hlater, _, List.mem_cons_of_mem _ h.current, hbefore⟩
    · exact ⟨Int.lt_of_le_of_lt h.sequence hlater, _, List.mem_cons_self, hafter⟩

/-- **Every database that can come about is sound**, as long as the column of versions has room. -/
theorem Reachable.sound (h : Reachable seen database) (hroom : database.lastVersion < columnBound) :
    Sound seen database := by
  induction h with
  | start => exact sound_empty
  | @step seen before after earlier now uid faults call hanswered ih =>
    subst hanswered
    have hfollows : before.Follows ((Relational.perform call).attempt now uid
      ⟨before, faults, []⟩).2.database := follows_run now uid _ ⟨before, faults, []⟩
    have hsound := ih (Int.lt_of_le_of_lt hfollows.1 hroom)
    have hsize : before.lastVersion + 1 < UInt64.size := by
      have hless := Int.lt_of_le_of_lt hfollows.1 hroom
      have hbits : columnBound < UInt64.size := by decide
      omega
    have hadvance := Relational.advance_perform now uid ⟨before, faults, []⟩
      (hsound.rows _ hsound.current) hsound.version hsize call
    have hstep := hsound.step hadvance hfollows
    exact hstep

end Database

end AccessBroker
