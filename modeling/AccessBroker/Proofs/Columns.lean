import AccessBroker.Proofs.Agreement
import AccessBroker.Proofs.Store.Rows

/-!
# Columns and documents agree

The engines see objects, which are read from the documents. The database goes by columns: it finds
rows by their keys, lists them by kind, hears the responses to a request by the request that they
name, and collects what an owner leaves behind by the identifiers of owners. In every database that
can come about the columns of a row are what its document says
(`AccessBroker.Row.Mirrors`), so both come to the same: what is found, listed, heard and collected
by columns is what the documents say (`AccessBroker.Database.Reachable.columns_mirror`).

The columns cannot tell an absent namespace from an empty one. No object is stored with an empty
one, but a reader may ask for one, and is then given what there is of the whole cluster
(`AccessBroker.Key.plain`).
-/

namespace AccessBroker

open AccessBroker.Time Relational

/-! ### Keys in columns -/

namespace Key

/-- The key that is read back from the columns of a key: the empty namespace is the whole
cluster. -/
def plain (key : Key) : Key :=
  ofColumns (key.space.getD "") key.name

theorem plain_eq {key : Key} (h : key.IsPlain) : key.plain = key :=
  ofColumns_row h

theorem isPlain_plain (key : Key) : key.plain.IsPlain := by
  change (if (key.space.getD "").isEmpty then none else some (key.space.getD "")) ≠ some ""
  split
  · exact nofun
  · next hspace => exact fun hempty => hspace (String.isEmpty_iff.2 (Option.some.inj hempty))

theorem row_plain (key : Key) (kind : Kind) : key.plain.row kind = key.row kind := by
  change RowKey.mk kind.label
    ((if (key.space.getD "").isEmpty then none else some (key.space.getD "")).getD "") key.name = _
  split
  · next hspace =>
    exact congrArg (RowKey.mk kind.label · key.name) (String.isEmpty_iff.1 hspace).symm
  · rfl

/-- **A plain key is known by its columns.** -/
theorem eq_plain_iff {key other : Key} (kind : Kind) (h : key.IsPlain) :
    key = other.plain ↔ key.row kind = other.row kind := by
  rw [← row_plain other]
  exact ⟨fun hsame => congrArg (Key.row · kind) hsame,
    fun hsame => (row_inj h other.isPlain_plain hsame).2⟩

end Key

theorem Kind.parse_label (kind : Kind) : Kind.parse kind.label = .ok kind := by
  cases kind <;> rfl

/-! ### Rows that mirror objects -/

/-- The columns of a row say what is in an object: its kind, its key, and what of its metadata and
content look-ups go by. -/
structure Row.Mirrors {kind : Kind} (row : Row) (place : RowKey) (object : Object kind) : Prop where
  label : place.kind = kind.label
  space : place.space = object.metadata.space.getD ""
  /-- The namespace is empty exactly for an object of the whole cluster. -/
  cluster : place.space = "" ↔ object.scope = .cluster
  name : place.name = object.metadata.name
  uid : row.uid = object.metadata.uid
  version : row.version = object.metadata.version
  ownerUids : row.ownerUids = object.metadata.owners.map (·.uid)
  requestRef : row.requestRef = object.requestRef?
  /-- The key of the object is read back from the columns. -/
  key : Key.ofColumns place.space place.name = object.key

/-- A change row says of an object what listeners are told. -/
structure ChangeRow.Mirrors {kind : Kind} (change : ChangeRow) (object : Object kind) : Prop where
  label : change.kind = kind.label
  key : Key.ofColumns change.space change.name = object.key
  requestRef : change.requestRef = object.requestRef?
  /-- It can be read. -/
  told : change.toChange = .ok ⟨change.sequence.toNat, kind, object.key, object.requestRef?⟩

namespace Object

variable {kind : Kind} {object : Object kind}

/-- **The row of an object mirrors it.** -/
theorem mirrors_toRow (hplain : object.key.IsPlain) :
    object.toRow.Mirrors (object.key.row kind) object where
  label := rfl
  space := rfl
  cluster := by
    change object.metadata.space.getD "" = "" ↔ Scope.ofNamespace? object.metadata.space = .cluster
    have hspace : object.metadata.space ≠ some "" := hplain
    cases hsame : object.metadata.space with
    | none => exact ⟨fun _ => rfl, fun _ => rfl⟩
    | some space =>
      rw [hsame] at hspace
      exact ⟨fun hempty => absurd (congrArg some hempty) hspace, nofun⟩
  name := rfl
  uid := rfl
  version := rfl
  ownerUids := rfl
  requestRef := rfl
  key := Key.plain_eq hplain

/-- A change row that repeats the key of an object and the request that it names. -/
theorem mirrors_change {sequence : Int} (hplain : object.key.IsPlain) (hpositive : 0 < sequence) :
    ChangeRow.Mirrors ⟨sequence, kind.label, object.key.space.getD "", object.key.name,
      object.requestRef?⟩ object where
  label := rfl
  key := Key.plain_eq hplain
  requestRef := rfl
  told := by
    unfold ChangeRow.toChange
    dsimp only
    rw [if_neg (Int.not_lt.2 (Int.le_of_lt hpositive)), Kind.parse_label, Key.ofColumns_row hplain]
    rfl

end Object

/-! ### Rows and documents -/

/-- An object is in one of the documents. -/
def Tables.Documents {kind : Kind} (tables : Tables) (object : Object kind) : Prop :=
  ∃ place row, tables.objects.find? place = some row ∧ place.kind = kind.label ∧
    decode row.document = some object

namespace Database

variable {kind : Kind} {seen : List Tables} {database : Database} {tables : Tables}
  {object other : Object kind} {place : RowKey} {row : Row}

/-- What a store sees of the database. -/
def shelf (database : Database) : Shelf :=
  ⟨database.tables.objects, database.lastVersion.toNat⟩

namespace Sound

variable (h : Sound seen database) (hroom : database.lastVersion < columnBound)

include h

theorem shows : database.Shows none database.shelf where
  rows := by
    rw [Database.current, h.idle]
    rfl
  version := (Int.toNat_of_nonneg h.version).symm
  under := h.idle
  sequence := h.sequence
  changes change hchange := by
    rw [Database.current, h.idle] at hchange
    exact Int.le_of_lt (h.changes change hchange).1

/-- What a part of an answer gives on the shelf is what the store is answered. -/
theorem answers {α : Type} {now : Instant} {uid : String} {part : Relational α}
    {outcome : Except Failure α} {after : Shelf}
    (hgives : Gives now uid none part database.shelf outcome after) :
    (part.serve now uid database).1 = outcome := by
  obtain ⟨left, hserve, -⟩ := hgives database h.shows
  rw [hserve]

include hroom

/-- **Every row that has been there** is that of an object which can be read from its document. -/
theorem exists_object (htables : tables ∈ seen) (hrow : tables.objects.find? place = some row) :
    ∃ (kind : Kind) (object : Object kind), place = object.key.row kind ∧ object.key.IsPlain ∧
      row = object.toRow ∧ object.metadata.version < UInt64.size := by
  obtain ⟨kind, object, hplace, hplain, hobject, hversion⟩ := h.rows tables htables place row hrow
  have hbits : columnBound < UInt64.size := by decide
  exact ⟨kind, object, hplace, hplain, hobject, by omega⟩

/-- **An object is in a document** exactly if its row is there. -/
theorem documents_iff (htables : tables ∈ seen) : tables.Documents object ↔
    tables.objects.find? (object.key.row kind) = some object.toRow ∧
      object.key.IsPlain ∧ object.metadata.version < UInt64.size := by
  constructor
  · rintro ⟨place, row, hrow, hlabel, hdocument⟩
    obtain ⟨other, stored, rfl, hplain, rfl, hsize⟩ := h.exists_object hroom htables hrow
    obtain rfl : other = kind := Kind.label_inj hlabel
    obtain rfl : stored = object :=
      Option.some.inj ((stored.decode_encode_object hsize).symm.trans hdocument)
    exact ⟨hrow, hplain, hsize⟩
  · rintro ⟨hrow, -, hsize⟩
    exact ⟨_, _, hrow, rfl, object.decode_encode_object hsize⟩

/-- The row of an object that is in a document now. -/
theorem row_of_documents (hobject : database.tables.Documents object) :
    database.tables.objects.find? (object.key.row kind) = some object.toRow ∧
      object.key.IsPlain ∧ object.metadata.version < UInt64.size :=
  (h.documents_iff hroom h.current).1 hobject

/-- A row under the place of a kind is that of an object of this kind. -/
theorem exists_of_row (hrow : database.tables.objects.find? place = some row)
    (hlabel : place.kind = kind.label) : ∃ object : Object kind,
      database.tables.Documents object ∧ place = object.key.row kind ∧ row = object.toRow := by
  obtain ⟨other, object, rfl, hplain, rfl, hsize⟩ := h.exists_object hroom h.current hrow
  obtain rfl : other = kind := Kind.label_inj hlabel
  exact ⟨object, (h.documents_iff hroom h.current).2 ⟨hrow, hplain, hsize⟩, rfl, rfl⟩

/-- **Documents are told apart by their keys.** -/
theorem eq_of_row (hobject : database.tables.Documents object)
    (hother : database.tables.Documents other)
    (hplace : object.key.row kind = other.key.row kind) : object = other := by
  obtain ⟨hrow, -, hsize⟩ := h.row_of_documents hroom hobject
  obtain ⟨hrow', -, hsize'⟩ := h.row_of_documents hroom hother
  rw [hplace] at hrow
  have hdocument : encode object = encode other :=
    congrArg Row.document (Option.some.inj (hrow.symm.trans hrow'))
  have hread := object.decode_encode_object hsize
  rw [hdocument, other.decode_encode_object hsize'] at hread
  exact (Option.some.inj hread).symm

/-! ### What a store finds -/

/-- **What lies under a key** is what the documents say. -/
theorem holds (kind : Kind) (key : Key) : ∃ found : Option (Object kind),
    database.shelf.Holds kind key found ∧
      ∀ object,
        found = some object ↔ database.tables.Documents object ∧ object.key = key.plain := by
  have hkey (object : Object kind) (hobject : database.tables.Documents object) :
      object.key = key.plain ↔ object.key.row kind = key.row kind :=
    Key.eq_plain_iff kind (h.row_of_documents hroom hobject).2.1
  cases hfound : database.tables.objects.find? (key.row kind) with
  | none =>
    refine ⟨none, ⟨hfound, fun object hobject => by cases hobject⟩, fun object =>
      ⟨nofun, fun ⟨hobject, hsame⟩ => ?_⟩⟩
    have hrow := (h.row_of_documents hroom hobject).1
    rw [(hkey object hobject).1 hsame, hfound] at hrow
    cases hrow
  | some row =>
    obtain ⟨stored, hstored, hplace, rfl⟩ := h.exists_of_row hroom hfound rfl
    refine ⟨some stored, ⟨hfound, fun object hobject => ?_⟩, fun object => ⟨fun hobject => ?_,
      fun ⟨hobject, hsame⟩ => ?_⟩⟩
    · cases hobject
      exact (h.row_of_documents hroom hstored).2.2
    · cases hobject
      exact ⟨hstored, (hkey stored hstored).2 hplace.symm⟩
    · have hsame := (hkey object hobject).1 hsame
      exact congrArg some (h.eq_of_row hroom hstored hobject (hplace.symm.trans hsame.symm))

/-- Rows of a kind are those of objects in documents. -/
theorem objects_of_entries (entries : List (RowKey × Row))
    (hentries : ∀ entry ∈ entries, entry ∈ database.shelf.rowsOf kind) :
    ∃ objects : List (Object kind),
      entries = objects.map (fun object => (object.key.row kind, object.toRow)) ∧
        ∀ object ∈ objects, database.tables.Documents object := by
  induction entries with
  | nil => exact ⟨[], rfl, fun object hobject => by cases hobject⟩
  | cons entry rest ih =>
    obtain ⟨hfirst, hrest⟩ := List.forall_mem_cons.1 hentries
    obtain ⟨hmem, hlabel⟩ := List.mem_filter.1 hfirst
    obtain ⟨object, hobject, hplace, hrow⟩ :=
      h.exists_of_row hroom (Table.mem_entries_iff.1 hmem) (beq_iff_eq.1 hlabel)
    obtain ⟨objects, rfl, hobjects⟩ := ih hrest
    refine ⟨object :: objects, ?_, List.forall_mem_cons.2 ⟨hobject, hobjects⟩⟩
    rw [List.map_cons, ← hplace, ← hrow]

/-- **What is listed of a kind** are the objects in the documents, each under a key of its own. -/
theorem lists (kind : Kind) : ∃ objects : List (Object kind), database.shelf.Lists kind objects ∧
    (objects.map Object.key).Nodup ∧
      ∀ object, object ∈ objects ↔ database.tables.Documents object := by
  obtain ⟨objects, hrows, hobjects⟩ := h.objects_of_entries hroom _ fun _ hentry => hentry
  refine ⟨objects, ⟨hrows, fun object hobject =>
    (h.row_of_documents hroom (hobjects object hobject)).2.2⟩, ?_, fun object =>
      ⟨hobjects object, fun hobject => ?_⟩⟩
  · have hascending : (database.shelf.rowsOf kind).Pairwise fun first second =>
        compare first.1 second.1 = .lt := database.tables.objects.ascending.filter _
    rw [hrows, List.pairwise_map] at hascending
    rw [List.Nodup, List.pairwise_map]
    refine hascending.imp fun hless hsame => ?_
    rw [hsame, Std.ReflOrd.compare_self] at hless
    cases hless
  · have hrow := (h.row_of_documents hroom hobject).1
    have hentry : (object.key.row kind, object.toRow) ∈ database.shelf.rowsOf kind :=
      List.mem_filter.2 ⟨Table.mem_entries_iff.2 hrow, beq_self_eq_true _⟩
    rw [hrows] at hentry
    obtain ⟨listed, hlisted, hsame⟩ := List.mem_map.1 hentry
    exact h.eq_of_row hroom (hobjects listed hlisted) hobject (Prod.mk.inj hsame).1 ▸ hlisted

/-! ### What a store keeps -/

/-- **Where some of the rows are kept**, their documents are. -/
theorem documents_of_kept {after : Tables} (keep : RowKey → Row → Bool)
    (hkept : ∀ place, after.objects.find? place =
      (database.tables.objects.find? place).filter (keep place)) :
    after.Documents object ↔
      database.tables.Documents object ∧ keep (object.key.row kind) object.toRow = true := by
  constructor
  · rintro ⟨place, row, hrow, hlabel, hdocument⟩
    rw [hkept] at hrow
    obtain ⟨hrow, hkeep⟩ := Option.filter_eq_some_iff.1 hrow
    have hobject : database.tables.Documents object := ⟨place, row, hrow, hlabel, hdocument⟩
    obtain ⟨stored, hstored, rfl, rfl⟩ := h.exists_of_row hroom hrow hlabel
    obtain ⟨-, -, hsize⟩ := h.row_of_documents hroom hstored
    obtain rfl := Option.some.inj ((stored.decode_encode_object hsize).symm.trans hdocument)
    exact ⟨hobject, hkeep⟩
  · rintro ⟨hobject, hkeep⟩
    obtain ⟨hrow, -, hsize⟩ := h.row_of_documents hroom hobject
    refine ⟨object.key.row kind, object.toRow, ?_, rfl, object.decode_encode_object hsize⟩
    rw [hkept, hrow]
    exact Option.filter_eq_some_iff.2 ⟨rfl, hkeep⟩

/-- **What is left when an owner is collected** is what does not name it. -/
theorem documents_collect (owner : String) :
    (database.execute (.collect owner)).2.tables.Documents object ↔
      database.tables.Documents object ∧ object.metadata.isOwnedBy owner = false := by
  have hkept (place : RowKey) :
      (database.execute (.collect owner)).2.tables.objects.find? place =
        (database.tables.objects.find? place).filter fun row => !row.ownerUids.contains owner := by
    change (database.withCurrent _).tables.objects.find? place = _
    rw [Database.withCurrent, Database.current, h.idle]
    exact Table.find?_retain _ _ _
  rw [h.documents_of_kept hroom (fun _ row => !row.ownerUids.contains owner) hkept,
    Matches.contains_ownerUids, Bool.not_eq_true']

/-- **What is told when an owner is collected** is every object that names it. -/
theorem mem_collected (owner : String) (place : RowKey) (requestRef : Option String) :
    (place, requestRef) ∈ (database.execute (.collect owner)).1 ↔
      ∃ (kind : Kind) (object : Object kind), database.tables.Documents object ∧
        object.metadata.isOwnedBy owner = true ∧ place = object.key.row kind ∧
        requestRef = object.requestRef? := by
  have hcurrent : database.current = database.tables := (h.shows).current_eq
  change _ ∈ (database.current.objects.entries.filter fun entry =>
    entry.2.ownerUids.contains owner).map _ ↔ _
  rw [hcurrent, List.mem_map]
  constructor
  · rintro ⟨⟨place, row⟩, hentry, hsame⟩
    obtain ⟨hentry, howned⟩ := List.mem_filter.1 hentry
    obtain ⟨rfl, rfl⟩ := Prod.mk.inj hsame
    have hrow := Table.mem_entries_iff.1 hentry
    obtain ⟨kind, object, rfl, hplain, rfl, hsize⟩ := h.exists_object hroom h.current hrow
    rw [Matches.contains_ownerUids] at howned
    have hobject : database.tables.Documents object :=
      (h.documents_iff hroom h.current).2 ⟨hrow, hplain, hsize⟩
    exact ⟨kind, object, hobject, howned, rfl, rfl⟩
  · rintro ⟨kind, object, hobject, howned, rfl, rfl⟩
    have hrow := (h.row_of_documents hroom hobject).1
    rw [← Matches.contains_ownerUids] at howned
    exact ⟨_, List.mem_filter.2 ⟨Table.mem_entries_iff.2 hrow, howned⟩, rfl⟩

/-- **An object is deleted** with what names it as an owner. -/
theorem serve_delete (now : Instant) (uid : String) (hobject : database.tables.Documents object)
    (hfree : object.metadata.finalizers = []) : ∃ after,
      (Relational.delete kind object.key).serve now uid database = (.ok (), after) ∧
        ∀ {kind' : Kind} (left : Object kind'), after.tables.Documents left ↔
          database.tables.Documents left ∧ left.key.row kind' ≠ object.key.row kind ∧
            left.metadata.isOwnedBy object.metadata.uid = false := by
  obtain ⟨hrow, -, hsize⟩ := h.row_of_documents hroom hobject
  have hholds : database.shelf.Holds kind object.key (some object) :=
    ⟨hrow, fun stored hstored => by cases hstored; exact hsize⟩
  have hgives : Gives now uid none (Relational.delete kind object.key) database.shelf (.ok ())
      (database.shelf.drop object) := Gives.removed hholds (List.isEmpty_iff.2 hfree)
  obtain ⟨after, hserve, hafter⟩ := hgives database h.shows
  have hkept (place : RowKey) : after.tables.objects.find? place =
      (database.tables.objects.find? place).filter fun row =>
        place != object.key.row kind && !row.ownerUids.contains object.metadata.uid := by
    rw [← hafter.current_eq, hafter.rows, Shelf.drop]
    dsimp only
    rw [Table.find?_retain, Table.find?_erase]
    by_cases hsame : place = object.key.row kind
    · rw [if_pos hsame, hsame, bne_self_eq_false]
      cases database.tables.objects.find? (object.key.row kind) <;> rfl
    · rw [if_neg hsame, bne_iff_ne.2 hsame]
      rfl
  refine ⟨after, hserve, fun left => ?_⟩
  rw [h.documents_of_kept hroom (fun place row =>
    place != object.key.row kind && !row.ownerUids.contains object.metadata.uid) hkept,
    Matches.contains_ownerUids, Bool.and_eq_true, bne_iff_ne, Bool.not_eq_true']

end Sound

/-- **What is done by columns is what is to be done by documents.** -/
structure GoesByDocuments (database : Database) (now : Instant) (uid : String) : Prop where
  /-- A look-up finds the object under a key. -/
  find (kind : Kind) (key : Key) : ∃ found : Option (Object kind),
    ((Relational.find kind key).serve now uid database).1 = .ok found ∧
      ∀ object, found = some object ↔ database.tables.Documents object ∧ object.key = key.plain
  /-- Every policy is listed once. -/
  listPolicies : ∃ policies : List Policy,
    (Relational.listPolicies.serve now uid database).1 = .ok policies ∧
      (policies.map Object.key).Nodup ∧
      ∀ policy, policy ∈ policies ↔ database.tables.Documents policy
  /-- Every key of a kind is listed once. -/
  listKeys (kind : Kind) : ∃ listing : KeyListing,
    ((Relational.listKeys kind).serve now uid database).1 = .ok listing ∧ listing.keys.Nodup ∧
      ∀ key, key ∈ listing.keys ↔
        ∃ object : Object kind, database.tables.Documents object ∧ object.key = key
  /-- The responses to a request are heard by the request that they name and by the namespace that
  the scope stands for. -/
  listResponses (scope : Scope) (request : String) : ∃ responses : List Response,
    ((Relational.listResponses scope request).serve now uid database).1 = .ok responses ∧
      (responses.map Object.key).Nodup ∧
      ∀ response, response ∈ responses ↔ database.tables.Documents response ∧
        response.key = (scope.key response.metadata.name).plain ∧
        response.body.requestRef = request
  /-- What is left when an owner is collected is what does not name it. -/
  spared (owner : String) {kind : Kind} (object : Object kind) :
    (database.execute (.collect owner)).2.tables.Documents object ↔
      database.tables.Documents object ∧ object.metadata.isOwnedBy owner = false
  /-- What is told then is every object that names it. -/
  collected (owner : String) (place : RowKey) (requestRef : Option String) :
    (place, requestRef) ∈ (database.execute (.collect owner)).1 ↔
      ∃ (kind : Kind) (object : Object kind), database.tables.Documents object ∧
        object.metadata.isOwnedBy owner = true ∧ place = object.key.row kind ∧
        requestRef = object.requestRef?
  /-- An object that is deleted goes with what names it as an owner. -/
  delete {kind : Kind} (object : Object kind) : database.tables.Documents object →
    object.metadata.finalizers = [] → ∃ after,
      (Relational.delete kind object.key).serve now uid database = (.ok (), after) ∧
        ∀ {kind' : Kind} (left : Object kind'), after.tables.Documents left ↔
          database.tables.Documents left ∧ left.key.row kind' ≠ object.key.row kind ∧
            left.metadata.isOwnedBy object.metadata.uid = false

namespace Sound

variable (h : Sound seen database) (hroom : database.lastVersion < columnBound)

include h hroom

theorem heard (now : Instant) (uid : String) (scope : Scope) (request : String) :
    ∃ responses : List Response,
      ((Relational.listResponses scope request).serve now uid database).1 = .ok responses ∧
        (responses.map Object.key).Nodup ∧
        ∀ response, response ∈ responses ↔ database.tables.Documents response ∧
          response.key = (scope.key response.metadata.name).plain ∧
          response.body.requestRef = request := by
  obtain ⟨objects, hlists, hnodup, hobjects⟩ := h.lists hroom .response
  refine ⟨_, h.answers (Gives.listResponses hlists scope request),
    hnodup.sublist (List.filter_sublist.map _), fun response => ?_⟩
  rw [List.mem_filter, hobjects, Bool.and_eq_true, beq_iff_eq, beq_iff_eq]
  refine and_congr_right fun hdocument => ?_
  have hplain := (h.row_of_documents hroom hdocument).2.1
  have hplace : response.key = (scope.key response.metadata.name).plain ↔
      response.key.space.getD "" = scope.namespace?.getD "" := by
    rw [Key.eq_plain_iff .response hplain, Key.row, Key.row, RowKey.mk.injEq]
    exact ⟨fun hsame => hsame.2.1, fun hsame => ⟨rfl, hsame, rfl⟩⟩
  rw [hplace]
  exact and_congr_right fun _ => Option.some_inj

theorem goesByDocuments (now : Instant) (uid : String) : database.GoesByDocuments now uid where
  find kind key := by
    obtain ⟨found, hholds, hfound⟩ := h.holds hroom kind key
    exact ⟨found, h.answers (Gives.find hholds), hfound⟩
  listPolicies := by
    obtain ⟨policies, hlists, hnodup, hpolicies⟩ := h.lists hroom .policy
    exact ⟨policies, h.answers (Gives.listPolicies hlists), hnodup, hpolicies⟩
  listKeys kind := by
    obtain ⟨objects, hlists, hnodup, hobjects⟩ := h.lists hroom kind
    obtain ⟨cursor, hserve⟩ := serve_listKeys now uid h.shows hlists
    have hkeys : objects.map (fun object =>
        Key.ofColumns (object.key.space.getD "") object.key.name) = objects.map Object.key :=
      List.map_congr_left fun object hobject => Key.ofColumns_row
        (h.row_of_documents hroom ((hobjects object).1 hobject)).2.1
    rw [hkeys] at hserve
    refine ⟨_, congrArg Prod.fst hserve, hnodup, fun key => ?_⟩
    simp only [List.mem_map, hobjects]
  listResponses := h.heard hroom now uid
  spared owner _ _ := h.documents_collect hroom owner
  collected := h.mem_collected hroom
  delete _ hobject hfree := h.serve_delete hroom now uid hobject hfree

end Sound

/-! ### Every row and every change row -/

/-- **Columns mirror documents.** Take any database that can come about from empty tables, by any
calls one after the other, each of which may fail at any of its statements. The versions are to have
room in their column (`AccessBroker.columnBound`).

The columns of every row are those of the object in its document, and its key is read back from
them. Every change row tells of an object that was in a document between two calls. So what is
found, listed, heard and collected by columns is what the documents say. -/
theorem Reachable.columns_mirror (h : Reachable seen database)
    (hroom : database.lastVersion < columnBound) :
    (∀ place row, database.tables.objects.find? place = some row →
      ∃ (kind : Kind) (object : Object kind), decode row.document = some object ∧
        row.Mirrors place object) ∧
    (∀ change ∈ database.tables.changes, ∃ tables ∈ seen, ∃ (kind : Kind) (object : Object kind),
      tables.Documents object ∧ change.Mirrors object) ∧
    ∀ now uid, database.GoesByDocuments now uid := by
  have hsound := h.sound hroom
  refine ⟨fun place row hrow => ?_, fun change hchange => ?_, hsound.goesByDocuments hroom⟩
  · obtain ⟨kind, object, rfl, hplain, rfl, hsize⟩ :=
      hsound.exists_object hroom hsound.current hrow
    exact ⟨kind, object, object.decode_encode_object hsize, Object.mirrors_toRow hplain⟩
  · obtain ⟨hpositive, tables, htables, place, row, hrow, hsame⟩ := hsound.changes change hchange
    obtain ⟨kind, object, rfl, hplain, rfl, hsize⟩ := hsound.exists_object hroom htables hrow
    refine ⟨tables, htables, kind, object,
      (hsound.documents_iff hroom htables).2 ⟨hrow, hplain, hsize⟩, ?_⟩
    rw [hsame]
    exact Object.mirrors_change hplain hpositive

namespace Scenario

open Relational.Scenario

/-- A policy is saved. -/
def declared : Database :=
  { ((perform (.savePolicy rota)).attempt .epoch "u1" ⟨{}, [], []⟩).2.database with
    transaction := none }

/-- A role is created that is owned by the policy. -/
def staffed : Database :=
  { ((perform (.create .role oncall)).attempt .epoch "u2" ⟨declared, [], []⟩).2.database with
    transaction := none }

theorem reachable_staffed : Reachable [staffed.tables, declared.tables, {}] staffed :=
  .step (.step .start .epoch "u1" [] (.savePolicy rota) rfl) .epoch "u2" [] (.create .role oncall)
    rfl

end Scenario

/-- The role is in a document, and is no longer there when its owner was collected. -/
theorem columns_mirror_staffed :
    Reachable [Scenario.staffed.tables, Scenario.declared.tables, {}] Scenario.staffed ∧
    Scenario.staffed.lastVersion < columnBound ∧
    ∃ role : Role, Scenario.staffed.tables.Documents role ∧
      role.key = Relational.Scenario.oncall.key ∧
      ¬(Scenario.staffed.execute (.collect "u1")).2.tables.Documents role := by
  have hroom : Scenario.staffed.lastVersion < columnBound := by decide +kernel
  obtain ⟨-, -, hgoes⟩ := Reachable.columns_mirror Scenario.reachable_staffed hroom
  have hgoes := hgoes .epoch ""
  obtain ⟨found, hserve, hfound⟩ := hgoes.find .role Relational.Scenario.oncall.key
  have hread : ((Relational.find .role Relational.Scenario.oncall.key).serve .epoch ""
      Scenario.staffed).1.toOption.map (·.map fun role => role.metadata.isOwnedBy "u1") =
        some (some true) := rfl
  rw [hserve] at hread
  cases found with
  | none => cases hread
  | some role =>
    have howned : role.metadata.isOwnedBy "u1" = true := Option.some.inj (Option.some.inj hread)
    obtain ⟨hrole, hkey⟩ := (hfound role).1 rfl
    refine ⟨Scenario.reachable_staffed, hroom, role, hrole, hkey, fun hleft => ?_⟩
    exact Bool.false_ne_true (((hgoes.spared "u1" role).1 hleft).2.symm.trans howned)

end Database

end AccessBroker
