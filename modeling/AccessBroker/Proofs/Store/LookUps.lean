import AccessBroker.Store.Memory

/-!
# Look-ups after a write

The store in memory is known by its look-ups. Here is what they find after an
object was put or dropped: a put changes what lies under one key of one kind, and
so does a drop, which takes what the object owned with it
(`AccessBroker.MemoryStore.not_isOwnedBy_of_find?_drop`).
-/

namespace AccessBroker

open AccessBroker.Time Std

/-- Entries in the order of their keys are known by which ones there are. -/
theorem Table.eq_of_ascending {κ α : Type} [Ord κ] [TransOrd κ] {entries others : List (κ × α)}
    (h : entries.Pairwise fun a b => compare a.1 b.1 = .lt)
    (h' : others.Pairwise fun a b => compare a.1 b.1 = .lt)
    (hmem : ∀ entry, entry ∈ entries ↔ entry ∈ others) : entries = others := by
  have hirrefl (entry : κ × α) : compare entry.1 entry.1 ≠ .lt := by
    rw [ReflOrd.compare_self]
    decide
  have hnodup {entries : List (κ × α)} (h : entries.Pairwise fun a b => compare a.1 b.1 = .lt) :
      entries.Nodup :=
    h.imp fun {a b} hlt heq => by
      subst heq
      exact hirrefl a hlt
  have hperm : entries.Perm others :=
    (List.perm_ext_iff_of_nodup (hnodup h) (hnodup h')).2 fun entry => hmem entry
  refine hperm.eq_of_pairwise (fun a b _ _ hlt hgt => ?_) h h'
  exact absurd (TransCmp.lt_trans hlt hgt) (hirrefl a)

/-- **A table is known by its look-ups.** -/
theorem Table.entries_eq_of_find? {κ α : Type} [Ord κ] [TransOrd κ] [LawfulEqOrd κ]
    {table other : Table κ α} (h : ∀ key, table.find? key = other.find? key) :
    table.entries = other.entries :=
  eq_of_ascending table.ascending other.ascending fun (key, value) => by
    rw [mem_entries_iff, mem_entries_iff, h]

/-- Do the objects of a kind go away with their owner? -/
def Kind.isOwned : Kind → Bool
  | .role | .binding => true
  | .request | .response | .policy | .grant => false

namespace Object

variable {kind : Kind}

theorem body_pristine (h : kind.isOwned = true) (object : Object kind) :
    object.pristine.body = object.body := by
  cases kind with
  | role | binding => rfl
  | request | response | policy | grant => cases h

@[simp]
theorem key_withLinksOf (stored object : Object kind) (version : Nat) :
    (stored.withLinksOf object version).key = stored.key :=
  rfl

@[simp]
theorem isDeleting_withLinksOf (stored object : Object kind) (version : Nat) :
    (stored.withLinksOf object version).metadata.isDeleting = stored.metadata.isDeleting :=
  rfl

@[simp]
theorem finalizers_withLinksOf (stored object : Object kind) (version : Nat) :
    (stored.withLinksOf object version).metadata.finalizers = object.metadata.finalizers :=
  rfl

@[simp]
theorem key_patched (stored : Object kind) (status : kind.Status) (version : Nat) :
    (stored.patched status version).key = stored.key :=
  rfl

theorem isDeleting_marked (stored : Object kind) (now : Instant) (version : Nat) :
    (stored.marked now version).metadata.isDeleting = true := by
  unfold marked
  split
  · assumption
  · rfl

@[simp]
theorem uid_marked (stored : Object kind) (now : Instant) (version : Nat) :
    (stored.marked now version).metadata.uid = stored.metadata.uid := by
  unfold marked
  split <;> rfl

@[simp]
theorem body_marked (stored : Object kind) (now : Instant) (version : Nat) :
    (stored.marked now version).body = stored.body := by
  unfold marked
  split <;> rfl

@[simp]
theorem finalizers_marked (stored : Object kind) (now : Instant) (version : Nat) :
    (stored.marked now version).metadata.finalizers = stored.metadata.finalizers := by
  unfold marked
  split <;> rfl

@[simp]
theorem owners_marked (stored : Object kind) (now : Instant) (version : Nat) :
    (stored.marked now version).metadata.owners = stored.metadata.owners := by
  unfold marked
  split <;> rfl

@[simp]
theorem key_marked (stored : Object kind) (now : Instant) (version : Nat) :
    (stored.marked now version).key = stored.key := by
  unfold marked
  split <;> rfl

end Object

namespace MemoryStore

variable {kind other : Kind} {key : Key} {store : MemoryStore} {now : Instant} {uid : String}

/-- What is stored is listed. -/
theorem mem_listKeys (store : MemoryStore) {object : Object kind}
    (h : store.find? kind key = some object) : key ∈ (store.listKeys kind).keys :=
  List.mem_map.2 ⟨(key, object), Table.mem_entries_iff.2 h, rfl⟩

/-- A stored response is heard. -/
theorem mem_listResponses (store : MemoryStore) {response : Response}
    (h : store.find? .response key = some response) :
    response ∈ store.listResponses response.scope response.body.requestRef := by
  have hvalue : response ∈ store.responses.values :=
    List.mem_map.2 ⟨(key, response), Table.mem_entries_iff.2 h, rfl⟩
  exact List.mem_filter.2 ⟨hvalue, by simp⟩

/-! ### Look-ups after a write -/

theorem table_record (store : MemoryStore) (object : Object kind) :
    (store.record object).table other = store.table other := by
  cases other <;> rfl

theorem table_renewed (store : MemoryStore) : store.renewed.table other = store.table other := by
  cases other <;> rfl

theorem table_foldl_record (objects : List (Object kind)) (store : MemoryStore) :
    (objects.foldl record store).table other = store.table other := by
  induction objects generalizing store with
  | nil => rfl
  | cons object rest ih => exact (ih _).trans (table_record store object)

@[simp]
theorem find?_record (store : MemoryStore) (object : Object kind) :
    (store.record object).find? other key = store.find? other key := by
  rw [find?, table_record, find?]

@[simp]
theorem find?_renewed (store : MemoryStore) :
    store.renewed.find? other key = store.find? other key := by
  rw [find?, table_renewed, find?]

theorem find?_withTable_of_ne (store : MemoryStore) (objects : Table Key (Object kind))
    (h : other ≠ kind) : (store.withTable objects).find? other key = store.find? other key := by
  rw [find?, table_withTable_of_ne _ _ h, find?]

theorem find?_put (store : MemoryStore) (object : Object kind) :
    (store.put object).find? kind key =
      if key = object.key then some object else store.find? kind key := by
  rw [put, find?_record, find?, table_withTable, Table.find?_insert, find?]

theorem find?_put_of_ne (store : MemoryStore) (object : Object kind) (h : other ≠ kind) :
    (store.put object).find? other key = store.find? other key := by
  rw [put, find?_record, find?_withTable_of_ne _ _ h]

theorem find?_dropOwned (store : MemoryStore) (owner : String) :
    (store.dropOwned kind owner).find? kind key =
      (store.find? kind key).filter fun object => !object.metadata.isOwnedBy owner := by
  rw [dropOwned, find?, table_foldl_record, table_withTable, Table.find?_retain, find?]

theorem find?_dropOwned_of_ne (store : MemoryStore) (owner : String) (h : other ≠ kind) :
    (store.dropOwned kind owner).find? other key = store.find? other key := by
  rw [dropOwned, find?, table_foldl_record, table_withTable_of_ne _ _ h, find?]

/-- What is dropped first: the object itself, before what it owns. -/
theorem find?_erased (store : MemoryStore) (object : Object kind) :
    ((store.withTable ((store.table kind).erase object.key)).record object).find? kind key =
      if key = object.key then none else store.find? kind key := by
  rw [find?_record, find?, table_withTable, Table.find?_erase, find?]

theorem find?_erased_of_ne (store : MemoryStore) (object : Object kind)
    (h : other ≠ kind) :
    ((store.withTable ((store.table kind).erase object.key)).record object).find? other key =
      store.find? other key := by
  rw [find?_record, find?_withTable_of_ne _ _ h]

/-- A look-up of a kind that nobody owns. -/
theorem find?_drop_of_not_isOwned (store : MemoryStore) (object : Object kind)
    (h : other.isOwned = false) :
    (store.drop object).find? other key =
      ((store.withTable ((store.table kind).erase object.key)).record object).find? other key := by
  have hrole : other ≠ .role := by rintro rfl; cases h
  have hbinding : other ≠ .binding := by rintro rfl; cases h
  rw [drop, find?_dropOwned_of_ne _ _ hbinding, find?_dropOwned_of_ne _ _ hrole]

/-- A look-up of a kind that is owned. -/
theorem find?_drop_of_isOwned (store : MemoryStore) (object : Object kind)
    (h : other.isOwned = true) :
    (store.drop object).find? other key =
      (((store.withTable ((store.table kind).erase object.key)).record object).find? other
        key).filter fun owned => !owned.metadata.isOwnedBy object.metadata.uid := by
  cases other with
  | role => rw [drop, find?_dropOwned_of_ne _ _ (by decide), find?_dropOwned]
  | binding => rw [drop, find?_dropOwned, find?_dropOwned_of_ne _ _ (by decide)]
  | request | response | policy | grant => cases h

/-- Whatever is left after a removal was there before. -/
theorem find?_of_find?_drop {object : Object kind} {left : Object other}
    (h : (store.drop object).find? other key = some left) : store.find? other key = some left := by
  have herased : ((store.withTable ((store.table kind).erase object.key)).record object).find?
      other key = some left := by
    cases howned : other.isOwned with
    | false => rwa [find?_drop_of_not_isOwned _ _ howned] at h
    | true =>
      rw [find?_drop_of_isOwned _ _ howned] at h
      exact (Option.filter_eq_some_iff.1 h).1
  by_cases hkind : other = kind
  · subst hkind
    rw [find?_erased] at herased
    split at herased
    · cases herased
    · exact herased
  · rwa [find?_erased_of_ne _ _ hkind] at herased

theorem find?_drop_self (store : MemoryStore) (object : Object kind) :
    (store.drop object).find? kind object.key = none := by
  cases howned : kind.isOwned with
  | false => rw [find?_drop_of_not_isOwned _ _ howned, find?_erased, if_pos rfl]
  | true => rw [find?_drop_of_isOwned _ _ howned, find?_erased, if_pos rfl, Option.filter_none]

/-- **A removal spares the other objects**, those apart that can be owned. -/
theorem find?_drop_of_ne (store : MemoryStore) (object : Object kind)
    (howned : other.isOwned = false) (h : other = kind → key ≠ object.key) :
    (store.drop object).find? other key = store.find? other key := by
  rw [find?_drop_of_not_isOwned _ _ howned]
  by_cases hkind : other = kind
  · subst hkind
    rw [find?_erased, if_neg (h rfl)]
  · rw [find?_erased_of_ne _ _ hkind]

/-- What is gone after a removal, and cannot be owned, is what was removed. -/
theorem eq_of_drop_gone {object : Object kind} {old : Object other}
    (howned : other.isOwned = false) (hfound : store.find? other key = some old)
    (hgone : (store.drop object).find? other key = none) : other = kind ∧ key = object.key := by
  refine Decidable.byContradiction fun hother => ?_
  rw [find?_drop_of_ne _ _ howned fun hkind hkey => hother ⟨hkind, hkey⟩, hfound] at hgone
  cases hgone

theorem find?_eq_none_of_put {object : Object kind}
    (hgone : (store.put object).find? other key = none) : store.find? other key = none := by
  by_cases hkind : other = kind
  · subst hkind
    rw [find?_put] at hgone
    split at hgone
    · cases hgone
    · exact hgone
  · rwa [find?_put_of_ne _ _ hkind] at hgone

/-- **What an object owns goes with it.** -/
theorem not_isOwnedBy_of_find?_drop {object : Object kind} {left : Object other}
    (howned : other.isOwned = true) (h : (store.drop object).find? other key = some left) :
    left.metadata.isOwnedBy object.metadata.uid = false := by
  rw [find?_drop_of_isOwned _ _ howned] at h
  simpa using (Option.filter_eq_some_iff.1 h).2

/-! ### Checks -/

theorem contains_eq_isSome (store : MemoryStore) (kind : Kind) (key : Key) :
    (store.table kind).contains key = (store.find? kind key).isSome :=
  rfl

theorem checkVacant_renewed (store : MemoryStore) (key : Key) :
    store.renewed.checkVacant kind key = store.checkVacant kind key := by
  unfold checkVacant
  rw [table_renewed]

theorem find?_eq_none_of_checkVacant {store : MemoryStore} {key : Key} {passed : Unit}
    (h : store.checkVacant kind key = .ok passed) : store.find? kind key = none := by
  unfold checkVacant at h
  rw [contains_eq_isSome] at h
  cases hkey : key.validate with
  | error failure =>
    rw [hkey] at h
    cases h
  | ok _ =>
    cases hfind : store.find? kind key with
    | none => rfl
    | some stored =>
      rw [hkey, hfind] at h
      cases h

theorem isOk_checkVacant {store : MemoryStore} {key : Key} {passed : Unit}
    (hkey : key.validate = .ok passed) (h : store.find? kind key = none) :
    (store.checkVacant kind key).isOk = true := by
  unfold checkVacant
  rw [contains_eq_isSome, hkey, h]
  rfl

theorem current_renewed (store : MemoryStore) (object : Object kind) :
    store.renewed.current object = store.current object := by
  simp only [current, find?_renewed]

/-- What `AccessBroker.MemoryStore.current` finds has the key and version of what
it was asked for. -/
theorem current_eq_ok {store : MemoryStore} {object stored : Object kind}
    (h : store.current object = .ok stored) :
    store.find? kind object.key = some stored ∧
      stored.metadata.version = object.metadata.version := by
  unfold current at h
  split at h
  · cases h
  · next found hfound =>
    split at h
    · next hversion =>
      obtain rfl := Except.ok.inj h
      exact ⟨hfound, hversion⟩
    · cases h

end MemoryStore

end AccessBroker
