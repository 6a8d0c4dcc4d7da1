import AccessBroker.Object.Lifecycle
import AccessBroker.Store.Call
import AccessBroker.Store.Table

/-!
# The store in memory

A store that holds its objects in one table per kind, and the change feed in a
list. Everything is said once for all kinds.

Versions come from one counter for all kinds, which moves on at the start of every
write, whether or not the write succeeds. When an object goes, so do the roles and
bindings that name it as an owner, in that order.

`AccessBroker.MemoryStore.perform` answers the calls. It is told the time and, for an
object that has to be given one, an unused identifier;
`AccessBroker.MemoryStore.takesUid` says whether that identifier is taken.
-/

namespace AccessBroker

open AccessBroker.Time

/-- The objects of all kinds, and the change feed. -/
structure MemoryStore where
  /-- The last version that was given out. -/
  version : Nat := 0
  requests : Table Key Request := {}
  responses : Table Key Response := {}
  policies : Table Key Policy := {}
  grants : Table Key Grant := {}
  roles : Table Key Role := {}
  bindings : Table Key Binding := {}
  /-- The position of the last change that was ever made. -/
  lastSequence : Nat := 0
  /-- The changes that have not been dropped, oldest first. -/
  changes : List Change := []

namespace MemoryStore

instance : Inhabited MemoryStore := ⟨{}⟩

variable {kind : Kind}

/-! ### Tables and feed -/

/-- The objects of a kind. -/
def table (store : MemoryStore) : (kind : Kind) → Table Key (Object kind)
  | .request => store.requests
  | .response => store.responses
  | .policy => store.policies
  | .grant => store.grants
  | .role => store.roles
  | .binding => store.bindings

/-- The store with other objects of a kind. -/
def withTable (store : MemoryStore) : {kind : Kind} → Table Key (Object kind) → MemoryStore
  | .request, requests => { store with requests }
  | .response, responses => { store with responses }
  | .policy, policies => { store with policies }
  | .grant, grants => { store with grants }
  | .role, roles => { store with roles }
  | .binding, bindings => { store with bindings }

@[simp]
theorem table_withTable (store : MemoryStore) (objects : Table Key (Object kind)) :
    (store.withTable objects).table kind = objects := by
  cases kind <;> rfl

theorem table_withTable_of_ne (store : MemoryStore) (objects : Table Key (Object kind))
    {other : Kind} (h : other ≠ kind) :
    (store.withTable objects).table other = store.table other := by
  cases kind <;> cases other <;> first | rfl | exact absurd rfl h

/-- The object of a kind with a key. -/
def find? (store : MemoryStore) (kind : Kind) (key : Key) : Option (Object kind) :=
  (store.table kind).find? key

/-- The store with one more change in the feed. -/
def record (store : MemoryStore) (object : Object kind) : MemoryStore :=
  let sequence := store.lastSequence + 1
  { store with
    lastSequence := sequence
    changes := store.changes ++ [⟨sequence, kind, object.key, object.requestRef?⟩] }

/-- The store with the next version given out. -/
def renewed (store : MemoryStore) : MemoryStore :=
  { store with version := store.version + 1 }

/-- The store with an object written. -/
def put (store : MemoryStore) (object : Object kind) : MemoryStore :=
  (store.withTable ((store.table kind).insert object.key object)).record object

/-- The store without the objects of a kind that name an owner. -/
def dropOwned (store : MemoryStore) (kind : Kind) (owner : String) : MemoryStore :=
  let isOwned (object : Object kind) : Bool := object.metadata.isOwnedBy owner
  let kept := (store.table kind).retain fun _ object => !isOwned object
  ((store.table kind).values.filter isOwned).foldl record (store.withTable kept)

/-- The store without an object and without the roles and bindings that it
owns. -/
def drop (store : MemoryStore) (object : Object kind) : MemoryStore :=
  let store := (store.withTable ((store.table kind).erase object.key)).record object
  (store.dropOwned .role object.metadata.uid).dropOwned .binding object.metadata.uid

/-! ### Writes -/

/-- Refuses a key that is malformed or taken. -/
def checkVacant (store : MemoryStore) (kind : Kind) (key : Key) : Except Failure Unit := do
  key.validate
  if (store.table kind).contains key then throw (kind.taken key)

/-- The stored object with the key and version of another one. -/
def current (store : MemoryStore) (object : Object kind) : Except Failure (Object kind) :=
  match store.find? kind object.key with
  | none => .error (kind.missing object.key)
  | some stored =>
    if stored.metadata.version = object.metadata.version then .ok stored
    else .error (kind.outdated object.key object.metadata.version stored.metadata.version)

/-- Stores a new object. -/
def create (now : Instant) (uid : String) (object : Object kind) (store : MemoryStore) :
    Except Failure (Object kind) × MemoryStore :=
  let store := store.renewed
  match store.checkVacant kind object.key with
  | .error failure => (.error failure, store)
  | .ok () =>
    let created := object.pristine.born now uid store.version
    (.ok created, store.put created)

/-- Stores a policy, which keeps the identity of the one with its key. -/
def savePolicy (now : Instant) (uid : String) (policy : Policy) (store : MemoryStore) :
    Except Failure Policy × MemoryStore :=
  match policy.key.validate with
  | .error failure => (.error failure, store)
  | .ok () =>
    let store := store.renewed
    let saved := match store.find? .policy policy.key with
      | none => policy.born now uid store.version
      | some stored => policy.inPlaceOf stored store.version
    (.ok saved, store.put saved)

/-- Writes the finalizers and owners of an object; one that has nothing left to
wait for is removed. -/
def updateMetadata (object : Object kind) (store : MemoryStore) :
    Except Failure (Object kind) × MemoryStore :=
  let store := store.renewed
  match store.current object with
  | .error failure => (.error failure, store)
  | .ok stored =>
    let updated := stored.withLinksOf object store.version
    (.ok updated, if updated.isSpent then store.drop updated else store.put updated)

/-- Writes the status of an object. -/
def patchStatus (base : Object kind) (status : kind.Status) (store : MemoryStore) :
    Except Failure (Object kind) × MemoryStore :=
  let store := store.renewed
  match store.current base with
  | .error failure => (.error failure, store)
  | .ok stored =>
    let patched := stored.patched status store.version
    (.ok patched, store.put patched)

/-- Removes an object, or marks it as deleting. -/
def delete (now : Instant) (kind : Kind) (key : Key) (store : MemoryStore) :
    Except Failure Unit × MemoryStore :=
  let store := store.renewed
  match store.find? kind key with
  | none => (.error (kind.missing key), store)
  | some stored =>
    if stored.metadata.finalizers.isEmpty then (.ok (), store.drop stored)
    -- The deletion of an object that is deleting already is a change in the feed, too.
    else (.ok (), store.put (stored.marked now store.version))

/-! ### Listings and feed -/

/-- Every policy, in key order. -/
def listPolicies (store : MemoryStore) : List Policy :=
  store.policies.values

/-- The responses to a request, in key order. -/
def listResponses (store : MemoryStore) (scope : Scope) (request : String) : List Response :=
  store.responses.values.filter fun response =>
    response.scope == scope && response.body.requestRef == request

/-- The keys of a kind, and the position of the last change. -/
def listKeys (store : MemoryStore) (kind : Kind) : KeyListing :=
  ⟨(store.table kind).keys, store.lastSequence⟩

/-- At most `limit` of the changes that follow a position. -/
def changesSince (store : MemoryStore) (cursor limit : Nat) : ChangePage :=
  .following cursor
    ((store.changes.dropWhile fun change => change.sequence ≤ cursor).take limit)

/-- Drops the changes up to a position, and counts them. -/
def compact (store : MemoryStore) (through : Nat) : Nat × MemoryStore :=
  let isSeen (change : Change) : Bool := change.sequence ≤ through
  ((store.changes.takeWhile isSeen).length,
    { store with changes := store.changes.dropWhile isSeen })

/-! ### Calls -/

/-- Does a call give its object the identifier that it is offered? -/
def takesUid (store : MemoryStore) : StoreCall → Bool
  | .create kind object => (store.checkVacant kind object.key).isOk
  | .savePolicy policy => (store.checkVacant .policy policy.key).isOk
  | _ => false

/-- Answers a call. -/
def perform (now : Instant) (uid : String) :
    (call : StoreCall) → MemoryStore → call.Reply × MemoryStore
  | .find kind key, store => (.ok (store.find? kind key), store)
  | .create _ object, store => store.create now uid object
  | .savePolicy policy, store => store.savePolicy now uid policy
  | .updateMetadata _ object, store => store.updateMetadata object
  | .patchStatus _ base status, store => store.patchStatus base status
  | .delete kind key, store => store.delete now kind key
  | .listPolicies, store => (.ok store.listPolicies, store)
  | .listResponses scope request, store => (.ok (store.listResponses scope request), store)
  | .listKeys kind, store => (.ok (store.listKeys kind), store)
  | .changesSince cursor limit, store => (.ok (store.changesSince cursor limit), store)
  | .compact through, store =>
    let (dropped, store) := store.compact through
    (.ok dropped, store)

end MemoryStore

end AccessBroker
