import AccessBroker.Object.Key
import AccessBroker.Time.Timestamp

/-!
# Metadata

What every stored object carries beside its content. The store alone assigns the
unique identifier, the version and the two times; finalizers and owners are
written by whoever has work left to do on an object or wants it to go with
another one.

An object with a time of deletion is *deleting*: it stays stored until its last
finalizer has been taken off.
-/

namespace AccessBroker

open AccessBroker.Time

/-- The marker that keeps requests and grants stored until they have been cleaned
up. -/
def cleanupFinalizer : String := "jitgate.io/cleanup"

/-- A reference to an owner, with which the object goes away. -/
structure OwnerReference where
  kind : Kind
  name : String
  /-- The unique identifier of the owner. -/
  uid : String
  deriving Repr, DecidableEq, Inhabited

/-- What every stored object carries beside its content. -/
structure Metadata where
  name : String := ""
  /-- The namespace, absent for objects of the whole cluster. -/
  space : Option String := none
  /-- The unique identifier, assigned on creation. -/
  uid : String := ""
  /-- The version, renewed by every write. -/
  version : Nat := 0
  createdAt : Option Instant := none
  /-- When deletion was asked for while finalizers were present. -/
  deletedAt : Option Instant := none
  /-- Markers of work to be done before the object may go. -/
  finalizers : List String := []
  owners : List OwnerReference := []
  deriving Repr, DecidableEq, Inhabited

namespace Metadata

/-- The metadata of an object that is not stored yet. -/
def ofKey (key : Key) : Metadata :=
  { name := key.name, space := key.space }

/-- The key of the object. -/
def key (data : Metadata) : Key :=
  ⟨data.space, data.name⟩

/-- The scope of the object. -/
def scope (data : Metadata) : Scope :=
  data.key.scope

/-- Has deletion been asked for? -/
def isDeleting (data : Metadata) : Bool :=
  data.deletedAt.isSome

/-- Is the finalizer attached? -/
def hasFinalizer (data : Metadata) (finalizer : String) : Bool :=
  data.finalizers.contains finalizer

/-- Attaches a finalizer, once. -/
def addFinalizer (data : Metadata) (finalizer : String) : Metadata :=
  if data.hasFinalizer finalizer then data
  else { data with finalizers := data.finalizers ++ [finalizer] }

/-- Takes a finalizer off. -/
def removeFinalizer (data : Metadata) (finalizer : String) : Metadata :=
  { data with finalizers := data.finalizers.filter (· != finalizer) }

/-- Is one of the owners the object with this identifier? -/
def isOwnedBy (data : Metadata) (uid : String) : Bool :=
  data.owners.any fun owner => owner.uid == uid

/-- The identifiers of the owners. -/
def ownerUids (data : Metadata) : List String :=
  data.owners.map (·.uid)

end Metadata

instance : Document OwnerReference where
  encode owner :=
    .obj [("kind", encode owner.kind), ("name", .str owner.name), ("uid", .str owner.uid)]
  decode json := do
    let fields ← json.record ["kind", "name", "uid"] 3
    return {
      kind := ← fields.required "kind"
      name := ← fields.required "name"
      uid := ← fields.required "uid" }

/-- The field of a record that holds a version: a whole number of 64 bits. -/
def Fields.version (fields : Fields) (name : String) : Option Nat := do
  let value ← (← fields.get? name).wholeBetween 0 UInt64.size
  return value.toNat

instance : Document Metadata where
  encode data := .obj [
    ("name", .str data.name),
    ("namespace", encode data.space),
    ("uid", .str data.uid),
    ("resource_version", .int data.version),
    ("creation_timestamp", encode data.createdAt),
    ("deletion_timestamp", encode data.deletedAt),
    ("finalizers", encode data.finalizers),
    ("owner_references", encode data.owners)]
  decode json := do
    let fields ← json.record ["name", "namespace", "uid", "resource_version",
      "creation_timestamp", "deletion_timestamp", "finalizers", "owner_references"] 8
    return {
      name := ← fields.required "name"
      space := ← fields.optional "namespace"
      uid := ← fields.required "uid"
      version := ← fields.version "resource_version"
      createdAt := ← fields.optional "creation_timestamp"
      deletedAt := ← fields.optional "deletion_timestamp"
      finalizers := ← fields.required "finalizers"
      owners := ← fields.required "owner_references" }

end AccessBroker
