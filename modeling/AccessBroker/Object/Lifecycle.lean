import AccessBroker.Object.Basic

/-!
# How objects change

The ways in which a store makes the object that it stores from the stored one and the
one that was submitted: an object is born, takes the place of another one, is given
other finalizers and owners or another status, or is marked as deleting. All stores
make them alike; a new version comes with each.
-/

namespace AccessBroker

open AccessBroker.Time

namespace Object

variable {kind : Kind}

/-- The object with an identity of its own: an identifier, a version and the time
of its creation. -/
def born (object : Object kind) (now : Instant) (uid : String) (version : Nat) : Object kind :=
  { object with metadata := { object.metadata with
      uid, version, createdAt := some now, deletedAt := none } }

/-- The object with the identity of another one that it takes the place of. -/
def inPlaceOf (object stored : Object kind) (version : Nat) : Object kind :=
  { object with metadata := { object.metadata with
      uid := stored.metadata.uid
      version
      createdAt := stored.metadata.createdAt
      deletedAt := stored.metadata.deletedAt } }

/-- The object with the finalizers and owners of another one. -/
def withLinksOf (stored object : Object kind) (version : Nat) : Object kind :=
  { stored with metadata := { stored.metadata with
      finalizers := object.metadata.finalizers
      owners := object.metadata.owners
      version } }

/-- The object with another status, under a new version. -/
def patched (stored : Object kind) (status : kind.Status) (version : Nat) : Object kind :=
  { stored.withStatus status with metadata := { stored.metadata with version } }

/-- The object marked as deleting. An object that is marked already stays as it
is. -/
def marked (stored : Object kind) (now : Instant) (version : Nat) : Object kind :=
  if stored.metadata.isDeleting then stored
  else { stored with metadata := { stored.metadata with deletedAt := some now, version } }

/-- Has the object nothing left to wait for? Its deletion was asked for, and no
finalizer is attached. -/
def isSpent (object : Object kind) : Bool :=
  object.metadata.isDeleting && object.metadata.finalizers.isEmpty

end Object

end AccessBroker
