import AccessBroker.Object.Basic

/-!
# Calls to a store

What can be asked of a store of objects, whatever holds it. Objects are found by
key and listed in key order. Every write gives the object a new version; the two
kinds of partial write – of the finalizers and owners, and of the status – are
based on an object read before and fail when the stored one has another version.
An object with finalizers is not removed by a deletion but marked as deleting.

Every write is also put into the change feed. Whoever follows the feed lists the
keys of a kind first, goes on from the position that the listing gives, and drops
from the feed what it has seen.
-/

namespace AccessBroker

/-- One write, as the change feed tells of it. -/
structure Change where
  /-- The position in the feed. -/
  sequence : Nat
  /-- The kind of the object that was written or removed. -/
  kind : Kind
  key : Key
  /-- The request that the object names. -/
  requestRef : Option String
  deriving Repr, DecidableEq, Inhabited

/-- Some changes in a row. -/
structure ChangePage where
  changes : List Change
  /-- The position to go on from. -/
  nextCursor : Nat
  deriving Repr, DecidableEq, Inhabited

namespace ChangePage

/-- The page of some changes that follow a position. -/
def following (cursor : Nat) (changes : List Change) : ChangePage where
  changes := changes
  nextCursor := (changes.getLast?.map (·.sequence)).getD cursor

end ChangePage

/-- The keys of a kind. -/
structure KeyListing where
  keys : List Key
  /-- A position in the feed such that every later write follows it. -/
  cursor : Nat
  deriving Repr, DecidableEq, Inhabited

/-- The calls to a store. -/
inductive StoreCall where
  /-- The object with a key. -/
  | find (kind : Kind) (key : Key)
  /-- Stores a new object, with a blank status if its kind has one. -/
  | create (kind : Kind) (object : Object kind)
  /-- Stores a policy in place of the one with its key, if there is one. -/
  | savePolicy (policy : Policy)
  /-- Writes the finalizers and owners of an object that was read before. -/
  | updateMetadata (kind : Kind) (object : Object kind)
  /-- Writes the status of an object that was read before. -/
  | patchStatus (kind : Kind) (base : Object kind) (status : kind.Status)
  /-- Removes an object, or marks it as deleting while it has finalizers. -/
  | delete (kind : Kind) (key : Key)
  /-- Every policy. -/
  | listPolicies
  /-- The responses to a request. -/
  | listResponses (scope : Scope) (request : String)
  /-- The keys of a kind. -/
  | listKeys (kind : Kind)
  /-- At most `limit` of the changes that follow a position. -/
  | changesSince (cursor limit : Nat)
  /-- Drops the changes up to a position. -/
  | compact (through : Nat)

namespace StoreCall

/-- What a successful call gives. -/
abbrev Result : StoreCall → Type
  | .find kind _ => Option (Object kind)
  | .create kind _ => Object kind
  | .savePolicy _ => Policy
  | .updateMetadata kind _ => Object kind
  | .patchStatus kind _ _ => Object kind
  | .delete _ _ => Unit
  | .listPolicies => List Policy
  | .listResponses _ _ => List Response
  | .listKeys _ => KeyListing
  | .changesSince _ _ => ChangePage
  | .compact _ => Nat

/-- What a call is answered with. -/
abbrev Reply (call : StoreCall) : Type :=
  Except Failure call.Result

/-- The key that a call is about, if it is about one object or one request. -/
def key? : StoreCall → Option Key
  | .find _ key | .delete _ key => some key
  | .create _ object | .updateMetadata _ object | .patchStatus _ object _ => some object.key
  | .savePolicy policy => some policy.key
  | .listResponses scope request => some (scope.key request)
  | .listPolicies | .listKeys _ | .changesSince _ _ | .compact _ => none

end StoreCall

/-! ### Reports of failed calls -/

namespace Kind

/-- The key is taken. -/
def taken (kind : Kind) (key : Key) : Failure :=
  .alreadyExists s!"{kind.label} '{key.text}' already exists"

/-- There is no object with the key. -/
def missing (kind : Kind) (key : Key) : Failure :=
  .notFound s!"{kind.label} '{key.text}' does not exist"

/-- The write was based on another version than the stored one. -/
def outdated (kind : Kind) (key : Key) (expected found : Nat) : Failure :=
  .conflict s!"{kind.label} '{key.text}' was modified: expected version {expected}, found {found}"

end Kind

end AccessBroker
