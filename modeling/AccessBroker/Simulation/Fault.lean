import AccessBroker.Engine.Pass
import AccessBroker.Store.Relational

/-!
# Faults

Failures that a simulation plans ahead: of calls to a store, of telling a listener,
and of statements of a database. A fault names what it hits and, for calls, possibly
the key that they have to be about; it lets a number of occasions pass, hits the next
ones, and is then used up. Before or after the call that it hits, it may let other
clients do something with the store.
-/

namespace AccessBroker

/-- The name of a kind in the names of calls. -/
def Kind.noun : Kind → String
  | .request => "request"
  | .response => "response"
  | .policy => "policy"
  | .grant => "grant"
  | .role => "role"
  | .binding => "binding"

namespace StoreCall

/-- The name of a call. -/
def label : StoreCall → String
  | .find kind _ => s!"find_{kind.noun}"
  | .create kind _ => s!"create_{kind.noun}"
  | .savePolicy _ => "save_policy"
  | .updateMetadata kind _ => s!"update_{kind.noun}_metadata"
  | .patchStatus kind _ _ => s!"patch_{kind.noun}_status"
  | .delete kind _ => s!"delete_{kind.noun}"
  | .listPolicies => "list_policies"
  | .listResponses _ _ => "list_responses_for_request"
  | .listKeys _ => "list_keys"
  | .changesSince _ _ => "changes_since"
  | .compact _ => "compact"

end StoreCall

namespace Statement

/-- The name of a statement that sets up the tables. -/
def setupLabel : SetupStatement → String
  | .database => "database"
  | .advisoryLock => "advisory_lock"
  | .migrationsTable => "migrations_table"
  | .dirty => "dirty"
  | .applied => "applied"
  | .migrate => "migrate"
  | .migrationRow => "migration_row"
  | .migrationTime => "migration_time"

/-- The name of a statement. -/
def label : Statement → String
  | .setup statement => setupLabel statement
  | .begin => "begin"
  | .commit => "commit"
  | .rollback => "rollback"
  | .nextVersion => "next_version"
  | .lock _ => "lock"
  | .find _ => "find"
  | .insert _ _ => "insert"
  | .upsert _ _ => "upsert"
  | .delete _ => "delete"
  | .collect _ => "collect"
  | .recordChange _ _ => "record_change"
  | .list _ => "list"
  | .listKeys _ => "list_keys"
  | .listReferencing _ _ _ => "list_referencing"
  | .head => "head"
  | .changes _ _ => "changes"
  | .compact _ => "compact"
  | .audit _ => "audit"

end Statement

/-! ### Occasions -/

/-- How many occasions a fault lets pass, and how many it then hits. -/
structure Trigger where
  skip : Nat := 0
  times : Nat := 1
  deriving Repr, DecidableEq, Inhabited

namespace Trigger

/-- One occasion: whether it is hit, and the trigger that remains. -/
def pull (trigger : Trigger) : Bool × Option Trigger :=
  if trigger.skip ≠ 0 then (false, some { trigger with skip := trigger.skip - 1 })
  else (true, if trigger.times ≤ 1 then none else some { trigger with times := trigger.times - 1 })

end Trigger

/-- One occasion for the first of some faults that it concerns: the fault, if it hits,
and the faults that remain. -/
def pullFirst {φ : Type} (concerns : φ → Bool) (trigger : φ → Trigger)
    (withTrigger : φ → Trigger → φ) : List φ → Option φ × List φ
  | [] => (none, [])
  | fault :: rest =>
    if concerns fault then
      let (isHit, remaining) := (trigger fault).pull
      (if isHit then some fault else none,
        (remaining.map (withTrigger fault)).toList ++ rest)
    else
      let (hit, rest) := pullFirst concerns trigger withTrigger rest
      (hit, fault :: rest)

/-! ### Clients -/

/-- What is different in an object that a client writes from the one that it read. -/
inductive Edit where
  /-- Some of the finalizers and owners. -/
  | metadata (finalizers : Option (List String)) (owners : Option (List OwnerReference))
  /-- Some fields of the status. -/
  | status (fields : Fields)

/-- What a client does with a store. -/
inductive ClientStep where
  /-- Makes a call. -/
  | direct (call : StoreCall)
  /-- Reads an object, or starts from a blank one if there is none, and writes it with
  something different, possibly as of another version. -/
  | edit (kind : Kind) (key : Key) (version : Option Nat) (edit : Edit)

namespace Kind

/-- A body with nothing in it, of the kinds that have a status. -/
def blankBody? : (kind : Kind) → Option kind.Body
  | .request => some (RequestBody.mk {} {})
  | .grant => some ({} : GrantStatus)
  | .response | .policy | .role | .binding => none

/-- The status of a body with some of its fields overwritten. -/
def editedStatus? : (kind : Kind) → kind.Body → Fields → Option kind.Status
  | .request => fun body fields => decode ((encode (RequestBody.status body)).overlay fields)
  | .grant => fun body fields =>
    (decode ((encode (α := GrantStatus) body).overlay fields) : Option GrantStatus)
  | .response | .policy | .role | .binding => fun _ _ => none

end Kind

namespace Edit

/-- The call that writes an edited object. There is none when a status with the edited
fields is no status. -/
def toCall? {kind : Kind} (edit : Edit) (read : Option (Object kind)) (key : Key)
    (version : Option Nat) : Option StoreCall := do
  let base ← read <|> kind.blankBody?.map fun body => ⟨.ofKey key, body⟩
  let base := { base with metadata := { base.metadata with
    version := version.getD base.metadata.version } }
  match edit with
  | .metadata finalizers owners =>
    return .updateMetadata kind { base with metadata := { base.metadata with
      finalizers := finalizers.getD base.metadata.finalizers
      owners := owners.getD base.metadata.owners } }
  | .status fields => return .patchStatus kind base (← kind.editedStatus? base.body fields)

end Edit

/-! ### Kinds of faults -/

/-- A failure of a call to a store, or of telling a listener. -/
structure CallFault where
  /-- The name of the call; telling is called `record`. -/
  label : String
  /-- The key that the call has to be about. -/
  key : Option Key := none
  /-- The failure, if there is to be one. -/
  failure : Option Failure := none
  /-- Does the fault come after the call? -/
  isAfter : Bool := false
  trigger : Trigger := {}
  /-- What other clients do meanwhile. -/
  meanwhile : List ClientStep := []

namespace CallFault

/-- Does the fault concern a call with a name, about a key? -/
def concerns (fault : CallFault) (label : String) (key : Option Key) : Bool :=
  fault.label == label && (fault.key.isNone || fault.key == key)

/-- One occasion for the first fault that it concerns. -/
def pull (faults : List CallFault) (label : String) (key : Option Key) :
    Option CallFault × List CallFault :=
  pullFirst (fun fault => fault.concerns label key) (·.trigger)
    (fun fault trigger => { fault with trigger }) faults

end CallFault

/-- A failure of a statement. -/
structure StatementFault where
  /-- The name of the statement. -/
  label : String
  reason : String
  trigger : Trigger := {}
  deriving Repr

namespace StatementFault

/-- One occasion for the first fault that it concerns. -/
def pull (faults : List StatementFault) (label : String) :
    Option StatementFault × List StatementFault :=
  pullFirst (fun fault => fault.label == label) (·.trigger)
    (fun fault trigger => { fault with trigger }) faults

end StatementFault

end AccessBroker
