import AccessBroker.Policy.Admission

/-!
# The policy snapshot

The broker decides requests against a snapshot of all rule sets, in the order in
which they are asked: higher priorities first, then by the name of the policy
object, its namespace (the cluster first) and the place in the object. A new list
of policies replaces the snapshot as a whole.

A request is decided by the rule sets of its own scope alone, and of these the
first that admits it.
-/

namespace AccessBroker

/-- A rule set together with where it was declared. -/
structure PolicyEntry where
  /-- The name of the policy object. -/
  policyName : String
  /-- The scope of the policy object. -/
  scope : Scope
  /-- The place in the policy object. -/
  index : Nat
  policy : SubjectPolicy
  deriving Repr, DecidableEq

namespace PolicyEntry

/-- The rule sets of a policy object. -/
def ofPolicy (policy : Policy) : List PolicyEntry :=
  policy.body.policies.mapIdx fun index rules =>
    ⟨policy.metadata.name, policy.scope, index, rules⟩

/-- The order in which rule sets are asked. -/
def order : PolicyEntry → PolicyEntry → Ordering :=
  compareLex (fun a b => compare b.policy.priority a.policy.priority) <|
    compareLex (compareOn PolicyEntry.policyName) <|
      compareLex (compareOn fun entry => entry.scope.namespace?) (compareOn PolicyEntry.index)

/-- The first of some rule sets that admits a request. -/
def resolve (spec : RequestSpec) (entries : List PolicyEntry) : Option PolicyEntry :=
  entries.find? fun entry => entry.policy.admits spec

end PolicyEntry

/-- All rule sets, in the order in which they are asked. -/
structure PolicySnapshot where
  /-- The number of times the snapshot was replaced. -/
  version : Nat := 0
  entries : List PolicyEntry := []
  deriving Repr

namespace PolicySnapshot

instance : Inhabited PolicySnapshot := ⟨{}⟩

/-- The highest version; it is kept once it is reached. -/
def lastVersion : Nat := UInt64.size - 1

/-- The snapshot after all policies have been read again. -/
def replace (snapshot : PolicySnapshot) (policies : List Policy) : PolicySnapshot where
  version := min (snapshot.version + 1) lastVersion
  entries := (policies.flatMap PolicyEntry.ofPolicy).mergeSort fun a b =>
    (PolicyEntry.order a b).isLE

/-- The rule sets that decide requests of a scope. -/
def applicable (snapshot : PolicySnapshot) (scope : Scope) : List PolicyEntry :=
  snapshot.entries.filter fun entry => entry.scope == scope

/-- The rule set that decides a request, if one admits it. -/
def resolve (snapshot : PolicySnapshot) (request : Request) : Option PolicyEntry :=
  PolicyEntry.resolve request.body.spec (snapshot.applicable request.scope)

end PolicySnapshot

end AccessBroker
