import AccessBroker.Object.Rbac
import AccessBroker.Time.Timestamp

/-!
# Grants

A grant records what an approved request is entitled to, how far provisioning it
has come and when it ends. It is stored empty first and filled in by a second
write, so a grant without the identifier of a request is one whose creation
stopped half-way.
-/

namespace AccessBroker

open AccessBroker.Time

/-- The name of the binding to the role of a request. -/
def bindingName (requestId : String) : String :=
  "jit-access-" ++ requestId

/-- The name of the role made for the rules of a request, and of the binding to
it. -/
def adhocName (requestId : String) : String :=
  "jit-access-adhoc-" ++ requestId

/-- How far a grant reaches, as recorded in it. -/
inductive GrantScope where
  /-- One namespace. -/
  | space
  /-- The whole cluster. -/
  | cluster
  deriving Repr, DecidableEq, Inhabited

namespace GrantScope

/-- The name of a reach. -/
def label : GrantScope → String
  | .space => "Namespace"
  | .cluster => "Cluster"

/-- The reach with a name, if there is one. -/
def ofLabel? (label : String) : Option GrantScope :=
  [GrantScope.space, .cluster].find? fun scope => scope.label == label

end GrantScope

/-- The content of a stored grant. -/
structure GrantStatus where
  /-- The name of the request. -/
  request : String := ""
  /-- The identifier of the request; empty until the grant has been filled in. -/
  requestId : String := ""
  /-- The identity that receives access. -/
  subject : String := ""
  /-- The identities that approved. -/
  approvedBy : List String := []
  role : Option RoleRef := none
  permissions : List PolicyRule := []
  /-- For how long, as an access span. -/
  duration : String := ""
  /-- When access ends. -/
  expiresAt : Option Instant := none
  /-- Is the role bound? -/
  roleBound : Bool := false
  /-- Does the role for the rules exist? -/
  adhocRoleCreated : Bool := false
  /-- Is the role for the rules bound? -/
  adhocRoleBound : Bool := false
  reach : GrantScope := .space
  /-- The namespace of a grant that reaches one. -/
  space : String := ""
  deriving Repr, DecidableEq, Inhabited

namespace GrantStatus

/-- Has the grant been filled in? -/
def isPopulated (status : GrantStatus) : Bool :=
  !status.requestId.isEmpty

/-- The scope that the grant provisions into. -/
def scope (status : GrantStatus) : Scope :=
  match status.reach with
  | .cluster => .cluster
  | .space => .namespaced status.space

/-- The key of the request. -/
def requestKey (status : GrantStatus) : Key :=
  status.scope.key status.request

/-- The status with a scope recorded in it. -/
def withScope (status : GrantStatus) : Scope → GrantStatus
  | .cluster => { status with reach := .cluster, space := "" }
  | .namespaced name => { status with reach := .space, space := name }

end GrantStatus

/-! ### Stored form -/

instance : Document GrantScope where
  encode scope := .str scope.label
  decode json := json.label.bind GrantScope.ofLabel?

instance : Document GrantStatus where
  encode status := .obj [
    ("request", .str status.request),
    ("requestId", .str status.requestId),
    ("subject", .str status.subject),
    ("approvedBy", encode status.approvedBy),
    ("role", encode status.role),
    ("permissions", encode status.permissions),
    ("duration", .str status.duration),
    ("accessExpiresAt", encode status.expiresAt),
    ("roleBindingCreated", .bool status.roleBound),
    ("adhocRoleCreated", .bool status.adhocRoleCreated),
    ("adhocRoleBindingCreated", .bool status.adhocRoleBound),
    ("scope", encode status.reach),
    ("namespace", .str status.space)]
  decode json := do
    let fields ← json.record ["request", "requestId", "subject", "approvedBy", "role",
      "permissions", "duration", "accessExpiresAt", "roleBindingCreated", "adhocRoleCreated",
      "adhocRoleBindingCreated", "scope", "namespace"] 0
    return {
      request := ← fields.withDefault "request" ""
      requestId := ← fields.withDefault "requestId" ""
      subject := ← fields.withDefault "subject" ""
      approvedBy := ← fields.withDefault "approvedBy" []
      role := ← fields.optional "role"
      permissions := ← fields.withDefault "permissions" []
      duration := ← fields.withDefault "duration" ""
      expiresAt := ← fields.optional "accessExpiresAt"
      roleBound := ← fields.withDefault "roleBindingCreated" false
      adhocRoleCreated := ← fields.withDefault "adhocRoleCreated" false
      adhocRoleBound := ← fields.withDefault "adhocRoleBindingCreated" false
      reach := ← fields.withDefault "scope" .space
      space := ← fields.withDefault "namespace" "" }

end AccessBroker
