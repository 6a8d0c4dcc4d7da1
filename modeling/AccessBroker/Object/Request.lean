import AccessBroker.Object.Rbac
import AccessBroker.Text.NameSet
import AccessBroker.Time.Timestamp

/-!
# Requests and responses

A request says what its subject wants and for how long; its status is the broker's
own record of how far the request has come. A response is one approver's vote on
one request of the same scope.
-/

namespace AccessBroker

open AccessBroker.Text AccessBroker.Time

/-- How far a request has come. -/
inductive RequestState where
  /-- No decision yet. -/
  | pending
  /-- Enough approvals have arrived. -/
  | approved
  /-- An approver has said no. -/
  | denied
  /-- No decision was reached in time. -/
  | expired
  deriving Repr, DecidableEq, Inhabited

namespace RequestState

/-- The name of a state. -/
def label : RequestState → String
  | .pending => "Pending"
  | .approved => "Approved"
  | .denied => "Denied"
  | .expired => "Expired"

/-- The state with a name, if there is one. -/
def ofLabel? (label : String) : Option RequestState :=
  [RequestState.pending, .approved, .denied, .expired].find? fun state => state.label == label

end RequestState

/-- What a subject asks for. -/
structure RequestSpec where
  /-- The identity that asks. -/
  subject : String := ""
  /-- The groups that the identity was in when it asked. -/
  groups : NameSet := .empty
  /-- An existing role, if one is wanted. -/
  role : Option RoleRef := none
  /-- Rules wanted on top of any role. -/
  permissions : List PolicyRule := []
  /-- For how long, as an access span. -/
  duration : String := ""
  /-- Why, in free text. -/
  justification : String := ""
  deriving Repr, DecidableEq, Inhabited

/-- The broker's record of a request. -/
structure RequestStatus where
  /-- Assigned on the first pass, and kept. -/
  requestId : String := ""
  state : RequestState := .pending
  /-- The approvals that the matching policy demands. -/
  approvalsRequired : UInt32 := 0
  /-- The number of different identities that approved. -/
  approvalsReceived : UInt32 := 0
  /-- Until when a decision has to be reached. -/
  expiresAt : Option Instant := none
  /-- Has the grant for the request been created? -/
  grantCreated : Bool := false
  deriving Repr, DecidableEq, Inhabited

/-- The content of a stored request. -/
structure RequestBody where
  spec : RequestSpec
  status : RequestStatus
  deriving Repr, DecidableEq, Inhabited

/-- A vote. -/
inductive Decision where
  | approved
  /-- One such vote decides the request. -/
  | denied
  deriving Repr, DecidableEq, Inhabited

namespace Decision

/-- The name of a vote. -/
def label : Decision → String
  | .approved => "Approved"
  | .denied => "Denied"

/-- The vote with a name, if there is one. -/
def ofLabel? (label : String) : Option Decision :=
  [Decision.approved, .denied].find? fun decision => decision.label == label

end Decision

/-- The content of a stored response. -/
structure ResponseSpec where
  /-- The name of the request that is answered, in the same scope. -/
  requestRef : String
  /-- The identity that votes. -/
  approver : String
  response : Decision
  deriving Repr, DecidableEq, Inhabited

/-! ### Stored form -/

instance : Document RequestState where
  encode state := .str state.label
  decode json := json.label.bind RequestState.ofLabel?

instance : Document Decision where
  encode decision := .str decision.label
  decode json := json.label.bind Decision.ofLabel?

instance : Document NameSet where
  encode names := encode names.toList
  decode json := (decode json : Option (List String)).map NameSet.ofList

instance : Document RequestSpec where
  encode spec := .obj [
    ("subject", .str spec.subject),
    ("groups", encode spec.groups),
    ("role", encode spec.role),
    ("permissions", encode spec.permissions),
    ("duration", .str spec.duration),
    ("justification", .str spec.justification)]
  decode json := do
    let fields ← json.record ["subject", "groups", "role", "permissions", "duration",
      "justification"] 0
    return {
      subject := ← fields.withDefault "subject" ""
      groups := ← fields.withDefault "groups" .empty
      role := ← fields.optional "role"
      permissions := ← fields.withDefault "permissions" []
      duration := ← fields.withDefault "duration" ""
      justification := ← fields.withDefault "justification" "" }

instance : Document RequestStatus where
  encode status := .obj [
    ("requestId", .str status.requestId),
    ("state", encode status.state),
    ("approvalsRequired", encode status.approvalsRequired),
    ("approvalsReceived", encode status.approvalsReceived),
    ("requestExpiresAt", encode status.expiresAt),
    ("grantCreated", .bool status.grantCreated)]
  decode json := do
    let fields ← json.record ["requestId", "state", "approvalsRequired", "approvalsReceived",
      "requestExpiresAt", "grantCreated"] 0
    return {
      requestId := ← fields.withDefault "requestId" ""
      state := ← fields.withDefault "state" .pending
      approvalsRequired := ← fields.withDefault "approvalsRequired" 0
      approvalsReceived := ← fields.withDefault "approvalsReceived" 0
      expiresAt := ← fields.optional "requestExpiresAt"
      grantCreated := ← fields.withDefault "grantCreated" false }

instance : Document ResponseSpec where
  encode spec := .obj [
    ("requestRef", .str spec.requestRef),
    ("approver", .str spec.approver),
    ("response", encode spec.response)]
  decode json := do
    let fields ← json.record ["requestRef", "approver", "response"] 3
    return {
      requestRef := ← fields.required "requestRef"
      approver := ← fields.required "approver"
      response := ← fields.required "response" }

end AccessBroker
