import AccessBroker.Object.Key

/-!
# Access events

What happens to requests and grants is told to whoever listens, one event per
step of their life. Events are told once the step has been stored; a listener
that fails is not asked again and holds nobody up, so every listener hears of
every event (`AccessBroker.AccessEvent.tellAll`).
-/

namespace AccessBroker

/-- The steps in the life of requests and grants. -/
inductive AccessAction where
  /-- A request was given its identifier. -/
  | requestCreated
  /-- A request has enough approvals. -/
  | requestApproved
  /-- A request was denied. -/
  | requestDenied
  /-- A request was not decided in time. -/
  | requestExpired
  /-- The role that was asked for is bound. -/
  | roleGranted
  /-- The rules that were asked for are bound. -/
  | permissionsGranted
  /-- A grant has run out and was revoked. -/
  | grantExpired
  deriving Repr, DecidableEq, Inhabited

namespace AccessAction

/-- Every action. -/
def all : List AccessAction :=
  [.requestCreated, .requestApproved, .requestDenied, .requestExpired, .roleGranted,
    .permissionsGranted, .grantExpired]

/-- The name under which an action is audited. -/
def label : AccessAction → String
  | .requestCreated => "access.request.created"
  | .requestApproved => "access.request.approved"
  | .requestDenied => "access.request.denied"
  | .requestExpired => "access.request.expired"
  | .roleGranted => "access.grant.role_granted"
  | .permissionsGranted => "access.grant.permissions_granted"
  | .grantExpired => "access.grant.expired"

/-- The name of an action in documents. -/
def documentLabel : AccessAction → String
  | .requestCreated => "request_created"
  | .requestApproved => "request_approved"
  | .requestDenied => "request_denied"
  | .requestExpired => "request_expired"
  | .roleGranted => "role_granted"
  | .permissionsGranted => "permissions_granted"
  | .grantExpired => "grant_expired"

/-- The action with a name in documents, if there is one. -/
def ofDocumentLabel? (label : String) : Option AccessAction :=
  all.find? fun action => action.documentLabel == label

end AccessAction

instance : Document AccessAction where
  encode action := .str action.documentLabel
  decode json := json.label.bind AccessAction.ofDocumentLabel?

/-- What is told of one step. -/
structure AccessEvent where
  action : AccessAction
  /-- The key of the request or grant. -/
  key : Key
  /-- The identity that the access is for. -/
  subject : String
  requestId : String
  /-- Particulars in free text. -/
  detail : Option String
  deriving Repr, DecidableEq, Inhabited

/-- Tells every listener of an event, whichever of them fail; the failures are
joined. -/
def AccessEvent.tellAll {m : Type → Type} [Monad m]
    (listeners : List (AccessEvent → m (Except Failure Unit))) (event : AccessEvent) :
    m (Except Failure Unit) := do
  let outcomes ← listeners.mapM fun listener => listener event
  return Failure.join (outcomes.filterMap fun
    | .ok () => none
    | .error failure => some failure)

end AccessBroker
