import AccessBroker.Approval
import AccessBroker.Engine.Pass

/-!
# The life of a request

A request is given an identifier and a deadline by its first pass. Until the
deadline, each pass asks the policies who decides on it and counts the votes; one
denial denies it, and enough approvals approve it. A request without a decision
expires at its deadline, and so does a denied one. An approved request gets its
grant, and an expired one is removed together with its responses.

The new status is worked out first, then written at most once, based on the object
that the pass started from, and only then is anybody told.
-/

namespace AccessBroker

open AccessBroker.Time

/-- How long approvers have to decide. -/
def decisionWindow : Nat := 60 * nanosPerMinute

/-- How long after the end of access an approved request is looked at again. -/
def approvedRecheckBuffer : Nat := nanosPerSecond

namespace RequestStatus

/-- The status with an identifier. -/
def registered (status : RequestStatus) (requestId : String) : RequestStatus :=
  { status with requestId, state := .pending }

/-- The status with a deadline, which is set once. -/
def withDeadline (status : RequestStatus) (now : Instant) : RequestStatus :=
  { status with expiresAt := some (status.expiresAt.getD (now.after decisionWindow)) }

/-- Has the deadline passed? -/
def isOverdue (status : RequestStatus) (now : Instant) : Bool :=
  (status.expiresAt.map fun deadline => decide (deadline < now)).getD false

/-- The status at a given time: without an approval, the deadline ends a
request. -/
def atTime (status : RequestStatus) (now : Instant) : RequestStatus :=
  if status.state ≠ .approved ∧ status.isOverdue now then { status with state := .expired }
  else status

/-- The status of a pending request with its votes counted. -/
def counted (status : RequestStatus) (tally : Tally) : RequestStatus :=
  { status with
    approvalsReceived := tally.approvals
    state :=
      if tally.isDenied then .denied
      else if status.approvalsRequired ≤ tally.approvals then .approved
      else status.state }

end RequestStatus

namespace Request

/-- An event about a request. -/
def event (request : Request) (status : RequestStatus) (action : AccessAction)
    (detail : String) : AccessEvent where
  action := action
  key := request.key
  subject := request.body.spec.subject
  requestId := status.requestId
  detail := some detail

/-- The action that a request tells of when it comes into a state. -/
def transition? : RequestState → Option AccessAction
  | .pending => none
  | .approved => some .requestApproved
  | .denied => some .requestDenied
  | .expired => some .requestExpired

/-- What is told when the status of a request has become `status`. -/
def transitions (request : Request) (status : RequestStatus) : List AccessEvent :=
  let spec := request.body.spec
  let created :=
    if request.body.status.requestId.isEmpty && !status.requestId.isEmpty then
      [request.event status .requestCreated s!"duration '{spec.duration}': {spec.justification}"]
    else []
  let moved :=
    if request.body.status.state = status.state then []
    else (transition? status.state).toList.map fun action =>
      request.event status action
        s!"{status.approvalsReceived.toNat} of {status.approvalsRequired.toNat} approvals"
  created ++ moved

/-! ### Parts of a pass -/

/-- The responses to the request. -/
def responses (request : Request) : Pass (List Response) :=
  Pass.ask (.listResponses request.scope request.metadata.name)

/-- The votes on the request. -/
def tally (request : Request) : Pass Tally := do
  return Tally.ofResponses request.body.spec.subject (← request.responses)

/-- Removes the responses to the request. -/
def removeResponses (request : Request) : Pass Unit := do
  let responses ← request.responses
  Pass.askEach (responses.map fun response => .delete .response response.key)

/-- Makes sure that the request stays stored until it has been cleaned up. -/
def ensureFinalizer (request : Request) : Pass Request :=
  if request.metadata.hasFinalizer cleanupFinalizer then pure request
  else Pass.ask (.updateMetadata .request
    { request with metadata := request.metadata.addFinalizer cleanupFinalizer })

/-- Writes the status if it has changed, and tells of it. -/
def persist (request : Request) (status : RequestStatus) : Pass RequestStatus := do
  let stored ←
    if request.body.status = status then pure status
    else do
      let updated ← Pass.ask (.patchStatus .request request status)
      pure updated.body.status
  Pass.tellEach (request.transitions stored)
  return stored

/-- Takes a request that is being deleted the last steps. -/
def finalize (request : Request) : Pass Outcome := do
  if request.metadata.hasFinalizer cleanupFinalizer then
    request.removeResponses
    let _ ← (Pass.ask (.updateMetadata .request
      { request with
        metadata := request.metadata.removeFinalizer cleanupFinalizer })).toleratingMissing
  return .done

/-- Ends a request that was not approved in time. -/
def expire (request : Request) (status : RequestStatus) : Pass Outcome := do
  let _ ← request.persist status
  request.removeResponses
  let _ ← (Pass.ask (.delete .request request.key)).toleratingMissing
  return .done

/-! ### The grant of an approved request -/

/-- What the grant of a request says. -/
def grantStatus (request : Request) (requestId : String) (approvers : List String) :
    GrantStatus :=
  let spec := request.body.spec
  GrantStatus.withScope
    { request := request.metadata.name
      requestId
      subject := spec.subject
      approvedBy := approvers
      role := spec.role
      permissions := spec.permissions
      duration := spec.duration }
    request.scope

/-- The grant under the key of the request, created if there is none. -/
def openGrant (request : Request) : Pass Grant := do
  let key := request.key
  match ← (Pass.ask (.create .grant ⟨.ofKey key, {}⟩)).attempt with
  | .ok grant => return grant
  | .error failure =>
    if !failure.isAlreadyExists then throw failure
    match ← Pass.ask (.find .grant key) with
    | some grant => return grant
    | none =>
      throw (.conflict s!"access grant '{key.text}' vanished after create reported it exists")

/-- Creates the grant of the request and fills it in. A grant that is filled in
already is left alone; one that was created but not filled in is filled in now. -/
def createGrant (request : Request) (requestId : String) (approvers : List String) :
    Pass Unit := do
  let grant ← request.openGrant
  if !grant.body.isPopulated then
    let _ ← Pass.ask
      (.patchStatus .grant grant (request.grantStatus requestId approvers))

/-- When an approved request is to be looked at again: when its access has ended. -/
def recheck (request : Request) (now : Instant) : Except Failure Outcome := do
  let duration := request.body.spec.duration
  let span ← Span.parse duration
  match now.after? (span + approvedRecheckBuffer) with
  | some time => return .requeueAt time
  | none =>
    throw (.validation
      s!"access span '{duration}' of request '{request.key.text}' is out of range")

/-! ### Decisions -/

/-- Does what the state of a request calls for, and gives the status that it has
then. The votes are counted anew unless they have just been. -/
def follow (request : Request) (now : Instant) (status : RequestStatus) (votes : Option Tally) :
    Steps (RequestStatus × Except Failure Outcome) :=
  match status.state with
  | .pending | .denied =>
    return (status, .ok ((status.expiresAt.map Outcome.requeueAt).getD .done))
  | .expired => return (status, .ok .done)
  | .approved =>
    if status.grantCreated then return (status, request.recheck now)
    else do
      let votes : Pass Tally := (votes.map pure).getD request.tally
      let granting : Pass Unit := do
        request.createGrant status.requestId (← votes).approvers.toList
      match ← granting.run with
      | .error failure => return (status, .error failure)
      -- There is a grant now, even if the end of its access cannot be told.
      | .ok () => return ({ status with grantCreated := true }, request.recheck now)

/-- No policy says who decides on the request. -/
def unmatched (request : Request) : Failure :=
  .policyNotMatched
    s!"no access policy admits request '{request.key.text}' from '{request.body.spec.subject}'"

/-- Decides on a request that has not expired. The status that has been reached is
given also when the rest fails. -/
def decide (request : Request) (now : Instant) (status : RequestStatus) :
    Steps (RequestStatus × Except Failure Outcome) := do
  let snapshot ← Program.call (I := passInterface) .policies
  match PolicySnapshot.resolve snapshot request with
  | none => return (status, .error request.unmatched)
  | some entry =>
    let status := { status with approvalsRequired := entry.policy.requiredApprovals }
    if status.state = .pending then
      match ← request.tally.run with
      | .error failure => return (status, .error failure)
      | .ok votes => request.follow now (status.counted votes) (some votes)
    else request.follow now status none

/-- The status that a pass starts from. -/
def begin (request : Request) (now : Instant) : Pass RequestStatus := do
  let status := request.body.status
  let status ←
    if status.requestId.isEmpty then do
      let requestId ← Pass.freshId
      pure (status.registered requestId)
    else pure status
  return (status.withDeadline now).atTime now

/-- One pass on a request that is not being deleted. -/
def advance (request : Request) : Pass Outcome := do
  let now ← Pass.clock
  let status ← request.begin now
  let request ← request.ensureFinalizer
  if status.state = .expired then
    request.expire status
  else
    -- What was decided is written before the failure that may have stopped the pass is
    -- reported.
    let (status, outcome) ← ExceptT.lift (request.decide now status)
    let _ ← request.persist status
    ExceptT.mk (pure outcome)

/-- One pass on the request with a key. -/
def reconcile (key : Key) : Pass Outcome := do
  match ← Pass.ask (.find .request key) with
  | none => return .done
  | some request =>
    if request.metadata.isDeleting then finalize request else advance request

end Request

end AccessBroker
