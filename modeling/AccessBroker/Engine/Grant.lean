import AccessBroker.Engine.Pass

/-!
# The life of a grant

A grant that has been filled in is provisioned: its role is bound, and a role for
its rules is created and bound. Every such artifact is recorded in the status as
soon as it exists, so that a pass that fails half-way leaves a record of what it
did, and the next one goes on from there. The time at which access ends is fixed by
the first pass that gets to write a status.

When that time has passed, or the grant is being deleted, everything that it
provisioned is removed together with its request, and only then does the grant
itself go.
-/

namespace AccessBroker

open AccessBroker.Time

/-- The span of a grant whose own cannot be read. -/
def fallbackSpan : Nat := 10 * nanosPerMinute

/-- How long after the end of access the pass that revokes it is due. -/
def expiryBuffer : Nat := nanosPerSecond

/-! ### Artifacts -/

/-- What a grant provisions. -/
inductive Artifact where
  /-- The binding to the role that was asked for. -/
  | roleBinding
  /-- The role made for the rules that were asked for. -/
  | adhocRole
  /-- The binding to that role. -/
  | adhocBinding
  deriving Repr, DecidableEq, Inhabited

namespace Artifact

/-- The artifacts in the order in which they are created. -/
def creationOrder : List Artifact :=
  [.roleBinding, .adhocRole, .adhocBinding]

/-- The artifacts in the order in which they are removed. -/
def removalOrder : List Artifact :=
  [.roleBinding, .adhocBinding, .adhocRole]

/-- The kind of an artifact. -/
def kind : Artifact → Kind
  | .roleBinding | .adhocBinding => .binding
  | .adhocRole => .role

/-- The key of an artifact. -/
def key (status : GrantStatus) : Artifact → Key
  | .roleBinding => status.scope.key (bindingName status.requestId)
  | .adhocRole | .adhocBinding => status.scope.key (adhocName status.requestId)

/-- Does a grant call for an artifact? -/
def isWanted (status : GrantStatus) : Artifact → Bool
  | .roleBinding => status.role.isSome
  | .adhocRole | .adhocBinding => !status.permissions.isEmpty

/-- Is an artifact recorded as existing? -/
def isRecorded (status : GrantStatus) : Artifact → Bool
  | .roleBinding => status.roleBound
  | .adhocRole => status.adhocRoleCreated
  | .adhocBinding => status.adhocRoleBound

/-- The status with an artifact recorded. -/
def recorded (status : GrantStatus) : Artifact → GrantStatus
  | .roleBinding => { status with roleBound := true }
  | .adhocRole => { status with adhocRoleCreated := true }
  | .adhocBinding => { status with adhocRoleBound := true }

end Artifact

namespace Grant

/-- The reference by which artifacts name the grant as their owner. -/
def ownerReference (grant : Grant) : OwnerReference :=
  ⟨.grant, grant.metadata.name, grant.metadata.uid⟩

/-- The metadata of an artifact of the grant. -/
def artifactMetadata (grant : Grant) (artifact : Artifact) : Metadata :=
  { Metadata.ofKey (artifact.key grant.body) with owners := [grant.ownerReference] }

/-- A binding for the subject of the grant. -/
def binding (grant : Grant) (artifact : Artifact) (role : RoleRef) : Binding :=
  ⟨grant.artifactMetadata artifact, ⟨role, [Subject.ofIdentity grant.body.subject]⟩⟩

/-- The role is out of reach for a grant of the whole cluster. -/
def unbindable (grant : Grant) (role : RoleRef) : Failure :=
  .validation
    s!"cluster-scoped grant '{grant.key.text}' cannot bind {role.kind.label} '{role.name}'"

/-- The call that creates an artifact, if there is anything to create. A grant of
the whole cluster can bind only roles of the whole cluster. -/
def creation (grant : Grant) : Artifact → Except Failure (Option StoreCall)
  | .roleBinding =>
    match grant.body.role with
    | none => .ok none
    | some role =>
      if grant.body.scope.isCluster && role.kind != .clusterRole then
        .error (grant.unbindable role)
      else .ok (some (.create .binding (grant.binding .roleBinding role.normalized)))
  | .adhocRole =>
    .ok (some (.create .role
      ⟨grant.artifactMetadata .adhocRole, ⟨grant.body.permissions⟩⟩))
  | .adhocBinding =>
    .ok (some (.create .binding (grant.binding .adhocBinding
      (.qualified (.ofScope grant.body.scope) (adhocName grant.body.requestId)))))

/-- The calls that remove what the grant provisioned, and its request. -/
def removals (grant : Grant) : List StoreCall :=
  let status := grant.body
  let artifacts := (Artifact.removalOrder.filter fun artifact => artifact.isRecorded status).map
    fun artifact => StoreCall.delete artifact.kind (artifact.key status)
  let request := if status.request.isEmpty then [] else [.delete .request status.requestKey]
  artifacts ++ request

/-- An event about a grant with a given status. -/
def event (grant : Grant) (status : GrantStatus) (action : AccessAction) (detail : String) :
    AccessEvent where
  action := action
  key := grant.key
  subject := status.subject
  requestId := status.requestId
  detail := some detail

/-- What is told when the status of a grant has become `status`. -/
def provisionings (grant : Grant) (status : GrantStatus) : List AccessEvent :=
  let role := (status.role.map fun role => s!"{role.kind.label} '{role.name}'").getD ""
  let bound :=
    if !grant.body.roleBound && status.roleBound then
      [grant.event status .roleGranted s!"{role} for '{status.duration}'"]
    else []
  let permitted :=
    if !grant.body.adhocRoleBound && status.adhocRoleBound then
      [grant.event status .permissionsGranted
        s!"{status.permissions.length} rules for '{status.duration}'"]
    else []
  bound ++ permitted

/-! ### Parts of a pass -/

/-- Makes sure that the grant stays stored until it has been cleaned up. -/
def ensureFinalizer (grant : Grant) : Pass Grant :=
  if grant.metadata.hasFinalizer cleanupFinalizer then pure grant
  else Pass.ask (.updateMetadata .grant
    { grant with metadata := grant.metadata.addFinalizer cleanupFinalizer })

/-- Writes the status if it has changed, and tells of it. -/
def persist (grant : Grant) (status : GrantStatus) : Pass GrantStatus := do
  let stored ←
    if grant.body = status then pure status
    else do
      let updated ← Pass.ask (.patchStatus .grant grant status)
      pure updated.body
  Pass.tellEach (grant.provisionings stored)
  return stored

/-- Removes everything that the grant provisioned, and its request. No removal is
left out because another one fails. -/
def cleanup (grant : Grant) : Pass Unit :=
  Pass.askEach grant.removals

/-- Takes the mark off that keeps the grant stored; nothing is given if the grant is
gone already. -/
def release (grant : Grant) : Pass (Option Grant) :=
  (Pass.ask (.updateMetadata .grant
    { grant with
      metadata := grant.metadata.removeFinalizer cleanupFinalizer })).toleratingMissing

/-- Takes a grant that is being deleted the last steps. -/
def finalize (grant : Grant) : Pass Outcome := do
  if grant.metadata.hasFinalizer cleanupFinalizer then
    grant.cleanup
    let _ ← grant.release
  return .done

/-- Revokes a grant that has run out. -/
def expire (grant : Grant) : Pass Outcome := do
  grant.cleanup
  let released ←
    if grant.metadata.hasFinalizer cleanupFinalizer then grant.release else pure (some grant)
  match released with
  -- Somebody else has taken the last steps meanwhile.
  | none => return .done
  | some released =>
    let _ ← (Pass.ask (.delete .grant grant.key)).toleratingMissing
    Pass.tell (grant.event released.body .grantExpired
      s!"granted for '{released.body.duration}'")
    return .done

/-! ### Provisioning -/

/-- Creates the given artifacts as far as they are wanted and not recorded, and
records them, until one fails. An artifact that is there already counts as
created. -/
def provisionEach (grant : Grant) :
    List Artifact → GrantStatus → Steps (GrantStatus × Except Failure Unit)
  | [], status => return (status, .ok ())
  | artifact :: rest, status => do
    if !artifact.isWanted status || artifact.isRecorded status then
      grant.provisionEach rest status
    else match grant.creation artifact with
      | .error failure => return (status, .error failure)
      | .ok none => grant.provisionEach rest status
      | .ok (some call) =>
        match Failure.toleratingTaken (← (Pass.ask call).run) with
        | .error failure => return (status, .error failure)
        | .ok _ => grant.provisionEach rest (artifact.recorded status)

/-- Creates what is still missing, and gives the status that has been reached, also
when something failed. -/
def provision (grant : Grant) : Steps (GrantStatus × Except Failure Unit) :=
  grant.provisionEach Artifact.creationOrder grant.body

/-- The length of access that a status stands for. -/
def accessSpan (status : GrantStatus) : Nat :=
  match Span.read status.duration with
  | .ok span => span
  | .error _ => fallbackSpan

/-- The end of access, counted from `now` unless it is fixed already. -/
def accessEnd (key : Key) (now : Instant) (status : GrantStatus) : Except Failure Instant :=
  match status.expiresAt with
  | some time => .ok time
  | none =>
    match now.after? (accessSpan status) with
    | some time => .ok time
    | none => .error (.validation
        s!"access span '{status.duration}' of grant '{key.text}' is out of range")

/-- Has access ended? -/
def isOver (grant : Grant) (now : Instant) : Bool :=
  (grant.body.expiresAt.map fun time => decide (time < now)).getD false

/-- One pass on a grant that is not being deleted. -/
def advance (grant : Grant) (key : Key) : Pass Outcome := do
  let grant ← grant.ensureFinalizer
  if !grant.body.isPopulated then
    return .done
  let now ← Pass.clock
  if grant.isOver now then
    grant.expire
  else
    -- The status is written whether or not everything could be created: it says what
    -- there is to be removed.
    let (status, provisioned) ← ExceptT.lift grant.provision
    let time ← ExceptT.mk (pure (accessEnd key now status))
    let _ ← grant.persist { status with expiresAt := some time }
    ExceptT.mk (pure provisioned)
    return .requeueAt (time.after expiryBuffer)

/-- One pass on the grant with a key. -/
def reconcile (key : Key) : Pass Outcome := do
  match ← Pass.ask (.find .grant key) with
  | none => return .done
  | some grant => if grant.metadata.isDeleting then finalize grant else advance grant key

end Grant

end AccessBroker
