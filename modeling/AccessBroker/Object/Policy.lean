import AccessBroker.Object.Rbac

/-!
# Policies

A policy object is a list of rule sets. A rule set says who may ask, for which
roles and rules, for how long, and how many approvals that takes. Rule sets with
a higher priority are asked first.
-/

namespace AccessBroker

/-- The approvals that a rule set demands when it does not say. -/
def defaultRequiredApprovals : UInt32 := 1

/-- The kinds of requesters and approvers that a rule set may name. -/
inductive MatcherKind where
  /-- One user by name. -/
  | user
  /-- The members of a group. -/
  | group
  deriving Repr, DecidableEq, Inhabited

namespace MatcherKind

/-- The name of a kind of matcher. -/
def label : MatcherKind → String
  | .user => "User"
  | .group => "Group"

/-- The kind of matcher with a name, if there is one. -/
def ofLabel? (label : String) : Option MatcherKind :=
  [MatcherKind.user, .group].find? fun kind => kind.label == label

end MatcherKind

/-- A user or a group named in a rule set. -/
structure SubjectMatcher where
  kind : MatcherKind
  name : String
  deriving Repr, DecidableEq, Inhabited

/-- One rule set of a policy object. -/
structure SubjectPolicy where
  /-- Who may ask; nobody named means that everybody may. -/
  requesters : List SubjectMatcher := []
  /-- The roles that may be asked for. -/
  allowedRoles : List RoleRef := []
  /-- The rules that bound what may be asked for beside a role. -/
  allowedPermissions : List PolicyRule := []
  /-- What a requested span has to be shorter than. -/
  maxDuration : String := ""
  /-- The number of different approvers needed. -/
  requiredApprovals : UInt32 := defaultRequiredApprovals
  /-- Who may approve. -/
  approvers : List SubjectMatcher := []
  /-- Higher ones come first. -/
  priority : Int32 := 0
  /-- Where notifications go, for others to interpret. -/
  notificationConfig : Option String := none
  deriving Repr, DecidableEq, Inhabited

/-- The content of a stored policy. -/
structure PolicyBody where
  /-- The rule sets in the order they were declared. -/
  policies : List SubjectPolicy
  deriving Repr, DecidableEq, Inhabited

/-! ### Stored form -/

instance : Document MatcherKind where
  encode kind := .str kind.label
  decode json := json.label.bind MatcherKind.ofLabel?

instance : Document SubjectMatcher where
  encode matcher := .obj [("kind", encode matcher.kind), ("name", .str matcher.name)]
  decode json := do
    let fields ← json.record ["kind", "name"] 2
    return { kind := ← fields.required "kind", name := ← fields.required "name" }

instance : Document SubjectPolicy where
  encode policy := .obj [
    ("requesters", encode policy.requesters),
    ("allowedRoles", encode policy.allowedRoles),
    ("allowedPermissions", encode policy.allowedPermissions),
    ("maxDuration", .str policy.maxDuration),
    ("requiredApprovals", encode policy.requiredApprovals),
    ("approvers", encode policy.approvers),
    ("priority", encode policy.priority),
    ("notificationConfig", encode policy.notificationConfig)]
  decode json := do
    let fields ← json.record ["requesters", "allowedRoles", "allowedPermissions", "maxDuration",
      "requiredApprovals", "approvers", "priority", "notificationConfig"] 4
    return {
      requesters := ← fields.withDefault "requesters" []
      allowedRoles := ← fields.withDefault "allowedRoles" []
      allowedPermissions := ← fields.withDefault "allowedPermissions" []
      maxDuration := ← fields.required "maxDuration"
      requiredApprovals := ← fields.withDefault "requiredApprovals" defaultRequiredApprovals
      approvers := ← fields.withDefault "approvers" []
      priority := ← fields.withDefault "priority" 0
      notificationConfig := ← fields.optional "notificationConfig" }

end AccessBroker
