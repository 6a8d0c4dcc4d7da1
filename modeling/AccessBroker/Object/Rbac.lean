import AccessBroker.Object.Key

/-!
# Roles, rules and bound subjects

The vocabulary of role-based access control: references to roles, the rules that
roles carry, and the subjects that bindings name. A reference without an API
group means the group `AccessBroker.rbacApiGroup`, so references are compared
after that group has been filled in.
-/

namespace AccessBroker

/-- The API group of roles. -/
def rbacApiGroup : String := "rbac.authorization.k8s.io"

/-- The value that stands for every value of a rule's field. -/
def ruleWildcard : String := "*"

/-- The start of the identities of service accounts. -/
def serviceAccountMark : String := "system:serviceaccount:"

/-- The kinds of roles. -/
inductive RoleKind where
  /-- A role in a namespace. -/
  | role
  /-- A role of the whole cluster. -/
  | clusterRole
  deriving Repr, DecidableEq, Inhabited

namespace RoleKind

/-- The name of a kind of role. -/
def label : RoleKind → String
  | .role => "Role"
  | .clusterRole => "ClusterRole"

/-- The kind of role with a name, if there is one. -/
def ofLabel? (label : String) : Option RoleKind :=
  [RoleKind.role, .clusterRole].find? fun kind => kind.label == label

/-- The kind of the roles that live in a scope. -/
def ofScope (scope : Scope) : RoleKind :=
  if scope.isCluster then .clusterRole else .role

end RoleKind

/-- The name of the kind of the bindings that live in a scope. -/
def bindingKindLabel (scope : Scope) : String :=
  if scope.isCluster then "ClusterRoleBinding" else "RoleBinding"

/-- A reference to a role. -/
structure RoleRef where
  /-- The API group; empty means the group of roles. -/
  apiGroup : String
  kind : RoleKind
  name : String
  deriving Repr, DecidableEq, Inhabited

namespace RoleRef

/-- A reference with the group of roles written out. -/
def qualified (kind : RoleKind) (name : String) : RoleRef :=
  ⟨rbacApiGroup, kind, name⟩

/-- The reference with an empty group replaced by the group of roles. -/
def normalized (ref : RoleRef) : RoleRef :=
  if ref.apiGroup.isEmpty then { ref with apiGroup := rbacApiGroup } else ref

/-- Do two references mean the same role? -/
def isEquivalent (a b : RoleRef) : Bool :=
  a.normalized == b.normalized

end RoleRef

/-- A rule: everything that its five lists allow together. -/
structure PolicyRule where
  apiGroups : List String := []
  resources : List String := []
  resourceNames : List String := []
  verbs : List String := []
  nonResourceUrls : List String := []
  deriving Repr, DecidableEq, Inhabited

namespace PolicyRule

/-- The five lists of a rule. -/
def lists (rule : PolicyRule) : List (List String) :=
  [rule.apiGroups, rule.resources, rule.resourceNames, rule.verbs, rule.nonResourceUrls]

/-- Is every list empty? -/
def isEmpty (rule : PolicyRule) : Bool :=
  rule.lists.all List.isEmpty

end PolicyRule

/-- The kinds of subjects that a binding may name. -/
inductive SubjectKind where
  /-- A person or another outside identity. -/
  | user
  /-- A group of users. -/
  | group
  /-- An account of a program in the cluster. -/
  | serviceAccount
  deriving Repr, DecidableEq, Inhabited

namespace SubjectKind

/-- The name of a kind of subject. -/
def label : SubjectKind → String
  | .user => "User"
  | .group => "Group"
  | .serviceAccount => "ServiceAccount"

/-- The kind of subject with a name, if there is one. -/
def ofLabel? (label : String) : Option SubjectKind :=
  [SubjectKind.user, .group, .serviceAccount].find? fun kind => kind.label == label

end SubjectKind

/-- A subject named in a binding. -/
structure Subject where
  kind : SubjectKind
  name : String
  /-- The namespace of a service account. -/
  space : Option String
  deriving Repr, DecidableEq, Inhabited

namespace Subject

/-- What follows `mark` in a text that starts with it. -/
def behind? (mark text : List Char) : Option (List Char) :=
  if mark.isPrefixOf text then some (text.drop mark.length) else none

/-- The namespace and the name in the identity of a service account: what stands
before and behind the first colon after the mark, neither of them empty. -/
def serviceAccount? (identity : String) : Option (String × String) := do
  let rest ← behind? serviceAccountMark.toList identity.toList
  let space := rest.takeWhile (· != ':')
  match rest.dropWhile (· != ':') with
  | _ :: name =>
    if space.isEmpty || name.isEmpty then none
    else some (String.ofList space, String.ofList name)
  | [] => none

/-- The subject that a binding for an identity names: the service account, if the
identity is that of one, and otherwise a user. -/
def ofIdentity (identity : String) : Subject :=
  match serviceAccount? identity with
  | some (space, name) => ⟨.serviceAccount, name, some space⟩
  | none => ⟨.user, identity, none⟩

end Subject

/-! ### Stored form -/

instance : Document RoleKind where
  encode kind := .str kind.label
  decode json := json.label.bind RoleKind.ofLabel?

instance : Document SubjectKind where
  encode kind := .str kind.label
  decode json := json.label.bind SubjectKind.ofLabel?

instance : Document RoleRef where
  encode ref :=
    .obj [("apiGroup", .str ref.apiGroup), ("kind", encode ref.kind), ("name", .str ref.name)]
  decode json := do
    let fields ← json.record ["apiGroup", "kind", "name"] 3
    return {
      apiGroup := ← fields.withDefault "apiGroup" ""
      kind := ← fields.required "kind"
      name := ← fields.required "name" }

instance : Document PolicyRule where
  encode rule := .obj [
    ("apiGroups", encode rule.apiGroups),
    ("resources", encode rule.resources),
    ("resourceNames", encode rule.resourceNames),
    ("verbs", encode rule.verbs),
    ("nonResourceURLs", encode rule.nonResourceUrls)]
  decode json := do
    let fields ← json.record ["apiGroups", "resources", "resourceNames", "verbs",
      "nonResourceURLs"] 0
    return {
      apiGroups := ← fields.withDefault "apiGroups" []
      resources := ← fields.withDefault "resources" []
      resourceNames := ← fields.withDefault "resourceNames" []
      verbs := ← fields.withDefault "verbs" []
      nonResourceUrls := ← fields.withDefault "nonResourceURLs" [] }

instance : Document Subject where
  encode subject := .obj [
    ("kind", encode subject.kind), ("name", .str subject.name), ("namespace", encode subject.space)]
  decode json := do
    let fields ← json.record ["kind", "name", "namespace"] 3
    return {
      kind := ← fields.required "kind"
      name := ← fields.required "name"
      space := ← fields.optional "namespace" }

end AccessBroker
