import AccessBroker.Object.Grant
import AccessBroker.Object.Metadata
import AccessBroker.Object.Policy
import AccessBroker.Object.Request

/-!
# Stored objects

An object of a kind is its metadata and a body whose type depends on the kind.
Having one type of objects with the kind as its parameter lets the stores say
once what they do with an object of any kind; the engines use the six instances
by name (`AccessBroker.Request`, `AccessBroker.Grant`, …).

Requests and grants have a status that is written apart from the rest. Their
status starts out blank whatever was submitted (`AccessBroker.Object.pristine`).
-/

namespace AccessBroker

/-- The content of a stored role. -/
structure RoleBody where
  rules : List PolicyRule
  deriving Repr, DecidableEq, Inhabited

/-- The content of a stored binding. -/
structure BindingBody where
  /-- The role that is bound. -/
  roleRef : RoleRef
  subjects : List Subject
  deriving Repr, DecidableEq, Inhabited

namespace Kind

/-- What an object of a kind holds beside its metadata. -/
abbrev Body : Kind → Type
  | .request => RequestBody
  | .response => ResponseSpec
  | .policy => PolicyBody
  | .grant => GrantStatus
  | .role => RoleBody
  | .binding => BindingBody

instance : (kind : Kind) → DecidableEq kind.Body
  | .request => inferInstanceAs (DecidableEq RequestBody)
  | .response => inferInstanceAs (DecidableEq ResponseSpec)
  | .policy => inferInstanceAs (DecidableEq PolicyBody)
  | .grant => inferInstanceAs (DecidableEq GrantStatus)
  | .role => inferInstanceAs (DecidableEq RoleBody)
  | .binding => inferInstanceAs (DecidableEq BindingBody)

instance : (kind : Kind) → Repr kind.Body
  | .request => inferInstanceAs (Repr RequestBody)
  | .response => inferInstanceAs (Repr ResponseSpec)
  | .policy => inferInstanceAs (Repr PolicyBody)
  | .grant => inferInstanceAs (Repr GrantStatus)
  | .role => inferInstanceAs (Repr RoleBody)
  | .binding => inferInstanceAs (Repr BindingBody)

/-- The status of the objects of a kind that is written apart from the rest; the
other kinds have none. -/
abbrev Status : Kind → Type
  | .request => RequestStatus
  | .grant => GrantStatus
  | .response | .policy | .role | .binding => Empty

/-- A body with another status. -/
def withStatus : (kind : Kind) → kind.Body → kind.Status → kind.Body
  | .request => fun body status => RequestBody.mk body.spec status
  | .grant => fun _ status => status
  | .response | .policy | .role | .binding => fun body _ => body

/-- A body with a blank status, if the kind has one. -/
def withBlankStatus : (kind : Kind) → kind.Body → kind.Body
  | .request => fun body => RequestBody.mk body.spec {}
  | .grant => fun _ => ({} : GrantStatus)
  | .response | .policy | .role | .binding => fun body => body

end Kind

/-- An object of a kind. -/
structure Object (kind : Kind) where
  metadata : Metadata
  body : kind.Body
  deriving Repr, DecidableEq

/-- A subject's wish for temporary access. -/
abbrev Request := Object .request

/-- An approver's vote on a request. -/
abbrev Response := Object .response

/-- A set of rules on who may ask for what. -/
abbrev Policy := Object .policy

/-- The record of what was provisioned for an approved request. -/
abbrev Grant := Object .grant

/-- A role. -/
abbrev Role := Object .role

/-- A binding of a role to subjects. -/
abbrev Binding := Object .binding

namespace Object

variable {kind : Kind}

/-- The key of an object. -/
def key (object : Object kind) : Key :=
  object.metadata.key

/-- The scope of an object. -/
def scope (object : Object kind) : Scope :=
  object.metadata.scope

/-- The object with another status. -/
def withStatus (object : Object kind) (status : kind.Status) : Object kind :=
  { object with body := kind.withStatus object.body status }

/-- The object as it is stored when it is new: with a blank status, if its kind
has one. -/
def pristine (object : Object kind) : Object kind :=
  { object with body := kind.withBlankStatus object.body }

/-- The request that an object names, which listeners are told of. -/
def requestRef? : {kind : Kind} → Object kind → Option String
  | .response, object => some object.body.requestRef
  | .request, _ | .policy, _ | .grant, _ | .role, _ | .binding, _ => none

end Object

/-! ### Stored form -/

/-- The names of the fields that a body adds to the metadata, and how many of
them must be given. -/
def Kind.bodyFields : Kind → List String × Nat
  | .request => (["spec", "status"], 1)
  | .response => (["spec"], 1)
  | .policy => (["policies"], 1)
  | .grant => (["status"], 0)
  | .role => (["rules"], 1)
  | .binding => (["role_ref", "subjects"], 2)

/-- The fields of a body. -/
def encodeBody : (kind : Kind) → kind.Body → Fields
  | .request, body => [("spec", encode body.spec), ("status", encode body.status)]
  | .response, body => [("spec", encode body)]
  | .policy, body => [("policies", encode body.policies)]
  | .grant, body => [("status", encode body)]
  | .role, body => [("rules", encode body.rules)]
  | .binding, body => [("role_ref", encode body.roleRef), ("subjects", encode body.subjects)]

/-- Reads a body from the fields of an object. -/
def decodeBody : (kind : Kind) → Fields → Option kind.Body
  | .request, fields => do
    return { spec := ← fields.required "spec", status := ← fields.withDefault "status" {} }
  | .response, fields => fields.required (α := ResponseSpec) "spec"
  | .policy, fields => do return { policies := ← fields.required "policies" }
  | .grant, fields => fields.withDefault (α := GrantStatus) "status" {}
  | .role, fields => do return { rules := ← fields.required "rules" }
  | .binding, fields => do
    return { roleRef := ← fields.required "role_ref", subjects := ← fields.required "subjects" }

instance {kind : Kind} : Document (Object kind) where
  encode object := .obj (("meta", encode object.metadata) :: encodeBody kind object.body)
  decode json := do
    let (names, needed) := kind.bodyFields
    let fields ← json.record ("meta" :: names) (needed + 1)
    return { metadata := ← fields.required "meta", body := ← decodeBody kind fields }

end AccessBroker
