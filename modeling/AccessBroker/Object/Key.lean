import AccessBroker.Failure
import AccessBroker.Json
import AccessBroker.Text.Blank

/-!
# Kinds, scopes and keys

Stored objects come in six kinds. Within its kind an object is found by its key:
the namespace it lives in, absent for an object of the whole cluster, and its
name. Keys are ordered by namespace, the absent one first, and then by name, both
by code point; this is the order of every listing.
-/

namespace AccessBroker

/-! ### Kinds -/

/-- The families of stored objects. -/
inductive Kind where
  /-- A subject's wish for temporary access. -/
  | request
  /-- An approver's vote on a request. -/
  | response
  /-- A set of rules on who may ask for what. -/
  | policy
  /-- The record of what was provisioned for an approved request. -/
  | grant
  /-- A role. -/
  | role
  /-- A binding of a role to subjects. -/
  | binding
  deriving Repr, DecidableEq, Inhabited

namespace Kind

/-- Every kind. -/
def all : List Kind :=
  [.request, .response, .policy, .grant, .role, .binding]

/-- The name under which a kind is stored. -/
def label : Kind → String
  | .request => "access_request"
  | .response => "access_response"
  | .policy => "access_policy"
  | .grant => "access_grant"
  | .role => "role"
  | .binding => "role_binding"

/-- The kind stored under a name, if there is one. -/
def ofLabel? (label : String) : Option Kind :=
  all.find? fun kind => kind.label == label

/-- The kind stored under a name. -/
def parse (label : String) : Except Failure Kind :=
  match ofLabel? label with
  | some kind => .ok kind
  | none => .error (.validation s!"unknown object kind value '{label}'")

end Kind

instance : Document Kind where
  encode kind := .str kind.label
  decode json := json.label.bind Kind.ofLabel?

/-! ### Scopes -/

/-- Where an object lives. -/
inductive Scope where
  /-- In one namespace. -/
  | namespaced (name : String)
  /-- At the level of the whole cluster. -/
  | cluster
  deriving Repr, DecidableEq, Inhabited

namespace Scope

/-- The namespace of a scope, if it has one. -/
def namespace? : Scope → Option String
  | .namespaced name => some name
  | .cluster => none

/-- The scope of objects with a given namespace. -/
def ofNamespace? : Option String → Scope
  | some name => .namespaced name
  | none => .cluster

/-- Is this the scope of the whole cluster? -/
def isCluster : Scope → Bool
  | .namespaced _ => false
  | .cluster => true

end Scope

instance : Document Scope where
  encode
    | .namespaced name => .obj [("type", .str "namespaced"), ("namespace", .str name)]
    | .cluster => .obj [("type", .str "cluster")]
  decode json := do
    let fields ← json.record ["type", "namespace"] 2
    match ← (← fields.get? "type").label with
    | "namespaced" => return .namespaced (← fields.required "namespace")
    | "cluster" =>
      match fields.get? "namespace" with
      | none | some .null => some .cluster
      | some _ => none
    | _ => none

/-! ### Keys -/

/-- The identity of an object within its kind. -/
structure Key where
  /-- The namespace, absent for objects of the whole cluster. -/
  space : Option String
  name : String
  deriving Repr, DecidableEq, Inhabited

/-- The key of an object of this scope. -/
def Scope.key (scope : Scope) (name : String) : Key :=
  ⟨scope.namespace?, name⟩

namespace Key

/-- The scope that a key lies in. -/
def scope (key : Key) : Scope :=
  Scope.ofNamespace? key.space

/-- A key as it is shown: the namespace, a slash and the name, or the name
alone. -/
def text (key : Key) : String :=
  match key.space with
  | some space => space ++ "/" ++ key.name
  | none => key.name

/-- Refuses keys with a part that holds nothing but blanks. -/
def validate (key : Key) : Except Failure Unit :=
  if Text.isBlankText key.name then .error (.validation "object name must not be empty")
  else if (key.space.map Text.isBlankText).getD false then
    .error (.validation s!"namespace of object '{key.name}' must not be empty")
  else .ok ()

/-- Keys are ordered by namespace, the absent one first, and then by name. -/
instance : Ord Key := ⟨compareLex (compareOn Key.space) (compareOn Key.name)⟩

instance : Std.TransOrd Key :=
  inferInstanceAs (Std.TransCmp (compareLex (compareOn Key.space) (compareOn Key.name)))

instance : Std.LawfulEqOrd Key where
  eq_of_compare {a b} h := by
    obtain ⟨hspace, hname⟩ : compare a.space b.space = .eq ∧ compare a.name b.name = .eq := by
      simpa [compare, compareLex, compareOn, Ordering.then_eq_eq] using h
    cases a
    cases b
    simp only [Std.LawfulEqOrd.compare_eq_iff_eq] at hspace hname
    simp [hspace, hname]

end Key

instance : Document Key where
  encode key := .obj [("namespace", encode key.space), ("name", .str key.name)]
  decode json := do
    let fields ← json.record ["namespace", "name"] 2
    return { space := ← fields.optional "namespace", name := ← fields.required "name" }

end AccessBroker
