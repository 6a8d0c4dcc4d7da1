import AccessBroker.Store.Call

/-!
# Targets

What the broker's workers work on: one request or one grant. Every change that the
feed tells of is either a reason to look at such a target, a reason to read the
policies again, or of no interest (`AccessBroker.Change.reaction`).
-/

namespace AccessBroker

/-- A request or a grant that is to be looked at. -/
inductive Target where
  | request (key : Key)
  | grant (key : Key)
  deriving Repr, DecidableEq, Inhabited

namespace Target

/-- The key of the object that is to be looked at. -/
def key : Target → Key
  | .request key | .grant key => key

/-- A target as it is shown. -/
def text : Target → String
  | .request key => s!"request {key.text}"
  | .grant key => s!"grant {key.text}"

end Target

/-- What a change gives rise to. -/
inductive Reaction where
  /-- A target is to be looked at. -/
  | enqueue (target : Target)
  /-- The policies are to be read again. -/
  | resyncPolicies
  /-- Nothing. -/
  | ignore
  deriving Repr, DecidableEq, Inhabited

/-- What a change gives rise to. A response is a reason to look at the request that
it names. -/
def Change.reaction (change : Change) : Reaction :=
  match change.kind with
  | .request => .enqueue (.request change.key)
  | .grant => .enqueue (.grant change.key)
  | .response =>
    match change.requestRef with
    | some request =>
      if request.isEmpty then .ignore else .enqueue (.request (change.key.scope.key request))
    | none => .ignore
  | .policy => .resyncPolicies
  | .role | .binding => .ignore

end AccessBroker
