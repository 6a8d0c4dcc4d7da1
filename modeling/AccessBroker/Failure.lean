import AccessBroker.Text.Quoted

/-!
# What can go wrong

Every operation of the broker that can fail does so with a `Failure`: one of six
plain kinds, each carrying the sentence that explains it, or several independent
failures joined into one. The kinds matter to callers – a missing object is often
the very state that was wanted, and an object that is already there is often as
good as one just created – so the two functions that say so,
`AccessBroker.Failure.toleratingMissing` and
`AccessBroker.Failure.toleratingTaken`, live here as well.
-/

namespace AccessBroker

open AccessBroker.Text

/-- Why an operation failed. -/
inductive Failure where
  /-- The input is malformed or breaks a rule. -/
  | validation (detail : String)
  /-- The object asked for does not exist. -/
  | notFound (detail : String)
  /-- A create was aimed at a key that is taken. -/
  | alreadyExists (detail : String)
  /-- A write was based on a version that is no longer the stored one. -/
  | conflict (detail : String)
  /-- No access policy admits the request. -/
  | policyNotMatched (detail : String)
  /-- A part of the machinery failed. -/
  | internal (detail : String)
  /-- Several independent failures of one operation, in the order they arose. -/
  | joined (failures : List Failure)
  deriving Repr, BEq, Inhabited

namespace Failure

mutual

/-- The sentence shown for a failure: its kind, then its detail. -/
def message : Failure → String
  | .validation detail => "validation error: " ++ detail
  | .notFound detail => "not found: " ++ detail
  | .alreadyExists detail => "already exists: " ++ detail
  | .conflict detail => "conflict: " ++ detail
  | .policyNotMatched detail => "policy not matched: " ++ detail
  | .internal detail => "internal error: " ++ detail
  | .joined failures =>
    toString failures.length ++ " errors: " ++ String.intercalate "; " (messages failures)

/-- The sentences of a list of failures, in order. -/
def messages : List Failure → List String
  | [] => []
  | failure :: rest => failure.message :: messages rest

end

mutual

/-- A failure as the last words of a broker: its kind, and its detail between quotes. -/
def report : Failure → String
  | .validation detail => s!"Validation({quote detail})"
  | .notFound detail => s!"NotFound({quote detail})"
  | .alreadyExists detail => s!"AlreadyExists({quote detail})"
  | .conflict detail => s!"Conflict({quote detail})"
  | .policyNotMatched detail => s!"PolicyNotMatched({quote detail})"
  | .internal detail => s!"Internal({quote detail})"
  | .joined failures => "Joined([" ++ String.intercalate ", " (reports failures) ++ "])"

/-- The last words for a list of failures, in order. -/
def reports : List Failure → List String
  | [] => []
  | failure :: rest => failure.report :: reports rest

end

/-- Does the failure say that an object is missing? -/
def isNotFound : Failure → Bool
  | .notFound _ => true
  | _ => false

/-- Does the failure say that a key is taken? -/
def isAlreadyExists : Failure → Bool
  | .alreadyExists _ => true
  | _ => false

/-- Does the failure say that a write was based on an old version? -/
def isConflict : Failure → Bool
  | .conflict _ => true
  | _ => false

/-- The one result of an operation that collected failures on its way: success
when there are none, a lone failure as it is, and more than one joined. -/
def join : List Failure → Except Failure Unit
  | [] => .ok ()
  | [failure] => .error failure
  | failures => .error (.joined failures)

/-- A missing object counts as the desired end state: `none` instead of a
failure. -/
def toleratingMissing {α : Type} : Except Failure α → Except Failure (Option α)
  | .ok value => .ok (some value)
  | .error failure => if failure.isNotFound then .ok none else .error failure

/-- An object that is already there counts as created; the answer says whether
it was this call that created it. -/
def toleratingTaken {α : Type} : Except Failure α → Except Failure Bool
  | .ok _ => .ok true
  | .error failure => if failure.isAlreadyExists then .ok false else .error failure

end Failure

end AccessBroker
