/-!
# JSON values and documents

Objects are stored as JSON documents. This file holds the values themselves
(`AccessBroker.Json`) and the class `AccessBroker.Document` of types that are
written as a value and read back from one. Reading says only whether a value is
a document of the type: the reason for a refusal is nobody's business here.

A record is written as an object with all its fields, and read by the functions
of the section on records: `required` for a field that has to be there,
`optional` for one that may be missing or null, `withDefault` for one that may be
missing but not null. Fields that a record does not know are passed over. A
record may also be given as the list of its fields in the declared order, at
least down to the last one that must be there.

Numbers are whole or not: `2` is whole, while `2.0` is not, although the two are
worth the same.
-/

namespace AccessBroker

/-- A JSON value. -/
inductive Json where
  | null
  | bool (value : Bool)
  /-- A number written without a fraction. -/
  | int (value : Int)
  /-- The number `mantissa` times ten to the power `-places`. -/
  | decimal (mantissa : Int) (places : Nat)
  | str (text : String)
  | arr (items : List Json)
  | obj (fields : List (String × Json))
  deriving Repr, BEq, Inhabited

/-- Types whose values are stored as JSON. -/
class Document (α : Type) where
  /-- The stored form. -/
  encode : α → Json
  /-- The value that a stored form stands for, if it stands for one. -/
  decode : Json → Option α

export Document (encode decode)

/-- The fields of an object. -/
abbrev Fields :=
  List (String × Json)

/-! ### Plain values -/

instance : Document String where
  encode := .str
  decode
    | .str text => some text
    | _ => none

instance : Document Bool where
  encode := .bool
  decode
    | .bool value => some value
    | _ => none

/-- Reads a whole number between two bounds, the upper one excluded. -/
def Json.wholeBetween (low high : Int) : Json → Option Int
  | .int value => if low ≤ value ∧ value < high then some value else none
  | _ => none

instance : Document UInt32 where
  encode value := .int value.toNat
  decode json := (json.wholeBetween 0 UInt32.size).map fun value => UInt32.ofNat value.toNat

instance : Document Int32 where
  encode value := .int value.toInt
  decode json := (json.wholeBetween Int32.minValue.toInt (Int32.maxValue.toInt + 1)).map Int32.ofInt

/-- A value that may be absent, which is written as null. -/
instance {α : Type} [Document α] : Document (Option α) where
  encode
    | none => .null
    | some value => encode value
  decode
    | .null => some none
    | json => (decode json).map some

instance {α : Type} [Document α] : Document (List α) where
  encode items := .arr (items.map encode)
  decode
    | .arr items => items.mapM decode
    | _ => none

/-- The label that a value gives to a choice: the label itself, or an object that
has it as its only field, with null. -/
def Json.label : Json → Option String
  | .str label => some label
  | .obj [(label, .null)] => some label
  | _ => none

/-! ### Records -/

namespace Fields

/-- The value of a field. When a name is given twice, the later one counts. -/
def get? (fields : Fields) (name : String) : Option Json :=
  (fields.reverse.find? fun field => field.1 == name).map Prod.snd

/-- The value of a field that has to be there. -/
def required {α : Type} [Document α] (fields : Fields) (name : String) : Option α :=
  (fields.get? name).bind decode

/-- The value of a field that may be missing or null. -/
def optional {α : Type} [Document α] (fields : Fields) (name : String) : Option (Option α) :=
  match fields.get? name with
  | none => some none
  | some json => decode json

/-- The value of a field that may be missing, but not null. -/
def withDefault {α : Type} [Document α] (fields : Fields) (name : String) (default : α) :
    Option α :=
  match fields.get? name with
  | none => some default
  | some json => decode json

/-- The fields with some of them overwritten, or added where they were missing. -/
def overlay (fields changes : Fields) : Fields :=
  fields.filter (fun field => !changes.any fun change => change.1 == field.1) ++ changes

end Fields

/-- The fields of a record whose fields are declared as `names`, of which the
first `needed` must be given when the record comes as a list. -/
def Json.record (names : List String) (needed : Nat) : Json → Option Fields
  | .obj fields => some fields
  | .arr items =>
    if needed ≤ items.length ∧ items.length ≤ names.length then some (names.zip items) else none
  | _ => none

/-- An object with some of its fields overwritten; anything else is replaced by
the changes alone. -/
def Json.overlay (json : Json) (changes : Fields) : Json :=
  match json with
  | .obj fields => .obj (Fields.overlay fields changes)
  | _ => .obj changes

end AccessBroker
