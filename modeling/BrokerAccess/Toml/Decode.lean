import BrokerAccess.Toml.Scalar

/-!
# Reading structures out of values

A structure is read from a table by the names of its fields, or from an array by their
order; a date in its place gives every field its default. Names that the structure does
not have are ignored. A field is strict, when a value of the wrong type refuses the
document, or lenient, when such a value reads as nothing at all.
-/

namespace BrokerAccess.Toml

/-- The key under which a table may stand for a date. -/
def momentKey : String := "$__toml_private_datetime"

/-- The fields that a value has to offer to a structure. -/
def Value.fields? (names : List String) : Value → Option (List (String × Value))
  | .table entries => some entries
  | .array items => some (names.zip items)
  | .moment _ => some []
  | _ => none

/-- A strict field: `default` when it is missing, refused when `read` refuses it. -/
def strict {α : Type} (fields : List (String × Value)) (name : String) (default : α)
    (read : Value → Option α) : Option α :=
  match fields.lookup name with
  | none => some default
  | some v => read v

/-- A strict field that may be absent. -/
def strict? {α : Type} (fields : List (String × Value)) (name : String)
    (read : Value → Option α) : Option (Option α) :=
  strict fields name none fun v => (read v).map some

/-- The value is the text of a date. -/
def Value.isMomentText : Value → Bool
  | .text s => Scalar.isMomentText s.toList
  | _ => false

mutual

/-- Every table in the value that claims to be a date is one: a table whose first key is the key
of a date holds the text of a date under it. -/
def Value.momentsSound : Value → Bool
  | .array items => itemsSound items
  | .table ((key, v) :: rest) =>
    if key = momentKey then v.isMomentText else v.momentsSound && entriesSound rest
  | _ => true

/-- Every element's claims are sound. -/
def itemsSound : List Value → Bool
  | [] => true
  | v :: rest => v.momentsSound && itemsSound rest

/-- Every entry's claims are sound. -/
def entriesSound : List (String × Value) → Bool
  | [] => true
  | (_, v) :: rest => v.momentsSound && entriesSound rest

end

/-- A lenient field: `default` when it is missing, what its text means when it is a text, and
nothing when it is any other value. -/
def lenient {α : Type} (fields : List (String × Value)) (name : String) (default : α)
    (ofText? : String → Option α) : Option (Option α) :=
  match fields.lookup name with
  | none => some (some default)
  | some (.text s) => some (ofText? s)
  | some v => if v.momentsSound then some none else none

/-- The strings of an array of strings. -/
def Value.texts? : Value → Option (List String)
  | .array items => items.mapM Value.text?
  | _ => none

/-- The structures of an array of them. -/
def Value.structures? {α : Type} (read : Value → Option α) : Value → Option (List α)
  | .array items => items.mapM read
  | _ => none

end BrokerAccess.Toml
