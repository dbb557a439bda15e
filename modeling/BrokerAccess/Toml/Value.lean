/-!
# TOML values

The values of a document. Floating-point numbers and dates are kept as they are
written: nothing that this library decides depends on them.
-/

namespace BrokerAccess.Toml

/-- A value of a document. -/
inductive Value where
  /-- A string. -/
  | text (s : String)
  /-- An integer. -/
  | integer (n : Int)
  /-- A floating-point number, by its literal. -/
  | real (literal : String)
  /-- A truth value. -/
  | boolean (b : Bool)
  /-- A date, a time or both, by its literal. -/
  | moment (literal : String)
  /-- An array, or the elements of an array of tables. -/
  | array (items : List Value)
  /-- A table, its entries in document order. -/
  | table (entries : List (String × Value))

/-- The string of a string value. -/
def Value.text? : Value → Option String
  | .text s => some s
  | _ => none

/-- The number of an integer value. -/
def Value.integer? : Value → Option Int
  | .integer n => some n
  | _ => none

/-- The truth value of a boolean value. -/
def Value.boolean? : Value → Option Bool
  | .boolean b => some b
  | _ => none

end BrokerAccess.Toml
