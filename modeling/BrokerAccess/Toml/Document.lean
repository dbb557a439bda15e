import BrokerAccess.Toml.Statement

/-!
# Documents

Reading a document: its text as statements, and its statements as the entries of the
root table. Either step can refuse.
-/

namespace BrokerAccess.Toml

/-- A document under assembly. -/
structure Assembly where
  /-- The root table so far. -/
  root : Entries
  /-- The table that assignments now fill, by its path from the root. -/
  target : List String

/-- Before the first statement assignments fill the root table. -/
def Assembly.start : Assembly := ⟨[], []⟩

/-- One more statement. -/
def Assembly.add (a : Assembly) : Statement → Option Assembly
  | .header path key => do
    let root ← a.root.declare path key
    some ⟨root, path ++ [key]⟩
  | .element path key => do
    let root ← a.root.append path key
    some ⟨root, path ++ [key]⟩
  | .assign path key v => do
    let fill (_ : TableForm) (entries : Entries) := entries.assign path key v
    let root ← a.root.edit .implied fill .declared a.target
    some { a with root }

/-- The entries that statements give the root table. -/
def assemble? (statements : List Statement) : Option (List (String × Value)) :=
  (statements.foldlM Assembly.add Assembly.start).map fun a => finishEntries a.root

/-- A text without the byte order mark it may start with. -/
def dropMark : List Char → List Char
  | '\uFEFF' :: rest => rest
  | text => text

/-- The entries of the root table of a document. -/
def read? (text : List Char) : Option (List (String × Value)) :=
  (statements? (dropMark text)).bind assemble?

end BrokerAccess.Toml
