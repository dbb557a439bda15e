import BrokerAccess.Toml.Value

/-!
# Assembly of tables

A document builds its tables piece by piece: a header declares one, a dotted key opens
tables on its way, and either may imply tables that nobody declared. What may be added
later depends on how a table came to be, so the tree under construction remembers it:
a table is declared once, and a dotted key neither enters a declared table nor adds
directly to one that a header opened.
-/

namespace BrokerAccess.Toml

/-- How a table came to be. -/
inductive TableForm where
  /-- By a header of its own, as an element, or as the table that a dotted key starts from. -/
  | declared
  /-- On the way of a header to a table inside it. -/
  | implied
  /-- On the way of a dotted key. -/
  | dotted
  deriving DecidableEq, Repr

/-- A table under construction, or what stands under one of its keys. -/
inductive Node where
  /-- A value given as a whole; nothing can be added to it. -/
  | value (v : Value)
  /-- A table. -/
  | table (form : TableForm) (entries : List (String × Node))
  /-- The elements of an array of tables, in order. -/
  | tables (items : List (List (String × Node)))

/-- The entries of a table under construction, in order of appearance. -/
abbrev Entries := List (String × Node)

/-- The entries with what stands under `key` replaced. -/
def Entries.replace (key : String) (node : Node) (entries : Entries) : Entries :=
  entries.map fun (k, old) => if k = key then (k, node) else (k, old)

/-- The entries without what stands under `key`. -/
def Entries.remove (key : String) (entries : Entries) : Entries :=
  entries.filter fun entry => entry.1 ≠ key

/-- Change the table that `path` leads to, starting at a table of the form `form`. Tables missing on
the way are made in the form `making`; an array of tables leads into its last element. -/
def Entries.edit (making : TableForm) (change : TableForm → Entries → Option Entries) :
    TableForm → List String → Entries → Option Entries
  | form, [], entries => change form entries
  | _, key :: path, entries =>
    match entries.lookup key with
    | none => do
      let inner ← Entries.edit making change making path []
      some (entries ++ [(key, .table making inner)])
    | some (.table form inner) =>
      if making = .dotted ∧ form = .declared then none
      else do
        let inner' ← Entries.edit making change form path inner
        some (Entries.replace key (.table form inner') entries)
    | some (.tables items) =>
      match items.getLast? with
      | none => none
      | some last => do
        let last' ← Entries.edit making change .declared path last
        some (Entries.replace key (.tables (items.dropLast ++ [last'])) entries)
    | some (.value _) => none

/-- Put a value under a key that may be dotted: `path` leads to the table, `key` is the last part.
A key is given once, and the table must have been opened by dotted keys exactly if this key is
dotted. -/
def Entries.assign (path : List String) (key : String) (v : Value) (entries : Entries) :
    Option Entries :=
  Entries.edit .dotted
    (fun form inner =>
      if (form = .dotted) = (path = []) then none
      else if (inner.lookup key).isSome then none
      else some (inner ++ [(key, .value v)]))
    .declared path entries

/-- Declare the table `key` of the table that `path` leads to. It must be new, or implied so far; in
either case it comes last there. -/
def Entries.declare (path : List String) (key : String) (root : Entries) : Option Entries :=
  Entries.edit .implied
    (fun _ inner =>
      match inner.lookup key with
      | none => some (inner ++ [(key, .table .declared [])])
      | some (.table .implied old) =>
        some (Entries.remove key inner ++ [(key, .table .declared old)])
      | some _ => none)
    .declared path root

/-- Append an empty element to the array of tables `key` of the table that `path` leads to. -/
def Entries.append (path : List String) (key : String) (root : Entries) : Option Entries :=
  Entries.edit .implied
    (fun _ inner =>
      match inner.lookup key with
      | none => some (inner ++ [(key, .tables [[]])])
      | some (.tables items) => some (Entries.replace key (.tables (items ++ [[]])) inner)
      | some _ => none)
    .declared path root

mutual

/-- The finished value of a node. -/
def Node.finish : Node → Value
  | .value v => v
  | .table _ entries => .table (finishEntries entries)
  | .tables items => .array (finishItems items)

/-- The finished entries of a table. -/
def finishEntries : List (String × Node) → List (String × Value)
  | [] => []
  | (key, node) :: rest => (key, node.finish) :: finishEntries rest

/-- The finished elements of an array of tables. -/
def finishItems : List (List (String × Node)) → List Value
  | [] => []
  | entries :: rest => .table (finishEntries entries) :: finishItems rest

end

end BrokerAccess.Toml
