/-!
# Patterns

Whether a text can be read as a pattern, without matching anything by it. A pattern is read
from the left: every group and every set that is opened is closed, a repetition follows
something to repeat, and a backslash makes a mark plain or names a control character.
Patterns know no classes of characters by name, since these need tables of every script,
and no repetition by count.
-/

namespace BrokerAccess.Text.Pattern

/-- What the reading of a pattern has come to. -/
inductive Stage where
  /-- Nothing stands before that could be repeated. -/
  | bare
  /-- An item stands before. -/
  | item
  /-- After a backslash. -/
  | escape
  /-- After the bracket that opens a group. -/
  | groupStart
  /-- In the name of a group. -/
  | groupName
  /-- After the bracket that opens a set, or after the caret that negates it. -/
  | setStart (negated : Bool) (around : Nat)
  /-- In a set that lies in this many others. -/
  | set (around : Nat)
  /-- After a backslash in a set. -/
  | setEscape (around : Nat)
  deriving DecidableEq, Repr

/-- A pattern under way. -/
structure Reading where
  /-- How many groups are open. -/
  groups : Nat := 0
  /-- What comes before the next character. -/
  stage : Stage := .bare
  deriving DecidableEq, Repr

/-- A character that a backslash makes plain, or that stands for a control character or an end of
the text after one. -/
def isEscapable (c : Char) : Bool :=
  c.toNat < 0x80 && (!c.isAlphanum && c ≠ '<' && c ≠ '>' || "aftnrvAz".toList.contains c)

/-- One more character of a set. -/
def readInSet (around : Nat) : Char → Stage
  | '[' => .setStart false (around + 1)
  | '\\' => .setEscape around
  | ']' => if around = 0 then .item else .set (around - 1)
  | _ => .set around

/-- One more character. -/
def Reading.read (r : Reading) (c : Char) : Option Reading :=
  match r.stage with
  | .escape => if isEscapable c then some { r with stage := .item } else none
  | .setEscape around => if isEscapable c then some { r with stage := .set around } else none
  | .set around => some { r with stage := readInSet around c }
  | .setStart negated around =>
    if c = '^' && !negated then some { r with stage := .setStart true around }
    else if c = ']' then some { r with stage := .set around }
    else some { r with stage := readInSet around c }
  | .groupName =>
    if c = ':' || c = '>' then some { r with stage := .bare }
    else if c.isAlphanum || c = '_' || c = '<' then some r
    else none
  | stage =>
    match c with
    | '\\' => some { r with stage := .escape }
    | '[' => some { r with stage := .setStart false 0 }
    | '(' => some ⟨r.groups + 1, .groupStart⟩
    | ')' => if r.groups = 0 then none else some ⟨r.groups - 1, .item⟩
    | '|' => some { r with stage := .bare }
    | '{' => none
    | '?' =>
      if stage = .groupStart then some { r with stage := .groupName }
      else if stage = .item then some r
      else none
    | '*' | '+' => if stage = .item then some r else none
    | _ => some { r with stage := .item }

/-- The pattern may end here. -/
def Reading.isWhole (r : Reading) : Bool := r.groups = 0 && (r.stage = .bare || r.stage = .item)

/-- The text can be read as a pattern. -/
def isPattern (text : List Char) : Bool :=
  (text.foldlM Reading.read {}).any Reading.isWhole

end BrokerAccess.Text.Pattern
