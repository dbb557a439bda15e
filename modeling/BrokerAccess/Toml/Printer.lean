import BrokerAccess.Toml.Quoting
import BrokerAccess.Toml.Statement

/-!
# Writing documents

A document is written as a list of statements: headers of arrays of tables, strings and
lists of strings. A blank line stands in front of every header but one that opens the
document, and a list of two or more strings has a line for each.
-/

namespace BrokerAccess.Toml

/-- A statement of a written document. Keys and paths are plain words. -/
inductive Line where
  /-- A new element of an array of tables. -/
  | element (path : List String) (key : String)
  /-- A string under a key. -/
  | text (key : String) (s : String)
  /-- A list of strings under a key. -/
  | texts (key : String) (list : List String)
  deriving DecidableEq, Repr

/-- The statement that a line writes down. -/
def Line.statement : Line → Statement
  | .element path key => .element path key
  | .text key s => .assign [] key (.text s)
  | .texts key list => .assign [] key (.array (list.map .text))

/-- A list of strings in brackets. -/
def writeTexts : List String → List Char
  | [] => ['[', ']']
  | [s] => '[' :: Quoted.write s.toList ++ [']']
  | list =>
    '[' :: '\n' ::
      list.flatMap (fun s => [' ', ' ', ' ', ' '] ++ Quoted.write s.toList ++ [',', '\n']) ++ [']']

/-- A line as text, without the newline that ends it. -/
def Line.write : Line → List Char
  | .element path key =>
    ['[', '['] ++ path.flatMap (fun part => part.toList ++ ['.']) ++ key.toList ++ [']', ']']
  | .text key s => key.toList ++ [' ', '=', ' '] ++ Quoted.write s.toList
  | .texts key list => key.toList ++ [' ', '=', ' '] ++ writeTexts list

/-- The blank line in front of a header. -/
def Line.gap : Line → List Char
  | .element .. => ['\n']
  | _ => []

/-- Lines that follow others. -/
def writeFollowing (lines : List Line) : List Char :=
  lines.flatMap fun line => line.gap ++ line.write ++ ['\n']

/-- A document as text. -/
def writeLines : List Line → List Char
  | [] => []
  | line :: rest => line.write ++ '\n' :: writeFollowing rest

end BrokerAccess.Toml
