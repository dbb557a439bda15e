import BrokerAccess.Text.Fields

/-!
# Paths

A path is a text cut at its slashes, and the folder from which that text is read. The
pieces are kept as the operator spelled them, since messages show them. Read as steps from
the root they tell what the path leads to: a name leads to what has that name, ".." to the
folder above, and an empty piece or "." nowhere.
-/

namespace BrokerAccess.Files

/-- A path. -/
structure Path where
  /-- The steps to the folder from which the text is read; none if that is the root. -/
  base : List String := []
  /-- The text, cut at its slashes. -/
  pieces : List String
  deriving DecidableEq, Repr

namespace Path

/-- The path as messages show it. -/
def shown (path : Path) : String := "/".intercalate path.pieces

/-- The steps of a path from the root. -/
def steps (path : Path) : List String := path.base ++ path.pieces

/-- Pieces of a text that starts with a slash, so that it is read from the root. -/
def isRooted : List String → Bool
  | "" :: _ :: _ => true
  | _ => false

/-- The path that a text names for somebody who works in a folder. -/
def within (folder : Path) (text : String) : Path :=
  let pieces := stringFields '/' text
  ⟨if isRooted pieces then [] else folder.steps, pieces⟩

/-- The path that a text names from here. -/
def join (path : Path) (text : String) : Path :=
  let pieces := stringFields '/' text
  if isRooted pieces then ⟨[], pieces⟩
  else if path.pieces.getLast? = some "" then ⟨path.base, path.pieces.dropLast ++ pieces⟩
  else ⟨path.base, path.pieces ++ pieces⟩

/-- The path read from the root, for somebody who works in a folder. -/
def full (folder path : Path) : Path := if path.base = [] then path else folder.join path.shown

/-- A piece that leads nowhere. -/
def isIdle (piece : String) : Bool := piece = "" || piece = "."

/-- The pieces without the idle ones at the end. -/
def trimmed (pieces : List String) : List String := (pieces.reverse.dropWhile isIdle).reverse

/-- The name at the end of a path, if it ends with one. -/
def fileName? (path : Path) : Option String := (trimmed path.pieces).getLast?.filter (· ≠ "..")

/-- The folder that a path lies in; a path of one name lies in the folder it is read from. -/
def folder (path : Path) : Path :=
  match trimmed (trimmed path.pieces).dropLast with
  | [] => ⟨path.base, if isRooted path.pieces then ["", ""] else ["."]⟩
  | pieces => ⟨path.base, pieces⟩

/-- What a text names from a folder is found by the steps to the folder and then those of the
text. -/
theorem steps_join {path : Path} {text : String}
    (relative : isRooted (stringFields '/' text) = false)
    (closed : path.pieces.getLast? ≠ some "") :
    (path.join text).steps = path.steps ++ stringFields '/' text := by
  simp [join, steps, relative, closed]

end Path

end BrokerAccess.Files
