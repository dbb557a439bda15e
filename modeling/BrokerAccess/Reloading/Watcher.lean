import BrokerAccess.Files.Change
import BrokerAccess.Journal

/-!
# The file watcher

The folder of the record's file is watched, because the file itself may not exist yet. A
watch sees what is made, altered or moved in the folder, and what is done to the folder
itself. A nudge follows whenever the name of what it sees is the name of the file;
a removal from the folder is no nudge.
-/

namespace BrokerAccess

open Files (Change FileError Path Time Tree)

/-- What a change does to places as watches see it. -/
structure Stir where
  /-- The places that are made, altered or moved: a watch of the folder around one sees it. -/
  inside : List (List String) := []
  /-- The places that are altered, moved, replaced or unlinked: a watch of that very place sees
  it. -/
  itself : List (List String) := []

namespace Stir

/-- The files at a place and below it. -/
def filesBelow (t : Tree) (place : List String) : List (List String) :=
  (t.entries.filter fun e => e.2.isFile && place.isPrefixOf e.1).map Prod.fst

/-- What a change makes of a tree to watches, when it may also set the time of change. -/
def ofChange (t : Tree) (change : Change) (modified : Option Time) : Stir :=
  let after := change.apply 0 modified t
  let own := (after.place? change.path).toList
  let stamped := if modified.isSome then own else []
  match change with
  | .write .. | .touch _ => ⟨after.placesBeyond t ++ own, own⟩
  | .makeFolder _ => ⟨after.placesBeyond t ++ stamped, stamped⟩
  | .remove path => ⟨[], ((t.place? path).map (filesBelow t)).getD []⟩
  | .rename source target =>
    match t.place? source, t.makeFolders 0 target.folder with
    | some start, some (made, _) =>
      if (after.find? start).isSome then ⟨stamped, stamped⟩
      else ⟨start :: own ++ made.placesBeyond t, start :: own⟩
    | _, _ => {}

end Stir

/-- A watched file. -/
structure Watcher where
  /-- The file. -/
  file : Path
  /-- The folder around it, read from the root. -/
  folder : Path
  /-- The place that is watched. -/
  place : List String
  deriving DecidableEq, Repr

namespace Watcher

/-- A watcher of a file for somebody who works in a folder. Something must stand where the file's
folder should. -/
def start (working file : Path) (t : Tree) : Except FileError Watcher × Journal :=
  let folder := Path.full working file.folder
  match t.follow folder, t.entry folder with
  | .ok place, .ok _ => (.ok ⟨file, folder, place⟩, [.event (.watcherStarted file)])
  | .error error, _ => (.error error, [])
  | _, .error error => (.error error, [])

/-- A change of the tree, which may also set a time of change, is worth a nudge. -/
def minds (w : Watcher) (t : Tree) (change : Change) (modified : Option Time) : Bool :=
  let stir := Stir.ofChange t change modified
  w.file.fileName?.any (fun name => stir.inside.contains (w.place ++ [name])) ||
    (stir.itself.contains w.place && w.folder.fileName? = w.file.fileName?)

/-- The file was made or changed between two looks at the tree. -/
def sees (w : Watcher) (before after : Tree) : Bool :=
  after.has w.file && before.entry? w.file ≠ after.entry? w.file

end Watcher

end BrokerAccess
