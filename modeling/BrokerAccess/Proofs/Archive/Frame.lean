import BrokerAccess.Proofs.Archive.Apart

/-!
# What archiving does to a tree

Archiving a record adds one file to the archive folder, or no file at all. Whatever stands in its
way, whatever the file system does not let happen and however it ends, all other entries of the tree
stay as they were, in the archive and outside it; but folders may be made on the way to the archive
folder, and a file in the place of this folder gives way to it, if it can be deleted. A home that is
a folder is all that it takes for a record to be archived where everything can happen, as long as
its file has a name that is free and not too long.
-/

namespace BrokerAccess

open Files (Entry Guard Path Time Tree)
open Files.Tree (placeAfter)

namespace Archive

variable {home : Path} {t t' ready : Tree} {below : List String} {time : Time} {guard : Guard}

/-- A file stands in the place of the archive folder and can be taken away. -/
def GivesWay (a : Archive) (guard : Guard) (t : Tree) : Prop :=
  t.isFile a.folder = true ∧ guard.holds a.place = false

/-- A file stands in the place of the archive folder and cannot be taken away. -/
def IsStuck (a : Archive) (guard : Guard) (t : Tree) : Prop :=
  t.isFile a.folder = true ∧ guard.holds a.place = true

/-- What it may take to make room in a tree for the archive folder. -/
structure MakesRoom (a : Archive) (time : Time) (guard : Guard) (t t' : Tree) : Prop where
  /-- What stood still stands, unless it is a file in the place of the folder that gives way. -/
  kept : ∀ place entry, t.find? place = some entry →
    ¬(place = a.place ∧ a.GivesWay guard t) → t'.find? place = some entry
  /-- Such a file gives way to the folder. -/
  replaced : a.GivesWay guard t → t'.find? a.place = some (.folder time)
  /-- Where a file cannot give way, nothing changes. -/
  stuck : a.IsStuck guard t → t' = t
  /-- What is new are folders on the way. -/
  made : ∀ place entry, t'.find? place = some entry → t.find? place = some entry ∨
    entry = .folder time ∧ ∃ passed, passed <+: a.folder.steps ∧ place = placeAfter [] passed
  /-- No file is new. -/
  filesStood : t.FilesStood t'
  /-- Every entry stands in a folder. -/
  isClosed : t'.IsClosed

/-- Where there is room, nothing changes. -/
theorem MakesRoom.refl {a : Archive} (time : Time) (ht : t.IsClosed)
    (hstays : ¬a.GivesWay guard t) : a.MakesRoom time guard t t where
  kept := fun _ _ h _ => h
  replaced := fun h => absurd h hstays
  stuck := fun _ => rfl
  made := fun _ _ h => Or.inl h
  filesStood := .refl t
  isClosed := ht

end Archive

end BrokerAccess
