import BrokerAccess.Journal

/-!
# The archive

Replaced records are kept in a folder of their own, one new file each, named after the
time of day. The folder is made when it is missing; a file of its name gives way. An
existing file in it is never overwritten. The file system may not let any of this happen.
-/

namespace BrokerAccess

open Files (Guard Path Time Tree)

/-- The folder of replaced records. -/
structure Archive where
  /-- The folder. -/
  folder : Path
  deriving DecidableEq, Repr

/-- The time at which a record is archived. -/
structure ArchiveTime where
  /-- The time of change that new entries get. -/
  time : Time
  /-- The time of day as file names show it. -/
  label : String
  deriving DecidableEq, Repr

/-- What archiving came to. -/
structure Archiving where
  /-- The new file, none if there was nothing to archive. -/
  result : Except ArchiveError (Option Path)
  /-- The tree afterwards. -/
  tree : Tree
  /-- What there is to report. -/
  journal : Journal

namespace Archive

/-- The archive below a home folder. -/
def ofHome (home : Path) : Archive := ⟨home.join "credentials-archive"⟩

/-- The file for a record archived at a time. -/
def file (a : Archive) (moment : ArchiveTime) : Path :=
  a.folder.join (moment.label ++ "-credentials.toml")

/-- The tree without what stands in the place of the archive folder, if that can be taken away, and
what there is to report. -/
def cleared (a : Archive) (t : Tree) (guard : Guard := .off) : Option Tree × Journal :=
  match t.place? a.folder with
  | none => (some t, [])
  | some place =>
    (if guard.holds place then none else some (t.remove place),
      [.event (.archiveFolderIsFile a.folder)])

/-- The tree with the archive folder in it, or why there is none and the tree that is left, and what
there is to report. Where the folder cannot be made, those on the way to it may have been. -/
def prepare (a : Archive) (time : Time) (t : Tree) (guard : Guard := .off) :
    Except (ArchiveError × Tree) Tree × Journal :=
  if t.isFolder a.folder then (.ok t, [])
  else
    match a.cleared t guard with
    | (none, removal) => (.error (.notDeleted a.folder, t), removal)
    | (some cleared, removal) =>
      match Tree.paveFrom time guard [] a.folder.steps cleared with
      | (left, none) => (.error (.noFolder a.folder, left), removal)
      | (made, some _) => (.ok made, removal ++ [.event (.archiveFolderMade a.folder)])

/-- Archive a record. -/
def keep (a : Archive) (moment : ArchiveTime) (record : Option Credentials) (t : Tree)
    (guard : Guard := .off) : Archiving :=
  match record with
  | none => ⟨.ok none, t, [.event .nothingToArchive]⟩
  | some record =>
    match a.prepare moment.time t guard with
    | (.error (error, left), journal) => ⟨.error error, left, journal⟩
    | (.ok ready, journal) =>
      match record.toFile moment.time (a.file moment) ready guard with
      | .error error => ⟨.error (.write error), ready, journal⟩
      | .ok written =>
        ⟨.ok (some (a.file moment)), written, journal ++ [.event (.archived (a.file moment))]⟩

end Archive

end BrokerAccess
