import BrokerAccess.Record.File

/-!
# Archive errors

Archiving fails when a file in the place of its folder cannot be deleted, when the folder
cannot be made and when the file cannot be written; in each case nothing that was archived
before is touched.
-/

namespace BrokerAccess

open Files (Path)

/-- A reason why a record cannot be archived. -/
inductive ArchiveError where
  /-- A file in the place of the archive folder cannot be deleted. -/
  | notDeleted (path : Path)
  /-- The archive folder cannot be made. -/
  | noFolder (path : Path)
  /-- The file cannot be written. -/
  | write (error : WriteError)
  deriving DecidableEq, Repr

/-- The report of an archive error. -/
def ArchiveError.message : ArchiveError → String
  | .notDeleted path => "Could not delete file " ++ path.shown
  | .noFolder path => "Could not create credentials archive folder " ++ path.shown
  | .write error => error.message

end BrokerAccess
