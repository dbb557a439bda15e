import BrokerAccess.Files.Tree
import BrokerAccess.Record.Defect
import BrokerAccess.Record.Document

/-!
# Record files

Reading, loading and writing the record as a file of a tree. Loading is reading with
validation. A file is only ever written where nothing stands yet, so writing never
destroys anything.
-/

namespace BrokerAccess

open Files (FileError Guard Path Time Tree)

/-- A reason why a document cannot be used. -/
inductive LoadError where
  /-- The file cannot be read. -/
  | file (error : FileError)
  /-- The text is no document, or a known field has the wrong type. -/
  | malformed
  /-- The record has defects. -/
  | defective (defects : List Defect)
  deriving DecidableEq, Repr

/-- The report of a load error. -/
def LoadError.message : LoadError → String
  | .file error => "IO error: " ++ error.message
  | .malformed => "Parse error"
  | .defective defects => "Validation failed: " ++ ", ".intercalate (defects.map Defect.message)

/-- A reason why a record cannot be written. -/
inductive WriteError where
  /-- The file cannot be made. -/
  | file (error : FileError)
  /-- A file has that name. -/
  | taken (path : Path)
  /-- A folder has that name. -/
  | isFolder (path : Path)
  deriving DecidableEq, Repr

/-- The report of a write error. -/
def WriteError.message : WriteError → String
  | .file error => "IO error: " ++ error.message
  | .taken path => "File " ++ path.shown ++ " already exists"
  | .isFolder path =>
    "Could not write config to file " ++ path.shown ++ " because it's a directory"

/-- What a file holds, by a reader of its text. -/
def readDocument {α : Type} (read? : List Char → Option α) (t : Tree) (path : Path) :
    Except LoadError α :=
  match t.text path with
  | .error error => .error (.file error)
  | .ok text =>
    match read? text with
    | none => .error .malformed
    | some value => .ok value

/-- The record in a file, valid or not. -/
def Credentials.ofFile (t : Tree) (path : Path) : Except LoadError Credentials :=
  readDocument Credentials.read? t path

/-- The record in a file, refused if it has defects. -/
def Credentials.load (scheme : PasswordScheme) (t : Tree) (path : Path) :
    Except LoadError Credentials := do
  let record ← Credentials.ofFile t path
  match record.defects scheme with
  | [] => .ok record
  | defects => .error (.defective defects)

/-- The tree with a record written to a new file, if the file system lets that happen. -/
def Credentials.toFile (record : Credentials) (time : Time) (path : Path) (t : Tree)
    (guard : Guard := .off) : Except WriteError Tree :=
  match t.follow path with
  | .error error => .error (.file error)
  | .ok place =>
    match t.find? place with
    | some (.folder _) => .error (.isFolder path)
    | some (.file ..) => .error (.taken path)
    | none =>
      if guard.bars place then .error (.file .denied)
      else .ok (t.put place (.file (Utf8.encode record.write) time))

end BrokerAccess
