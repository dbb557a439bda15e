import BrokerAccess.Files.Path
import BrokerAccess.Text.Utf8

/-!
# File trees

A snapshot of files and folders below a root. Every entry has the time of its last
change, in nanoseconds. The root itself is always a folder. An entry is named by the names
on its way from the root, and a tree is seen through `Tree.find?`; each operation is
described by what it does to that view. What a path leads to depends on the tree, since
only folders can be passed on the way. What the file system refuses to do to a tree is said
apart from it, by a guard.
-/

namespace BrokerAccess.Files

/-- A point in time, in nanoseconds since the beginning of 1970. -/
abbrev Time := Int

/-- What stands at a place. -/
inductive Entry where
  /-- A file. -/
  | file (content : List UInt8) (modified : Time)
  /-- A folder. -/
  | folder (modified : Time)
  deriving DecidableEq, Repr

/-- When an entry was last changed. -/
def Entry.modified : Entry → Time
  | .file _ modified => modified
  | .folder modified => modified

/-- The entry is a file. -/
def Entry.isFile : Entry → Bool
  | .file .. => true
  | .folder _ => false

/-- The entry with another time of change. -/
def Entry.stamped (time : Time) : Entry → Entry
  | .file content _ => .file content time
  | .folder _ => .folder time

/-- A reason why a file cannot be read or a path cannot be followed. -/
inductive FileError where
  /-- Nothing stands there. -/
  | notFound
  /-- A folder stands where a file should. -/
  | isFolder
  /-- A file stands where a folder should. -/
  | notFolder
  /-- A name is longer than names can be. -/
  | nameTooLong
  /-- The file system does not let it happen. -/
  | denied
  /-- The content is no text. -/
  | invalidText
  deriving DecidableEq, Repr

/-- The report of a file error. -/
def FileError.message : FileError → String
  | .notFound => "No such file or directory (os error 2)"
  | .isFolder => "Is a directory (os error 21)"
  | .notFolder => "Not a directory (os error 20)"
  | .nameTooLong => "File name too long (os error 36)"
  | .denied => "Permission denied (os error 13)"
  | .invalidText => "stream did not contain valid UTF-8"

/-- Files and folders by the names that lead to them from the root. -/
structure Tree where
  /-- What stands at each place; the root is not listed. -/
  entries : List (List String × Entry) := []
  deriving DecidableEq, Repr

/-- What the file system does not let happen to a tree, whatever the tree holds. All of it can be
read. -/
structure Guard where
  /-- Nothing can be put into the folder at this place, or taken out of it. -/
  locked : List String → Bool := fun _ => false
  /-- What stands at this place cannot be taken away. -/
  pinned : List String → Bool := fun _ => false

namespace Guard

/-- Everything can happen. -/
def off : Guard := {}

/-- Nothing can be put at this place, since its folder is locked. -/
def bars (guard : Guard) (place : List String) : Bool := guard.locked place.dropLast

/-- What stands at this place cannot be taken away, since its folder is locked or since it is pinned
itself. -/
def holds (guard : Guard) (place : List String) : Bool := guard.bars place || guard.pinned place

@[simp] theorem bars_off (place : List String) : off.bars place = false := rfl

@[simp] theorem holds_off (place : List String) : off.holds place = false := rfl

end Guard

/-- The longest name that an entry can have, in bytes. -/
def nameLimit : Nat := 255

/-- The place that one step leads to from a folder; the root is its own folder above. -/
def stepFrom (place : List String) (step : String) : List String :=
  if Path.isIdle step then place else if step = ".." then place.dropLast else place ++ [step]

namespace Tree

/-- What stands at a place. -/
def find? (t : Tree) (place : List String) : Option Entry :=
  if place = [] then some (.folder 0) else t.entries.lookup place

/-- The place that steps lead to from a place. Each step must start at a folder; nothing needs to
stand where they end. -/
def followFrom (t : Tree) : (place : List String) → (steps : List String) →
    Except FileError (List String)
  | place, [] => .ok place
  | place, step :: steps =>
    match t.find? place with
    | some (.folder _) =>
      if nameLimit < step.utf8ByteSize then .error .nameTooLong
      else t.followFrom (stepFrom place step) steps
    | some (.file ..) => .error .notFolder
    | none => .error .notFound

/-- The place that a path leads to. -/
def follow (t : Tree) (path : Path) : Except FileError (List String) := t.followFrom [] path.steps

/-- The place of what a path leads to, if it leads to anything. -/
def place? (t : Tree) (path : Path) : Option (List String) :=
  (t.follow path).toOption.filter fun place => (t.find? place).isSome

/-- What a path leads to. -/
def entry (t : Tree) (path : Path) : Except FileError Entry := do
  match t.find? (← t.follow path) with
  | some entry => .ok entry
  | none => .error .notFound

/-- What a path leads to, if anything. -/
def entry? (t : Tree) (path : Path) : Option Entry := (t.entry path).toOption

/-- A path leads to something. -/
def has (t : Tree) (path : Path) : Bool := (t.entry? path).isSome

/-- A path leads to a file. -/
def isFile (t : Tree) (path : Path) : Bool := (t.entry? path).any Entry.isFile

/-- A path leads to a folder. -/
def isFolder (t : Tree) (path : Path) : Bool := (t.entry? path).any fun e => !e.isFile

/-- When what a path leads to was last changed. -/
def modified (t : Tree) (path : Path) : Except FileError Time := (t.entry path).map Entry.modified

/-- The bytes of the file that a path leads to. -/
def content (t : Tree) (path : Path) : Except FileError (List UInt8) := do
  match ← t.entry path with
  | .file content _ => .ok content
  | .folder _ => .error .isFolder

/-- The text of the file that a path leads to. -/
def text (t : Tree) (path : Path) : Except FileError (List Char) := do
  match Utf8.decode? (← t.content path) with
  | some text => .ok text
  | none => .error .invalidText

/-- The tree with an entry at a place, instead of what stood there. -/
def put (t : Tree) (place : List String) (entry : Entry) : Tree :=
  ⟨(place, entry) :: t.entries.filter fun e => !decide (e.1 = place)⟩

/-- The tree without a place and all that lies below it. -/
def remove (t : Tree) (place : List String) : Tree :=
  ⟨t.entries.filter fun e => !place.isPrefixOf e.1⟩

/-- The tree in which steps from a place pass folders, every missing one made, and the place that
they lead to. If a file, a name too long or a locked folder is in the way, the folders before it are
made and there is no place. -/
def paveFrom (time : Time) (guard : Guard) : (place : List String) → (steps : List String) → Tree →
    Tree × Option (List String)
  | place, [], t => (t, some place)
  | place, step :: steps, t =>
    let next := stepFrom place step
    match t.find? next with
    | none =>
      if nameLimit < step.utf8ByteSize ∨ guard.bars next = true then (t, none)
      else paveFrom time guard next steps (t.put next (.folder time))
    | some (.folder _) => paveFrom time guard next steps t
    | some (.file ..) => (t, none)

/-- The tree in which a path leads to a folder, every missing folder on the way made, and the place
of that folder. None if a file or a name too long is in the way. -/
def makeFolders (t : Tree) (time : Time) (path : Path) : Option (Tree × List String) :=
  match paveFrom time .off [] path.steps t with
  | (made, some place) => some (made, place)
  | (_, none) => none

/-- Looking up what was put finds it, and every other place as before. -/
theorem find?_put (t : Tree) (place other : List String) (entry : Entry) (h : place ≠ []) :
    (t.put place entry).find? other = if other = place then some entry else t.find? other := by
  unfold find? put
  by_cases ho : other = place
  · subst ho
    simp only [h, if_false, if_true, List.lookup_cons, BEq.rfl]
  · have hne : (other == place) = false := beq_eq_false_iff_ne.2 ho
    simp only [ho, if_false, List.lookup_cons, hne]
    congr 1
    induction t.entries with
    | nil => rfl
    | cons e rest ih =>
      obtain ⟨key, value⟩ := e
      by_cases hk : key = place
      · subst hk
        simpa only [List.filter_cons, decide_true, Bool.not_true, Bool.false_eq_true, if_false,
          List.lookup_cons, hne] using ih
      · simp only [List.filter_cons, hk, decide_false, Bool.not_false, if_true, List.lookup_cons,
          ih]

/-- Steps are followed one part after the other. -/
theorem followFrom_append (t : Tree) (place first second : List String) :
    t.followFrom place (first ++ second) =
      (t.followFrom place first).bind fun middle => t.followFrom middle second := by
  induction first generalizing place with
  | nil => rfl
  | cons step steps ih =>
    rw [List.cons_append, followFrom, followFrom]
    split
    · split
      · rfl
      · exact ih _
    · rfl
    · rfl

end Tree

end BrokerAccess.Files
