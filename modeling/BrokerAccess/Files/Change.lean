import BrokerAccess.Files.Tree

/-!
# Changes of a file tree

What others do to the tree while the service runs. A change happens at some time, which
becomes the time of change of what it makes, and of every folder that gains or loses a
name by it; it may set the time of its own path to another one. A change that the tree
does not allow leaves it as it is. The service looks at no folder that it changes itself,
so only changes by others keep the times of folders.
-/

namespace BrokerAccess.Files

/-- What is done to a tree. -/
inductive Change where
  /-- Replace the file at a path, or make it and the folders on the way. -/
  | write (path : Path) (content : List UInt8)
  /-- Make a folder and the folders on the way. -/
  | makeFolder (path : Path)
  /-- Change the time of what stands at a path; an empty file is made where nothing does. -/
  | touch (path : Path)
  /-- Remove what stands at a path and all that lies below it. -/
  | remove (path : Path)
  /-- Move what stands at a path, with all that lies below it, to another. -/
  | rename (source target : Path)
  deriving DecidableEq, Repr

namespace Tree

/-- The tree with the time of change of a place set. -/
def stamp (t : Tree) (time : Time) (place : List String) : Tree :=
  match t.find? place with
  | some entry => if place = [] then t else t.put place (entry.stamped time)
  | none => t

/-- The tree in which the folder around a place has gained or lost a name. -/
def relist (t : Tree) (time : Time) (place : List String) : Tree := t.stamp time place.dropLast

/-- The places of a tree where another has nothing. -/
def placesBeyond (t before : Tree) : List (List String) :=
  (t.entries.map Prod.fst).filter fun place => (before.find? place).isNone

/-- The tree in which the folders around all that came about since another have gained names. -/
def grownFrom (t before : Tree) (time : Time) : Tree :=
  (t.placesBeyond before).foldl (fun t place => t.relist time place) t

/-- Nothing lies below a place. -/
def isBare (t : Tree) (place : List String) : Bool :=
  t.entries.all fun e => e.1 = place || !place.isPrefixOf e.1

end Tree

namespace Change

/-- The path whose time of change a change may set. -/
def path : Change → Path
  | .write path _ => path
  | .makeFolder path => path
  | .touch path => path
  | .remove path => path
  | .rename _ target => target

/-- The tree with a file at a path, and the folders on the way made. -/
def writeFile (time : Time) (path : Path) (content : List UInt8) (t : Tree) : Tree :=
  if t.isFolder path then t
  else
    match t.makeFolders time path.folder with
    | none => t
    | some (made, _) =>
      match made.follow path with
      | .error _ => made
      | .ok place => made.put place (.file content time)

/-- The tree with one subtree moved. -/
def moved (source target : List String) (t : Tree) : Tree :=
  ⟨(t.remove target).entries.map fun (place, entry) =>
    if source.isPrefixOf place then (target ++ place.drop source.length, entry)
    else (place, entry)⟩

/-- What stands at one place may take the other: nothing does, or a file and it is one, or a bare
folder and it is one. -/
def mayReplace (t : Tree) (source target : List String) : Bool :=
  match t.find? source, t.find? target with
  | some _, none => true
  | some (.file ..), some (.file ..) => true
  | some (.folder _), some (.folder _) => t.isBare target
  | _, _ => false

/-- The tree after a move between two paths. -/
def renamed (time : Time) (source target : Path) (t : Tree) : Tree :=
  match t.place? source, t.makeFolders time target.folder with
  | some start, some (made, _) =>
    match made.follow target with
    | .error _ => t
    | .ok place =>
      if start.isPrefixOf place || !mayReplace made start place then t
      else
        ((moved start place (made.grownFrom t time)).relist time start).relist time place
  | _, _ => t

/-- What a change at a time does to a tree. -/
def run (time : Time) (change : Change) (t : Tree) : Tree :=
  match change with
  | .write path content => (writeFile time path content t).grownFrom t time
  | .makeFolder path =>
    match t.makeFolders time path with
    | none => t
    | some (made, _) => made.grownFrom t time
  | .touch path =>
    match t.place? path with
    | some place => t.stamp time place
    | none => (writeFile time path [] t).grownFrom t time
  | .remove path =>
    match t.place? path with
    | some place => if place = [] then t else (t.remove place).relist time place
    | none => t
  | .rename source target => renamed time source target t

/-- What a change at a time does to a tree when it may also set the time of change. -/
def apply (change : Change) (now : Time) (modified : Option Time) (t : Tree) : Tree :=
  let t := change.run now t
  match modified, t.place? change.path with
  | some time, some place => t.stamp time place
  | _, _ => t

end Change

end BrokerAccess.Files
