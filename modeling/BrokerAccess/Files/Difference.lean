import BrokerAccess.Files.Tree

/-!
# Differences of file trees

What it takes to turn one tree into another: what has to go, and then what has to be
made or replaced, folders before what they hold.
-/

namespace BrokerAccess.Files.Tree

/-- The places of a tree where another has nothing, or something of another kind. -/
def gone (old new : Tree) : List (List String) :=
  old.entries.filterMap fun (place, entry) =>
    if new.find? place |>.any fun e => e.isFile = entry.isFile then none else some place

/-- What another tree has at places where this one has nothing, or something else; the ones with
few names first. -/
def fresh (old new : Tree) : List (List String × Entry) :=
  (new.entries.filter fun (place, entry) => old.find? place ≠ some entry).mergeSort
    fun a b => a.1.length ≤ b.1.length

end BrokerAccess.Files.Tree
