import BrokerAccess.Archive
import BrokerAccess.Placement

/-!
# The store

The store keeps one accepted record in effect while its file changes. A reload looks at
the file; only a changed file with a record free of defects replaces the record in
effect, and then the replaced one is archived and the subscribers are told, in the order
of their subscription. In every other case the record in effect stays. Archiving is best
effort and never stands in the way of a new record.
-/

namespace BrokerAccess

open Files (Path Time Tree)

/-- Who is told about a new record. -/
inductive Recipient where
  /-- The directory that answers look-ups. -/
  | directory
  /-- Anybody else, by name. -/
  | observer (id : String)
  deriving DecidableEq, Repr

/-- A subscription to new records. -/
structure Subscriber where
  /-- Who subscribed. -/
  recipient : Recipient
  /-- The subscriber fails on being told of this change. -/
  fails : Option Credentials → Credentials → Bool := fun _ _ => false

/-- A call of a subscriber. -/
structure Notice where
  /-- Who is called. -/
  recipient : Recipient
  /-- The record that was in effect. -/
  old : Option Credentials
  /-- The record that is in effect now. -/
  new : Credentials
  deriving DecidableEq, Repr

/-- The calls of subscribers for one change, in order, and whether all came to their end. A
subscriber that fails is called, and keeps those after it from being called. -/
def deliver (old : Option Credentials) (new : Credentials) : List Subscriber → List Notice × Bool
  | [] => ([], true)
  | s :: rest =>
    if s.fails old new then ([⟨s.recipient, old, new⟩], false)
    else
      let (notices, finished) := deliver old new rest
      (⟨s.recipient, old, new⟩ :: notices, finished)

/-- The record in effect and what it takes to keep it current. No field tells of a lock: reloads
take turns, and a lock that was held by a reload that a subscriber cut off is taken all the same,
with what it guards as that reload left it. -/
structure Store where
  /-- Where the record's file stands. -/
  placement : Placement
  /-- Where replaced records go. -/
  archive : Archive
  /-- How the record's passwords are stored. -/
  scheme : PasswordScheme
  /-- The record in effect. -/
  current : Option Credentials := none
  /-- The time of change of the file that it was read from. -/
  lastRead : Option Time := none
  /-- Who is told about new records, in order of subscription. -/
  subscribers : List Subscriber := []

/-- What a reload came to. -/
structure Reload where
  /-- The store afterwards. -/
  store : Store
  /-- The tree afterwards. -/
  tree : Tree
  /-- How the reload ended, none if a subscriber failed. -/
  outcome : Option Outcome
  /-- The calls of subscribers, in order. -/
  notices : List Notice := []
  /-- What there is to report. -/
  journal : Journal

namespace Store

/-- The record in a file, if it is there and accepted, with the file's time of change. -/
def accept (s : Store) (t : Tree) (path : Path) : Option (Credentials × Time) × Journal :=
  match t.modified path with
  | .error error => (none, [.event (.fileUnavailable path error)])
  | .ok time =>
    match Credentials.load s.scheme t path with
    | .ok record => (some (record, time), [])
    | .error (.defective defects) => (none, [.event (.recordDefective path defects)])
    | .error error => (none, [.event (.recordUnusable path error)])

/-- A store below a home folder, with the record that the tree holds. -/
def ofTree (home : Path) (scheme : PasswordScheme) (t : Tree) : Store × Journal :=
  let empty : Store := ⟨.ofCredentials home, .ofHome home, scheme, none, none, []⟩
  let path := empty.placement.path t
  let notice := empty.placement.notice t
  let store := { empty with placement := empty.placement.seen t }
  match store.accept t path with
  | (some (record, time), journal) =>
    ({ store with current := some record, lastRead := some time },
      notice ++ journal ++ [.event (.recordLoaded path)])
  | (none, journal) => (store, notice ++ journal ++ [.event (.noRecord path)])

/-- The store with one more subscriber. -/
def subscribe (s : Store) (subscriber : Subscriber) : Store :=
  { s with subscribers := s.subscribers ++ [subscriber] }

/-- The location that the next reload reads, and the store that has looked it up. -/
def locate (s : Store) (t : Tree) : Path × Store × Journal :=
  (s.placement.path t, { s with placement := s.placement.seen t }, s.placement.notice t)

/-- A file changed at this time is no news to the store. -/
def isKnown (s : Store) (time : Time) : Bool :=
  s.current.isSome && s.lastRead.any fun last => decide (time ≤ last)

/-- Put a new record in effect: archive the replaced one, then tell the subscribers. -/
def promote (s : Store) (moment : ArchiveTime) (t : Tree) (record : Credentials) (time : Time) :
    Reload :=
  let archiving := s.archive.keep moment s.current t
  let failure : Journal :=
    match archiving.result with
    | .error error => [.event (.archiveFailed error)]
    | .ok _ => []
  let (notices, finished) := deliver s.current record s.subscribers
  { store := { s with current := some record, lastRead := some time }
    tree := archiving.tree
    outcome := if finished then some .reloaded else none
    notices
    journal := .event .recordChanged :: archiving.journal ++ failure }

/-- One look at the record's file, without the count. Whatever stands in a tree has a time of
change, and a look sees one tree from its beginning to its end, so it never fails for want of that
time. -/
def look (s : Store) (moment : ArchiveTime) (t : Tree) : Reload :=
  let (path, s, notice) := s.locate t
  match t.entry? path with
  | none => ⟨s, t, some .missing, [], notice ++ [.event (.noFile path)]⟩
  | some entry =>
    if s.isKnown entry.modified then
      ⟨s, t, some .unchanged, [], notice ++ [.event (.fileUnchanged path)]⟩
    else
      match s.accept t path with
      | (none, journal) =>
        ⟨s, t, some .rejected, [], notice ++ .event (.fileChanged path) :: journal⟩
      | (some (record, time), _) =>
        let reload := s.promote moment t record time
        { reload with journal := notice ++ .event (.fileChanged path) :: reload.journal }

/-- Look at the record's file once. A reload that a subscriber cut off is not counted. -/
def reload (s : Store) (moment : ArchiveTime) (t : Tree) : Reload :=
  let reload := s.look moment t
  let count : Journal :=
    match reload.outcome with
    | some outcome => [.count (.reload outcome)]
    | none => []
  { reload with journal := reload.journal ++ count }

end Store

end BrokerAccess
