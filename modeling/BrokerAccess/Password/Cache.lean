/-!
# The hash cache

A bounded memory of derived hashes. A hash is remembered for a fixed time after it was
inserted; a full cache drops what has expired, and then the oldest hash. Entries are kept
newest first, so the oldest is always the last.
-/

namespace BrokerAccess

/-- A remembered hash. -/
structure CachedHash where
  /-- What the hash was derived from. -/
  key : String
  /-- The hash. -/
  hash : List UInt8
  /-- When it was inserted. -/
  insertedAt : Nat
  deriving DecidableEq, Repr

/-- A bounded cache of hashes. -/
structure HashCache where
  /-- How long a hash is remembered. -/
  lifetime : Nat
  /-- How many hashes are remembered; at least one. -/
  capacity : Nat
  /-- The remembered hashes, newest first. -/
  entries : List CachedHash := []
  deriving DecidableEq, Repr

namespace HashCache

/-- An empty cache. -/
def new (lifetime capacity : Nat) : HashCache where
  lifetime
  capacity := max 1 capacity

/-- Nanoseconds in a second, the unit of the cache's clock. -/
def second : Nat := 1000000000

/-- The cache of a service: a thousand hashes for thirty seconds. -/
def standard : HashCache := new (30 * second) 1000

/-- The key of a password, a salt and an iteration count. Base64 has no colon, so keys of
different triples differ. -/
def key (password salt : String) (iterations : Nat) : String :=
  password ++ ":" ++ salt ++ ":" ++ toString iterations

/-- The entry has not expired. -/
def isFresh (c : HashCache) (now : Nat) (e : CachedHash) : Bool := now - e.insertedAt < c.lifetime

/-- The hash under a key, if there is a fresh one. An expired one is dropped. -/
def get (c : HashCache) (now : Nat) (key : String) : Option (List UInt8) × HashCache :=
  match c.entries.find? fun e => e.key = key with
  | none => (none, c)
  | some e =>
    if c.isFresh now e then (some e.hash, c)
    else (none, { c with entries := c.entries.filter fun e => e.key ≠ key })

/-- The entries after room was made for one more: the expired ones are dropped, then the oldest. -/
def makeRoom (c : HashCache) (now : Nat) : List CachedHash :=
  (c.entries.filter (c.isFresh now)).take (c.capacity - 1)

/-- The cache with a hash under a key. Only a new key can push others out. -/
def insert (c : HashCache) (now : Nat) (key : String) (hash : List UInt8) : HashCache :=
  let others :=
    if c.entries.any fun e => e.key = key then c.entries.filter fun e => e.key ≠ key
    else if c.capacity ≤ c.entries.length then c.makeRoom now
    else c.entries
  { c with entries := ⟨key, hash, now⟩ :: others }

/-- The number of entries, expired ones included. -/
def size (c : HashCache) : Nat := c.entries.length

end HashCache

end BrokerAccess
