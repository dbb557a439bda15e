import BrokerAccess.Decision
import BrokerAccess.Password.Verifier
import BrokerAccess.Template
import BrokerAccess.Text.Utf8

/-!
# The directory

Look-ups in a record: the roles of a user who presents a password, and what roles grant
to a connection. The directory is rebuilt as a whole from each new record. Of entries
with one name the last counts, and entries without a name cannot be found.
-/

namespace BrokerAccess

/-- Entries by name. -/
abbrev Index (α : Type) := List (String × α)

/-- The index with an entry in the place of an earlier one of its name. -/
def Index.enter {α : Type} (name : α → Option String) (index : Index α) (entry : α) : Index α :=
  match name entry with
  | none => index
  | some key => (key, entry) :: index.filter fun old => old.1 ≠ key

/-- The index of a list. A later entry takes the place of an earlier one of its name. -/
def indexed {α : Type} (name : α → Option String) (list : List α) : Index α :=
  list.foldl (Index.enter name) []

/-- The look-ups of a record, and the cache that speeds them up. -/
structure Directory where
  /-- How passwords are stored. -/
  scheme : PasswordScheme
  /-- The users by name. -/
  users : Index User := []
  /-- The roles by id. -/
  roles : Index Role := []
  /-- The hashes derived lately. -/
  cache : HashCache := .standard

/-- What a look-up of roles came to. -/
structure RoleLookup where
  /-- The granted roles, none unless the user exists and the password matches. -/
  roles : Option (List String)
  /-- The cache afterwards. -/
  cache : HashCache
  /-- What there is to report. -/
  journal : Journal
  deriving DecidableEq, Repr

namespace Directory

/-- The directory rebuilt from a record. Derived hashes stay remembered. -/
def update (d : Directory) (record : Credentials) : Directory :=
  { d with users := indexed User.name record.userList, roles := indexed Role.id record.roleList }

/-- What the rebuilding from a record reports. -/
def updateJournal (record : Credentials) : Journal :=
  [.event (.directoryBuilt (indexed User.name record.userList).length
    (indexed Role.id record.roleList).length)]

/-- Check a presented password against a user's stored one. Bytes that are no text match no plain
password that lacks U+FFFD. -/
def check (d : Directory) (now : Nat) (password : List UInt8) (stored : String) : Verification :=
  match d.scheme with
  | .hashed => verify Password.hash now (Base64.write password) stored d.cache
  | .plain => ⟨Utf8.decodeLossy password = stored.toList, d.cache, []⟩

/-- The roles of a user who presents a password. -/
def rolesOf (d : Directory) (now : Nat) (user : String) (password : List UInt8) : RoleLookup :=
  if d.users.isEmpty || d.roles.isEmpty then
    ⟨none, d.cache, [.event (.directoryEmpty user)]⟩
  else
    match (d.users.lookup user).bind fun u => u.password.map fun stored => (u, stored) with
    | none => ⟨none, d.cache, []⟩
    | some (u, stored) =>
      let verification := d.check now password stored
      ⟨if verification.matched then some (u.roles.getD []) else none, verification.cache,
        verification.journal⟩

/-- What a permission grants to a connection; without a topic filter it grants nothing. -/
def grant (clientId userName : String) (p : Permission) : Option Grant :=
  p.topic.map fun topic =>
    { topicFilter := Template.substitute topic clientId userName
      activity := p.activity.getD .all
      qos := p.qos.getD .all
      retain := p.retain.getD .all
      sharedSubscription := p.sharedSubscription.getD .all
      sharedGroup := p.sharedGroup.getD anyGroup
      access := .allow }

/-- What roles grant to a connection, role by role and permission by permission. Unknown roles are
skipped. -/
def grants (d : Directory) (clientId userName : String) (roles : List String) : List Grant :=
  roles.flatMap fun id =>
    match d.roles.lookup id with
    | none => []
    | some role => (role.permissions.getD []).filterMap (grant clientId userName)

/-- What the look-up of grants reports. -/
def grantsJournal (d : Directory) (roles : List String) : Journal :=
  roles.flatMap fun id => if (d.roles.lookup id).isNone then [.event (.roleUnknown id)] else []

end Directory

end BrokerAccess
