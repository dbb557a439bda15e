import BrokerAccess.Record
import BrokerAccess.Text.Fields

/-!
# Defects of a record

A record is accepted when the list of its defects is empty. Roles are looked at first,
then users; every entry is reported, but one that cannot be named, or whose name is
taken, is reported for that alone. A role counts as known to the users of the record
as soon as it has an id, even when the role itself is defective.
-/

namespace BrokerAccess

/-- The constraints of a permission that must be spelled properly. -/
inductive Constraint where
  | activity
  | qos
  | retain
  | sharedGroup
  | sharedSubscription
  deriving DecidableEq, Repr

/-- The constraint as a report names it. -/
def Constraint.label : Constraint → String
  | .activity => "Activity"
  | .qos => "QoS"
  | .retain => "Retain"
  | .sharedGroup => "Shared Group"
  | .sharedSubscription => "Shared Subscription"

/-- A reason to refuse a record. -/
inductive Defect where
  /-- There is no user at all. -/
  | noUsers
  /-- There is no role at all. -/
  | noRoles
  /-- A role without an id. -/
  | unnamedRole
  /-- A role whose id an earlier role has. -/
  | repeatedRole (id : String)
  /-- A role that grants nothing. -/
  | emptyRole (id : String)
  /-- A permission of a role without a topic filter. -/
  | missingTopic (role : String)
  /-- A permission of a role with a constraint that means nothing. -/
  | badConstraint (constraint : Constraint) (role : String)
  /-- A user without a name. -/
  | unnamedUser
  /-- A user whose name an earlier user has. -/
  | repeatedUser (name : String)
  /-- A user without a password. -/
  | missingPassword (user : String)
  /-- A user whose stored password cannot be a hashed one. -/
  | badPassword (user : String)
  /-- A user without roles. -/
  | missingRoles (user : String)
  /-- An empty role id in a user's list. -/
  | emptyRoleId (user : String)
  /-- A role id that is the id of no role. -/
  | unknownRole (role user : String)
  deriving DecidableEq, Repr

/-- The report of a defect. -/
def Defect.message : Defect → String
  | .noUsers => "No Users found in configuration file"
  | .noRoles => "No Roles found in configuration file"
  | .unnamedRole => "A Role is missing an ID"
  | .repeatedRole id => "Duplicate ID '" ++ id ++ "' for role"
  | .emptyRole id => "Role '" ++ id ++ "' is missing permissions"
  | .missingTopic role =>
    "A Permission for role with id '" ++ role ++ "' is missing a topic filter"
  | .badConstraint constraint role =>
    "Invalid value for " ++ constraint.label ++ " in Permission for role with id '" ++ role ++ "'"
  | .unnamedUser => "A User is missing a name"
  | .repeatedUser name => "Duplicate Name '" ++ name ++ "' for user"
  | .missingPassword user => "User '" ++ user ++ "' is missing a password"
  | .badPassword user => "User '" ++ user ++ "' has invalid password"
  | .missingRoles user => "User '" ++ user ++ "' is missing roles"
  | .emptyRoleId user => "Invalid role for user '" ++ user ++ "'"
  | .unknownRole role user => "Unknown role '" ++ role ++ "' for user '" ++ user ++ "'"

/-- A text that is there and not empty. -/
def present (text : Option String) : Option String := text.filter (· ≠ "")

/-- A list that is there and not empty. -/
def occupied {α : Type} (list : Option (List α)) : Option (List α) :=
  list.filter fun xs => !xs.isEmpty

/-- A stored password can be a hashed one when its salt and its iteration count are not empty. -/
def looksHashed (password : String) : Bool :=
  match fields ':' password.toList with
  | salt :: iterations :: _ => !salt.isEmpty && !iterations.isEmpty
  | _ => false

/-- The defects of a permission of the role `role`. -/
def Permission.defects (role : String) (p : Permission) : List Defect :=
  (if (present p.topic).isNone then [.missingTopic role] else []) ++
  (if p.activity.isNone then [.badConstraint .activity role] else []) ++
  (if p.qos.isNone then [.badConstraint .qos role] else []) ++
  (if p.retain.isNone then [.badConstraint .retain role] else []) ++
  (if (present p.sharedGroup).isNone then [.badConstraint .sharedGroup role] else []) ++
  (if p.sharedSubscription.isNone then [.badConstraint .sharedSubscription role] else [])

/-- The defects of a role that has the id `id` to itself. -/
def Role.defects (id : String) (r : Role) : List Defect :=
  match occupied r.permissions with
  | none => [.emptyRole id]
  | some permissions => permissions.flatMap (Permission.defects id)

/-- The defects of named entries, when the names in `taken` belong to earlier ones. An entry that
cannot be named is reported for that, one whose name is taken for that, and any other one for what
`own` finds in it. -/
def entryDefects {α : Type} (name : α → Option String) (unnamed : Defect)
    (repeated : String → Defect) (own : String → α → List Defect) (taken : List String) :
    List α → List Defect
  | [] => []
  | entry :: rest =>
    match present (name entry) with
    | none => unnamed :: entryDefects name unnamed repeated own taken rest
    | some key =>
      if key ∈ taken then repeated key :: entryDefects name unnamed repeated own taken rest
      else own key entry ++ entryDefects name unnamed repeated own (key :: taken) rest

/-- The defects of the roles. -/
def roleDefects (roles : List Role) : List Defect :=
  entryDefects Role.id .unnamedRole .repeatedRole (fun id r => r.defects id) [] roles

/-- The ids that users may refer to. -/
def knownRoles (roles : List Role) : List String := roles.filterMap fun r => present r.id

/-- The defects of the role list of the user `user`. -/
def grantDefects (known : List String) (user : String) (granted : List String) : List Defect :=
  granted.flatMap fun role =>
    if role = "" then [.emptyRoleId user]
    else if role ∈ known then []
    else [.unknownRole role user]

/-- The defects of a user that has the name `name` to itself. The first of password, form of the
password and role list that is not in order is the only one reported. -/
def User.defects (scheme : PasswordScheme) (known : List String) (name : String) (u : User) :
    List Defect :=
  match present u.password with
  | none => [.missingPassword name]
  | some password =>
    if scheme = .hashed ∧ looksHashed password = false then [.badPassword name]
    else
      match occupied u.roles with
      | none => [.missingRoles name]
      | some granted => grantDefects known name granted

/-- The defects of the users. -/
def userDefects (scheme : PasswordScheme) (known : List String) (users : List User) : List Defect :=
  entryDefects User.name .unnamedUser .repeatedUser (fun name u => u.defects scheme known name) []
    users

/-- All defects of a record. Without users, or without roles, nothing can be cross-checked and
only that is reported. -/
def Credentials.defects (scheme : PasswordScheme) (c : Credentials) : List Defect :=
  match occupied c.users, occupied c.roles with
  | some users, some roles =>
    roleDefects roles ++ userDefects scheme (knownRoles roles) users
  | users, roles =>
    (if users.isNone then [.noUsers] else []) ++ (if roles.isNone then [.noRoles] else [])

end BrokerAccess
