/-!
# Credentials

The record that decides who may connect: users, and the roles that grant them topic
permissions. A field that a document may leave out, or spell in a way that means
nothing, is an `Option`, so a defective record is still a record and every defect of
it can be listed.
-/

namespace BrokerAccess

/-- How the passwords of a record are stored. -/
inductive PasswordScheme where
  /-- As `salt:iterations:hash`. -/
  | hashed
  /-- As they are. -/
  | plain
  deriving DecidableEq, Repr, Inhabited

/-- What a client does with a topic. -/
inductive Activity where
  | publish
  | subscribe
  | all
  deriving DecidableEq, Repr

/-- The service levels that a permission covers. -/
inductive Qos where
  | zero
  | one
  | two
  | zeroOne
  | oneTwo
  | zeroTwo
  | all
  deriving DecidableEq, Repr

/-- Whether a permission covers retained messages. -/
inductive Retain where
  | retained
  | notRetained
  | all
  deriving DecidableEq, Repr

/-- Whether a permission covers shared subscriptions. -/
inductive SharedSubscription where
  | shared
  | notShared
  | all
  deriving DecidableEq, Repr

/-- The name of a password scheme in a document. -/
def PasswordScheme.name : PasswordScheme → String
  | .hashed => "HASHED"
  | .plain => "PLAIN"

/-- The word for a password scheme in a log. -/
def PasswordScheme.word : PasswordScheme → String
  | .hashed => "Hashed"
  | .plain => "Plain"

/-- The name of an activity in a document. -/
def Activity.name : Activity → String
  | .publish => "PUBLISH"
  | .subscribe => "SUBSCRIBE"
  | .all => "ALL"

/-- The name of a set of service levels in a document. -/
def Qos.name : Qos → String
  | .zero => "ZERO"
  | .one => "ONE"
  | .two => "TWO"
  | .zeroOne => "ZERO_ONE"
  | .oneTwo => "ONE_TWO"
  | .zeroTwo => "ZERO_TWO"
  | .all => "ALL"

/-- The name of a retained-message constraint in a document. -/
def Retain.name : Retain → String
  | .retained => "RETAINED"
  | .notRetained => "NOT_RETAINED"
  | .all => "ALL"

/-- The name of a shared-subscription constraint in a document. -/
def SharedSubscription.name : SharedSubscription → String
  | .shared => "SHARED"
  | .notShared => "NOT_SHARED"
  | .all => "ALL"

/-- The password scheme of a name. -/
def PasswordScheme.ofName? : String → Option PasswordScheme
  | "HASHED" => some .hashed
  | "PLAIN" => some .plain
  | _ => none

/-- The activity of a name. -/
def Activity.ofName? : String → Option Activity
  | "PUBLISH" => some .publish
  | "SUBSCRIBE" => some .subscribe
  | "ALL" => some .all
  | _ => none

/-- The set of service levels of a name. -/
def Qos.ofName? : String → Option Qos
  | "ZERO" => some .zero
  | "ONE" => some .one
  | "TWO" => some .two
  | "ZERO_ONE" => some .zeroOne
  | "ONE_TWO" => some .oneTwo
  | "ZERO_TWO" => some .zeroTwo
  | "ALL" => some .all
  | _ => none

/-- The retained-message constraint of a name. -/
def Retain.ofName? : String → Option Retain
  | "RETAINED" => some .retained
  | "NOT_RETAINED" => some .notRetained
  | "ALL" => some .all
  | _ => none

/-- The shared-subscription constraint of a name. -/
def SharedSubscription.ofName? : String → Option SharedSubscription
  | "SHARED" => some .shared
  | "NOT_SHARED" => some .notShared
  | "ALL" => some .all
  | _ => none

/-- The shared group that stands for every group. -/
def anyGroup : String := "#"

/-- A topic permission of a role. A constraint is `none` when its document gave it a value that
means nothing. -/
structure Permission where
  /-- The topic filter, a template. -/
  topic : Option String := none
  /-- What the client may do with the topic. -/
  activity : Option Activity := some .all
  /-- The service levels it may use. -/
  qos : Option Qos := some .all
  /-- The retained messages it may send. -/
  retain : Option Retain := some .all
  /-- The kinds of subscription it may make. -/
  sharedSubscription : Option SharedSubscription := some .all
  /-- The shared groups it may join. -/
  sharedGroup : Option String := some anyGroup
  deriving DecidableEq, Repr

/-- A named set of permissions. -/
structure Role where
  /-- The name that users refer to. -/
  id : Option String := none
  /-- What the role grants. -/
  permissions : Option (List Permission) := none
  deriving DecidableEq, Repr

/-- A user of the broker. -/
structure User where
  /-- The name the user connects with. -/
  name : Option String := none
  /-- The stored password, written as the password scheme says. -/
  password : Option String := none
  /-- The ids of the granted roles. -/
  roles : Option (List String) := none
  deriving DecidableEq, Repr

/-- The credentials record. A list that is absent differs from an empty one. -/
structure Credentials where
  /-- Who may connect. -/
  users : Option (List User) := none
  /-- What users may be granted. -/
  roles : Option (List Role) := none
  deriving DecidableEq, Repr

/-- The users in document order, none if the record has no list of users. -/
def Credentials.userList (c : Credentials) : List User := c.users.getD []

/-- The roles in document order, none if the record has no list of roles. -/
def Credentials.roleList (c : Credentials) : List Role := c.roles.getD []

/-- The permission with every constraint that is absent replaced by the one that allows all.
This is what a permission becomes when it is written to a document and read again. -/
def Permission.filled (p : Permission) : Permission :=
  { p with
    activity := p.activity.or (some .all)
    qos := p.qos.or (some .all)
    retain := p.retain.or (some .all)
    sharedSubscription := p.sharedSubscription.or (some .all)
    sharedGroup := p.sharedGroup.or (some anyGroup) }

/-- The record with every permission filled. -/
def Credentials.filled (c : Credentials) : Credentials :=
  { c with
    roles := c.roles.map fun roles => roles.map fun r =>
      { r with permissions := r.permissions.map fun ps => ps.map Permission.filled } }

end BrokerAccess
