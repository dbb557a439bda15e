import BrokerAccess.Gate
import BrokerAccess.Proofs.Password.Verifier

/-!
# Decisions by the record alone

What a connecting client has to be told, by the settings, the record in effect and the
request. Nothing here remembers anything: users and roles are looked for in the lists of
the record, and every hash is derived anew. This is what the gate is measured by.
-/

namespace BrokerAccess

/-- A presented password is the one that is stored. -/
def PasswordScheme.Accepts (scheme : PasswordScheme) (password : List UInt8) (stored : String) :
    Prop :=
  match scheme with
  | .hashed => Password.Fits Password.hash (Base64.write password) stored
  | .plain => Utf8.decodeLossy password = stored.toList

/-- Whether a presented password is the stored one can be computed. -/
instance (scheme : PasswordScheme) (password : List UInt8) (stored : String) :
    Decidable (scheme.Accepts password stored) :=
  match scheme with
  | .hashed => inferInstanceAs (Decidable (Password.Fits _ _ _))
  | .plain => inferInstanceAs (Decidable (_ = _))

/-- The user of a name, if the presented password is that user's. -/
def Credentials.user? (c : Credentials) (scheme : PasswordScheme) (name : String)
    (password : List UInt8) : Option User :=
  (c.userList.find? fun u => u.name = some name).filter fun u =>
    u.password.any fun stored => scheme.Accepts password stored

/-- What a permission with a topic comes to for a connection: its topic with the values of the
connection, allowed as far as the permission says, and altogether where it says nothing. -/
def Permission.rendering? (clientId userName : String) (p : Permission) : Option Grant :=
  match p.topic with
  | none => none
  | some topic =>
    some ⟨Template.substitute topic clientId userName, p.activity.getD .all, p.qos.getD .all,
      p.retain.getD .all, p.sharedSubscription.getD .all, p.sharedGroup.getD "#", .allow⟩

/-- What roles grant to a connection, role by role and permission by permission. -/
def Credentials.grants (c : Credentials) (clientId userName : String) (ids : List String) :
    List Grant :=
  ids.flatMap fun id =>
    (c.roleList.find? fun r => r.id = some id).elim [] fun r =>
      (r.permissions.getD []).filterMap (Permission.rendering? clientId userName)

/-- What a client is told that is not let in. -/
def Settings.dismissal (s : Settings) (code : ReasonCode) (message : String) : Decision :=
  if s.deferToNext then .next else .refused ⟨code, message⟩

/-- The decision on a user who presents a password. -/
def Settings.verdict (s : Settings) (record : Option Credentials) (clientId user : String)
    (password : List UInt8) : Decision :=
  let turnedAway :=
    s.dismissal .notAuthorized "Authentication failed because of invalid credentials"
  match record with
  | none => turnedAway
  | some c =>
    match c.user? s.passwordScheme user password with
    | none => turnedAway
    | some u => .admitted (c.grants clientId user (u.roles.getD [])) .deny

/-- The decision on a client by the record in effect, if there is one. -/
def Settings.decision (s : Settings) (record : Option Credentials) (request : ConnectRequest) :
    Decision :=
  let served := s.listeners.getD []
  if served ≠ [] ∧ request.listener.any (· ∉ served) then .next
  else
    match request.userName, request.password with
    | some user, some password =>
      if '#' ∈ request.clientId.toList ∨ '+' ∈ request.clientId.toList then
        s.dismissal .clientIdentifierNotValid
          "The characters '#' and '+' are not allowed in the client identifier"
      else if '#' ∈ user.toList ∨ '+' ∈ user.toList then
        s.dismissal .badUserNameOrPassword
          "The characters '#' and '+' are not allowed in the username"
      else s.verdict record request.clientId user password
    | _, _ =>
      s.dismissal .badUserNameOrPassword
        "Authentication failed because username or password are missing"

end BrokerAccess
