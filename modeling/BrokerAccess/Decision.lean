import BrokerAccess.Record

/-!
# Decisions

What a connecting client is told: it is let in with its permissions, refused for a
reason, or left to the next authority.
-/

namespace BrokerAccess

/-- Whether something may be done. -/
inductive Access where
  /-- It may be done. -/
  | allow
  /-- It may not be done. -/
  | deny
  deriving DecidableEq, Repr

/-- The name of what may or may not be done. -/
def Access.name : Access → String
  | .allow => "Allow"
  | .deny => "Deny"

/-- A permission with its topic filter settled for one connection. -/
structure Grant where
  /-- The topic filter. -/
  topicFilter : String
  /-- What the client may do with the topic. -/
  activity : Activity
  /-- The service levels it may use. -/
  qos : Qos
  /-- The retained messages it may send. -/
  retain : Retain
  /-- The kinds of subscription it may make. -/
  sharedSubscription : SharedSubscription
  /-- The shared groups it may join. -/
  sharedGroup : String
  /-- Whether this is allowed or denied. -/
  access : Access
  deriving DecidableEq, Repr

/-- The reason code that a refused client is told. -/
inductive ReasonCode where
  /-- The user name or the password is no good. -/
  | badUserNameOrPassword
  /-- The client identifier is no good. -/
  | clientIdentifierNotValid
  /-- The client may not connect. -/
  | notAuthorized
  deriving DecidableEq, Repr

/-- The name of a reason code. -/
def ReasonCode.name : ReasonCode → String
  | .badUserNameOrPassword => "BadUserNameOrPassword"
  | .clientIdentifierNotValid => "ClientIdentifierNotValid"
  | .notAuthorized => "NotAuthorized"

/-- What a refused client is told. -/
structure Refusal where
  /-- The reason code. -/
  code : ReasonCode
  /-- The text. -/
  message : String
  deriving DecidableEq, Repr

namespace Refusal

/-- User name or password are missing. -/
def nothingPresented : Refusal :=
  ⟨.badUserNameOrPassword, "Authentication failed because username or password are missing"⟩

/-- The client identifier holds a wildcard. -/
def wildcardInClientId : Refusal :=
  ⟨.clientIdentifierNotValid,
    "The characters '#' and '+' are not allowed in the client identifier"⟩

/-- The user name holds a wildcard. -/
def wildcardInUserName : Refusal :=
  ⟨.badUserNameOrPassword, "The characters '#' and '+' are not allowed in the username"⟩

/-- There is no such user, or the password is not the user's. -/
def invalidCredentials : Refusal :=
  ⟨.notAuthorized, "Authentication failed because of invalid credentials"⟩

end Refusal

/-- The answer to a connecting client. -/
inductive Decision where
  /-- The client is let in, with its grants and with what holds where they say nothing. -/
  | admitted (grants : List Grant) (otherwise : Access)
  /-- The client is refused. -/
  | refused (reason : Refusal)
  /-- The decision is left to the next authority. -/
  | next
  deriving DecidableEq, Repr

/-- The kind of a decision, as it is counted. -/
def Decision.label : Decision → String
  | .admitted .. => "authenticated"
  | .refused _ => "failed"
  | .next => "next"

end BrokerAccess
