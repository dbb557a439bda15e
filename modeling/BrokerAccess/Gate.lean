import BrokerAccess.Directory
import BrokerAccess.Settings

/-!
# The gate

The decision on a connecting client. Wildcards in what the client calls itself are
refused before anything is looked up, so no name can widen a topic filter.
-/

namespace BrokerAccess

/-- What is known of a connecting client. -/
structure ConnectRequest where
  /-- The client identifier. -/
  clientId : String
  /-- The user name. -/
  userName : Option String := none
  /-- The password. -/
  password : Option (List UInt8) := none
  /-- The listener that the client came by. -/
  listener : Option String := none
  deriving DecidableEq, Repr

/-- What the decision depends on beside the directory. -/
structure Gate where
  /-- The listeners served; all if there are none. -/
  listeners : List String
  /-- Leave a client that is not let in to the next authority. -/
  deferToNext : Bool
  deriving DecidableEq, Repr

/-- What a decision came to. -/
structure Admission where
  /-- The decision. -/
  decision : Decision
  /-- The hash cache afterwards. -/
  cache : HashCache
  /-- What there is to report. -/
  journal : Journal
  deriving DecidableEq, Repr

namespace Gate

/-- The gate of settings. -/
def ofSettings (s : Settings) : Gate := ⟨s.listeners.getD [], s.deferToNext⟩

/-- Clients of this listener are not served. -/
def ignores (g : Gate) (listener : String) : Bool :=
  !g.listeners.isEmpty && !g.listeners.contains listener

/-- The text holds a wildcard. -/
def hasWildcard (text : String) : Bool := text.toList.any fun c => c = '#' || c = '+'

/-- A client that is not let in. -/
def refuse (g : Gate) (cache : HashCache) (reason : Refusal) : Admission :=
  if g.deferToNext then ⟨.next, cache, []⟩
  else ⟨.refused reason, cache, [.event (.clientRefused reason)]⟩

/-- The decision on a user who presents a password. -/
def identify (g : Gate) (d : Directory) (now : Nat) (clientId user : String)
    (password : List UInt8) : Admission :=
  let lookup := d.rolesOf now user password
  match lookup.roles with
  | some (role :: more) =>
    let roles := role :: more
    let grants := d.grants clientId user roles
    ⟨.admitted grants .deny, lookup.cache, lookup.journal ++ d.grantsJournal roles ++
      [.event (.clientAdmitted clientId user grants.length)]⟩
  | _ =>
    let refusal := g.refuse lookup.cache .invalidCredentials
    { refusal with journal := lookup.journal ++ refusal.journal }

/-- The decision on a client of a listener that is served. -/
def examine (g : Gate) (d : Directory) (now : Nat) (request : ConnectRequest) : Admission :=
  match request.userName, request.password with
  | some user, some password =>
    if hasWildcard request.clientId then g.refuse d.cache .wildcardInClientId
    else if hasWildcard user then g.refuse d.cache .wildcardInUserName
    else g.identify d now request.clientId user password
  | _, _ => g.refuse d.cache .nothingPresented

/-- The decision on a client, without the count. -/
def decide (g : Gate) (d : Directory) (now : Nat) (request : ConnectRequest) : Admission :=
  match request.listener.filter g.ignores with
  | some listener => ⟨.next, d.cache, [.event (.otherListener listener)]⟩
  | none => g.examine d now request

/-- The decision on a connecting client. -/
def connect (g : Gate) (d : Directory) (now : Nat) (request : ConnectRequest) : Admission :=
  let admission := g.decide d now request
  { admission with
    journal := admission.journal ++ [.count (.decision admission.decision.label)] }

end Gate

end BrokerAccess
