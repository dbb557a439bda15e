import BrokerAccess.Record
import BrokerAccess.Toml.Decode
import BrokerAccess.Toml.Document

/-!
# Settings

What the operator sets beside the record: how often the record is looked at, which
listeners are served, how passwords are stored, and what becomes of a client that is
not let in. Settings may hold values out of range; the effective ones never are.
-/

namespace BrokerAccess

/-- The settings of a deployment. -/
structure Settings where
  /-- Seconds between reloads, as written. -/
  interval : Int := 60
  /-- The listeners served, sorted and without repetition. Absent or empty means all. -/
  listeners : Option (List String) := none
  /-- How passwords are stored; absent when the document's word for it means nothing. -/
  scheme : Option PasswordScheme := some .hashed
  /-- Leave a client that is not let in to the next authority instead of refusing it. -/
  deferToNext : Bool := false
  /-- Reload on file events as well. -/
  watchEvents : Bool := false
  deriving DecidableEq, Repr

namespace Settings

/-- The interval of settings that give none that can be used, in seconds. -/
def defaultInterval : Nat := 60

/-- The interval in effect: never below one second. -/
def reloadInterval (s : Settings) : Nat :=
  if s.interval < 1 then defaultInterval else s.interval.toNat

/-- The password scheme in effect. -/
def passwordScheme (s : Settings) : PasswordScheme := s.scheme.getD .hashed

/-- The settings with every value out of range replaced by its default. -/
def repaired (s : Settings) : Settings :=
  { s with interval := s.reloadInterval, scheme := some s.passwordScheme }

/-- A text put into a sorted list without repetition. -/
def insertText (text : String) : List String → List String
  | [] => [text]
  | other :: rest =>
    if text < other then text :: other :: rest
    else if text = other then other :: rest
    else other :: insertText text rest

/-- The texts of a list, sorted by code points and without repetition. -/
def textSet (texts : List String) : List String := texts.foldr insertText []

/-- The settings that the entries of a document give. -/
def ofEntries? (entries : List (String × Toml.Value)) : Option Settings := do
  let interval ← Toml.strict entries "credentials-reload-interval" 60 Toml.Value.integer?
  let listeners ← Toml.strict? entries "listener-names" Toml.Value.texts?
  let scheme ← Toml.lenient entries "password-type" .hashed PasswordScheme.ofName?
  let deferToNext ← Toml.strict entries "next-extension-instead-of-fail" false Toml.Value.boolean?
  let watchEvents ← Toml.strict entries "watch-file-events" false Toml.Value.boolean?
  some ⟨interval, listeners.map textSet, scheme, deferToNext, watchEvents⟩

/-- The settings that a text writes down. -/
def read? (text : List Char) : Option Settings := (Toml.read? text).bind ofEntries?

end Settings

end BrokerAccess
