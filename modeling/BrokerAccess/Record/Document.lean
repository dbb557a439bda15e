import BrokerAccess.Record
import BrokerAccess.Toml.Decode
import BrokerAccess.Toml.Document
import BrokerAccess.Toml.Printer

/-!
# The document of a record

A record is read from a document and written to one. Reading is not validation: a field
that the document leaves out is absent from the record, and a constraint that it leaves
out allows everything. A constraint whose value means nothing is absent instead, so that
it can be reported as a defect. Writing leaves out what is absent; reading the written
document again gives the record with its permissions filled.
-/

namespace BrokerAccess

open Toml (Value Line strict? lenient)

/-- The permission that a value writes down. -/
def Permission.ofValue? (v : Value) : Option Permission := do
  let fields ← v.fields?
    ["topic", "activity", "qos", "retain", "shared-subscription", "shared-group"]
  let topic ← strict? fields "topic" Value.text?
  let activity ← lenient fields "activity" .all Activity.ofName?
  let qos ← lenient fields "qos" .all Qos.ofName?
  let retain ← lenient fields "retain" .all Retain.ofName?
  let sharedSubscription ← lenient fields "shared-subscription" .all SharedSubscription.ofName?
  let sharedGroup ← lenient fields "shared-group" anyGroup some
  some ⟨topic, activity, qos, retain, sharedSubscription, sharedGroup⟩

/-- The role that a value writes down. -/
def Role.ofValue? (v : Value) : Option Role := do
  let fields ← v.fields? ["id", "permissions"]
  let id ← strict? fields "id" Value.text?
  let permissions ← strict? fields "permissions" (Value.structures? Permission.ofValue?)
  some ⟨id, permissions⟩

/-- The user that a value writes down. -/
def User.ofValue? (v : Value) : Option User := do
  let fields ← v.fields? ["name", "password", "roles"]
  let name ← strict? fields "name" Value.text?
  let password ← strict? fields "password" Value.text?
  let roles ← strict? fields "roles" Value.texts?
  some ⟨name, password, roles⟩

/-- The record that the entries of a document write down. -/
def Credentials.ofEntries? (entries : List (String × Value)) : Option Credentials := do
  let users ← strict? entries "users" (Value.structures? User.ofValue?)
  let roles ← strict? entries "roles" (Value.structures? Role.ofValue?)
  some ⟨users, roles⟩

/-- The record that a text writes down. -/
def Credentials.read? (text : List Char) : Option Credentials :=
  (Toml.read? text).bind Credentials.ofEntries?

/-- The line of a string that may be absent. -/
def textLine (key : String) (text : Option String) : List Line :=
  (text.map (Line.text key)).toList

/-- The line of a list of structures without any; one that has some is written as headers. -/
def emptyLine {α : Type} (key : String) (list : Option (List α)) : List Line :=
  match list with
  | some [] => [.texts key []]
  | _ => []

/-- The lines of a permission. -/
def Permission.lines (p : Permission) : List Line :=
  .element ["roles"] "permissions" ::
    (textLine "topic" p.topic ++
      textLine "activity" (p.activity.map Activity.name) ++
      textLine "qos" (p.qos.map Qos.name) ++
      textLine "retain" (p.retain.map Retain.name) ++
      textLine "shared-subscription" (p.sharedSubscription.map SharedSubscription.name) ++
      textLine "shared-group" p.sharedGroup)

/-- The lines of a role. -/
def Role.lines (r : Role) : List Line :=
  .element [] "roles" ::
    (textLine "id" r.id ++ emptyLine "permissions" r.permissions ++
      (r.permissions.getD []).flatMap Permission.lines)

/-- The lines of a user. -/
def User.lines (u : User) : List Line :=
  .element [] "users" ::
    (textLine "name" u.name ++ textLine "password" u.password ++
      (u.roles.map (Line.texts "roles")).toList)

/-- The lines of a record. Empty lists come first, where no header has been written yet. -/
def Credentials.lines (c : Credentials) : List Line :=
  emptyLine "users" c.users ++ emptyLine "roles" c.roles ++
    c.userList.flatMap User.lines ++ c.roleList.flatMap Role.lines

/-- The text of a record. -/
def Credentials.write (c : Credentials) : List Char := Toml.writeLines c.lines

end BrokerAccess
