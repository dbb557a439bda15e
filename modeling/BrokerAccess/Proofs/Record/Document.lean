import BrokerAccess.Proofs.Record.WellFormed
import BrokerAccess.Proofs.Toml.Assembly
import BrokerAccess.Proofs.Toml.Statement
import BrokerAccess.Record.Document

/-!
# Reading written records

A record that is written and read again is the record with its permissions filled: what is
absent is not written, and the constraints that are absent are read as those that allow all.
-/

namespace BrokerAccess

open Toml (Value Line Entries Statement Builds given listed assigned assignment finishEntries
  strict? lenient)

/-! ## What the parts of a record are written as -/

/-- The fields of a permission. -/
def Permission.fields (p : Permission) : List (String × Option Value) :=
  [("topic", p.topic.map .text),
    ("activity", (p.activity.map Activity.name).map .text),
    ("qos", (p.qos.map Qos.name).map .text),
    ("retain", (p.retain.map Retain.name).map .text),
    ("shared-subscription", (p.sharedSubscription.map SharedSubscription.name).map .text),
    ("shared-group", p.sharedGroup.map .text)]

/-- No two fields of a permission have the same key. -/
theorem Permission.nodup_fields (p : Permission) : (p.fields.map Prod.fst).Nodup := by
  simp [Permission.fields]

/-- A permission as a value. -/
def Permission.value (p : Permission) : Value := .table (given p.fields)

/-- The fields of a role. -/
def Role.fields (r : Role) : List (String × Option Value) :=
  [("id", r.id.map .text),
    ("permissions", r.permissions.map fun ps => .array (ps.map Permission.value))]

/-- No two fields of a role have the same key. -/
theorem Role.nodup_fields (r : Role) : (r.fields.map Prod.fst).Nodup := by
  simp [Role.fields]

/-- A role as a value. -/
def Role.value (r : Role) : Value := .table (given r.fields)

/-- The fields of a user. -/
def User.fields (u : User) : List (String × Option Value) :=
  [("name", u.name.map .text), ("password", u.password.map .text),
    ("roles", u.roles.map fun list => .array (list.map .text))]

/-- No two fields of a user have the same key. -/
theorem User.nodup_fields (u : User) : (u.fields.map Prod.fst).Nodup := by
  simp [User.fields]

/-- A user as a value. -/
def User.value (u : User) : Value := .table (given u.fields)

/-! ## Reading the parts -/

/-- A strict field that was written is read back. -/
theorem strict?_eq {α β : Type} {entries : List (String × Value)} {name : String} {x : Option α}
    (write : α → Value) {read : Value → Option β} {f : α → β}
    (hlookup : entries.lookup name = x.map write) (hread : ∀ a, read (write a) = some (f a)) :
    strict? entries name read = some (x.map f) := by
  rw [strict?, Toml.strict, hlookup]
  cases x with
  | none => rfl
  | some a => simp [hread]

/-- A string that was written is read back. -/
theorem strict?_text {entries : List (String × Value)} {name : String} {x : Option String}
    (hlookup : entries.lookup name = x.map .text) : strict? entries name Value.text? = some x := by
  have hread : strict? entries name Value.text? = some (x.map id) :=
    strict?_eq .text hlookup fun _ => rfl
  rwa [Option.map_id] at hread

/-- A lenient field that was written is read back, and one that was not has its default. -/
theorem lenient_eq {α : Type} {entries : List (String × Value)} {key : String} {x : Option α}
    (name : α → String) {ofName? : String → Option α} {default : α}
    (hlookup : entries.lookup key = (x.map name).map .text)
    (hname : ∀ a, ofName? (name a) = some a) :
    lenient entries key default ofName? = some (x.or (some default)) := by
  rw [lenient, hlookup]
  cases x with
  | none => rfl
  | some a => exact congrArg some (hname a)

/-- Structures that are read one by one are read as a list. -/
theorem structures?_map {α β : Type} (write : α → Value) {read : Value → Option β} {f : α → β}
    (hread : ∀ a, read (write a) = some (f a)) (list : List α) :
    Value.structures? read (.array (list.map write)) = some (list.map f) := by
  rw [Value.structures?]
  induction list with
  | nil => rfl
  | cons a list ih => simp [hread, ih]

/-- A permission is read back filled. -/
theorem Permission.ofValue?_value (p : Permission) :
    Permission.ofValue? p.value = some p.filled := by
  have hlookup {key : String} {v : Option Value} (hmem : (key, v) ∈ p.fields) :
      (given p.fields).lookup key = v := Toml.lookup_given p.nodup_fields hmem
  have htopic : strict? (given p.fields) "topic" Value.text? = some p.topic :=
    strict?_text (hlookup (by simp [Permission.fields]))
  have hactivity : lenient (given p.fields) "activity" .all Activity.ofName? =
      some (p.activity.or (some .all)) :=
    lenient_eq Activity.name (hlookup (by simp [Permission.fields])) fun a => by cases a <;> rfl
  have hqos : lenient (given p.fields) "qos" .all Qos.ofName? = some (p.qos.or (some .all)) :=
    lenient_eq Qos.name (hlookup (by simp [Permission.fields])) fun q => by cases q <;> rfl
  have hretain : lenient (given p.fields) "retain" .all Retain.ofName? =
      some (p.retain.or (some .all)) :=
    lenient_eq Retain.name (hlookup (by simp [Permission.fields])) fun r => by cases r <;> rfl
  have hshared : lenient (given p.fields) "shared-subscription" .all SharedSubscription.ofName? =
      some (p.sharedSubscription.or (some .all)) :=
    lenient_eq SharedSubscription.name (hlookup (by simp [Permission.fields])) fun s => by
      cases s <;> rfl
  have hgroup : lenient (given p.fields) "shared-group" anyGroup some =
      some (p.sharedGroup.or (some anyGroup)) :=
    lenient_eq id (hlookup (by simp [Permission.fields])) fun _ => rfl
  simp only [Permission.ofValue?, Permission.value, Value.fields?, Option.bind_eq_bind,
    Option.bind_some, htopic, hactivity, hqos, hretain, hshared, hgroup]
  rfl

/-- A role is read back with its permissions filled. -/
theorem Role.ofValue?_value (r : Role) : Role.ofValue? r.value =
    some { r with permissions := r.permissions.map fun ps => ps.map Permission.filled } := by
  have hlookup {key : String} {v : Option Value} (hmem : (key, v) ∈ r.fields) :
      (given r.fields).lookup key = v := Toml.lookup_given r.nodup_fields hmem
  have hid : strict? (given r.fields) "id" Value.text? = some r.id :=
    strict?_text (hlookup (by simp [Role.fields]))
  have hpermissions : strict? (given r.fields) "permissions"
      (Value.structures? Permission.ofValue?) =
        some (r.permissions.map fun ps => ps.map Permission.filled) :=
    strict?_eq _ (hlookup (by simp [Role.fields])) (structures?_map _ Permission.ofValue?_value)
  simp only [Role.ofValue?, Role.value, Value.fields?, Option.bind_eq_bind, Option.bind_some, hid,
    hpermissions]

/-- A user is read back. -/
theorem User.ofValue?_value (u : User) : User.ofValue? u.value = some u := by
  have hlookup {key : String} {v : Option Value} (hmem : (key, v) ∈ u.fields) :
      (given u.fields).lookup key = v := Toml.lookup_given u.nodup_fields hmem
  have hname : strict? (given u.fields) "name" Value.text? = some u.name :=
    strict?_text (hlookup (by simp [User.fields]))
  have hpassword : strict? (given u.fields) "password" Value.text? = some u.password :=
    strict?_text (hlookup (by simp [User.fields]))
  have htext (s : String) : Value.text? (.text s) = some (id s) := rfl
  have htexts (list : List String) :
      Value.texts? (.array (list.map Value.text)) = some (list.map id) :=
    structures?_map Value.text htext list
  have hroles : strict? (given u.fields) "roles" Value.texts? = some (u.roles.map (List.map id)) :=
    strict?_eq (fun list => .array (list.map Value.text)) (hlookup (by simp [User.fields])) htexts
  simp only [User.ofValue?, User.value, Value.fields?, Option.bind_eq_bind, Option.bind_some, hname,
    hpassword, hroles]
  simp

/-! ## What the lines of a record assemble -/

/-- An empty list of structures; one that has some is an array of tables. -/
def emptyValue {α : Type} : Option (List α) → Option Value
  | some [] => some (.array [])
  | _ => none

/-- The fields of a role that are assigned. -/
def Role.assignedFields (r : Role) : List (String × Option Value) :=
  [("id", r.id.map .text), ("permissions", emptyValue r.permissions)]

/-- The fields of a record that are assigned. -/
def Credentials.assignedFields (c : Credentials) : List (String × Option Value) :=
  [("users", emptyValue c.users), ("roles", emptyValue c.roles)]

/-- The table of a permission under construction. -/
def Permission.entries (p : Permission) : Entries := (given p.fields).map assigned

/-- The table of a role under construction. -/
def Role.entries (r : Role) : Entries :=
  (given r.assignedFields).map assigned ++
    listed "permissions" ((r.permissions.getD []).map Permission.entries)

/-- The table of a user under construction. -/
def User.entries (u : User) : Entries := (given u.fields).map assigned

/-- The root table of a record under construction. -/
def Credentials.entries (c : Credentials) : Entries :=
  (given c.assignedFields).map assigned ++ listed "users" (c.userList.map User.entries) ++
    listed "roles" (c.roleList.map Role.entries)

/-- The line of a string assigns it. -/
theorem textLine_statement (key : String) (text : Option String) :
    (textLine key text).map Line.statement = (given [(key, text.map .text)]).map assignment := by
  cases text <;> rfl

/-- The line of an empty list assigns it. -/
theorem emptyLine_statement {α : Type} (key : String) (list : Option (List α)) :
    (emptyLine key list).map Line.statement = (given [(key, emptyValue list)]).map assignment := by
  match list with
  | none => rfl
  | some [] => rfl
  | some (a :: list) => rfl

/-- The lines of a permission assign its fields. -/
theorem Permission.lines_statement (p : Permission) : p.lines.map Line.statement =
    .element ["roles"] "permissions" :: (given p.fields).map assignment := by
  simp only [Permission.lines, Permission.fields, List.map_cons, List.map_append,
    textLine_statement]
  simp only [Toml.given_cons (_, _) (_ :: _), List.map_append, List.append_assoc]
  rfl

/-- The lines of a role assign its fields and then list its permissions. -/
theorem Role.lines_statement (r : Role) : r.lines.map Line.statement =
    .element [] "roles" :: ((given r.assignedFields).map assignment ++
      (r.permissions.getD []).flatMap fun p => p.lines.map Line.statement) := by
  simp only [Role.lines, Role.assignedFields, List.map_cons, List.map_append, List.map_flatMap,
    textLine_statement, emptyLine_statement]
  simp only [Toml.given_cons (_, _) (_ :: _), List.map_append, List.append_assoc]
  rfl

/-- The lines of a user assign its fields. -/
theorem User.lines_statement (u : User) : u.lines.map Line.statement =
    .element [] "users" :: (given u.fields).map assignment := by
  have hroles : (u.roles.map (Line.texts "roles")).toList.map Line.statement =
      (given [("roles", u.roles.map fun list => .array (list.map .text))]).map assignment := by
    cases u.roles <;> rfl
  simp only [User.lines, User.fields, List.map_cons, List.map_append, textLine_statement, hroles]
  simp only [Toml.given_cons (_, _) (_ :: _), List.map_append, List.append_assoc]
  rfl

/-- The lines of a record assign its empty lists and then list its users and its roles. -/
theorem Credentials.lines_statement (c : Credentials) : c.lines.map Line.statement =
    (given c.assignedFields).map assignment ++
      ((c.userList.flatMap fun u => u.lines.map Line.statement) ++
        c.roleList.flatMap fun r => r.lines.map Line.statement) := by
  simp only [Credentials.lines, Credentials.assignedFields, List.map_append, List.map_flatMap,
    emptyLine_statement]
  simp only [Toml.given_cons (_, _) (_ :: _), List.map_append, List.append_assoc]

/-- The lines of a permission add it to those of the last role. -/
theorem Permission.builds (p : Permission) :
    Builds ["roles"] "permissions" (p.lines.map Line.statement) p.entries := by
  rw [p.lines_statement]
  exact Toml.builds_fields (Toml.nodup_given p.nodup_fields)

/-- The lines of a user add it to the others. -/
theorem User.builds (u : User) : Builds [] "users" (u.lines.map Line.statement) u.entries := by
  rw [u.lines_statement]
  exact Toml.builds_fields (Toml.nodup_given u.nodup_fields)

/-- A list of structures that has some is not assigned. -/
theorem emptyValue_eq_none {α : Type} {list : Option (List α)} (h : list.getD [] ≠ []) :
    emptyValue list = none := by
  match list with
  | none => rfl
  | some [] => exact absurd rfl h
  | some (a :: list) => rfl

/-- The lines of a role add it to the others. -/
theorem Role.builds (r : Role) : Builds [] "roles" (r.lines.map Line.statement) r.entries := by
  rw [r.lines_statement]
  apply Toml.builds_element
  · exact Toml.nodup_given (by simp [Role.assignedFields])
  · exact fun p _ => p.builds
  · intro hne
    rw [Role.assignedFields, emptyValue_eq_none hne]
    cases r.id <;> simp [given]

/-- The lines of a record assemble its root table. -/
theorem Credentials.assemble?_lines (c : Credentials) :
    Toml.assemble? (c.lines.map Line.statement) = some (finishEntries c.entries) := by
  have hkeys : ((given c.assignedFields).map Prod.fst).Nodup :=
    Toml.nodup_given (by simp [Credentials.assignedFields])
  have hassign : ((given c.assignedFields).map assignment).foldlM Toml.Assembly.add
      Toml.Assembly.start = some ⟨(given c.assignedFields).map assigned, []⟩ :=
    Toml.foldlM_assignment Toml.leads_root hkeys
  have huser (hne : c.userList ≠ []) :
      ((given c.assignedFields).map assigned).lookup "users" = none := by
    rw [Credentials.assignedFields, emptyValue_eq_none hne]
    cases emptyValue c.roles <;> simp [given, assigned]
  obtain ⟨middle, hmiddle⟩ := Toml.foldlM_builds (fun u _ => User.builds u) Toml.leads_root huser
    [] []
  have hrole (hne : c.roleList ≠ []) : ((given c.assignedFields).map assigned ++
      listed "users" (c.userList.map User.entries)).lookup "roles" = none := by
    rw [Credentials.assignedFields, emptyValue_eq_none hne]
    cases emptyValue c.users <;> cases c.userList.map User.entries <;>
      simp [given, assigned, listed]
  obtain ⟨last, hlast⟩ := Toml.foldlM_builds (fun r _ => Role.builds r) Toml.leads_root hrole
    [] middle
  simp only [listed, List.append_nil, List.nil_append, id] at hmiddle hlast
  simp only [Toml.assemble?, c.lines_statement, List.foldlM_append, hassign, Option.bind_eq_bind,
    Option.bind_some, hmiddle, hlast, Option.map_some]
  rfl

/-! ## What a record is read back as -/

/-- An optional list of structures is finished as an array, be there some or none. -/
theorem given_append_listed {α : Type} {element : α → Entries} {value : α → Value}
    (hvalue : ∀ a, .table (finishEntries (element a)) = value a) (key : String)
    (list : Option (List α)) :
    given [(key, emptyValue list)] ++ finishEntries (listed key ((list.getD []).map element)) =
      given [(key, list.map fun l => .array (l.map value))] := by
  match list with
  | none => rfl
  | some [] => rfl
  | some (a :: l) =>
    have hne : ((some (a :: l)).getD []).map element ≠ [] := List.cons_ne_nil _ _
    have hmap : ((a :: l).map element).map (fun entries => Value.table (finishEntries entries)) =
        (a :: l).map value := by
      rw [List.map_map]
      exact List.map_congr_left fun a _ => hvalue a
    rw [Toml.finishEntries_listed hne, Option.getD_some, hmap]
    rfl

/-- The finished table of a permission is its value. -/
theorem Permission.finish_entries (p : Permission) :
    .table (finishEntries p.entries) = p.value := by
  rw [Permission.entries, Toml.finishEntries_assigned, Permission.value]

/-- The finished table of a user is its value. -/
theorem User.finish_entries (u : User) : .table (finishEntries u.entries) = u.value := by
  rw [User.entries, Toml.finishEntries_assigned, User.value]

/-- The finished table of a role is its value. -/
theorem Role.finish_entries (r : Role) : .table (finishEntries r.entries) = r.value := by
  have hpermissions := given_append_listed Permission.finish_entries "permissions" r.permissions
  rw [Role.entries, Toml.finishEntries_append, Toml.finishEntries_assigned, Role.assignedFields,
    Toml.given_cons, List.append_assoc, hpermissions, ← Toml.given_cons, Role.value, Role.fields]

/-- Nothing stands under another key than that of an array of tables. -/
theorem lookup_listed {key key' : String} (h : key ≠ key') (items : List Entries) :
    (finishEntries (listed key' items)).lookup key = none := by
  cases items with
  | nil => rfl
  | cons item items => simp [listed, finishEntries, h]

/-- The users and the roles of a record stand under their keys in its document. -/
theorem Credentials.lookup_entries (c : Credentials) :
    (finishEntries c.entries).lookup "users" =
        c.users.map (fun us => .array (us.map User.value)) ∧
      (finishEntries c.entries).lookup "roles" =
        c.roles.map (fun rs => .array (rs.map Role.value)) := by
  have husers := given_append_listed User.finish_entries "users" c.users
  have hroles := given_append_listed Role.finish_entries "roles" c.roles
  have hother {key key' : String} (h : key ≠ key') (v : Option Value) :
      (given [(key', v)]).lookup key = none := by
    cases v <;> simp [given, h]
  have hsame (key : String) (v : Option Value) : (given [(key, v)]).lookup key = v :=
    Toml.lookup_given (by simp) (by simp)
  simp only [Credentials.entries, Credentials.assignedFields, Toml.finishEntries_append,
    Toml.finishEntries_assigned]
  rw [Toml.given_cons]
  constructor
  · rw [← hsame "users" (c.users.map _), ← husers]
    simp only [List.lookup_append, hother (show "users" ≠ "roles" by decide),
      lookup_listed (show "users" ≠ "roles" by decide), Option.or_none]
    rfl
  · rw [← hsame "roles" (c.roles.map _), ← hroles]
    simp only [List.lookup_append, hother (show "roles" ≠ "users" by decide),
      lookup_listed (show "roles" ≠ "users" by decide), Option.or_none, Option.none_or]
    rfl

/-! ## The lines of a record -/

/-- The line of a string is plain if its key is. -/
theorem isPlain_textLine {key : String} (h : Toml.IsPlain key) (text : Option String) :
    ∀ line ∈ textLine key text, line.IsPlain := by
  cases text with
  | none => simp [textLine]
  | some s => simpa [textLine, Line.IsPlain] using h

/-- The line of an empty list is plain if its key is. -/
theorem isPlain_emptyLine {α : Type} {key : String} (h : Toml.IsPlain key)
    (list : Option (List α)) : ∀ line ∈ emptyLine key list, line.IsPlain := by
  match list with
  | none => simp [emptyLine]
  | some [] => simpa [emptyLine, Line.IsPlain] using h
  | some (a :: l) => simp [emptyLine]

/-- The lines of a permission are plain. -/
theorem Permission.isPlain_lines (p : Permission) : ∀ line ∈ p.lines, line.IsPlain := by
  have hheader : (Line.element ["roles"] "permissions").IsPlain := by decide
  simp only [Permission.lines, List.forall_mem_cons, List.forall_mem_append, and_assoc]
  refine ⟨hheader, ?_, ?_, ?_, ?_, ?_, ?_⟩
  all_goals
    apply isPlain_textLine
    decide

/-- The lines of a role are plain. -/
theorem Role.isPlain_lines (r : Role) : ∀ line ∈ r.lines, line.IsPlain := by
  have hheader : (Line.element [] "roles").IsPlain := by decide
  simp only [Role.lines, List.forall_mem_cons, List.forall_mem_append, List.forall_mem_flatMap]
  refine ⟨hheader, ⟨isPlain_textLine (by decide) _, isPlain_emptyLine (by decide) _⟩, ?_⟩
  exact fun p _ => p.isPlain_lines

/-- The lines of a user are plain. -/
theorem User.isPlain_lines (u : User) : ∀ line ∈ u.lines, line.IsPlain := by
  have hheader : (Line.element [] "users").IsPlain := by decide
  simp only [User.lines, List.forall_mem_cons, List.forall_mem_append]
  refine ⟨hheader, ⟨isPlain_textLine (by decide) _, isPlain_textLine (by decide) _⟩, ?_⟩
  cases u.roles with
  | none => simp
  | some list =>
    have hkey : Toml.IsPlain "roles" := by decide
    simpa [Line.IsPlain] using hkey

/-- The lines of a record are plain. -/
theorem Credentials.isPlain_lines (c : Credentials) : ∀ line ∈ c.lines, line.IsPlain := by
  simp only [Credentials.lines, List.forall_mem_append, List.forall_mem_flatMap]
  refine ⟨⟨⟨isPlain_emptyLine (by decide) _, isPlain_emptyLine (by decide) _⟩, ?_⟩, ?_⟩
  · exact fun u _ => u.isPlain_lines
  · exact fun r _ => r.isPlain_lines

/-- The document of a record is read back as the record with its permissions filled. -/
theorem Credentials.ofEntries?_entries (c : Credentials) :
    Credentials.ofEntries? (finishEntries c.entries) = some c.filled := by
  obtain ⟨hlookupUsers, hlookupRoles⟩ := c.lookup_entries
  have husers : strict? (finishEntries c.entries) "users" (Value.structures? User.ofValue?) =
      some (c.users.map fun us => us.map id) :=
    strict?_eq _ hlookupUsers (structures?_map _ User.ofValue?_value)
  have hroles : strict? (finishEntries c.entries) "roles" (Value.structures? Role.ofValue?) =
      some (c.roles.map fun rs => rs.map fun r =>
        { r with permissions := r.permissions.map fun ps => ps.map Permission.filled }) :=
    strict?_eq _ hlookupRoles (structures?_map _ Role.ofValue?_value)
  simp only [Credentials.ofEntries?, husers, hroles, Option.bind_eq_bind, Option.bind_some,
    List.map_id, Option.map_id']
  rfl

/-- The text of a record is read back as the record with its permissions filled. -/
theorem Credentials.read?_write (c : Credentials) : Credentials.read? c.write = some c.filled := by
  have hstatements := Toml.statements?_writeLines c.isPlain_lines
  have hassemble := c.assemble?_lines
  have hread : Toml.read? c.write = some (finishEntries c.entries) := by
    rw [Toml.read?, Credentials.write, hstatements, Option.bind_some, hassemble]
  rw [Credentials.read?, hread, Option.bind_some, c.ofEntries?_entries]

end BrokerAccess
