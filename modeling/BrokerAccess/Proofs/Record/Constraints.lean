import BrokerAccess.Proofs.Record.WellFormed
import BrokerAccess.Proofs.Toml.Edits
import BrokerAccess.Record.Document

/-!
# Constraints that mean nothing

A constraint of a permission can be given any value in a document. A text that names a meaning
gives that meaning, and any other value gives none, which is a defect of the record; the rest of
the record is read as if the constraint were not there. The one exception is a value in which a
table claims to be a date and is none: it refuses the whole document.
-/

namespace BrokerAccess

open Toml (Value editEntry setEntry strict? lenient)

/-! ## The constraints of a permission -/

namespace Constraint

/-- The key of a constraint in a document. -/
def key : Constraint → String
  | .activity => "activity"
  | .qos => "qos"
  | .retain => "retain"
  | .sharedGroup => "shared-group"
  | .sharedSubscription => "shared-subscription"

/-- What a constraint can mean. -/
def Meaning : Constraint → Type
  | .activity => Activity
  | .qos => Qos
  | .retain => Retain
  | .sharedGroup => String
  | .sharedSubscription => SharedSubscription

/-- The name of a meaning in a document. -/
def name : (k : Constraint) → k.Meaning → String
  | .activity => Activity.name
  | .qos => Qos.name
  | .retain => Retain.name
  | .sharedGroup => id
  | .sharedSubscription => SharedSubscription.name

/-- The meaning of a name. -/
def ofName? : (k : Constraint) → String → Option k.Meaning
  | .activity => Activity.ofName?
  | .qos => Qos.ofName?
  | .retain => Retain.ofName?
  | .sharedGroup => some
  | .sharedSubscription => SharedSubscription.ofName?

/-- The meaning that allows everything. -/
def everything : (k : Constraint) → k.Meaning
  | .activity => Activity.all
  | .qos => Qos.all
  | .retain => Retain.all
  | .sharedGroup => anyGroup
  | .sharedSubscription => SharedSubscription.all

/-- The constraint of a permission. -/
def get : (k : Constraint) → Permission → Option k.Meaning
  | .activity => Permission.activity
  | .qos => Permission.qos
  | .retain => Permission.retain
  | .sharedGroup => Permission.sharedGroup
  | .sharedSubscription => Permission.sharedSubscription

/-- The permission with another constraint. -/
def set : (k : Constraint) → Option k.Meaning → Permission → Permission
  | .activity, x, p => { p with activity := x }
  | .qos, x, p => { p with qos := x }
  | .retain, x, p => { p with retain := x }
  | .sharedGroup, x, p => { p with sharedGroup := x }
  | .sharedSubscription, x, p => { p with sharedSubscription := x }

/-- What a value gives a constraint to mean; none if it refuses the document. -/
def meaning? (k : Constraint) (v : Value) : Option (Option k.Meaning) :=
  if v.momentsSound then some (v.text?.bind k.ofName?) else none

/-- The constraint that the fields of a permission give. -/
def read? (k : Constraint) (fields : List (String × Value)) : Option (Option k.Meaning) :=
  lenient fields k.key k.everything k.ofName?

variable {k k' : Constraint}

/-- No two constraints share a key. -/
theorem key_injective : Function.Injective key := by
  intro k k' h
  cases k <;> cases k' <;> first | rfl | exact absurd h (by decide)

/-- The key of the topic filter is the key of no constraint. -/
theorem topic_ne_key (k : Constraint) : "topic" ≠ k.key := by
  cases k <;> decide

/-- A constraint that is set can be read off. -/
@[simp]
theorem get_set (k : Constraint) (x : Option k.Meaning) (p : Permission) :
    k.get (k.set x p) = x := by
  cases k <;> rfl

/-- The other constraints stay as they are. -/
theorem get_set_of_ne (h : k' ≠ k) (x : Option k.Meaning) (p : Permission) :
    k'.get (k.set x p) = k'.get p := by
  cases k <;> cases k' <;> first | rfl | exact absurd rfl h

/-- The topic filter stays as it is. -/
@[simp]
theorem topic_set (k : Constraint) (x : Option k.Meaning) (p : Permission) :
    (k.set x p).topic = p.topic := by
  cases k <;> rfl

/-- A name means what it is the name of, and nothing else. -/
theorem ofName?_eq_some_iff {s : String} {m : k.Meaning} :
    k.ofName? s = some m ↔ s = k.name m := by
  constructor
  · intro h
    cases k with
    | sharedGroup => exact Option.some.inj h
    | _ =>
      simp only [ofName?, Activity.ofName?, Qos.ofName?, Retain.ofName?,
        SharedSubscription.ofName?] at h
      split at h <;> cases h <;> rfl
  · rintro rfl
    cases k with
    | sharedGroup => rfl
    | _ => cases m <;> rfl

/-- The fields give another constraint what they gave it before a key was set. -/
theorem read?_setEntry (k k' : Constraint) (v : Value) (fields : List (String × Value)) :
    k'.read? (setEntry k.key v fields) = if k' = k then k'.meaning? v else k'.read? fields := by
  have hlookup := Toml.lookup_setEntry k.key v fields k'.key
  by_cases hk : k' = k
  · rw [if_pos (congrArg key hk)] at hlookup
    rw [if_pos hk]
    exact Toml.lenient_of_lookup hlookup _ _
  · rw [if_neg fun h => hk (key_injective h)] at hlookup
    rw [if_neg hk]
    exact Toml.lenient_congr hlookup _ _

end Constraint

namespace Permission

variable {p : Permission} {fields : List (String × Value)}

/-- A table writes a permission down if it gives the topic filter and each of the constraints. -/
theorem ofValue?_table_eq_some_iff : ofValue? (.table fields) = some p ↔
    strict? fields "topic" Value.text? = some p.topic ∧
      ∀ k : Constraint, k.read? fields = some (k.get p) := by
  have hvalue : ofValue? (.table fields) = (strict? fields "topic" Value.text?).bind fun topic =>
      (Constraint.activity.read? fields).bind fun activity =>
        (Constraint.qos.read? fields).bind fun qos =>
          (Constraint.retain.read? fields).bind fun retain =>
            (Constraint.sharedSubscription.read? fields).bind fun sharedSubscription =>
              (Constraint.sharedGroup.read? fields).bind fun sharedGroup =>
                some ⟨topic, activity, qos, retain, sharedSubscription, sharedGroup⟩ := rfl
  simp only [hvalue, Option.bind_eq_some_iff]
  constructor
  · rintro ⟨topic, htopic, activity, hactivity, qos, hqos, retain, hretain, subscription,
      hsubscription, group, hgroup, hp⟩
    obtain rfl := Option.some.inj hp
    refine ⟨htopic, fun k => ?_⟩
    cases k with
    | activity => exact hactivity
    | qos => exact hqos
    | retain => exact hretain
    | sharedGroup => exact hgroup
    | sharedSubscription => exact hsubscription
  · rintro ⟨htopic, hread⟩
    exact ⟨p.topic, htopic, p.activity, hread .activity, p.qos, hread .qos, p.retain, hread .retain,
      p.sharedSubscription, hread .sharedSubscription, p.sharedGroup, hread .sharedGroup, rfl⟩

/-- A permission table with another value for a constraint gives the permission with that
constraint, or nothing if the value refuses the document. -/
theorem ofValue?_setEntry (h : ofValue? (.table fields) = some p) (k : Constraint) (v : Value) :
    ofValue? (.table (setEntry k.key v fields)) = (k.meaning? v).map (k.set · p) := by
  obtain ⟨htopic, hread⟩ := ofValue?_table_eq_some_iff.mp h
  cases hmeaning : k.meaning? v with
  | some x =>
    -- The key that was set is that of one constraint: the topic filter and the others are read as
    -- before.
    rw [Option.map_some, ofValue?_table_eq_some_iff]
    refine ⟨?_, fun k' => ?_⟩
    · have hlookup := Toml.lookup_setEntry k.key v fields "topic"
      rw [if_neg k.topic_ne_key] at hlookup
      rw [Toml.strict?_congr hlookup, Constraint.topic_set]
      exact htopic
    · rw [Constraint.read?_setEntry]
      by_cases hk : k' = k
      · subst hk
        rw [if_pos rfl, Constraint.get_set]
        exact hmeaning
      · rw [if_neg hk, Constraint.get_set_of_ne hk]
        exact hread k'
  | none =>
    rw [Option.map_none, Option.eq_none_iff_forall_ne_some]
    intro p' hp'
    have hread' := (ofValue?_table_eq_some_iff.mp hp').2 k
    rw [Constraint.read?_setEntry, if_pos rfl, hmeaning] at hread'
    cases hread'

/-- A complete permission has every constraint. -/
theorem IsComplete.isSome_get (h : p.IsComplete) (k : Constraint) : (k.get p).isSome = true := by
  cases k with
  | activity => exact h.activity
  | qos => exact h.qos
  | retain => exact h.retain
  | sharedGroup =>
    obtain ⟨group, hgroup, _⟩ := h.sharedGroup
    exact Option.isSome_iff_exists.mpr ⟨group, hgroup⟩
  | sharedSubscription => exact h.sharedSubscription

end Permission

/-! ## Permissions in their places -/

/-- The role with an edit of a permission. -/
def Role.edit (n : Nat) (f : Permission → Permission) (r : Role) : Role :=
  { r with permissions := r.permissions.map (·.modify n f) }

/-- The place of a permission among those of a role, and of the role among those of a record. -/
structure Place where
  /-- The place of the role. -/
  role : Nat
  /-- The place of the permission. -/
  permission : Nat

namespace Place

/-- The value of a document that writes down the permission at a place. -/
def value? (place : Place) (entries : List (String × Value)) : Option Value := do
  let roles ← entries.lookup "roles"
  let role ← roles.item? place.role
  let fields ← role.fields? ["id", "permissions"]
  let permissions ← fields.lookup "permissions"
  permissions.item? place.permission

/-- The document with an edit of the value at a place. -/
def editValue (place : Place) (edit : Value → Value) (entries : List (String × Value)) :
    List (String × Value) :=
  editEntry "roles" (Value.editItem place.role
    (Value.editField ["id", "permissions"] "permissions" (Value.editItem place.permission edit)))
    entries

/-- The permission of a record at a place. -/
def permission? (place : Place) (c : Credentials) : Option Permission := do
  let roles ← c.roles
  let role ← roles[place.role]?
  let permissions ← role.permissions
  permissions[place.permission]?

/-- The record with an edit of the permission at a place. -/
def edit (place : Place) (f : Permission → Permission) (c : Credentials) : Credentials :=
  { c with roles := c.roles.map (·.modify place.role (Role.edit place.permission f)) }

variable {place : Place} {c : Credentials} {entries : List (String × Value)}

/-- The permission at a place is the one that was there, edited. -/
theorem permission?_edit (place : Place) (f : Permission → Permission) (c : Credentials) :
    place.permission? (place.edit f c) = (place.permission? c).map f := by
  cases hroles : c.roles with
  | none => simp [permission?, edit, hroles]
  | some roles =>
    cases hrole : roles[place.role]? with
    | none => simp [permission?, edit, hroles, hrole]
    | some role =>
      cases hpermissions : role.permissions with
      | none => simp [permission?, edit, Role.edit, hroles, hrole, hpermissions]
      | some permissions => simp [permission?, edit, Role.edit, hroles, hrole, hpermissions]

/-- Every permission of a well-formed record is complete. -/
theorem isComplete_of_isWellFormed {scheme : PasswordScheme} (h : c.IsWellFormed scheme)
    {p : Permission} (hp : place.permission? c = some p) : p.IsComplete := by
  simp only [permission?, Option.bind_eq_bind, Option.bind_eq_some_iff] at hp
  obtain ⟨roles, hroles, role, hrole, permissions, hpermissions, hmem⟩ := hp
  have hlist : role ∈ c.roleList := by
    rw [Credentials.roleList, hroles, Option.getD_some]
    exact List.mem_of_getElem? hrole
  obtain ⟨all, hall, _, hcomplete⟩ := (h.roleComplete role hlist).permissions
  obtain rfl := Option.some.inj (hpermissions.symm.trans hall)
  exact hcomplete p (List.mem_of_getElem? hmem)

end Place

/-- A role is read with an edit of a permission as it was, but for that permission. -/
theorem Role.ofValue?_editField {role : Value} {r : Role}
    {fields : List (String × Value)} {permissions v : Value} {n : Nat}
    (h : ofValue? role = some r) (hfields : role.fields? ["id", "permissions"] = some fields)
    (hlookup : fields.lookup "permissions" = some permissions)
    (hitem : permissions.item? n = some v) :
    ∃ list p, r.permissions = some list ∧ list[n]? = some p ∧ Permission.ofValue? v = some p ∧
      ∀ {γ : Type} (edit : Value → Value) (o : Option γ) (g : γ → Permission → Permission),
        Permission.ofValue? (edit v) = o.map (g · p) →
          ofValue? (role.editField ["id", "permissions"] "permissions" (Value.editItem n edit)) =
            o.map fun a => r.edit n (g a) := by
  simp only [ofValue?, hfields, Option.bind_eq_bind, Option.bind_some,
    Option.bind_eq_some_iff] at h
  obtain ⟨id, hid, found, hfound, hr⟩ := h
  obtain rfl := Option.some.inj hr
  obtain ⟨list, p, rfl, hp, hv, hedit⟩ := Toml.strict?_editEntry hfound hlookup hitem
  refine ⟨list, p, rfl, hp, hv, fun edit o g hg => ?_⟩
  have hsame : (editEntry "permissions" (Value.editItem n edit) fields).lookup "id" =
      fields.lookup "id" := by
    rw [Toml.lookup_editEntry, if_neg (by decide)]
  rw [ofValue?, Toml.fields?_editField (by decide), hfields]
  simp only [Option.map_some, Option.bind_eq_bind, Option.bind_some, Toml.strict?_congr hsame, hid,
    hedit edit o g hg]
  cases o <;> rfl

namespace Place

variable {place : Place} {c : Credentials} {entries : List (String × Value)}

/-- A record is read with an edit of a permission as it was, but for that permission. -/
theorem ofEntries?_editValue {v : Value}
    (h : Credentials.ofEntries? entries = some c) (hvalue : place.value? entries = some v) :
    ∃ p, place.permission? c = some p ∧ Permission.ofValue? v = some p ∧
      ∀ {γ : Type} (edit : Value → Value) (o : Option γ) (g : γ → Permission → Permission),
        Permission.ofValue? (edit v) = o.map (g · p) →
          Credentials.ofEntries? (place.editValue edit entries) =
            o.map fun a => place.edit (g a) c := by
  simp only [value?, Option.bind_eq_bind, Option.bind_eq_some_iff] at hvalue
  obtain ⟨roles, hroles, role, hrole, fields, hfields, permissions, hpermissions, hitem⟩ := hvalue
  simp only [Credentials.ofEntries?, Option.bind_eq_bind, Option.bind_eq_some_iff] at h
  obtain ⟨users, husers, found, hfound, hc⟩ := h
  obtain rfl := Option.some.inj hc
  obtain ⟨list, r, rfl, hr, hread, hedit⟩ := Toml.strict?_editEntry hfound hroles hrole
  obtain ⟨all, p, hall, hp, hv, hinner⟩ :=
    Role.ofValue?_editField hread hfields hpermissions hitem
  refine ⟨p, by simp [permission?, hr, hall, hp], hv, fun edit o g hg => ?_⟩
  have hsame : (place.editValue edit entries).lookup "users" = entries.lookup "users" := by
    rw [editValue, Toml.lookup_editEntry, if_neg (by decide)]
  have hlist := hedit _ o (fun a => Role.edit place.permission (g a)) (hinner edit o g hg)
  rw [Credentials.ofEntries?, Toml.strict?_congr hsame, husers]
  simp only [Option.bind_eq_bind, Option.bind_some]
  rw [editValue, hlist]
  cases o <;> rfl

/-- A permission table writes down the permission at its place, and a constraint that is set in the
document is set there, unless its value refuses the document. -/
theorem ofEntries?_setKey {table : List (String × Value)}
    (h : Credentials.ofEntries? entries = some c)
    (hvalue : place.value? entries = some (.table table)) (k : Constraint) (v : Value) :
    (∃ p, place.permission? c = some p ∧ Permission.ofValue? (.table table) = some p) ∧
      Credentials.ofEntries? (place.editValue (Value.setKey k.key v) entries) =
        (k.meaning? v).map fun x => place.edit (k.set x) c := by
  obtain ⟨p, hp, hread, hedit⟩ := ofEntries?_editValue h hvalue
  exact ⟨⟨p, hp, hread⟩, hedit (Value.setKey k.key v) (k.meaning? v) k.set
    (Permission.ofValue?_setEntry hread k v)⟩

/-- A record is not accepted if a constraint of one of its permissions means nothing. -/
theorem defects_ne_nil {p : Permission} (hp : place.permission? c = some p) {k : Constraint}
    (hnone : k.get p = none) (scheme : PasswordScheme) : c.defects scheme ≠ [] := by
  intro hdefects
  have hcomplete := isComplete_of_isWellFormed (Credentials.isWellFormed_of_defects hdefects) hp
  have hsome := hcomplete.isSome_get k
  rw [hnone] at hsome
  cases hsome

/-- In a document that writes a record down, any permission table writes down the permission at its
place, and any constraint of it can be set to any value in which no table falsely claims to be a
date. The document then writes down the same record but for that one constraint. The constraint has
a meaning if the value is a text that names it, and otherwise it has none and the record is not
accepted. A value in which a table falsely claims to be a date refuses the document. -/
theorem setConstraint_reads {table : List (String × Value)}
    (h : Credentials.ofEntries? entries = some c)
    (hvalue : place.value? entries = some (.table table)) (k : Constraint) (v : Value) :
    let edited := place.editValue (Value.setKey k.key v) entries
    (∃ p, place.permission? c = some p ∧ Permission.ofValue? (.table table) = some p) ∧
    (v.momentsSound = true → ∃ x : Option k.Meaning,
      (∀ m, x = some m ↔ v = .text (k.name m)) ∧
      Credentials.ofEntries? edited = some (place.edit (k.set x) c) ∧
      (x = none → ∀ scheme, (place.edit (k.set x) c).defects scheme ≠ [])) ∧
    (v.momentsSound = false → Credentials.ofEntries? edited = none) := by
  intro edited
  obtain ⟨⟨p, hp, hread⟩, hedited⟩ := ofEntries?_setKey h hvalue k v
  refine ⟨⟨p, hp, hread⟩,
    fun hsound => ⟨v.text?.bind k.ofName?, fun m => ?_, ?_, fun hnone scheme => ?_⟩,
    fun hunsound => ?_⟩
  · rw [Option.bind_eq_some_iff]
    constructor
    · rintro ⟨s, hs, hm⟩
      rw [← Constraint.ofName?_eq_some_iff.mp hm]
      cases v with
      | text _ => exact congrArg Value.text (Option.some.inj hs)
      | _ => cases hs
    · rintro rfl
      exact ⟨k.name m, rfl, Constraint.ofName?_eq_some_iff.mpr rfl⟩
  · rw [Constraint.meaning?, if_pos hsound] at hedited
    exact hedited
  · have hset := permission?_edit place (k.set (v.text?.bind k.ofName?)) c
    rw [hp, Option.map_some] at hset
    exact defects_ne_nil hset ((k.get_set _ p).trans hnone) scheme
  · rw [Constraint.meaning?, if_neg (by rw [hunsound]; exact Bool.false_ne_true)] at hedited
    exact hedited

/-- A document with one role and one permission. -/
def soleGrant : List (String × Value) :=
  [("roles", .array [.table [("id", .text "reader"),
    ("permissions", .array [.table [("topic", .text "news/#")]])]])]

/-- The record of that document, when its permission has service levels. -/
def soleGranted (qos : Option Qos) : Credentials where
  roles := some [{ id := some "reader", permissions := some [{ topic := some "news/#", qos }] }]

/-- A truth value in place of the service levels is a defect of the record and nothing else. -/
theorem setConstraint_reads_soleGrant :
    Credentials.ofEntries? soleGrant = some (soleGranted (some .all)) ∧
      Place.value? ⟨0, 0⟩ soleGrant = some (.table [("topic", .text "news/#")]) ∧
      Credentials.ofEntries? (editValue ⟨0, 0⟩ (Value.setKey "qos" (.boolean true)) soleGrant) =
        some (soleGranted none) ∧
      ∀ scheme, (soleGranted none).defects scheme ≠ [] := by
  have hread : Credentials.ofEntries? soleGrant = some (soleGranted (some .all)) := rfl
  have hvalue : Place.value? ⟨0, 0⟩ soleGrant = some (.table [("topic", .text "news/#")]) := rfl
  obtain ⟨x, hx, hedited, hdefects⟩ :=
    (setConstraint_reads hread hvalue .qos (.boolean true)).2.1 rfl
  cases x with
  | some m => cases (hx m).mp rfl
  | none => exact ⟨hread, hvalue, hedited, hdefects rfl⟩

/-- A table that claims to be a date and is none. -/
def falseDate : Value := .table [("$__toml_private_datetime", .text "x")]

/-- A table in place of the service levels refuses the document if it claims to be a date and is
none. -/
theorem falseDate_refuses_soleGrant :
    Credentials.ofEntries? soleGrant = some (soleGranted (some .all)) ∧
      Place.value? ⟨0, 0⟩ soleGrant = some (.table [("topic", .text "news/#")]) ∧
      Credentials.ofEntries? (editValue ⟨0, 0⟩ (Value.setKey "qos" falseDate) soleGrant) =
        none := by
  have hread : Credentials.ofEntries? soleGrant = some (soleGranted (some .all)) := rfl
  have hvalue : Place.value? ⟨0, 0⟩ soleGrant = some (.table [("topic", .text "news/#")]) := rfl
  have hunsound : falseDate.momentsSound = false := rfl
  have hedited := (ofEntries?_setKey hread hvalue .qos falseDate).2
  rw [Constraint.meaning?, if_neg (by rw [hunsound]; exact Bool.false_ne_true)] at hedited
  exact ⟨hread, hvalue, hedited⟩

end Place

end BrokerAccess
