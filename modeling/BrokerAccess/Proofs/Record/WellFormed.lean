import BrokerAccess.Record.Defect

/-!
# Well-formed records

A record is well formed when every entry says all that it has to say, no two entries of
a list share a name, and every role that a user is granted stands in the record. These
conditions speak of the record as a whole. The defects come from two passes over it that
remember names and leave an entry at its first grave defect; they are proved to find
nothing exactly in the well-formed records, so no skipped check hides the only defect.
-/

namespace BrokerAccess

/-- A permission that leaves nothing open. -/
structure Permission.IsComplete (p : Permission) : Prop where
  /-- The topic filter is there. -/
  topic : ∃ topic, p.topic = some topic ∧ topic ≠ ""
  /-- The activity means something. -/
  activity : p.activity.isSome
  /-- The service levels mean something. -/
  qos : p.qos.isSome
  /-- The retained messages mean something. -/
  retain : p.retain.isSome
  /-- The kinds of subscription mean something. -/
  sharedSubscription : p.sharedSubscription.isSome
  /-- The shared group is there. -/
  sharedGroup : ∃ group, p.sharedGroup = some group ∧ group ≠ ""

/-- A role that can be referred to and grants something. -/
structure Role.IsComplete (r : Role) : Prop where
  /-- The id is there. -/
  id : ∃ id, r.id = some id ∧ id ≠ ""
  /-- The permissions are there, and each leaves nothing open. -/
  permissions : ∃ permissions, r.permissions = some permissions ∧ permissions ≠ [] ∧
    ∀ p ∈ permissions, p.IsComplete

/-- A stored password that starts with a salt and an iteration count. -/
def HasHashedForm (password : String) : Prop :=
  ∃ salt iterations more, fields ':' password.toList = salt :: iterations :: more ∧
    salt ≠ [] ∧ iterations ≠ []

/-- A user that can connect, in a record with the given roles. -/
structure User.IsComplete (scheme : PasswordScheme) (roles : List Role) (u : User) : Prop where
  /-- The name is there. -/
  name : ∃ name, u.name = some name ∧ name ≠ ""
  /-- The password is there, in the form that the scheme asks for. -/
  password : ∃ password, u.password = some password ∧ password ≠ "" ∧
    (scheme = .hashed → HasHashedForm password)
  /-- The granted roles are there, and each is the id of a role. -/
  roles : ∃ granted, u.roles = some granted ∧ granted ≠ [] ∧
    ∀ id ∈ granted, id ≠ "" ∧ ∃ r ∈ roles, r.id = some id

/-- A record without fault. -/
structure Credentials.IsWellFormed (scheme : PasswordScheme) (c : Credentials) : Prop where
  /-- There are users. -/
  users : ∃ users, c.users = some users ∧ users ≠ []
  /-- There are roles. -/
  roles : ∃ roles, c.roles = some roles ∧ roles ≠ []
  /-- Every role is complete. -/
  roleComplete : ∀ r ∈ c.roleList, r.IsComplete
  /-- No two roles share an id. -/
  roleIds : (c.roleList.map Role.id).Nodup
  /-- Every user is complete. -/
  userComplete : ∀ u ∈ c.userList, u.IsComplete scheme c.roleList
  /-- No two users share a name. -/
  userNames : (c.userList.map User.name).Nodup

/-- A well-formed record has a user with a name. -/
theorem Credentials.IsWellFormed.exists_user {scheme : PasswordScheme} {c : Credentials}
    (h : c.IsWellFormed scheme) : ∃ u ∈ c.userList, ∃ name, u.name = some name := by
  obtain ⟨users, hu, hne⟩ := h.users
  have hl : c.userList = users := by rw [Credentials.userList, hu, Option.getD_some]
  obtain ⟨u, hm⟩ := List.exists_mem_of_ne_nil users hne
  obtain ⟨name, hn, _⟩ := (h.userComplete u (hl ▸ hm)).name
  exact ⟨u, hl ▸ hm, name, hn⟩

/-- A well-formed record has a role with an id. -/
theorem Credentials.IsWellFormed.exists_role {scheme : PasswordScheme} {c : Credentials}
    (h : c.IsWellFormed scheme) : ∃ r ∈ c.roleList, ∃ id, r.id = some id := by
  obtain ⟨roles, hr, hne⟩ := h.roles
  have hl : c.roleList = roles := by rw [Credentials.roleList, hr, Option.getD_some]
  obtain ⟨r, hm⟩ := List.exists_mem_of_ne_nil roles hne
  obtain ⟨id, hi, _⟩ := (h.roleComplete r (hl ▸ hm)).id
  exact ⟨r, hl ▸ hm, id, hi⟩

/-- A text is present when it is given and not empty. -/
theorem present_eq_some_iff {text : Option String} {t : String} :
    present text = some t ↔ text = some t ∧ t ≠ "" := by
  simp only [present, Option.filter_eq_some_iff, decide_eq_true_eq]

/-- Something is present exactly when a text is given that is not empty. -/
theorem present_isSome_iff {text : Option String} :
    (present text).isSome ↔ ∃ t, text = some t ∧ t ≠ "" := by
  simp only [Option.isSome_iff_exists, present_eq_some_iff]

/-- Nothing is present exactly when every text that is given is empty. -/
theorem present_eq_none_iff {text : Option String} :
    present text = none ↔ ∀ t, text = some t → t = "" := by
  simp only [present, Option.filter_eq_none_iff, decide_eq_true_eq, Decidable.not_not]

/-- A list is occupied when it is given and not empty. -/
theorem occupied_eq_some_iff {α : Type} {list : Option (List α)} {xs : List α} :
    occupied list = some xs ↔ list = some xs ∧ xs ≠ [] := by
  simp only [occupied, Option.filter_eq_some_iff, Bool.not_eq_true', List.isEmpty_eq_false_iff]

/-- Nothing is occupied exactly when every list that is given is empty. -/
theorem occupied_eq_none_iff {α : Type} {list : Option (List α)} :
    occupied list = none ↔ ∀ xs, list = some xs → xs = [] := by
  simp only [occupied, Option.filter_eq_none_iff, Bool.not_eq_true', List.isEmpty_eq_false_iff,
    Decidable.not_not]

/-- The form of a hashed password is recognized. -/
theorem looksHashed_iff (password : String) :
    looksHashed password = true ↔ HasHashedForm password := by
  unfold looksHashed HasHashedForm
  split
  next salt iterations more hf =>
    simp only [hf, Bool.and_eq_true, Bool.not_eq_true', List.isEmpty_eq_false_iff,
      List.cons.injEq]
    constructor
    · rintro ⟨hs, hi⟩
      exact ⟨salt, iterations, more, ⟨rfl, rfl, rfl⟩, hs, hi⟩
    · rintro ⟨_, _, _, ⟨rfl, rfl, rfl⟩, hs, hi⟩
      exact ⟨hs, hi⟩
  next hn =>
    simp only [Bool.false_eq_true, false_iff]
    rintro ⟨salt, iterations, more, hf, _⟩
    exact hn salt iterations more hf

/-- A permission has no defect exactly when it leaves nothing open. -/
theorem Permission.defects_eq_nil_iff (role : String) (p : Permission) :
    p.defects role = [] ↔ p.IsComplete := by
  have hif (b : Bool) (d : Defect) : (if b then [d] else []) = [] ↔ b = false := by
    cases b <;> simp
  simp only [Permission.defects, List.append_eq_nil_iff, hif, Option.isNone_eq_false_iff,
    present_isSome_iff]
  constructor
  · rintro ⟨⟨⟨⟨⟨ht, ha⟩, hq⟩, hr⟩, hg⟩, hs⟩
    exact ⟨ht, ha, hq, hr, hs, hg⟩
  · intro h
    exact ⟨⟨⟨⟨⟨h.topic, h.activity⟩, h.qos⟩, h.retain⟩, h.sharedGroup⟩, h.sharedSubscription⟩

/-- A role has no defect of its own exactly when its permissions are there and leave nothing
open. -/
theorem Role.defects_eq_nil_iff (id : String) (r : Role) :
    r.defects id = [] ↔ ∃ permissions, r.permissions = some permissions ∧ permissions ≠ [] ∧
      ∀ p ∈ permissions, p.IsComplete := by
  unfold Role.defects
  cases ho : occupied r.permissions with
  | none =>
    simp only [reduceCtorEq, false_iff]
    rintro ⟨permissions, hp, hne, _⟩
    exact hne (occupied_eq_none_iff.mp ho permissions hp)
  | some permissions =>
    obtain ⟨hp, hne⟩ := occupied_eq_some_iff.mp ho
    simp only [List.flatMap_eq_nil_iff, Permission.defects_eq_nil_iff, hp, Option.some.injEq,
      exists_eq_left', ne_eq, hne, not_false_eq_true, true_and]

/-- The names that entries have. -/
def entryNames {α : Type} (name : α → Option String) (entries : List α) : List String :=
  entries.filterMap fun entry => present (name entry)

/-- A name that entries have is the name of one of them. -/
theorem mem_entryNames_iff {α : Type} {name : α → Option String} {entries : List α} {key : String} :
    key ∈ entryNames name entries ↔ key ≠ "" ∧ ∃ entry ∈ entries, name entry = some key := by
  simp only [entryNames, List.mem_filterMap, present_eq_some_iff]
  constructor
  · rintro ⟨entry, hmem, hname, hne⟩
    exact ⟨hne, entry, hmem, hname⟩
  · rintro ⟨hne, entry, hmem, hname⟩
    exact ⟨entry, hmem, hname, hne⟩

/-- The ids that users may refer to are the ids of the roles that have one. -/
theorem mem_knownRoles_iff {roles : List Role} {id : String} :
    id ∈ knownRoles roles ↔ id ≠ "" ∧ ∃ r ∈ roles, r.id = some id :=
  mem_entryNames_iff

/-- A role list has no defect exactly when each of its entries is a known id. -/
theorem grantDefects_eq_nil_iff (roles : List Role) (user : String) (granted : List String) :
    grantDefects (knownRoles roles) user granted = [] ↔
      ∀ id ∈ granted, id ≠ "" ∧ ∃ r ∈ roles, r.id = some id := by
  simp only [grantDefects, List.flatMap_eq_nil_iff, ← mem_knownRoles_iff]
  refine forall₂_congr fun id _ => ?_
  by_cases he : id = ""
  · have hk : id ∉ knownRoles roles := fun h => (mem_knownRoles_iff.mp h).1 he
    simp only [he, if_true, List.cons_ne_self, false_iff]
    exact he ▸ hk
  · by_cases hk : id ∈ knownRoles roles
    · simp only [he, hk, if_true, if_false]
    · simp only [he, hk, if_false, reduceCtorEq]

/-- A user has no defect of its own exactly when its password and its role list are in order. -/
theorem User.defects_eq_nil_iff (scheme : PasswordScheme) (roles : List Role) (name : String)
    (u : User) : u.defects scheme (knownRoles roles) name = [] ↔
      (∃ password, u.password = some password ∧ password ≠ "" ∧
        (scheme = .hashed → HasHashedForm password)) ∧
      ∃ granted, u.roles = some granted ∧ granted ≠ [] ∧
        ∀ id ∈ granted, id ≠ "" ∧ ∃ r ∈ roles, r.id = some id := by
  unfold User.defects
  cases hp : present u.password with
  | none =>
    simp only [reduceCtorEq, false_iff]
    rintro ⟨⟨password, hs, hne, _⟩, _⟩
    exact hne (present_eq_none_iff.mp hp password hs)
  | some password =>
    obtain ⟨hs, hne⟩ := present_eq_some_iff.mp hp
    simp only [hs, Option.some.injEq, exists_eq_left', ne_eq, hne, not_false_eq_true, true_and]
    by_cases hbad : scheme = .hashed ∧ looksHashed password = false
    · simp only [if_pos hbad, reduceCtorEq, false_iff]
      rintro ⟨hform, _⟩
      exact Bool.eq_false_iff.mp hbad.2 ((looksHashed_iff password).mpr (hform hbad.1))
    · have hform : scheme = .hashed → HasHashedForm password := by
        intro hh
        cases hl : looksHashed password with
        | false => exact absurd ⟨hh, hl⟩ hbad
        | true => exact (looksHashed_iff password).mp hl
      rw [if_neg hbad]
      cases ho : occupied u.roles with
      | none =>
        simp only [reduceCtorEq, false_iff]
        rintro ⟨_, granted, hg, hgne, _⟩
        exact hgne (occupied_eq_none_iff.mp ho granted hg)
      | some granted =>
        obtain ⟨hg, hgne⟩ := occupied_eq_some_iff.mp ho
        simp only [grantDefects_eq_nil_iff, hg, Option.some.injEq, exists_eq_left', ne_eq, hgne,
          not_false_eq_true, true_and]
        constructor
        · intro h
          exact ⟨hform, h⟩
        · intro h
          exact h.2

/-- A pass over entries reports nothing exactly when every entry has a name that was not taken
before and no defect of its own, and no two entries share a name. -/
theorem entryDefects_eq_nil_iff {α : Type} (name : α → Option String) (unnamed : Defect)
    (repeated : String → Defect) (own : String → α → List Defect) (taken : List String)
    (entries : List α) :
    entryDefects name unnamed repeated own taken entries = [] ↔
      (∀ entry ∈ entries, ∃ key, name entry = some key ∧ key ≠ "" ∧ key ∉ taken ∧
        own key entry = []) ∧ (entries.map name).Nodup := by
  induction entries generalizing taken with
  | nil => simp only [entryDefects, List.not_mem_nil, false_imp_iff, implies_true, List.map_nil,
      List.nodup_nil, and_self]
  | cons entry rest ih =>
    rw [entryDefects, List.forall_mem_cons, List.map_cons, List.nodup_cons]
    cases hp : present (name entry) with
    | none =>
      simp only [reduceCtorEq, false_iff]
      rintro ⟨⟨⟨key, hk, hne, _⟩, _⟩, _⟩
      exact hne (present_eq_none_iff.mp hp key hk)
    | some key =>
      obtain ⟨hk, hne⟩ := present_eq_some_iff.mp hp
      simp only [hk, Option.some.injEq, exists_eq_left', ne_eq, hne, not_false_eq_true, true_and]
      by_cases ht : key ∈ taken
      · simp only [ht, if_true, reduceCtorEq, not_true_eq_false, false_and]
      · simp only [ht, if_false, List.append_eq_nil_iff, ih, not_false_eq_true, true_and]
        -- The name of the first entry is taken for the rest, which is to say that none bears it.
        constructor
        · rintro ⟨hown, hrest, hd⟩
          refine ⟨⟨hown, ?_⟩, ?_, hd⟩
          · intro e he
            obtain ⟨k, hek, hkne, hfree, hek'⟩ := hrest e he
            exact ⟨k, hek, hkne, fun h => hfree (List.mem_cons_of_mem key h), hek'⟩
          · intro hmem
            obtain ⟨e, he, hsame⟩ := List.mem_map.mp hmem
            obtain ⟨k, hek, _, hfree, _⟩ := hrest e he
            obtain rfl : k = key := Option.some.inj (hek.symm.trans hsame)
            exact hfree List.mem_cons_self
        · rintro ⟨⟨hown, hrest⟩, hfirst, hd⟩
          refine ⟨hown, ?_, hd⟩
          intro e he
          obtain ⟨k, hek, hkne, hfree, hek'⟩ := hrest e he
          refine ⟨k, hek, hkne, ?_, hek'⟩
          rw [List.mem_cons]
          rintro (rfl | h)
          · exact hfirst (List.mem_map.mpr ⟨e, he, hek⟩)
          · exact hfree h

/-- The roles have no defect exactly when each is complete and no two share an id. -/
theorem roleDefects_eq_nil_iff (roles : List Role) :
    roleDefects roles = [] ↔ (∀ r ∈ roles, r.IsComplete) ∧ (roles.map Role.id).Nodup := by
  simp only [roleDefects, entryDefects_eq_nil_iff, Role.defects_eq_nil_iff, List.not_mem_nil,
    not_false_eq_true, true_and]
  refine and_congr_left fun _ => forall₂_congr fun r _ => ?_
  constructor
  · rintro ⟨id, hid, hne, hp⟩
    exact ⟨⟨id, hid, hne⟩, hp⟩
  · rintro ⟨⟨id, hid, hne⟩, hp⟩
    exact ⟨id, hid, hne, hp⟩

/-- The users have no defect exactly when each is complete and no two share a name. -/
theorem userDefects_eq_nil_iff (scheme : PasswordScheme) (roles : List Role) (users : List User) :
    userDefects scheme (knownRoles roles) users = [] ↔
      (∀ u ∈ users, u.IsComplete scheme roles) ∧ (users.map User.name).Nodup := by
  simp only [userDefects, entryDefects_eq_nil_iff, User.defects_eq_nil_iff, List.not_mem_nil,
    not_false_eq_true, true_and]
  refine and_congr_left fun _ => forall₂_congr fun u _ => ?_
  constructor
  · rintro ⟨name, hn, hne, hp, hr⟩
    exact ⟨⟨name, hn, hne⟩, hp, hr⟩
  · rintro ⟨⟨name, hn, hne⟩, hp, hr⟩
    exact ⟨name, hn, hne, hp, hr⟩

/-- A record has no defect exactly when both of its lists are occupied and neither pass over them
reports anything. -/
theorem Credentials.defects_eq_nil_iff (scheme : PasswordScheme) (c : Credentials) :
    c.defects scheme = [] ↔
      ((∃ users, c.users = some users ∧ users ≠ []) ∧ ∃ roles, c.roles = some roles ∧ roles ≠ []) ∧
        roleDefects c.roleList = [] ∧
          userDefects scheme (knownRoles c.roleList) c.userList = [] := by
  simp only [← occupied_eq_some_iff]
  unfold Credentials.defects
  cases hu : occupied c.users with
  | none =>
    simp only [Option.isNone_none, if_true, List.cons_append, reduceCtorEq, exists_false,
      false_and]
  | some users =>
    cases hr : occupied c.roles with
    | none =>
      simp only [Option.isNone_some, Option.isNone_none, Bool.false_eq_true, if_false, if_true,
        List.nil_append, reduceCtorEq, exists_false, and_false, false_and, List.cons_ne_nil]
    | some roles =>
      have hul : c.userList = users := by
        rw [Credentials.userList, (occupied_eq_some_iff.mp hu).1, Option.getD_some]
      have hrl : c.roleList = roles := by
        rw [Credentials.roleList, (occupied_eq_some_iff.mp hr).1, Option.getD_some]
      simp only [hul, hrl, List.append_eq_nil_iff, Option.some.injEq, exists_eq', and_self,
        true_and]

/-- A record that has no defect is well formed. -/
theorem Credentials.isWellFormed_of_defects {scheme : PasswordScheme} {c : Credentials}
    (h : c.defects scheme = []) : c.IsWellFormed scheme := by
  rw [Credentials.defects_eq_nil_iff, roleDefects_eq_nil_iff, userDefects_eq_nil_iff] at h
  obtain ⟨⟨hus, hrs⟩, ⟨hrc, hrd⟩, huc, hud⟩ := h
  exact ⟨hus, hrs, hrc, hrd, huc, hud⟩

/-- The list of defects is empty exactly for the well-formed records. -/
theorem Credentials.defects_eq_nil_iff_isWellFormed (scheme : PasswordScheme) (c : Credentials) :
    c.defects scheme = [] ↔ c.IsWellFormed scheme := by
  constructor
  · exact Credentials.isWellFormed_of_defects
  · intro h
    rw [Credentials.defects_eq_nil_iff, roleDefects_eq_nil_iff, userDefects_eq_nil_iff]
    exact ⟨⟨h.users, h.roles⟩, ⟨h.roleComplete, h.roleIds⟩, h.userComplete, h.userNames⟩

end BrokerAccess
