import BrokerAccess.Proofs.Decision
import BrokerAccess.Proofs.Record.WellFormed

/-!
# Look-ups in a directory

An index gives for a name the last entry of the list that bears it. In a record without
defects a name is borne once, so a directory that follows such a record answers as one
who reads the record from the beginning, and its cache, while faithful, is not to be seen.
-/

namespace BrokerAccess

section Index

variable {α : Type} {name : α → Option String}

/-- Entries of other names do not matter to a look-up. -/
theorem lookup_filter_ne {key other : String} (h : other ≠ key) (index : Index α) :
    (index.filter fun old => old.1 ≠ key).lookup other = index.lookup other := by
  induction index with
  | nil => rfl
  | cons old rest ih =>
    obtain ⟨k, entry⟩ := old
    rw [List.filter_cons, List.lookup_cons]
    split
    next => rw [List.lookup_cons, ih]
    next hdrop =>
      -- What is dropped bears the name `key`, so the look-up passes over it.
      obtain rfl : k = key := by simpa using hdrop
      rw [ih, beq_eq_false_iff_ne.mpr h]

/-- An entry that is entered is found under its name, and others under theirs as before. -/
theorem lookup_enter (index : Index α) (entry : α) (key : String) :
    (index.enter name entry).lookup key =
      if name entry = some key then some entry else index.lookup key := by
  unfold Index.enter
  cases hn : name entry with
  | none => simp only [reduceCtorEq, if_false]
  | some k =>
    by_cases hk : k = key
    · simp only [hk, List.lookup_cons, BEq.rfl, if_true]
    · have hne : (key == k) = false := beq_eq_false_iff_ne.mpr (Ne.symm hk)
      simp only [Option.some.injEq, hk, if_false, List.lookup_cons, hne]
      exact lookup_filter_ne (Ne.symm hk) index

/-- An index gives for a name the last entry that bears it. -/
theorem lookup_indexed (name : α → Option String) (list : List α) (key : String) :
    (indexed name list).lookup key = list.reverse.find? fun entry => name entry = some key := by
  have hfold (index : Index α) : (list.foldl (Index.enter name) index).lookup key =
      (list.reverse.find? fun entry => name entry = some key).or (index.lookup key) := by
    induction list generalizing index with
    | nil => rfl
    | cons entry rest ih =>
      rw [List.foldl_cons, ih, lookup_enter, List.reverse_cons, List.find?_append, Option.or_assoc]
      congr 1
      by_cases hn : name entry = some key
      · simp [hn]
      · simp [hn]
  rw [indexed, hfold, List.lookup_nil, Option.or_none]

/-- If no two entries share a name, an index gives for a name the entry that bears it. -/
theorem lookup_indexed_of_nodup {list : List α} (h : (list.map name).Nodup) (key : String) :
    (indexed name list).lookup key = list.find? fun entry => name entry = some key := by
  rw [lookup_indexed]
  induction list with
  | nil => rfl
  | cons entry rest ih =>
    rw [List.map_cons, List.nodup_cons] at h
    rw [List.reverse_cons, List.find?_append, ih h.2, List.find?_cons]
    by_cases hn : name entry = some key
    · have hrest : rest.find? (fun other => name other = some key) = none := by
        rw [List.find?_eq_none]
        intro other ho hk
        rw [decide_eq_true_eq] at hk
        exact h.1 (List.mem_map.mpr ⟨other, ho, hk.trans hn.symm⟩)
      simp [hrest, hn]
    · simp [hn]

/-- An index is not empty if some entry has a name. -/
theorem indexed_ne_nil {list : List α} {entry : α} (he : entry ∈ list) {key : String}
    (hk : name entry = some key) : indexed name list ≠ [] := by
  intro hnil
  have hl := lookup_indexed name list key
  rw [hnil, List.lookup_nil] at hl
  have hnone := List.find?_eq_none.mp hl.symm entry (List.mem_reverse.mpr he)
  rw [decide_eq_true_eq] at hnone
  exact hnone hk

end Index

/-- A directory holds the users and roles of a record, or nothing if there is none, and a cache
that can be relied on. -/
structure Directory.Follows (d : Directory) (record : Option Credentials) : Prop where
  /-- The users are those of the record. -/
  users : d.users = indexed User.name (record.elim [] Credentials.userList)
  /-- The roles are those of the record. -/
  roles : d.roles = indexed Role.id (record.elim [] Credentials.roleList)
  /-- The hashes are what would be derived. -/
  cache : d.cache.IsFaithful Password.hash

/-- A user that is found in a well-formed record has a password and some role. -/
theorem Credentials.IsWellFormed.exists_roles {scheme : PasswordScheme} {c : Credentials}
    (h : c.IsWellFormed scheme) {name : String} {password : List UInt8} {u : User}
    (hu : c.user? scheme name password = some u) : ∃ id more, u.roles = some (id :: more) := by
  rw [Credentials.user?, Option.filter_eq_some_iff] at hu
  obtain ⟨granted, hg, hne, _⟩ := (h.userComplete u (List.mem_of_find?_eq_some hu.1)).roles
  cases granted with
  | nil => exact absurd rfl hne
  | cons id more => exact ⟨id, more, hg⟩

namespace Directory

variable {d : Directory} {c : Credentials}

/-- A password is accepted exactly when it is the stored one. -/
theorem check_matched_iff (h : d.cache.IsFaithful Password.hash) (now : Nat)
    (password : List UInt8) (stored : String) :
    (d.check now password stored).matched = true ↔ d.scheme.Accepts password stored := by
  unfold check PasswordScheme.Accepts
  cases d.scheme with
  | hashed => exact Password.verify_matched_iff h now (Base64.write password) stored
  | plain => simp only [decide_eq_true_eq]

/-- A check of a password leaves a cache that can be relied on. -/
theorem check_cache_isFaithful (h : d.cache.IsFaithful Password.hash) (now : Nat)
    (password : List UInt8) (stored : String) :
    (d.check now password stored).cache.IsFaithful Password.hash := by
  unfold check
  cases d.scheme with
  | hashed => exact Password.verify_cache_isFaithful h now (Base64.write password) stored
  | plain => exact h

/-- A look-up of roles leaves a cache that can be relied on. -/
theorem rolesOf_cache_isFaithful (h : d.cache.IsFaithful Password.hash) (now : Nat)
    (user : String) (password : List UInt8) :
    (d.rolesOf now user password).cache.IsFaithful Password.hash := by
  unfold rolesOf
  split
  next => exact h
  next =>
    split
    next => exact h
    next u stored _ => exact check_cache_isFaithful h now password stored

/-- Without a record nobody has roles. -/
theorem Follows.rolesOf_none (h : d.Follows none) (now : Nat) (user : String)
    (password : List UInt8) : (d.rolesOf now user password).roles = none := by
  have hu : d.users.isEmpty = true := by rw [h.users]; rfl
  rw [rolesOf, hu, Bool.true_or, if_pos rfl]

/-- The roles that are found are those of the user in the record whose password it is. -/
theorem Follows.rolesOf_some (h : d.Follows (some c)) (hw : c.IsWellFormed d.scheme) (now : Nat)
    (user : String) (password : List UInt8) :
    (d.rolesOf now user password).roles =
      (c.user? d.scheme user password).map fun u => u.roles.getD [] := by
  have hus : d.users.isEmpty = false := by
    obtain ⟨u, hu, name, hn⟩ := hw.exists_user
    rw [h.users, List.isEmpty_eq_false_iff]
    exact indexed_ne_nil hu hn
  have hrs : d.roles.isEmpty = false := by
    obtain ⟨r, hr, id, hi⟩ := hw.exists_role
    rw [h.roles, List.isEmpty_eq_false_iff]
    exact indexed_ne_nil hr hi
  have hl : d.users.lookup user = c.userList.find? fun u => u.name = some user := by
    rw [h.users, Option.elim_some, lookup_indexed_of_nodup hw.userNames]
  rw [rolesOf, hus, hrs, Bool.or_false, if_neg Bool.false_ne_true, hl, Credentials.user?]
  cases c.userList.find? fun u => u.name = some user with
  | none => rfl
  | some u =>
    cases hp : u.password with
    | none => simp [Option.filter, hp]
    | some stored =>
      have hm := check_matched_iff h.cache now password stored
      by_cases ha : d.scheme.Accepts password stored
      · simp [Option.filter, hp, ha, hm.mpr ha]
      · have hn : (d.check now password stored).matched = false :=
          Bool.eq_false_iff.mpr (mt hm.mp ha)
        simp [Option.filter, hp, ha, hn]

/-- A permission grants what it comes to. -/
theorem grant_eq_rendering? (clientId userName : String) :
    grant clientId userName = Permission.rendering? clientId userName := by
  funext p
  unfold grant Permission.rendering? anyGroup
  cases p.topic <;> rfl

/-- The grants of roles are those of the record. -/
theorem Follows.grants (h : d.Follows (some c)) (hw : c.IsWellFormed d.scheme)
    (clientId userName : String) (ids : List String) :
    d.grants clientId userName ids = c.grants clientId userName ids := by
  have hl (id : String) : d.roles.lookup id = c.roleList.find? fun r => r.id = some id := by
    rw [h.roles, Option.elim_some, lookup_indexed_of_nodup hw.roleIds]
  rw [Directory.grants, Credentials.grants, grant_eq_rendering?]
  congr 1
  funext id
  rw [hl id]
  cases c.roleList.find? fun r => r.id = some id with
  | none => rfl
  | some r => rfl

end Directory

end BrokerAccess
