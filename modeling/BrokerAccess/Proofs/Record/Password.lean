import Mathlib.Data.List.Nodup
import BrokerAccess.Proofs.Grants
import BrokerAccess.Proofs.Lookups

/-!
# Records with another password

A stored password is put in the place of another one in a record without defects. The record
then has at most one defect, that the password has not the form that its scheme asks for, and
its user is found with it and with the roles that it had.
-/

namespace BrokerAccess

/-- A user with this stored password. -/
def User.withPassword (u : User) (stored : String) : User := { u with password := some stored }

/-- A record with this stored password for all users of a name. -/
def Credentials.withPassword (c : Credentials) (user stored : String) : Credentials :=
  { c with
    users := c.users.map fun users => users.map fun u =>
      if u.name = some user then u.withPassword stored else u }

/-- If entries have names that are not taken before and differ, then each is reported for what is
found in it alone. -/
theorem entryDefects_eq_flatMap {α : Type} {name : α → Option String} (unnamed : Defect)
    (repeated : String → Defect) (own : String → α → List Defect) {taken : List String}
    {entries : List α}
    (hnamed : ∀ entry ∈ entries, ∃ key, name entry = some key ∧ key ≠ "" ∧ key ∉ taken)
    (hnodup : (entries.map name).Nodup) :
    entryDefects name unnamed repeated own taken entries =
      entries.flatMap fun entry => (name entry).elim [] fun key => own key entry := by
  induction entries generalizing taken with
  | nil => rfl
  | cons entry rest ih =>
    rw [List.forall_mem_cons] at hnamed
    rw [List.map_cons, List.nodup_cons] at hnodup
    obtain ⟨⟨key, hkey, hne, hfree⟩, hrest⟩ := hnamed
    have hstill : ∀ other ∈ rest, ∃ k, name other = some k ∧ k ≠ "" ∧ k ∉ key :: taken := by
      intro other hother
      obtain ⟨k, hk, hkne, hkfree⟩ := hrest other hother
      refine ⟨k, hk, hkne, ?_⟩
      rw [List.mem_cons]
      rintro (rfl | htaken)
      · exact hnodup.1 (List.mem_map.mpr ⟨other, hother, hk.trans hkey.symm⟩)
      · exact hkfree htaken
    have hpresent : present (name entry) = some key := present_eq_some_iff.mpr ⟨hkey, hne⟩
    rw [entryDefects, hpresent, List.flatMap_cons, hkey, ← ih hstill hnodup.2]
    dsimp only
    rw [if_neg hfree]
    rfl

/-- If only one entry of a list gives anything, it gives all. -/
theorem flatMap_eq_of_forall_ne {α β : Type} {f : α → List β} {list : List α} {entry : α}
    (hentry : entry ∈ list) (hnodup : list.Nodup)
    (hothers : ∀ other ∈ list, other ≠ entry → f other = []) : list.flatMap f = f entry := by
  obtain ⟨before, after, rfl⟩ := List.append_of_mem hentry
  rw [List.nodup_append, List.nodup_cons] at hnodup
  obtain ⟨_, ⟨hafter, _⟩, hapart⟩ := hnodup
  have hbefore : before.flatMap f = [] := by
    rw [List.flatMap_eq_nil_iff]
    intro other hother
    refine hothers other (List.mem_append_left _ hother) ?_
    exact hapart other hother entry List.mem_cons_self
  have hlater : after.flatMap f = [] := by
    rw [List.flatMap_eq_nil_iff]
    intro other hother
    refine hothers other (List.mem_append_right _ (List.mem_cons_of_mem _ hother)) ?_
    rintro rfl
    exact hafter hother
  rw [List.flatMap_append, List.flatMap_cons, hbefore, hlater, List.append_nil, List.nil_append]

/-- A complete user with another password has at most one defect, that the password has not the form
that the scheme asks for. -/
theorem User.IsComplete.defects_withPassword {scheme : PasswordScheme} {roles : List Role}
    {u : User} (h : u.IsComplete scheme roles) {stored : String} (hstored : stored ≠ "")
    (name : String) :
    (u.withPassword stored).defects scheme (knownRoles roles) name =
      if scheme = .hashed ∧ looksHashed stored = false then [.badPassword name] else [] := by
  obtain ⟨granted, hgranted, hne, hknown⟩ := h.roles
  have hpresent : present (u.withPassword stored).password = some stored :=
    present_eq_some_iff.mpr ⟨rfl, hstored⟩
  have hoccupied : occupied (u.withPassword stored).roles = some granted :=
    occupied_eq_some_iff.mpr ⟨hgranted, hne⟩
  rw [User.defects, hpresent]
  dsimp only
  rw [hoccupied]
  dsimp only
  rw [(grantDefects_eq_nil_iff roles name granted).mpr hknown]

namespace Credentials

variable {scheme : PasswordScheme} {c : Credentials} {u : User} {user stored : String}

/-- The users of a record with another password. -/
theorem userList_withPassword (c : Credentials) (user stored : String) :
    (c.withPassword user stored).userList = c.userList.map fun u =>
      if u.name = some user then u.withPassword stored else u := by
  unfold userList withPassword
  cases c.users <;> rfl

/-- Another password leaves the names of the users as they are. -/
theorem map_name_withPassword (c : Credentials) (user stored : String) :
    (c.withPassword user stored).userList.map User.name = c.userList.map User.name := by
  rw [userList_withPassword, List.map_map]
  refine List.map_congr_left ?_
  intro u _
  rw [Function.comp_apply]
  split <;> rfl

/-- A user whose password is another now is in the record with it. -/
theorem mem_userList_withPassword (hu : u ∈ c.userList) (hname : u.name = some user) :
    u.withPassword stored ∈ (c.withPassword user stored).userList := by
  rw [userList_withPassword]
  exact List.mem_map.mpr ⟨u, hu, if_pos hname⟩

/-- No two users of a well-formed record with another password share a name. -/
theorem IsWellFormed.nodup_withPassword (h : c.IsWellFormed scheme) (user stored : String) :
    ((c.withPassword user stored).userList.map User.name).Nodup := by
  rw [map_name_withPassword]
  exact h.userNames

/-- The users of a well-formed record with another password have the defects of the one whose
password it is. -/
theorem IsWellFormed.userDefects_withPassword (h : c.IsWellFormed scheme) (hu : u ∈ c.userList)
    (hname : u.name = some user) :
    userDefects scheme (knownRoles c.roleList) (c.withPassword user stored).userList =
      (u.withPassword stored).defects scheme (knownRoles c.roleList) user := by
  have hnamed : ∀ v ∈ (c.withPassword user stored).userList,
      ∃ key, v.name = some key ∧ key ≠ "" ∧ key ∉ ([] : List String) := by
    intro v hv
    have hmem := List.mem_map_of_mem (f := User.name) hv
    rw [map_name_withPassword] at hmem
    obtain ⟨w, hw, hsame⟩ := List.mem_map.mp hmem
    obtain ⟨key, hkey, hne⟩ := (h.userComplete w hw).name
    exact ⟨key, hsame ▸ hkey, hne, List.not_mem_nil⟩
  have hnodup := h.nodup_withPassword user stored
  have hothers : ∀ v ∈ (c.withPassword user stored).userList, v ≠ u.withPassword stored →
      (v.name.elim [] fun key => v.defects scheme (knownRoles c.roleList) key) = [] := by
    intro v hv hother
    rw [userList_withPassword] at hv
    obtain ⟨w, hw, rfl⟩ := List.mem_map.mp hv
    by_cases hbears : w.name = some user
    · -- No other user bears the name.
      obtain rfl : w = u := List.inj_on_of_nodup_map h.userNames hw hu (hbears.trans hname.symm)
      exact absurd (if_pos hbears) hother
    · have hcomplete := h.userComplete w hw
      obtain ⟨key, hkey, _⟩ := hcomplete.name
      rw [if_neg hbears, hkey, Option.elim_some, User.defects_eq_nil_iff]
      exact ⟨hcomplete.password, hcomplete.roles⟩
  have hkept : (u.withPassword stored).name = some user := hname
  rw [userDefects, entryDefects_eq_flatMap _ _ _ hnamed hnodup,
    flatMap_eq_of_forall_ne (mem_userList_withPassword hu hname) hnodup.of_map hothers, hkept,
    Option.elim_some]

/-- A record without defects, with another password for one of its users, has at most one defect,
that the password of this user has not the form that the scheme asks for. -/
theorem IsWellFormed.defects_withPassword (h : c.IsWellFormed scheme) (hu : u ∈ c.userList)
    (hname : u.name = some user) (hstored : stored ≠ "") :
    (c.withPassword user stored).defects scheme =
      if scheme = .hashed ∧ looksHashed stored = false then [.badPassword user] else [] := by
  obtain ⟨users, hus, _⟩ := h.users
  have husers : occupied (c.withPassword user stored).users =
      some (c.withPassword user stored).userList := by
    refine occupied_eq_some_iff.mpr ⟨?_, List.ne_nil_of_mem (mem_userList_withPassword hu hname)⟩
    simp only [userList, withPassword, hus, Option.map_some, Option.getD_some]
  have hroles : occupied (c.withPassword user stored).roles = some c.roleList := by
    obtain ⟨roles, hrs, hne⟩ := h.roles
    have hlist : c.roleList = roles := by rw [roleList, hrs, Option.getD_some]
    exact occupied_eq_some_iff.mpr ⟨hlist ▸ hrs, hlist ▸ hne⟩
  have hroleDefects : roleDefects c.roleList = [] :=
    (roleDefects_eq_nil_iff c.roleList).mpr ⟨h.roleComplete, h.roleIds⟩
  rw [defects, husers, hroles]
  dsimp only
  rw [hroleDefects, List.nil_append, h.userDefects_withPassword hu hname,
    (h.userComplete u hu).defects_withPassword hstored user]

/-- A record without defects, with another password for one of its users, entitles whoever presents
that password to the roles of the user. -/
theorem IsWellFormed.entitles_withPassword (h : c.IsWellFormed scheme) (hu : u ∈ c.userList)
    (hname : u.name = some user) {password : List UInt8}
    (haccepts : scheme.Accepts password stored) :
    (c.withPassword user stored).Entitles scheme user password (u.roles.getD []) where
  users := ⟨_, mem_userList_withPassword hu hname, user, hname⟩
  roles := by
    obtain ⟨r, hr, id, hid⟩ := h.exists_role
    exact ⟨r, hr, id, hid⟩
  entry := by
    have hlookup : (indexed User.name (c.withPassword user stored).userList).lookup user =
        some (u.withPassword stored) :=
      (lookup_indexed_eq_some_iff (h.nodup_withPassword user stored)).mpr
        ⟨mem_userList_withPassword hu hname, hname⟩
    rw [lookup_indexed] at hlookup
    exact ⟨_, stored, hlookup, rfl, haccepts, rfl⟩

end Credentials

end BrokerAccess
