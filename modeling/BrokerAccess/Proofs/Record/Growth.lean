import BrokerAccess.Proofs.Record.WellFormed

/-!
# Records that grow

The report on a record with users and roles is a part about roles and then a part about users. An
entry that is appended to the record adds to the end of its part what there is to say about that
entry, and changes nothing that was reported before, with one exception: a role that brings a new id
settles every reference to that id, also when the role itself is defective. For the pass over the
entries remembers names only, and a later entry takes no name from an earlier one.
-/

namespace BrokerAccess

/-! ## What a report is about -/

/-- What a defect is about. -/
inductive DefectSubject where
  /-- The record as a whole. -/
  | record
  /-- A role, by its id if it has one. -/
  | role (id : Option String)
  /-- A user, by its name if it has one. -/
  | user (name : Option String)
  deriving DecidableEq, Repr

/-- The entry that a defect is found in. -/
def Defect.subject : Defect → DefectSubject
  | .noUsers => .record
  | .noRoles => .record
  | .unnamedRole => .role none
  | .repeatedRole id => .role (some id)
  | .emptyRole id => .role (some id)
  | .missingTopic role => .role (some role)
  | .badConstraint _ role => .role (some role)
  | .unnamedUser => .user none
  | .repeatedUser name => .user (some name)
  | .missingPassword user => .user (some user)
  | .badPassword user => .user (some user)
  | .missingRoles user => .user (some user)
  | .emptyRoleId user => .user (some user)
  | .unknownRole _ user => .user (some user)

/-- The subject is a role. -/
def DefectSubject.isRole : DefectSubject → Bool
  | .role _ => true
  | _ => false

/-- The subject is a user. -/
def DefectSubject.isUser : DefectSubject → Bool
  | .user _ => true
  | _ => false

/-- The defect is a reference to an id that no role has. -/
def Defect.isUnknownRole (id : String) : Defect → Bool
  | .unknownRole role _ => role = id
  | _ => false

/-! ## Entries that are appended -/

section entryDefects

variable {α : Type} {name : α → Option String} {unnamed : Defect} {repeated : String → Defect}
  {own : String → α → List Defect}

/-- It does not matter in which order, or how often, names are taken. -/
theorem entryDefects_congr {taken taken' : List String} (h : ∀ key, key ∈ taken ↔ key ∈ taken')
    (entries : List α) :
    entryDefects name unnamed repeated own taken entries =
      entryDefects name unnamed repeated own taken' entries := by
  induction entries generalizing taken taken' with
  | nil => rfl
  | cons entry rest ih =>
    rw [entryDefects, entryDefects]
    cases present (name entry) with
    | none => simp only [ih h]
    | some key =>
      have hmore : ∀ k, k ∈ key :: taken ↔ k ∈ key :: taken' := by
        intro k
        simp only [List.mem_cons, h k]
      simp only [h key, ih h, ih hmore]

/-- Entries are reported on one part after the other, and the names of the first part are taken for
the second. -/
theorem entryDefects_append (taken : List String) (first second : List α) :
    entryDefects name unnamed repeated own taken (first ++ second) =
      entryDefects name unnamed repeated own taken first ++
        entryDefects name unnamed repeated own (taken ++ entryNames name first) second := by
  induction first generalizing taken with
  | nil => simp [entryDefects, entryNames]
  | cons entry rest ih =>
    rw [List.cons_append, entryDefects, entryDefects, entryNames, List.filterMap_cons]
    cases present (name entry) with
    | none => simp only [ih, entryNames, List.cons_append]
    | some key =>
      by_cases hkey : key ∈ taken
      · have hsame : ∀ k, k ∈ taken ++ entryNames name rest ↔
            k ∈ taken ++ key :: entryNames name rest := by
          intro k
          simp only [List.mem_append, List.mem_cons]
          constructor
          · rintro (h | h)
            · exact Or.inl h
            · exact Or.inr (Or.inr h)
          · rintro (h | rfl | h)
            · exact Or.inl h
            · exact Or.inl hkey
            · exact Or.inr h
        simp only [if_pos hkey, ih, List.cons_append]
        rw [entryDefects_congr hsame, entryNames]
      · have hsame : ∀ k, k ∈ key :: taken ++ entryNames name rest ↔
            k ∈ taken ++ key :: entryNames name rest := by
          intro k
          simp only [List.cons_append, List.mem_cons, List.mem_append]
          exact or_left_comm
        simp only [if_neg hkey, ih, List.append_assoc]
        rw [entryDefects_congr hsame, entryNames]

/-- All that is reported has a property that every single report has. -/
theorem forall_entryDefects {P : Defect → Prop} (hunnamed : P unnamed)
    (hrepeated : ∀ key, P (repeated key)) (hown : ∀ key entry, ∀ d ∈ own key entry, P d)
    (taken : List String) (entries : List α) :
    ∀ d ∈ entryDefects name unnamed repeated own taken entries, P d := by
  induction entries generalizing taken with
  | nil => exact List.forall_mem_nil P
  | cons entry rest ih =>
    rw [entryDefects]
    cases present (name entry) with
    | none => exact List.forall_mem_cons.mpr ⟨hunnamed, ih taken⟩
    | some key =>
      dsimp only
      split
      · exact List.forall_mem_cons.mpr ⟨hrepeated key, ih taken⟩
      · exact List.forall_mem_append.mpr ⟨hown key entry, ih (key :: taken)⟩

/-- Where less is found in each entry, less is reported, and the rest in the same order. -/
theorem entryDefects_filter {p : Defect → Bool} {less : String → α → List Defect}
    (hunnamed : p unnamed = true) (hrepeated : ∀ key, p (repeated key) = true)
    (hless : ∀ key entry, less key entry = (own key entry).filter p) (taken : List String)
    (entries : List α) :
    entryDefects name unnamed repeated less taken entries =
      (entryDefects name unnamed repeated own taken entries).filter p := by
  induction entries generalizing taken with
  | nil => rfl
  | cons entry rest ih =>
    rw [entryDefects, entryDefects]
    cases present (name entry) with
    | none => simp only [ih, List.filter_cons, hunnamed, if_true]
    | some key =>
      by_cases hkey : key ∈ taken
      · simp only [if_pos hkey, ih, List.filter_cons, hrepeated key, if_true]
      · simp only [if_neg hkey, ih, List.filter_append, hless key entry]

end entryDefects

/-! ## The two parts of a report -/

/-- What is found in a permission is about its role. -/
theorem Permission.subject_of_mem_defects {role : String} {p : Permission} :
    ∀ d ∈ p.defects role, d.subject = .role (some role) := by
  intro d hd
  simp only [Permission.defects, List.mem_append, List.mem_ite_nil_right, List.mem_singleton] at hd
  rcases hd with ((((⟨_, rfl⟩ | ⟨_, rfl⟩) | ⟨_, rfl⟩) | ⟨_, rfl⟩) | ⟨_, rfl⟩) | ⟨_, rfl⟩ <;> rfl

/-- What is found in a role that has an id to itself is about this role. -/
theorem Role.subject_of_mem_defects {id : String} {r : Role} :
    ∀ d ∈ r.defects id, d.subject = .role (some id) := by
  unfold Role.defects
  cases occupied r.permissions with
  | none =>
    rw [List.forall_mem_singleton]
    rfl
  | some permissions =>
    intro d hd
    obtain ⟨p, _, hp⟩ := List.mem_flatMap.mp hd
    exact Permission.subject_of_mem_defects d hp

/-- What is found in the role list of a user is about this user. -/
theorem subject_of_mem_grantDefects {known : List String} {user : String} {granted : List String} :
    ∀ d ∈ grantDefects known user granted, d.subject = .user (some user) := by
  intro d hd
  obtain ⟨role, _, hrole⟩ := List.mem_flatMap.mp hd
  split at hrole
  · obtain rfl := List.mem_singleton.mp hrole
    rfl
  · split at hrole
    · cases hrole
    · obtain rfl := List.mem_singleton.mp hrole
      rfl

/-- What is found in a user that has a name to itself is about this user. -/
theorem User.subject_of_mem_defects {scheme : PasswordScheme} {known : List String} {name : String}
    {u : User} : ∀ d ∈ u.defects scheme known name, d.subject = .user (some name) := by
  unfold User.defects
  cases present u.password with
  | none =>
    rw [List.forall_mem_singleton]
    rfl
  | some password =>
    dsimp only
    split
    · rw [List.forall_mem_singleton]
      rfl
    · cases occupied u.roles with
      | none =>
        rw [List.forall_mem_singleton]
        rfl
      | some granted => exact subject_of_mem_grantDefects

/-- The pass over the roles reports on roles. -/
theorem isRole_of_mem_roleDefects (roles : List Role) :
    ∀ d ∈ roleDefects roles, d.subject.isRole = true := by
  refine forall_entryDefects (P := fun d => d.subject.isRole = true) rfl (fun _ => rfl) ?_ [] roles
  intro id r d hd
  rw [Role.subject_of_mem_defects d hd]
  rfl

/-- The pass over the users reports on users. -/
theorem isUser_of_mem_userDefects (scheme : PasswordScheme) (known : List String)
    (users : List User) : ∀ d ∈ userDefects scheme known users, d.subject.isUser = true := by
  refine forall_entryDefects (P := fun d => d.subject.isUser = true) rfl (fun _ => rfl) ?_ [] users
  intro name u d hd
  rw [User.subject_of_mem_defects d hd]
  rfl

/-- A subject is not a role and a user at once. -/
theorem DefectSubject.isRole_eq_false_of_isUser {subject : DefectSubject}
    (h : subject.isUser = true) : subject.isRole = false := by
  cases subject with
  | record => rfl
  | role id => cases h
  | user name => rfl

/-! ## Roles that become known -/

/-- A role that becomes known settles the references to it and nothing else. -/
theorem grantDefects_settled (known : List String) (id user : String) (granted : List String)
    (h : id ≠ "") : grantDefects (known ++ [id]) user granted =
      (grantDefects known user granted).filter fun d => !d.isUnknownRole id := by
  rw [grantDefects, grantDefects, List.filter_flatMap]
  congr 1
  funext role
  by_cases hempty : role = ""
  · simp only [if_pos hempty]
    rfl
  · by_cases hknown : role ∈ known
    · simp [hempty, hknown]
    · by_cases hid : role = id
      · subst hid
        simp [hempty, hknown, Defect.isUnknownRole]
      · simp [hempty, hknown, hid, Defect.isUnknownRole]

/-- A role that becomes known settles the references of a user to it and nothing else. -/
theorem User.defects_settled (scheme : PasswordScheme) (known : List String) (id name : String)
    (u : User) (h : id ≠ "") : u.defects scheme (known ++ [id]) name =
      (u.defects scheme known name).filter fun d => !d.isUnknownRole id := by
  unfold User.defects
  cases present u.password with
  | none => rfl
  | some password =>
    dsimp only
    split
    · rfl
    · cases occupied u.roles with
      | none => rfl
      | some granted => exact grantDefects_settled known id name granted h

/-- A role that becomes known settles the references of all users to it and nothing else. -/
theorem userDefects_settled (scheme : PasswordScheme) (known : List String) (id : String)
    (users : List User) (h : id ≠ "") : userDefects scheme (known ++ [id]) users =
      (userDefects scheme known users).filter fun d => !d.isUnknownRole id :=
  entryDefects_filter rfl (fun _ => rfl) (fun name u => u.defects_settled scheme known id name h) []
    users

/-- It does not matter in which order, or how often, roles are known. -/
theorem userDefects_congr {known known' : List String} (h : ∀ id, id ∈ known ↔ id ∈ known')
    (scheme : PasswordScheme) (users : List User) :
    userDefects scheme known users = userDefects scheme known' users := by
  have hgrant : grantDefects known = grantDefects known' := by
    funext user granted
    simp only [grantDefects, h]
  simp only [userDefects, User.defects, hgrant]

/-! ## Records with one more entry -/

namespace Credentials

/-- The record with one more user. -/
def addUser (c : Credentials) (u : User) : Credentials := { c with users := some (c.userList ++ [u]) }

/-- The record with one more role. -/
def addRole (c : Credentials) (r : Role) : Credentials := { c with roles := some (c.roleList ++ [r]) }

/-- What is reported about roles. -/
def rolePart (scheme : PasswordScheme) (c : Credentials) : List Defect :=
  (c.defects scheme).filter fun d => d.subject.isRole

/-- What is reported about users. -/
def userPart (scheme : PasswordScheme) (c : Credentials) : List Defect :=
  (c.defects scheme).filter fun d => d.subject.isUser

/-- What there is to report about a user who comes after those of the record. -/
def newUserDefects (scheme : PasswordScheme) (c : Credentials) (u : User) : List Defect :=
  match present u.name with
  | none => [.unnamedUser]
  | some name =>
    if ∃ other ∈ c.userList, other.name = some name then [.repeatedUser name]
    else u.defects scheme (knownRoles c.roleList) name

variable {scheme : PasswordScheme} {c : Credentials}

/-- With users and roles, the report is what the two passes find. -/
theorem defects_eq_append (scheme : PasswordScheme) (husers : c.userList ≠ [])
    (hroles : c.roleList ≠ []) : c.defects scheme =
      roleDefects c.roleList ++ userDefects scheme (knownRoles c.roleList) c.userList := by
  have hoccupied {α : Type} {list : Option (List α)} (h : list.getD [] ≠ []) :
      occupied list = some (list.getD []) := by
    cases list with
    | none => exact absurd rfl h
    | some entries => exact occupied_eq_some_iff.mpr ⟨rfl, h⟩
  rw [defects, hoccupied husers, hoccupied hroles]
  rfl

/-- With users and roles, what is reported about roles is what the pass over them finds. -/
theorem rolePart_eq (scheme : PasswordScheme) (husers : c.userList ≠ [])
    (hroles : c.roleList ≠ []) : c.rolePart scheme = roleDefects c.roleList := by
  rw [rolePart, defects_eq_append scheme husers hroles, List.filter_append,
    List.filter_eq_self.mpr (isRole_of_mem_roleDefects _), List.filter_eq_nil_iff.mpr,
    List.append_nil]
  intro d hd
  simp [DefectSubject.isRole_eq_false_of_isUser (isUser_of_mem_userDefects _ _ _ d hd)]

/-- With users and roles, what is reported about users is what the pass over them finds. -/
theorem userPart_eq (scheme : PasswordScheme) (husers : c.userList ≠ [])
    (hroles : c.roleList ≠ []) :
    c.userPart scheme = userDefects scheme (knownRoles c.roleList) c.userList := by
  rw [userPart, defects_eq_append scheme husers hroles, List.filter_append,
    List.filter_eq_nil_iff.mpr, List.filter_eq_self.mpr (isUser_of_mem_userDefects _ _ _),
    List.nil_append]
  intro d hd huser
  have hrole := isRole_of_mem_roleDefects _ d hd
  rw [DefectSubject.isRole_eq_false_of_isUser huser] at hrole
  cases hrole

/-- A new user is reported on for itself. -/
theorem subject_of_mem_newUserDefects {u : User} :
    ∀ d ∈ c.newUserDefects scheme u, d.subject = .user (present u.name) := by
  unfold newUserDefects
  cases present u.name with
  | none =>
    rw [List.forall_mem_singleton]
    rfl
  | some name =>
    dsimp only
    split
    · rw [List.forall_mem_singleton]
      rfl
    · exact User.subject_of_mem_defects

/-- What the pass over the users finds in one that comes after the others. -/
theorem userDefects_concat (scheme : PasswordScheme) (c : Credentials) (u : User) :
    userDefects scheme (knownRoles c.roleList) (c.userList ++ [u]) =
      userDefects scheme (knownRoles c.roleList) c.userList ++ c.newUserDefects scheme u := by
  rw [userDefects, entryDefects_append, userDefects, newUserDefects]
  congr 1
  cases hname : present u.name with
  | none => simp only [entryDefects, hname]
  | some name =>
    have hne : name ≠ "" := (present_eq_some_iff.mp hname).2
    simp only [entryDefects, hname, List.nil_append, mem_entryNames_iff, hne, ne_eq,
      not_false_eq_true, true_and, List.append_nil]

/-- What the pass over the roles finds in one that comes after the others: that it has no id, that
an earlier one has its id, or what is wrong with it. -/
theorem roleDefects_concat (roles : List Role) (r : Role) :
    roleDefects (roles ++ [r]) = roleDefects roles ++
      match present r.id with
      | none => [.unnamedRole]
      | some id => if id ∈ knownRoles roles then [.repeatedRole id] else r.defects id := by
  rw [roleDefects, entryDefects_append, roleDefects, List.nil_append]
  congr 1
  rw [entryDefects]
  cases present r.id with
  | none => rfl
  | some id =>
    simp only [entryDefects, List.append_nil]
    rfl

/-- The ids of roles and of one that comes after them. -/
theorem knownRoles_concat (roles : List Role) (r : Role) :
    knownRoles (roles ++ [r]) = knownRoles roles ++ (present r.id).toList := by
  rw [knownRoles, List.filterMap_append, List.filterMap_cons, List.filterMap_nil, ← knownRoles]
  cases present r.id <;> rfl

/-- The report on a record with users and roles is what there is to say about its roles and then
what there is to say about its users. A user who is added is reported on at the end, for itself
alone. A role that is added without an id, or with the id of another one, is reported for this at
the end of the part about roles. A role that is added with a new id is reported on there for what is
wrong with it, and of the part about users exactly the references to this id go away. In each case
everything else stays as it was, and in its order. -/
theorem defects_grown (scheme : PasswordScheme) {c : Credentials} (husers : c.userList ≠ [])
    (hroles : c.roleList ≠ []) :
    c.defects scheme = c.rolePart scheme ++ c.userPart scheme ∧
    (∀ u, (c.addUser u).defects scheme = c.defects scheme ++ c.newUserDefects scheme u ∧
      ∀ d ∈ c.newUserDefects scheme u, d.subject = .user (present u.name)) ∧
    (∀ r, (present r.id = none ∨ ∃ other ∈ c.roleList, other.id = r.id) →
      (c.addRole r).defects scheme =
        (c.rolePart scheme ++ [(present r.id).elim .unnamedRole .repeatedRole]) ++
          c.userPart scheme) ∧
    (∀ r id, present r.id = some id → (∀ other ∈ c.roleList, other.id ≠ some id) →
      (c.addRole r).defects scheme = (c.rolePart scheme ++ r.defects id) ++
        ((c.userPart scheme).filter fun d => !d.isUnknownRole id) ∧
      ∀ d ∈ r.defects id, d.subject = .role (some id)) := by
  have hmore {α : Type} (entries : List α) (entry : α) : entries ++ [entry] ≠ [] := by simp
  rw [rolePart_eq scheme husers hroles, userPart_eq scheme husers hroles]
  have hrole (r : Role) : (c.addRole r).defects scheme = roleDefects (c.roleList ++ [r]) ++
      userDefects scheme (knownRoles (c.roleList ++ [r])) c.userList :=
    defects_eq_append scheme husers (hmore c.roleList r)
  refine ⟨defects_eq_append scheme husers hroles, ?_, ?_, ?_⟩
  · intro u
    refine ⟨?_, subject_of_mem_newUserDefects⟩
    have hreport : (c.addUser u).defects scheme = roleDefects c.roleList ++
        userDefects scheme (knownRoles c.roleList) (c.userList ++ [u]) :=
      defects_eq_append scheme (hmore c.userList u) hroles
    rw [hreport, defects_eq_append scheme husers hroles, userDefects_concat, List.append_assoc]
  · intro r h
    rw [hrole, roleDefects_concat, knownRoles_concat]
    cases hid : present r.id with
    | none => simp only [Option.toList_none, List.append_nil, Option.elim_none]
    | some id =>
      obtain ⟨hsome, hne⟩ := present_eq_some_iff.mp hid
      have hknown : id ∈ knownRoles c.roleList := by
        rcases h with hnone | ⟨other, hother, hsame⟩
        · rw [hid] at hnone
          cases hnone
        · exact mem_knownRoles_iff.mpr ⟨hne, other, hother, hsame.trans hsome⟩
      have hsame : userDefects scheme (knownRoles c.roleList ++ [id]) c.userList =
          userDefects scheme (knownRoles c.roleList) c.userList := by
        refine userDefects_congr ?_ scheme c.userList
        intro other
        rw [List.mem_append, List.mem_singleton]
        exact ⟨fun h => h.elim (fun hmem => hmem) fun he => he ▸ hknown, Or.inl⟩
      simp only [if_pos hknown, Option.toList_some, hsame, Option.elim_some]
  · intro r id hid hnew
    have hne : id ≠ "" := (present_eq_some_iff.mp hid).2
    have hfree : id ∉ knownRoles c.roleList := by
      intro hknown
      obtain ⟨_, other, hother, hsame⟩ := mem_knownRoles_iff.mp hknown
      exact hnew other hother hsame
    refine ⟨?_, Role.subject_of_mem_defects⟩
    rw [hrole, roleDefects_concat, knownRoles_concat, hid]
    simp only [if_neg hfree, Option.toList_some, userDefects_settled scheme _ id _ hne]

/-- A record with a role that grants nothing, a user without a password, and a user with three roles
that are not in the record, one of them without an id. -/
def draft : Credentials where
  users := some [{ name := some "eve" },
    { name := some "bob", password := some "hertz", roles := some ["scribe", "", "porter"] }]
  roles := some [{ id := some "clerk" }]

/-- A namesake of a user, a second role of one id, and a new role that grants nothing are reported,
the last one in exchange for the reference to it. -/
theorem defects_grown_draft :
    draft.userList ≠ [] ∧ draft.roleList ≠ [] ∧
    (draft.addUser { name := some "bob" }).defects .plain =
      [.emptyRole "clerk", .missingPassword "eve", .unknownRole "scribe" "bob", .emptyRoleId "bob",
        .unknownRole "porter" "bob", .repeatedUser "bob"] ∧
    (∃ other ∈ draft.roleList, other.id = some "clerk") ∧
    (draft.addRole { id := some "clerk" }).defects .plain =
      [.emptyRole "clerk", .repeatedRole "clerk", .missingPassword "eve",
        .unknownRole "scribe" "bob", .emptyRoleId "bob", .unknownRole "porter" "bob"] ∧
    (∀ other ∈ draft.roleList, other.id ≠ some "scribe") ∧
    (draft.addRole { id := some "scribe" }).defects .plain =
      [.emptyRole "clerk", .emptyRole "scribe", .missingPassword "eve", .emptyRoleId "bob",
        .unknownRole "porter" "bob"] := by
  have husers : draft.userList ≠ [] := by decide
  have hroles : draft.roleList ≠ [] := by decide
  have htaken : ∃ other ∈ draft.roleList, other.id = some "clerk" := by decide
  have hnew : ∀ other ∈ draft.roleList, other.id ≠ some "scribe" := by decide
  obtain ⟨_, huser, hrepeated, hknown⟩ := defects_grown .plain husers hroles
  refine ⟨husers, hroles, (huser _).1.trans ?_, htaken, ?_, hnew, ?_⟩
  · decide
  · exact (hrepeated { id := some "clerk" } (Or.inr htaken)).trans (by decide)
  · exact (hknown { id := some "scribe" } "scribe" (by decide) hnew).1.trans (by decide)

end Credentials

end BrokerAccess
