import Mathlib.Data.List.Forall2
import Mathlib.Data.List.Nodup
import BrokerAccess.Proofs.Gate
import BrokerAccess.Proofs.Record.File

/-!
# What accepted records grant

A directory that is rebuilt from a record without defects loses nothing of it: every user is
found under its name with its own roles, every role that a user is granted is found, and each
permission becomes one grant that says what the permission says. The defaults that a grant
would fall back to, and the skipping of roles that are not known, are never used. So whoever
is admitted is granted something.
-/

namespace BrokerAccess

/-- A grant is what a permission says, with the topic filter settled for one connection. -/
structure Permission.IsGranted (clientId userName : String) (p : Permission) (g : Grant) :
    Prop where
  /-- The topic filter is the permission's, with the values of the connection in it. -/
  topic : ∃ topic, p.topic = some topic ∧
    g.topicFilter = Template.substitute topic clientId userName
  /-- The activity is the permission's own. -/
  activity : p.activity = some g.activity
  /-- The service levels are the permission's own. -/
  qos : p.qos = some g.qos
  /-- The retained messages are the permission's own. -/
  retain : p.retain = some g.retain
  /-- The kinds of subscription are the permission's own. -/
  sharedSubscription : p.sharedSubscription = some g.sharedSubscription
  /-- The shared groups are the permission's own. -/
  sharedGroup : p.sharedGroup = some g.sharedGroup
  /-- All this is allowed. -/
  access : g.access = .allow

/-- A permission with a topic comes to what it says once every constraint that is absent is the one
that allows all. -/
theorem Permission.rendering?_eq_some_iff {clientId userName : String} {p : Permission}
    {g : Grant} :
    p.rendering? clientId userName = some g ↔ p.filled.IsGranted clientId userName g := by
  obtain ⟨topic, activity, qos, retain, sharedSubscription, sharedGroup⟩ := p
  cases topic with
  | none =>
    constructor
    · intro h
      cases h
    · rintro ⟨⟨topic, htopic, _⟩⟩
      cases htopic
  | some topic =>
    constructor
    · intro h
      obtain rfl := Option.some.inj h
      refine ⟨⟨topic, rfl, rfl⟩, ?_, ?_, ?_, ?_, ?_, rfl⟩ <;>
        simp only [filled, Option.or_some, anyGroup]
    · rintro ⟨⟨other, htopic, hfilter⟩, hactivity, hqos, hretain, hshared, hgroup, haccess⟩
      obtain rfl := Option.some.inj htopic
      simp only [filled, Option.or_some, Option.some.injEq] at hactivity hqos hretain hshared
      simp only [filled, Option.or_some, Option.some.injEq, anyGroup] at hgroup
      obtain ⟨topicFilter, _, _, _, _, _, access⟩ := g
      dsimp only at hfilter haccess
      subst hfilter haccess hactivity hqos hretain hshared hgroup
      rfl

/-- A complete permission grants what it says. -/
theorem Permission.IsComplete.exists_grant {p : Permission} (h : p.IsComplete)
    (clientId userName : String) :
    ∃ g, Directory.grant clientId userName p = some g ∧ p.IsGranted clientId userName g := by
  obtain ⟨topic, htopic, _⟩ := h.topic
  obtain ⟨group, hgroup, _⟩ := h.sharedGroup
  have hfilled : p.filled = p := p.filled_eq_self_iff.mpr
    ⟨h.activity, h.qos, h.retain, h.sharedSubscription, by rw [hgroup]; rfl⟩
  have hsome : (p.rendering? clientId userName).isSome = true := by
    rw [rendering?, htopic]
    rfl
  obtain ⟨g, hg⟩ := Option.isSome_iff_exists.mp hsome
  rw [Directory.grant_eq_rendering?]
  exact ⟨g, hg, hfilled ▸ rendering?_eq_some_iff.mp hg⟩

/-- Complete permissions grant one by one what they say. -/
theorem forall₂_filterMap_grant {ps : List Permission} (h : ∀ p ∈ ps, p.IsComplete)
    (clientId userName : String) :
    List.Forall₂ (Permission.IsGranted clientId userName) ps
      (ps.filterMap (Directory.grant clientId userName)) := by
  induction ps with
  | nil => exact .nil
  | cons p rest ih =>
    rw [List.forall_mem_cons] at h
    obtain ⟨g, hg, hgrants⟩ := h.1.exists_grant clientId userName
    rw [List.filterMap_cons_some hg]
    exact .cons hgrants (ih h.2)

/-- The permissions of roles, role by role. -/
def permissionsOf (roles : List Role) : List Permission :=
  roles.flatMap fun r => r.permissions.getD []

/-- A complete role has some permission, and all that it has are complete. -/
theorem Role.IsComplete.permissions_getD {r : Role} (h : r.IsComplete) :
    r.permissions.getD [] ≠ [] ∧ ∀ p ∈ r.permissions.getD [], p.IsComplete := by
  obtain ⟨ps, hp, hne, hall⟩ := h.permissions
  rw [hp, Option.getD_some]
  exact ⟨hne, hall⟩

/-- If no two entries share a name, an index gives for a name exactly the entry that bears it. -/
theorem lookup_indexed_eq_some_iff {α : Type} {name : α → Option String} {list : List α}
    (h : (list.map name).Nodup) {key : String} {entry : α} :
    (indexed name list).lookup key = some entry ↔ entry ∈ list ∧ name entry = some key := by
  rw [lookup_indexed_of_nodup h]
  constructor
  · intro hf
    exact ⟨List.mem_of_find?_eq_some hf, by simpa using List.find?_some hf⟩
  · rintro ⟨hm, hk⟩
    cases hf : list.find? fun other => name other = some key with
    | none =>
      have hnone := List.find?_eq_none.mp hf entry hm
      rw [decide_eq_true_eq] at hnone
      exact absurd hk hnone
    | some other =>
      have hother : name other = some key := by simpa using List.find?_some hf
      have hmem := List.mem_of_find?_eq_some hf
      rw [List.inj_on_of_nodup_map h hmem hm (hother.trans hk.symm)]

namespace Credentials.IsWellFormed

variable {scheme : PasswordScheme} {c : Credentials}

/-- Users of a well-formed record are found under their names, and nobody else is. -/
theorem lookup_user (h : c.IsWellFormed scheme) (d : Directory) {name : String} {u : User} :
    (d.update c).users.lookup name = some u ↔ u ∈ c.userList ∧ u.name = some name :=
  lookup_indexed_eq_some_iff h.userNames

/-- Roles of a well-formed record are found under their ids, and no others are. -/
theorem lookup_role (h : c.IsWellFormed scheme) (d : Directory) {id : String} {r : Role} :
    (d.update c).roles.lookup id = some r ↔ r ∈ c.roleList ∧ r.id = some id :=
  lookup_indexed_eq_some_iff h.roleIds

/-- The roles that are found for a name are those of the user who bears it. -/
theorem exists_user_of_rolesOf (h : c.IsWellFormed scheme) (d : Directory) {now : Nat}
    {name : String} {password : List UInt8} {roles : List String}
    (hr : ((d.update c).rolesOf now name password).roles = some roles) :
    ∃ u ∈ c.userList, u.name = some name ∧ u.roles = some roles ∧ roles ≠ [] := by
  unfold Directory.rolesOf at hr
  split at hr
  next => cases hr
  next =>
    split at hr
    next => cases hr
    next u stored hlookup =>
      obtain ⟨found, hfound, hpassword⟩ := Option.bind_eq_some_iff.mp hlookup
      obtain ⟨_, _, he⟩ := Option.map_eq_some_iff.mp hpassword
      obtain rfl : found = u := congrArg Prod.fst he
      obtain ⟨hm, hn⟩ := (h.lookup_user d).mp hfound
      obtain ⟨granted, hg, hne, _⟩ := (h.userComplete found hm).roles
      dsimp only at hr
      rw [hg, Option.getD_some] at hr
      split at hr
      next =>
        obtain rfl := Option.some.inj hr
        exact ⟨found, hm, hn, hg, hne⟩
      next => cases hr

/-- The roles of a user are all found, in the order in which the user lists them. -/
theorem exists_listed (h : c.IsWellFormed scheme) (d : Directory) {roles : List String}
    (hroles : ∀ id ∈ roles, ∃ r ∈ c.roleList, r.id = some id) :
    ∃ listed : List Role, List.Forall₂ (fun id r => r ∈ c.roleList ∧ r.id = some id) roles listed ∧
      (∀ r ∈ listed, r ∈ c.roleList) ∧ (d.update c).grantsJournal roles = [] ∧
      ∀ clientId userName, (d.update c).grants clientId userName roles =
        (permissionsOf listed).filterMap (Directory.grant clientId userName) := by
  induction roles with
  | nil => exact ⟨[], .nil, List.forall_mem_nil _, rfl, fun _ _ => rfl⟩
  | cons id rest ih =>
    rw [List.forall_mem_cons] at hroles
    obtain ⟨r, hm, hid⟩ := hroles.1
    obtain ⟨listed, hlisted, hmem, hjournal, hgrants⟩ := ih hroles.2
    have hlookup := (h.lookup_role d).mpr ⟨hm, hid⟩
    refine ⟨r :: listed, .cons ⟨hm, hid⟩ hlisted, List.forall_mem_cons.mpr ⟨hm, hmem⟩, ?_, ?_⟩
    · rw [Directory.grantsJournal, List.flatMap_cons, hlookup]
      exact hjournal
    · intro clientId userName
      have hrest := hgrants clientId userName
      unfold Directory.grants permissionsOf at hrest ⊢
      rw [List.flatMap_cons, List.flatMap_cons, List.filterMap_append, ← hrest, hlookup]

/-- What the roles of a user grant are its permissions, role by role and one by one. -/
theorem forall₂_grants (h : c.IsWellFormed scheme) (d : Directory) {u : User}
    (hu : u ∈ c.userList) {roles : List String} (hr : u.roles = some roles) :
    (d.update c).grantsJournal roles = [] ∧ ∃ listed : List Role,
      List.Forall₂ (fun id r => r ∈ c.roleList ∧ r.id = some id) roles listed ∧
      ∀ clientId userName, List.Forall₂ (Permission.IsGranted clientId userName)
        (permissionsOf listed) ((d.update c).grants clientId userName roles) := by
  obtain ⟨granted, hg, _, hknown⟩ := (h.userComplete u hu).roles
  obtain rfl : granted = roles := Option.some.inj (hg.symm.trans hr)
  obtain ⟨listed, hlisted, hmem, hjournal, hgrants⟩ :=
    h.exists_listed d fun id hid => (hknown id hid).2
  refine ⟨hjournal, listed, hlisted, ?_⟩
  intro clientId userName
  rw [hgrants]
  refine forall₂_filterMap_grant ?_ clientId userName
  intro p hp
  obtain ⟨r, hrm, hpr⟩ := List.mem_flatMap.mp hp
  exact (h.roleComplete r (hmem r hrm)).permissions_getD.2 p hpr

/-- The roles of a user grant something. -/
theorem grants_ne_nil (h : c.IsWellFormed scheme) (d : Directory) {u : User}
    (hu : u ∈ c.userList) {roles : List String} (hr : u.roles = some roles) (hne : roles ≠ [])
    (clientId userName : String) : (d.update c).grants clientId userName roles ≠ [] := by
  obtain ⟨_, listed, hlisted, hgrants⟩ := h.forall₂_grants d hu hr
  intro hnil
  have hgranted := hgrants clientId userName
  rw [hnil, List.forall₂_nil_right_iff] at hgranted
  cases hlisted with
  | nil => exact hne rfl
  | cons hfirst _ =>
    rw [permissionsOf, List.flatMap_cons, List.append_eq_nil_iff] at hgranted
    exact (h.roleComplete _ hfirst.1).permissions_getD.1 hgranted.1

/-- Whoever is admitted is granted something. -/
theorem connect_ne_nil (h : c.IsWellFormed scheme) (d : Directory) (g : Gate) {now : Nat}
    {request : ConnectRequest} {grants : List Grant} {otherwise : Access}
    (hd : (g.connect (d.update c) now request).decision = .admitted grants otherwise) :
    grants ≠ [] := by
  obtain ⟨user, password, roles, _, _, _, _, _, hroles, rfl, _⟩ := Gate.exists_of_admitted hd
  obtain ⟨u, hu, _, hr, hne⟩ := h.exists_user_of_rolesOf d hroles
  exact h.grants_ne_nil d hu hr hne request.clientId user

end Credentials.IsWellFormed

/-- A directory that is rebuilt from a record without defects finds every user of it under its
name. The roles that it gives for a user are the user's own, and there are some. It knows each
of them, and grants for them one by one the permissions that they have, each as it is written.
And no client is admitted with nothing granted. -/
theorem Directory.update_grants {scheme : PasswordScheme} {c : Credentials}
    (h : c.defects scheme = []) (d : Directory) :
    (∀ u ∈ c.userList, ∃ name, u.name = some name ∧
      (d.update c).users.lookup name = some u ∧
      (∀ now password roles, ((d.update c).rolesOf now name password).roles = some roles →
        u.roles = some roles) ∧
      ∃ roles, u.roles = some roles ∧ roles ≠ [] ∧ (d.update c).grantsJournal roles = [] ∧
        ∃ listed : List Role,
          List.Forall₂ (fun id r => r ∈ c.roleList ∧ r.id = some id) roles listed ∧
          ∀ clientId userName, List.Forall₂ (Permission.IsGranted clientId userName)
            (permissionsOf listed) ((d.update c).grants clientId userName roles)) ∧
    ∀ (g : Gate) now request grants otherwise,
      (g.connect (d.update c) now request).decision = .admitted grants otherwise →
        grants ≠ [] := by
  have hw := Credentials.isWellFormed_of_defects h
  refine ⟨?_, fun g now request grants otherwise => hw.connect_ne_nil d g⟩
  intro u hu
  obtain ⟨name, hn, _⟩ := (hw.userComplete u hu).name
  obtain ⟨roles, hr, hne, _⟩ := (hw.userComplete u hu).roles
  refine ⟨name, hn, (hw.lookup_user d).mpr ⟨hu, hn⟩, ?_, roles, hr, hne,
    hw.forall₂_grants d hu hr⟩
  intro now password granted hgranted
  obtain ⟨other, hother, hname, hroles, _⟩ := hw.exists_user_of_rolesOf d hgranted
  rwa [List.inj_on_of_nodup_map hw.userNames hu hother (hn.trans hname.symm)]

/-- Two users who share a role. -/
def twoReaders : Credentials where
  users := some [
    { name := some "ada", password := some "lovelace", roles := some ["reader", "writer"] },
    { name := some "bob", password := some "babbage", roles := some ["reader"] }]
  roles := some [
    { id := some "reader", permissions := some [{ topic := some "news/#" }] },
    { id := some "writer", permissions := some [
      { topic := some "data/${{clientid}}/x", activity := some .publish, qos := some .zeroOne },
      { topic := some "log/${{username}}", sharedGroup := some "audit" }] }]

/-- One of the two connects. -/
def adaRequest : ConnectRequest where
  clientId := "desk"
  userName := some "ada"
  password := some (Utf8.bytes "lovelace")

/-- Both users are found. The one who connects has her own roles, and is admitted with all that
these grant. -/
theorem Directory.update_twoReaders :
    let d := (Directory.mk .plain [] [] .standard).update twoReaders
    let grants : List Grant := [⟨"news/#", .all, .all, .all, .all, "#", .allow⟩,
      ⟨"data/desk/x", .publish, .zeroOne, .all, .all, "#", .allow⟩,
      ⟨"log/ada", .all, .all, .all, .all, "audit", .allow⟩]
    twoReaders.defects .plain = [] ∧
      (∀ u ∈ twoReaders.userList, ∃ name, u.name = some name ∧ d.users.lookup name = some u) ∧
      (d.rolesOf 0 "ada" (Utf8.bytes "lovelace")).roles = some ["reader", "writer"] ∧
      (∃ listed : List Role, listed.map Role.id = [some "reader", some "writer"] ∧
        List.Forall₂ (Permission.IsGranted "desk" "ada") (permissionsOf listed) grants) ∧
      ((Gate.mk [] false).connect d 0 adaRequest).decision = .admitted grants .deny ∧
        grants ≠ [] := by
  intro d grants
  have hdefects : twoReaders.defects .plain = [] := by decide
  have hroles : (d.rolesOf 0 "ada" (Utf8.bytes "lovelace")).roles = some ["reader", "writer"] := by
    decide +kernel
  have hgrants : d.grants "desk" "ada" ["reader", "writer"] = grants := by decide +kernel
  have hadmitted : ((Gate.mk [] false).connect d 0 adaRequest).decision =
      .admitted grants .deny := by
    decide +kernel
  obtain ⟨husers, hsome⟩ := Directory.update_grants hdefects (Directory.mk .plain [] [] .standard)
  refine ⟨hdefects, ?_, hroles, ?_, hadmitted, hsome _ 0 adaRequest grants .deny hadmitted⟩
  · intro u hu
    obtain ⟨name, hname, hlookup, _⟩ := husers u hu
    exact ⟨name, hname, hlookup⟩
  · obtain ⟨_, _, _, _, roles, hr, _, _, listed, hlisted, hgranted⟩ :=
      husers _ List.mem_cons_self
    obtain rfl : ["reader", "writer"] = roles := Option.some.inj hr
    refine ⟨listed, ?_, hgrants ▸ hgranted "desk" "ada"⟩
    cases hlisted with
    | cons hfirst hrest =>
      cases hrest with
      | cons hsecond hnone =>
        cases hnone
        rw [List.map_cons, List.map_cons, hfirst.2, hsecond.2]
        rfl

end BrokerAccess
