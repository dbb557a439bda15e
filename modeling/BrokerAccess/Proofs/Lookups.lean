import Mathlib.Data.List.Induction
import BrokerAccess.Proofs.Deployment

/-!
# Look-ups by the last record

A directory is updated to one record after another, valid or not, and asked in between. Its
answers are those of a new directory that was given the last record only, and can be read off
that record: a name stands for its last entry, and entries without a name for nothing. The
cache spans all records ever seen, but a hash in it is one that would be derived again, so it
lets nobody in with a password that a record has taken back.
-/

namespace BrokerAccess

section Named

variable {α : Type} (name : α → Option String)

/-- The last entry of a list that bears a name. -/
def lastOf? (list : List α) (key : String) : Option α :=
  list.reverse.find? fun entry => name entry = some key

/-- Some entry of a list has a name. -/
def HasNamed (list : List α) : Prop := ∃ entry ∈ list, ∃ key, name entry = some key

variable {name} {list : List α}

/-- An index is empty exactly when no entry has a name. -/
theorem indexed_eq_nil_iff : indexed name list = [] ↔ ¬ HasNamed name list := by
  constructor
  · rintro hnil ⟨entry, he, key, hk⟩
    exact indexed_ne_nil he hk hnil
  · intro hnone
    induction list with
    | nil => rfl
    | cons entry rest ih =>
      have hfirst : name entry = none := by
        rw [Option.eq_none_iff_forall_ne_some]
        exact fun key hk => hnone ⟨entry, List.mem_cons_self, key, hk⟩
      have hskip : indexed name (entry :: rest) = indexed name rest := by
        rw [indexed, List.foldl_cons, Index.enter, hfirst]
        rfl
      rw [hskip]
      refine ih ?_
      rintro ⟨other, hother, hkey⟩
      exact hnone ⟨other, List.mem_cons_of_mem _ hother, hkey⟩

end Named

namespace Credentials

/-- A record, valid or not, gives a user who presents a password these roles: it has a named user
and a named role at all, and they are the roles of the last user of the name, whose stored password
it is. -/
structure Entitles (c : Credentials) (scheme : PasswordScheme) (user : String)
    (password : List UInt8) (granted : List String) : Prop where
  /-- There is a user with a name. -/
  users : HasNamed User.name c.userList
  /-- There is a role with an id. -/
  roles : HasNamed Role.id c.roleList
  /-- The roles are those of the last user of the name, who has the password. -/
  entry : ∃ u stored, lastOf? User.name c.userList user = some u ∧ u.password = some stored ∧
    scheme.Accepts password stored ∧ u.roles.getD [] = granted

/-- What roles grant to a connection by a record, valid or not: the last role of each id counts, and
an id without a role grants nothing. -/
def lastGrants (c : Credentials) (clientId userName : String) (ids : List String) : List Grant :=
  ids.flatMap fun id =>
    (lastOf? Role.id c.roleList id).elim [] fun r =>
      (r.permissions.getD []).filterMap (Permission.rendering? clientId userName)

/-- The stored password of the last user of a name, taken apart. -/
def lastStored? (c : Credentials) (user : String) : Option StoredPassword :=
  (lastOf? User.name c.userList user).bind fun u => u.password.bind StoredPassword.parse?

/-- A record takes the password of a user back: it does not have the user any more, or it stores
another hash under the same salt and iteration count. -/
def Revokes (c old : Credentials) (user : String) : Prop :=
  lastOf? User.name c.userList user = none ∨
    ∃ before after, old.lastStored? user = some before ∧ c.lastStored? user = some after ∧
      after.salt = before.salt ∧ after.iterations = before.iterations ∧ after.hash ≠ before.hash

/-- A password that is taken back does not entitle any more. -/
theorem Revokes.not_entitles {c old : Credentials} {scheme : PasswordScheme} {user : String}
    {password : List UInt8} {granted granted' : List String} (h : c.Revokes old user)
    (hold : old.Entitles scheme user password granted) :
    ¬ c.Entitles scheme user password granted' := by
  intro hnew
  obtain ⟨u, stored, hu, hstored, haccepts, _⟩ := hold.entry
  obtain ⟨u', stored', hu', hstored', haccepts', _⟩ := hnew.entry
  rcases h with hgone | ⟨before, after, hbefore, hafter, hsalt, hiterations, hhash⟩
  · rw [hgone] at hu'
    cases hu'
  · rw [lastStored?, hu, Option.bind_some, hstored, Option.bind_some] at hbefore
    rw [lastStored?, hu', Option.bind_some, hstored', Option.bind_some] at hafter
    refine hhash ?_
    cases scheme with
    | hashed =>
      obtain ⟨parsed, hparsed, hderived⟩ := (Password.fits_iff_parse? _ _ _).mp haccepts
      obtain ⟨parsed', hparsed', hderived'⟩ := (Password.fits_iff_parse? _ _ _).mp haccepts'
      obtain rfl := Option.some.inj (hparsed.symm.trans hbefore)
      obtain rfl := Option.some.inj (hparsed'.symm.trans hafter)
      -- Both hashes are derived from the same password, salt and count.
      rw [hsalt, hiterations, hderived] at hderived'
      exact (Except.ok.inj hderived').symm
    | plain =>
      have hsame : stored = stored' := String.toList_inj.mp (haccepts.symm.trans haccepts')
      rw [← hsame] at hafter
      exact congrArg StoredPassword.hash (Option.some.inj (hafter.symm.trans hbefore))

end Credentials

namespace Directory

variable {d : Directory} {record : Option Credentials}

/-- The roles that are found are those that the record gives. -/
theorem Follows.rolesOf_eq_some_iff (h : d.Follows record) (now : Nat) (user : String)
    (password : List UInt8) (roles : List String) :
    (d.rolesOf now user password).roles = some roles ↔
      ∃ c, record = some c ∧ c.Entitles d.scheme user password roles := by
  cases record with
  | none => simp only [h.rolesOf_none, reduceCtorEq, false_and, exists_false]
  | some c =>
    simp only [Option.some.injEq, exists_eq_left']
    have husers : d.users = [] ↔ ¬ HasNamed User.name c.userList := by
      rw [h.users]
      exact indexed_eq_nil_iff
    have hroles : d.roles = [] ↔ ¬ HasNamed Role.id c.roleList := by
      rw [h.roles]
      exact indexed_eq_nil_iff
    have hlookup : d.users.lookup user = lastOf? User.name c.userList user := by
      rw [h.users]
      exact lookup_indexed User.name c.userList user
    unfold rolesOf
    rw [hlookup]
    by_cases hempty : (d.users.isEmpty || d.roles.isEmpty) = true
    · rw [if_pos hempty]
      simp only [reduceCtorEq, false_iff]
      intro hentitles
      rw [Bool.or_eq_true, List.isEmpty_iff, List.isEmpty_iff, husers, hroles] at hempty
      exact hempty.elim (fun hno => hno hentitles.users) fun hno => hno hentitles.roles
    · rw [if_neg hempty]
      rw [Bool.or_eq_true, List.isEmpty_iff, List.isEmpty_iff, husers, hroles, not_or,
        Classical.not_not, Classical.not_not] at hempty
      have hentry : c.Entitles d.scheme user password roles ↔
          ∃ u stored, lastOf? User.name c.userList user = some u ∧ u.password = some stored ∧
            d.scheme.Accepts password stored ∧ u.roles.getD [] = roles :=
        ⟨fun hentitles => hentitles.entry, fun he => ⟨hempty.1, hempty.2, he⟩⟩
      rw [hentry]
      cases lastOf? User.name c.userList user with
      | none => simp
      | some u =>
        rw [Option.bind_some]
        cases hpassword : u.password with
        | none => simp [hpassword]
        | some stored =>
          have hmatched := check_matched_iff h.cache now password stored
          simp [hpassword, ← hmatched]

/-- What is granted is what the record grants. -/
theorem Follows.grants_eq (h : d.Follows record) (clientId userName : String)
    (ids : List String) :
    d.grants clientId userName ids =
      record.elim [] fun c => c.lastGrants clientId userName ids := by
  have hlookup (id : String) : d.roles.lookup id =
      record.elim none fun c => lastOf? Role.id c.roleList id := by
    rw [h.roles]
    cases record with
    | none => rfl
    | some c => exact lookup_indexed Role.id c.roleList id
  cases record with
  | none =>
    rw [Directory.grants, Option.elim_none, List.flatMap_eq_nil_iff]
    intro id _
    rw [hlookup id]
    rfl
  | some c =>
    rw [Directory.grants, Option.elim_some, Credentials.lastGrants, grant_eq_rendering?]
    congr 1
    funext id
    rw [hlookup id, Option.elim_some]
    cases lastOf? Role.id c.roleList id with
    | none => rfl
    | some r => rfl

end Directory

/-- What can happen to a directory. -/
inductive DeskEvent where
  /-- It is updated to a record. -/
  | update (record : Credentials)
  /-- Time passes. -/
  | elapse (time : Nat)
  /-- Somebody asks for the roles of a user who presents a password. -/
  | rolesOf (user : String) (password : List UInt8)
  /-- Somebody asks what roles grant to a connection. -/
  | grants (clientId userName : String) (roles : List String)
  /-- A client connects at a gate. -/
  | connect (gate : Gate) (request : ConnectRequest)

/-- The record of an update. -/
def DeskEvent.record? : DeskEvent → Option Credentials
  | .update record => some record
  | _ => none

/-- The record of the last update. -/
def lastRecord (events : List DeskEvent) : Option Credentials :=
  (events.filterMap DeskEvent.record?).getLast?

/-- A directory in use. -/
structure Desk where
  /-- The directory. -/
  directory : Directory
  /-- What its clock shows. -/
  now : Nat

namespace Desk

/-- A new directory, at a time. -/
def opened (scheme : PasswordScheme) (start : Nat) : Desk := ⟨⟨scheme, [], [], .standard⟩, start⟩

/-- The desk with another cache in its directory. -/
def withCache (k : Desk) (cache : HashCache) : Desk :=
  { k with directory := { k.directory with cache } }

/-- The directory after an event. A look-up of grants only reads. -/
def step (k : Desk) : DeskEvent → Desk
  | .update record => { k with directory := k.directory.update record }
  | .elapse time => { k with now := k.now + time }
  | .rolesOf user password => k.withCache (k.directory.rolesOf k.now user password).cache
  | .grants .. => k
  | .connect gate request => k.withCache (gate.connect k.directory k.now request).cache

/-- The directory after events in order. -/
def run (k : Desk) (events : List DeskEvent) : Desk := events.foldl step k

/-- An update changes the record that the directory follows, and other events do not. -/
theorem follows_step {k : Desk} {record : Option Credentials} (h : k.directory.Follows record)
    (event : DeskEvent) :
    (k.step event).directory.Follows (event.record?.or record) ∧
      (k.step event).directory.scheme = k.directory.scheme := by
  cases event with
  | update record => exact ⟨Directory.update_follows h.cache record, rfl⟩
  | elapse time => exact ⟨h, rfl⟩
  | rolesOf user password =>
    have hcache := Directory.rolesOf_cache_isFaithful h.cache k.now user password
    exact ⟨⟨h.users, h.roles, hcache⟩, rfl⟩
  | grants clientId userName roles => exact ⟨h, rfl⟩
  | connect gate request =>
    have hcache := Gate.connect_cache_isFaithful gate h.cache k.now request
    exact ⟨⟨h.users, h.roles, hcache⟩, rfl⟩

/-- The last record of events and one more. -/
theorem lastRecord_concat (events : List DeskEvent) (event : DeskEvent) :
    lastRecord (events ++ [event]) = event.record?.or (lastRecord events) := by
  rw [lastRecord, List.filterMap_append]
  cases hrecord : event.record? with
  | none => simp [hrecord, lastRecord]
  | some record => simp [hrecord]

/-- A directory follows the last record that it was given. -/
theorem follows_lastRecord (scheme : PasswordScheme) (start : Nat) (events : List DeskEvent) :
    ((opened scheme start).run events).directory.Follows (lastRecord events) ∧
      ((opened scheme start).run events).directory.scheme = scheme := by
  induction events using List.reverseRecOn with
  | nil => exact ⟨Directory.ofCurrent_follows scheme none, rfl⟩
  | append_singleton events event ih =>
    obtain ⟨hfollows, hscheme⟩ := ih
    have hstep := follows_step hfollows event
    rw [run, List.foldl_append, lastRecord_concat]
    exact ⟨hstep.1, hstep.2.trans hscheme⟩

/-- However a directory was updated and asked before, it gives the roles and grants that a new
directory gives that was only updated to the last record, and these can be read off that record: a
name stands for the last entry that bears it, entries without a name for nothing, and without a
named user or a named role nobody has roles. So a password that a record takes back is of no use
from the update on, even if it was just found right and its hash is still in the cache. -/
theorem answers_by_last_record (scheme : PasswordScheme) (start : Nat) (events : List DeskEvent) :
    let desk := (opened scheme start).run events
    let last := lastRecord events
    let fresh := Directory.ofCurrent scheme last
    (∀ now later user password, (desk.directory.rolesOf now user password).roles =
      (fresh.rolesOf later user password).roles) ∧
    (∀ clientId userName ids,
      desk.directory.grants clientId userName ids = fresh.grants clientId userName ids) ∧
    (∀ now user password granted, (fresh.rolesOf now user password).roles = some granted ↔
      ∃ c, last = some c ∧ c.Entitles scheme user password granted) ∧
    (∀ clientId userName ids, fresh.grants clientId userName ids =
      last.elim [] fun c => c.lastGrants clientId userName ids) ∧
    ∀ user password old new, last = some old → new.Revokes old user →
      (desk.directory.rolesOf desk.now user password).roles.isSome →
        ∀ now, ((desk.run [.rolesOf user password, .update new]).directory.rolesOf now user
          password).roles = none := by
  intro desk last fresh
  obtain ⟨hfollows, hscheme⟩ : desk.directory.Follows last ∧ desk.directory.scheme = scheme :=
    follows_lastRecord scheme start events
  have hfresh : fresh.Follows last := Directory.ofCurrent_follows scheme last
  have hfreshScheme : fresh.scheme = scheme := Directory.ofCurrent_scheme scheme last
  have hfreshRoles (now : Nat) (user : String) (password : List UInt8) (granted : List String) :
      (fresh.rolesOf now user password).roles = some granted ↔
        ∃ c, last = some c ∧ c.Entitles scheme user password granted := by
    rw [← hfreshScheme]
    exact hfresh.rolesOf_eq_some_iff now user password granted
  have hdeskRoles (now : Nat) (user : String) (password : List UInt8) (granted : List String) :
      (desk.directory.rolesOf now user password).roles = some granted ↔
        ∃ c, last = some c ∧ c.Entitles scheme user password granted := by
    rw [← hscheme]
    exact hfollows.rolesOf_eq_some_iff now user password granted
  refine ⟨?_, ?_, hfreshRoles, hfresh.grants_eq, ?_⟩
  · intro now later user password
    ext granted
    exact (hdeskRoles now user password granted).trans
      (hfreshRoles later user password granted).symm
  · intro clientId userName ids
    rw [hfollows.grants_eq, hfresh.grants_eq]
  · intro user password old new hlast hrevokes hmatched now
    obtain ⟨granted, hgranted⟩ := Option.isSome_iff_exists.mp hmatched
    obtain ⟨c, hc, hentitles⟩ := (hdeskRoles _ user password granted).mp hgranted
    obtain rfl : old = c := Option.some.inj (hlast.symm.trans hc)
    have hlooked := follows_step hfollows (.rolesOf user password)
    have hupdated := follows_step hlooked.1 (.update new)
    rw [Option.eq_none_iff_forall_ne_some]
    intro granted' hgranted'
    obtain ⟨c', hc', hentitles'⟩ := (hupdated.1.rolesOf_eq_some_iff now user password granted').mp
      hgranted'
    obtain rfl : new = c' := Option.some.inj hc'
    rw [hupdated.2, hlooked.2, hscheme] at hentitles'
    exact hrevokes.not_entitles hentitles hentitles'

/-- A record with one user, whose password is stored like this. -/
def soleClerk (stored : String) : Credentials where
  users := some [{ name := some "eve", password := some stored, roles := some ["clerk"] }]
  roles := some [{ id := some "clerk", permissions := some [{ topic := some "desk/#" }] }]

/-- The hash of the password `hertz` under the salt `salt` and one iteration, in base64. -/
def hertzHash : String :=
  "EHBwTRBUBEaqcZ1+a5ZDlKgPT3TJl6bu2tjvLpoE8PqPbYmyi3xB+bJ1c8xd+regvK6EQTVlw7UHPOgcBxubiw=="

/-- A password that was found right is refused once another hash is stored under the same salt. -/
theorem answers_by_last_record_rehashed :
    let right := soleClerk ("c2FsdA==:1:" ++ hertzHash)
    let other := soleClerk "c2FsdA==:1:AAAA"
    let desk := (opened .hashed 0).run [.update right]
    other.Revokes right "eve" ∧
      (desk.directory.rolesOf 0 "eve" (Utf8.bytes "hertz")).roles = some ["clerk"] ∧
      ((desk.run [.rolesOf "eve" (Utf8.bytes "hertz"), .update other]).directory.rolesOf 0 "eve"
        (Utf8.bytes "hertz")).roles = none := by
  intro right other desk
  have hright : right.lastStored? "eve" =
      some ⟨"c2FsdA==", 1, (Base64.read? hertzHash).getD []⟩ := by
    decide +kernel
  have hother : other.lastStored? "eve" = some ⟨"c2FsdA==", 1, [0, 0, 0]⟩ := by decide +kernel
  have hrevokes : other.Revokes right "eve" :=
    .inr ⟨_, _, hright, hother, rfl, rfl, by decide +kernel⟩
  have hmatched : (desk.directory.rolesOf 0 "eve" (Utf8.bytes "hertz")).roles =
      some ["clerk"] := by
    decide +kernel
  obtain ⟨_, _, _, _, hrevoked⟩ := answers_by_last_record .hashed 0 [.update right]
  refine ⟨hrevokes, hmatched, hrevoked "eve" _ _ _ rfl hrevokes ?_ 0⟩
  exact Option.isSome_iff_exists.mpr ⟨_, hmatched⟩

end Desk

end BrokerAccess
