import Mathlib.Data.List.Zip
import BrokerAccess.Proofs.Grants
import BrokerAccess.Proofs.Template

/-!
# Wildcards come from templates

What a client may call itself has no wildcard, and a template is read without looking at the
client. So the wildcards of a topic filter that an admitted client is granted are those in the
literal text of the permission's template: no client can add one, whatever its names look like,
and all that are granted a permission are granted the same ones.
-/

namespace BrokerAccess

/-- A character that stands for more than one topic. -/
def isWildcard (c : Char) : Bool := c = '#' || c = '+'

/-- The wildcards of a text, in order. -/
def wildcards (text : List Char) : List Char := text.filter isWildcard

/-- The literal text of a template. -/
def literalText (segs : List Segment) : List Char :=
  segs.filterMap fun
    | .literal c => some c
    | .client => none
    | .user => none

/-- A text that the gate takes for free of wildcards has none. -/
theorem wildcards_eq_nil {text : String} (h : Gate.hasWildcard text = false) :
    wildcards text.toList = [] := by
  rw [wildcards, List.filter_eq_nil_iff]
  rw [Gate.hasWildcard, List.any_eq_false] at h
  exact h

/-- Values without wildcards leave a template the wildcards of its literal text. -/
theorem wildcards_render {clientId userName : List Char} (hclient : wildcards clientId = [])
    (huser : wildcards userName = []) (segs : List Segment) :
    wildcards (Template.render clientId userName segs) = wildcards (literalText segs) := by
  unfold wildcards at *
  induction segs with
  | nil => rfl
  | cons segment rest ih =>
    cases segment with
    | literal c =>
      have hliteral : literalText (.literal c :: rest) = c :: literalText rest := rfl
      rw [Template.render, hliteral, List.filter_cons, List.filter_cons, ih]
    | client =>
      have hliteral : literalText (.client :: rest) = literalText rest := rfl
      rw [Template.render, hliteral, List.filter_append, hclient, ih, List.nil_append]
    | user =>
      have hliteral : literalText (.user :: rest) = literalText rest := rfl
      rw [Template.render, hliteral, List.filter_append, huser, ih, List.nil_append]

/-- The topic filter of a grant has the wildcards that stand in the literal text of a permission's
template, and no others. -/
def Permission.SetsWildcards (p : Permission) (g : Grant) : Prop :=
  ∃ topic, p.topic = some topic ∧ ∀ segs, Template.Reads topic.toList segs →
    wildcards g.topicFilter.toList = wildcards (literalText segs)

/-- What a permission grants to a connection whose names have no wildcards has those of its
template. -/
theorem Permission.IsGranted.setsWildcards {clientId userName : String} {p : Permission} {g : Grant}
    (h : p.IsGranted clientId userName g) (hclient : Gate.hasWildcard clientId = false)
    (huser : Gate.hasWildcard userName = false) : p.SetsWildcards g := by
  obtain ⟨topic, htopic, hfilter⟩ := h.topic
  refine ⟨topic, htopic, ?_⟩
  intro segs hreads
  rw [hfilter, Template.substitute, String.toList_ofList, ← hreads.eq_segments]
  exact wildcards_render (wildcards_eq_nil hclient) (wildcards_eq_nil huser) segs

/-- A permission sets the same wildcards in all grants. -/
theorem Permission.SetsWildcards.eq {p : Permission} {g g' : Grant} (h : p.SetsWildcards g)
    (h' : p.SetsWildcards g') :
    wildcards g.topicFilter.toList = wildcards g'.topicFilter.toList := by
  obtain ⟨topic, htopic, hfilter⟩ := h
  obtain ⟨topic', htopic', hfilter'⟩ := h'
  obtain rfl : topic = topic' := Option.some.inj (htopic.symm.trans htopic')
  obtain ⟨segs, hreads⟩ := Template.exists_reads topic.toList
  rw [hfilter segs hreads, hfilter' segs hreads]

/-- The permissions of a role of a record, by its id. -/
def Credentials.permissionsOfRole (c : Credentials) (id : String) : List Permission :=
  (c.roleList.find? fun r => r.id = some id).elim [] fun r => r.permissions.getD []

/-- The permissions of a user of a record, by the name that is presented: role by role, in the order
in which the user and the roles list them. -/
def Credentials.permissionsOfUser (c : Credentials) (name : Option String) : List Permission :=
  (name.bind fun name => c.userList.find? fun u => u.name = some name).elim [] fun u =>
    (u.roles.getD []).flatMap c.permissionsOfRole

/-- If no two entries share a name, the first entry of a name is the one that bears it. -/
theorem find?_eq_some_iff_of_nodup {α : Type} {name : α → Option String} {list : List α}
    (h : (list.map name).Nodup) {key : String} {entry : α} :
    (list.find? fun e => name e = some key) = some entry ↔
      entry ∈ list ∧ name entry = some key := by
  rw [← lookup_indexed_of_nodup h, lookup_indexed_eq_some_iff h]

namespace Credentials.IsWellFormed

variable {scheme : PasswordScheme} {c : Credentials}

/-- Roles that are listed under their ids have the permissions of these ids. -/
theorem permissionsOf_eq (h : c.IsWellFormed scheme) {ids : List String} {listed : List Role}
    (hlisted : List.Forall₂ (fun id r => r ∈ c.roleList ∧ r.id = some id) ids listed) :
    permissionsOf listed = ids.flatMap c.permissionsOfRole := by
  induction hlisted with
  | nil => rfl
  | @cons id r ids listed hrole _ ih =>
    have hfind := (find?_eq_some_iff_of_nodup h.roleIds).mpr hrole
    have hpermissions : c.permissionsOfRole id = r.permissions.getD [] := by
      rw [permissionsOfRole, hfind]
      rfl
    rw [List.flatMap_cons, hpermissions, ← ih]
    rfl

/-- A client that is admitted is granted, one by one, the permissions of the user that it presents,
each with the wildcards of its template. -/
theorem forall₂_setsWildcards (h : c.IsWellFormed scheme) {d : Directory} {g : Gate} {now : Nat}
    {request : ConnectRequest} {grants : List Grant} {otherwise : Access}
    (hadmitted : (g.connect (d.update c) now request).decision = .admitted grants otherwise) :
    List.Forall₂ Permission.SetsWildcards (c.permissionsOfUser request.userName) grants := by
  obtain ⟨user, password, roles, huser, _, hclient, hname, _, hroles, rfl, _⟩ :=
    Gate.exists_of_admitted hadmitted
  obtain ⟨u, hu, hbears, hr, _⟩ := h.exists_user_of_rolesOf d hroles
  obtain ⟨_, listed, hlisted, hgrants⟩ := h.forall₂_grants d hu hr
  have hpermissions : c.permissionsOfUser request.userName = permissionsOf listed := by
    have hfind := (find?_eq_some_iff_of_nodup h.userNames).mpr ⟨hu, hbears⟩
    rw [permissionsOfUser, huser, Option.bind_some, hfind, Option.elim_some, hr, Option.getD_some,
      h.permissionsOf_eq hlisted]
  rw [hpermissions]
  exact (hgrants request.clientId user).imp fun _ _ hgranted =>
    hgranted.setsWildcards hclient hname

end Credentials.IsWellFormed

/-- No client can bring a wildcard into what it is granted. A client that is admitted by a record
without defects is granted, one by one, the permissions of the user that it presents, and each topic
filter has the wildcards of the literal text of its permission's template, in their order. So a
template without wildcards gives none; and whoever is granted the same permission, by this record or
another, at any time and under any names, is granted the same wildcards. -/
theorem Directory.wildcards_of_admitted {scheme : PasswordScheme} {c : Credentials}
    (h : c.defects scheme = []) (d : Directory) (g : Gate) (now : Nat) (request : ConnectRequest)
    (grants : List Grant) (otherwise : Access)
    (hadmitted : (g.connect (d.update c) now request).decision = .admitted grants otherwise) :
    List.Forall₂ Permission.SetsWildcards (c.permissionsOfUser request.userName) grants ∧
    (∀ granted ∈ (c.permissionsOfUser request.userName).zip grants,
      (∀ topic segs, granted.1.topic = some topic → Template.Reads topic.toList segs →
        wildcards (literalText segs) = []) → wildcards granted.2.topicFilter.toList = []) ∧
    ∀ (scheme' : PasswordScheme) (c' : Credentials), c'.defects scheme' = [] →
      ∀ (d' : Directory) (g' : Gate) (now' : Nat) (request' : ConnectRequest)
        (grants' : List Grant) (otherwise' : Access),
        (g'.connect (d'.update c') now' request').decision = .admitted grants' otherwise' →
        ∀ granted ∈ (c.permissionsOfUser request.userName).zip grants,
          ∀ granted' ∈ (c'.permissionsOfUser request'.userName).zip grants',
            granted.1 = granted'.1 →
              wildcards granted.2.topicFilter.toList = wildcards granted'.2.topicFilter.toList := by
  have hall := (Credentials.isWellFormed_of_defects h).forall₂_setsWildcards hadmitted
  refine ⟨hall, ?_, ?_⟩
  · intro granted hmem hnone
    obtain ⟨topic, htopic, hfilter⟩ := (List.forall₂_iff_zip.mp hall).2 hmem
    obtain ⟨segs, hreads⟩ := Template.exists_reads topic.toList
    rw [hfilter segs hreads, hnone topic segs htopic hreads]
  · intro scheme' c' h' d' g' now' request' grants' otherwise' hadmitted' granted hmem granted'
      hmem' hsame
    have hall' := (Credentials.isWellFormed_of_defects h').forall₂_setsWildcards hadmitted'
    have hsets := (List.forall₂_iff_zip.mp hall).2 hmem
    rw [hsame] at hsets
    exact hsets.eq ((List.forall₂_iff_zip.mp hall').2 hmem')

/-- A user whose templates have wildcards beside keys, in a key, and in an escaped opening. -/
def soleSensor : Credentials where
  users := some [{ name := some "eve", password := some "hertz", roles := some ["sensor"] }]
  roles := some [{ id := some "sensor", permissions := some [
    { topic := some "+/${{clientid}}/${{#}}/#" }, { topic := some "§${{+}}${{username}}" }] }]

/-- The user connects under a name that looks like a key. -/
def sensorRequest : ConnectRequest where
  clientId := "${{username}}"
  userName := some "eve"
  password := some (Utf8.bytes "hertz")

/-- The wildcard in the key is gone, and the others are where the templates have them. -/
theorem Directory.wildcards_of_admitted_sensor :
    soleSensor.defects .plain = [] ∧ ∃ grants,
      ((Gate.mk [] false).connect ((Directory.mk .plain [] [] .standard).update soleSensor) 0
        sensorRequest).decision = .admitted grants .deny ∧
      grants.map Grant.topicFilter = ["+/${{username}}//#", "${{+}}eve"] ∧
      List.Forall₂ Permission.SetsWildcards (soleSensor.permissionsOfUser (some "eve")) grants := by
  have hdefects : soleSensor.defects .plain = [] := by decide
  have hadmitted : ((Gate.mk [] false).connect
      ((Directory.mk .plain [] [] .standard).update soleSensor) 0 sensorRequest).decision =
        .admitted [⟨"+/${{username}}//#", .all, .all, .all, .all, "#", .allow⟩,
          ⟨"${{+}}eve", .all, .all, .all, .all, "#", .allow⟩] .deny := by
    decide +kernel
  obtain ⟨hwildcards, _⟩ :=
    Directory.wildcards_of_admitted hdefects _ _ 0 sensorRequest _ _ hadmitted
  exact ⟨hdefects, _, hadmitted, rfl, hwildcards⟩

end BrokerAccess
