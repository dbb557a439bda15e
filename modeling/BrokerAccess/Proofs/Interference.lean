import BrokerAccess.Proofs.Lookups
import BrokerAccess.Proofs.Store.Updates
import BrokerAccess.Proofs.Wildcards

/-!
# Users do not interfere

What a user is told rests on that user's own entry and on the roles that it lists. Names are
unique in a record without defects, so two records that share these entries agree about the
user, whatever else they hold and in whatever order. What was decided before is left in the
cache alone, which all users share and which never shows in a decision.
-/

namespace BrokerAccess

open Files (Path Tree)

namespace Credentials

/-- Two records have the same entry for a user, and the same entries for the roles that it lists. -/
def AgreeOn (user : String) (c c' : Credentials) : Prop :=
  ∃ u, u.name = some user ∧ u ∈ c.userList ∧ u ∈ c'.userList ∧
    ∀ id ∈ u.roles.getD [], ∃ r, r.id = some id ∧ r ∈ c.roleList ∧ r ∈ c'.roleList

variable {settings : Settings} {c c' : Credentials} {user : String}

/-- Records that agree on a user decide alike on whoever presents a password as that user. -/
theorem AgreeOn.verdict_eq (h : c.AgreeOn user c') (hc : c.IsWellFormed settings.passwordScheme)
    (hc' : c'.IsWellFormed settings.passwordScheme) (clientId : String) (password : List UInt8) :
    settings.verdict (some c) clientId user password =
      settings.verdict (some c') clientId user password := by
  obtain ⟨u, hname, hu, hu', hroles⟩ := h
  have hfound := (find?_eq_some_iff_of_nodup hc.userNames).mpr ⟨hu, hname⟩
  have hfound' := (find?_eq_some_iff_of_nodup hc'.userNames).mpr ⟨hu', hname⟩
  have hgrants : c.grants clientId user (u.roles.getD []) =
      c'.grants clientId user (u.roles.getD []) := by
    refine List.flatMap_congr fun id hid => ?_
    obtain ⟨r, hrole, hr, hr'⟩ := hroles id hid
    rw [(find?_eq_some_iff_of_nodup hc.roleIds).mpr ⟨hr, hrole⟩,
      (find?_eq_some_iff_of_nodup hc'.roleIds).mpr ⟨hr', hrole⟩]
  have hsame : c.user? settings.passwordScheme user password =
      c'.user? settings.passwordScheme user password := by
    rw [user?, user?, hfound, hfound']
  unfold Settings.verdict
  dsimp only
  rw [hsame]
  cases huser : c'.user? settings.passwordScheme user password with
  | none => rfl
  | some found =>
    rw [user?, hfound', Option.filter_eq_some_iff] at huser
    obtain rfl : u = found := Option.some.inj huser.1
    exact congrArg (Decision.admitted · .deny) hgrants

/-- Records that agree on a user decide alike on every client that connects as that user. -/
theorem AgreeOn.decision_eq (h : c.AgreeOn user c') (hc : c.IsWellFormed settings.passwordScheme)
    (hc' : c'.IsWellFormed settings.passwordScheme) {request : ConnectRequest}
    (hrequest : request.userName = some user) :
    settings.decision (some c) request = settings.decision (some c') request := by
  unfold Settings.decision
  dsimp only
  rw [hrequest]
  cases request.password with
  | none => rfl
  | some password => simp only [h.verdict_eq hc hc' request.clientId password]

end Credentials

/-- Whatever a directory was updated to and asked before, it decides as its last record does. -/
theorem Desk.connect_eq {settings : Settings} {c : Credentials}
    (hc : c.IsWellFormed settings.passwordScheme) {start : Nat} {events : List DeskEvent}
    (hlast : lastRecord events = some c) (request : ConnectRequest) :
    let desk := (Desk.opened settings.passwordScheme start).run events
    ((Gate.ofSettings settings).connect desk.directory desk.now request).decision =
      settings.decision (some c) request := by
  intro desk
  obtain ⟨hfollows, hscheme⟩ := Desk.follows_lastRecord settings.passwordScheme start events
  rw [hlast] at hfollows
  refine Gate.connect_decision hfollows hscheme ?_ desk.now request
  rintro _ ⟨⟩
  exact hc

/-- Whatever happened to a deployment, it decides as the record in effect does. -/
theorem World.connect_eq {settings : Settings} {c : Credentials} {home : Path} {t : Tree}
    {start : Nat} {events : List WorldEvent}
    (hcurrent : ((opened home settings t start).run events).deployment.store.current = some c)
    (request : ConnectRequest) :
    let w := (opened home settings t start).run events
    (w.deployment.connect w.now request).1 = settings.decision (some c) request := by
  intro w
  have htune : w.deployment.IsInTune settings :=
    World.run_isInTune (w := opened home settings t start)
      (Deployment.ofTree_isInTune home settings t) events
  rw [htune.connect_eq w.now request, hcurrent]

/-- Users do not interfere. Where two records without defects have the same entry for a user and
the same entries for the roles that it lists, a client that connects as that user is told the same,
whatever other users and roles the records have and in whatever order. This holds for two
directories that were last updated to the records, whatever came before and whoever asked since, and
for two deployments in which the records are in effect, whatever happened to them. -/
theorem Credentials.AgreeOn.connect_eq_connect {c c' : Credentials} {user : String}
    (h : c.AgreeOn user c') (settings : Settings)
    (hc : c.defects settings.passwordScheme = []) (hc' : c'.defects settings.passwordScheme = [])
    {request : ConnectRequest} (hrequest : request.userName = some user) :
    (∀ (start start' : Nat) (events events' : List DeskEvent),
      let desk := (Desk.opened settings.passwordScheme start).run events
      let desk' := (Desk.opened settings.passwordScheme start').run events'
      lastRecord events = some c → lastRecord events' = some c' →
        ((Gate.ofSettings settings).connect desk.directory desk.now request).decision =
          ((Gate.ofSettings settings).connect desk'.directory desk'.now request).decision) ∧
    ∀ (home home' : Path) (t t' : Tree) (start start' : Nat) (events events' : List WorldEvent),
      let w := (World.opened home settings t start).run events
      let w' := (World.opened home' settings t' start').run events'
      w.deployment.store.current = some c → w'.deployment.store.current = some c' →
        (w.deployment.connect w.now request).1 = (w'.deployment.connect w'.now request).1 := by
  have hdecision := h.decision_eq (Credentials.isWellFormed_of_defects hc)
    (Credentials.isWellFormed_of_defects hc') hrequest
  constructor
  · intro start start' events events' desk desk' hlast hlast'
    rw [Desk.connect_eq (Credentials.isWellFormed_of_defects hc) hlast, hdecision,
      Desk.connect_eq (Credentials.isWellFormed_of_defects hc') hlast']
  · intro home home' t t' start start' events events' w w' hcurrent hcurrent'
    rw [World.connect_eq hcurrent, hdecision, World.connect_eq hcurrent']

/-- A deployment is opened with the record that it can load. -/
theorem World.opened_current (home : Path) (settings : Settings) (t : Tree) (start : Nat) :
    (opened home settings t start).deployment.store.current =
      (Credentials.load settings.passwordScheme t
        ((Placement.ofCredentials home).path t)).toOption :=
  Store.ofTree_current home settings.passwordScheme t

open Site (srv emptyHome filledHome soleReader)

/-- A record that holds another one's user beside one who reads. -/
def readerAndSensor : Credentials where
  users := some (soleReader.userList ++ soleSensor.userList)
  roles := some (soleReader.roleList ++ soleSensor.roleList)

/-- Somebody who only guesses the reader's password. -/
def guess : ConnectRequest where
  clientId := "guest"
  userName := some "ada"
  password := some (Utf8.bytes "byron")

/-- A deployment is opened with the record that its home has. -/
theorem World.opened_filledHome_current {c : Credentials} (hc : c.defects .plain = [])
    (time : Files.Time) (start : Nat) :
    (opened srv { scheme := some .plain } (filledHome (Utf8.encode c.write) time)
      start).deployment.store.current = some c := by
  have hentry : Tree.entry? (filledHome (Utf8.encode c.write) time)
      (srv.join "conf/credentials.toml") = some (.file (Utf8.encode c.write) time) :=
    Tree.entry?_put_self rfl rfl
      (show emptyHome.follow (srv.join "conf/credentials.toml") =
        .ok ["srv", "conf", "credentials.toml"] from rfl)
  have hpath : (Placement.ofCredentials srv).path (filledHome (Utf8.encode c.write) time) =
      srv.join "conf/credentials.toml" := by
    simp [Placement.path, Placement.isLegacy, Placement.ofCredentials, Tree.has, hentry]
  rw [opened_current, hpath]
  exact congrArg Except.toOption (Credentials.load_eq_ok_of_entry hc hentry)

/-- A user alone in a record is told the same as beside another one, after a failed guess at that
other one's password. -/
theorem Credentials.AgreeOn.connect_eq_connect_sensor :
    let settings : Settings := { scheme := some .plain }
    let gate := Gate.ofSettings settings
    let desk := (Desk.opened .plain 0).run [.update soleSensor]
    let desk' := (Desk.opened .plain 5).run
      [.update soleReader, .connect gate sensorRequest, .update readerAndSensor,
        .connect gate guess, .elapse 3]
    let w := World.opened srv settings (filledHome (Utf8.encode soleSensor.write) 5) 0
    let w' := (World.opened srv settings (filledHome (Utf8.encode readerAndSensor.write) 7) 2).run
      [.connect guess, .elapse 3]
    soleSensor.AgreeOn "eve" readerAndSensor ∧
      (∃ grants,
        (gate.connect desk.directory desk.now sensorRequest).decision = .admitted grants .deny ∧
        (gate.connect desk'.directory desk'.now sensorRequest).decision =
          .admitted grants .deny) ∧
      (w.deployment.connect w.now sensorRequest).1 =
        (w'.deployment.connect w'.now sensorRequest).1 := by
  intro settings gate desk desk' w w'
  have hagree : soleSensor.AgreeOn "eve" readerAndSensor :=
    ⟨_, rfl, List.mem_cons_self, List.mem_append_right _ List.mem_cons_self,
      List.forall_mem_singleton.mpr
        ⟨_, rfl, List.mem_cons_self, List.mem_append_right _ List.mem_cons_self⟩⟩
  have halone : soleSensor.defects .plain = [] := by decide
  have hbeside : readerAndSensor.defects .plain = [] := by decide
  have hrequest : sensorRequest.userName = some "eve" := rfl
  obtain ⟨hdesks, hworlds⟩ :=
    Credentials.AgreeOn.connect_eq_connect hagree settings halone hbeside hrequest
  have hadmitted : (gate.connect desk.directory desk.now sensorRequest).decision =
      .admitted [⟨"+/${{username}}//#", .all, .all, .all, .all, "#", .allow⟩,
        ⟨"${{+}}eve", .all, .all, .all, .all, "#", .allow⟩] .deny := by
    decide +kernel
  have hsame := hdesks 0 5 [.update soleSensor] [.update soleReader, .connect gate sensorRequest,
    .update readerAndSensor, .connect gate guess, .elapse 3] rfl rfl
  refine ⟨hagree, ⟨_, hadmitted, hsame.symm.trans hadmitted⟩, ?_⟩
  exact hworlds srv srv _ _ 0 2 [] [.connect guess, .elapse 3]
    (World.opened_filledHome_current halone 5 0) (World.opened_filledHome_current hbeside 7 2)

end BrokerAccess
