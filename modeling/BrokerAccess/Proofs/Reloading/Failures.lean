import BrokerAccess.Proofs.Deployment
import BrokerAccess.Proofs.Store.Again
import BrokerAccess.Proofs.Store.Notices
import BrokerAccess.Reloading.Task

/-!
# When a subscriber fails

A subscriber that fails keeps those after it from being called, and nothing makes up for it: the
record is in effect, so the next cycle of the reload task finds no news. A directory that is
attached where nobody before it can fail follows the record in effect whoever fails after it. One
that is attached behind a subscriber that fails goes on answering from a record that was replaced.
-/

namespace BrokerAccess

open Files (Path Time Tree)

section Calls

variable {old : Option Credentials} {new : Credentials} {before after : List Subscriber}
  {s : Subscriber}

/-- Subscribers are called in order, up to the first one that fails. -/
theorem deliver_getElem? (old : Option Credentials) (new : Credentials)
    (subscribers : List Subscriber) (i : Nat) : (deliver old new subscribers).1[i]? =
      if (subscribers.take i).any fun s => s.fails old new then none
      else subscribers[i]?.map fun s => ⟨s.recipient, old, new⟩ := by
  induction subscribers generalizing i with
  | nil => simp [deliver]
  | cons s rest ih =>
    cases i with
    | zero =>
      rw [deliver]
      split <;> rfl
    | succ i =>
      rw [deliver, List.take_succ_cons, List.any_cons]
      cases hfails : s.fails old new with
      | true => simp
      | false => simpa using ih i

/-- All calls tell of the new record. -/
theorem new_of_mem_deliver {subscribers : List Subscriber} {notice : Notice}
    (h : notice ∈ (deliver old new subscribers).1) : notice.new = new := by
  obtain ⟨i, hi⟩ := List.mem_iff_getElem?.mp h
  rw [deliver_getElem?] at hi
  split at hi
  · cases hi
  · obtain ⟨s, _, rfl⟩ := Option.map_eq_some_iff.mp hi
    rfl

/-- All subscribers are called exactly if none but the last one fails. -/
theorem deliver_eq_map_iff (old : Option Credentials) (new : Credentials)
    (subscribers : List Subscriber) :
    (deliver old new subscribers).1 = subscribers.map (fun s => ⟨s.recipient, old, new⟩) ↔
      ∀ s ∈ subscribers.dropLast, s.fails old new = false := by
  induction subscribers with
  | nil => simp [deliver]
  | cons s rest ih =>
    cases rest with
    | nil =>
      rw [deliver]
      split <;> simp [deliver]
    | cons next more =>
      rw [deliver, List.dropLast_cons_cons, List.forall_mem_cons, ← ih]
      cases hfails : s.fails old new <;> simp

/-- A subscriber is called if none of those before it fails. -/
theorem mem_deliver (h : ∀ earlier ∈ before, earlier.fails old new = false) :
    ⟨s.recipient, old, new⟩ ∈ (deliver old new (before ++ s :: after)).1 := by
  refine List.mem_iff_getElem?.mpr ⟨before.length, ?_⟩
  have hcalm : ¬(before.any fun s => s.fails old new) = true := by simpa using h
  rw [deliver_getElem?, List.take_left, if_neg hcalm, List.getElem?_append_right (Nat.le_refl _),
    Nat.sub_self]
  rfl

/-- A directory is called exactly if nobody fails before the first one that has subscribed. -/
theorem exists_mem_deliver_directory_iff (hs : s.recipient = .directory)
    (hbefore : ∀ other ∈ before, other.recipient ≠ .directory) :
    (∃ notice ∈ (deliver old new (before ++ s :: after)).1, notice.recipient = .directory) ↔
      ∀ earlier ∈ before, earlier.fails old new = false := by
  refine ⟨?_, fun h => ⟨_, mem_deliver h, hs⟩⟩
  rintro ⟨notice, hm, hrecipient⟩
  obtain ⟨i, hi⟩ := List.mem_iff_getElem?.mp hm
  rw [deliver_getElem?] at hi
  split at hi
  · cases hi
  next hcalm =>
    obtain ⟨other, hother, rfl⟩ := Option.map_eq_some_iff.mp hi
    -- What is called is a directory, so it comes no earlier than the first one.
    have hbehind : before.length ≤ i := by
      by_contra hlt
      rw [List.getElem?_append_left (Nat.not_le.mp hlt)] at hother
      exact hbefore other (List.mem_of_getElem? hother) hrecipient
    rw [List.take_append, List.take_of_length_le hbehind, List.any_append] at hcalm
    intro earlier he
    by_contra hfails
    have hany : before.any (fun s => s.fails old new) = true :=
      List.any_eq_true.mpr ⟨earlier, he, by simpa using hfails⟩
    rw [hany] at hcalm
    exact hcalm rfl

end Calls

/-- A task moves on with its schedule, whether or not its look is cut off; and it leaves the store
and the tree alone, or looks at its file once. -/
theorem ReloadTask.step_cases (task : ReloadTask) (moment : ArchiveTime) (input : ScheduleInput)
    (t : Tree) :
    (task.step moment input t).task.schedule = (task.schedule.step input).schedule ∧
    (((task.schedule.step input).reloads = false ∧
        (task.step moment input t).task.store = task.store ∧
        (task.step moment input t).tree = t ∧ (task.step moment input t).notices = []) ∨
      (task.schedule.step input).reloads = true ∧
        (task.step moment input t).task.store = (task.store.reload moment t).store ∧
        (task.step moment input t).tree = (task.store.reload moment t).tree ∧
        (task.step moment input t).notices = (task.store.reload moment t).notices) := by
  unfold step
  dsimp only
  split
  next hdue => exact ⟨rfl, Or.inr ⟨hdue, rfl, rfl, rfl⟩⟩
  next hidle => exact ⟨rfl, Or.inl ⟨by simpa using hidle, rfl, rfl, rfl⟩⟩

/-- A step of a task keeps the subscribers. It leaves the record in effect and calls nobody, or it
puts a record in effect and calls the subscribers, as far as it comes. -/
theorem ReloadTask.notices_cases (task : ReloadTask) (moment : ArchiveTime)
    (input : ScheduleInput) (t : Tree) :
    (task.step moment input t).task.store.subscribers = task.store.subscribers ∧
    (((task.step moment input t).task.store.current = task.store.current ∧
        (task.step moment input t).notices = []) ∨
      ∃ new, (task.step moment input t).task.store.current = some new ∧
        (task.step moment input t).notices =
          (deliver task.store.current new task.store.subscribers).1) := by
  obtain ⟨-, ⟨_, hstore, _, hnotices⟩ | ⟨_, hstore, _, hnotices⟩⟩ := task.step_cases moment input t
  · rw [hstore, hnotices]
    exact ⟨rfl, Or.inl ⟨rfl, rfl⟩⟩
  · rw [hstore, hnotices, Store.reload_subscribers]
    rcases task.store.reload_cases moment t with
      ⟨_, _, _, hquiet, _, hsame⟩ | ⟨record, _, _, _, hcalls, _, hpromoted⟩
    · exact ⟨rfl, Or.inl ⟨by rw [hsame], hquiet⟩⟩
    · exact ⟨rfl, Or.inr ⟨record, by rw [hpromoted], hcalls⟩⟩

/-- A step of a task that finds a fresh record puts it in effect and calls the subscribers, as far
as it comes. -/
theorem ReloadTask.step_of_fresh (task : ReloadTask) {input : ScheduleInput} {t : Tree}
    {record : Credentials} {time : Time} (hdue : (task.schedule.step input).reloads = true)
    (hfresh : task.store.finding t = .fresh record time) (moment : ArchiveTime) :
    (task.step moment input t).task.schedule = (task.schedule.step input).schedule ∧
    (task.step moment input t).task.store.current = some record ∧
    (task.step moment input t).notices =
      (deliver task.store.current record task.store.subscribers).1 := by
  obtain ⟨hschedule, ⟨hidle, _⟩ | ⟨_, hstore, _, hnotices⟩⟩ := task.step_cases moment input t
  · rw [hdue] at hidle
    cases hidle
  · rw [hstore, hnotices, Store.reload_store, Store.reload_notices, hfresh]
    exact ⟨hschedule, rfl, rfl⟩

/-- A reload task, the tree that it looks at, and a directory. -/
structure Station where
  /-- The task. -/
  task : ReloadTask
  /-- What its file system holds. -/
  tree : Tree
  /-- The directory, which is told about new records once it is attached. -/
  directory : Directory

/-- What can happen at a station whose subscribers may fail. -/
inductive StationEvent where
  /-- Others leave a tree of any kind. -/
  | disk (tree : Tree)
  /-- Somebody subscribes. -/
  | subscribe (subscriber : Subscriber)
  /-- Something happens to the schedule of the task. -/
  | input (moment : ArchiveTime) (input : ScheduleInput)
  /-- Somebody asks for the roles of a user who presents a password. -/
  | rolesOf (now : Nat) (user : String) (password : List UInt8)

namespace Station

/-- The station after an event. -/
def step (station : Station) : StationEvent → Station
  | .disk tree => { station with tree }
  | .subscribe subscriber =>
    { station with
      task := { station.task with store := station.task.store.subscribe subscriber } }
  | .input moment input =>
    let step := station.task.step moment input station.tree
    ⟨step.task, step.tree, (Deployment.follow station.directory step.notices).1⟩
  | .rolesOf now user password =>
    { station with
      directory :=
        { station.directory with cache := (station.directory.rolesOf now user password).cache } }

/-- The station after events in order. -/
def run (station : Station) (events : List StationEvent) : Station := events.foldl step station

/-- The station with a directory built from the record in effect, and attached behind all who have
subscribed. -/
def attach (station : Station) : Station :=
  { station.step (.subscribe { recipient := .directory }) with
    directory := .ofCurrent station.task.store.scheme station.task.store.current }

/-- The directory follows the record in effect, and is told about new ones whoever fails: nobody
before it can. -/
structure IsLed (station : Station) : Prop where
  /-- The directory is attached where nobody before it can fail. -/
  told : ∃ before subscriber after,
    station.task.store.subscribers = before ++ subscriber :: after ∧
    subscriber.recipient = .directory ∧ ∀ s ∈ before, ∀ old new, s.fails old new = false
  /-- The directory follows the record in effect. -/
  follows : station.directory.Follows station.task.store.current

variable {station : Station}

/-- Whatever happens at a station, a directory that is led stays so. -/
theorem IsLed.step (h : station.IsLed) (event : StationEvent) : (station.step event).IsLed := by
  cases event with
  | disk tree => exact ⟨h.told, h.follows⟩
  | subscribe subscriber =>
    obtain ⟨before, leader, after, hsubscribers, hleader⟩ := h.told
    refine ⟨⟨before, leader, after ++ [subscriber], ?_, hleader⟩, h.follows⟩
    rw [Station.step, Store.subscribe, hsubscribers, List.append_assoc, List.cons_append]
  | input moment input =>
    obtain ⟨before, leader, after, hsubscribers, hleader, hcalm⟩ := h.told
    obtain ⟨hsame, ⟨hcurrent, hnotices⟩ | ⟨new, hcurrent, hnotices⟩⟩ :=
      station.task.notices_cases moment input station.tree
    · refine ⟨⟨before, leader, after, hsame.trans hsubscribers, hleader, hcalm⟩, ?_⟩
      rw [Station.step, hcurrent, hnotices]
      exact h.follows
    · refine ⟨⟨before, leader, after, hsame.trans hsubscribers, hleader, hcalm⟩, ?_⟩
      have hcalled : ∃ notice ∈
          (deliver station.task.store.current new station.task.store.subscribers).1,
          notice.recipient = .directory := by
        rw [hsubscribers]
        exact ⟨_, mem_deliver fun s hs => hcalm s hs _ _, hleader⟩
      rw [Station.step, hcurrent, hnotices, Deployment.follow_fst (fun _ => new_of_mem_deliver),
        if_pos hcalled]
      exact Directory.update_follows h.follows.cache new
  | rolesOf now user password =>
    have hcache := Directory.rolesOf_cache_isFaithful h.follows.cache now user password
    exact ⟨h.told, h.follows.users, h.follows.roles, hcache⟩

/-- A run of a station keeps a directory led. -/
theorem IsLed.run (h : station.IsLed) (events : List StationEvent) :
    (station.run events).IsLed := by
  induction events generalizing station with
  | nil => exact h
  | cons event rest ih => exact ih (h.step event)

/-- A directory that is attached behind subscribers that cannot fail is led. -/
theorem attach_isLed
    (h : ∀ s ∈ station.task.store.subscribers, ∀ old new, s.fails old new = false) :
    station.attach.IsLed :=
  ⟨⟨_, _, [], rfl, rfl, h⟩, Directory.ofCurrent_follows _ _⟩

/-- In a cycle of a reload task that finds a fresh record, the record is put in effect and the task
moves on with its schedule, whoever fails. The subscribers are called in order, up to the first one
that fails, and so all of them exactly if none but the last one fails; and the directory is rebuilt
from the new record exactly if nobody fails before the first directory that has subscribed. However
long the task runs, a directory that was attached behind subscribers that cannot fail follows the
record in effect, whoever fails after it. -/
theorem calls_until_failure (station : Station) :
    (∀ moment input new time, (station.task.schedule.step input).reloads = true →
      station.task.store.finding station.tree = .fresh new time →
      let next := station.step (.input moment input)
      let notices := (station.task.step moment input station.tree).notices
      let old := station.task.store.current
      let subscribers := station.task.store.subscribers
      next.task.store.current = some new ∧
      next.task.schedule = (station.task.schedule.step input).schedule ∧
      (∀ i, notices[i]? = if (subscribers.take i).any fun s => s.fails old new then none
        else subscribers[i]?.map fun s => ⟨s.recipient, old, new⟩) ∧
      (notices = subscribers.map (fun s => ⟨s.recipient, old, new⟩) ↔
        ∀ s ∈ subscribers.dropLast, s.fails old new = false) ∧
      ∀ before s after, subscribers = before ++ s :: after → s.recipient = .directory →
        (∀ other ∈ before, other.recipient ≠ .directory) →
        next.directory = if before.any fun s => s.fails old new then station.directory
          else station.directory.update new) ∧
    ((∀ s ∈ station.task.store.subscribers, ∀ old new, s.fails old new = false) →
      ∀ events, let later := station.attach.run events
        later.directory.Follows later.task.store.current) := by
  refine ⟨?_, fun hcalm events => ((attach_isLed hcalm).run events).follows⟩
  intro moment input new time hdue hfresh next notices old subscribers
  obtain ⟨hschedule, hcurrent, hnotices⟩ := station.task.step_of_fresh hdue hfresh moment
  have hnotices : notices = (deliver old new subscribers).1 := hnotices
  have hdirectory : next.directory = (Deployment.follow station.directory notices).1 := rfl
  rw [hdirectory, hnotices]
  refine ⟨hcurrent, hschedule, deliver_getElem? old new subscribers,
    deliver_eq_map_iff old new subscribers, ?_⟩
  intro before s after hsubscribers hs hbefore
  have hcalled : (∃ notice ∈ (deliver old new (before ++ s :: after)).1,
      notice.recipient = .directory) ↔ ∀ earlier ∈ before, earlier.fails old new = false :=
    exists_mem_deliver_directory_iff hs hbefore
  rw [Deployment.follow_fst (fun _ => new_of_mem_deliver), hsubscribers]
  cases hfails : before.any fun s => s.fails old new with
  | true =>
    rw [if_pos rfl, if_neg]
    rw [hcalled]
    simpa using hfails
  | false =>
    rw [if_neg Bool.false_ne_true, if_pos]
    rw [hcalled]
    simpa using hfails

/-- A station as a site. -/
def site (station : Station) : Site := ⟨station.task.store, station.tree⟩

/-- A nudge makes the task of a station look at its file, and nothing else. -/
def IsNudgeable (station : Station) : Prop :=
  station.task.schedule.step .nudge = { schedule := station.task.schedule, reloads := true }

/-- The schedule of a task that can be nudged has not ended. -/
theorem IsNudgeable.isRunning (h : station.IsNudgeable) :
    station.task.schedule.isRunning = true := by
  rw [IsNudgeable, Schedule.step] at h
  rw [Schedule.isRunning]
  cases hticker : station.task.schedule.ticker with
  | none =>
    rw [hticker] at h
    cases congrArg ScheduleStep.reloads h
  | some ticker => rfl

/-- A nudge is a look, of which the directory is told. -/
theorem IsNudgeable.step (h : station.IsNudgeable) (moment : ArchiveTime) :
    (station.step (.input moment .nudge)).IsNudgeable ∧
    (station.step (.input moment .nudge)).site = station.site.turn (.reload moment) ∧
    (station.step (.input moment .nudge)).directory =
      (Deployment.follow station.directory (station.site.look moment).notices).1 := by
  obtain ⟨hschedule, ⟨hidle, _⟩ | ⟨_, hstore, htree, hnotices⟩⟩ :=
    station.task.step_cases moment .nudge station.tree
  · rw [h] at hidle
    cases hidle
  · refine ⟨?_, ?_, ?_⟩
    · rw [h] at hschedule
      rw [IsNudgeable, Station.step, hschedule]
      exact h
    · rw [Site.turn, Station.site, Station.step, hstore, htree]
      rfl
    · rw [Station.step, hnotices]
      rfl

/-- A nudge puts a fresh record in effect, and the directory is told if the calls come to it. -/
theorem IsNudgeable.step_fresh (h : station.IsNudgeable) {record : Credentials} {time : Time}
    (hfresh : station.site.store.finding station.site.tree = .fresh record time)
    (moment : ArchiveTime) :
    (station.step (.input moment .nudge)).IsNudgeable ∧
    (station.step (.input moment .nudge)).site = station.site.turn (.reload moment) ∧
    (station.step (.input moment .nudge)).directory = (Deployment.follow station.directory
      (deliver station.site.store.current record station.site.store.subscribers).1).1 := by
  obtain ⟨hready, hsite, hdirectory⟩ := h.step moment
  rw [Site.look, Store.reload_notices, hfresh] at hdirectory
  exact ⟨hready, hsite, hdirectory⟩

/-- A nudge without news leaves the record in effect and the directory as they are. -/
theorem IsNudgeable.step_known (h : station.IsNudgeable)
    (hknown : station.site.store.finding station.site.tree = .known) (moment : ArchiveTime) :
    (station.step (.input moment .nudge)).IsNudgeable ∧
    (station.step (.input moment .nudge)).task.store.current = station.site.store.current ∧
    (station.step (.input moment .nudge)).directory = station.directory := by
  obtain ⟨hready, hsite, hdirectory⟩ := h.step moment
  have hcurrent : (station.step (.input moment .nudge)).task.store.current =
      (station.site.look moment).store.current :=
    congrArg (fun site : Site => site.store.current) hsite
  rw [Site.look, Store.reload_store, hknown] at hcurrent
  rw [Site.look, Store.reload_notices, hknown] at hdirectory
  exact ⟨hready, hcurrent, hdirectory⟩

open Site (srv emptyHome filledHome soleReader soleWriter exchange)

/-- An observer that fails when one record replaces another. -/
def faulty : Subscriber := { recipient := .observer "faulty", fails := fun old _ => old.isSome }

/-- A station whose task can be nudged, with a directory attached behind an observer that fails. -/
def behindFaulty : Station :=
  attach ⟨⟨(Site.opened srv .plain emptyHome).store.subscribe faulty,
    (Schedule.start 0 60 true).1⟩, emptyHome, .ofCurrent .plain none⟩

/-- One record is written and then another, with a nudge after each, and one more in the end. -/
def mishap : List StationEvent :=
  [.disk (filledHome (Utf8.encode soleReader.write) 5), .input ⟨5, "noon"⟩ .nudge,
    .disk (filledHome (Utf8.encode soleWriter.write) 7), .input ⟨7, "one"⟩ .nudge,
    .input ⟨9, "two"⟩ .nudge]

/-- Up to the second nudge, a mishap is an exchange of the records. -/
theorem IsNudgeable.site_run_mishap (h : station.IsNudgeable) :
    (station.run (mishap.take 3)).IsNudgeable ∧
      (station.run (mishap.take 3)).site = station.site.course (exchange.take 3) := by
  have hwritten : (station.run (mishap.take 1)).IsNudgeable := h
  obtain ⟨hread, hsite, _⟩ := hwritten.step ⟨5, "noon"⟩
  exact ⟨hread,
    congrArg (Site.turn · (.disk (filledHome (Utf8.encode soleWriter.write) 7))) hsite⟩

/-- In a mishap behind an observer that fails, the directory is rebuilt from the first record and
not from the second. -/
theorem IsNudgeable.run_mishap (h : station.IsNudgeable) (hkept : station.site.IsKept srv .plain)
    (hnone : station.site.store.current = none)
    (hsubscribers : station.site.store.subscribers = [faulty, { recipient := .directory }]) :
    (station.run mishap).IsNudgeable ∧
    (station.run mishap).task.store.current = some soleWriter ∧
    (station.run mishap).directory = station.directory.update soleReader := by
  obtain ⟨hfirst, hsecond, hcurrent, hsame⟩ := hkept.finding_exchange hnone
  have hlater := hkept.course (exchange.take 3)
  -- The first record is told to both subscribers.
  have hwritten : (station.run (mishap.take 1)).IsNudgeable := h
  have hstart : (station.run (mishap.take 1)).site.store = station.site.store := rfl
  obtain ⟨_, _, hbuilt⟩ := hwritten.step_fresh hfirst ⟨5, "noon"⟩
  rw [hstart, hnone, hsubscribers] at hbuilt
  -- The second one is told to the observer only.
  obtain ⟨hrewritten, hsite⟩ := h.site_run_mishap
  rw [← hsite] at hsecond hcurrent hsame hlater
  obtain ⟨hreplaced, hsite, hpassed⟩ := hrewritten.step_fresh hsecond ⟨7, "one"⟩
  obtain ⟨_, hpromoted⟩ := Site.turn_of_fresh hsecond ⟨7, "one"⟩
  rw [hcurrent, hsame, hsubscribers] at hpassed
  -- After that there is no news.
  have hknown : (station.run (mishap.take 4)).site.store.finding
      (station.run (mishap.take 4)).site.tree = .known :=
    (congrArg (fun site : Site => site.store.finding site.tree) hsite).trans
      (hlater.finding_of_fresh ⟨7, "one"⟩ hsecond)
  obtain ⟨hlast, hstays, hkeeps⟩ := hreplaced.step_known hknown ⟨9, "two"⟩
  refine ⟨hlast, ?_, ?_⟩
  · calc (station.run mishap).task.store.current
        = (station.run (mishap.take 4)).site.store.current := hstays
      _ = some soleWriter := (congrArg (fun site : Site => site.store.current) hsite).trans
          (congrArg Store.current hpromoted)
  · calc (station.run mishap).directory
        = (station.run (mishap.take 4)).directory := hkeeps
      _ = (station.run (mishap.take 3)).directory := hpassed
      _ = station.directory.update soleReader := hbuilt

/-- Behind an observer that failed, the task goes on and the new record is in effect; but the
directory still answers from the replaced one, and lets in a user that the new one does not have. -/
theorem calls_until_failure_mishap :
    let station := behindFaulty.run mishap
    station.task.schedule.isRunning = true ∧
    station.task.store.current = some soleWriter ∧
    soleWriter.user? .plain "ada" (Utf8.bytes "lovelace") = none ∧
    (station.directory.rolesOf 0 "ada" (Utf8.bytes "lovelace")).roles = some ["reader"] ∧
    ¬station.directory.Follows station.task.store.current := by
  intro station
  have hopened := Site.opened_isKept srv .plain emptyHome
  have hkept : behindFaulty.site.IsKept srv .plain :=
    (hopened.turn (.subscribe faulty)).turn (.subscribe { recipient := .directory })
  have hnone : behindFaulty.site.store.current = none := Site.opened_emptyHome_current
  have hsubscribers : behindFaulty.site.store.subscribers =
      [faulty, { recipient := .directory }] :=
    congrArg (· ++ [faulty] ++ [{ recipient := .directory }])
      (Site.opened_subscribers srv .plain emptyHome)
  have hnudgeable : behindFaulty.IsNudgeable := rfl
  obtain ⟨hlast, hcurrent, hdirectory⟩ := hnudgeable.run_mishap hkept hnone hsubscribers
  have hfollows : station.directory.Follows (some soleReader) := by
    rw [hdirectory]
    exact Directory.update_follows (Directory.ofCurrent_follows _ _).cache soleReader
  have hscheme : station.directory.scheme = .plain := by
    rw [hdirectory, Directory.update]
    exact (Directory.ofCurrent_scheme _ _).trans hopened.stored
  have hada : soleReader.user? .plain "ada" (Utf8.bytes "lovelace") =
      soleReader.userList.head? := by
    simp [Credentials.user?, PasswordScheme.Accepts, Utf8.bytes, Utf8.decodeLossy,
      Utf8.pieces_encode, soleReader, Credentials.userList]
  have hnobody : soleWriter.user? .plain "ada" (Utf8.bytes "lovelace") = none := by decide
  have hadmits :
      (station.directory.rolesOf 0 "ada" (Utf8.bytes "lovelace")).roles = some ["reader"] := by
    rw [hfollows.rolesOf_some (hscheme ▸ Credentials.isWellFormed_of_defects (by decide)), hscheme,
      hada]
    rfl
  refine ⟨hlast.isRunning, hcurrent, hnobody, hadmits, fun hcurrently => ?_⟩
  rw [hcurrent] at hcurrently
  rw [hcurrently.rolesOf_some (hscheme ▸ Credentials.isWellFormed_of_defects (by decide)), hscheme,
    hnobody] at hadmits
  cases hadmits

end Station

end BrokerAccess
