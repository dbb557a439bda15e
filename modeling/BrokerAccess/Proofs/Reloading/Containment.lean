import BrokerAccess.Proofs.Reloading.Failures

/-!
# A failing subscriber is contained

When the calls begin, the new record is in effect, its time is known and the replaced record is
archived. So a subscriber that fails in some cycles of a reload task, in whichever, can keep others
from being called and nothing else: the record in effect, the archive and the schedule are at all
times what they would be without it.
-/

namespace BrokerAccess

open Files (Path Time Tree)

namespace Store

/-- The store without its subscribers. -/
def core (s : Store) : Store := { s with subscribers := [] }

/-- The store in which the subscriber at a place has made up its mind whether to fail. -/
def tempered (s : Store) (place : Nat) (fails : Bool) : Store :=
  { s with
    subscribers := s.subscribers.modify place fun subscriber =>
      { subscriber with fails := fun _ _ => fails } }

/-- Subscribers play no part in what a reload leaves behind. -/
theorem reload_core (s : Store) (moment : ArchiveTime) (t : Tree) :
    (s.reload moment t).store.core = (s.core.reload moment t).store.core ∧
      (s.reload moment t).tree = (s.core.reload moment t).tree := by
  have hfinding : s.core.finding t = s.finding t := rfl
  rw [reload_store, reload_store, reload_tree, reload_tree, hfinding]
  cases s.finding t <;> exact ⟨rfl, rfl⟩

/-- A reload is cut off if a subscriber is to fail that is told of the record that it finds. -/
theorem reload_tempered_outcome {s : Store} {place : Nat} (hplace : place < s.subscribers.length)
    {t : Tree} {record : Credentials} {time : Time} (hfresh : s.finding t = .fresh record time)
    (moment : ArchiveTime) : ((s.tempered place true).reload moment t).outcome = none := by
  have hfinding : (s.tempered place true).finding t = .fresh record time := hfresh
  have hfails : (s.tempered place true).subscribers[place]? =
      some { s.subscribers[place] with fails := fun _ _ => true } := by
    rw [tempered, List.getElem?_modify_eq, List.getElem?_eq_getElem hplace]
    rfl
  have hcut : (deliver (s.tempered place true).current record
      (s.tempered place true).subscribers).2 = false := by
    rw [deliver_snd, List.all_eq_false]
    exact ⟨_, List.mem_of_getElem? hfails, by simp⟩
  rw [reload_outcome, hfinding]
  simp only [react, hcut, Bool.false_eq_true, if_false]

end Store

/-- Tasks that differ in their subscribers alone go on so. -/
theorem ReloadTask.step_congr {task other : ReloadTask}
    (hstore : other.store.core = task.store.core) (hschedule : other.schedule = task.schedule)
    (moment : ArchiveTime) (input : ScheduleInput) (t : Tree) :
    (other.step moment input t).task.store.core = (task.step moment input t).task.store.core ∧
      (other.step moment input t).task.schedule = (task.step moment input t).task.schedule ∧
      (other.step moment input t).tree = (task.step moment input t).tree := by
  obtain ⟨hstores, htrees⟩ := other.store.reload_core moment t
  rw [hstore] at hstores htrees
  obtain ⟨hstores', htrees'⟩ := task.store.reload_core moment t
  unfold step
  rw [hschedule]
  dsimp only
  split
  · exact ⟨hstores.trans hstores'.symm, rfl, htrees.trans htrees'.symm⟩
  · exact ⟨hstore, rfl, rfl⟩

/-- The event is one of those that change files. -/
def StationEvent.isDisk : StationEvent → Bool
  | .disk _ => true
  | .subscribe _ => false
  | .input .. => false
  | .rolesOf .. => false

namespace Station

/-- A station whose task starts with a store that was opened below a home folder, when the clock
shows `reading` seconds. -/
def opened (home : Path) (scheme : PasswordScheme) (t : Tree) (reading interval : Nat)
    (nudgeable : Bool) (directory : Directory) : Station :=
  ⟨(ReloadTask.start (Store.ofTree home scheme t).1 reading interval nudgeable).1, t, directory⟩

/-- The station in which the subscriber at a place has made up its mind whether to fail. -/
def tempered (station : Station) (place : Nat) (fails : Bool) : Station :=
  { station with task := { station.task with store := station.task.store.tempered place fails } }

/-- The station after an event in which the subscriber at a place fails, if it is to and is
called. -/
def moodyStep (place : Nat) (station : Station) (event : Bool × StationEvent) : Station :=
  (station.tempered place event.1).step event.2

/-- The station after events in order, with the choice in each whether the subscriber at a place is
to fail. -/
def moodyRun (place : Nat) (station : Station) (events : List (Bool × StationEvent)) : Station :=
  events.foldl (moodyStep place) station

/-- What there is of a station beside its subscribers and its directory. -/
def bare (station : Station) : Store × Schedule × Tree :=
  (station.task.store.core, station.task.schedule, station.tree)

variable {station other : Station} {place : Nat}

/-! ## With and without a subscriber -/

/-- Stations that differ in subscribers and directories alone have the same record in effect, time
of its file, tree and schedule. -/
theorem fields_of_bare (h : other.bare = station.bare) :
    other.task.store.current = station.task.store.current ∧
      other.task.store.lastRead = station.task.store.lastRead ∧
      other.tree = station.tree ∧ other.task.schedule = station.task.schedule := by
  obtain ⟨hstore, hrest⟩ := Prod.mk.inj h
  obtain ⟨hschedule, htree⟩ := Prod.mk.inj hrest
  have hcurrent : other.task.store.core.current = station.task.store.core.current :=
    congrArg Store.current hstore
  have hlast : other.task.store.core.lastRead = station.task.store.core.lastRead :=
    congrArg Store.lastRead hstore
  exact ⟨hcurrent, hlast, htree, hschedule⟩

/-- Stations that differ in subscribers and directories alone go on so. -/
theorem bare_step (h : other.bare = station.bare) (event : StationEvent) :
    (other.step event).bare = (station.step event).bare := by
  obtain ⟨hstore, hrest⟩ := Prod.mk.inj h
  obtain ⟨hschedule, htree⟩ := Prod.mk.inj hrest
  cases event with
  | disk tree => exact congrArg₂ (fun store schedule => (store, schedule, tree)) hstore hschedule
  | subscribe subscriber => exact h
  | input moment input =>
    obtain ⟨hstores, hschedules, htrees⟩ :=
      ReloadTask.step_congr hstore hschedule moment input station.tree
    rw [bare, bare, step, step, htree, hstores, hschedules, htrees]
  | rolesOf now user password => exact h

/-- A subscriber that fails as it likes changes nothing but calls. -/
theorem bare_moodyRun (h : other.bare = station.bare) (place : Nat)
    (events : List (Bool × StationEvent)) :
    (other.moodyRun place events).bare = (station.run (events.map Prod.snd)).bare := by
  induction events generalizing station other with
  | nil => exact h
  | cons event rest ih =>
    have htempered : (other.tempered place event.1).bare = station.bare := h
    exact ih (bare_step htempered event.2)

/-! ## After a cycle that was cut off -/

/-- An event leaves the store and the tree of a station as they are, or is a turn of them; one that
changes no file is one that changes no file. -/
theorem site_step_cases (station : Station) (event : StationEvent) :
    (station.step event).site = station.site ∨
      ∃ turn : Turn, (station.step event).site = station.site.turn turn ∧
        turn.isDisk = event.isDisk := by
  cases event with
  | disk tree => exact Or.inr ⟨.disk tree, rfl, rfl⟩
  | subscribe subscriber => exact Or.inr ⟨.subscribe subscriber, rfl, rfl⟩
  | input moment input =>
    obtain ⟨-, ⟨_, hstore, htree, _⟩ | ⟨_, hstore, htree, _⟩⟩ :=
      station.task.step_cases moment input station.tree
    · refine Or.inl ?_
      rw [site, site, step, hstore, htree]
    · refine Or.inr ⟨.reload moment, ?_, rfl⟩
      rw [site, step, hstore, htree]
      rfl
  | rolesOf now user password => exact Or.inl rfl

section Kept

variable {home : Path} {scheme : PasswordScheme}

/-- The store of a station stays the one that was opened. -/
theorem isKept_step (h : station.site.IsKept home scheme) (event : StationEvent) :
    (station.step event).site.IsKept home scheme := by
  rcases station.site_step_cases event with hsame | ⟨turn, hturn, _⟩
  · rw [hsame]
    exact h
  · rw [hturn]
    exact h.turn turn

/-- A run of a station keeps its store the one that was opened. -/
theorem isKept_run (h : station.site.IsKept home scheme) (events : List StationEvent) :
    (station.run events).site.IsKept home scheme := by
  induction events generalizing station with
  | nil => exact h
  | cons event rest ih => exact ih (isKept_step h event)

/-- So does a run in which a subscriber fails as it likes. -/
theorem isKept_moodyRun (h : station.site.IsKept home scheme) (place : Nat)
    (events : List (Bool × StationEvent)) :
    (station.moodyRun place events).site.IsKept home scheme := by
  induction events generalizing station with
  | nil => exact h
  | cons event rest ih =>
    have htempered : (station.tempered place event.1).site.IsKept home scheme :=
      ⟨h.placement, h.archive, h.stored, h.accepted⟩
    exact ih (isKept_step htempered event.2)

end Kept

/-- Nobody ever leaves the subscribers of a station. -/
theorem length_subscribers_moodyRun (station : Station) (place : Nat)
    (events : List (Bool × StationEvent)) : station.task.store.subscribers.length ≤
      (station.moodyRun place events).task.store.subscribers.length := by
  induction events generalizing station with
  | nil => exact Nat.le_refl _
  | cons event rest ih =>
    refine Nat.le_trans ?_ (ih (station.moodyStep place event))
    have hlength : (station.tempered place event.1).task.store.subscribers.length =
        station.task.store.subscribers.length := List.length_modify ..
    rw [← hlength, moodyStep]
    cases event.2 with
    | disk tree => exact Nat.le_refl _
    | subscribe subscriber =>
      rw [step, Store.subscribe, List.length_append]
      exact Nat.le_add_right _ _
    | input moment input =>
      obtain ⟨hsame, _⟩ :=
        (station.tempered place event.1).task.notices_cases moment input station.tree
      rw [step]
      exact Nat.le_of_eq (congrArg List.length hsame).symm
    | rolesOf now user password => exact Nat.le_refl _

/-- While no file changes, a record that is no news stays in effect and is not archived. -/
theorem moodyRun_of_known (h : station.site.store.finding station.site.tree = .known) (place : Nat)
    {events : List (Bool × StationEvent)} (hevents : ∀ event ∈ events, event.2.isDisk = false) :
    let later := station.moodyRun place events
    later.site.store.finding later.site.tree = .known ∧
      later.task.store.current = station.task.store.current ∧ later.tree = station.tree := by
  induction events generalizing station with
  | nil => exact ⟨h, rfl, rfl⟩
  | cons event rest ih =>
    rw [List.forall_mem_cons] at hevents
    have htempered : (station.tempered place event.1).site.store.finding
        (station.tempered place event.1).site.tree = Finding.again .known := h
    have hstep : (station.moodyStep place event).site.store.finding
          (station.moodyStep place event).site.tree = .known ∧
        (station.moodyStep place event).site.tree = station.tree ∧
        (station.moodyStep place event).site.store.current = station.task.store.current := by
      rcases (station.tempered place event.1).site_step_cases event.2 with
        hsame | ⟨turn, hturn, hdisk⟩
      · rw [moodyStep, hsame]
        exact ⟨h, rfl, rfl⟩
      · rw [moodyStep, hturn]
        obtain ⟨hknown, htree, hcurrent, _⟩ :=
          Site.turn_again htempered (hdisk.trans hevents.1)
        exact ⟨hknown, htree, hcurrent⟩
    obtain ⟨hknown, htree, hcurrent⟩ := hstep
    obtain ⟨hlater, hstays, hsame⟩ := ih hknown hevents.2
    exact ⟨hlater, hstays.trans hcurrent, hsame.trans htree⟩

/-- A due input of a task that finds a fresh record puts it in effect, whoever fails. -/
theorem moodyStep_of_fresh {input : ScheduleInput} {record : Credentials} {time : Time}
    (hdue : (station.task.schedule.step input).reloads = true)
    (hfresh : station.task.store.finding station.tree = .fresh record time) (place : Nat)
    (fails : Bool) (moment : ArchiveTime) :
    let after := station.moodyStep place (fails, .input moment input)
    after.task.store.current = some record ∧
      after.task.schedule = (station.task.schedule.step input).schedule ∧
      after.site = (station.tempered place fails).site.turn (.reload moment) := by
  intro after
  have hdue' : ((station.tempered place fails).task.schedule.step input).reloads = true := hdue
  have hfresh' : (station.tempered place fails).task.store.finding station.tree =
      .fresh record time := hfresh
  obtain ⟨hschedule, hcurrent, _⟩ :=
    (station.tempered place fails).task.step_of_fresh hdue' hfresh' moment
  refine ⟨hcurrent, hschedule, ?_⟩
  obtain ⟨-, ⟨hidle, _⟩ | ⟨_, hstore, htree, _⟩⟩ :=
    (station.tempered place fails).task.step_cases moment input station.tree
  · rw [hdue'] at hidle
    cases hidle
  · have hafter : after.site = ⟨_, _⟩ := congrArg₂ Site.mk hstore htree
    exact hafter

/-- A due input of a task puts the record in effect that its file holds, if that is later than what
was read, whoever fails. -/
theorem moodyStep_of_later {home : Path} {scheme : PasswordScheme}
    (hkept : station.site.IsKept home scheme) {input : ScheduleInput} {record : Credentials}
    {time : Time} (hdue : (station.task.schedule.step input).reloads = true)
    (hload : Credentials.load scheme station.tree
      ((Placement.ofCredentials home).path station.tree) = .ok record)
    (htime : station.tree.modified ((Placement.ofCredentials home).path station.tree) = .ok time)
    (hlater : ∀ last, station.task.store.lastRead = some last → last < time) (place : Nat)
    (fails : Bool) (moment : ArchiveTime) :
    (station.moodyStep place (fails, .input moment input)).task.store.current = some record := by
  have hpath : station.task.store.placement.path station.tree = _ := hkept.path station.tree
  have hstored : station.task.store.scheme = scheme := hkept.stored
  have hnews : station.task.store.isKnown time = false := by
    rw [Store.isKnown, Bool.and_eq_false_imp]
    intro _
    cases hlast : station.task.store.lastRead with
    | none => rfl
    | some last => simpa using hlater last hlast
  have hfresh : station.task.store.finding station.tree = .fresh record time := by
    rw [Store.finding_eq_fresh_iff, hpath, hstored]
    exact ⟨hload, htime, hnews⟩
  exact (moodyStep_of_fresh hdue hfresh place fails moment).1

/-- A subscriber that fails in some cycles of a reload task and not in others, in whichever, leaves
store and task as they would be without it: after any run, the record in effect, the time of its
file, the tree with its archive, and whether the task has ended and listens to the stop signal are
those of the run in which it never subscribed. In a cycle that it cuts off, the record that was
found is put in effect and the task moves on with its schedule. As long as no file changes after
that, the record stays in effect, nothing is archived, and every look finds the file unchanged; and
a later file that holds a record without defects is put in effect in the next cycle. -/
theorem failure_is_contained (home : Path) (scheme : PasswordScheme) (t : Tree)
    (reading interval : Nat) (nudgeable : Bool) (directory : Directory)
    (earlier : List StationEvent) (subscriber : Subscriber)
    (events : List (Bool × StationEvent)) :
    let before := (opened home scheme t reading interval nudgeable directory).run earlier
    let place := before.task.store.subscribers.length
    let joined := (before.step (.subscribe subscriber)).moodyRun place events
    let alone := before.run (events.map Prod.snd)
    (joined.task.store.current = alone.task.store.current ∧
      joined.task.store.lastRead = alone.task.store.lastRead ∧
      joined.tree = alone.tree ∧
      joined.task.schedule.isRunning = alone.task.schedule.isRunning ∧
      joined.task.schedule.receiverCount = alone.task.schedule.receiverCount) ∧
    ∀ moment input record time, (joined.task.schedule.step input).reloads = true →
      joined.task.store.finding joined.tree = .fresh record time →
      let cut := joined.moodyStep place (true, .input moment input)
      ((joined.tempered place true).task.store.reload moment joined.tree).outcome = none ∧
      cut.task.store.current = some record ∧
      cut.task.schedule = (joined.task.schedule.step input).schedule ∧
      ∀ more : List (Bool × StationEvent), let later := cut.moodyRun place more
        ((∀ event ∈ more, event.2.isDisk = false) →
          later.task.store.current = some record ∧ later.tree = cut.tree ∧
          ∀ moment, (later.task.store.reload moment later.tree).outcome = some .unchanged) ∧
        ∀ fails moment input new time, (later.task.schedule.step input).reloads = true →
          Credentials.load scheme later.tree ((Placement.ofCredentials home).path later.tree) =
            .ok new →
          later.tree.modified ((Placement.ofCredentials home).path later.tree) = .ok time →
          (∀ last, later.task.store.lastRead = some last → last < time) →
          (later.moodyStep place (fails, .input moment input)).task.store.current = some new := by
  intro before place joined alone
  have hbefore : before.site.IsKept home scheme :=
    isKept_run (Site.opened_isKept home scheme t) earlier
  have hjoins : (before.step (.subscribe subscriber)).site.IsKept home scheme :=
    isKept_step hbefore _
  have hjoined : joined.site.IsKept home scheme := isKept_moodyRun hjoins place events
  constructor
  · have hsame : (before.step (.subscribe subscriber)).bare = before.bare := rfl
    obtain ⟨hcurrent, hlast, htree, hschedule⟩ :=
      fields_of_bare (bare_moodyRun hsame place events)
    exact ⟨hcurrent, hlast, htree, congrArg Schedule.isRunning hschedule,
      congrArg Schedule.receiverCount hschedule⟩
  · intro moment input record time hdue hfresh cut
    have hplace : place < joined.task.store.subscribers.length := by
      refine Nat.lt_of_lt_of_le ?_ (length_subscribers_moodyRun _ place events)
      rw [step, Store.subscribe, List.length_append]
      exact Nat.lt_succ_self _
    obtain ⟨hcurrent, hschedule, hsite⟩ := moodyStep_of_fresh hdue hfresh place true moment
    have htempered : (joined.tempered place true).site.IsKept home scheme :=
      ⟨hjoined.placement, hjoined.archive, hjoined.stored, hjoined.accepted⟩
    have hcut : cut.site.IsKept home scheme := hsite ▸ htempered.turn (.reload moment)
    have hknown : cut.site.store.finding cut.site.tree = .known :=
      hsite ▸ htempered.finding_of_fresh moment hfresh
    refine ⟨Store.reload_tempered_outcome hplace hfresh moment, hcurrent, hschedule, ?_⟩
    intro more later
    constructor
    · intro hmore
      obtain ⟨hlater, hstays, hsame⟩ := moodyRun_of_known hknown place hmore
      refine ⟨hstays.trans hcurrent, hsame, ?_⟩
      intro moment
      have hunchanged : later.task.store.finding later.tree = .known := hlater
      rw [Store.reload_outcome, hunchanged]
      rfl
    · intro fails moment input new time hdue hload htime hnews
      have hlater : later.site.IsKept home scheme := isKept_moodyRun hcut place more
      exact moodyStep_of_later hlater hdue hload htime hnews place fails moment

open Site (srv emptyHome filledHome soleReader soleWriter exchange)

/-- Stations that differ in subscribers and directories alone find the same. -/
theorem finding_congr (h : other.bare = station.bare) :
    other.task.store.finding other.tree = station.task.store.finding station.tree := by
  obtain ⟨hstore, hrest⟩ := Prod.mk.inj h
  obtain ⟨_, htree⟩ := Prod.mk.inj hrest
  have hcore : other.task.store.core.finding other.tree =
      station.task.store.core.finding station.tree := by
    rw [hstore, htree]
  exact hcore

/-- A station in which no record is in effect finds the second record of a mishap before the second
nudge, whoever has joined it. -/
theorem IsNudgeable.moodyRun_mishap (h : station.IsNudgeable)
    (hkept : station.site.IsKept srv .plain) (hnone : station.site.store.current = none)
    (subscriber : Subscriber) (place : Nat) :
    let joined := (station.step (.subscribe subscriber)).moodyRun place
      ((mishap.take 3).map (Prod.mk false))
    joined.task.store.current = some soleReader ∧
      (joined.task.schedule.step .nudge).reloads = true ∧
      joined.task.store.finding joined.tree = .fresh soleWriter 7 := by
  intro joined
  obtain ⟨_, hsecond, hcurrent, _⟩ := hkept.finding_exchange hnone
  obtain ⟨hready, hsite⟩ := h.site_run_mishap
  rw [← hsite] at hsecond hcurrent
  have hsame : (station.step (.subscribe subscriber)).bare = station.bare := rfl
  have hbare : joined.bare = (station.run (mishap.take 3)).bare :=
    bare_moodyRun hsame place ((mishap.take 3).map (Prod.mk false))
  obtain ⟨hstore, _, _, hschedule⟩ := fields_of_bare hbare
  refine ⟨hstore.trans hcurrent, ?_, (finding_congr hbare).trans hsecond⟩
  rw [hschedule, hready]

/-- An observer that joins a station fails when a second record replaces the first one: the second
record is in effect, and stays so at the next nudge. -/
theorem failure_is_contained_mishap :
    let before := (opened srv .plain emptyHome 0 60 true (.ofCurrent .plain none)).run []
    let place := before.task.store.subscribers.length
    let joined := (before.step (.subscribe { recipient := .observer "moody" })).moodyRun place
      ((mishap.take 3).map (Prod.mk false))
    let cut := joined.moodyStep place (true, .input ⟨7, "one"⟩ .nudge)
    let later := cut.moodyRun place [(false, .input ⟨9, "two"⟩ .nudge)]
    joined.task.store.current = some soleReader ∧
      ((joined.tempered place true).task.store.reload ⟨7, "one"⟩ joined.tree).outcome = none ∧
      cut.task.store.current = some soleWriter ∧
      later.task.store.current = some soleWriter ∧ later.tree = cut.tree := by
  have hnudgeable :
      ((opened srv .plain emptyHome 0 60 true (.ofCurrent .plain none)).run []).IsNudgeable := rfl
  have hmishap := hnudgeable.moodyRun_mishap (Site.opened_isKept srv .plain emptyHome)
    Site.opened_emptyHome_current { recipient := .observer "moody" }
  have hcontained := failure_is_contained srv .plain emptyHome 0 60 true (.ofCurrent .plain none)
    [] { recipient := .observer "moody" } ((mishap.take 3).map (Prod.mk false))
  -- What the station was before plays no part from here on.
  generalize (opened srv .plain emptyHome 0 60 true (.ofCurrent .plain none)).run [] = station
    at hmishap hcontained ⊢
  intro before place joined cut later
  obtain ⟨hcurrent, hdue, hfresh⟩ := hmishap place
  obtain ⟨houtcome, hpromoted, _, hafter⟩ :=
    hcontained.2 ⟨7, "one"⟩ .nudge soleWriter 7 hdue hfresh
  obtain ⟨hstays, hsame, _⟩ := (hafter [(false, .input ⟨9, "two"⟩ .nudge)]).1
    (by simp [StationEvent.isDisk])
  exact ⟨hcurrent, houtcome, hpromoted, hstays, hsame⟩

end Station

end BrokerAccess
