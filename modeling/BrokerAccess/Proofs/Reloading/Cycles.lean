import BrokerAccess.Proofs.Reloading.Containment
import BrokerAccess.Proofs.Reloading.Timetable
import BrokerAccess.Shutdown
import Mathlib.Data.List.TakeWhile

/-!
# The cycles of a reload task

A reload task looks at its file once for each tick of its timetable, and once for each nudge that
is sent while it runs and its channel of nudges is open. What the looks come to, subscribers that
fail, nudges and a closed channel do not move the ticks. Only the shutdown ends the task, be it a
signal or a coordinator that is gone, and a ticker that fails; and nothing comes of a task that
has ended.
-/

namespace BrokerAccess

open Files (Path Time Tree)

/-! ## Cycles -/

/-- The entry tells that a look at the file came to its end, or that it was cut off. -/
def JournalEntry.isCycle : JournalEntry → Bool
  | .count (.reload _) => true
  | .event .reloadCutOff => true
  | _ => false

/-- The number of looks at the file that a journal tells of. -/
def Journal.cycles (j : Journal) : Nat := j.countP JournalEntry.isCycle

/-- The looks that a journal tells of are those of its parts. -/
theorem Journal.cycles_append (j j' : Journal) : (j ++ j').cycles = j.cycles + j'.cycles :=
  List.countP_append

/-- An entry that does not tell of a look adds none. -/
theorem Journal.cycles_cons {entry : JournalEntry} (h : entry.isCycle = false) (j : Journal) :
    Journal.cycles (entry :: j) = j.cycles :=
  List.countP_cons_of_neg (by rw [h]; exact Bool.false_ne_true)

/-- Archiving is no look at the file. -/
theorem Archive.cycles_keep (a : Archive) (moment : ArchiveTime) (record : Option Credentials)
    (t : Tree) : (a.keep moment record t).journal.cycles = 0 := by
  rw [Journal.cycles, List.countP_eq_zero]
  refine forall_mem_journal_keep ?_ ?_ ?_ ?_ a moment record t .off <;> simp [JournalEntry.isCycle]

namespace Store

/-- What a look at the file reports on the way does not tell of its end. -/
theorem cycles_look (s : Store) (moment : ArchiveTime) (t : Tree) :
    (s.look moment t).journal.cycles = 0 := by
  have hnotice : (s.placement.notice t).cycles = 0 := by
    unfold Placement.notice
    split <;> rfl
  have haccept (s : Store) (path : Path) : (s.accept t path).2.cycles = 0 := by
    unfold accept
    split
    · rfl
    · split <;> rfl
  have hpromote (s : Store) (record : Credentials) (time : Time) :
      (s.promote moment t record time).journal.cycles = 0 := by
    unfold promote
    dsimp only
    rw [Journal.cycles_append, Journal.cycles_cons rfl, Archive.cycles_keep]
    split <;> rfl
  unfold look locate
  dsimp only
  cases t.entry? (s.placement.path t) with
  | none => exact (Journal.cycles_append _ _).trans (congrArg (· + 0) hnotice)
  | some entry =>
    dsimp only
    split
    · exact (Journal.cycles_append _ _).trans (congrArg (· + 0) hnotice)
    · split
      next journal hfound =>
        have hjournal := congrArg (Journal.cycles ∘ Prod.snd) hfound
        rw [Function.comp_apply, haccept] at hjournal
        rw [Journal.cycles_append, hnotice, Journal.cycles_cons rfl]
        exact (congrArg (0 + ·) hjournal).symm
      next record time journal _ =>
        rw [Journal.cycles_append, hnotice, Journal.cycles_cons rfl]
        exact congrArg (0 + ·) (hpromote _ record time)

/-- A look at the file is told of once, whether it comes to its end or is cut off. -/
theorem cycles_reload (s : Store) (moment : ArchiveTime) (t : Tree) :
    ((s.reload moment t).journal ++ cutOffJournal (s.reload moment t).outcome).cycles = 1 := by
  have hlook := s.cycles_look moment t
  unfold reload
  dsimp only
  rw [Journal.cycles_append, Journal.cycles_append, hlook]
  cases (s.look moment t).outcome <;> rfl

end Store

/-- A task tells of one look at its file if one is due, and of none otherwise. -/
theorem ReloadTask.cycles_step (task : ReloadTask) (moment : ArchiveTime) (input : ScheduleInput)
    (t : Tree) : (task.step moment input t).journal.cycles =
      if (task.schedule.step input).reloads then 1 else 0 := by
  have hschedule : (task.schedule.step input).journal.cycles = 0 := by
    unfold Schedule.step
    cases task.schedule.ticker with
    | none => rfl
    | some ticker =>
      cases input with
      | elapse span => dsimp only; split <;> rfl
      | nudge => rfl
      | closeNudges => rfl
      | stop => rfl
  unfold step
  dsimp only
  split
  · rw [List.append_assoc, Journal.cycles_append, hschedule, Store.cycles_reload]
  · exact hschedule

/-! ## Shifts -/

namespace Station

/-- What a station reports of an event. -/
def report (station : Station) : StationEvent → Journal
  | .disk _ => []
  | .subscribe _ => []
  | .input moment input => (station.task.step moment input station.tree).journal
  | .rolesOf .. => []

/-- What a station reports of events, in order. -/
def journal : Station → List StationEvent → Journal
  | _, [] => []
  | station, event :: rest => station.report event ++ (station.step event).journal rest

/-- The schedule of a station's task goes on with an input. -/
theorem schedule_input (station : Station) (moment : ArchiveTime) (input : ScheduleInput) :
    (station.step (.input moment input)).task.schedule =
      (station.task.schedule.step input).schedule :=
  (station.task.step_cases moment input station.tree).1

/-- An input is told of as a look at the file if it makes one due. -/
theorem cycles_input (station : Station) (moment : ArchiveTime) (input : ScheduleInput) :
    (station.journal [.input moment input]).cycles =
      if (station.task.schedule.step input).reloads then 1 else 0 := by
  rw [journal, journal, List.append_nil]
  exact station.task.cycles_step moment input station.tree

variable {station : Station}

/-- Nothing comes of a task that has ended: it reports nothing, and the record in effect stays. -/
theorem step_of_ended (h : station.task.schedule.isRunning = false) (event : StationEvent) :
    (station.step event).task.schedule.isRunning = false ∧ station.report event = [] ∧
      (station.step event).task.store.current = station.task.store.current := by
  cases event with
  | disk tree => exact ⟨h, rfl, rfl⟩
  | subscribe subscriber => exact ⟨h, rfl, rfl⟩
  | input moment input =>
    rw [step, report, ReloadTask.step, Schedule.step_of_ended h]
    exact ⟨h, rfl, rfl⟩
  | rolesOf now user password => exact ⟨h, rfl, rfl⟩

/-- Nothing ever comes of a task that has ended. -/
theorem run_of_ended (h : station.task.schedule.isRunning = false) (events : List StationEvent) :
    (station.run events).task.schedule.isRunning = false ∧ station.journal events = [] ∧
      (station.run events).task.store.current = station.task.store.current := by
  induction events generalizing station with
  | nil => exact ⟨h, rfl, rfl⟩
  | cons event rest ih =>
    obtain ⟨hended, hreport, hcurrent⟩ := step_of_ended h event
    obtain ⟨hlater, hjournal, hsame⟩ := ih hended
    refine ⟨hlater, ?_, hsame.trans hcurrent⟩
    rw [journal, hreport, hjournal]
    rfl

end Station

/-- What can happen to a reload task that listens for the shutdown, and around it. -/
inductive Occasion where
  /-- Others leave a tree of any kind. -/
  | disk (tree : Tree)
  /-- Somebody subscribes, and may fail. -/
  | subscribe (subscriber : Subscriber)
  /-- Time passes. -/
  | elapse (moment : ArchiveTime) (span : Nat)
  /-- Somebody asks for a reload. -/
  | nudge (moment : ArchiveTime)
  /-- No more nudges can arrive. -/
  | closeNudges (moment : ArchiveTime)
  /-- The coordinator of the shutdown gives its signal. -/
  | trigger (moment : ArchiveTime)
  /-- The coordinator of the shutdown is gone. -/
  | leave (moment : ArchiveTime)

/-- A station whose task listens for the shutdown. -/
structure Shift where
  /-- The station. -/
  station : Station
  /-- The channel of the coordinator, with the receiver of the task. -/
  channel : Shutdown

namespace Occasion

/-- The time that passes. -/
def span? : Occasion → Option Nat
  | .elapse _ span => some span
  | _ => none

/-- The occasion is a nudge. -/
def isNudge : Occasion → Bool
  | .nudge _ => true
  | _ => false

/-- After the occasion no more nudges can arrive. -/
def closesNudges : Occasion → Bool
  | .closeNudges _ => true
  | _ => false

/-- The occasion is the shutdown. -/
def isEnd : Occasion → Bool
  | .trigger _ => true
  | .leave _ => true
  | _ => false

/-- The occasions before the shutdown. -/
def lived (occasions : List Occasion) : List Occasion :=
  occasions.takeWhile fun occasion => !occasion.isEnd

/-- The spans of time that pass. -/
def spans (occasions : List Occasion) : List Nat := occasions.filterMap span?

/-- The nudges that arrive while their channel is open. -/
def nudges (occasions : List Occasion) : Nat :=
  (occasions.takeWhile fun occasion => !occasion.closesNudges).countP isNudge

/-- The channel of the coordinator after an occasion. -/
def signal (channel : Shutdown) : Occasion → Shutdown
  | .trigger _ => channel.trigger
  | .leave _ => channel.close
  | _ => channel

/-- What an occasion is to the station, when the channel is as it then is: whatever the task's
receiver gets is the end of the task. -/
def atStation (channel : Shutdown) (receiver : String) : Occasion → List StationEvent
  | .disk tree => [.disk tree]
  | .subscribe subscriber => [.subscribe subscriber]
  | .elapse moment span => [.input moment (.elapse span)]
  | .nudge moment => [.input moment .nudge]
  | .closeNudges moment => [.input moment .closeNudges]
  | .trigger moment | .leave moment =>
    if (channel.receive receiver).1 = .empty then [] else [.input moment .stop]

/-- The time that passes on occasions is that of the first one and then that of the rest. -/
theorem spans_cons (occasion : Occasion) (rest : List Occasion) :
    spans (occasion :: rest) = occasion.span?.toList ++ spans rest := by
  rw [spans, List.filterMap_cons]
  cases occasion.span? <;> rfl

/-- The first occasion ends the nudges, or is one itself, or neither. -/
theorem nudges_cons (occasion : Occasion) (rest : List Occasion) :
    nudges (occasion :: rest) =
      occasion.isNudge.toNat + if occasion.closesNudges then 0 else nudges rest := by
  rw [nudges, List.takeWhile_cons]
  cases occasion with
  | nudge moment => exact (List.countP_cons_of_pos rfl).trans (Nat.add_comm _ 1)
  | closeNudges moment => rfl
  | _ => exact (List.countP_cons_of_neg Bool.false_ne_true).trans (Nat.zero_add _).symm

/-- All occasions come before the shutdown, or there is one that is the shutdown and comes after
those that do. -/
theorem eq_lived_or (occasions : List Occasion) :
    (occasions.any isEnd = false ∧ lived occasions = occasions) ∨
      ∃ last after, last.isEnd = true ∧ occasions = lived occasions ++ last :: after := by
  induction occasions with
  | nil => exact Or.inl ⟨rfl, rfl⟩
  | cons occasion rest ih =>
    cases hend : occasion.isEnd with
    | true => exact Or.inr ⟨occasion, rest, hend, by simp [lived, hend]⟩
    | false =>
      have hlived : lived (occasion :: rest) = occasion :: lived rest := by simp [lived, hend]
      rw [hlived, List.any_cons, hend, Bool.false_or]
      rcases ih with ⟨hnone, hall⟩ | ⟨last, after, hlast, hrest⟩
      · exact Or.inl ⟨hnone, congrArg (occasion :: ·) hall⟩
      · exact Or.inr ⟨last, after, hlast, congrArg (occasion :: ·) hrest⟩

/-- None of the occasions before the shutdown is the shutdown. -/
theorem isEnd_of_mem_lived {occasions : List Occasion} {occasion : Occasion}
    (h : occasion ∈ lived occasions) : occasion.isEnd = false := by
  have hlived := List.mem_takeWhile_imp h
  simpa using hlived

end Occasion

namespace Shift

/-- The name of the task's receiver. -/
def receiver : String := "reload task"

/-- A shift that begins with a store opened below a home folder, when the clock shows `reading`
seconds. -/
def opened (home : Path) (scheme : PasswordScheme) (t : Tree) (reading interval : Nat)
    (nudgeable : Bool) (directory : Directory) : Shift :=
  ⟨.opened home scheme t reading interval nudgeable directory, ({} : Shutdown).subscribe receiver⟩

/-- The events at the station of a shift on an occasion. -/
def events (shift : Shift) (occasion : Occasion) : List StationEvent :=
  occasion.atStation (occasion.signal shift.channel) receiver

/-- The shift after an occasion. -/
def step (shift : Shift) (occasion : Occasion) : Shift :=
  ⟨shift.station.run (shift.events occasion), occasion.signal shift.channel⟩

/-- The shift after occasions in order. -/
def run (shift : Shift) (occasions : List Occasion) : Shift := occasions.foldl step shift

/-- What the task of a shift reports on occasions, in order. -/
def journal : Shift → List Occasion → Journal
  | _, [] => []
  | shift, occasion :: rest =>
    shift.station.journal (shift.events occasion) ++ (shift.step occasion).journal rest

/-- The schedule of the task of a shift. -/
def schedule (shift : Shift) : Schedule := shift.station.task.schedule

/-- The task of a shift waits for the shutdown: its receiver is at the end of what was sent, and the
coordinator is there. -/
def IsListening (shift : Shift) : Prop :=
  shift.channel.receivers.lookup receiver = some shift.channel.sent ∧
    shift.channel.closed = false

variable {shift : Shift} {occasion : Occasion} {occasions : List Occasion}
  {reading interval : Nat} {table : Timetable}

/-- A shift begins with a task that keeps to the empty timetable. -/
theorem opened_ticker (home : Path) (scheme : PasswordScheme) (t : Tree) (reading interval : Nat)
    (nudgeable : Bool) (directory : Directory) :
    (opened home scheme t reading interval nudgeable directory).schedule.ticker =
      ({} : Timetable).ticker? reading (max 1 interval * 1000) :=
  Timetable.start?_eq reading (max 1 interval)

/-- A shift begins with a task that waits for the shutdown. -/
theorem opened_isListening (home : Path) (scheme : PasswordScheme) (t : Tree)
    (reading interval : Nat) (nudgeable : Bool) (directory : Directory) :
    (opened home scheme t reading interval nudgeable directory).IsListening := by
  refine ⟨?_, rfl⟩
  simp [opened, Shutdown.subscribe, receiver]

/-- The reports of a shift are those of its first part and then those of the rest. -/
theorem journal_append (shift : Shift) (before later : List Occasion) :
    shift.journal (before ++ later) =
      shift.journal before ++ (shift.run before).journal later := by
  induction before generalizing shift with
  | nil => rfl
  | cons occasion rest ih =>
    rw [List.cons_append, journal, journal, ih, List.append_assoc]
    rfl

/-- The shutdown is a stop signal to a task that waits for it, whether the coordinator gives its
signal or is gone. -/
theorem IsListening.events_end (h : shift.IsListening) (hend : occasion.isEnd = true) :
    ∃ moment, shift.events occasion = [.input moment .stop] := by
  obtain ⟨hlookup, hopen⟩ := h
  cases occasion with
  | trigger moment =>
    refine ⟨moment, if_neg ?_⟩
    have hreceivers : shift.channel.receivers.isEmpty = false := by
      rw [List.isEmpty_eq_false_iff]
      intro hnil
      rw [hnil] at hlookup
      cases hlookup
    have hbehind : ¬shift.channel.sent + 1 ≤ shift.channel.sent := Nat.not_succ_le_self _
    simp only [Occasion.signal, Shutdown.trigger, hopen, hreceivers, Bool.or_false,
      Bool.false_eq_true, if_false, Shutdown.receive, hlookup, hbehind, Nat.lt_irrefl,
      reduceCtorEq, not_false_eq_true]
  | leave moment =>
    refine ⟨moment, if_neg ?_⟩
    simp [Occasion.signal, Shutdown.close, Shutdown.receive, hlookup]
  | _ => cases hend

/-- The shutdown ends a task that waits for it, and is no look at the file. -/
theorem IsListening.step_end (h : shift.IsListening) (hend : occasion.isEnd = true) :
    (shift.step occasion).schedule.isRunning = false ∧
      (shift.station.journal (shift.events occasion)).cycles = 0 := by
  obtain ⟨moment, hevents⟩ := h.events_end hend
  obtain ⟨hended, hidle⟩ := shift.schedule.step_stop
  constructor
  · rw [schedule, step, hevents]
    exact (congrArg Schedule.isRunning (shift.station.schedule_input moment .stop)).trans hended
  · have hcycles := shift.station.cycles_input moment .stop
    rw [hevents]
    exact hcycles.trans (if_neg (by rw [← schedule, hidle]; exact Bool.false_ne_true))

/-- Nothing comes of a shift whose task has ended, whatever happens. -/
theorem run_of_ended (h : shift.schedule.isRunning = false) (occasions : List Occasion) :
    (shift.run occasions).schedule.isRunning = false ∧ shift.journal occasions = [] ∧
      (shift.run occasions).station.task.store.current = shift.station.task.store.current := by
  induction occasions generalizing shift with
  | nil => exact ⟨h, rfl, rfl⟩
  | cons occasion rest ih =>
    obtain ⟨hended, hreport, hcurrent⟩ := Station.run_of_ended h (shift.events occasion)
    have hstep : (shift.step occasion).schedule.isRunning = false := hended
    obtain ⟨hlater, hjournal, hsame⟩ := ih hstep
    refine ⟨hlater, ?_, hsame.trans hcurrent⟩
    rw [journal, hreport, hjournal]
    rfl

/-- An occasion that is not the shutdown leaves the channel of the coordinator alone, and a task
keeps to its timetable. -/
theorem step_keeps (h : shift.schedule.ticker = table.ticker? reading interval)
    (hlived : occasion.isEnd = false) :
    (shift.step occasion).channel = shift.channel ∧
      (shift.step occasion).schedule.ticker =
        (table.after interval occasion.span?.toList).ticker? reading interval := by
  have hinput (moment : ArchiveTime) (input : ScheduleInput) :
      (shift.station.step (.input moment input)).task.schedule.ticker =
        (shift.schedule.step input).schedule.ticker :=
    congrArg Schedule.ticker (shift.station.schedule_input moment input)
  cases occasion with
  | disk tree => exact ⟨rfl, h⟩
  | subscribe subscriber => exact ⟨rfl, h⟩
  | elapse moment span =>
    refine ⟨rfl, (hinput moment (.elapse span)).trans ?_⟩
    rw [(Schedule.step_elapse h span).1]
    rfl
  | nudge moment =>
    refine ⟨rfl, (hinput moment .nudge).trans ?_⟩
    rw [shift.schedule.step_nudge.1, h]
    rfl
  | closeNudges moment =>
    refine ⟨rfl, (hinput moment .closeNudges).trans ?_⟩
    rw [shift.schedule.step_closeNudges.1, h]
    rfl
  | trigger moment => cases hlived
  | leave moment => cases hlived

/-- On occasions that are not the shutdown, a task keeps to its timetable. -/
theorem run_keeps (h : shift.schedule.ticker = table.ticker? reading interval)
    (hlived : ∀ occasion ∈ occasions, occasion.isEnd = false) :
    (shift.run occasions).channel = shift.channel ∧
      (shift.run occasions).schedule.ticker =
        (table.after interval (Occasion.spans occasions)).ticker? reading interval := by
  induction occasions generalizing shift table with
  | nil => exact ⟨rfl, h⟩
  | cons occasion rest ih =>
    rw [List.forall_mem_cons] at hlived
    obtain ⟨hchannel, hticker⟩ := step_keeps h hlived.1
    obtain ⟨hlater, hkeeps⟩ := ih hticker hlived.2
    refine ⟨hlater.trans hchannel, hkeeps.trans ?_⟩
    rw [Occasion.spans_cons, Timetable.after_append]

/-- As long as the clock can show when the next tick is due, what a task reports on an occasion that
is not the shutdown tells of a look at the file for a nudge that arrives, or for a tick. -/
theorem cycles_step (h : shift.schedule.ticker = table.ticker? reading interval)
    (hlived : occasion.isEnd = false)
    (hshow : Ticker.canShow reading
      ((table.after interval occasion.span?.toList).due interval) = true) :
    (shift.station.journal (shift.events occasion)).cycles + table.ticks.length =
        (shift.schedule.nudgeable && occasion.isNudge).toNat +
          (table.after interval occasion.span?.toList).ticks.length ∧
      (shift.step occasion).schedule.nudgeable =
        (shift.schedule.nudgeable && !occasion.closesNudges) := by
  have hrunning : shift.schedule.isRunning = true := by
    rw [Schedule.isRunning, h, Timetable.isSome_ticker?]
    exact Timetable.canShow_of_le (Timetable.due_le_due_after interval table _) hshow
  have hinput (moment : ArchiveTime) (input : ScheduleInput) :
      (shift.station.step (.input moment input)).task.schedule.nudgeable =
        (shift.schedule.step input).schedule.nudgeable :=
    congrArg Schedule.nudgeable (shift.station.schedule_input moment input)
  have hquiet : (shift.schedule.nudgeable && false).toNat = 0 := by rw [Bool.and_false]; rfl
  cases occasion with
  | disk tree => exact ⟨congrArg (· + _) hquiet.symm, (Bool.and_true _).symm⟩
  | subscribe subscriber => exact ⟨congrArg (· + _) hquiet.symm, (Bool.and_true _).symm⟩
  | elapse moment span =>
    obtain ⟨hschedule, hreloads⟩ := Schedule.step_elapse h span
    have hafter : table.after interval [span] = table.pass interval span := rfl
    have hgoes := (Timetable.isSome_ticker? reading interval (table.pass interval span)).trans hshow
    have hjournal := shift.station.cycles_input moment (.elapse span)
    constructor
    · rw [← schedule, hreloads, hgoes, Bool.true_and] at hjournal
      simp only [events, Occasion.atStation, Occasion.span?, Option.toList, hafter,
        Timetable.length_ticks_pass, Occasion.isNudge, hquiet]
      rw [hjournal]
      by_cases hearly : table.now + span < table.due interval
      · simp [hearly]
      · rw [if_neg hearly, decide_eq_false hearly]
        exact (Nat.add_comm 1 _).trans (Nat.zero_add _).symm
    · refine (hinput moment (.elapse span)).trans ?_
      rw [hschedule]
      exact (Bool.and_true _).symm
  | nudge moment =>
    obtain ⟨hschedule, hreloads⟩ := shift.schedule.step_nudge
    have hjournal := shift.station.cycles_input moment .nudge
    constructor
    · rw [← schedule, hreloads, hrunning] at hjournal
      refine (congrArg (· + _) hjournal).trans ?_
      simp only [Occasion.isNudge, Occasion.span?, Option.toList, Timetable.after, List.foldl_nil]
      cases shift.schedule.nudgeable <;> rfl
    · refine (hinput moment .nudge).trans ?_
      rw [hschedule]
      exact (Bool.and_true _).symm
  | closeNudges moment =>
    obtain ⟨_, hclosed, hidle⟩ := shift.schedule.step_closeNudges
    have hjournal := shift.station.cycles_input moment .closeNudges
    constructor
    · rw [← schedule, hidle] at hjournal
      exact (congrArg (· + _) hjournal).trans (congrArg (· + _) hquiet.symm)
    · refine (hinput moment .closeNudges).trans ?_
      rw [hclosed, hrunning]
      rfl
  | trigger moment => cases hlived
  | leave moment => cases hlived

/-- As long as the clock can show when the next tick is due, what a task reports on occasions that
are not the shutdown tells of a look at the file for each nudge that arrives and for each tick. -/
theorem cycles_journal (h : shift.schedule.ticker = table.ticker? reading interval)
    (hlived : ∀ occasion ∈ occasions, occasion.isEnd = false)
    (hshow : Ticker.canShow reading
      ((table.after interval (Occasion.spans occasions)).due interval) = true) :
    (shift.journal occasions).cycles + table.ticks.length =
      (if shift.schedule.nudgeable then Occasion.nudges occasions else 0) +
        (table.after interval (Occasion.spans occasions)).ticks.length := by
  induction occasions generalizing shift table with
  | nil =>
    cases shift.schedule.nudgeable <;> rfl
  | cons occasion rest ih =>
    rw [List.forall_mem_cons] at hlived
    rw [Occasion.spans_cons, Timetable.after_append] at hshow ⊢
    have hnext := Timetable.canShow_of_le (Timetable.due_le_due_after interval _ _) hshow
    obtain ⟨hfirst, hnudgeable⟩ := cycles_step h hlived.1 hnext
    have hrest := ih (step_keeps h hlived.1).2 hlived.2 hshow
    rw [hnudgeable] at hrest
    rw [journal, Journal.cycles_append, Occasion.nudges_cons]
    cases hn : shift.schedule.nudgeable <;> cases hc : occasion.closesNudges <;>
      simp [hn, hc] at hfirst hrest ⊢ <;> omega

/-- The number of looks at its file that a reload task tells of is the number of nudges that were
sent while it ran and its channel of nudges was open, and of the ticks of its timetable: the first
one is due an interval of at least a second after the start, time that reaches the next one serves
that one alone, and the one after it is due an interval after this one was served, or after it was
due if it was served at most five milliseconds late. What else happens, a file that is refused and a
subscriber that fails included, does not move the ticks and does not end the task. The shutdown
does, be it a signal or a coordinator that is gone: after it no look is told of, whatever happens,
and the record in effect stays. -/
theorem cycles_eq_nudges_add_ticks (home : Path) (scheme : PasswordScheme) (t : Tree)
    (reading seconds : Nat) (nudgeable : Bool) (directory : Directory) (occasions : List Occasion)
    (hshow : let interval := max 1 seconds * 1000
      let table := Timetable.after interval {} (Occasion.spans (Occasion.lived occasions))
      Ticker.canShow reading (table.due interval) = true) :
    let shift := opened home scheme t reading seconds nudgeable directory
    let interval := max 1 seconds * 1000
    let lived := Occasion.lived occasions
    let table := Timetable.after interval {} (Occasion.spans lived)
    let later := shift.run occasions
    table.IsRegular interval ∧
      (∀ tick ∈ table.ticks,
        (tick.served ≤ tick.due + 5 → tick.next interval = tick.due + interval) ∧
        (tick.due + 5 < tick.served → tick.next interval = tick.served + interval)) ∧
      (shift.journal occasions).cycles =
        (if nudgeable then Occasion.nudges lived else 0) + table.ticks.length ∧
      later.schedule.ticker = (if occasions.any Occasion.isEnd then none
        else some ⟨reading, interval, table.now, table.due interval⟩) ∧
      (occasions.any Occasion.isEnd = true → ∀ more : List Occasion,
        (later.run more).schedule.isRunning = false ∧ (later.journal more).cycles = 0 ∧
          (later.run more).station.task.store.current = later.station.task.store.current) := by
  intro shift interval lived table later
  have hlived : ∀ occasion ∈ lived, occasion.isEnd = false :=
    fun occasion => Occasion.isEnd_of_mem_lived
  have hstart : shift.schedule.ticker = ({} : Timetable).ticker? reading interval :=
    opened_ticker home scheme t reading seconds nudgeable directory
  refine ⟨Timetable.isRegular_after interval _, fun tick _ => tick.next_cases interval, ?_⟩
  have hcount := cycles_journal hstart hlived hshow
  obtain ⟨hchannel, hticker⟩ := run_keeps hstart hlived
  rw [Timetable.ticker?, if_pos hshow] at hticker
  -- The timetable accounts for what comes before the shutdown; from then on nothing is told of.
  rcases Occasion.eq_lived_or occasions with ⟨hnone, hall⟩ | ⟨last, after, hlast, hsplit⟩
  · have hsame : later = shift.run lived := congrArg shift.run hall.symm
    have hjournal : shift.journal occasions = shift.journal lived :=
      congrArg shift.journal hall.symm
    rw [hjournal, hnone, hsame]
    exact ⟨hcount, hticker, fun hend => (Bool.false_ne_true hend).elim⟩
  · have hlistening : (shift.run lived).IsListening := by
      rw [IsListening, hchannel]
      exact opened_isListening home scheme t reading seconds nudgeable directory
    obtain ⟨hended, hquiet⟩ := hlistening.step_end hlast
    obtain ⟨hover, hnothing, _⟩ := run_of_ended hended after
    have hlater : later = ((shift.run lived).step last).run after :=
      (congrArg shift.run hsplit).trans List.foldl_append
    have hjournal : shift.journal occasions = shift.journal lived ++
        ((shift.run lived).station.journal ((shift.run lived).events last) ++ []) := by
      rw [← hnothing]
      exact (congrArg shift.journal hsplit).trans (shift.journal_append lived (last :: after))
    have hany : occasions.any Occasion.isEnd = true := by
      rw [hsplit]
      simp [hlast]
    have hstopped : later.schedule.isRunning = false := hlater ▸ hover
    refine ⟨?_, ?_, fun _ more => ?_⟩
    · rw [hjournal, Journal.cycles_append, List.append_nil, hquiet]
      exact hcount
    · rw [hany]
      simpa [Schedule.isRunning] using hstopped
    · obtain ⟨hstays, hsilent, hcurrent⟩ := run_of_ended hstopped more
      exact ⟨hstays, congrArg Journal.cycles hsilent, hcurrent⟩

open Site (srv emptyHome filledHome soleReader soleWriter)

/-- A record is nudged in, another one replaces it while an observer fails, and what comes late is
not served: nudges after the end of their channel, and everything after the shutdown. -/
def busyDay : List Occasion :=
  [.subscribe Station.faulty, .disk (filledHome (Utf8.encode soleReader.write) 5),
    .nudge ⟨5, "noon"⟩, .disk (filledHome (Utf8.encode soleWriter.write) 7),
    .elapse ⟨7, "one"⟩ 7000, .closeNudges ⟨7, "one"⟩, .nudge ⟨8, "two"⟩, .elapse ⟨9, "two"⟩ 1999,
    .elapse ⟨9, "two"⟩ 1, .trigger ⟨9, "two"⟩, .nudge ⟨9, "two"⟩, .elapse ⟨19, "three"⟩ 10000]

/-- On a busy day a task with an interval of two seconds looks at its file at a nudge, at a tick
that is served five seconds late and at the tick two seconds after that. A coordinator that leaves
when the day is over finds that the task has ended. -/
theorem cycles_eq_nudges_add_ticks_busyDay :
    let shift := opened srv .plain emptyHome 1000 2 true (.ofCurrent .plain none)
    let table := Timetable.after 2000 {} (Occasion.spans (Occasion.lived busyDay))
    Ticker.canShow 1000 (table.due 2000) = true ∧
      table.ticks = [⟨2000, 7000⟩, ⟨9000, 9000⟩] ∧
      (shift.journal busyDay).cycles = 3 ∧ (shift.run busyDay).schedule.ticker = none ∧
      ((shift.run busyDay).journal
        [.leave ⟨20, "four"⟩, .elapse ⟨30, "five"⟩ 10000]).cycles = 0 := by
  intro shift table
  have hshow : Ticker.canShow 1000 (table.due 2000) = true := by decide
  have hticks : table.ticks = [⟨2000, 7000⟩, ⟨9000, 9000⟩] := by decide
  obtain ⟨-, -, hcycles, hticker, hover⟩ := cycles_eq_nudges_add_ticks srv .plain emptyHome 1000 2
    true (.ofCurrent .plain none) busyDay hshow
  refine ⟨hshow, hticks, hcycles.trans ?_, hticker.trans (if_pos rfl), ?_⟩
  · exact congrArg (Occasion.nudges (Occasion.lived busyDay) + ·.length) hticks
  · exact (hover rfl [.leave ⟨20, "four"⟩, .elapse ⟨30, "five"⟩ 10000]).2.1

/-- The number of ticks while time passes in spans, if each tick were due an interval after the one
before it was served, however late that was. -/
def ticksAfterServing (interval : Nat) : (due now : Nat) → (spans : List Nat) → Nat
  | _, _, [] => 0
  | due, now, span :: spans =>
    if now + span < due then ticksAfterServing interval due (now + span) spans
    else ticksAfterServing interval (now + span + interval) (now + span) spans + 1

/-- A day on which the first tick of a task with an interval of a second is served five milliseconds
late. -/
def tardyDay : List Occasion :=
  [.elapse ⟨5, "noon"⟩ 1005, .elapse ⟨5, "noon"⟩ 994, .elapse ⟨6, "one"⟩ 1]

/-- A tick that is served up to five milliseconds late keeps the beat, so the one after it comes
sooner than an interval after it was served. -/
theorem cycles_tardyDay_ne_ticksAfterServing :
    let shift := opened srv .plain emptyHome 1000 1 true (.ofCurrent .plain none)
    let table := Timetable.after 1000 {} (Occasion.spans (Occasion.lived tardyDay))
    Ticker.canShow 1000 (table.due 1000) = true ∧ Occasion.nudges (Occasion.lived tardyDay) = 0 ∧
      table.ticks = [⟨1000, 1005⟩, ⟨2000, 2000⟩] ∧ (shift.journal tardyDay).cycles = 2 ∧
      ticksAfterServing 1000 1000 0 (Occasion.spans (Occasion.lived tardyDay)) = 1 := by
  intro shift table
  have hshow : Ticker.canShow 1000 (table.due 1000) = true := by decide
  have hticks : table.ticks = [⟨1000, 1005⟩, ⟨2000, 2000⟩] := by decide
  have hstart : shift.schedule.ticker = ({} : Timetable).ticker? 1000 1000 :=
    opened_ticker srv .plain emptyHome 1000 1 true (.ofCurrent .plain none)
  have hlived : ∀ occasion ∈ tardyDay, occasion.isEnd = false := by
    simp [tardyDay, Occasion.isEnd]
  have hcycles := cycles_journal hstart hlived hshow
  have hnudges : Occasion.nudges tardyDay = 0 := by decide
  rw [hnudges, ite_self, Nat.zero_add] at hcycles
  refine ⟨hshow, by decide, hticks, ?_, by decide⟩
  exact (Nat.add_zero _).symm.trans (hcycles.trans (congrArg List.length hticks))

end Shift

end BrokerAccess
