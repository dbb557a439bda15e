import BrokerAccess.Reloading.Schedule
import BrokerAccess.Store

/-!
# The reload task

A store and the schedule by which it is reloaded. A reload that a subscriber cuts off is
reported and does not end the task.
-/

namespace BrokerAccess

open Files (Tree)

/-- What a cut-off reload reports in place of its outcome. -/
def cutOffJournal (outcome : Option Outcome) : Journal :=
  if outcome.isNone then [.event .reloadCutOff] else []

/-- A store that is reloaded by a schedule. The task waits for the end of each reload, so a step is
one whole reload, and it comes to the next one whatever a reload left behind in the store. -/
structure ReloadTask where
  /-- The store. -/
  store : Store
  /-- The schedule. -/
  schedule : Schedule

/-- What a task makes of an input. -/
structure ReloadTaskStep where
  /-- The task afterwards. -/
  task : ReloadTask
  /-- The tree afterwards. -/
  tree : Tree
  /-- The calls of subscribers, in order. -/
  notices : List Notice := []
  /-- What there is to report. -/
  journal : Journal

namespace ReloadTask

/-- A task that starts when the clock shows `reading` seconds. -/
def start (store : Store) (reading interval : Nat) (nudgeable : Bool) : ReloadTask × Journal :=
  let (schedule, journal) := Schedule.start reading interval nudgeable
  (⟨store, schedule⟩, journal)

/-- What a task makes of an input. -/
def step (task : ReloadTask) (moment : ArchiveTime) (input : ScheduleInput) (t : Tree) :
    ReloadTaskStep :=
  let scheduled := task.schedule.step input
  if scheduled.reloads then
    let reload := task.store.reload moment t
    { task := ⟨reload.store, scheduled.schedule⟩
      tree := reload.tree
      notices := reload.notices
      journal := scheduled.journal ++ reload.journal ++ cutOffJournal reload.outcome }
  else
    { task := { task with schedule := scheduled.schedule }, tree := t,
      journal := scheduled.journal }

end ReloadTask

end BrokerAccess
