import BrokerAccess.CommandLine
import BrokerAccess.Deployment
import BrokerAccess.Reloading.Task
import BrokerAccess.Reloading.Watcher

/-!
# The service

The life of the service: it loads its settings and its record from a home folder,
reloads the record by its schedule, and stops on a signal.
-/

namespace BrokerAccess

open CommandLine (Halt OptionSpec)
open Files (Change Path Time Tree)

/-- A running service. -/
structure Service where
  /-- The authority that the service is. -/
  deployment : Deployment
  /-- When the record is reloaded. -/
  schedule : Schedule
  /-- The watched file, if file events are watched. -/
  watcher : Option Watcher

/-- What a service makes of an input. -/
structure ServiceStep where
  /-- The service afterwards. -/
  service : Service
  /-- The tree afterwards. -/
  tree : Tree
  /-- What there is to report. -/
  journal : Journal

namespace Service

/-- The options of the service. An empty home folder is not accepted. -/
def specs : List OptionSpec := [{ name := "home", accepts := some (· ≠ "") }]

/-- The home folder of a command line. -/
def read (arguments : List String) : Except Halt String :=
  (CommandLine.read specs arguments).map fun given => (given.lookup "home").getD "."

/-- Watch the record's file, if the settings ask for it. -/
def watch (working : Path) (settings : Settings) (store : Store) (t : Tree) :
    Option Watcher × Journal :=
  if settings.watchEvents then
    let (path, _, notice) := store.locate t
    match Watcher.start working path t with
    | (.ok watcher, journal) => (some watcher, notice ++ journal)
    | (.error error, journal) =>
      let folder := Path.full working path.folder
      (none, notice ++ journal ++ [.event (.watcherUnavailable error folder)])
  else (none, [])

/-- The paths below a home folder that a service looks at, or makes, at a time. -/
def paths (home : Path) (moment : ArchiveTime) : List Path :=
  let settings := Placement.ofSettings home
  let record := Placement.ofCredentials home
  let archive := Archive.ofHome home
  [home, home.join "conf", settings.current, settings.legacy, record.current, record.legacy,
    archive.folder, archive.file moment]

/-- A service that starts in a working folder for a home folder when the clock shows `reading`
seconds. -/
def start (working home : Path) (reading : Nat) (t : Tree) : Service × Journal :=
  let (settings, loading) := Settings.load home t
  let (deployment, opening) := Deployment.ofTree home settings t
  let (watcher, watching) := watch working settings deployment.store t
  let (schedule, starting) := Schedule.start reading settings.reloadInterval watcher.isSome
  (⟨deployment, schedule, watcher⟩,
    .event (.serviceStarting home) :: loading ++ .event (.settingsInEffect settings) :: opening ++
      watching ++ starting)

/-- The nudges that a look at the tree gives a service, and what they report. -/
def nudges (s : Service) (before after : Tree) : List ScheduleInput × Journal :=
  if s.watcher.any fun w => w.sees before after then ([.nudge], [.event .fileTouched])
  else ([], [])

/-- What a service makes of an input to its schedule. -/
def step (s : Service) (moment : ArchiveTime) (input : ScheduleInput) (t : Tree) : ServiceStep :=
  let scheduled := s.schedule.step input
  if scheduled.reloads then
    let reload := s.deployment.reload moment t
    { service := { s with deployment := reload.deployment, schedule := scheduled.schedule }
      tree := reload.tree
      journal := scheduled.journal ++ reload.journal ++ cutOffJournal reload.outcome }
  else
    { service := { s with schedule := scheduled.schedule }, tree := t,
      journal := scheduled.journal }

/-- What a service reports that is asked to stop. -/
def stop (s : Service) (signal : StopSignal) : Journal :=
  .event (.signalReceived signal) :: .event (.shuttingDown s.schedule.receiverCount) ::
    (s.schedule.step .stop).journal

end Service

end BrokerAccess
