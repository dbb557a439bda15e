import BrokerAccess.Archive.Error
import BrokerAccess.Decision
import BrokerAccess.Password.Hash
import BrokerAccess.Settings
import BrokerAccess.Text.Legible

/-!
# Events

What the operator is told. An event is its cause; level, source, message and fields are
functions of it, so nothing else in this library deals with their wording.
-/

namespace BrokerAccess

open Files (FileError Path)

/-- How important an event is. -/
inductive Level where
  | trace
  | debug
  | info
  | warn
  | error
  deriving DecidableEq, Repr

/-- The name of a level in a log line. -/
def Level.name : Level → String
  | .trace => "TRACE"
  | .debug => "DEBUG"
  | .info => "INFO"
  | .warn => "WARN"
  | .error => "ERROR"

/-- Levels by importance; a filter that shows a level shows all higher ones. -/
def Level.rank : Level → Nat
  | .trace => 0
  | .debug => 1
  | .info => 2
  | .warn => 3
  | .error => 4

/-- A signal that asks the service to stop. -/
inductive StopSignal where
  /-- From the terminal. -/
  | interrupt
  /-- From the system. -/
  | terminate
  deriving DecidableEq, Repr

/-- Something that the operator is told. -/
inductive Event where
  /-- The service starts for a home folder. -/
  | serviceStarting (home : Path)
  /-- The settings that the service runs with. -/
  | settingsInEffect (settings : Settings)
  /-- File events cannot be watched. -/
  | watcherUnavailable (error : FileError) (folder : Path)
  /-- A stop signal arrived. -/
  | signalReceived (signal : StopSignal)
  /-- The service stops while this many tasks run. -/
  | shuttingDown (tasks : Nat)
  /-- A file is found at the legacy location only. -/
  | legacyLocation (legacy current : Path)
  /-- There is no settings file. -/
  | settingsMissing (path : Path)
  /-- The settings file cannot be used. -/
  | settingsUnusable (path : Path) (error : LoadError)
  /-- The interval of the settings is below one second. -/
  | intervalReplaced (interval : Int)
  /-- The password scheme of the settings means nothing. -/
  | schemeReplaced
  /-- The settings were read. -/
  | settingsLoaded (settings : Settings)
  /-- The first record is in effect. -/
  | recordLoaded (path : Path)
  /-- There is no first record. -/
  | noRecord (path : Path)
  /-- The record's file is missing at a reload. -/
  | noFile (path : Path)
  /-- The record's file cannot be looked at. -/
  | fileUnavailable (path : Path) (error : FileError)
  /-- The record's file has not changed. -/
  | fileUnchanged (path : Path)
  /-- The record's file has changed. -/
  | fileChanged (path : Path)
  /-- A new record replaces the one in effect. -/
  | recordChanged
  /-- The record in the file has defects. -/
  | recordDefective (path : Path) (defects : List Defect)
  /-- The record's file cannot be used. -/
  | recordUnusable (path : Path) (error : LoadError)
  /-- The replaced record could not be archived. -/
  | archiveFailed (error : ArchiveError)
  /-- There is no replaced record to archive. -/
  | nothingToArchive
  /-- The archive folder is a file. -/
  | archiveFolderIsFile (path : Path)
  /-- The archive folder was made. -/
  | archiveFolderMade (path : Path)
  /-- A record was archived. -/
  | archived (path : Path)
  /-- The directory was built from a record. -/
  | directoryBuilt (users roles : Nat)
  /-- A user is rejected because the directory has no users or no roles. -/
  | directoryEmpty (user : String)
  /-- A granted role is not in the directory. -/
  | roleUnknown (role : String)
  /-- No hash can be derived for a stored password. -/
  | derivationFailed (error : HashError)
  /-- A client of a listener that is not served. -/
  | otherListener (listener : String)
  /-- A client was let in with this many grants. -/
  | clientAdmitted (clientId userName : String) (grants : Nat)
  /-- A client was refused. -/
  | clientRefused (reason : Refusal)
  /-- The reload task starts. -/
  | taskStarting (interval : Nat)
  /-- The reload task stops. -/
  | taskStopped
  /-- A reload was cut off by a subscriber. -/
  | reloadCutOff
  /-- The record's file was touched. -/
  | fileTouched
  /-- The watcher starts. -/
  | watcherStarted (path : Path)
  deriving DecidableEq, Repr

namespace Event

/-- The level of an event. -/
def level : Event → Level
  | .serviceStarting _ | .settingsInEffect _ | .signalReceived _ | .shuttingDown _
  | .recordLoaded _ | .recordChanged | .archiveFolderMade _ | .archived _ | .taskStarting _
  | .taskStopped | .watcherStarted _ => .info
  | .watcherUnavailable .. | .legacyLocation .. | .settingsMissing _ | .settingsUnusable ..
  | .intervalReplaced _ | .schemeReplaced | .noRecord _ | .recordDefective .. | .archiveFailed _
  | .archiveFolderIsFile _ => .warn
  | .fileUnavailable .. | .recordUnusable .. | .reloadCutOff => .error
  | .settingsLoaded _ | .noFile _ | .fileChanged _ | .nothingToArchive | .directoryBuilt ..
  | .directoryEmpty _ | .roleUnknown _ | .derivationFailed _ | .clientAdmitted ..
  | .clientRefused _ | .fileTouched => .debug
  | .fileUnchanged _ | .otherListener _ => .trace

/-- The part of the service that an event comes from. -/
def source : Event → String
  | .serviceStarting _ | .settingsInEffect _ | .watcherUnavailable .. | .shuttingDown _ =>
    "file_rbac"
  | .signalReceived _ => "file_rbac::lifecycle::signals"
  | .legacyLocation .. => "file_rbac::config::resolver"
  | .settingsMissing _ | .settingsUnusable .. | .intervalReplaced _ | .schemeReplaced
  | .settingsLoaded _ => "file_rbac::config::extension"
  | .recordLoaded _ | .noRecord _ | .noFile _ | .fileUnavailable .. | .fileUnchanged _
  | .fileChanged _ | .recordChanged | .recordDefective .. | .recordUnusable ..
  | .archiveFailed _ => "file_rbac::config::store"
  | .nothingToArchive | .archiveFolderIsFile _ | .archiveFolderMade _ | .archived _ =>
    "file_rbac::config::archiver"
  | .directoryBuilt .. | .directoryEmpty _ | .roleUnknown _ => "file_rbac::auth::credentials"
  | .derivationFailed _ => "file_rbac::auth::hasher"
  | .otherListener _ | .clientAdmitted .. | .clientRefused _ => "file_rbac::auth::authenticator"
  | .taskStarting _ | .taskStopped | .reloadCutOff | .fileTouched | .watcherStarted _ =>
    "file_rbac::config::watcher"

/-- The version of the service. -/
def version : String := "0.1.0"

/-- The message of an event. -/
def message : Event → String
  | .serviceStarting _ => "file-rbac v" ++ version ++ " starting"
  | .settingsInEffect _ => "Extension configuration loaded"
  | .watcherUnavailable .. => "File watcher unavailable, relying on polling"
  | .signalReceived .interrupt => "Received Ctrl-C"
  | .signalReceived .terminate => "Received SIGTERM"
  | .shuttingDown _ => "Shutting down"
  | .legacyLocation .. =>
    "File is placed at the legacy location, please move it. " ++
      "Support for the legacy location will be removed in a future release"
  | .settingsMissing _ => "Extension configuration file missing, using defaults"
  | .settingsUnusable .. => "Could not read extension configuration file, using defaults"
  | .intervalReplaced _ =>
    "Credentials reload interval must be greater than 0, using default interval"
  | .schemeReplaced => "Unknown password type, using default type HASHED"
  | .settingsLoaded _ => "Extension configuration loaded"
  | .recordLoaded _ => "Credentials configuration loaded"
  | .noRecord _ => "No valid credentials configuration available, denying all connections"
  | .noFile _ => "No credentials file available, not reloading configuration for now"
  | .fileUnavailable .. => "Unable to read credentials file"
  | .fileUnchanged _ => "No changes to credentials file"
  | .fileChanged _ => "Credentials file changed, checking new file"
  | .recordChanged => "Credentials configuration changed, using new configuration"
  | .recordDefective _ defects =>
    "Credentials configuration has errors:" ++
      String.join (defects.map fun d => "\n\t- " ++ d.message)
  | .recordUnusable .. => "Could not read credentials configuration file"
  | .archiveFailed _ => "Archival of the old credentials configuration failed"
  | .nothingToArchive => "No previous credentials configuration, nothing to archive"
  | .archiveFolderIsFile _ => "The credentials archive folder is a file, trying to delete"
  | .archiveFolderMade _ => "Created credentials archive folder"
  | .archived _ => "Archived credentials configuration"
  | .directoryBuilt .. => "Credential indexes rebuilt"
  | .directoryEmpty user => "No credentials available, rejecting '" ++ user ++ "'"
  | .roleUnknown role => "Role '" ++ role ++ "' not found, skipping"
  | .derivationFailed _ => "Could not derive password hash"
  | .otherListener _ => "Listener not handled by this extension"
  | .clientAdmitted .. => "Client authenticated"
  | .clientRefused reason => reason.message
  | .taskStarting _ => "Credentials reload task starting"
  | .taskStopped => "Credentials reload task received shutdown signal, exiting loop"
  | .reloadCutOff => "Credentials reload task panicked"
  | .fileTouched => "Credentials file change detected, nudging reload"
  | .watcherStarted _ => "Credentials watcher started"

/-- The settings as the log shows them. -/
def showSettings (s : Settings) : String :=
  let listeners :=
    match s.listeners with
    | none => "None"
    | some names => "Some(\x7b" ++ ", ".intercalate (names.map Text.quoted) ++ "\x7d)"
  let scheme :=
    match s.scheme with
    | none => "None"
    | some scheme => "Some(" ++ scheme.word ++ ")"
  "ExtensionConfig \x7b reload_interval_secs: " ++ toString s.interval ++
    ", listener_names: " ++ listeners ++ ", password_type: " ++ scheme ++
    ", next_extension_instead_of_fail: " ++ toString s.deferToNext ++
    ", watch_file_events: " ++ toString s.watchEvents ++ " \x7d"

/-- The fields of an event, in order. -/
def fields : Event → List (String × String)
  | .serviceStarting home => [("home", home.shown)]
  | .settingsInEffect s =>
    [("reload_interval_secs", toString s.reloadInterval),
      ("password_type", s.passwordScheme.word),
      ("next_extension_instead_of_fail", toString s.deferToNext)]
  | .watcherUnavailable error folder =>
    [("error", error.message ++ " about [" ++ Text.quoted folder.shown ++ "]")]
  | .shuttingDown tasks => [("tasks", toString tasks)]
  | .legacyLocation legacy current => [("legacy", legacy.shown), ("location", current.shown)]
  | .settingsMissing path => [("path", path.shown)]
  | .settingsUnusable path error => [("path", path.shown), ("error", error.message)]
  | .intervalReplaced interval =>
    [("interval", toString interval), ("default", toString Settings.defaultInterval)]
  | .settingsLoaded s => [("config", showSettings s)]
  | .recordLoaded path | .noRecord path | .noFile path | .fileUnchanged path | .fileChanged path
  | .recordDefective path _ | .archiveFolderIsFile path | .archiveFolderMade path
  | .archived path => [("path", path.shown)]
  | .fileUnavailable path error => [("path", path.shown), ("error", error.message)]
  | .recordUnusable path error => [("path", path.shown), ("error", error.message)]
  | .archiveFailed error => [("error", error.message)]
  | .directoryBuilt users roles => [("users", toString users), ("roles", toString roles)]
  | .derivationFailed error => [("error", error.message)]
  | .otherListener listener => [("listener", Text.quoted listener)]
  | .clientAdmitted clientId userName grants =>
    [("client_id", Text.quoted clientId), ("user_name", Text.quoted userName),
      ("permissions", toString grants)]
  | .clientRefused reason => [("reason", reason.code.name)]
  | .taskStarting interval => [("interval_secs", toString interval)]
  | .watcherStarted path => [("path", Text.quoted path.shown)]
  | .signalReceived _ | .schemeReplaced | .recordChanged | .nothingToArchive | .directoryEmpty _
  | .roleUnknown _ | .taskStopped | .reloadCutOff | .fileTouched => []

/-- The names by which filters know the fields of an event; the message counts as one. -/
def fieldNames (e : Event) : List String := "message" :: e.fields.map Prod.fst

/-- The log line of an event. Its message may hold text from a file, and is disarmed. -/
def line (e : Event) : String :=
  e.level.name ++ " " ++ e.source ++ ": " ++ Text.disarmed e.message ++
    String.join (e.fields.map fun (name, value) => " " ++ name ++ "=" ++ value)

end Event

end BrokerAccess
