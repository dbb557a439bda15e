import BrokerAccess.Placement

/-!
# Loading the settings

Loading never fails: without a usable file the settings are the defaults, and values out
of range are replaced one by one. Everything that was not taken from the file is reported.
-/

namespace BrokerAccess

open Files (Path Tree)

/-- The settings in a file. -/
def Settings.ofFile (t : Tree) (path : Path) : Except LoadError Settings :=
  readDocument Settings.read? t path

/-- What the repair of settings reports. -/
def Settings.repairs (s : Settings) : Journal :=
  (if s.interval < 1 then [.event (.intervalReplaced s.interval)] else []) ++
  (if s.scheme.isNone then [.event .schemeReplaced] else [])

/-- The settings below a home folder, and what there is to report about them. -/
def Settings.load (home : Path) (t : Tree) : Settings × Journal :=
  let placement := Placement.ofSettings home
  let path := placement.path t
  let notice := placement.notice t
  if !t.has path then ({}, notice ++ [.event (.settingsMissing path)])
  else
    match Settings.ofFile t path with
    | .error error => ({}, notice ++ [.event (.settingsUnusable path error)])
    | .ok s => (s.repaired, notice ++ s.repairs ++ [.event (.settingsLoaded s.repaired)])

end BrokerAccess
