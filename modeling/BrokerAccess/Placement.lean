import BrokerAccess.Files.Tree
import BrokerAccess.Journal

/-!
# Placement of configuration files

A configuration file may stand at its current or at its legacy location. The current
one wins whenever something stands there; the legacy one is used only when it is the
one present. The first use of the legacy location is reported, later ones are not.
-/

namespace BrokerAccess

open Files (Path Tree)

/-- The two locations of a configuration file. -/
structure Placement where
  /-- Where the file belongs. -/
  current : Path
  /-- Where it used to belong. -/
  legacy : Path
  /-- The use of the legacy location has been reported. -/
  warned : Bool := false
  deriving DecidableEq, Repr

namespace Placement

/-- The placement of the record below a home folder. -/
def ofCredentials (home : Path) : Placement where
  current := home.join "conf/credentials.toml"
  legacy := home.join "credentials.toml"

/-- The placement of the settings below a home folder. -/
def ofSettings (home : Path) : Placement where
  current := home.join "conf/config.toml"
  legacy := home.join "extension-config.toml"

/-- Only the legacy location is taken. -/
def isLegacy (p : Placement) (t : Tree) : Bool :=
  !t.has p.current && t.has p.legacy

/-- The location to read right now. -/
def path (p : Placement) (t : Tree) : Path := if p.isLegacy t then p.legacy else p.current

/-- The placement after a look at the tree. -/
def seen (p : Placement) (t : Tree) : Placement := { p with warned := p.warned || p.isLegacy t }

/-- What a look at the tree reports. -/
def notice (p : Placement) (t : Tree) : Journal :=
  if p.isLegacy t && !p.warned then [.event (.legacyLocation p.legacy p.current)] else []

end Placement

end BrokerAccess
