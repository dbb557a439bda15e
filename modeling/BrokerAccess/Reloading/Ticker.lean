/-!
# Tickers

A ticker is due one interval after it starts. A tick that is served in time keeps the
beat; one that is served late, by more than a small tolerance, starts a new beat, so
missed ticks are not made up for. Times are milliseconds since the start. The clock cannot
show every time: a ticker that would next be due beyond what it can show fails.
-/

namespace BrokerAccess

/-- A ticker under way. -/
structure Ticker where
  /-- What the clock showed at the start, in seconds. -/
  reading : Nat
  /-- The time between two ticks. -/
  interval : Nat
  /-- The present time. -/
  now : Nat := 0
  /-- When the next tick is due. -/
  due : Nat
  deriving DecidableEq, Repr

namespace Ticker

/-- A tick is late when it is served more than this after it was due. -/
def tolerance : Nat := 5

/-- The clock counts seconds below this bound, the sixty-third power of two. -/
def clockBound : Nat := 9223372036854775808

/-- A clock that showed `reading` seconds at the start can show a time. -/
def canShow (reading time : Nat) : Bool := reading * 1000 + time < clockBound * 1000

/-- A ticker that starts when the clock shows `reading` seconds, with an interval in seconds. None
if the clock cannot show when the first tick is due. -/
def start? (reading interval : Nat) : Option Ticker :=
  if canShow reading (interval * 1000) then
    some { reading, interval := interval * 1000, due := interval * 1000 }
  else none

/-- The ticker after some time has passed, and whether a tick was served at its end. None if a tick
is to be served and the clock cannot show when the one after it is due. -/
def advance? (t : Ticker) (elapsed : Nat) : Option (Ticker × Bool) :=
  let now := t.now + elapsed
  if now < t.due then some ({ t with now }, false)
  else
    let beat := if t.due + tolerance < now then now else t.due
    let due := beat + t.interval
    if canShow t.reading due then some ({ t with now, due }, true) else none

end Ticker

end BrokerAccess
