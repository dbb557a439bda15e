import BrokerAccess.Journal
import BrokerAccess.Reloading.Ticker

/-!
# The reload schedule

When to look at the record's file: at every tick, and at every nudge while the channel of
nudges is open. Nudges do not move the ticks. A stop signal ends the schedule for good,
and so does a ticker that fails because the clock cannot show when it is due next.
-/

namespace BrokerAccess

/-- A schedule of reloads. -/
structure Schedule where
  /-- The ticks, none once the schedule has ended. -/
  ticker : Option Ticker
  /-- Nudges can arrive. -/
  nudgeable : Bool
  deriving DecidableEq, Repr

/-- What happens to a schedule. -/
inductive ScheduleInput where
  /-- Milliseconds pass. -/
  | elapse (milliseconds : Nat)
  /-- Somebody asks for a reload. -/
  | nudge
  /-- No more nudges can arrive. -/
  | closeNudges
  /-- The service stops. -/
  | stop
  deriving DecidableEq, Repr

/-- What a schedule makes of an input. -/
structure ScheduleStep where
  /-- The schedule afterwards. -/
  schedule : Schedule
  /-- A reload is due now. -/
  reloads : Bool := false
  /-- What there is to report. -/
  journal : Journal := []

namespace Schedule

/-- A schedule that starts when the clock shows `reading` seconds. Intervals are at least a
second. -/
def start (reading interval : Nat) (nudgeable : Bool) : Schedule × Journal :=
  let seconds := max 1 interval
  (⟨Ticker.start? reading seconds, nudgeable⟩, [.event (.taskStarting seconds)])

/-- The schedule has not ended. -/
def isRunning (s : Schedule) : Bool := s.ticker.isSome

/-- The stop signals that the schedule still listens to. -/
def receiverCount (s : Schedule) : Nat := if s.isRunning then 1 else 0

/-- What a schedule makes of an input. One that has ended makes nothing of it. -/
def step (s : Schedule) (input : ScheduleInput) : ScheduleStep :=
  match s.ticker with
  | none => { schedule := s }
  | some ticker =>
    match input with
    | .elapse milliseconds =>
      match ticker.advance? milliseconds with
      | none => { schedule := { s with ticker := none } }
      | some (ticker, ticked) =>
        { schedule := { s with ticker := some ticker }, reloads := ticked }
    | .nudge => { schedule := s, reloads := s.nudgeable }
    | .closeNudges => { schedule := { s with nudgeable := false } }
    | .stop => { schedule := { s with ticker := none }, journal := [.event .taskStopped] }

end Schedule

end BrokerAccess
