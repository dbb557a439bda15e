/-!
# The shutdown signal

A signal from one coordinator to any number of receivers. The channel holds only the
last signal: a receiver that fell behind first learns how many it lost, and then gets the
one still held. Without receivers a signal is lost at once. When the coordinator is gone,
what is held can still be received, and after that the channel is closed.
-/

namespace BrokerAccess

/-- A coordinator and its receivers. Each receiver is kept with the number of signals that were sent
before the next one it reads. -/
structure Shutdown where
  /-- The signals sent so far. -/
  sent : Nat := 0
  /-- The receivers, by name. -/
  receivers : List (String × Nat) := []
  /-- The coordinator is gone. -/
  closed : Bool := false
  deriving DecidableEq, Repr

/-- What a receiver gets when it looks. -/
inductive Receipt where
  /-- A signal. -/
  | signal
  /-- Nothing yet. -/
  | empty
  /-- Nothing, and nothing will come. -/
  | closed
  /-- This many signals were lost. -/
  | lagged (lost : Nat)
  /-- There is no such receiver. -/
  | unknown
  deriving DecidableEq, Repr

namespace Shutdown

/-- The channel with a receiver of that name; it gets what is sent from now on. -/
def subscribe (s : Shutdown) (id : String) : Shutdown :=
  if s.closed then s
  else { s with receivers := (id, s.sent) :: s.receivers.filter fun r => r.1 ≠ id }

/-- The channel after a signal was sent. -/
def trigger (s : Shutdown) : Shutdown :=
  if s.closed || s.receivers.isEmpty then s else { s with sent := s.sent + 1 }

/-- The channel without a receiver. -/
def drop (s : Shutdown) (id : String) : Shutdown :=
  { s with receivers := s.receivers.filter fun r => r.1 ≠ id }

/-- The channel without its coordinator. -/
def close (s : Shutdown) : Shutdown := { s with closed := true }

/-- The number of receivers. -/
def receiverCount (s : Shutdown) : Nat := s.receivers.length

/-- The channel with a receiver moved on. -/
def advance (s : Shutdown) (id : String) (position : Nat) : Shutdown :=
  { s with receivers := s.receivers.map fun r => if r.1 = id then (id, position) else r }

/-- What a receiver gets, without waiting. -/
def receive (s : Shutdown) (id : String) : Receipt × Shutdown :=
  match s.receivers.lookup id with
  | none => (.unknown, s)
  | some position =>
    if s.sent ≤ position then (if s.closed then .closed else .empty, s)
    else if position + 1 < s.sent then
      (.lagged (s.sent - 1 - position), s.advance id (s.sent - 1))
    else (.signal, s.advance id s.sent)

end Shutdown

end BrokerAccess
