import BrokerAccess.Journal.Event
import BrokerAccess.Journal.Metric

/-!
# The journal

Operations do not print and do not count. They return the journal of what they did, in
order, beside their result, and leave it to the outermost layer to show it.
-/

namespace BrokerAccess

/-- An entry of a journal. -/
inductive JournalEntry where
  /-- Something to tell the operator. -/
  | event (e : Event)
  /-- One more of something that is counted. -/
  | count (m : Metric)
  deriving DecidableEq, Repr

/-- What happened, in order. -/
abbrev Journal := List JournalEntry

namespace Journal

/-- The events of a journal. -/
def events (j : Journal) : List Event :=
  j.filterMap fun
    | .event e => some e
    | .count _ => none

/-- What a journal counts, in order. -/
def counts (j : Journal) : List Metric :=
  j.filterMap fun
    | .event _ => none
    | .count m => some m

end Journal

end BrokerAccess
