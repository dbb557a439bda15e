/-!
# Reload outcomes

How a look at the record's file ends.
-/

namespace BrokerAccess

/-- The end of a reload. -/
inductive Outcome where
  /-- There is no file. -/
  | missing
  /-- The file has not changed since it was last accepted. -/
  | unchanged
  /-- The file cannot be read, or its record has defects. -/
  | rejected
  /-- A new record is in effect. -/
  | reloaded
  deriving DecidableEq, Repr

/-- The name of an outcome. -/
def Outcome.name : Outcome → String
  | .missing => "missing"
  | .unchanged => "unchanged"
  | .rejected => "rejected"
  | .reloaded => "reloaded"

end BrokerAccess
