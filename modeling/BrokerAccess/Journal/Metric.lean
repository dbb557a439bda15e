import BrokerAccess.Decision
import BrokerAccess.Store.Outcome

/-!
# Metrics

What is counted, and under which name. Durations are counted by their number.
-/

namespace BrokerAccess

/-- Something that is counted. -/
inductive Metric where
  /-- A password check served from the hash cache. -/
  | cacheHit
  /-- A password check that had to derive a hash. -/
  | cacheMiss
  /-- A measured derivation. -/
  | derivation
  /-- A reload that came to its end. -/
  | reload (outcome : Outcome)
  /-- A decision on a client. -/
  | decision (label : String)
  deriving DecidableEq, Repr

/-- The name of a metric. -/
def Metric.name : Metric → String
  | .cacheHit => "file_rbac_hash_cache_hits_total"
  | .cacheMiss => "file_rbac_hash_cache_misses_total"
  | .derivation => "file_rbac_hash_duration_seconds"
  | .reload _ => "file_rbac_reloads_total"
  | .decision _ => "file_rbac_auth_decisions_total"

/-- The label that tells the kinds of one metric apart, with its value. -/
def Metric.label? : Metric → Option (String × String)
  | .reload outcome => some ("outcome", outcome.name)
  | .decision label => some ("decision", label)
  | _ => none

end BrokerAccess
