import BrokerAccess.Journal
import BrokerAccess.Password.Cache
import BrokerAccess.Password.Stored

/-!
# Password checks

A password is checked against a stored one by deriving its hash under the stored salt and
iteration count. The cache spares derivations and never changes an answer. A stored
password that is malformed matches nothing, and a failed derivation is not remembered.
-/

namespace BrokerAccess

/-- What a check came to. -/
structure Verification where
  /-- The password matches. -/
  matched : Bool
  /-- The cache afterwards. -/
  cache : HashCache
  /-- What there is to report. -/
  journal : Journal
  deriving DecidableEq, Repr

/-- Check a base64 password against a stored password. -/
def verify (derive : Derivation) (now : Nat) (password stored : String) (cache : HashCache) :
    Verification :=
  match StoredPassword.parse? stored with
  | none => ⟨false, cache, []⟩
  | some parsed =>
    let key := HashCache.key password parsed.salt parsed.iterations
    match cache.get now key with
    | (some hash, cache) => ⟨hash = parsed.hash, cache, [.count .cacheHit]⟩
    | (none, cache) =>
      match derive password parsed.salt parsed.iterations with
      | .error error =>
        ⟨false, cache,
          [.count .cacheMiss, .count .derivation, .event (.derivationFailed error)]⟩
      | .ok hash =>
        ⟨hash = parsed.hash, cache.insert now key hash, [.count .cacheMiss, .count .derivation]⟩

end BrokerAccess
