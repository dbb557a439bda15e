import BrokerAccess.Digest.Pbkdf2
import BrokerAccess.Text.Base64

/-!
# Password hashes

The hash of a password under a salt and an iteration count. Password and salt come
base64 encoded; the password is decoded first, then the salt, and only then is an
iteration count of zero refused.
-/

namespace BrokerAccess

/-- A reason why no hash can be derived. -/
inductive HashError where
  /-- The password is not base64. -/
  | badPassword
  /-- The salt is not base64. -/
  | badSalt
  /-- The iteration count is zero. -/
  | noIterations
  /-- The key has a length that the keyed digest does not take. -/
  | badKeyLength
  deriving DecidableEq, Repr

/-- The report of a failed derivation. -/
def HashError.message : HashError → String
  | .badPassword => "invalid base64 in password"
  | .badSalt => "invalid base64 in salt"
  | .noIterations => "iteration count must be at least 1"
  | .badKeyLength => "invalid HMAC key length"

/-- A derivation of hashes from a base64 password, a base64 salt and an iteration count. -/
abbrev Derivation := String → String → Nat → Except HashError (List UInt8)

namespace Password

/-- The hash of a base64 password under a base64 salt. -/
def hash : Derivation := fun password salt iterations =>
  match Base64.read? password with
  | none => .error .badPassword
  | some passwordBytes =>
    match Base64.read? salt with
    | none => .error .badSalt
    | some saltBytes =>
      if iterations = 0 then .error .noIterations
      else .ok (Pbkdf2.derive passwordBytes saltBytes iterations)

end Password

end BrokerAccess
