import BrokerAccess.Password.Hash
import BrokerAccess.Text.Decimal
import BrokerAccess.Text.Fields

/-!
# Stored passwords

A hashed password is stored as `salt:iterations:hash`, with salt and hash in base64.
The salt of a stored password is kept as text: whether it is base64 shows only when a
hash is derived with it.
-/

namespace BrokerAccess

/-- A stored password, taken apart. -/
structure StoredPassword where
  /-- The salt as it is written. -/
  salt : String
  /-- The iteration count. -/
  iterations : Nat
  /-- The expected hash. -/
  hash : List UInt8
  deriving DecidableEq, Repr

/-- Iteration counts are below this bound, the thirty-second power of two. -/
def iterationBound : Nat := 4294967296

/-- The parts of a stored password: exactly three fields, the second an iteration count, the third
base64. -/
def StoredPassword.parse? (stored : String) : Option StoredPassword :=
  match fields ':' stored.toList with
  | [salt, iterations, hash] => do
    let count ← Decimal.readBelow? iterationBound iterations
    let bytes ← Base64.decode? hash
    some ⟨String.ofList salt, count, bytes⟩
  | _ => none

/-- A password in the form in which it is stored. -/
def Password.encode (password salt : List UInt8) (iterations : Nat) : Except HashError String := do
  let written := Base64.write salt
  let hash ← Password.hash (Base64.write password) written iterations
  return written ++ ":" ++ String.ofList (Decimal.digits iterations) ++ ":" ++ Base64.write hash

end BrokerAccess
