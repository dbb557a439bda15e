import BrokerAccess.Digest.Hmac

/-!
# PBKDF2

Key derivation of RFC 8018 with HMAC-SHA-512, for a key of one digest: the exclusive
or of a chain of codes, each the code of the one before.
-/

namespace BrokerAccess.Pbkdf2

/-- The bytewise exclusive or. -/
def xor (a b : List UInt8) : List UInt8 := List.zipWith (· ^^^ ·) a b

/-- `more` further links of the chain after `link`, combined into `sum`. -/
def extend (prf : List UInt8 → List UInt8) (link sum : List UInt8) : (more : Nat) → List UInt8
  | 0 => sum
  | more + 1 => extend prf (prf link) (xor sum (prf link)) more

/-- The first link is the code of the salt and the block number one. -/
def firstLink (password salt : List UInt8) : List UInt8 :=
  Hmac.code password (salt ++ [0, 0, 0, 1])

/-- The key of a chain of `iterations` links. -/
def derive (password salt : List UInt8) (iterations : Nat) : List UInt8 :=
  let first := firstLink password salt
  extend (Hmac.code password) first first (iterations - 1)

end BrokerAccess.Pbkdf2
