/-!
# UTF-8

A byte sequence is read as a list of pieces: characters, and broken stretches that
begin no character. Strict reading refuses a sequence with a broken piece; lossy
reading puts U+FFFD in its place. A broken piece is as long as it could still have
been the start of a character, so one replacement stands for it and not one per byte.
-/

namespace BrokerAccess.Utf8

/-- The bytes of a text. -/
def encode (text : List Char) : List UInt8 := text.flatMap String.utf8EncodeChar

/-- The bytes of a string. -/
def bytes (s : String) : List UInt8 := encode s.toList

/-- Continuation bytes of a character under way: `count` are owed, the first of them lies in
`low .. high`, and `bits` are the code point's bits so far. The second part is what is left. -/
def continuation : (count low high bits : Nat) → List UInt8 → Option Char × List UInt8
  | 0, _, _, bits, rest => (some (Char.ofNat bits), rest)
  | _ + 1, _, _, _, [] => (none, [])
  | count + 1, low, high, bits, b :: rest =>
    if low ≤ b.toNat ∧ b.toNat ≤ high then
      continuation count 0x80 0xBF (bits * 64 + (b.toNat - 0x80)) rest
    else (none, b :: rest)

/-- The piece that starts with the byte `b`, and what is left after it. The ranges of the second
byte keep out overlong forms, surrogates and code points beyond U+10FFFF. -/
def piece (b : UInt8) (rest : List UInt8) : Option Char × List UInt8 :=
  let n := b.toNat
  if n < 0x80 then (some (Char.ofNat n), rest)
  else if n < 0xC2 then (none, rest)
  else if n < 0xE0 then continuation 1 0x80 0xBF (n - 0xC0) rest
  else if n < 0xF0 then
    continuation 2 (if n = 0xE0 then 0xA0 else 0x80) (if n = 0xED then 0x9F else 0xBF)
      (n - 0xE0) rest
  else if n < 0xF5 then
    continuation 3 (if n = 0xF0 then 0x90 else 0x80) (if n = 0xF4 then 0x8F else 0xBF)
      (n - 0xF0) rest
  else (none, rest)

/-- Reading continuation bytes never gives bytes back. -/
theorem length_continuation_le (count low high bits : Nat) (rest : List UInt8) :
    (continuation count low high bits rest).2.length ≤ rest.length := by
  induction rest generalizing count low high bits with
  | nil => cases count <;> simp [continuation]
  | cons b rest ih =>
    cases count with
    | zero => simp [continuation]
    | succ count =>
      unfold continuation
      split
      · exact Nat.le_succ_of_le (ih count _ _ _)
      · exact Nat.le_refl _

/-- Every piece takes its first byte at least, so reading ends. -/
theorem length_piece_le (b : UInt8) (rest : List UInt8) :
    (piece b rest).2.length ≤ rest.length := by
  unfold piece
  dsimp only
  repeat' split
  all_goals first | exact Nat.le_refl _ | exact length_continuation_le ..

/-- The pieces of a byte sequence, `none` for each broken one. -/
def pieces : List UInt8 → List (Option Char)
  | [] => []
  | b :: rest => (piece b rest).1 :: pieces (piece b rest).2
termination_by bs => bs.length
decreasing_by exact Nat.lt_succ_of_le (length_piece_le b rest)

/-- The text that the bytes encode, if they are UTF-8 throughout. -/
def decode? (bs : List UInt8) : Option (List Char) := (pieces bs).mapM id

/-- The text of the bytes with U+FFFD for every broken piece. -/
def decodeLossy (bs : List UInt8) : List Char := (pieces bs).map (·.getD '\uFFFD')

end BrokerAccess.Utf8
