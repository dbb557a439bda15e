/-!
# Decimal numbers

Decimal digits of a natural number and their reading. Reading is the strict one of a
bounded number field: an optional plus sign, then digits only. Numbers of any kind are only
told apart from other texts.
-/

namespace BrokerAccess.Decimal

/-- The digits of `n`, most significant first, without leading zeros. -/
def digits (n : Nat) : List Char := Nat.toDigits 10 n

/-- The value of a decimal digit. -/
def digit? (c : Char) : Option Nat :=
  if '0' ≤ c ∧ c ≤ '9' then some (c.toNat - '0'.toNat) else none

/-- Digits appended to a number already read. -/
def readOnto (value : Nat) : List Char → Option Nat
  | [] => some value
  | c :: rest => do readOnto (value * 10 + (← digit? c)) rest

/-- An unsigned number below `bound`: at least one digit. -/
def readUnsignedBelow? (bound : Nat) (text : List Char) : Option Nat := do
  if text.isEmpty then none
  let value ← readOnto 0 text
  if value < bound then some value else none

/-- A number below `bound`, after an optional plus sign. -/
def readBelow? (bound : Nat) (text : List Char) : Option Nat :=
  readUnsignedBelow? bound (if text.head? = some '+' then text.tail else text)

/-- The text is a number without a sign: digits around at most one point, perhaps with an exponent;
or a word for infinity or for no number at all. -/
def isMagnitude (text : List Char) : Bool :=
  let digits := fun (part : List Char) => part.takeWhile Char.isDigit
  let after := fun (part : List Char) => part.dropWhile Char.isDigit
  let (fraction, rest) : List Char × List Char :=
    match after text with
    | '.' :: more => (digits more, after more)
    | rest => ([], rest)
  let exponent : Bool :=
    match rest with
    | [] => true
    | e :: power =>
      let power := if power.head? = some '+' || power.head? = some '-' then power.tail else power
      (e = 'e' || e = 'E') && !power.isEmpty && power.all Char.isDigit
  (!(digits text ++ fraction).isEmpty && exponent) ||
    ["inf", "infinity", "nan"].contains (String.ofList (text.map Char.toLower))

end BrokerAccess.Decimal
