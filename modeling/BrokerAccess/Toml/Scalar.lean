import BrokerAccess.Toml.Value

/-!
# Numbers, truth values and dates

The values that are written without quotes or brackets are runs of letters, digits and
a few signs, so each is recognised as a whole word. Integers have sixty-four bits and a
sign. A decimal number is refused when it is too large for the double format; a date
must exist in the calendar, and a minute may have a sixty-first second.
-/

namespace BrokerAccess.Toml.Scalar

/-- A decimal digit. -/
def isDigit (c : Char) : Bool := '0' ≤ c && c ≤ '9'

/-- The value of a digit in any base up to sixteen. -/
def digitValue? (c : Char) : Option Nat :=
  if '0' ≤ c ∧ c ≤ '9' then some (c.toNat - '0'.toNat)
  else if 'a' ≤ c ∧ c ≤ 'f' then some (c.toNat - 'a'.toNat + 10)
  else if 'A' ≤ c ∧ c ≤ 'F' then some (c.toNat - 'A'.toNat + 10)
  else none

/-- A digit of the base. -/
def isDigitOf (base : Nat) (c : Char) : Bool := (digitValue? c).any (· < base)

/-- The number that a run of digits of the base denotes. -/
def ofDigits (base : Nat) (digits : List Char) : Nat :=
  digits.foldl (fun n c => n * base + (digitValue? c).getD 0) 0

/-- Further digits of a run, single underscores between them left out, and the rest of the word. -/
def moreDigits (base : Nat) : List Char → List Char × List Char
  | [] => ([], [])
  | '_' :: d :: rest =>
    if isDigitOf base d then
      let (digits, after) := moreDigits base rest
      (d :: digits, after)
    else ([], '_' :: d :: rest)
  | d :: rest =>
    if isDigitOf base d then
      let (digits, after) := moreDigits base rest
      (d :: digits, after)
    else ([], d :: rest)

/-- A run of digits, at least one, and the rest of the word. -/
def digitRun? (base : Nat) : List Char → Option (List Char × List Char)
  | d :: rest =>
    if isDigitOf base d then
      let (digits, after) := moreDigits base rest
      some (d :: digits, after)
    else none
  | [] => none

/-- The digits of a decimal integer, which starts with a zero only if it is zero. -/
def wholePart? : List Char → Option (List Char × List Char)
  | '0' :: rest => some (['0'], rest)
  | word => digitRun? 10 word

/-- A sign at the front of a word; true is minus. -/
def splitSign : List Char → Bool × List Char
  | '-' :: rest => (true, rest)
  | '+' :: rest => (false, rest)
  | word => (false, word)

/-- A number that fits a signed word of sixty-four bits. -/
def inRange (n : Int) : Option Int :=
  if -9223372036854775808 ≤ n ∧ n < 9223372036854775808 then some n else none

/-- An integer after its base marker. -/
def based? (base : Nat) (word : List Char) : Option Int :=
  match digitRun? base word with
  | some (digits, []) => inRange (ofDigits base digits)
  | _ => none

/-- An integer. -/
def integer? (word : List Char) : Option Int :=
  match word with
  | '0' :: 'x' :: rest => based? 16 rest
  | '0' :: 'o' :: rest => based? 8 rest
  | '0' :: 'b' :: rest => based? 2 rest
  | _ =>
    let (negative, unsigned) := splitSign word
    match wholePart? unsigned with
    | some (digits, []) =>
      let n : Int := ofDigits 10 digits
      inRange (if negative then -n else n)
    | _ => none

/-- The least number that rounds to infinity in the double format. -/
def overflowBound : Nat := Nat.pow 2 1024 - Nat.pow 2 970

/-- `digits · 10 ^ exponent` is at least the overflow bound. The first two tests keep the powers
small: a number of three hundred digits is in range, one of three hundred and ten is not. -/
def overflows (digits : List Char) (exponent : Int) : Bool :=
  let n := ofDigits 10 digits
  let size : Int := (Nat.toDigits 10 n).length + exponent
  if n = 0 ∨ size < 300 then false
  else if size > 310 then true
  else if 0 ≤ exponent then overflowBound ≤ n * Nat.pow 10 exponent.toNat
  else overflowBound * Nat.pow 10 (-exponent).toNat ≤ n

/-- The exponent of a decimal number, and the rest of the word. -/
def exponent? : List Char → Option (Int × List Char)
  | e :: rest =>
    if e = 'e' ∨ e = 'E' then
      let (negative, unsigned) := splitSign rest
      match digitRun? 10 unsigned with
      | some (digits, after) =>
        let n : Int := ofDigits 10 digits
        some (if negative then -n else n, after)
      | none => none
    else none
  | [] => none

/-- A decimal number with a fraction, an exponent or both. Only a positive one can be too large. -/
def isDecimal (word : List Char) : Bool :=
  let (negative, unsigned) := splitSign word
  match wholePart? unsigned with
  | none => false
  | some (whole, '.' :: rest) =>
    match digitRun? 10 rest with
    | none => false
    | some (places, []) => negative || !overflows (whole ++ places) (-places.length)
    | some (places, rest) =>
      match exponent? rest with
      | some (e, []) => negative || !overflows (whole ++ places) (e - places.length)
      | _ => false
  | some (whole, rest) =>
    match exponent? rest with
    | some (e, []) => negative || !overflows whole e
    | _ => false

/-- A floating-point number; infinity and the undefined number may have a sign. -/
def isReal (word : List Char) : Bool :=
  let unsigned := (splitSign word).2
  unsigned = "inf".toList || unsigned = "nan".toList || isDecimal word

/-- Two decimal digits as a number within bounds. -/
def twoDigits? (low high : Nat) (a b : Char) : Option Nat :=
  if isDigit a && isDigit b then
    let n := ofDigits 10 [a, b]
    if low ≤ n ∧ n ≤ high then some n else none
  else none

/-- The days of a month. -/
def daysIn (year month : Nat) : Nat :=
  if month = 2 then
    if year % 4 = 0 ∧ (year % 100 ≠ 0 ∨ year % 400 = 0) then 29 else 28
  else if month ∈ [4, 6, 9, 11] then 30
  else 31

/-- A calendar date, and the rest of the word. -/
def afterDate? : List Char → Option (List Char)
  | y1 :: y2 :: y3 :: y4 :: '-' :: m1 :: m2 :: '-' :: d1 :: d2 :: rest => do
    if [y1, y2, y3, y4].all isDigit then
      let month ← twoDigits? 1 12 m1 m2
      let _ ← twoDigits? 1 (daysIn (ofDigits 10 [y1, y2, y3, y4]) month) d1 d2
      some rest
    else none
  | _ => none

/-- A time of day, and the rest of the word. -/
def afterTime? : List Char → Option (List Char)
  | h1 :: h2 :: ':' :: m1 :: m2 :: ':' :: s1 :: s2 :: rest => do
    let _ ← twoDigits? 0 23 h1 h2
    let _ ← twoDigits? 0 59 m1 m2
    let _ ← twoDigits? 0 60 s1 s2
    match rest with
    | '.' :: d :: more => if isDigit d then some (more.dropWhile isDigit) else none
    | '.' :: [] => none
    | _ => some rest
  | _ => none

/-- The offset of a time from universal time. -/
def isOffset : List Char → Bool
  | ['Z'] => true
  | ['z'] => true
  | [sign, h1, h2, ':', m1, m2] =>
    (sign = '+' || sign = '-') && (twoDigits? 0 23 h1 h2).isSome && (twoDigits? 0 59 m1 m2).isSome
  | _ => false

/-- A time of day with or without an offset. -/
def isTimeWithOffset (word : List Char) : Bool :=
  match afterTime? word with
  | some rest => rest.isEmpty || isOffset rest
  | none => false

/-- A calendar date and nothing else. -/
def isDate (word : List Char) : Bool := afterDate? word = some []

/-- A date, a time, or a date and a time in one word. -/
def isMoment (word : List Char) : Bool :=
  match afterDate? word with
  | some [] => true
  | some (t :: rest) => (t = 'T' || t = 't') && isTimeWithOffset rest
  | none => afterTime? word = some []

/-- The text of a date, a time, or both. Here they may be two words with a space between. An hour
and an offset of a whole day are out of range, as they are in an unquoted word. -/
def isMomentText (text : List Char) : Bool :=
  isMoment text ||
    match afterDate? text with
    | some (' ' :: rest) => isTimeWithOffset rest
    | _ => false

/-- A character of an unquoted word. -/
def isWordChar (c : Char) : Bool :=
  c.isAlphanum || c = '+' || c = '-' || c = '_' || c = '.' || c = ':'

/-- The value of an unquoted word. -/
def ofWord? (word : List Char) : Option Value :=
  if word = "true".toList then some (.boolean true)
  else if word = "false".toList then some (.boolean false)
  else if isMoment word then some (.moment (String.ofList word))
  else if isReal word then some (.real (String.ofList word))
  else (integer? word).map .integer

/-- An unquoted value at the front of a text. A date takes the word after a single space with it,
which must then be a time. -/
def read? (text : List Char) : Option (Value × List Char) :=
  let word := text.takeWhile isWordChar
  let rest := text.dropWhile isWordChar
  match rest with
  | ' ' :: more =>
    let second := more.takeWhile isWordChar
    if isDate word && !second.isEmpty then
      if isTimeWithOffset second then
        some (.moment (String.ofList (word ++ ' ' :: second)), more.dropWhile isWordChar)
      else none
    else (ofWord? word).map (·, rest)
  | _ => (ofWord? word).map (·, rest)

end BrokerAccess.Toml.Scalar
