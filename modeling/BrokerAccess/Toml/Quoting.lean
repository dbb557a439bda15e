import BrokerAccess.Toml.Quoted

/-!
# Writing quoted text

A text is written in the plainest quoted form that can hold it: plain double quotes, then
single quotes, then the forms of several lines, and escapes only when nothing else is
left. Every text has a form, and reading the written form gives the text back.
-/

namespace BrokerAccess.Toml.Quoted

/-- A character that no form without escapes can hold; tab and newline are not among them. -/
def isControl (c : Char) : Bool :=
  (c.toNat < 0x20 && c ≠ '\t' && c ≠ '\n') || c.toNat = 0x7F

/-- No three quotes stand in a row. -/
def noTriple (quote : Char) : List Char → Bool
  | a :: b :: c :: rest =>
    !(a = quote && b = quote && c = quote) && noTriple quote (b :: c :: rest)
  | _ => true

/-- A hexadecimal digit, in capitals. -/
def hexDigit (n : Nat) : Char :=
  if n < 10 then Char.ofNat ('0'.toNat + n) else Char.ofNat ('A'.toNat + (n - 10))

/-- A character as it is written between double quotes. -/
def escape (c : Char) : List Char :=
  if c = '\x08' then ['\\', 'b']
  else if c = '\t' then ['\\', 't']
  else if c = '\n' then ['\\', 'n']
  else if c = '\x0c' then ['\\', 'f']
  else if c = '\r' then ['\\', 'r']
  else if c = '"' then ['\\', '"']
  else if c = '\\' then ['\\', '\\']
  else if isControl c then ['\\', 'u', '0', '0', hexDigit (c.toNat / 16), hexDigit (c.toNat % 16)]
  else [c]

/-- A text between double quotes on several lines. Newlines stand for themselves, and of three
quotes in a row the third is escaped; `run` counts the quotes directly in front. -/
def longBasicBody : (run : Nat) → List Char → List Char
  | _, [] => []
  | run, '"' :: rest =>
    if run = 2 then '\\' :: '"' :: longBasicBody 0 rest else '"' :: longBasicBody (run + 1) rest
  | _, '\n' :: rest => '\n' :: longBasicBody 0 rest
  | _, c :: rest => escape c ++ longBasicBody 0 rest

/-- A form of several lines starts on a new line when the text has more than one. -/
def opening (text : List Char) : List Char := if text.contains '\n' then ['\n'] else []

/-- A text between double quotes. -/
def writeBasic (text : List Char) : List Char := '"' :: text.flatMap escape ++ ['"']

/-- A text between single quotes. -/
def writeLiteral (text : List Char) : List Char := '\'' :: text ++ ['\'']

/-- A text between three double quotes. -/
def writeLongBasic (text : List Char) : List Char :=
  '"' :: '"' :: '"' :: opening text ++ longBasicBody 0 text ++ ['"', '"', '"']

/-- A text between three single quotes. -/
def writeLongLiteral (text : List Char) : List Char :=
  '\'' :: '\'' :: '\'' :: opening text ++ text ++ ['\'', '\'', '\'']

/-- A text in the first form that holds it. -/
def write (text : List Char) : List Char :=
  let clean := !text.any isControl
  if clean && !text.contains '\\' && !text.contains '"' && !text.contains '\n' then writeBasic text
  else if clean && !text.contains '\'' && !text.contains '\n' then writeLiteral text
  else if clean && !text.contains '\\' && noTriple '"' text then writeLongBasic text
  else if clean && noTriple '\'' text then writeLongLiteral text
  else if text.contains '\n' then writeLongBasic text
  else writeBasic text

end BrokerAccess.Toml.Quoted
