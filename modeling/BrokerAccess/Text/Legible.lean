import BrokerAccess.Text.Invisible

/-!
# Legible text

Two ways to show a text on a line that a terminal may read. Quoted text stands between
double quotes and spells out everything in it that shows nothing of its own. Disarmed text
only spells out the characters that terminals take for commands.
-/

namespace BrokerAccess.Text

/-- A character by its hexadecimal number. -/
def spellOut (c : Char) : List Char := "\\u\x7b".toList ++ Nat.toDigits 16 c.toNat ++ ['\x7d']

/-- How a character stands between double quotes. -/
def quotedChar (c : Char) : List Char :=
  match c with
  | '\x00' => ['\\', '0']
  | '\t' => ['\\', 't']
  | '\r' => ['\\', 'r']
  | '\n' => ['\\', 'n']
  | '"' => ['\\', '"']
  | '\\' => ['\\', '\\']
  | c => if isInvisible c then spellOut c else [c]

/-- A text between double quotes. -/
def quoted (text : String) : String :=
  "\"" ++ String.ofList (text.toList.flatMap quotedChar) ++ "\""

/-- How a character stands in a disarmed text. -/
def disarmedChar (c : Char) : List Char :=
  match c with
  | '\x07' => "\\x07".toList
  | '\x08' => "\\x08".toList
  | '\x0C' => "\\x0c".toList
  | '\x1B' => "\\x1b".toList
  | '\x7F' => "\\x7f".toList
  | c => if 0x80 ≤ c.toNat && c.toNat ≤ 0x9F then spellOut c else [c]

/-- A text without terminal commands. -/
def disarmed (text : String) : String := String.ofList (text.toList.flatMap disarmedChar)

end BrokerAccess.Text
