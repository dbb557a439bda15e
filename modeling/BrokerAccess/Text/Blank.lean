/-!
# Blanks

The characters that leave a gap between words or lines, in every script.
-/

namespace BrokerAccess.Text

/-- The character is a blank. -/
def isBlank (c : Char) : Bool :=
  c.isWhitespace || c = '\x0B' || c = '\x0C' || c = '\u0085' || c = '\u00A0' || c = '\u1680' ||
    ('\u2000' ≤ c && c ≤ '\u200A') || c = '\u2028' || c = '\u2029' || c = '\u202F' ||
    c = '\u205F' || c = '\u3000'

/-- A text without the blanks around it. -/
def withoutMargins (text : List Char) : List Char :=
  ((text.dropWhile isBlank).reverse.dropWhile isBlank).reverse

end BrokerAccess.Text
