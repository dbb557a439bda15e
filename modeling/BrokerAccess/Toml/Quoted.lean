/-!
# Reading quoted text

The four quoted forms: one line or several, with escapes or without. A newline right
after the opening of a form of several lines is not part of the text, and such a form
may end in up to two quotes of its own in front of the three that close it.
-/

namespace BrokerAccess.Toml.Quoted

/-- A character that may stand in quoted text and in comments: no control character but the tab. -/
def printable (c : Char) : Bool := c = '\t' || (0x20 ≤ c.toNat && c.toNat ≠ 0x7F)

/-- The value of a hexadecimal digit. -/
def hexValue? (c : Char) : Option Nat :=
  if '0' ≤ c ∧ c ≤ '9' then some (c.toNat - '0'.toNat)
  else if 'a' ≤ c ∧ c ≤ 'f' then some (c.toNat - 'a'.toNat + 10)
  else if 'A' ≤ c ∧ c ≤ 'F' then some (c.toNat - 'A'.toNat + 10)
  else none

/-- The character of a code point that exactly `count` hexadecimal digits give. -/
def codePoint? (count : Nat) (text : List Char) : Option (Char × List Char) := do
  let values ← (text.take count).mapM hexValue?
  if values.length = count then
    let n := values.foldl (fun n d => n * 16 + d) 0
    if n.isValidChar then some (Char.ofNat n, text.drop count) else none
  else none

/-- The character of an escape, after its backslash. -/
def escaped? : List Char → Option (Char × List Char)
  | 'b' :: rest => some ('\x08', rest)
  | 't' :: rest => some ('\t', rest)
  | 'n' :: rest => some ('\n', rest)
  | 'f' :: rest => some ('\x0c', rest)
  | 'r' :: rest => some ('\r', rest)
  | '"' :: rest => some ('"', rest)
  | '\\' :: rest => some ('\\', rest)
  | 'u' :: rest => codePoint? 4 rest
  | 'U' :: rest => codePoint? 8 rest
  | _ => none

/-- A code point takes nothing but its digits. -/
theorem length_codePoint {count : Nat} {text rest : List Char} {c : Char}
    (h : codePoint? count text = some (c, rest)) : rest.length ≤ text.length := by
  simp only [codePoint?, Option.bind_eq_bind, Option.bind_eq_some_iff] at h
  obtain ⟨values, _, h⟩ := h
  split at h
  · split at h
    · simp only [Option.some.injEq, Prod.mk.injEq] at h
      simp [← h.2]
    · simp at h
  · simp at h

/-- An escape takes at least one character. -/
theorem length_escaped {text rest : List Char} {c : Char} (h : escaped? text = some (c, rest)) :
    rest.length < text.length := by
  unfold escaped? at h
  split at h
  all_goals first
    | (simp only [Option.some.injEq, Prod.mk.injEq] at h; simp [← h.2])
    | exact Nat.lt_succ_of_le (length_codePoint h)
    | simp at h

/-- A character in front of what was read. -/
def push (c : Char) : List Char × List Char → List Char × List Char
  | (text, rest) => (c :: text, rest)

/-- The text up to a closing double quote, escapes resolved. -/
def basic? : List Char → Option (List Char × List Char)
  | [] => none
  | '"' :: rest => some ([], rest)
  | '\\' :: rest =>
    match _escape : escaped? rest with
    | none => none
    | some (c, after) => (basic? after).map (push c)
  | c :: rest => if printable c then (basic? rest).map (push c) else none
termination_by text => text.length
decreasing_by
  · have := length_escaped _escape
    simp only [List.length_cons]
    omega
  · simp

/-- The text up to a closing single quote, as it stands. -/
def literal? : List Char → Option (List Char × List Char)
  | [] => none
  | '\'' :: rest => some ([], rest)
  | c :: rest => if printable c then (literal? rest).map (push c) else none

/-- White space within a line left out. -/
def skipSpace : List Char → List Char
  | ' ' :: rest => skipSpace rest
  | '\t' :: rest => skipSpace rest
  | text => text

/-- White space and newlines left out. -/
def skipBlank : List Char → List Char
  | ' ' :: rest => skipBlank rest
  | '\t' :: rest => skipBlank rest
  | '\n' :: rest => skipBlank rest
  | '\r' :: '\n' :: rest => skipBlank rest
  | text => text

/-- Skipping gives nothing back. -/
theorem length_skipSpace_le (text : List Char) : (skipSpace text).length ≤ text.length := by
  fun_induction skipSpace text <;> simp_all <;> omega

/-- Skipping gives nothing back. -/
theorem length_skipBlank_le (text : List Char) : (skipBlank text).length ≤ text.length := by
  fun_induction skipBlank text <;> simp_all <;> omega

/-- The text after a newline. -/
def afterNewline? : List Char → Option (List Char)
  | '\n' :: rest => some rest
  | '\r' :: '\n' :: rest => some rest
  | _ => none

/-- A newline takes at least one character. -/
theorem length_afterNewline {text rest : List Char} (h : afterNewline? text = some rest) :
    rest.length < text.length := by
  unfold afterNewline? at h
  split at h
  all_goals simp only [Option.some.injEq, reduceCtorEq] at h
  all_goals simp only [← h, List.length_cons]
  all_goals omega

/-- What follows a backslash at the end of a line: the newline and all white space after it. -/
def joinedLine? (text : List Char) : Option (List Char) :=
  (afterNewline? (skipSpace text)).map skipBlank

/-- Joining lines gives nothing back. -/
theorem length_joinedLine_le {text rest : List Char} (h : joinedLine? text = some rest) :
    rest.length ≤ text.length := by
  obtain ⟨after, ha, rfl⟩ := Option.map_eq_some_iff.1 h
  have := length_afterNewline ha
  have := length_skipSpace_le text
  have := length_skipBlank_le after
  omega

/-- Up to two quotes behind the closing three belong to the text. -/
def surplus (quote : Char) : List Char → List Char × List Char
  | a :: b :: rest =>
    if a = quote then if b = quote then ([a, b], rest) else ([a], b :: rest)
    else ([], a :: b :: rest)
  | [a] => if a = quote then ([a], []) else ([], [a])
  | [] => ([], [])

/-- The text up to three closing double quotes, escapes resolved. -/
def longBasic? : List Char → Option (List Char × List Char)
  | [] => none
  | '"' :: '"' :: '"' :: rest => some (surplus '"' rest)
  | '\\' :: rest =>
    match _joined : joinedLine? rest with
    | some after => longBasic? after
    | none =>
      match _escape : escaped? rest with
      | none => none
      | some (c, after) => (longBasic? after).map (push c)
  | '\n' :: rest => (longBasic? rest).map (push '\n')
  | '\r' :: '\n' :: rest => (longBasic? rest).map (push '\n')
  | c :: rest => if printable c then (longBasic? rest).map (push c) else none
termination_by text => text.length
decreasing_by
  all_goals simp only [List.length_cons]
  · have := length_joinedLine_le _joined
    omega
  · have := length_escaped _escape
    omega
  all_goals omega

/-- The text up to three closing single quotes, as it stands but for the form of its newlines. -/
def longLiteral? : List Char → Option (List Char × List Char)
  | [] => none
  | '\'' :: '\'' :: '\'' :: rest => some (surplus '\'' rest)
  | '\n' :: rest => (longLiteral? rest).map (push '\n')
  | '\r' :: '\n' :: rest => (longLiteral? rest).map (push '\n')
  | c :: rest => if printable c then (longLiteral? rest).map (push c) else none

/-- A text without the newline it may start with. -/
def dropNewline (text : List Char) : List Char := (afterNewline? text).getD text

/-- A quoted text in any form, and what follows it. -/
def read? : List Char → Option (List Char × List Char)
  | '"' :: '"' :: '"' :: rest => longBasic? (dropNewline rest)
  | '"' :: rest => basic? rest
  | '\'' :: '\'' :: '\'' :: rest => longLiteral? (dropNewline rest)
  | '\'' :: rest => literal? rest
  | _ => none

end BrokerAccess.Toml.Quoted
