import BrokerAccess.Toml.Quoted
import BrokerAccess.Toml.Scalar
import BrokerAccess.Toml.Tree

/-!
# Statements of a document

A document is a sequence of statements: headers, which say what table is being filled,
and assignments. Arrays may run over several lines and hold comments; inline tables may
not. Values nest to a bounded depth and keys have a bounded number of parts.
-/

namespace BrokerAccess.Toml

open Quoted (skipSpace printable)

/-- A statement of a document. A dotted key is a path and a last part. -/
inductive Statement where
  /-- `[path.key]`: the table that assignments now fill. -/
  | header (path : List String) (key : String)
  /-- `[[path.key]]`: a new element that assignments now fill. -/
  | element (path : List String) (key : String)
  /-- `path.key = value`. -/
  | assign (path : List String) (key : String) (v : Value)

/-- Arrays and inline tables nest less deep than this, and keys have fewer parts. -/
def nestingLimit : Nat := 80

/-- White space, newlines and comments left out; the flag says that a comment is under way. -/
def skipGap : Bool → List Char → List Char
  | _, '\n' :: rest => skipGap false rest
  | _, '\r' :: '\n' :: rest => skipGap false rest
  | true, c :: rest => if printable c then skipGap true rest else c :: rest
  | false, ' ' :: rest => skipGap false rest
  | false, '\t' :: rest => skipGap false rest
  | false, '#' :: rest => skipGap true rest
  | _, text => text

/-- A character of a key without quotes. -/
def isBareKeyChar (c : Char) : Bool := c.isAlphanum || c = '-' || c = '_'

/-- One part of a key. -/
def keyPart? : List Char → Option (String × List Char)
  | '"' :: rest => (Quoted.basic? rest).map fun (s, after) => (String.ofList s, after)
  | '\'' :: rest => (Quoted.literal? rest).map fun (s, after) => (String.ofList s, after)
  | text =>
    let word := text.takeWhile isBareKeyChar
    if word.isEmpty then none else some (String.ofList word, text.dropWhile isBareKeyChar)

/-- The parts of a key, with the white space around them. -/
def keyParts? (text : List Char) : Option (List String × List Char) :=
  match keyPart? (skipSpace text) with
  | none => none
  | some (part, after) =>
    match skipSpace after with
    | '.' :: rest =>
      if _shorter : rest.length < text.length then
        (keyParts? rest).map fun (parts, after) => (part :: parts, after)
      else none
    | rest => some ([part], rest)
termination_by text.length

/-- A key as the path to its table and its last part. -/
def key? (text : List Char) : Option (List String × String × List Char) := do
  let (parts, rest) ← keyParts? text
  if parts.length < nestingLimit then
    let last ← parts.getLast?
    some (parts.dropLast, last, rest)
  else none

/-- An assignment whose value `value` reads. -/
def assignment? (value : List Char → Option (Value × List Char)) (text : List Char) :
    Option (List String × String × Value × List Char) := do
  let (path, key, rest) ← key? text
  match rest with
  | '=' :: rest =>
    let (v, rest) ← value (skipSpace rest)
    some (path, key, v, rest)
  | _ => none

/-- The items of an array after its opening bracket. A comma may follow the last one. -/
def items? (value : List Char → Option (Value × List Char)) (text : List Char) :
    Option (List Value × List Char) :=
  match skipGap false text with
  | ']' :: rest => some ([], rest)
  | start =>
    match value start with
    | none => none
    | some (v, after) =>
      match skipGap false after with
      | ']' :: rest => some ([v], rest)
      | ',' :: rest =>
        if _shorter : rest.length < text.length then
          (items? value rest).map fun (vs, after) => (v :: vs, after)
        else none
      | _ => none
termination_by text.length

/-- The entries of an inline table from its first assignment on, added to those already read. -/
def pairs? (value : List Char → Option (Value × List Char)) (entries : Entries)
    (text : List Char) : Option (Entries × List Char) :=
  match assignment? value text with
  | none => none
  | some (path, key, v, after) =>
    match entries.assign path key v with
    | none => none
    | some entries =>
      match skipSpace after with
      | '}' :: rest => some (entries, rest)
      | ',' :: rest =>
        if _shorter : rest.length < text.length then pairs? value entries rest else none
      | _ => none
termination_by text.length

/-- An inline table after its opening brace. -/
def inlineTable? (value : List Char → Option (Value × List Char)) (text : List Char) :
    Option (Value × List Char) :=
  match skipSpace text with
  | '}' :: rest => some (.table [], rest)
  | _ => (pairs? value [] text).map fun (entries, rest) => (.table (finishEntries entries), rest)

/-- A value that opens no array and no inline table. -/
def flatValue? (text : List Char) : Option (Value × List Char) :=
  match text.head? with
  | some '"' | some '\'' =>
    (Quoted.read? text).map fun (s, rest) => (.text (String.ofList s), rest)
  | _ => Scalar.read? text

/-- A value with at most `room` arrays and inline tables around each other. -/
def value? : (room : Nat) → List Char → Option (Value × List Char)
  | room + 1, '[' :: rest => (items? (value? room) rest).map fun (vs, after) => (.array vs, after)
  | room + 1, '{' :: rest => inlineTable? (value? room) rest
  | _, text => flatValue? text

/-- The end of a statement's line: white space, a comment, and a newline or the end of the text. -/
def lineEnd? (text : List Char) : Option (List Char) :=
  let rest :=
    match skipSpace text with
    | '#' :: comment => comment.dropWhile printable
    | rest => rest
  if rest.isEmpty then some [] else Quoted.afterNewline? rest

/-- A statement and what follows it on its line. -/
def statement? : List Char → Option (Statement × List Char)
  | '[' :: '[' :: rest => do
    let (path, key, after) ← key? rest
    match after with
    | ']' :: ']' :: rest => some (.element path key, rest)
    | _ => none
  | '[' :: rest => do
    let (path, key, after) ← key? rest
    match after with
    | ']' :: rest => some (.header path key, rest)
    | _ => none
  | text => do
    let (path, key, v, rest) ← assignment? (value? (nestingLimit - 1)) text
    some (.assign path key v, rest)

/-- The statements of a text. -/
def statements? (text : List Char) : Option (List Statement) :=
  match skipGap false text with
  | [] => some []
  | start =>
    match statement? start with
    | none => none
    | some (s, after) =>
      match lineEnd? after with
      | none => none
      | some rest =>
        if _shorter : rest.length < text.length then (statements? rest).map (s :: ·) else none
termination_by text.length

end BrokerAccess.Toml
