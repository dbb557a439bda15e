import BrokerAccess.Journal
import BrokerAccess.Text.Alphanumeric
import BrokerAccess.Text.Blank
import BrokerAccess.Text.Decimal
import BrokerAccess.Text.Fields
import BrokerAccess.Text.Pattern

/-!
# Log filters

Which events the log shows. A filter is a list of directives, each with a level, for all
events or only for those of sources that start with a target, or for those that carry a
field. Of the directives that apply to an event the closest decides: the one with the
longest target, and among those with the same target one with a field. A directive for a
span, or for the value of a field, applies to no event here.
-/

namespace BrokerAccess

/-- A directive of a log filter. -/
structure LogDirective where
  /-- The start of the sources that it applies to; absent for all of them. -/
  target : Option String := none
  /-- The field that the events carry that it applies to; absent for all of them. -/
  field : Option String := none
  /-- The lowest level shown; absent if nothing is. -/
  level : Option Level
  deriving DecidableEq, Repr

/-- A log filter. -/
abbrev LogFilter := List LogDirective

namespace LogFilter

/-- The lowest level shown, by its number. -/
def levelOfNumber? : Nat → Option (Option Level)
  | 0 => some none
  | 1 => some (some .error)
  | 2 => some (some .warn)
  | 3 => some (some .info)
  | 4 => some (some .debug)
  | 5 => some (some .trace)
  | _ => none

/-- The lowest level shown by a word for one, in any case, or by a number. -/
def level? (word : List Char) : Option (Option Level) :=
  match String.ofList (word.map Char.toLower) with
  | "off" => some none
  | "error" => some (some .error)
  | "warn" => some (some .warn)
  | "info" => some (some .info)
  | "debug" => some (some .debug)
  | "trace" => some (some .trace)
  | _ => (Decimal.readBelow? 6 word).bind levelOfNumber?

/-- A target, and a level without one, starts with such a character. -/
def isStart (c : Char) : Bool := Text.isAlphanumeric c || c = '_' || c = ':' || c = '-'

/-- The text of a directive, ready to be cut. The marks at which it is cut are sought in the text
without blanks around it; what is cut is the text as given, at the same distances from its start. -/
abbrev Cells := List (Char × Char)

/-- The text of some cells. -/
def Cells.text (cells : Cells) : List Char := cells.map Prod.snd

/-- The level that ends a directive, when the text goes on with `rest` after the cells: none at all
is the lowest. -/
def levelPart? (rest : List Char) : Cells → Option (Option Level)
  | [] => some (some .trace)
  | ('=', _) :: cells =>
    let word := Cells.text cells ++ rest
    if word.isEmpty then some (some .trace) else level? word
  | _ => none

/-- A value that fields can be compared with: a pattern, or a number with its sign. -/
def isValue (text : List Char) : Bool :=
  Text.Pattern.isPattern text || (text.head? = some '+' && Decimal.isMagnitude text.tail)

/-- A directive that goes on with a span after its target. Only one that names a field, and neither
a span nor a value, is for events. -/
def spanDirective? (target : Option String) (rest : List Char) (cells : Cells) :
    Option (Option LogDirective) :=
  let inName : Char × Char → Bool := fun cell => cell.1 ≠ ']' && cell.1 ≠ '{'
  match cells.dropWhile inName with
  | [] => none
  | (']', _) :: cells => (levelPart? rest cells).map fun _ => none
  | _ :: inner =>
    let field := Cells.text (inner.takeWhile fun cell => cell.1 ≠ '}')
    match inner.dropWhile fun cell => cell.1 ≠ '}' with
    | _ :: (']', _) :: after =>
      let values := (fields '=' field).tail
      if field.isEmpty || !values.head?.all isValue then none
      else
        (levelPart? rest after).map fun level =>
          if (cells.takeWhile inName).isEmpty && values.isEmpty then
            some ⟨target, some (String.ofList field), level⟩
          else none
    | _ => none

/-- A directive, none inside if it is not for events. A text without marks is a level if it can be
one, and otherwise a target. -/
def directive? (text : List Char) : Option (Option LogDirective) :=
  let bare := Text.withoutMargins text
  let cells : Cells := bare.zip text
  let rest := text.drop bare.length
  let inTarget : Char × Char → Bool := fun cell => cell.1 ≠ '=' && cell.1 ≠ '['
  match cells with
  | [] => none
  | ('[', _) :: inner => spanDirective? none rest inner
  | (c, _) :: _ =>
    let target := String.ofList (Cells.text (cells.takeWhile inTarget))
    if !isStart c then none
    else
      match cells.dropWhile inTarget with
      | [] =>
        match level? text with
        | some level => some (some { level })
        | none => some (some { target := String.ofList text, level := some .trace })
      | ('[', _) :: inner => spanDirective? (some target) rest inner
      | after => (levelPart? rest after).map fun level => some { target, level }

/-- The filter of a text: directives between commas. Without any, errors are shown. -/
def parse? (text : String) : Option LogFilter :=
  match (fields ',' text.toList).filter (!·.isEmpty) with
  | [] => some [{ level := some .error }]
  | parts => (parts.mapM directive?).map fun directives => directives.filterMap id

/-- The filter of a service whose operator asks for none, or for one that cannot be read. -/
def standard : LogFilter := [{ target := "file_rbac", level := some .info }]

/-- The filter that the operator's choice gives. -/
def ofChoice (choice : Option String) : LogFilter := (choice.bind parse?).getD standard

/-- The directive applies to an event. -/
def applies (d : LogDirective) (e : Event) : Bool :=
  (d.target.all fun target => target.toList.isPrefixOf e.source.toList) &&
    d.field.all fun field => field ∈ e.fieldNames

/-- Of two directives for one event, the first is at least as close to it as the second. -/
def isAsClose (d other : LogDirective) : Bool :=
  ((compare (d.target.map String.length) (other.target.map String.length)).then
    (compare d.field other.field)).isGE

/-- The directive that decides on an event: the closest, and the later of two equally close. -/
def deciding (f : LogFilter) (e : Event) : Option LogDirective :=
  (f.filter (applies · e)).foldl
    (fun best d => if best.all (isAsClose d) then some d else best)
    none

/-- The log shows an event. -/
def shows (f : LogFilter) (e : Event) : Bool :=
  match (f.deciding e).bind LogDirective.level with
  | some level => level.rank ≤ e.level.rank
  | none => false

/-- The log lines of a journal. -/
def lines (f : LogFilter) (j : Journal) : List String := (j.events.filter f.shows).map Event.line

end LogFilter

end BrokerAccess
