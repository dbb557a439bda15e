import BrokerAccess.Proofs.Toml.Quoted
import BrokerAccess.Toml.Document
import BrokerAccess.Toml.Printer

/-!
# Reading written statements

The lines of a written document are read back as the statements that they write down,
provided that their keys need no quotes.
-/

namespace BrokerAccess.Toml

open Quoted (NoQuote skipSpace)

/-- The word can stand as a part of a key without quotes. -/
def IsPlain (word : String) : Prop :=
  word.toList ≠ [] ∧ word.toList.all isBareKeyChar = true

instance (word : String) : Decidable (IsPlain word) :=
  inferInstanceAs (Decidable (word.toList ≠ [] ∧ word.toList.all isBareKeyChar = true))

/-- The keys of the line need no quotes and are short enough to be read. -/
def Line.IsPlain : Line → Prop
  | .element path key =>
    (∀ part ∈ path, Toml.IsPlain part) ∧ Toml.IsPlain key ∧ path.length + 1 < nestingLimit
  | .text key _ => Toml.IsPlain key
  | .texts key _ => Toml.IsPlain key

instance : (line : Line) → Decidable line.IsPlain
  | .element path key =>
    inferInstanceAs (Decidable
      ((∀ part ∈ path, Toml.IsPlain part) ∧ Toml.IsPlain key ∧ path.length + 1 < nestingLimit))
  | .text key _ => inferInstanceAs (Decidable (Toml.IsPlain key))
  | .texts key _ => inferInstanceAs (Decidable (Toml.IsPlain key))

/-- What comes next does not belong to a word in front of it. -/
def EndsWord (rest : List Char) : Prop := ∀ c ∈ rest.head?, isBareKeyChar c = false

/-- Neither white space nor a newline nor a comment comes next. -/
def StartsInk (text : List Char) : Prop := ∀ c ∈ text.head?, c ∉ [' ', '\t', '\n', '\r', '#']

/-- A word ends at a character that it could not have. -/
@[simp]
theorem endsWord_cons {c : Char} {rest : List Char} :
    EndsWord (c :: rest) ↔ isBareKeyChar c = false := by
  simp [EndsWord]

/-- A text starts with ink if its first character is ink. -/
@[simp]
theorem startsInk_cons {c : Char} {rest : List Char} :
    StartsInk (c :: rest) ↔ c ∉ [' ', '\t', '\n', '\r', '#'] := by
  simp [StartsInk]

/-- Nothing is skipped within a line in front of ink. -/
theorem skipSpace_of_startsInk {text : List Char} (h : StartsInk text) : skipSpace text = text := by
  rw [skipSpace]
  · rintro rest rfl
    exact absurd (h ' ' rfl) (by decide)
  · rintro rest rfl
    exact absurd (h '\t' rfl) (by decide)

/-- Nothing is skipped between lines in front of ink. -/
theorem skipGap_of_startsInk {text : List Char} (h : StartsInk text) :
    skipGap false text = text := by
  rw [skipGap]
  · rintro rest rfl
    exact absurd (h '\n' rfl) (by decide)
  · rintro rest rfl
    exact absurd (h '\r' rfl) (by decide)
  · rintro c rest hf
    cases hf
  · rintro rest - rfl
    exact absurd (h ' ' rfl) (by decide)
  · rintro rest - rfl
    exact absurd (h '\t' rfl) (by decide)
  · rintro rest - rfl
    exact absurd (h '#' rfl) (by decide)

/-- A character of a word is no sign with a meaning of its own. -/
theorem notMem_of_isBareKeyChar {c : Char} (h : isBareKeyChar c = true) :
    c ∉ [' ', '\t', '\n', '\r', '#', '"', '\'', '[', '\uFEFF'] := by
  intro hc
  have hall : [' ', '\t', '\n', '\r', '#', '"', '\'', '[', '\uFEFF'].all
      (fun d => !isBareKeyChar d) = true := by decide
  have hnot := List.all_eq_true.mp hall c hc
  rw [h] at hnot
  cases hnot

/-- A word starts with one of its characters. -/
theorem IsPlain.exists_cons {word : String} (h : IsPlain word) :
    ∃ c more, word.toList = c :: more ∧ isBareKeyChar c = true := by
  obtain ⟨c, more, hword⟩ := List.exists_cons_of_ne_nil h.1
  exact ⟨c, more, hword, List.all_eq_true.mp h.2 c (by rw [hword]; exact List.mem_cons_self)⟩

/-- A word starts with ink. -/
theorem IsPlain.startsInk {word : String} (h : IsPlain word) (rest : List Char) :
    StartsInk (word.toList ++ rest) := by
  obtain ⟨c, more, hword, hc⟩ := h.exists_cons
  rw [hword, List.cons_append, startsInk_cons]
  intro hmem
  exact notMem_of_isBareKeyChar hc (List.mem_append_left ['"', '\'', '[', '\uFEFF'] hmem)

/-! ## Keys -/

/-- A word is read back as a part of a key. -/
theorem keyPart?_append {word : String} (h : IsPlain word) {rest : List Char}
    (hrest : EndsWord rest) : keyPart? (word.toList ++ rest) = some (word, rest) := by
  obtain ⟨c, more, hword, hc⟩ := h.exists_cons
  have hnot := notMem_of_isBareKeyChar hc
  have hall := List.all_eq_true.mp h.2
  have hstop : rest.takeWhile isBareKeyChar = [] ∧ rest.dropWhile isBareKeyChar = rest := by
    match rest with
    | [] => exact ⟨rfl, rfl⟩
    | d :: rest => simp [hrest d rfl]
  have htake : (word.toList ++ rest).takeWhile isBareKeyChar = word.toList := by
    rw [List.takeWhile_append_of_pos hall, hstop.1, List.append_nil]
  have hdrop : (word.toList ++ rest).dropWhile isBareKeyChar = rest := by
    rw [List.dropWhile_append_of_pos hall, hstop.2]
  rw [keyPart?, htake, hdrop, String.ofList_toList, if_neg]
  · simpa using h.1
  · intro after ha
    rw [hword] at ha
    obtain rfl : c = '"' := (List.cons.inj ha).1
    exact hnot (by decide)
  · intro after ha
    rw [hword] at ha
    obtain rfl : c = '\'' := (List.cons.inj ha).1
    exact hnot (by decide)

/-- What follows a key: nothing that could belong to it. -/
def EndsKey (rest : List Char) : Prop := EndsWord rest ∧ ∀ c ∈ (skipSpace rest).head?, c ≠ '.'

/-- Words with points between them are read back as the parts of a key. -/
theorem keyParts?_append {path : List String} {key : String} (hpath : ∀ part ∈ path, IsPlain part)
    (hkey : IsPlain key) {rest : List Char} (hrest : EndsKey rest) :
    keyParts? (path.flatMap (fun part => part.toList ++ ['.']) ++ key.toList ++ rest) =
      some (path ++ [key], skipSpace rest) := by
  induction path with
  | nil =>
    rw [List.flatMap_nil, List.nil_append, keyParts?, skipSpace_of_startsInk (hkey.startsInk rest),
      keyPart?_append hkey hrest.1]
    dsimp only
    split
    next more hmore =>
      exact absurd rfl (hrest.2 '.' (by rw [hmore]; rfl))
    next => rfl
  | cons part path ih =>
    rw [List.forall_mem_cons] at hpath
    have hsplit : (part :: path).flatMap (fun part => part.toList ++ ['.']) ++ key.toList ++ rest =
        part.toList ++
          '.' :: (path.flatMap (fun part => part.toList ++ ['.']) ++ key.toList ++ rest) := by
      simp
    rw [hsplit]
    generalize htail : path.flatMap (fun part => part.toList ++ ['.']) ++ key.toList ++ rest =
      tail at ih ⊢
    have hpoint : EndsWord ('.' :: tail) := endsWord_cons.mpr (by decide)
    have hskip : skipSpace ('.' :: tail) = '.' :: tail :=
      skipSpace_of_startsInk (startsInk_cons.mpr (by decide))
    have hshorter : tail.length < (part.toList ++ '.' :: tail).length := by
      rw [List.length_append, List.length_cons]
      omega
    rw [keyParts?, skipSpace_of_startsInk (hpath.1.startsInk _), keyPart?_append hpath.1 hpoint]
    simp only [hskip, dif_pos hshorter, ih hpath.2, Option.map_some, List.cons_append]

/-- Words with points between them are read back as a key. -/
theorem key?_append (path : List String) {key : String} (hpath : ∀ part ∈ path, IsPlain part)
    (hkey : IsPlain key) (hlen : path.length + 1 < nestingLimit) {rest : List Char}
    (hrest : EndsKey rest) :
    key? (path.flatMap (fun part => part.toList ++ ['.']) ++ key.toList ++ rest) =
      some (path, key, skipSpace rest) := by
  have hparts := keyParts?_append hpath hkey hrest
  simp only [key?, hparts, Option.bind_eq_bind, Option.bind_some]
  rw [if_pos (by simpa using hlen), List.getLast?_concat, List.dropLast_concat]
  rfl

/-! ## Values -/

/-- A written text starts with ink. -/
theorem startsInk_write (text rest : List Char) : StartsInk (Quoted.write text ++ rest) := by
  obtain ⟨quote, more, hwrite, hquote⟩ := Quoted.write_eq_quote_cons text
  rw [hwrite, List.cons_append, startsInk_cons]
  rcases hquote with rfl | rfl <;> decide

/-- A written text does not start like an array or an inline table, nor with what ends one. -/
theorem write_append_ne {c : Char} (hdouble : c ≠ '"') (hsingle : c ≠ '\'')
    (text rest after : List Char) : Quoted.write text ++ rest ≠ c :: after := by
  obtain ⟨quote, more, hwrite, hquote⟩ := Quoted.write_eq_quote_cons text
  intro h
  rw [hwrite] at h
  obtain rfl : quote = c := (List.cons.inj h).1
  rcases hquote with rfl | rfl
  · exact hdouble rfl
  · exact hsingle rfl

/-- A written text is read back as a value. -/
theorem value?_write {rest : List Char} (hrest : NoQuote rest) (room : Nat) (s : String) :
    value? room (Quoted.write s.toList ++ rest) = some (.text s, rest) := by
  have hread := Quoted.read?_write hrest s.toList
  obtain ⟨quote, more, hwrite, hquote⟩ := Quoted.write_eq_quote_cons s.toList
  have hflat : flatValue? (Quoted.write s.toList ++ rest) = some (.text s, rest) := by
    rw [flatValue?, hread, hwrite]
    rcases hquote with rfl | rfl <;> simp
  rw [value?, hflat]
  · exact fun _ after _ => write_append_ne (by decide) (by decide) _ _ after
  · exact fun _ after _ => write_append_ne (by decide) (by decide) _ _ after

/-- An item that a comma follows. -/
theorem items?_comma {value : List Char → Option (Value × List Char)}
    {text start after tail : List Char} {v : Value} (hstart : skipGap false text = start)
    (hopen : ∀ rest, start ≠ ']' :: rest) (hv : value start = some (v, after))
    (hafter : skipGap false after = ',' :: tail) (hshorter : tail.length < text.length) :
    items? value text = (items? value tail).map fun (vs, rest) => (v :: vs, rest) := by
  rw [items?, hstart]
  split
  next rest => exact absurd rfl (hopen rest)
  next => simp only [hv, hafter, dif_pos hshorter]

/-- An item that ends the list. -/
theorem items?_last {value : List Char → Option (Value × List Char)}
    {text start after rest : List Char} {v : Value} (hstart : skipGap false text = start)
    (hopen : ∀ rest, start ≠ ']' :: rest) (hv : value start = some (v, after))
    (hafter : skipGap false after = ']' :: rest) : items? value text = some ([v], rest) := by
  rw [items?, hstart]
  split
  next rest => exact absurd rfl (hopen rest)
  next => simp only [hv, hafter]

/-- The items of a list, a line for each, are read back. -/
theorem items?_lines (room : Nat) (list : List String) (rest : List Char) :
    items? (value? room) ('\n' :: (list.flatMap (fun s =>
        [' ', ' ', ' ', ' '] ++ Quoted.write s.toList ++ [',', '\n']) ++ ']' :: rest)) =
      some (list.map .text, rest) := by
  induction list with
  | nil =>
    rw [items?]
    rfl
  | cons s list ih =>
    have hsplit : (s :: list).flatMap (fun s =>
          [' ', ' ', ' ', ' '] ++ Quoted.write s.toList ++ [',', '\n']) ++ ']' :: rest =
        [' ', ' ', ' ', ' '] ++ (Quoted.write s.toList ++ ',' :: '\n' ::
          (list.flatMap (fun s =>
            [' ', ' ', ' ', ' '] ++ Quoted.write s.toList ++ [',', '\n']) ++ ']' :: rest)) := by
      simp
    rw [hsplit]
    generalize '\n' :: (list.flatMap (fun s =>
      [' ', ' ', ' ', ' '] ++ Quoted.write s.toList ++ [',', '\n']) ++ ']' :: rest) = tail at ih ⊢
    have hcomma : NoQuote (',' :: tail) := by simp
    have hstart : skipGap false ('\n' :: ([' ', ' ', ' ', ' '] ++
        (Quoted.write s.toList ++ ',' :: tail))) = Quoted.write s.toList ++ ',' :: tail := by
      simp only [List.cons_append, List.nil_append, skipGap]
      exact skipGap_of_startsInk (startsInk_write s.toList _)
    have hafter : skipGap false (',' :: tail) = ',' :: tail :=
      skipGap_of_startsInk (startsInk_cons.mpr (by decide))
    rw [items?_comma hstart (write_append_ne (by decide) (by decide) _ _)
      (value?_write hcomma room s) hafter, ih]
    · rfl
    · simp only [List.length_append, List.length_cons]
      omega

/-- A list of strings is written in brackets, and what they hold is read back as its items. -/
theorem exists_writeTexts (room : Nat) (list : List String) (rest : List Char) :
    ∃ body, writeTexts list ++ rest = '[' :: body ∧
      items? (value? room) body = some (list.map .text, rest) := by
  have hclose : skipGap false (']' :: rest) = ']' :: rest :=
    skipGap_of_startsInk (startsInk_cons.mpr (by decide))
  match list with
  | [] =>
    refine ⟨']' :: rest, rfl, ?_⟩
    rw [items?, hclose]
    rfl
  | [s] =>
    refine ⟨Quoted.write s.toList ++ ']' :: rest, by simp [writeTexts], ?_⟩
    have hstart := skipGap_of_startsInk (startsInk_write s.toList (']' :: rest))
    have hquote : NoQuote (']' :: rest) := by simp
    have hv := value?_write hquote room s
    exact items?_last hstart (write_append_ne (by decide) (by decide) _ _) hv hclose
  | s :: s' :: list =>
    exact ⟨_, by simp [writeTexts], items?_lines room (s :: s' :: list) rest⟩

/-- A list of strings in brackets is read back as a value. -/
theorem value?_writeTexts (room : Nat) (list : List String) (rest : List Char) :
    value? (room + 1) (writeTexts list ++ rest) = some (.array (list.map .text), rest) := by
  obtain ⟨body, hwrite, hitems⟩ := exists_writeTexts room list rest
  rw [hwrite, value?, hitems]
  rfl

/-- A list of strings in brackets starts with ink. -/
theorem startsInk_writeTexts (list : List String) (rest : List Char) :
    StartsInk (writeTexts list ++ rest) := by
  obtain ⟨body, hwrite, _⟩ := exists_writeTexts 0 list rest
  rw [hwrite, startsInk_cons]
  decide

/-! ## Statements -/

/-- An assignment is read back if its value is. -/
theorem assignment?_append {value : List Char → Option (Value × List Char)} {key : String}
    (hkey : IsPlain key) {written rest : List Char} {v : Value} (hink : StartsInk (written ++ rest))
    (hv : value (written ++ rest) = some (v, rest)) :
    assignment? value (key.toList ++ [' ', '=', ' '] ++ written ++ rest) =
      some ([], key, v, rest) := by
  have hends : EndsKey (' ' :: '=' :: ' ' :: (written ++ rest)) := by
    refine ⟨endsWord_cons.mpr (by decide), ?_⟩
    simp [skipSpace]
  have hread := key?_append [] (by simp) hkey (by decide) hends
  have hsplit : key.toList ++ [' ', '=', ' '] ++ written ++ rest =
      key.toList ++ ' ' :: '=' :: ' ' :: (written ++ rest) := by simp
  have hskip : skipSpace (' ' :: (written ++ rest)) = written ++ rest := by
    rw [skipSpace, skipSpace_of_startsInk hink]
  rw [hsplit]
  rw [List.flatMap_nil, List.nil_append] at hread
  simp [assignment?, hread, skipSpace, hskip, hv]

/-- An assignment is no header. -/
theorem statement?_of_isPlain {key : String} (hkey : IsPlain key) (rest : List Char) :
    statement? (key.toList ++ rest) =
      (assignment? (value? (nestingLimit - 1)) (key.toList ++ rest)).map
        fun (path, key, v, rest) => (.assign path key v, rest) := by
  obtain ⟨c, more, hword, hc⟩ := hkey.exists_cons
  have hopen : c ≠ '[' := by
    rintro rfl
    exact notMem_of_isBareKeyChar hc (by decide)
  rw [statement?]
  · cases assignment? (value? (nestingLimit - 1)) (key.toList ++ rest) <;> rfl
  · intro after ha
    rw [hword] at ha
    exact hopen (List.cons.inj ha).1
  · intro after ha
    rw [hword] at ha
    exact hopen (List.cons.inj ha).1

/-- A line is read back as the statement that it writes down. -/
theorem statement?_write {line : Line} (h : line.IsPlain) {rest : List Char}
    (hrest : NoQuote rest) : statement? (line.write ++ rest) = some (line.statement, rest) := by
  cases line with
  | element path key =>
    obtain ⟨hpath, hkey, hlen⟩ := h
    have hends : EndsKey (']' :: ']' :: rest) := by
      refine ⟨endsWord_cons.mpr (by decide), ?_⟩
      simp [skipSpace]
    have hread := key?_append path hpath hkey hlen hends
    have hsplit : (Line.element path key).write ++ rest =
        '[' :: '[' :: (path.flatMap (fun part => part.toList ++ ['.']) ++ key.toList ++
          ']' :: ']' :: rest) := by
      simp [Line.write]
    rw [hsplit, statement?, hread]
    rfl
  | text key s =>
    have hv := value?_write hrest (nestingLimit - 1) s
    have hread := assignment?_append h (startsInk_write s.toList rest) hv
    have hsplit : (Line.text key s).write ++ rest =
        key.toList ++ ([' ', '=', ' '] ++ Quoted.write s.toList ++ rest) := by
      simp [Line.write]
    rw [hsplit, statement?_of_isPlain h]
    simp only [← List.append_assoc, hread]
    rfl
  | texts key list =>
    have hv : value? (nestingLimit - 1) (writeTexts list ++ rest) = _ :=
      value?_writeTexts (nestingLimit - 2) list rest
    have hread := assignment?_append h (startsInk_writeTexts list rest) hv
    have hsplit : (Line.texts key list).write ++ rest =
        key.toList ++ ([' ', '=', ' '] ++ writeTexts list ++ rest) := by
      simp [Line.write]
    rw [hsplit, statement?_of_isPlain h]
    simp only [← List.append_assoc, hread]
    rfl

/-! ## Documents -/

/-- A line starts with a bracket or a word. -/
theorem exists_write_cons {line : Line} (h : line.IsPlain) :
    ∃ c more, line.write = c :: more ∧ (c = '[' ∨ isBareKeyChar c = true) := by
  have hword {key : String} (hkey : IsPlain key) (written : List Char) :
      ∃ c more, key.toList ++ [' ', '=', ' '] ++ written = c :: more ∧
        (c = '[' ∨ isBareKeyChar c = true) := by
    obtain ⟨c, more, hkey, hc⟩ := hkey.exists_cons
    exact ⟨c, more ++ [' ', '=', ' '] ++ written, by rw [hkey]; rfl, Or.inr hc⟩
  cases line with
  | element path key => exact ⟨'[', _, rfl, Or.inl rfl⟩
  | text key s => exact hword h (Quoted.write s.toList)
  | texts key list => exact hword h (writeTexts list)

/-- Nothing is skipped in front of a line. -/
theorem startsInk_line {line : Line} (h : line.IsPlain) (rest : List Char) :
    StartsInk (line.write ++ rest) := by
  obtain ⟨c, more, hwrite, hc⟩ := exists_write_cons h
  rw [hwrite, List.cons_append, startsInk_cons]
  rcases hc with rfl | hc
  · decide
  · intro hmem
    exact notMem_of_isBareKeyChar hc (List.mem_append_left ['"', '\'', '[', '\uFEFF'] hmem)

/-- A line and what follows it are read back as its statement and what follows that. -/
theorem statements?_of_line {line : Line} (h : line.IsPlain) {text rest : List Char}
    (htext : skipGap false text = line.write ++ '\n' :: rest)
    (hshorter : rest.length < text.length) :
    statements? text = (statements? rest).map (line.statement :: ·) := by
  have hquote : NoQuote ('\n' :: rest) := by simp
  have hread := statement?_write h hquote
  have hend : lineEnd? ('\n' :: rest) = some rest := by
    simp [lineEnd?, skipSpace, Quoted.afterNewline?]
  obtain ⟨c, more, hwrite, _⟩ := exists_write_cons h
  rw [statements?, htext]
  split
  next hnil =>
    rw [hwrite] at hnil
    cases hnil
  next => simp only [hread, hend, dif_pos hshorter]

/-- Lines that follow others are read back, blank lines and all. -/
theorem statements?_writeFollowing {lines : List Line} (h : ∀ line ∈ lines, line.IsPlain) :
    statements? (writeFollowing lines) = some (lines.map Line.statement) := by
  induction lines with
  | nil => simp [writeFollowing, statements?, skipGap]
  | cons line lines ih =>
    rw [List.forall_mem_cons] at h
    have hsplit : writeFollowing (line :: lines) =
        line.gap ++ (line.write ++ '\n' :: writeFollowing lines) := by
      simp [writeFollowing]
    have hink := startsInk_line h.1 ('\n' :: writeFollowing lines)
    have hgap : skipGap false (line.gap ++ (line.write ++ '\n' :: writeFollowing lines)) =
        line.write ++ '\n' :: writeFollowing lines := by
      cases line with
      | element path key =>
        rw [Line.gap, List.singleton_append, skipGap, skipGap_of_startsInk hink]
      | text key s => exact skipGap_of_startsInk hink
      | texts key list => exact skipGap_of_startsInk hink
    rw [hsplit, statements?_of_line h.1 hgap, ih h.2]
    · rfl
    · simp only [List.length_append, List.length_cons]
      omega

/-- A written document is read back as its statements. -/
theorem statements?_writeLines {lines : List Line} (h : ∀ line ∈ lines, line.IsPlain) :
    statements? (dropMark (writeLines lines)) = some (lines.map Line.statement) := by
  cases lines with
  | nil => simp [writeLines, dropMark, statements?, skipGap]
  | cons line lines =>
    rw [List.forall_mem_cons] at h
    have hmark : dropMark (writeLines (line :: lines)) = writeLines (line :: lines) := by
      obtain ⟨c, more, hwrite, hc⟩ := exists_write_cons h.1
      rw [writeLines, hwrite, dropMark]
      rintro rest ha
      obtain rfl : c = '\uFEFF' := (List.cons.inj ha).1
      rcases hc with hc | hc <;> exact absurd hc (by decide)
    have hgap := skipGap_of_startsInk (startsInk_line h.1 ('\n' :: writeFollowing lines))
    rw [hmark, writeLines, statements?_of_line h.1 hgap, statements?_writeFollowing h.2]
    · rfl
    · simp only [List.length_append, List.length_cons]
      omega

end BrokerAccess.Toml
