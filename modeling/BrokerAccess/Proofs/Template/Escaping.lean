import BrokerAccess.Proofs.Template

/-!
# Templates that stand for a text

Every text has a template that stands for it, whoever connects: the text with a section sign
directly before each opening. Within such a template no opening is bare, because a sign that is
put in begins no opening and openings do not overlap, so the scan drops exactly the signs that
were put in. Signs and closings of the text itself stay as they are.
-/

namespace BrokerAccess.Template

/-- A text with a section sign directly before each opening in it. -/
def escaped : List Char → List Char
  | [] => []
  | c :: rest =>
    if opener <+: c :: rest then escape :: c :: escaped rest else c :: escaped rest

/-- The template that stands for a text. -/
def verbatim (text : String) : String := String.ofList (escaped text.toList)

/-- A character at which no opening starts is kept. -/
theorem escaped_cons {c : Char} {rest : List Char} (h : ¬opener <+: c :: rest) :
    escaped (c :: rest) = c :: escaped rest := by
  rw [escaped, if_neg h]

/-- No opening starts at a character that is not the first of one. -/
theorem not_isPrefix_cons {c : Char} (h : c ≠ '$') (rest : List Char) :
    ¬opener <+: c :: rest := by
  rw [opener, List.cons_prefix_cons]
  exact fun hprefix => h hprefix.1.symm

/-- A brace is kept. -/
theorem escaped_brace (rest : List Char) : escaped ('{' :: rest) = '{' :: escaped rest :=
  escaped_cons (not_isPrefix_cons (by decide) rest)

/-- An opening gets a sign. -/
theorem escaped_opener_append (rest : List Char) :
    escaped (opener ++ rest) = escape :: opener ++ escaped rest := by
  have hfirst : opener <+: '$' :: '{' :: '{' :: rest := ⟨rest, rfl⟩
  show escaped ('$' :: '{' :: '{' :: rest) = escape :: '$' :: '{' :: '{' :: escaped rest
  rw [escaped, if_pos hfirst, escaped_brace, escaped_brace]

/-- The text before an opening is escaped for itself: no opening reaches into the next. -/
theorem escaped_append_opener (before after : List Char) :
    escaped (before ++ opener ++ after) = escaped before ++ escape :: opener ++ escaped after := by
  induction before with
  | nil => exact escaped_opener_append after
  | cons c before ih =>
    have hstarts : opener <+: c :: (before ++ opener ++ after) ↔ opener <+: c :: before := by
      simp only [opener, List.cons_prefix_cons]
      refine and_congr_right fun _ => ?_
      match before with
      | [] => simp
      | [b] => simp
      | b :: b' :: before => simp
    rw [List.cons_append, List.cons_append, escaped, escaped]
    by_cases h : opener <+: c :: before
    · rw [if_pos h, if_pos (hstarts.mpr h), ih]
      rfl
    · rw [if_neg h, if_neg (mt hstarts.mp h), ih]
      rfl

/-- A text without an opening needs no sign. -/
theorem escaped_of_not_isInfix {text : List Char} (h : ¬opener <:+: text) :
    escaped text = text := by
  induction text with
  | nil => rfl
  | cons c rest ih =>
    rw [escaped_cons fun hprefix => h hprefix.isInfix, ih fun hrest => h (List.infix_cons hrest)]

/-- A brace at the start of an escaped text is the text's own. -/
theorem exists_cons_of_escaped {text more : List Char} (h : escaped text = '{' :: more) :
    ∃ rest, text = '{' :: rest ∧ escaped rest = more := by
  cases text with
  | nil => cases h
  | cons c rest =>
    rw [escaped] at h
    split at h
    · have hsign : escape = '{' := (List.cons.inj h).1
      exact absurd hsign (by decide)
    · obtain ⟨rfl, hmore⟩ := List.cons.inj h
      exact ⟨rest, rfl, hmore⟩

/-- An escaped text does not start with an opening. -/
theorem not_isPrefix_escaped (text : List Char) : ¬opener <+: escaped text := by
  cases text with
  | nil => decide
  | cons c rest =>
    by_cases h : opener <+: c :: rest
    · rw [escaped, if_pos h]
      exact not_isPrefix_cons (by decide) _
    · rw [escaped_cons h]
      rintro ⟨more, hmore⟩
      -- What follows the first character is kept as well, so the text had the opening.
      obtain ⟨rfl, hrest⟩ := List.cons.inj hmore
      obtain ⟨rest', rfl, hrest'⟩ := exists_cons_of_escaped hrest.symm
      obtain ⟨rest'', rfl, _⟩ := exists_cons_of_escaped hrest'
      exact h ⟨rest'', rfl⟩

/-- A sign before an opening is dropped, and the opening stands for itself. -/
theorem segments_escape_opener (rest : List Char) :
    segments (escape :: '$' :: '{' :: '{' :: rest) =
      .literal '$' :: segments ('{' :: '{' :: rest) := by
  have hbrace (rest : List Char) : segments ('{' :: rest) = .literal '{' :: segments rest :=
    segments_cons (not_isPrefix_cons (by decide) _) fun hprefix =>
      absurd (List.cons_prefix_cons.mp hprefix).1 (by decide)
  rw [hbrace, hbrace]
  exact segments.eq_1 rest

/-- The segments of an escaped text are the characters of the text. -/
theorem segments_escaped (text : List Char) : segments (escaped text) = text.map .literal := by
  induction text with
  | nil => rw [escaped, segments, List.map_nil]
  | cons c rest ih =>
    by_cases h : opener <+: c :: rest
    · obtain ⟨after, hafter⟩ := h
      obtain ⟨rfl, rfl⟩ := List.cons.inj hafter
      have hbraces : escaped ('{' :: '{' :: after) = '{' :: '{' :: escaped after := by
        rw [escaped_brace, escaped_brace]
      have hsigned : escaped ('$' :: '{' :: '{' :: after) =
          escape :: '$' :: '{' :: '{' :: escaped after := escaped_opener_append after
      show segments (escaped ('$' :: '{' :: '{' :: after)) = _
      rw [hsigned, segments_escape_opener, ← hbraces]
      exact congrArg (Segment.literal '$' :: ·) ih
    · have hopen : ¬opener <+: c :: escaped rest := by
        rw [← escaped_cons h]
        exact not_isPrefix_escaped (c :: rest)
      have hsign : ¬escape :: opener <+: c :: escaped rest := fun hprefix =>
        not_isPrefix_escaped rest (List.cons_prefix_cons.mp hprefix).2
      rw [escaped_cons h, segments_cons hopen hsign, ih, List.map_cons]

/-- Literal segments are rendered as they are. -/
theorem render_map_literal (clientId userName text : List Char) :
    render clientId userName (text.map .literal) = text := by
  induction text with
  | nil => rfl
  | cons c rest ih => rw [List.map_cons, render, ih]

/-- Everything can be escaped. With a section sign put directly before each opening, wherever it
stands, and nothing else changed, a text becomes a template that stands for that text, whatever the
client and the user are called. -/
theorem substitute_verbatim :
    (∀ before after, verbatim (before ++ String.ofList opener ++ after) =
      verbatim before ++ String.ofList (escape :: opener) ++ verbatim after) ∧
    (∀ text, ¬opener <:+: text.toList → verbatim text = text) ∧
    ∀ text clientId userName, substitute (verbatim text) clientId userName = text := by
  refine ⟨?_, ?_, ?_⟩
  · intro before after
    rw [← String.toList_inj]
    simp only [verbatim, String.toList_append, String.toList_ofList, escaped_append_opener]
  · intro text hopen
    rw [verbatim, escaped_of_not_isInfix hopen, String.ofList_toList]
  · intro text clientId userName
    rw [substitute, verbatim, String.toList_ofList, segments_escaped, render_map_literal,
      String.ofList_toList]

/-- A sign that stands before an opening gets one of its own, and an opening right after a closing
gets one as well. -/
example : verbatim "§${{clientid}}${{username}}" = "§§${{clientid}}§${{username}}" := by
  decide +kernel

end BrokerAccess.Template
