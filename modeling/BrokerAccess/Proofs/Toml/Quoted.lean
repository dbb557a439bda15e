import BrokerAccess.Toml.Quoting

/-!
# Reading written quotes

Whatever a text holds, the form in which it is written is read back as that text and nothing
more, provided that no quote follows. In the forms of several lines the quotes at the end of
a text merge with those that close it, and are told apart by their number.
-/

namespace BrokerAccess.Toml.Quoted

/-- No quote of either kind comes next. -/
def NoQuote (rest : List Char) : Prop := ∀ c ∈ rest.head?, c ≠ '"' ∧ c ≠ '\''

/-- No quote comes next if the next character is none. -/
@[simp]
theorem noQuote_cons {c : Char} {rest : List Char} :
    NoQuote (c :: rest) ↔ c ≠ '"' ∧ c ≠ '\'' := by
  simp [NoQuote]

/-- A hexadecimal digit is read as its value. -/
theorem hexValue?_hexDigit {n : Nat} (h : n < 16) : hexValue? (hexDigit n) = some n := by
  have hall : ∀ n < 16, hexValue? (hexDigit n) = some n := by decide
  exact hall n h

/-- What is no control character can stand in quotes, unless it is a newline. -/
theorem printable_of_isControl {c : Char} (h : isControl c = false) (hn : c ≠ '\n') :
    printable c = true := by
  unfold isControl at h
  unfold printable
  grind

/-- A character that can stand in quotes is no line break. -/
theorem ne_of_printable {c : Char} (h : printable c = true) : c ≠ '\n' ∧ c ≠ '\r' := by
  constructor
  · rintro rfl
    cases h
  · rintro rfl
    cases h

/-- Four digits are read as the code point of a control character. -/
theorem codePoint?_of_isControl {c : Char} (h : isControl c = true) (rest : List Char) :
    codePoint? 4 ('0' :: '0' :: hexDigit (c.toNat / 16) :: hexDigit (c.toNat % 16) :: rest) =
      some (c, rest) := by
  have hlt : c.toNat < 128 := by
    unfold isControl at h
    grind
  have hhigh := hexValue?_hexDigit (show c.toNat / 16 < 16 by omega)
  have hlow := hexValue?_hexDigit (show c.toNat % 16 < 16 by omega)
  have hzero : hexValue? '0' = some 0 := rfl
  have hvalid : c.toNat.isValidChar := Or.inl (by omega)
  have hjoin : ((0 * 16 + 0) * 16 + 0) * 16 + c.toNat / 16 = c.toNat / 16 := by omega
  simp only [codePoint?, List.take, List.drop, List.mapM_cons, List.mapM_nil, hzero, hhigh, hlow,
    Option.pure_def, Option.bind_eq_bind, Option.bind_some, List.length_cons, List.length_nil,
    List.foldl_cons, List.foldl_nil, Nat.zero_mul, Nat.zero_add, if_true, Nat.div_add_mod',
    hvalid, Char.ofNat_toNat]

/-- A character is written between double quotes as it is, or as an escape that is read back. -/
theorem escape_cases (c : Char) :
    (escape c = [c] ∧ printable c = true ∧ c ≠ '"' ∧ c ≠ '\\') ∨
      ∃ more, escape c = '\\' :: more ∧ ∀ rest,
        joinedLine? (more ++ rest) = none ∧ escaped? (more ++ rest) = some (c, rest) := by
  unfold escape
  split
  next h => exact Or.inr ⟨_, rfl, fun _ => ⟨rfl, by rw [h]; rfl⟩⟩
  next =>
  split
  next h => exact Or.inr ⟨_, rfl, fun _ => ⟨rfl, by rw [h]; rfl⟩⟩
  next =>
  split
  next h => exact Or.inr ⟨_, rfl, fun _ => ⟨rfl, by rw [h]; rfl⟩⟩
  next hn =>
  split
  next h => exact Or.inr ⟨_, rfl, fun _ => ⟨rfl, by rw [h]; rfl⟩⟩
  next =>
  split
  next h => exact Or.inr ⟨_, rfl, fun _ => ⟨rfl, by rw [h]; rfl⟩⟩
  next =>
  split
  next h => exact Or.inr ⟨_, rfl, fun _ => ⟨rfl, by rw [h]; rfl⟩⟩
  next hq =>
  split
  next h => exact Or.inr ⟨_, rfl, fun _ => ⟨rfl, by rw [h]; rfl⟩⟩
  next hb =>
  split
  next h =>
    refine Or.inr ⟨_, rfl, fun rest => ⟨rfl, ?_⟩⟩
    exact codePoint?_of_isControl h rest
  next h =>
    exact Or.inl ⟨rfl, printable_of_isControl (Bool.eq_false_iff.mpr h) hn, hq, hb⟩

/-! ## One line -/

/-- A written character is read back between double quotes. -/
theorem basic?_escape (c : Char) (rest : List Char) :
    basic? (escape c ++ rest) = (basic? rest).map (push c) := by
  rcases escape_cases c with ⟨he, hp, hq, hb⟩ | ⟨more, he, hread⟩
  · rw [he, List.singleton_append, basic?]
    · rw [if_pos hp]
    · exact hq
    · exact hb
  · rw [he, List.cons_append, basic?]
    split
    next hnone => rw [(hread rest).2] at hnone; cases hnone
    next c' after hsome => rw [(hread rest).2] at hsome; cases hsome; rfl

/-- A text with its escapes is read back up to the closing double quote. -/
theorem basic?_flatMap_escape (text rest : List Char) :
    basic? (text.flatMap escape ++ '"' :: rest) = some (text, rest) := by
  induction text with
  | nil => rw [List.flatMap_nil, List.nil_append, basic?]
  | cons c text ih =>
    rw [List.flatMap_cons, List.append_assoc, basic?_escape, ih]
    rfl

/-- A text as it stands is read back up to the closing single quote. -/
theorem literal?_append {text : List Char} (h : ∀ c ∈ text, printable c = true ∧ c ≠ '\'')
    (rest : List Char) : literal? (text ++ '\'' :: rest) = some (text, rest) := by
  induction text with
  | nil => rfl
  | cons c text ih =>
    rw [List.forall_mem_cons] at h
    rw [List.cons_append, literal?, if_pos h.1.1, ih h.2]
    · rfl
    · exact h.1.2

/-! ## Several lines -/

/-- Without a quote ahead nothing is left over behind three quotes. -/
theorem surplus_of_head {quote : Char} {rest : List Char} (h : ∀ c ∈ rest.head?, c ≠ quote) :
    surplus quote rest = ([], rest) := by
  match rest with
  | [] => rfl
  | [a] => rw [surplus, if_neg (h a rfl)]
  | a :: b :: rest => rw [surplus, if_neg (h a rfl)]

/-- One quote behind three others belongs to the text. -/
theorem surplus_one {quote : Char} {rest : List Char} (h : ∀ c ∈ rest.head?, c ≠ quote) :
    surplus quote (quote :: rest) = ([quote], rest) := by
  match rest with
  | [] => rw [surplus, if_pos rfl]
  | a :: rest => rw [surplus, if_pos rfl, if_neg (h a rfl)]

/-- Two quotes behind three others belong to the text. -/
theorem surplus_two (quote : Char) (rest : List Char) :
    surplus quote (quote :: quote :: rest) = ([quote, quote], rest) := by
  rw [surplus, if_pos rfl, if_pos rfl]

/-- Three double quotes close a text. -/
theorem longBasic?_close (rest : List Char) :
    longBasic? ('"' :: '"' :: '"' :: rest) = some (surplus '"' rest) := by
  rw [longBasic?]

/-- A double quote that does not close belongs to the text. -/
theorem longBasic?_quote {rest : List Char} (h : ¬['"', '"'] <+: rest) :
    longBasic? ('"' :: rest) = (longBasic? rest).map (push '"') := by
  rw [longBasic?]
  · rfl
  · rintro after - rfl
    exact h ⟨after, rfl⟩
  · decide
  · decide
  · intro after hc
    exact absurd hc (by decide)

/-- A newline belongs to the text. -/
theorem longBasic?_newline (rest : List Char) :
    longBasic? ('\n' :: rest) = (longBasic? rest).map (push '\n') := by
  rw [longBasic?]

/-- A written character is read back between three double quotes. -/
theorem longBasic?_escape (c : Char) (rest : List Char) :
    longBasic? (escape c ++ rest) = (longBasic? rest).map (push c) := by
  rcases escape_cases c with ⟨he, hp, hq, hb⟩ | ⟨more, he, hread⟩
  · obtain ⟨hn, hr⟩ := ne_of_printable hp
    rw [he, List.singleton_append, longBasic?]
    · rw [if_pos hp]
    · intro after hc
      exact absurd hc hq
    · exact hb
    · exact hn
    · intro after hc
      exact absurd hc hr
  · rw [he, List.cons_append, longBasic?]
    split
    next after hsome => rw [(hread rest).1] at hsome; cases hsome
    next =>
      split
      next hnone => rw [(hread rest).2] at hnone; cases hnone
      next c' after hsome => rw [(hread rest).2] at hsome; cases hsome; rfl

/-- What starts with no quote starts a written text with none, and so does any text behind two
quotes, of which the third is escaped. -/
theorem head_longBasicBody {run : Nat} {c : Char} (h : run = 2 ∨ c ≠ '"') (text : List Char) :
    ∃ first more, longBasicBody run (c :: text) = first :: more ∧ first ≠ '"' := by
  by_cases hq : c = '"'
  · subst hq
    obtain rfl : run = 2 := h.resolve_right fun hc => hc rfl
    exact ⟨'\\', '"' :: longBasicBody 0 text, rfl, by decide⟩
  · by_cases hn : c = '\n'
    · subst hn
      exact ⟨'\n', longBasicBody 0 text, rfl, by decide⟩
    · rw [longBasicBody.eq_4 run c text hq hn]
      rcases escape_cases c with ⟨he, _, _, _⟩ | ⟨more, he, _⟩
      · exact ⟨c, longBasicBody 0 text, by rw [he]; rfl, hq⟩
      · exact ⟨'\\', more ++ longBasicBody 0 text, by rw [he]; rfl, by decide⟩

/-- Behind a quote two more follow only where the text ends. -/
theorem not_isPrefix_longBasicBody {run : Nat} {text : List Char} (hrun : run = 1 ∨ run = 2)
    (hne : text ≠ []) (hone : ¬(run = 1 ∧ text = ['"'])) (tail : List Char) :
    ¬['"', '"'] <+: longBasicBody run text ++ tail := by
  have hstart {first : Char} {more : List Char} (hfirst : first ≠ '"') :
      ¬['"'] <+: first :: more ++ tail := by
    rintro ⟨after, ha⟩
    exact hfirst (List.cons.inj ha).1.symm
  obtain ⟨c, text, rfl⟩ := List.exists_cons_of_ne_nil hne
  by_cases hc : run = 2 ∨ c ≠ '"'
  · obtain ⟨first, more, hbody, hfirst⟩ := head_longBasicBody hc text
    rw [hbody]
    exact fun h => hstart hfirst ((List.prefix_append ['"'] ['"']).trans h)
  · obtain ⟨h2, hq⟩ := not_or.mp hc
    obtain rfl : c = '"' := Decidable.not_not.mp hq
    obtain rfl : run = 1 := hrun.resolve_right h2
    have htext : text ≠ [] := by
      rintro rfl
      exact hone ⟨rfl, rfl⟩
    obtain ⟨d, text, rfl⟩ := List.exists_cons_of_ne_nil htext
    obtain ⟨first, more, hbody, hfirst⟩ := head_longBasicBody (c := d) (Or.inl rfl) text
    have hquote : longBasicBody 1 ('"' :: d :: text) = '"' :: first :: more := by
      rw [← hbody]
      rfl
    rw [hquote]
    rintro ⟨after, ha⟩
    exact hstart hfirst ⟨after, (List.cons.inj ha).2⟩

/-- A written text is read back up to the closing three double quotes. -/
theorem longBasic?_longBasicBody {rest : List Char} (hrest : ∀ c ∈ rest.head?, c ≠ '"') {run : Nat}
    (hrun : run ≤ 2) (text : List Char) :
    longBasic? (longBasicBody run text ++ '"' :: '"' :: '"' :: rest) = some (text, rest) := by
  induction text generalizing run with
  | nil => rw [longBasicBody, List.nil_append, longBasic?_close, surplus_of_head hrest]
  | cons c text ih =>
    by_cases hq : c = '"'
    · subst hq
      by_cases h2 : run = 2
      · have hescape := longBasic?_escape '"' (longBasicBody 0 text ++ '"' :: '"' :: '"' :: rest)
        rw [ih (Nat.zero_le 2)] at hescape
        rw [longBasicBody, if_pos h2]
        exact hescape
      · rw [longBasicBody, if_neg h2, List.cons_append]
        by_cases hend : text = [] ∨ run = 0 ∧ text = ['"']
        · -- The quotes at the end of the text run into those that close it.
          rcases hend with rfl | ⟨rfl, rfl⟩
          · rw [longBasicBody, List.nil_append, longBasic?_close, surplus_one hrest]
          · show longBasic? ('"' :: '"' :: '"' :: '"' :: '"' :: rest) = _
            rw [longBasic?_close, surplus_two]
        · obtain ⟨hne, hone⟩ := not_or.mp hend
          rw [longBasic?_quote, ih (by omega)]
          · rfl
          · refine not_isPrefix_longBasicBody (by omega) hne ?_ _
            rintro ⟨hr, ht⟩
            exact hone ⟨by omega, ht⟩
    · by_cases hn : c = '\n'
      · subst hn
        rw [longBasicBody, List.cons_append, longBasic?_newline, ih (Nat.zero_le 2)]
        rfl
      · rw [longBasicBody.eq_4 run c text hq hn, List.append_assoc, longBasic?_escape,
          ih (Nat.zero_le 2)]
        rfl

/-- Behind a quote two more follow only where the text ends, if no three stand in a row. -/
theorem not_isPrefix_of_noTriple {quote : Char} {text : List Char}
    (h : noTriple quote (quote :: text) = true) (hne : text ≠ []) (hone : text ≠ [quote])
    (tail : List Char) : ¬[quote, quote] <+: text ++ tail := by
  rintro ⟨after, ha⟩
  match text with
  | [] => exact hne rfl
  | [a] => exact hone (congrArg (fun c => [c]) (List.cons.inj ha).1.symm)
  | a :: b :: text =>
    obtain ⟨hfirst, ha⟩ := List.cons.inj ha
    obtain ⟨hsecond, _⟩ := List.cons.inj ha
    simp [noTriple, ← hfirst, ← hsecond] at h

/-- A text as it stands is read back up to the closing three single quotes, if no three stand in a
row in it. -/
theorem longLiteral?_append {text rest : List Char} (hrest : ∀ c ∈ rest.head?, c ≠ '\'')
    (hall : ∀ c ∈ text, c = '\n' ∨ printable c = true) (htriple : noTriple '\'' text = true) :
    longLiteral? (text ++ '\'' :: '\'' :: '\'' :: rest) = some (text, rest) := by
  induction text with
  | nil =>
    show some (surplus '\'' rest) = _
    rw [surplus_of_head hrest]
  | cons c text ih =>
    rw [List.forall_mem_cons] at hall
    have htail : noTriple '\'' text = true := by
      match text with
      | [] => rfl
      | [a] => rfl
      | a :: b :: text =>
        rw [noTriple, Bool.and_eq_true] at htriple
        exact htriple.2
    have hnext := ih hall.2 htail
    by_cases hn : c = '\n'
    · subst hn
      rw [List.cons_append, longLiteral?, hnext]
      rfl
    · have hp := hall.1.resolve_left hn
      have hr := (ne_of_printable hp).2
      by_cases hend : c = '\'' ∧ (text = [] ∨ text = ['\''])
      · -- The quotes at the end of the text run into those that close it.
        obtain ⟨rfl, rfl | rfl⟩ := hend
        · show some (surplus '\'' ('\'' :: rest)) = _
          rw [surplus_one hrest]
        · show some (surplus '\'' ('\'' :: '\'' :: rest)) = _
          rw [surplus_two]
      · rw [List.cons_append, longLiteral?.eq_5, if_pos hp, hnext]
        · rfl
        · rintro after rfl ha
          obtain ⟨hne, hone⟩ := not_or.mp fun ht => hend ⟨rfl, ht⟩
          exact not_isPrefix_of_noTriple htriple hne hone _ ⟨after, ha.symm⟩
        · exact hn
        · intro after hc
          exact absurd hc hr

/-! ## Every form -/

/-- Only a newline is dropped at the start of a form of several lines. -/
theorem dropNewline_of_head {body : List Char} (h : ∀ c ∈ body.head?, c ≠ '\n' ∧ c ≠ '\r') :
    dropNewline body = body := by
  unfold dropNewline afterNewline?
  split
  next => exact absurd rfl (h '\n' rfl).1
  next => exact absurd rfl (h '\r' rfl).2
  next => rfl

/-- What a form of several lines opens with is dropped again, be there a newline or none. -/
theorem dropNewline_opening {text body : List Char}
    (h : '\n' ∉ text → ∀ c ∈ body.head?, c ≠ '\n' ∧ c ≠ '\r') :
    dropNewline (opening text ++ body) = body := by
  unfold opening
  split
  next => rfl
  next hn => exact dropNewline_of_head (h (by simpa using hn))

/-- Text in double quotes on one line is read back. -/
theorem read?_writeBasic {rest : List Char} (hrest : ∀ c ∈ rest.head?, c ≠ '"')
    (text : List Char) : read? (writeBasic text ++ rest) = some (text, rest) := by
  have hread := basic?_flatMap_escape text rest
  rw [writeBasic, List.cons_append, List.cons_append, List.append_assoc, List.singleton_append,
    read?.eq_2, hread]
  intro after ha
  match text with
  | [] =>
    rw [List.flatMap_nil, List.nil_append] at ha
    exact hrest '"' (by rw [(List.cons.inj ha).2]; rfl) rfl
  | c :: text =>
    rw [List.flatMap_cons, List.append_assoc] at ha
    rcases escape_cases c with ⟨he, _, hq, _⟩ | ⟨more, he, _⟩
    · rw [he] at ha
      exact hq (List.cons.inj ha).1
    · rw [he] at ha
      exact absurd (List.cons.inj ha).1 (by decide)

/-- Text in single quotes on one line is read back if it can stand there. -/
theorem read?_writeLiteral {text rest : List Char} (hrest : ∀ c ∈ rest.head?, c ≠ '\'')
    (htext : ∀ c ∈ text, printable c = true ∧ c ≠ '\'') :
    read? (writeLiteral text ++ rest) = some (text, rest) := by
  have hread := literal?_append htext rest
  rw [writeLiteral, List.cons_append, List.cons_append, List.append_assoc, List.singleton_append,
    read?.eq_4, hread]
  intro after ha
  match text with
  | [] => exact hrest '\'' (by rw [(List.cons.inj ha).2]; rfl) rfl
  | c :: text => exact (htext c List.mem_cons_self).2 (List.cons.inj ha).1

/-- Text in double quotes on several lines is read back. -/
theorem read?_writeLongBasic {rest : List Char} (hrest : ∀ c ∈ rest.head?, c ≠ '"')
    (text : List Char) : read? (writeLongBasic text ++ rest) = some (text, rest) := by
  have hread := longBasic?_longBasicBody hrest (Nat.zero_le 2) text
  have hopen :
      dropNewline (opening text ++ (longBasicBody 0 text ++ '"' :: '"' :: '"' :: rest)) =
        longBasicBody 0 text ++ '"' :: '"' :: '"' :: rest := by
    refine dropNewline_opening fun hn c hc => ?_
    match text with
    | [] =>
      obtain rfl : '"' = c := Option.some.inj hc
      decide
    | d :: text =>
      have hd : d ≠ '\n' := fun he => hn (he ▸ List.mem_cons_self)
      by_cases hq : d = '"'
      · subst hq
        obtain rfl : '"' = c := Option.some.inj hc
        decide
      · rw [longBasicBody.eq_4 0 d text hq hd, List.append_assoc] at hc
        rcases escape_cases d with ⟨he, hp, _, _⟩ | ⟨more, he, _⟩
        · rw [he] at hc
          obtain rfl : d = c := Option.some.inj hc
          exact ne_of_printable hp
        · rw [he] at hc
          obtain rfl : '\\' = c := Option.some.inj hc
          decide
  rw [← hread, ← hopen]
  simp only [writeLongBasic, List.cons_append, List.append_assoc, List.nil_append, read?]

/-- Text in single quotes on several lines is read back if it can stand there. -/
theorem read?_writeLongLiteral {text rest : List Char} (hrest : ∀ c ∈ rest.head?, c ≠ '\'')
    (hall : ∀ c ∈ text, c = '\n' ∨ printable c = true) (htriple : noTriple '\'' text = true) :
    read? (writeLongLiteral text ++ rest) = some (text, rest) := by
  have hread := longLiteral?_append hrest hall htriple
  have hopen : dropNewline (opening text ++ (text ++ '\'' :: '\'' :: '\'' :: rest)) =
      text ++ '\'' :: '\'' :: '\'' :: rest := by
    refine dropNewline_opening fun hn c hc => ?_
    match text with
    | [] =>
      obtain rfl : '\'' = c := Option.some.inj hc
      decide
    | d :: text =>
      obtain rfl : d = c := Option.some.inj hc
      have hd : d ≠ '\n' := fun he => hn (he ▸ List.mem_cons_self)
      exact ne_of_printable ((hall d List.mem_cons_self).resolve_left hd)
  rw [← hread, ← hopen]
  simp only [writeLongLiteral, List.cons_append, List.append_assoc, List.nil_append, read?]

/-- A written text is read back, whatever it holds. -/
theorem read?_write {rest : List Char} (hrest : NoQuote rest) (text : List Char) :
    read? (write text ++ rest) = some (text, rest) := by
  have hdouble : ∀ c ∈ rest.head?, c ≠ '"' := fun c hc => (hrest c hc).1
  have hsingle : ∀ c ∈ rest.head?, c ≠ '\'' := fun c hc => (hrest c hc).2
  have hclean (h : (!text.any isControl) = true) : ∀ c ∈ text, c = '\n' ∨ printable c = true := by
    intro c hc
    rw [Bool.not_eq_true', List.any_eq_false] at h
    by_cases hn : c = '\n'
    · exact Or.inl hn
    · exact Or.inr (printable_of_isControl (Bool.eq_false_iff.mpr (h c hc)) hn)
  unfold write
  extract_lets clean
  split
  next => exact read?_writeBasic hdouble text
  next =>
  split
  next h =>
    simp only [Bool.and_eq_true] at h
    obtain ⟨⟨hany, hq⟩, hn⟩ := h
    refine read?_writeLiteral hsingle fun c hc => ⟨(hclean hany c hc).resolve_left ?_, ?_⟩
    · rintro rfl
      simp [hc] at hn
    · rintro rfl
      simp [hc] at hq
  next =>
  split
  next => exact read?_writeLongBasic hdouble text
  next =>
  split
  next h =>
    rw [Bool.and_eq_true] at h
    exact read?_writeLongLiteral hsingle (hclean h.1) h.2
  next =>
  split
  next => exact read?_writeLongBasic hdouble text
  next => exact read?_writeBasic hdouble text

/-- A written text starts with a quote. -/
theorem write_eq_quote_cons (text : List Char) :
    ∃ quote more, write text = quote :: more ∧ (quote = '"' ∨ quote = '\'') := by
  unfold write
  extract_lets clean
  repeat' split
  all_goals first
    | exact ⟨_, _, rfl, Or.inl rfl⟩
    | exact ⟨_, _, rfl, Or.inr rfl⟩

end BrokerAccess.Toml.Quoted
