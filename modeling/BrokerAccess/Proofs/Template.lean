import Mathlib
import BrokerAccess.Template

/-!
# The grammar of topic templates

What a template means, said without the scan that reads it: where the next opening stands,
whether a section sign stands directly in front of it, where it is closed, and what the key
between them names. Every text has exactly one reading, the one that the scan finds, and a
filter is that reading with the values of the connection in the place of its keys.
-/

namespace BrokerAccess

/-- A segment as text, for one client. -/
def Segment.text (clientId userName : List Char) : Segment → List Char
  | .literal c => [c]
  | .client => clientId
  | .user => userName

namespace Template

/-- What opens a placeholder. -/
def opener : List Char := ['$', '{', '{']

/-- What closes a placeholder. -/
def closer : List Char := ['}', '}']

/-- What keeps an opening from opening. -/
def escape : Char := '§'

/-- A text is what stands before the first occurrence of a mark, the mark, and what follows it. -/
structure IsFirst (mark before after text : List Char) : Prop where
  /-- The mark stands there. -/
  joined : text = before ++ mark ++ after
  /-- No occurrence starts earlier. -/
  least : ∀ b a, text = b ++ mark ++ a → before.length ≤ b.length

/-- A key spells a word, each letter small or capital. -/
def Spells (word key : List Char) : Prop :=
  List.Forall₂ (fun w c => c = w ∨ c = w.toUpper) word key

/-- What a key stands for. -/
inductive Means : (key : List Char) → List Segment → Prop
  /-- The client identifier. -/
  | client {key : List Char} : Spells "clientid".toList key → Means key [.client]
  /-- The user name. -/
  | user {key : List Char} : Spells "username".toList key → Means key [.user]
  /-- Nothing. -/
  | nothing {key : List Char} : ¬Spells "clientid".toList key → ¬Spells "username".toList key →
      Means key []

/-- The reading of a text as segments. -/
inductive Reads : (text : List Char) → List Segment → Prop
  /-- Without an opening every character stands for itself. -/
  | plain {text : List Char} : ¬opener <:+: text → Reads text (text.map .literal)
  /-- An opening directly after a section sign stands for itself, and the sign is dropped. -/
  | escaped {text before rest : List Char} {more : List Segment} :
      IsFirst opener (before ++ [escape]) rest text → Reads rest more →
      Reads text ((before ++ opener).map .literal ++ more)
  /-- Any other opening takes all up to the first closing as its key. -/
  | placeholder {text before rest key after : List Char} {meaning more : List Segment} :
      IsFirst opener before rest text → before.getLast? ≠ some escape →
      IsFirst closer key after rest → Means key meaning → Reads after more →
      Reads text (before.map .literal ++ meaning ++ more)
  /-- Without a closing, all that is left stands for itself. -/
  | unclosed {text before rest : List Char} :
      IsFirst opener before rest text → before.getLast? ≠ some escape → ¬closer <:+: rest →
      Reads text (text.map .literal)

section Marks

variable {mark text : List Char}

/-- A mark that occurs in a text occurs there for a first time. -/
theorem exists_isFirst (h : mark <:+: text) : ∃ before after, IsFirst mark before after text := by
  classical
  have hsome : ∃ n b a, text = b ++ mark ++ a ∧ b.length = n := by
    obtain ⟨b, a, hb⟩ := h
    exact ⟨b.length, b, a, hb.symm, rfl⟩
  obtain ⟨b, a, hj, hn⟩ := Nat.find_spec hsome
  refine ⟨b, a, hj, ?_⟩
  intro b' a' hj'
  rw [hn]
  exact Nat.find_min' hsome ⟨b', a', hj', rfl⟩

/-- What follows a mark is shorter than the text. -/
theorem IsFirst.length_lt {before after : List Char} (h : IsFirst mark before after text)
    (hm : mark ≠ []) : after.length < text.length := by
  have := List.length_pos_iff.mpr hm
  rw [h.joined, List.length_append, List.length_append]
  omega

end Marks

/-- A key is closed where it is first closed. -/
theorem untilClose_of_isFirst {key after text : List Char} (h : IsFirst closer key after text) :
    untilClose text = some (key, after) := by
  obtain ⟨rfl, hleast⟩ := h
  induction key with
  | nil => rfl
  | cons c key ih =>
    have hih := ih fun b a hb => by
      have hl := hleast (c :: b) a (by rw [List.cons_append, List.cons_append, hb]; rfl)
      simpa only [List.length_cons, Nat.add_le_add_iff_right] using hl
    have hopen (rest : List Char) : c = '}' → key ++ closer ++ after = '}' :: rest → False := by
      intro hc hr
      have hl := hleast [] rest (by rw [List.cons_append, List.cons_append, hr, hc]; rfl)
      exact absurd hl (Nat.not_succ_le_zero key.length)
    rw [List.cons_append, List.cons_append, untilClose.eq_2 _ _ hopen, hih]
    rfl

/-- A text without a closing closes no key. -/
theorem untilClose_eq_none {text : List Char} (h : ¬closer <:+: text) :
    untilClose text = none := by
  fun_induction untilClose text with
  | case1 rest => exact absurd (List.infix_append [] closer rest) h
  | case2 c rest _ ih =>
    rw [ih fun hrest => h (List.infix_cons hrest)]
    rfl
  | case3 => rfl

/-- A letter in its small or its capital form is what lower case makes that letter. -/
theorem toLower_eq_iff {c w : Char} (hw : ¬w.isUpper) : c.toLower = w ↔ c = w ∨ c = w.toUpper := by
  constructor
  · rintro rfl
    by_cases hc : c.isUpper
    · refine Or.inr ?_
      have hl : ¬c.isLower := fun h => Char.not_isUpper_of_isLower h hc
      rw [Char.toUpper_toLower_eq_toUpper, Char.toUpper_eq_of_not_isLower hl]
    · exact Or.inl (Char.toLower_eq_of_not_isUpper hc).symm
  · rintro (rfl | rfl)
    · exact Char.toLower_eq_of_not_isUpper hw
    · rw [Char.toLower_toUpper_eq_toLower, Char.toLower_eq_of_not_isUpper hw]

/-- A key spells a word of small letters exactly when lower case makes it that word. -/
theorem spells_iff {word key : List Char} (hw : ∀ w ∈ word, ¬w.isUpper) :
    Spells word key ↔ key.map Char.toLower = word := by
  induction word generalizing key with
  | nil =>
    rw [Spells, List.forall₂_nil_left_iff, List.map_eq_nil_iff]
  | cons w word ih =>
    rw [List.forall_mem_cons] at hw
    cases key with
    | nil => simp [Spells]
    | cons c key =>
      rw [Spells, List.forall₂_cons, ← toLower_eq_iff hw.1, List.map_cons, List.cons.injEq]
      exact and_congr_right fun _ => ih hw.2

/-- What a key means is what its look-up gives. -/
theorem means_iff (key : List Char) (meaning : List Segment) :
    Means key meaning ↔ meaning = keySegments key := by
  have hclient : Spells "clientid".toList key ↔ _ := spells_iff (by simp)
  have huser : Spells "username".toList key ↔ _ := spells_iff (by simp)
  unfold keySegments
  constructor
  · rintro (hs | hs | ⟨hc, hu⟩)
    · rw [if_pos (hclient.mp hs)]
    · have hne : ¬key.map Char.toLower = "clientid".toList := by
        rw [huser.mp hs]
        decide
      rw [if_neg hne, if_pos (huser.mp hs)]
    · rw [if_neg (mt hclient.mpr hc), if_neg (mt huser.mpr hu)]
  · rintro rfl
    split
    next hc => exact .client (hclient.mpr hc)
    next hc =>
      split
      next hu => exact .user (huser.mpr hu)
      next hu => exact .nothing (mt hclient.mp hc) (mt huser.mp hu)

/-- A character at which neither an opening nor an escaped one starts stands for itself. -/
theorem segments_cons {c : Char} {rest : List Char} (hopen : ¬opener <+: c :: rest)
    (hescaped : ¬escape :: opener <+: c :: rest) :
    segments (c :: rest) = .literal c :: segments rest := by
  refine segments.eq_3 c rest ?_ ?_
  · rintro r rfl rfl
    exact hescaped ⟨r, rfl⟩
  · rintro r rfl rfl
    exact hopen ⟨r, rfl⟩

/-- A stretch of text within which neither an opening nor an escaped one starts stands for
itself. -/
theorem segments_append {before tail : List Char}
    (hopen : ∀ b a, before ++ tail = b ++ opener ++ a → before.length ≤ b.length)
    (hescaped : ∀ b a, before ++ tail = b ++ escape :: opener ++ a → before.length ≤ b.length) :
    segments (before ++ tail) = before.map .literal ++ segments tail := by
  induction before with
  | nil => rfl
  | cons c before ih =>
    have htail {mark : List Char}
        (h : ∀ b a, c :: before ++ tail = b ++ mark ++ a → (c :: before).length ≤ b.length) :
        (¬mark <+: c :: (before ++ tail)) ∧
          ∀ b a, before ++ tail = b ++ mark ++ a → before.length ≤ b.length := by
      constructor
      · rintro ⟨a, ha⟩
        exact absurd (h [] a ha.symm) (Nat.not_succ_le_zero before.length)
      · intro b a ha
        have hl := h (c :: b) a (by rw [List.cons_append, ha]; rfl)
        simpa only [List.length_cons, Nat.add_le_add_iff_right] using hl
    rw [List.cons_append, segments_cons (htail hopen).1 (htail hescaped).1,
      ih (htail hopen).2 (htail hescaped).2]
    rfl

/-- Up to an opening that is not escaped, a text stands for itself. -/
theorem segments_of_isFirst {before rest text : List Char} (h : IsFirst opener before rest text)
    (hbare : before.getLast? ≠ some escape) :
    segments text = before.map .literal ++ segments (opener ++ rest) := by
  obtain ⟨rfl, hleast⟩ := h
  rw [List.append_assoc] at hleast ⊢
  refine segments_append hleast ?_
  intro b a hb
  -- The opening of the escaped one is no earlier than the first, which has no sign before it.
  have hl := hleast (b ++ [escape]) a (by rw [hb]; simp)
  rw [List.length_append, List.length_singleton] at hl
  rcases Nat.lt_or_ge b.length before.length with hlt | hge
  · have hlen : before.length = b.length + 1 := by omega
    have hbefore : before = b ++ [escape] := by
      have ht := congrArg (List.take (b.length + 1)) hb
      rw [List.take_append_of_le_length (by omega), List.take_of_length_le (by omega)] at ht
      rw [ht]
      simp [List.take_append]
    exact absurd (by rw [hbefore, List.getLast?_concat]) hbare
  · exact hge

/-- Up to an escaped opening a text stands for itself, and so does the opening. -/
theorem segments_of_isFirst_escape {before rest text : List Char}
    (h : IsFirst opener (before ++ [escape]) rest text) :
    segments text = (before ++ opener).map .literal ++ segments rest := by
  obtain ⟨rfl, hleast⟩ := h
  have hj : before ++ [escape] ++ opener ++ rest = before ++ (escape :: opener ++ rest) := by simp
  rw [hj] at hleast ⊢
  simp only [List.length_append, List.length_singleton] at hleast
  have happend : segments (before ++ (escape :: opener ++ rest)) =
      before.map .literal ++ segments (escape :: opener ++ rest) := by
    refine segments_append ?_ ?_
    · intro b a hb
      have := hleast b a hb
      omega
    · intro b a hb
      have := hleast (b ++ [escape]) a (by rw [hb]; simp)
      rw [List.length_append, List.length_singleton] at this
      omega
  have hescape : segments (escape :: opener ++ rest) = opener.map .literal ++ segments rest :=
    segments.eq_1 rest
  rw [happend, hescape, List.map_append, List.append_assoc]

/-- A text without an opening stands for itself. -/
theorem segments_of_not_isInfix {text : List Char} (h : ¬opener <:+: text) :
    segments text = text.map .literal := by
  have happend : segments (text ++ []) = text.map .literal ++ segments [] := by
    refine segments_append ?_ ?_
    · intro b a hb
      exact absurd ⟨b, a, by rw [← hb, List.append_nil]⟩ h
    · intro b a hb
      refine absurd ⟨b ++ [escape], a, ?_⟩ h
      rw [← List.append_nil text, hb]
      simp
  simpa [segments] using happend

/-- A reading is what the scan finds. -/
theorem Reads.eq_segments {text : List Char} {segs : List Segment} (h : Reads text segs) :
    segs = segments text := by
  induction h with
  | plain hplain => exact (segments_of_not_isInfix hplain).symm
  | escaped hfirst _ ih => rw [segments_of_isFirst_escape hfirst, ih]
  | @placeholder text before rest key after meaning more hfirst hbare hclose hmeans _ ih =>
    have hkey : segments (opener ++ rest) = keySegments key ++ segments after := by
      show segments ('$' :: '{' :: '{' :: rest) = _
      rw [segments]
      split
      next hnone =>
        rw [untilClose_of_isFirst hclose] at hnone
        cases hnone
      next key' after' hsome =>
        rw [untilClose_of_isFirst hclose] at hsome
        cases hsome
        rfl
    rw [segments_of_isFirst hfirst hbare, hkey, (means_iff key meaning).mp hmeans, ih,
      List.append_assoc]
  | @unclosed text before rest hfirst hbare hopen =>
    have hrest : segments (opener ++ rest) = (opener ++ rest).map .literal := by
      show segments ('$' :: '{' :: '{' :: rest) = _
      rw [segments]
      split
      next => rfl
      next key after hsome =>
        rw [untilClose_eq_none hopen] at hsome
        cases hsome
    rw [segments_of_isFirst hfirst hbare, hrest, hfirst.joined, List.append_assoc,
      List.map_append]

/-- Every text has a reading. -/
theorem exists_reads (text : List Char) : ∃ segs, Reads text segs := by
  induction hn : text.length using Nat.strong_induction_on generalizing text with
  | _ n ih =>
    by_cases hopen : opener <:+: text
    · obtain ⟨before, rest, hfirst⟩ := exists_isFirst hopen
      have hrest : rest.length < n := hn ▸ hfirst.length_lt (by decide)
      by_cases hescape : before.getLast? = some escape
      · obtain ⟨before, rfl⟩ := List.getLast?_eq_some_iff.mp hescape
        obtain ⟨more, hmore⟩ := ih rest.length hrest rest rfl
        exact ⟨_, .escaped hfirst hmore⟩
      · by_cases hclose : closer <:+: rest
        · obtain ⟨key, after, hkey⟩ := exists_isFirst hclose
          have hafter : after.length < n := (hkey.length_lt (by decide)).trans hrest
          obtain ⟨more, hmore⟩ := ih after.length hafter after rfl
          exact ⟨_, .placeholder hfirst hescape hkey ((means_iff key _).mpr rfl) hmore⟩
        · exact ⟨_, .unclosed hfirst hescape hclose⟩
    · exact ⟨_, .plain hopen⟩

/-- Rendering joins the texts of the segments. -/
theorem render_eq_flatMap (clientId userName : List Char) (segs : List Segment) :
    render clientId userName segs = segs.flatMap (Segment.text clientId userName) := by
  induction segs with
  | nil => rfl
  | cons segment rest ih =>
    rw [List.flatMap_cons, ← ih]
    cases segment <;> rfl

/-- A topic has one reading, which no connection changes, and the filter of a connection is that
reading with its own values put in. So what is put in is never read. -/
theorem substitute_eq_reading (topic : String) :
    ∃ segs, Reads topic.toList segs ∧ (∀ other, Reads topic.toList other → other = segs) ∧
      ∀ clientId userName, substitute topic clientId userName =
        String.ofList (segs.flatMap (Segment.text clientId.toList userName.toList)) := by
  obtain ⟨segs, hreads⟩ := exists_reads topic.toList
  refine ⟨segs, hreads, ?_, ?_⟩
  · intro other hother
    rw [hother.eq_segments, hreads.eq_segments]
  · intro clientId userName
    rw [substitute, render_eq_flatMap, hreads.eq_segments]

/-- An escaped opening stays, and so does what a client puts into its identifier. -/
example : substitute "§${{clientid}}/${{ClientId}}" "${{username}}" "u" =
    "${{clientid}}/${{username}}" := by
  decide +kernel

end Template

end BrokerAccess
