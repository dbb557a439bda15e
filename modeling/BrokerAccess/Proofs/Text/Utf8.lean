import BrokerAccess.Text.Utf8

/-!
# Reading written UTF-8

Every character is written as one piece, and that piece is read back as the character
whatever bytes follow. So every text is the one that its bytes encode. Nor is any other
stretch of bytes a piece of a character: overlong forms, surrogates, code points out of range
and stretches that break off are broken pieces. So strict reading takes the bytes of a text
only, and lossy reading takes others for a text only if U+FFFD is in it.
-/

namespace BrokerAccess.Utf8

private theorem toNat_ofNat_of_lt {n : Nat} (h : n < 256) : (UInt8.ofNat n).toNat = n :=
  UInt8.toNat_ofNat_of_lt' h

/-- A byte within its bounds is taken as six more bits. -/
theorem continuation_cons {count low high bits b : Nat} (hlow : low ≤ b) (hhigh : b ≤ high)
    (hb : b < 256) (rest : List UInt8) :
    continuation (count + 1) low high bits (UInt8.ofNat b :: rest) =
      continuation count 0x80 0xBF (bits * 64 + (b - 0x80)) rest := by
  rw [continuation, toNat_ofNat_of_lt hb, if_pos ⟨hlow, hhigh⟩]

/-- When no byte is owed, the bits are those of the character. -/
theorem continuation_zero {low high bits : Nat} {c : Char} (h : bits = c.toNat)
    (rest : List UInt8) : continuation 0 low high bits rest = (some c, rest) := by
  rw [continuation, h, Char.ofNat_toNat]

/-- The bytes of a character are one piece. -/
theorem piece_utf8EncodeChar (c : Char) : ∃ b more, String.utf8EncodeChar c = b :: more ∧
    ∀ rest, piece b (more ++ rest) = (some c, rest) := by
  have hvalid : c.toNat < 0xD800 ∨ 0xDFFF < c.toNat ∧ c.toNat < 0x110000 := c.valid
  unfold String.utf8EncodeChar
  simp only [Char.toNat_val]
  generalize hv : c.toNat = v at hvalid ⊢
  split
  next h1 =>
    refine ⟨_, _, rfl, ?_⟩
    intro rest
    simp only [piece, toNat_ofNat_of_lt (show v < 256 by omega)]
    rw [if_pos (by omega), ← hv, Char.ofNat_toNat]
    rfl
  next h1 =>
    split
    next h2 =>
      refine ⟨_, _, rfl, ?_⟩
      intro rest
      simp only [piece, toNat_ofNat_of_lt (show v / 64 % 32 + 192 < 256 by omega)]
      rw [if_neg (by omega), if_neg (by omega), if_pos (by omega), List.cons_append,
        continuation_cons (by omega) (by omega) (by omega),
        continuation_zero (show _ = c.toNat by omega)]
      rfl
    next h2 =>
      split
      next h3 =>
        refine ⟨_, _, rfl, ?_⟩
        intro rest
        simp only [piece, toNat_ofNat_of_lt (show v / 4096 % 16 + 224 < 256 by omega)]
        rw [if_neg (by omega), if_neg (by omega), if_neg (by omega), if_pos (by omega),
          List.cons_append, continuation_cons (by split <;> omega) (by split <;> omega) (by omega),
          List.cons_append, continuation_cons (by omega) (by omega) (by omega),
          continuation_zero (show _ = c.toNat by omega)]
        rfl
      next h3 =>
        refine ⟨_, _, rfl, ?_⟩
        intro rest
        simp only [piece, toNat_ofNat_of_lt (show v / 262144 % 8 + 240 < 256 by omega)]
        rw [if_neg (by omega), if_neg (by omega), if_neg (by omega), if_neg (by omega),
          if_pos (by omega), List.cons_append,
          continuation_cons (by split <;> omega) (by split <;> omega) (by omega),
          List.cons_append, continuation_cons (by omega) (by omega) (by omega),
          List.cons_append, continuation_cons (by omega) (by omega) (by omega),
          continuation_zero (show _ = c.toNat by omega)]
        rfl

/-- When no byte is owed, a valid code point is read as its character. -/
theorem of_continuation_zero {low high bits : Nat} {rest after : List UInt8} {c : Char}
    (h : continuation 0 low high bits rest = (some c, after)) (hvalid : bits.isValidChar) :
    c.toNat = bits ∧ rest = after := by
  simp only [continuation, Prod.mk.injEq, Option.some.injEq] at h
  refine ⟨?_, h.2⟩
  rw [← h.1, Char.ofNat, dif_pos hvalid]
  rfl

/-- When bytes are owed, a character takes one within the bounds, and goes on. -/
theorem of_continuation_succ {count low high bits : Nat} {rest after : List UInt8} {c : Char}
    (h : continuation (count + 1) low high bits rest = (some c, after)) :
    ∃ b more, rest = b :: more ∧ low ≤ b.toNat ∧ b.toNat ≤ high ∧
      continuation count 0x80 0xBF (bits * 64 + (b.toNat - 0x80)) more = (some c, after) := by
  cases rest with
  | nil => simp [continuation] at h
  | cons b more =>
    rw [continuation] at h
    split at h
    next hb => exact ⟨b, more, rfl, hb.1, hb.2, h⟩
    next => simp at h

private theorem ofNat_eq {b : UInt8} {n : Nat} (h : n = b.toNat) : UInt8.ofNat n = b := by
  rw [h, UInt8.ofNat_toNat]

section Width

variable {c : Char} {b b1 b2 b3 : UInt8}

/-- The byte of a character that takes one. -/
theorem utf8EncodeChar_one (hc : c.toNat = b.toNat) (hb : b.toNat < 0x80) :
    String.utf8EncodeChar c = [b] := by
  simp only [String.utf8EncodeChar, Char.toNat_val, hc]
  rw [if_pos (by omega), UInt8.ofNat_toNat]

/-- The bytes of a character that takes two. -/
theorem utf8EncodeChar_two (hc : c.toNat = (b.toNat - 0xC0) * 64 + (b1.toNat - 0x80))
    (hb : 0xC2 ≤ b.toNat ∧ b.toNat < 0xE0) (hb1 : 0x80 ≤ b1.toNat ∧ b1.toNat ≤ 0xBF) :
    String.utf8EncodeChar c = [b, b1] := by
  simp only [String.utf8EncodeChar, Char.toNat_val, hc]
  rw [if_neg (by omega), if_pos (by omega), ofNat_eq (b := b) (by omega),
    ofNat_eq (b := b1) (by omega)]

/-- The bytes of a character that takes three. -/
theorem utf8EncodeChar_three
    (hc : c.toNat =
      ((b.toNat - 0xE0) * 64 + (b1.toNat - 0x80)) * 64 + (b2.toNat - 0x80))
    (hb : 0xE0 ≤ b.toNat ∧ b.toNat < 0xF0) (hb1 : 0x80 ≤ b1.toNat ∧ b1.toNat ≤ 0xBF)
    (hlow : b.toNat = 0xE0 → 0xA0 ≤ b1.toNat) (hb2 : 0x80 ≤ b2.toNat ∧ b2.toNat ≤ 0xBF) :
    String.utf8EncodeChar c = [b, b1, b2] := by
  simp only [String.utf8EncodeChar, Char.toNat_val, hc]
  rw [if_neg (by omega), if_neg (by omega), if_pos (by omega), ofNat_eq (b := b) (by omega),
    ofNat_eq (b := b1) (by omega), ofNat_eq (b := b2) (by omega)]

/-- The bytes of a character that takes four. -/
theorem utf8EncodeChar_four
    (hc : c.toNat = (((b.toNat - 0xF0) * 64 + (b1.toNat - 0x80)) * 64 + (b2.toNat - 0x80)) * 64 +
      (b3.toNat - 0x80))
    (hb : 0xF0 ≤ b.toNat ∧ b.toNat < 0xF5) (hb1 : 0x80 ≤ b1.toNat ∧ b1.toNat ≤ 0xBF)
    (hlow : b.toNat = 0xF0 → 0x90 ≤ b1.toNat) (hb2 : 0x80 ≤ b2.toNat ∧ b2.toNat ≤ 0xBF)
    (hb3 : 0x80 ≤ b3.toNat ∧ b3.toNat ≤ 0xBF) :
    String.utf8EncodeChar c = [b, b1, b2, b3] := by
  simp only [String.utf8EncodeChar, Char.toNat_val, hc]
  rw [if_neg (by omega), if_neg (by omega), if_neg (by omega), ofNat_eq (b := b) (by omega),
    ofNat_eq (b := b1) (by omega), ofNat_eq (b := b2) (by omega), ofNat_eq (b := b3) (by omega)]

end Width

/-- The bounds of a second byte, narrowed from below after one lead byte and from above after
another. -/
theorem bounds_of_narrowed {n m lead top low high : Nat}
    (hlow : (if n = lead then low else 0x80) ≤ m) (hhigh : m ≤ if n = top then high else 0xBF)
    (hl : 0x80 ≤ low) (hh : high ≤ 0xBF) :
    (0x80 ≤ m ∧ m ≤ 0xBF) ∧ (n = lead → low ≤ m) ∧ (n = top → m ≤ high) := by
  split at hlow <;> split at hhigh <;> omega

/-- A piece that is a character is the bytes of that character. -/
theorem eq_append_of_piece {b : UInt8} {rest after : List UInt8} {c : Char}
    (h : piece b rest = (some c, after)) : b :: rest = String.utf8EncodeChar c ++ after := by
  have hb := b.toNat_lt
  unfold piece at h
  dsimp only at h
  split at h
  next h1 =>
    have hread : continuation 0 0 0 b.toNat rest = (some c, after) := h
    obtain ⟨hc, rfl⟩ := of_continuation_zero hread (Or.inl (by omega))
    rw [utf8EncodeChar_one hc h1]
    rfl
  next h1 =>
    split at h
    next => simp at h
    next h2 =>
      split at h
      next h3 =>
        obtain ⟨b1, more, rfl, hl1, hh1, h⟩ := of_continuation_succ h
        obtain ⟨hc, rfl⟩ := of_continuation_zero h (Or.inl (by omega))
        rw [utf8EncodeChar_two hc ⟨by omega, h3⟩ ⟨hl1, hh1⟩]
        rfl
      next h3 =>
        split at h
        next h4 =>
          obtain ⟨b1, _, rfl, hl1, hh1, h⟩ := of_continuation_succ h
          obtain ⟨b2, more, rfl, hl2, hh2, h⟩ := of_continuation_succ h
          -- The upper bound after 0xED keeps out the surrogates, which are no characters.
          obtain ⟨hb1, hlow, hhigh⟩ := bounds_of_narrowed hl1 hh1 (by decide) (by decide)
          obtain ⟨hc, rfl⟩ := of_continuation_zero h (by unfold Nat.isValidChar; omega)
          rw [utf8EncodeChar_three hc ⟨by omega, h4⟩ hb1 hlow ⟨hl2, hh2⟩]
          rfl
        next h4 =>
          split at h
          next h5 =>
            obtain ⟨b1, _, rfl, hl1, hh1, h⟩ := of_continuation_succ h
            obtain ⟨b2, _, rfl, hl2, hh2, h⟩ := of_continuation_succ h
            obtain ⟨b3, more, rfl, hl3, hh3, h⟩ := of_continuation_succ h
            -- The upper bound after 0xF4 keeps out what lies beyond the last code point.
            obtain ⟨hb1, hlow, hhigh⟩ := bounds_of_narrowed hl1 hh1 (by decide) (by decide)
            obtain ⟨hc, rfl⟩ := of_continuation_zero h (by unfold Nat.isValidChar; omega)
            rw [utf8EncodeChar_four hc ⟨by omega, h5⟩ hb1 hlow ⟨hl2, hh2⟩ ⟨hl3, hh3⟩]
            rfl
          next => simp at h

/-- A written text has one piece for each character. -/
theorem pieces_encode (text : List Char) : pieces (encode text) = text.map some := by
  induction text with
  | nil => rw [encode, List.flatMap_nil, pieces, List.map_nil]
  | cons c rest ih =>
    obtain ⟨b, more, hb, hpiece⟩ := piece_utf8EncodeChar c
    rw [encode, List.flatMap_cons, hb, List.cons_append, pieces, hpiece]
    exact congrArg (some c :: ·) ih

/-- Bytes that are read as one character after another are those of the text. -/
theorem eq_encode_of_pieces {bytes : List UInt8} {text : List Char}
    (h : pieces bytes = text.map some) : bytes = encode text := by
  induction text generalizing bytes with
  | nil =>
    cases bytes with
    | nil => rfl
    | cons b rest =>
      rw [pieces] at h
      cases h
  | cons c text ih =>
    cases bytes with
    | nil =>
      rw [pieces] at h
      cases h
    | cons b rest =>
      rw [pieces, List.map_cons] at h
      obtain ⟨hc, hmore⟩ := List.cons.inj h
      have hpiece : piece b rest = (some c, (piece b rest).2) := Prod.ext hc rfl
      rw [encode, List.flatMap_cons, eq_append_of_piece hpiece, ih hmore]
      rfl

/-- Pieces that are all characters are collected. -/
theorem mapM_id_eq_some_iff {found : List (Option Char)} {text : List Char} :
    found.mapM id = some text ↔ found = text.map some := by
  induction found generalizing text with
  | nil =>
    cases text <;> simp
  | cons piece found ih =>
    cases piece with
    | none => cases text <;> simp
    | some c =>
      cases text with
      | nil => simp [Option.bind_eq_some_iff]
      | cons d text => simpa [Option.bind_eq_some_iff, ih] using and_comm

/-- Strict reading takes the bytes of a text for that text, and no others. -/
theorem decode?_eq_some_iff (bytes : List UInt8) (text : List Char) :
    decode? bytes = some text ↔ bytes = encode text := by
  rw [decode?, mapM_id_eq_some_iff]
  constructor
  · exact eq_encode_of_pieces
  · rintro rfl
    exact pieces_encode text

/-- Reading a written text gives the text back. -/
theorem decode?_encode (text : List Char) : decode? (encode text) = some text :=
  (decode?_eq_some_iff (encode text) text).mpr rfl

/-- Bytes that strict reading refuses are those of no text. -/
theorem ne_bytes_of_decode? {found : List UInt8} (h : decode? found = none) (s : String) :
    found ≠ bytes s := by
  rintro rfl
  rw [bytes, decode?_encode] at h
  cases h

/-- Texts with the same bytes are the same. -/
theorem eq_of_encode_eq {a b : List Char} (h : encode a = encode b) : a = b :=
  Option.some.inj ((decode?_encode a).symm.trans ((congrArg decode? h).trans (decode?_encode b)))

/-- Only the empty text has no bytes. -/
theorem bytes_eq_nil_iff {s : String} : bytes s = [] ↔ s = "" := by
  constructor
  · intro h
    exact String.toList_inj.mp (eq_of_encode_eq h)
  · rintro rfl
    rfl

/-- Lossy reading takes the bytes of a text without U+FFFD for that text, and no others. -/
theorem decodeLossy_eq_iff {text : List Char} (h : '\uFFFD' ∉ text) (bytes : List UInt8) :
    decodeLossy bytes = text ↔ bytes = encode text := by
  constructor
  · intro hread
    refine eq_encode_of_pieces ?_
    -- No piece is broken, since U+FFFD would stand for it.
    rw [← hread, decodeLossy, List.map_map]
    refine (List.map_id _).symm.trans (List.map_congr_left ?_)
    intro found hfound
    cases found with
    | some c => rfl
    | none =>
      refine absurd ?_ h
      rw [← hread]
      exact List.mem_map.mpr ⟨none, hfound, rfl⟩
  · rintro rfl
    rw [decodeLossy, pieces_encode, List.map_map]
    exact List.map_id text

end BrokerAccess.Utf8
