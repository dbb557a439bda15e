import BrokerAccess.Text.Base64

/-!
# Canonical base64

Reading undoes writing, and only what writing produces can be read. So each byte sequence
has one written form, and a text is base64 exactly when it is the form of its bytes.
-/

namespace BrokerAccess.Base64

/-- Every six-bit group is read back from its letter. -/
theorem value?_letter {n : Nat} (h : n < 64) : value? (letter n) = some n := by
  have hall : ∀ n < 64, value? (letter n) = some n := by decide
  exact hall n h

/-- Only ASCII characters are letters. -/
theorem toNat_lt_of_value? {c : Char} {n : Nat} (h : value? c = some n) : c.toNat < 128 := by
  unfold value? at h
  split at h
  next hc => exact Nat.lt_of_le_of_lt hc.2 (by decide)
  next =>
    split at h
    next hc => exact Nat.lt_of_le_of_lt hc.2 (by decide)
    next =>
      split at h
      next hc => exact Nat.lt_of_le_of_lt hc.2 (by decide)
      next =>
        split at h
        next hc => exact hc ▸ (by decide)
        next =>
          split at h
          next hc => exact hc ▸ (by decide)
          next => exact absurd h.symm (Option.some_ne_none n)

/-- A letter that is read as a group is the letter of that group. -/
theorem letter_of_value? {c : Char} {n : Nat} (h : value? c = some n) : n < 64 ∧ letter n = c := by
  have hall : ∀ k < 128, ∀ n ∈ value? (Char.ofNat k), n < 64 ∧ letter n = Char.ofNat k := by decide
  have hc := hall c.toNat (toNat_lt_of_value? h) n
  rw [Char.ofNat_toNat] at hc
  exact hc h

/-- Padding is no letter. -/
theorem letter_ne_padding {n : Nat} (h : n < 64) : letter n ≠ '=' := by
  intro he
  have hv := value?_letter h
  rw [he] at hv
  exact absurd hv.symm (Option.some_ne_none n)

/-- Reading a written form gives the bytes back. -/
theorem decode?_encode (bytes : List UInt8) : decode? (encode bytes) = some bytes := by
  fun_induction encode bytes with
  | case1 => rfl
  | case2 a =>
    have ha := a.toNat_lt
    simp only [decode?, value?_letter (show a.toNat / 4 < 64 by omega),
      value?_letter (show a.toNat % 4 * 16 < 64 by omega), Option.bind_eq_bind, Option.bind_some,
      show a.toNat % 4 * 16 % 16 = 0 by omega, if_true,
      show a.toNat / 4 * 4 + a.toNat % 4 * 16 / 16 = a.toNat by omega, UInt8.ofNat_toNat]
  | case3 a b =>
    have ha := a.toNat_lt
    have hb := b.toNat_lt
    have hp := letter_ne_padding (show b.toNat % 16 * 4 < 64 by omega)
    simp only [decode?, value?_letter (show a.toNat / 4 < 64 by omega),
      value?_letter (show a.toNat % 4 * 16 + b.toNat / 16 < 64 by omega),
      value?_letter (show b.toNat % 16 * 4 < 64 by omega), Option.bind_eq_bind, Option.bind_some,
      show b.toNat % 16 * 4 % 4 = 0 by omega, if_true,
      show a.toNat / 4 * 4 + (a.toNat % 4 * 16 + b.toNat / 16) / 16 = a.toNat by omega,
      show (a.toNat % 4 * 16 + b.toNat / 16) % 16 * 16 + b.toNat % 16 * 4 / 4 = b.toNat by omega,
      UInt8.ofNat_toNat]
  | case4 a b c rest ih =>
    have ha := a.toNat_lt
    have hb := b.toNat_lt
    have hc := c.toNat_lt
    have hq := letter_ne_padding (show c.toNat % 64 < 64 by omega)
    rw [decode?.eq_4 _ _ _ _ _ (fun _ hs _ => hq hs) (fun hs _ => hq hs)]
    simp only [ih, value?_letter (show a.toNat / 4 < 64 by omega),
      value?_letter (show a.toNat % 4 * 16 + b.toNat / 16 < 64 by omega),
      value?_letter (show b.toNat % 16 * 4 + c.toNat / 64 < 64 by omega),
      value?_letter (show c.toNat % 64 < 64 by omega), Option.bind_eq_bind, Option.bind_some,
      show a.toNat / 4 * 4 + (a.toNat % 4 * 16 + b.toNat / 16) / 16 = a.toNat by omega,
      show (a.toNat % 4 * 16 + b.toNat / 16) % 16 * 16 +
        (b.toNat % 16 * 4 + c.toNat / 64) / 4 = b.toNat by omega,
      show (b.toNat % 16 * 4 + c.toNat / 64) % 4 * 64 + c.toNat % 64 = c.toNat by omega,
      UInt8.ofNat_toNat]

private theorem toNat_byte {n : Nat} (h : n < 256) : (UInt8.ofNat n).toNat = n :=
  UInt8.toNat_ofNat_of_lt' h

/-- A text that can be read is the written form of its bytes. -/
theorem encode_of_decode? {text : List Char} {bytes : List UInt8}
    (h : decode? text = some bytes) : encode bytes = text := by
  fun_induction decode? text generalizing bytes with
  | case1 =>
    obtain rfl := Option.some.inj h
    rfl
  | case2 p q =>
    simp only [Option.bind_eq_bind, Option.bind_eq_some_iff] at h
    obtain ⟨x, hx, y, hy, h⟩ := h
    obtain ⟨hxl, rfl⟩ := letter_of_value? hx
    obtain ⟨hyl, rfl⟩ := letter_of_value? hy
    split at h
    next hz =>
      obtain rfl := Option.some.inj h
      have ha : (UInt8.ofNat (x * 4 + y / 16)).toNat = x * 4 + y / 16 :=
        toNat_byte (by omega)
      rw [encode, ha, show (x * 4 + y / 16) / 4 = x by omega,
        show (x * 4 + y / 16) % 4 * 16 = y by omega]
    next => exact absurd h.symm (Option.some_ne_none bytes)
  | case3 p q r =>
    simp only [Option.bind_eq_bind, Option.bind_eq_some_iff] at h
    obtain ⟨x, hx, y, hy, z, hz, h⟩ := h
    obtain ⟨hxl, rfl⟩ := letter_of_value? hx
    obtain ⟨hyl, rfl⟩ := letter_of_value? hy
    obtain ⟨hzl, rfl⟩ := letter_of_value? hz
    split at h
    next hw =>
      obtain rfl := Option.some.inj h
      have ha : (UInt8.ofNat (x * 4 + y / 16)).toNat = x * 4 + y / 16 :=
        toNat_byte (by omega)
      have hb : (UInt8.ofNat (y % 16 * 16 + z / 4)).toNat = y % 16 * 16 + z / 4 :=
        toNat_byte (by omega)
      rw [encode, ha, hb, show (x * 4 + y / 16) / 4 = x by omega,
        show (x * 4 + y / 16) % 4 * 16 + (y % 16 * 16 + z / 4) / 16 = y by omega,
        show (y % 16 * 16 + z / 4) % 16 * 4 = z by omega]
    next => exact absurd h.symm (Option.some_ne_none bytes)
  | case4 p q r s rest _ _ ih =>
    simp only [Option.bind_eq_bind, Option.bind_eq_some_iff] at h
    obtain ⟨x, hx, y, hy, z, hz, w, hw, more, hm, h⟩ := h
    obtain ⟨hxl, rfl⟩ := letter_of_value? hx
    obtain ⟨hyl, rfl⟩ := letter_of_value? hy
    obtain ⟨hzl, rfl⟩ := letter_of_value? hz
    obtain ⟨hwl, rfl⟩ := letter_of_value? hw
    obtain rfl := Option.some.inj h
    have ha : (UInt8.ofNat (x * 4 + y / 16)).toNat = x * 4 + y / 16 :=
      toNat_byte (by omega)
    have hb : (UInt8.ofNat (y % 16 * 16 + z / 4)).toNat = y % 16 * 16 + z / 4 :=
      toNat_byte (by omega)
    have hc : (UInt8.ofNat (z % 4 * 64 + w)).toNat = z % 4 * 64 + w :=
      toNat_byte (by omega)
    rw [encode, ha, hb, hc, ih hm, show (x * 4 + y / 16) / 4 = x by omega,
      show (x * 4 + y / 16) % 4 * 16 + (y % 16 * 16 + z / 4) / 16 = y by omega,
      show (y % 16 * 16 + z / 4) % 16 * 4 + (z % 4 * 64 + w) / 64 = z by omega,
      show (z % 4 * 64 + w) % 64 = w by omega]
  | case5 => exact absurd h.symm (Option.some_ne_none bytes)

/-- A text is base64 of some bytes exactly when it is their written form. -/
theorem decode?_eq_some_iff (text : List Char) (bytes : List UInt8) :
    decode? text = some bytes ↔ text = encode bytes := by
  constructor
  · intro h
    exact (encode_of_decode? h).symm
  · rintro rfl
    exact decode?_encode bytes

/-- A string that was written is read as its bytes. -/
theorem read?_write (bytes : List UInt8) : read? (write bytes) = some bytes := by
  rw [read?, write, String.toList_ofList, decode?_encode]

/-- A string is read as bytes exactly when it was written from them. -/
theorem read?_eq_some_iff {text : String} {bytes : List UInt8} :
    read? text = some bytes ↔ text = write bytes := by
  rw [read?, decode?_eq_some_iff, write, ← String.toList_inj, String.toList_ofList]

/-- A written form has letters of the alphabet and padding only. -/
theorem eq_padding_or_isSome_of_mem_encode {bytes : List UInt8} {c : Char} (h : c ∈ encode bytes) :
    c = '=' ∨ (value? c).isSome := by
  have hletter {n : Nat} (hn : n < 64) : (value? (letter n)).isSome := by
    rw [value?_letter hn, Option.isSome_some]
  fun_induction encode bytes with
  | case1 => cases h
  | case2 a =>
    have ha := a.toNat_lt
    simp only [List.mem_cons, List.not_mem_nil, or_false] at h
    rcases h with rfl | rfl | rfl | rfl
    · exact Or.inr (hletter (by omega))
    · exact Or.inr (hletter (by omega))
    · exact Or.inl rfl
    · exact Or.inl rfl
  | case3 a b =>
    have ha := a.toNat_lt
    have hb := b.toNat_lt
    simp only [List.mem_cons, List.not_mem_nil, or_false] at h
    rcases h with rfl | rfl | rfl | rfl
    · exact Or.inr (hletter (by omega))
    · exact Or.inr (hletter (by omega))
    · exact Or.inr (hletter (by omega))
    · exact Or.inl rfl
  | case4 a b c rest ih =>
    have ha := a.toNat_lt
    have hb := b.toNat_lt
    have hc := c.toNat_lt
    simp only [List.mem_cons] at h
    rcases h with rfl | rfl | rfl | rfl | h
    · exact Or.inr (hletter (by omega))
    · exact Or.inr (hletter (by omega))
    · exact Or.inr (hletter (by omega))
    · exact Or.inr (hletter (by omega))
    · exact ih h

/-- What is neither padding nor a letter stands in no written form. -/
theorem notMem_encode {c : Char} (hpadding : c ≠ '=') (hvalue : value? c = none)
    (bytes : List UInt8) : c ∉ encode bytes := by
  intro h
  rcases eq_padding_or_isSome_of_mem_encode h with hc | hc
  · exact hpadding hc
  · rw [hvalue] at hc
    cases hc

/-- Only nothing is written as nothing. -/
theorem encode_eq_nil_iff {bytes : List UInt8} : encode bytes = [] ↔ bytes = [] := by
  fun_cases encode bytes <;> simp

end BrokerAccess.Base64
