import BrokerAccess.Text.Decimal

/-!
# Reading written numbers

A bounded number field takes the texts that spell a number below its bound: digits, leading zeros
among them, after at most one plus sign. The digits of a number are read back as the number.
-/

namespace BrokerAccess.Decimal

/-- A decimal digit is read as its value, and nothing else is read as a digit. -/
theorem digit?_eq_some_iff {c : Char} {value : Nat} :
    digit? c = some value ↔ c.isDigit ∧ c.toNat - '0'.toNat = value := by
  have hdigit : ('0' ≤ c ∧ c ≤ '9') ↔ c.isDigit := Char.isDigit_iff_toNat.symm
  rw [digit?, Option.ite_none_right_eq_some, hdigit, Option.some.injEq]

/-- A text is read as a number where it has digits alone, as the number that they spell. -/
theorem readOnto_eq_some_iff {text : List Char} {value n : Nat} :
    readOnto value text = some n ↔
      (∀ c ∈ text, c.isDigit) ∧ Nat.ofDigitChars 10 text value = n := by
  induction text generalizing value with
  | nil => simp [readOnto]
  | cons c rest ih =>
    have hcons : Nat.ofDigitChars 10 (c :: rest) value =
        Nat.ofDigitChars 10 rest (value * 10 + (c.toNat - '0'.toNat)) := by
      rw [Nat.mul_comm]
      rfl
    rw [readOnto, Option.bind_eq_bind, Option.bind_eq_some_iff, List.forall_mem_cons, hcons]
    constructor
    · rintro ⟨digit, hdigit, hrest⟩
      obtain ⟨hc, rfl⟩ := digit?_eq_some_iff.mp hdigit
      obtain ⟨hdigits, hvalue⟩ := ih.mp hrest
      exact ⟨⟨hc, hdigits⟩, hvalue⟩
    · rintro ⟨⟨hc, hdigits⟩, hvalue⟩
      exact ⟨_, digit?_eq_some_iff.mpr ⟨hc, rfl⟩, ih.mpr ⟨hdigits, hvalue⟩⟩

/-- An unsigned number field takes a text exactly if it spells a number below the bound. -/
theorem readUnsignedBelow?_eq_some_iff {bound n : Nat} {text : List Char} :
    readUnsignedBelow? bound text = some n ↔
      text ≠ [] ∧ (∀ c ∈ text, c.isDigit) ∧ Nat.ofDigitChars 10 text 0 = n ∧ n < bound := by
  cases text with
  | nil => simp [readUnsignedBelow?]
  | cons c rest =>
    simp only [readUnsignedBelow?, List.isEmpty_cons, Bool.false_eq_true, if_false,
      Option.bind_eq_bind, Option.bind_eq_some_iff, readOnto_eq_some_iff,
      Option.ite_none_right_eq_some, Option.some.injEq, ne_eq, reduceCtorEq, not_false_eq_true,
      true_and]
    constructor
    · rintro ⟨value, ⟨hdigits, hvalue⟩, hlt, rfl⟩
      exact ⟨hdigits, hvalue, hlt⟩
    · rintro ⟨hdigits, hvalue, hlt⟩
      exact ⟨n, ⟨hdigits, hvalue⟩, hlt, rfl⟩

/-- Digits do not begin with a plus sign. -/
theorem head?_ne_plus {text : List Char} (h : ∀ c ∈ text, c.isDigit) : text.head? ≠ some '+' := by
  intro hhead
  exact absurd (h '+' (List.mem_of_mem_head? hhead)) (by decide)

/-- A bounded number field takes a text exactly if it spells a number below the bound: at least one
digit, leading zeros counting for nothing, after at most one plus sign. -/
theorem readBelow?_eq_some_iff {bound n : Nat} {text : List Char} :
    readBelow? bound text = some n ↔
      ∃ spelled, (text = spelled ∨ text = '+' :: spelled) ∧ spelled ≠ [] ∧
        (∀ c ∈ spelled, c.isDigit) ∧ Nat.ofDigitChars 10 spelled 0 = n ∧ n < bound := by
  rw [readBelow?, readUnsignedBelow?_eq_some_iff]
  constructor
  · intro h
    refine ⟨_, ?_, h⟩
    cases text with
    | nil => exact Or.inl rfl
    | cons c rest =>
      by_cases hplus : c = '+'
      · exact Or.inr (by simp [hplus])
      · exact Or.inl (by simp [hplus])
  · rintro ⟨spelled, rfl | rfl, hspelled⟩
    · rw [if_neg (head?_ne_plus hspelled.2.1)]
      exact hspelled
    · simpa using hspelled

/-- The digits of a number are digits. -/
theorem isDigit_of_mem_digits {n : Nat} {c : Char} (h : c ∈ digits n) : c.isDigit :=
  Nat.isDigit_of_mem_toDigits (by decide) (by decide) h

/-- A number below the bound is read back from its digits. -/
theorem readBelow?_digits {n bound : Nat} (h : n < bound) :
    readBelow? bound (digits n) = some n :=
  readBelow?_eq_some_iff.mpr ⟨digits n, Or.inl rfl, Nat.toDigits_ne_nil,
    fun _ hc => isDigit_of_mem_digits hc, Nat.ofDigitChars_ten_toDigits, h⟩

/-- A number that a bounded field takes is below the bound. -/
theorem lt_of_readBelow? {text : List Char} {n bound : Nat} (h : readBelow? bound text = some n) :
    n < bound := by
  obtain ⟨_, _, _, _, _, hlt⟩ := readBelow?_eq_some_iff.mp h
  exact hlt

end BrokerAccess.Decimal
