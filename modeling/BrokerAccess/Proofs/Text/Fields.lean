import BrokerAccess.Text.Fields

/-!
# Cutting and joining fields

The fields of a text hold no separator, and joined around it they give the text back. So a
text that is written as parts around separators is cut into exactly these parts.
-/

namespace BrokerAccess

/-- The cut agrees with the library's. -/
theorem fields_eq_splitOn (separator : Char) (text : List Char) :
    fields separator text = text.splitOn separator := by
  induction text with
  | nil => rfl
  | cons c rest ih =>
    rw [List.splitOn_cons_eq_if_modifyHead, fields, ih]
    by_cases hc : c = separator
    · simp only [hc, BEq.rfl, if_true]
    · rw [if_neg hc, if_neg (by simpa using hc)]
      cases hr : rest.splitOn separator with
      | nil => exact absurd hr (List.splitOn_ne_nil separator rest)
      | cons field more => rfl

/-- No field holds the separator. -/
theorem notMem_of_mem_fields {separator : Char} {text part : List Char}
    (h : part ∈ fields separator text) : separator ∉ part := by
  induction text generalizing part with
  | nil =>
    have hp : part = [] := by simpa only [fields, List.mem_singleton] using h
    simp only [hp, List.not_mem_nil, not_false_eq_true]
  | cons c rest ih =>
    rw [fields] at h
    by_cases hc : c = separator
    · rw [if_pos hc, List.mem_cons] at h
      rcases h with rfl | h
      · exact List.not_mem_nil
      · exact ih h
    · rw [if_neg hc] at h
      cases hr : fields separator rest with
      | nil => exact absurd hr (fields_ne_nil separator rest)
      | cons field more =>
        simp only [hr, List.mem_cons] at h
        rcases h with rfl | h
        · have hf : separator ∉ field := ih (by rw [hr]; exact List.mem_cons_self)
          exact List.not_mem_cons_of_ne_of_not_mem (Ne.symm hc) hf
        · exact ih (by rw [hr]; exact List.mem_cons_of_mem field h)

/-- Joining the fields of a text around the separator gives the text back. -/
theorem intercalate_fields (separator : Char) (text : List Char) :
    [separator].intercalate (fields separator text) = text := by
  rw [fields_eq_splitOn, List.intercalate_splitOn]

/-- Texts with the same fields are the same. -/
theorem eq_of_fields_eq {separator : Char} {a b : List Char}
    (h : fields separator a = fields separator b) : a = b := by
  rw [← intercalate_fields separator a, h, intercalate_fields]

/-- A text without the separator is one field. -/
theorem fields_eq_singleton {separator : Char} {text : List Char} (h : separator ∉ text) :
    fields separator text = [text] := by
  rw [fields_eq_splitOn, List.splitOn_eq_singleton h]

/-- A text that ends in one without the separator has a last field that ends in it. -/
theorem exists_fields_append {separator : Char} {tail : List Char} (h : separator ∉ tail)
    (text : List Char) :
    ∃ first last, fields separator (text ++ tail) = first ++ [last ++ tail] := by
  induction text with
  | nil => exact ⟨[], [], by rw [List.nil_append, fields_eq_singleton h]; rfl⟩
  | cons c text ih =>
    obtain ⟨first, last, hfields⟩ := ih
    rw [List.cons_append, fields, hfields]
    split
    · exact ⟨[] :: first, last, rfl⟩
    · cases first with
      | nil => exact ⟨[], c :: last, rfl⟩
      | cons field first => exact ⟨(c :: field) :: first, last, rfl⟩

/-- The fields around a separator are those before it and those after it. -/
theorem fields_append_cons (separator : Char) (before after : List Char) :
    fields separator (before ++ separator :: after) =
      fields separator before ++ fields separator after := by
  simp only [fields_eq_splitOn, List.splitOn_append_cons_self]

end BrokerAccess
