/-!
# Separated fields

A text cut at every occurrence of a separator. Joining the fields again gives the text
back, so the cut loses nothing; there is always at least one field.
-/

namespace BrokerAccess

/-- The parts of a text between separators. -/
def fields (separator : Char) : List Char → List (List Char)
  | [] => [[]]
  | c :: rest =>
    if c = separator then [] :: fields separator rest
    else
      match fields separator rest with
      | [] => [[c]]
      | field :: more => (c :: field) :: more

/-- A text has at least one field. -/
theorem fields_ne_nil (separator : Char) (text : List Char) : fields separator text ≠ [] := by
  cases text with
  | nil => simp [fields]
  | cons c rest =>
    rw [fields]
    split
    · simp
    · split <;> simp

/-- The parts of a string between separators. -/
def stringFields (separator : Char) (s : String) : List String :=
  (fields separator s.toList).map String.ofList

end BrokerAccess
