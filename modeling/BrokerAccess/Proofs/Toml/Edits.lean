import BrokerAccess.Toml.Decode
import Mathlib.Data.List.Basic

/-!
# Edits of a document

An edit replaces one value in the tree of a document. A structure is read from an edited tree field
by field, and a list of structures item by item, so what is read is what was read before, but for
the field or the item that was edited.
-/

namespace BrokerAccess.Toml

/-- The entries with an edit of what stands under a key. -/
def editEntry (key : String) (edit : Value → Value) (entries : List (String × Value)) :
    List (String × Value) :=
  entries.map fun entry => (entry.1, if entry.1 = key then edit entry.2 else entry.2)

/-- The entries with a value under a key, in place of the one that stands there or as a new one. -/
def setEntry (key : String) (v : Value) (entries : List (String × Value)) :
    List (String × Value) :=
  if (entries.lookup key).isSome then editEntry key (fun _ => v) entries
  else entries ++ [(key, v)]

namespace Value

/-- An item of an array. -/
def item? (n : Nat) : Value → Option Value
  | .array items => items[n]?
  | _ => none

/-- The value with an edit of an item. -/
def editItem (n : Nat) (edit : Value → Value) : Value → Value
  | .array items => .array (items.modify n edit)
  | v => v

/-- The value with an edit of a field that it offers to a structure with the given names. -/
def editField (names : List String) (name : String) (edit : Value → Value) : Value → Value
  | .table entries => .table (editEntry name edit entries)
  | .array items => .array (items.modify (names.idxOf name) edit)
  | v => v

/-- The table with a key set to a value. -/
def setKey (key : String) (v : Value) : Value → Value
  | .table entries => .table (setEntry key v entries)
  | other => other

end Value

/-! ## Entries -/

section Entries

variable {entries : List (String × Value)} {key other : String}

/-- What stands under the key is edited, and what stands under others stays. -/
theorem lookup_editEntry (key : String) (edit : Value → Value) (entries : List (String × Value))
    (other : String) : (editEntry key edit entries).lookup other =
      if other = key then (entries.lookup other).map edit else entries.lookup other := by
  induction entries with
  | nil => exact (ite_self none).symm
  | cons entry rest ih =>
    obtain ⟨name, v⟩ := entry
    rw [editEntry, List.map_cons, List.lookup_cons, List.lookup_cons]
    by_cases hname : other = name
    · subst hname
      rw [beq_self_eq_true]
      dsimp only
      split <;> rfl
    · rw [beq_eq_false_iff_ne.mpr hname]
      exact ih

/-- The value stands under the key, and what stands under others stays. -/
theorem lookup_setEntry (key : String) (v : Value) (entries : List (String × Value))
    (other : String) : (setEntry key v entries).lookup other =
      if other = key then some v else entries.lookup other := by
  rw [setEntry]
  cases hlookup : entries.lookup key with
  | some old =>
    rw [Option.isSome_some, if_pos rfl, lookup_editEntry]
    by_cases hother : other = key
    · rw [if_pos hother, if_pos hother, hother, hlookup]
      rfl
    · rw [if_neg hother, if_neg hother]
  | none =>
    rw [Option.isSome_none, if_neg Bool.false_ne_true, List.lookup_append, List.lookup_cons]
    by_cases hother : other = key
    · rw [if_pos hother, hother, hlookup, beq_self_eq_true]
      rfl
    · rw [if_neg hother, beq_eq_false_iff_ne.mpr hother]
      exact Option.or_none

/-- Entries without the key stay as they are. -/
theorem editEntry_of_notMem (edit : Value → Value) (h : key ∉ entries.map Prod.fst) :
    editEntry key edit entries = entries := by
  induction entries with
  | nil => rfl
  | cons entry rest ih =>
    rw [List.map_cons, List.mem_cons, not_or] at h
    rw [editEntry, List.map_cons, if_neg (Ne.symm h.1)]
    exact congrArg (entry :: ·) (ih h.2)

/-- An edit of the item that takes the place of a name is an edit of what it gives to the name. -/
theorem zip_modify {names : List String} (hnodup : names.Nodup) (name : String)
    (edit : Value → Value) (items : List Value) :
    names.zip (items.modify (names.idxOf name) edit) = editEntry name edit (names.zip items) := by
  induction names generalizing items with
  | nil => rfl
  | cons first rest ih =>
    rw [List.nodup_cons] at hnodup
    cases items with
    | nil => rw [List.modify_nil]; rfl
    | cons item items =>
      rw [List.zip_cons_cons, editEntry, List.map_cons]
      by_cases hfirst : first = name
      · -- No later place bears the name, so nothing else is edited there.
        subst hfirst
        rw [List.idxOf_cons_self, List.modify_zero_cons, List.zip_cons_cons, if_pos rfl]
        refine congrArg (_ :: ·) (editEntry_of_notMem edit fun hmem => hnodup.1 ?_).symm
        obtain ⟨entry, hentry, rfl⟩ := List.mem_map.mp hmem
        exact (List.of_mem_zip hentry).1
      · rw [List.idxOf_cons_ne rest hfirst, List.modify_succ_cons, List.zip_cons_cons,
          if_neg hfirst]
        exact congrArg (_ :: ·) (ih hnodup.2 items)

/-- A value offers the field that was edited, and the others as before. -/
theorem fields?_editField {names : List String} (hnodup : names.Nodup) (name : String)
    (edit : Value → Value) (v : Value) : (v.editField names name edit).fields? names =
      (v.fields? names).map (editEntry name edit) := by
  cases v with
  | array items => exact congrArg some (zip_modify hnodup name edit items)
  | _ => rfl

end Entries

/-! ## Reading -/

section Reading

variable {α : Type} {fields fields' : List (String × Value)} {name : String} {v : Value}

/-- A strict field depends on what stands under its name. -/
theorem strict_congr (h : fields'.lookup name = fields.lookup name) (default : α)
    (read : Value → Option α) :
    strict fields' name default read = strict fields name default read := by
  rw [strict, strict, h]

/-- A strict field that may be absent depends on what stands under its name. -/
theorem strict?_congr (h : fields'.lookup name = fields.lookup name) (read : Value → Option α) :
    strict? fields' name read = strict? fields name read := strict_congr h _ _

/-- A lenient field depends on what stands under its name. -/
theorem lenient_congr (h : fields'.lookup name = fields.lookup name) (default : α)
    (ofText? : String → Option α) :
    lenient fields' name default ofText? = lenient fields name default ofText? := by
  rw [lenient, lenient, h]

/-- A lenient field is what its text means, if it is a text, and nothing if it is anything else,
unless that claims to be a date and is none. -/
theorem lenient_of_lookup (h : fields.lookup name = some v) (default : α)
    (ofText? : String → Option α) : lenient fields name default ofText? =
      if v.momentsSound then some (v.text?.bind ofText?) else none := by
  rw [lenient, h]
  cases v with
  | text s =>
    have hsound : (Value.text s).momentsSound = true := by simp [Value.momentsSound]
    rw [if_pos hsound]
    rfl
  | _ => rfl

/-- Items are read one by one: each is read, and an edit of one is an edit of what is read there. -/
theorem mapM_modify {read : Value → Option α} {items : List Value} {xs : List α} {n : Nat}
    (hread : items.mapM read = some xs) (hitem : items[n]? = some v) :
    ∃ x, xs[n]? = some x ∧ read v = some x ∧
      ∀ {γ : Type} (edit : Value → Value) (o : Option γ) (g : γ → α → α),
        read (edit v) = o.map (g · x) →
          (items.modify n edit).mapM read = o.map fun a => xs.modify n (g a) := by
  induction items generalizing xs n with
  | nil => cases hitem
  | cons first rest ih =>
    rw [List.mapM_cons] at hread
    obtain ⟨y, hy, hrest⟩ := Option.bind_eq_some_iff.mp hread
    obtain ⟨ys, hys, hxs⟩ := Option.bind_eq_some_iff.mp hrest
    obtain rfl := Option.some.inj hxs
    cases n with
    | zero =>
      obtain rfl := Option.some.inj hitem
      refine ⟨y, rfl, hy, fun edit o g hedit => ?_⟩
      rw [List.modify_zero_cons, List.mapM_cons, hedit]
      cases o with
      | none => rfl
      | some a => simp [hys]
    | succ n =>
      obtain ⟨x, hx, hv, hmodify⟩ := ih hys hitem
      refine ⟨x, hx, hv, fun edit o g hedit => ?_⟩
      rw [List.modify_succ_cons, List.mapM_cons, hy, hmodify edit o g hedit]
      cases o <;> rfl

/-- A field that is a list of structures is read one by one: each item is read, and an edit of one
is an edit of what is read there. -/
theorem strict?_editEntry {read : Value → Option α} {list : Option (List α)} {item : Value}
    {n : Nat} (hread : strict? fields name (Value.structures? read) = some list)
    (hlookup : fields.lookup name = some v) (hitem : v.item? n = some item) :
    ∃ xs x, list = some xs ∧ xs[n]? = some x ∧ read item = some x ∧
      ∀ {γ : Type} (edit : Value → Value) (o : Option γ) (g : γ → α → α),
        read (edit item) = o.map (g · x) →
          strict? (editEntry name (Value.editItem n edit) fields) name (Value.structures? read) =
            o.map fun a => some (xs.modify n (g a)) := by
  cases v with
  | array items =>
    rw [strict?, strict, hlookup] at hread
    obtain ⟨xs, hxs, rfl⟩ := Option.map_eq_some_iff.mp hread
    obtain ⟨x, hx, hv, hmodify⟩ := mapM_modify hxs hitem
    refine ⟨xs, x, rfl, hx, hv, fun edit o g hedit => ?_⟩
    rw [strict?, strict, lookup_editEntry, if_pos rfl, hlookup]
    dsimp only [Option.map_some, Value.editItem, Value.structures?]
    rw [hmodify edit o g hedit, Option.map_map]
    rfl
  | _ => cases hitem

end Reading

end BrokerAccess.Toml
