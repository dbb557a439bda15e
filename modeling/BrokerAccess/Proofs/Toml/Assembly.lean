import BrokerAccess.Toml.Document

/-!
# Assembling arrays of tables

A document that consists of arrays of tables is assembled at its end only: statements reach
the last element of the last array, and what was assembled before stays as it is. The place
that statements reach is described by the function that puts entries there.
-/

namespace BrokerAccess.Toml

/-- What stands under a key in a table of values. -/
def assigned : String × Value → String × Node
  | (key, v) => (key, .value v)

/-- The statement that puts a value under a key of the table being filled. -/
def assignment : String × Value → Statement
  | (key, v) => .assign [] key v

/-- An array of tables under a key; without an element there is nothing under it. -/
def listed (key : String) : List Entries → Entries
  | [] => []
  | items => [(key, .tables items)]

/-- `path` leads to the entries that `plug` puts into the root table. -/
def Leads (path : List String) (plug : Entries → Entries) : Prop :=
  ∀ change inner, Entries.edit .implied change .declared path (plug inner) =
    (change .declared inner).map plug

variable {path : List String} {plug : Entries → Entries} {before inner : Entries} {key : String}

/-! ## Changing the end -/

/-- Under a key that is not there is nothing. -/
theorem lookup_eq_none_of_notMem {α : Type} {entries : List (String × α)}
    (h : key ∉ entries.map Prod.fst) : entries.lookup key = none := by
  rw [List.lookup_eq_none_iff]
  intro entry hmem
  have hne : key ≠ entry.1 := by
    rintro rfl
    exact h (List.mem_map_of_mem hmem)
  simpa using hne

/-- A new key comes last. -/
theorem lookup_concat (h : before.lookup key = none) (node : Node) :
    (before ++ [(key, node)]).lookup key = some node := by
  rw [List.lookup_append, h]
  simp

/-- Replacing what stands under the last key leaves the others alone. -/
theorem replace_concat (h : before.lookup key = none) (old node : Node) :
    Entries.replace key node (before ++ [(key, old)]) = before ++ [(key, node)] := by
  rw [List.lookup_eq_none_iff] at h
  have hbefore : Entries.replace key node before = before := by
    refine (List.map_congr_left fun entry hmem => ?_).trans (List.map_id before)
    have hne : entry.1 ≠ key := by
      rintro rfl
      simpa using h entry hmem
    exact if_neg hne
  rw [Entries.replace, List.map_append, ← Entries.replace, hbefore]
  simp

/-- A path is followed to its end by following its first part first. -/
theorem edit_append (making : TableForm) (change : TableForm → Entries → Option Entries)
    (form : TableForm) (path rest : List String) (entries : Entries) :
    Entries.edit making change form (path ++ rest) entries =
      Entries.edit making (fun form inner => Entries.edit making change form rest inner) form path
        entries := by
  induction path generalizing form entries with
  | nil => rfl
  | cons key path ih => simp only [List.cons_append, Entries.edit, ih]

/-- The key of an array of tables leads into its last element. -/
theorem edit_last (h : before.lookup key = none) (making form : TableForm)
    (change : TableForm → Entries → Option Entries) (items : List Entries) (inner : Entries) :
    Entries.edit making change form [key] (before ++ [(key, .tables (items ++ [inner]))]) =
      (change .declared inner).map fun last => before ++ [(key, .tables (items ++ [last]))] := by
  simp only [Entries.edit, lookup_concat h, List.getLast?_concat, List.dropLast_concat,
    replace_concat h]
  cases change .declared inner <;> rfl

/-- The empty path leads to the root table. -/
theorem leads_root : Leads [] id := by
  intro change inner
  rw [Entries.edit, Option.map_id]
  rfl

/-- One key more leads into the last element of the array of tables under it. -/
theorem Leads.last (h : Leads path plug) (hkey : before.lookup key = none) (items : List Entries) :
    Leads (path ++ [key]) fun last => plug (before ++ [(key, .tables (items ++ [last]))]) := by
  intro change inner
  rw [edit_append, h, edit_last hkey, Option.map_map]
  rfl

/-- An array of tables that has an element is there. -/
theorem listed_concat (items : List Entries) (item : Entries) :
    listed key (items ++ [item]) = [(key, .tables (items ++ [item]))] := by
  cases items <;> rfl

/-! ## One statement -/

/-- A statement that assigns puts its value where the statements before it led. -/
theorem add_assignment (h : Leads path plug) {v : Value} (hkey : inner.lookup key = none) :
    Assembly.add ⟨plug inner, path⟩ (assignment (key, v)) =
      some ⟨plug (inner ++ [assigned (key, v)]), path⟩ := by
  have hassign : Entries.assign [] key v inner = some (inner ++ [assigned (key, v)]) := by
    simp [Entries.assign, Entries.edit, hkey, assigned]
  have hedit := h (fun _ entries => entries.assign [] key v) inner
  rw [hassign] at hedit
  simp [assignment, Assembly.add, hedit]

/-- A header of an element opens an empty one behind the others. -/
theorem add_element (h : Leads path plug) (hkey : before.lookup key = none) (items : List Entries)
    (target : List String) :
    Assembly.add ⟨plug (before ++ listed key items), target⟩ (.element path key) =
      some ⟨plug (before ++ listed key (items ++ [[]])), path ++ [key]⟩ := by
  have happend : Entries.append path key (plug (before ++ listed key items)) =
      some (plug (before ++ listed key (items ++ [[]]))) := by
    rw [Entries.append, h]
    cases items with
    | nil => simp [listed, hkey]
    | cons item items =>
      simp [listed, lookup_concat hkey, replace_concat hkey]
  simp [Assembly.add, happend]

/-! ## The statements of an element -/

/-- The statements add one element to an array of tables, wherever the table that has it is and
whatever else is in it, and leave the target inside it. -/
def Builds (path : List String) (key : String) (block : List Statement) (element : Entries) :
    Prop :=
  ∀ plug, Leads path plug → ∀ before items target, before.lookup key = none →
    ∃ target', block.foldlM Assembly.add ⟨plug (before ++ listed key items), target⟩ =
      some ⟨plug (before ++ listed key (items ++ [element])), target'⟩

/-- Assignments of different keys add what they assign. -/
theorem foldlM_assignment (h : Leads path plug) {fields : List (String × Value)}
    (hkeys : (inner.map Prod.fst ++ fields.map Prod.fst).Nodup) :
    (fields.map assignment).foldlM Assembly.add ⟨plug inner, path⟩ =
      some ⟨plug (inner ++ fields.map assigned), path⟩ := by
  induction fields generalizing inner with
  | nil => simp
  | cons field fields ih =>
    obtain ⟨key, v⟩ := field
    have hkey : inner.lookup key = none := by
      apply lookup_eq_none_of_notMem
      intro hmem
      exact (List.nodup_append.mp hkeys).2.2 key hmem key List.mem_cons_self rfl
    have hrest : ((inner ++ [assigned (key, v)]).map Prod.fst ++ fields.map Prod.fst).Nodup := by
      simpa [assigned] using hkeys
    simp only [List.map_cons, List.foldlM_cons, add_assignment h hkey, Option.bind_eq_bind,
      Option.bind_some, ih hrest, List.append_assoc, List.singleton_append]

/-- Blocks that build elements build as many as there are blocks. -/
theorem foldlM_builds {α : Type} {block : α → List Statement} {element : α → Entries}
    {list : List α} (hbuilds : ∀ x ∈ list, Builds path key (block x) (element x))
    (h : Leads path plug) (hkey : list ≠ [] → before.lookup key = none) (items : List Entries)
    (target : List String) :
    ∃ target', (list.flatMap block).foldlM Assembly.add
        ⟨plug (before ++ listed key items), target⟩ =
      some ⟨plug (before ++ listed key (items ++ list.map element)), target'⟩ := by
  induction list generalizing items target with
  | nil => exact ⟨target, by simp⟩
  | cons x list ih =>
    rw [List.forall_mem_cons] at hbuilds
    have hfresh := hkey (List.cons_ne_nil x list)
    obtain ⟨middle, hmiddle⟩ := hbuilds.1 plug h before items target hfresh
    obtain ⟨last, hlast⟩ := ih hbuilds.2 (fun _ => hfresh) (items ++ [element x]) middle
    refine ⟨last, ?_⟩
    rw [List.flatMap_cons, List.foldlM_append, hmiddle]
    simpa using hlast

/-- A header, assignments of different keys and blocks for an inner array of tables build an
element. -/
theorem builds_element {α : Type} {block : α → List Statement} {element : α → Entries}
    {fields : List (String × Value)} {subkey : String} {list : List α}
    (hkeys : (fields.map Prod.fst).Nodup)
    (hbuilds : ∀ x ∈ list, Builds (path ++ [key]) subkey (block x) (element x))
    (hsubkey : list ≠ [] → subkey ∉ fields.map Prod.fst) :
    Builds path key (.element path key :: (fields.map assignment ++ list.flatMap block))
      (fields.map assigned ++ listed subkey (list.map element)) := by
  intro plug h before items target hkey
  have hheader := add_element h hkey items target
  have hlast := h.last hkey items
  have hfields : (fields.map assignment).foldlM Assembly.add
      ⟨plug (before ++ [(key, .tables (items ++ [[]]))]), path ++ [key]⟩ =
        some ⟨plug (before ++ [(key, .tables (items ++ [fields.map assigned]))]), path ++ [key]⟩ :=
    foldlM_assignment hlast hkeys
  have hfresh (hne : list ≠ []) : (fields.map assigned).lookup subkey = none := by
    apply lookup_eq_none_of_notMem
    rw [List.map_map]
    exact hsubkey hne
  obtain ⟨target', hlist⟩ := foldlM_builds hbuilds hlast hfresh [] (path ++ [key])
  refine ⟨target', ?_⟩
  simp only [listed_concat] at hheader ⊢
  simp only [List.foldlM_cons, hheader, Option.bind_eq_bind, Option.bind_some, List.foldlM_append,
    hfields]
  simpa [listed] using hlist

/-- A header and assignments of different keys build an element. -/
theorem builds_fields {fields : List (String × Value)} (hkeys : (fields.map Prod.fst).Nodup) :
    Builds path key (.element path key :: fields.map assignment) (fields.map assigned) := by
  have hbuilds : Builds path key
      (.element path key :: (fields.map assignment ++ ([] : List Entries).flatMap fun _ => []))
      (fields.map assigned ++ listed key (([] : List Entries).map id)) :=
    builds_element hkeys (by simp) (by simp)
  simpa [listed] using hbuilds

/-! ## Finished entries -/

/-- Entries are finished one by one. -/
theorem finishEntries_append (entries more : Entries) :
    finishEntries (entries ++ more) = finishEntries entries ++ finishEntries more := by
  induction entries with
  | nil => rfl
  | cons entry entries ih =>
    simp only [List.cons_append, finishEntries, ih]

/-- What was assigned is what a finished table holds. -/
theorem finishEntries_assigned (fields : List (String × Value)) :
    finishEntries (fields.map assigned) = fields := by
  induction fields with
  | nil => rfl
  | cons field fields ih =>
    simp only [List.map_cons, assigned, finishEntries, Node.finish, ih]

/-- Elements are finished one by one. -/
theorem finishItems_eq_map (items : List Entries) :
    finishItems items = items.map fun entries => .table (finishEntries entries) := by
  induction items with
  | nil => rfl
  | cons entries items ih => rw [finishItems, ih, List.map_cons]

/-- An array of tables that has elements is finished as the array of them. -/
theorem finishEntries_listed {items : List Entries} (h : items ≠ []) :
    finishEntries (listed key items) =
      [(key, .array (items.map fun entries => .table (finishEntries entries)))] := by
  obtain ⟨item, items, rfl⟩ := List.exists_cons_of_ne_nil h
  simp only [listed, finishEntries, Node.finish, finishItems_eq_map]

/-! ## Fields that may be missing -/

/-- The fields that are there. -/
def given (fields : List (String × Option Value)) : List (String × Value) :=
  fields.filterMap fun (key, v) => v.map (key, ·)

/-- Fields are there one by one. -/
theorem given_cons (field : String × Option Value) (fields : List (String × Option Value)) :
    given (field :: fields) = given [field] ++ given fields := by
  obtain ⟨key, v⟩ := field
  cases v <;> rfl

/-- The keys of the fields that are there are keys of fields, in their order. -/
theorem keys_given_sublist (fields : List (String × Option Value)) :
    ((given fields).map Prod.fst).Sublist (fields.map Prod.fst) := by
  induction fields with
  | nil => exact List.Sublist.slnil
  | cons field fields ih =>
    obtain ⟨key, v⟩ := field
    cases v with
    | none => exact ih.cons key
    | some v => exact ih.cons_cons key

/-- Among the fields that are there no key occurs twice. -/
theorem nodup_given {fields : List (String × Option Value)} (h : (fields.map Prod.fst).Nodup) :
    ((given fields).map Prod.fst).Nodup :=
  (keys_given_sublist fields).nodup h

/-- Under a key is what its field gives. -/
theorem lookup_given {fields : List (String × Option Value)} (hkeys : (fields.map Prod.fst).Nodup)
    {v : Option Value} (hmem : (key, v) ∈ fields) : (given fields).lookup key = v := by
  induction fields with
  | nil => cases hmem
  | cons field fields ih =>
    obtain ⟨key', v'⟩ := field
    rw [List.map_cons, List.nodup_cons] at hkeys
    rw [given_cons, List.lookup_append]
    rcases List.mem_cons.mp hmem with heq | hmem
    · obtain ⟨rfl, rfl⟩ := Prod.mk.inj heq
      have hrest : (given fields).lookup key = none := by
        apply lookup_eq_none_of_notMem
        intro hin
        exact hkeys.1 ((keys_given_sublist fields).subset hin)
      rw [hrest]
      cases v <;> simp [given]
    · have hne : key ≠ key' := by
        intro heq
        have hkey : key ∈ fields.map Prod.fst := List.mem_map_of_mem hmem
        exact hkeys.1 (heq ▸ hkey)
      have hhead : (given [(key', v')]).lookup key = none := by
        cases v' <;> simp [given, hne]
      rw [hhead, ih hkeys.2 hmem]
      rfl

end BrokerAccess.Toml
