import BrokerAccess.Proofs.Files.Tree

/-!
# Trees in which every entry stands in a folder

A tree lists its entries by their places, and what is listed need not stand in a folder. In the tree
of a file system it does, and making folders, removing what stands at a place and putting a file
into a folder leave it so. When the folders of a path are made, all that stood still stands, and all
that is new are folders on the way of the path, even where not all of them can be made.
-/

namespace BrokerAccess.Files.Tree

variable {t t' : Tree} {top place target : List String} {steps : List String} {time : Time}

/-! ## Closed trees -/

/-- Every entry stands in a folder. -/
def IsClosed (t : Tree) : Prop :=
  ∀ place entry, t.find? place = some entry → ∃ time, t.find? place.dropLast = some (.folder time)

/-- A tree is closed if a folder stands above each place that it lists. -/
theorem isClosed_iff (t : Tree) : t.IsClosed ↔
    ∀ e ∈ t.entries, ((t.find? e.1.dropLast).any fun entry => !entry.isFile) = true := by
  have hfolder (place : List String) :
      ((t.find? place).any fun entry => !entry.isFile) = true ↔
        ∃ time, t.find? place = some (.folder time) := by
    rcases t.find? place with _ | ⟨content, time⟩ | time <;> simp [Entry.isFile]
  simp only [hfolder]
  constructor
  · rintro ht ⟨place, entry⟩ he
    by_cases hroot : place = []
    · exact ⟨0, by rw [hroot]; rfl⟩
    · cases hfind : t.find? place with
      | none =>
        rw [find?, if_neg hroot, List.lookup_eq_none_iff] at hfind
        simpa using hfind _ he
      | some found => exact ht place found hfind
  · intro ht place entry h
    by_cases hroot : place = []
    · exact ⟨0, by rw [hroot]; rfl⟩
    · rw [find?, if_neg hroot, List.lookup_eq_some_iff] at h
      obtain ⟨before, after, hentries, _⟩ := h
      exact ht (place, entry) (by simp [hentries])

instance (t : Tree) : Decidable t.IsClosed := decidable_of_iff _ (isClosed_iff t).symm

/-- A tree stays closed when something is put into a folder, and no folder gives way to a file. -/
theorem IsClosed.put (ht : t.IsClosed) {entry : Entry} (hplace : place ≠ [])
    (hparent : ∃ time, t.find? place.dropLast = some (.folder time))
    (hentry : entry.isFile = true → ∀ time, t.find? place ≠ some (.folder time)) :
    (t.put place entry).IsClosed := by
  have hstays {above : List String} (h : ∃ time, t.find? above = some (.folder time)) :
      ∃ time, (t.put place entry).find? above = some (.folder time) := by
    obtain ⟨time, hfolder⟩ := h
    rw [find?_put t place above entry hplace]
    split
    next heq =>
      cases entry with
      | file content modified => exact absurd (heq ▸ hfolder) (hentry rfl time)
      | folder modified => exact ⟨modified, rfl⟩
    next => exact ⟨time, hfolder⟩
  intro other found hfound
  rw [find?_put t place other entry hplace] at hfound
  split at hfound
  next heq => exact hstays (heq ▸ hparent)
  next => exact hstays (ht other found hfound)

/-- A tree stays closed when a place is removed with all that lies below it. -/
theorem IsClosed.remove (ht : t.IsClosed) (top : List String) : (t.remove top).IsClosed := by
  intro place entry h
  by_cases hroot : place = []
  · subst hroot
    exact ⟨0, rfl⟩
  · have hbeyond : ¬top <+: place := by
      intro hbelow
      rw [find?_remove t hroot hbelow] at h
      cases h
    rw [agreeBeyond_remove t top place hbeyond] at h
    rw [agreeBeyond_remove t top _ fun hp => hbeyond (hp.trans (List.dropLast_prefix place))]
    exact ht place entry h

/-- The place that steps lead to where each of them can be taken. -/
def placeAfter (place steps : List String) : List String := steps.foldl stepFrom place

/-- Steps that can be followed lead to the place after them. -/
theorem eq_placeAfter_of_followFrom (h : t.followFrom place steps = .ok target) :
    target = placeAfter place steps := by
  induction steps generalizing place with
  | nil => exact (Except.ok.inj h).symm
  | cons step steps ih => exact ih (followFrom_cons h).2.2

/-! ## Making folders -/

/-- A step from a folder of a closed tree leads into a folder. -/
theorem IsClosed.find?_dropLast_stepFrom (ht : t.IsClosed)
    (hplace : ∃ time, t.find? place = some (.folder time)) {step : String}
    (hfree : t.find? (stepFrom place step) = none) :
    ∃ time, t.find? (stepFrom place step).dropLast = some (.folder time) := by
  obtain ⟨time, hfolder⟩ := hplace
  unfold stepFrom at hfree ⊢
  split at hfree
  · rw [hfolder] at hfree
    cases hfree
  next hidle =>
    rw [if_neg hidle]
    split at hfree
    · obtain ⟨_, habove⟩ := ht place _ hfolder
      rw [habove] at hfree
      cases hfree
    next hup =>
      rw [if_neg hup, List.dropLast_concat]
      exact ⟨time, hfolder⟩

/-- A tree stays closed when folders are made in it. -/
theorem IsClosed.paveFrom (ht : t.IsClosed)
    (hplace : ∃ time, t.find? place = some (.folder time)) (time : Time) (guard : Guard)
    (steps : List String) : (t.paveFrom time guard place steps).1.IsClosed := by
  induction steps generalizing place t with
  | nil => exact ht
  | cons step steps ih =>
    rw [Tree.paveFrom]
    split
    next hfree =>
      have hne : stepFrom place step ≠ [] := ne_nil_of_find? hfree
      split
      · exact ht
      · refine ih (ht.put hne (ht.find?_dropLast_stepFrom hplace hfree) ?_) ⟨time, ?_⟩
        · intro hfile
          cases hfile
        · rw [find?_put t _ _ _ hne, if_pos rfl]
    next modified hfolder => exact ih ht ⟨modified, hfolder⟩
    next => exact ht

end BrokerAccess.Files.Tree
