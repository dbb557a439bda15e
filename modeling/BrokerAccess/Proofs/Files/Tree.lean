import Mathlib.Data.List.Infix
import BrokerAccess.Files.Tree

/-!
# What operations leave alone

An operation on a tree changes what stands at some places, and by that what other paths
lead to, since only folders can be passed. A path that was followed to its end has passed
folders only, so it leads where it led as long as these stay.
-/

namespace BrokerAccess.Files.Tree

/-- The trees have the same everywhere but at a place and below it. -/
def AgreeBeyond (top : List String) (t t' : Tree) : Prop :=
  ∀ place, ¬top <+: place → t'.find? place = t.find? place

variable {t t' : Tree} {top place target : List String} {steps : List String}

/-- A place where nothing stands is not the root. -/
theorem ne_nil_of_find? (h : t.find? place = none) : place ≠ [] := by
  rintro rfl
  cases h

/-! ## Following -/

/-- A step starts at a folder. -/
theorem followFrom_cons {step : String} (h : t.followFrom place (step :: steps) = .ok target) :
    (∃ time, t.find? place = some (.folder time)) ∧ step.utf8ByteSize ≤ nameLimit ∧
      t.followFrom (stepFrom place step) steps = .ok target := by
  rw [followFrom] at h
  split at h
  next time hf =>
    split at h
    · cases h
    next hsize => exact ⟨⟨time, hf⟩, Nat.le_of_not_lt hsize, h⟩
  · cases h
  · cases h

/-- Steps that end at a folder start at one. -/
theorem find?_of_followFrom (h : t.followFrom place steps = .ok target)
    (htarget : ∃ time, t.find? target = some (.folder time)) :
    ∃ time, t.find? place = some (.folder time) := by
  cases steps with
  | nil =>
    obtain rfl : place = target := Except.ok.inj h
    exact htarget
  | cons step steps => exact (followFrom_cons h).1

/-- Steps followed one part after the other have a place between the parts. -/
theorem exists_followFrom {first second : List String}
    (h : t.followFrom place (first ++ second) = .ok target) :
    ∃ middle, t.followFrom place first = .ok middle ∧ t.followFrom middle second = .ok target := by
  rw [followFrom_append] at h
  cases hfirst : t.followFrom place first with
  | error error =>
    rw [hfirst] at h
    cases h
  | ok middle =>
    rw [hfirst] at h
    exact ⟨middle, rfl, h⟩

/-- A step to a name leads to that name. -/
theorem getLast?_of_followFrom {name : String} (hidle : Path.isIdle name = false)
    (hup : name ≠ "..") (h : t.followFrom place (steps ++ [name]) = .ok target) :
    target.getLast? = some name := by
  obtain ⟨middle, _, hname⟩ := exists_followFrom h
  obtain ⟨_, _, hend⟩ := followFrom_cons hname
  obtain rfl : stepFrom middle name = target := Except.ok.inj hend
  simp [stepFrom, hidle, hup]

/-- A path has a time of change exactly when it leads to an entry of that time. -/
theorem modified_eq_ok_iff {path : Path} {time : Time} :
    t.modified path = .ok time ↔ ∃ entry, t.entry? path = some entry ∧ entry.modified = time := by
  unfold modified entry?
  cases t.entry path with
  | error error => simp [Except.map, Except.toOption]
  | ok entry => simp [Except.map, Except.toOption]

/-- What a path leads to, it leads to without an error. -/
theorem entry_eq_ok_iff {path : Path} {entry : Entry} :
    t.entry path = .ok entry ↔ t.entry? path = some entry := by
  unfold entry?
  cases t.entry path with
  | error error => simp [Except.toOption]
  | ok found => simp [Except.toOption]

/-- A path has the time of change of what it leads to, if any. -/
theorem toOption_modified (t : Tree) (path : Path) :
    (t.modified path).toOption = (t.entry? path).map Entry.modified := by
  unfold modified entry?
  cases t.entry path with
  | error error => rfl
  | ok entry => rfl

/-! ## Changes below a place -/

/-- A step from beyond a place leads to that place or stays beyond it. -/
theorem not_isPrefix_stepFrom (h : ¬top <+: place) {step : String}
    (hne : stepFrom place step ≠ top) : ¬top <+: stepFrom place step := by
  unfold stepFrom at hne ⊢
  split
  · exact h
  next hidle =>
    rw [if_neg hidle] at hne
    split
    · exact fun hp => h (hp.trans (List.dropLast_prefix place))
    next hup =>
      rw [if_neg hup] at hne
      intro hp
      rcases List.prefix_concat_iff.mp hp with heq | hp
      · exact hne heq.symm
      · exact h hp

/-- Steps to a folder that start beyond a place where no folder stands never get there, and are the
same steps in a tree that agrees beyond that place. -/
theorem followFrom_of_agreeBeyond (hagree : AgreeBeyond top t t')
    (htop : ∀ time, t.find? top ≠ some (.folder time)) (hplace : ¬top <+: place)
    (h : t.followFrom place steps = .ok target)
    (htarget : ∃ time, t.find? target = some (.folder time)) :
    ¬top <+: target ∧ t'.followFrom place steps = .ok target := by
  induction steps generalizing place with
  | nil =>
    obtain rfl : place = target := Except.ok.inj h
    exact ⟨hplace, rfl⟩
  | cons step steps ih =>
    obtain ⟨⟨time, hfolder⟩, hsize, hnext⟩ := followFrom_cons h
    obtain ⟨nextTime, hnextFolder⟩ := find?_of_followFrom hnext htarget
    have hne : stepFrom place step ≠ top := by
      rintro rfl
      exact htop nextTime hnextFolder
    obtain ⟨hbeyond, hfollow⟩ := ih (not_isPrefix_stepFrom hplace hne) hnext
    refine ⟨hbeyond, ?_⟩
    rw [followFrom, hagree place hplace, hfolder]
    simp only [if_neg (Nat.not_lt.mpr hsize)]
    exact hfollow

/-- Names that stay beyond a place lead to the same in a tree that agrees there. -/
theorem find?_followFrom_congr (hagree : AgreeBeyond top t t')
    (hbeyond : ∀ passed, passed <+: steps → ¬top <+: place ++ passed)
    (hnames : ∀ step ∈ steps, Path.isIdle step = false ∧ step ≠ "..") :
    (t'.followFrom place steps).toOption.bind t'.find? =
      (t.followFrom place steps).toOption.bind t.find? := by
  have hplace : ¬top <+: place := by
    simpa using hbeyond [] List.nil_prefix
  induction steps generalizing place with
  | nil => exact hagree place hplace
  | cons step steps ih =>
    rw [List.forall_mem_cons] at hnames
    have hstep : stepFrom place step = place ++ [step] := by
      simp [stepFrom, hnames.1.1, hnames.1.2]
    have hlonger : ∀ passed, passed <+: steps → ¬top <+: place ++ [step] ++ passed := by
      intro passed hp
      rw [List.append_assoc]
      exact hbeyond (step :: passed) (List.cons_prefix_cons.mpr ⟨rfl, hp⟩)
    have hnext := ih hlonger hnames.2 (by simpa using hlonger [] List.nil_prefix)
    rw [followFrom, followFrom, hagree place hplace, hstep]
    split
    · split
      · rfl
      · exact hnext
    · rfl
    · rfl

/-- Steps that never go up start on the way to where they end. -/
theorem isPrefix_of_followFrom (hup : ".." ∉ steps) (h : t.followFrom place steps = .ok target) :
    place <+: target := by
  induction steps generalizing place with
  | nil =>
    obtain rfl : place = target := Except.ok.inj h
    exact List.prefix_refl _
  | cons step steps ih =>
    have hnext := ih (List.not_mem_of_not_mem_cons hup) (followFrom_cons h).2.2
    refine List.IsPrefix.trans ?_ hnext
    unfold stepFrom
    split
    · exact List.prefix_refl _
    · rw [if_neg (List.ne_of_not_mem_cons hup).symm]
      exact List.prefix_append _ _

/-- Steps that never go up lead to the same place in a tree that has the same everywhere but at a
name below that place. -/
theorem followFrom_of_agreeBeyond_below {name : String} (hup : ".." ∉ steps)
    (hagree : AgreeBeyond (target ++ [name]) t t') (h : t.followFrom place steps = .ok target) :
    t'.followFrom place steps = .ok target := by
  induction steps generalizing place with
  | nil => exact h
  | cons step steps ih =>
    have hway := (isPrefix_of_followFrom hup h).length_le
    have hplace : ¬target ++ [name] <+: place := by
      intro hp
      have hlength := hp.length_le
      rw [List.length_append, List.length_singleton] at hlength
      omega
    obtain ⟨⟨time, hfolder⟩, hsize, hrest⟩ := followFrom_cons h
    rw [followFrom, hagree place hplace, hfolder]
    dsimp only
    rw [if_neg (Nat.not_lt.mpr hsize)]
    exact ih (List.not_mem_of_not_mem_cons hup) hrest

/-- What is left at a place beyond the one that was removed is what stood there. -/
theorem agreeBeyond_remove (t : Tree) (top : List String) : AgreeBeyond top t (t.remove top) := by
  intro place hplace
  unfold find? remove
  split
  · rfl
  · induction t.entries with
    | nil => rfl
    | cons e rest ih =>
      obtain ⟨key, value⟩ := e
      by_cases hk : top.isPrefixOf key = true
      · have hne : (place == key) = false := by
          rw [beq_eq_false_iff_ne]
          rintro rfl
          exact hplace (List.isPrefixOf_iff_prefix.mp hk)
        simp only [List.filter_cons, hk, Bool.not_true, Bool.false_eq_true, if_false,
          List.lookup_cons, hne, ih]
      · rw [Bool.not_eq_true] at hk
        simp only [List.filter_cons, hk, Bool.not_false, if_true, List.lookup_cons, ih]

/-- Nothing is left at the place that was removed, or below it. -/
theorem find?_remove (t : Tree) (hroot : place ≠ []) (h : top <+: place) :
    (t.remove top).find? place = none := by
  unfold find? remove
  rw [if_neg hroot, List.lookup_eq_none_iff]
  intro e he
  obtain ⟨_, hkeep⟩ := List.mem_filter.mp he
  simp only [bne_iff_ne]
  rintro rfl
  rw [List.isPrefixOf_iff_prefix.mpr h] at hkeep
  cases hkeep

/-- Putting something at a place or below it changes nothing beyond it. -/
theorem agreeBeyond_put (t : Tree) {top place : List String} (h : top <+: place) (hne : place ≠ [])
    (entry : Entry) : AgreeBeyond top t (t.put place entry) := by
  intro other hother
  rw [find?_put t place other entry hne, if_neg]
  rintro rfl
  exact hother h

/-! ## New entries -/

/-- Where nothing stood, a new file is in nobody's way: steps that led somewhere lead there, and
steps that did not still do not. -/
theorem followFrom_put {entry : Entry} (hentry : entry.isFile = true) {free : List String}
    (hfree : t.find? free = none) (place steps : List String) :
    ((t.put free entry).followFrom place steps).toOption = (t.followFrom place steps).toOption := by
  have hne : free ≠ [] := ne_nil_of_find? hfree
  induction steps generalizing place with
  | nil => rfl
  | cons step steps ih =>
    rw [followFrom, followFrom, find?_put t free place entry hne]
    by_cases hplace : place = free
    · subst hplace
      cases entry with
      | file content time =>
        rw [if_pos rfl, hfree]
        rfl
      | folder time => cases hentry
    · rw [if_neg hplace]
      split
      · split
        · rfl
        · exact ih _
      · rfl
      · rfl

/-- What a path leads to, by its steps. -/
theorem entry?_eq (t : Tree) (path : Path) :
    t.entry? path = (t.followFrom [] path.steps).toOption.bind t.find? := by
  unfold entry? entry follow
  cases t.followFrom [] path.steps with
  | error error => rfl
  | ok place =>
    simp only [bind, Except.bind, Except.toOption, Option.bind_some]
    cases t.find? place <;> rfl

/-- Where nothing stood, a new file changes only what stands there. -/
theorem entry?_put {entry : Entry} (hentry : entry.isFile = true) {free : List String}
    (hfree : t.find? free = none) {path : Path} (hpath : t.follow path ≠ .ok free) :
    Tree.entry? (t.put free entry) path = t.entry? path := by
  have hne : free ≠ [] := ne_nil_of_find? hfree
  rw [entry?_eq, entry?_eq, followFrom_put hentry hfree]
  rw [follow] at hpath
  cases hfollow : t.followFrom [] path.steps with
  | error error => rfl
  | ok place =>
    rw [hfollow] at hpath
    have hplace : place ≠ free := fun he => hpath (congrArg Except.ok he)
    simp only [Except.toOption, Option.bind_some, find?_put t free place entry hne, if_neg hplace]

/-- A new file stands where its path leads. -/
theorem entry?_put_self {entry : Entry} (hentry : entry.isFile = true) {free : List String}
    (hfree : t.find? free = none) {path : Path} (hpath : t.follow path = .ok free) :
    Tree.entry? (t.put free entry) path = some entry := by
  have hne : free ≠ [] := ne_nil_of_find? hfree
  rw [follow] at hpath
  rw [entry?_eq, followFrom_put hentry hfree, hpath]
  simp only [Except.toOption, Option.bind_some, find?_put t free free entry hne, if_true]

/-- Steps that led somewhere still do where a new file stands. -/
theorem followFrom_put_of_ok {entry : Entry} (hentry : entry.isFile = true) {free : List String}
    (hfree : t.find? free = none) (h : t.followFrom place steps = .ok target) :
    (t.put free entry).followFrom place steps = .ok target := by
  have hsame := followFrom_put hentry hfree place steps
  rw [h] at hsame
  cases hput : (t.put free entry).followFrom place steps with
  | error error =>
    rw [hput] at hsame
    cases hsame
  | ok other =>
    rw [hput] at hsame
    exact congrArg Except.ok (Option.some.inj hsame)

/-! ## Making folders -/

/-- Where the folders on the way are there, none is made. -/
theorem paveFrom_append (time : Time) (guard : Guard) {more : List String}
    (h : t.followFrom place steps = .ok target)
    (htarget : ∃ time, t.find? target = some (.folder time)) :
    t.paveFrom time guard place (steps ++ more) = t.paveFrom time guard target more := by
  induction steps generalizing place with
  | nil =>
    obtain rfl : place = target := Except.ok.inj h
    rfl
  | cons step steps ih =>
    obtain ⟨_, _, hnext⟩ := followFrom_cons h
    obtain ⟨nextTime, hfolder⟩ := find?_of_followFrom hnext htarget
    rw [List.cons_append, paveFrom]
    simp only [hfolder]
    exact ih hnext

/-! ## Files that come about -/

/-- What an entry of a tree holds if it is a file that another tree does not have at its place. -/
def newContent? (t before : Tree) : List String × Entry → Option (List UInt8)
  | (place, .file content _) => if t.find? place = before.find? place then none else some content
  | (_, .folder _) => none

/-- What the files of a tree hold that another tree does not have. -/
def newFiles (t before : Tree) : List (List UInt8) := t.entries.filterMap (t.newContent? before)

/-- The files of a tree all stood where they stand in a tree before. -/
def FilesStood (before t : Tree) : Prop :=
  ∀ place content time, (place, .file content time) ∈ t.entries →
    (place, .file content time) ∈ before.entries ∧ t.find? place = before.find? place

/-- The files of a tree stood in that tree. -/
theorem FilesStood.refl (t : Tree) : t.FilesStood t := fun _ _ _ hm => ⟨hm, rfl⟩

/-- Files that stood in a tree in which files stood are among those. -/
theorem FilesStood.trans {t'' : Tree} (h : t.FilesStood t') (h' : t'.FilesStood t'') :
    t.FilesStood t'' := by
  intro place content time hm
  obtain ⟨hm', hsame⟩ := h' place content time hm
  obtain ⟨hm, hbefore⟩ := h place content time hm'
  exact ⟨hm, hsame.trans hbefore⟩

/-- What is left after a removal stood there. -/
theorem filesStood_remove (t : Tree) (top : List String) : t.FilesStood (t.remove top) := by
  intro place content time hm
  obtain ⟨hm, hkeep⟩ := List.mem_filter.mp hm
  refine ⟨hm, agreeBeyond_remove t top place fun hp => ?_⟩
  simp [List.isPrefixOf_iff_prefix.mpr hp] at hkeep

/-- A new folder is no file. -/
theorem filesStood_put_folder (t : Tree) {place : List String} (h : place ≠ []) (time : Time) :
    t.FilesStood (t.put place (.folder time)) := by
  intro other content fileTime hm
  rcases List.mem_cons.mp hm with he | hm
  · cases he
  · obtain ⟨hm, hne⟩ := List.mem_filter.mp hm
    have hne : other ≠ place := by simpa using hne
    exact ⟨hm, by rw [find?_put t place other _ h, if_neg hne]⟩

/-- Making folders makes no file. -/
theorem filesStood_paveFrom (t : Tree) (time : Time) (guard : Guard) (place steps : List String) :
    t.FilesStood (t.paveFrom time guard place steps).1 := by
  induction steps generalizing place t with
  | nil => exact .refl t
  | cons step steps ih =>
    rw [paveFrom]
    split
    next hfree =>
      have hne : stepFrom place step ≠ [] := ne_nil_of_find? hfree
      split
      · exact .refl t
      · exact (filesStood_put_folder t hne time).trans (ih _ _)
    next => exact ih _ _
    next => exact .refl t

/-- Nothing comes about where all files stood before. -/
theorem newFiles_of_filesStood (h : t.FilesStood t') : t'.newFiles t = [] := by
  rw [newFiles, List.filterMap_eq_nil_iff]
  rintro ⟨place, entry⟩ hm
  cases entry with
  | folder modified => rfl
  | file content modified =>
    obtain ⟨_, hsame⟩ := h place content modified hm
    simp [newContent?, hsame]

/-- Nothing comes about in a tree that stays as it is. -/
theorem newFiles_self (t : Tree) : t.newFiles t = [] := newFiles_of_filesStood (.refl t)

/-- One file comes about when it is put where nothing stood. -/
theorem newFiles_put (h : t.FilesStood t') (hbefore : t.find? place = none)
    (hfree : t'.find? place = none) (content : List UInt8) (time : Time) :
    (t'.put place (.file content time)).newFiles t = [content] := by
  have hne : place ≠ [] := ne_nil_of_find? hfree
  have hfind (other : List String) := find?_put t' place other (.file content time) hne
  have hnew : (t'.put place (.file content time)).newContent? t (place, .file content time) =
      some content := by
    simp [newContent?, hfind, hbefore]
  have hrest : (t'.entries.filter fun e => !decide (e.1 = place)).filterMap
      ((t'.put place (.file content time)).newContent? t) = [] := by
    rw [List.filterMap_eq_nil_iff]
    rintro ⟨other, entry⟩ hm
    obtain ⟨hm, hother⟩ := List.mem_filter.mp hm
    have hne : other ≠ place := by simpa using hother
    cases entry with
    | folder time => rfl
    | file content time =>
      obtain ⟨_, hsame⟩ := h other content time hm
      simp [newContent?, hfind, hne, hsame]
  have hentries : (t'.put place (.file content time)).entries =
      (place, .file content time) :: t'.entries.filter fun e => !decide (e.1 = place) := rfl
  rw [newFiles, hentries, List.filterMap_cons_some hnew, hrest]

end BrokerAccess.Files.Tree
