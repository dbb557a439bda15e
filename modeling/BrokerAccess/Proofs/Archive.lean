import BrokerAccess.Archive
import BrokerAccess.Placement
import BrokerAccess.Proofs.Record.File
import BrokerAccess.Proofs.Text.Fields

/-!
# What archiving leaves alone

The archive folder lies beside the files of the same home, and no archived file has a name of
theirs. So archiving a record changes nothing at their locations, whatever stood in its own
way.
-/

namespace BrokerAccess

open Files (Entry Guard Path Time Tree)
open Files.Tree (AgreeBeyond)

/-- The steps from the root that come before the names joined to a path. -/
def Files.Path.stem (path : Path) : List String :=
  path.base ++ if path.pieces.getLast? = some "" then path.pieces.dropLast else path.pieces

/-- Names joined to a path are steps behind its stem. -/
theorem Files.Path.steps_join_stem (path : Path) {text : String}
    (h : Path.isRooted (stringFields '/' text) = false) :
    (path.join text).steps = path.stem ++ stringFields '/' text := by
  have hrooted : ¬Path.isRooted (stringFields '/' text) = true := by simp [h]
  by_cases hclosed : path.pieces.getLast? = some ""
  · simp [Path.join, Path.steps, Path.stem, hrooted, hclosed]
  · simp [Path.join, Path.steps, Path.stem, hrooted, hclosed]

/-- The steps of a joined path end in the names that were joined. -/
theorem Files.Path.exists_steps_join (path : Path) (text : String) :
    ∃ first, (path.join text).steps = first ++ stringFields '/' text := by
  by_cases h : Path.isRooted (stringFields '/' text) = true
  · refine ⟨[], ?_⟩
    simp [Path.join, Path.steps, h]
  · exact ⟨path.stem, path.steps_join_stem (by simpa using h)⟩

/-- The tree with a folder at a place: one that stands there stays, and a file gives way. -/
def Files.Tree.putFolder (t : Tree) (place : List String) (time : Time) : Tree :=
  match t.find? place with
  | some (.folder _) => t
  | some (.file ..) => (t.remove place).put place (.folder time)
  | none => t.put place (.folder time)

/-- A folder may come to stand at a place of a tree: one stands there already, or it may be put
there once a file in its place is taken away. -/
def Files.Guard.letsFolder (guard : Guard) (t : Tree) (place : List String) : Bool :=
  match t.find? place with
  | some (.folder _) => true
  | some (.file ..) => !guard.holds place
  | none => !guard.bars place

/-- What keeps the archive folder from coming to stand in its place. -/
def Archive.hindrance (a : Archive) (t : Tree) : ArchiveError :=
  if t.isFile a.folder then .notDeleted a.folder else .noFolder a.folder

namespace Archive

/-- The name of the archive folder. -/
def folderName : String := "credentials-archive"

variable {home : Path} {t ready : Tree} {below : List String} {guard : Guard}

/-- The steps to the archive folder. -/
theorem steps_folder (home : Path) : (ofHome home).folder.steps = home.stem ++ [folderName] :=
  home.steps_join_stem (by decide)

/-- The name of the archive folder leads into its home, and is not too long. -/
theorem stepFrom_folderName (below : List String) :
    Files.stepFrom below folderName = below ++ [folderName] ∧
      ¬Files.nameLimit < folderName.utf8ByteSize := by
  refine ⟨?_, by decide⟩
  have hidle : Path.isIdle folderName = false := by decide
  have hup : folderName ≠ ".." := by decide
  simp [Files.stepFrom, hidle, hup]

/-- The place that the archive folder has beside the other names of its home. -/
theorem follow_folder (hhome : t.followFrom [] home.stem = .ok below)
    (hbelow : ∃ time, t.find? below = some (.folder time)) :
    t.follow (ofHome home).folder = .ok (below ++ [folderName]) := by
  obtain ⟨time, hfolder⟩ := hbelow
  obtain ⟨hstep, hsize⟩ := stepFrom_folderName below
  rw [Tree.follow, steps_folder, Tree.followFrom_append, hhome]
  simp only [Except.bind, Tree.followFrom, hfolder, if_neg hsize, hstep]

/-- Where no archive folder stands, the way to the home does not pass its place, and is the same in
a tree that agrees beyond it. -/
theorem followFrom_stem (hhome : t.followFrom [] home.stem = .ok below)
    (hbelow : ∃ time, t.find? below = some (.folder time))
    (hnone : ∀ time, t.find? (below ++ [folderName]) ≠ some (.folder time))
    (hagree : AgreeBeyond (below ++ [folderName]) t ready) :
    ready.followFrom [] home.stem = .ok below ∧ ready.find? below = t.find? below := by
  have hroot : ¬below ++ [folderName] <+: [] := by simp
  obtain ⟨hbeyond, hfollow⟩ := Tree.followFrom_of_agreeBeyond hagree hnone hroot hhome hbelow
  exact ⟨hfollow, hagree below hbeyond⟩

/-- Where nothing stands in its way, the archive folder is made, unless its home is locked. -/
theorem paveFrom_folder {cleared : Tree} (hhome : cleared.followFrom [] home.stem = .ok below)
    (hbelow : ∃ time, cleared.find? below = some (.folder time))
    (hfree : cleared.find? (below ++ [folderName]) = none) (time : Time) (guard : Guard) :
    Tree.paveFrom time guard [] (ofHome home).folder.steps cleared =
      if guard.bars (below ++ [folderName]) then (cleared, none)
      else (cleared.put (below ++ [folderName]) (.folder time), some (below ++ [folderName])) := by
  obtain ⟨hstep, hsize⟩ := stepFrom_folderName below
  rw [steps_folder, Tree.paveFrom_append time guard hhome hbelow]
  simp only [Tree.paveFrom, hstep, hfree, hsize, false_or]

/-- Where the archive folder leads to nothing, nothing is in its place. -/
theorem cleared_of_free {a : Archive} (h : t.place? a.folder = none) :
    a.cleared t guard = (some t, []) := by
  simp only [cleared, h]

/-- What the archive folder leads to gives way, if it can be taken away. -/
theorem cleared_of_taken {a : Archive} {place : List String} (h : t.place? a.folder = some place) :
    a.cleared t guard = (if guard.holds place then none else some (t.remove place),
      [.event (.archiveFolderIsFile a.folder)]) := by
  simp only [cleared, h]

/-- The archive folder of a home leads to what stands at its place. -/
theorem entry?_folder (hhome : t.followFrom [] home.stem = .ok below)
    (hbelow : ∃ time, t.find? below = some (.folder time)) :
    t.entry? (ofHome home).folder = t.find? (below ++ [folderName]) := by
  rw [Tree.entry?_eq, ← Tree.follow, follow_folder hhome hbelow]
  rfl

/-- The archive folder of a home is made ready where the file system lets it: it stands in its place
then. Where it does not, nothing changes. -/
theorem prepare_fst (hhome : t.followFrom [] home.stem = .ok below)
    (hbelow : ∃ time, t.find? below = some (.folder time)) (time : Time) (guard : Guard) :
    ((ofHome home).prepare time t guard).1 =
      if guard.letsFolder t (below ++ [folderName]) then
        .ok (t.putFolder (below ++ [folderName]) time)
      else .error ((ofHome home).hindrance t, t) := by
  have hplace := follow_folder hhome hbelow
  have hentry := entry?_folder hhome hbelow
  have hne : below ++ [folderName] ≠ [] := by simp
  unfold Files.Tree.putFolder Guard.letsFolder hindrance
  cases hfind : t.find? (below ++ [folderName]) with
  | none =>
    have hfolder : ¬t.isFolder (ofHome home).folder = true := by
      simp [Tree.isFolder, hentry, hfind]
    have hfile : ¬t.isFile (ofHome home).folder = true := by
      simp [Tree.isFile, hentry, hfind]
    have hgone : t.place? (ofHome home).folder = none := by
      simp [Tree.place?, hplace, Except.toOption, hfind]
    rw [prepare, if_neg hfolder, cleared_of_free hgone, if_neg hfile]
    simp only [paveFrom_folder hhome hbelow hfind time guard]
    cases guard.bars (below ++ [folderName]) <;> rfl
  | some entry =>
    cases entry with
    | folder modified =>
      have hfolder : t.isFolder (ofHome home).folder = true := by
        simp [Tree.isFolder, hentry, hfind, Entry.isFile]
      rw [prepare, if_pos hfolder]
      rfl
    | file content modified =>
      have hfolder : ¬t.isFolder (ofHome home).folder = true := by
        simp [Tree.isFolder, hentry, hfind, Entry.isFile]
      have hfile : t.isFile (ofHome home).folder = true := by
        simp [Tree.isFile, hentry, hfind, Entry.isFile]
      have hthere : t.place? (ofHome home).folder = some (below ++ [folderName]) := by
        simp [Tree.place?, hplace, Except.toOption, hfind]
      have hnone : ∀ time, t.find? (below ++ [folderName]) ≠ some (.folder time) := by
        simp [hfind]
      obtain ⟨hfollow, hsame⟩ := followFrom_stem hhome hbelow hnone
        (Tree.agreeBeyond_remove t (below ++ [folderName]))
      have hpaved := paveFrom_folder hfollow (hsame ▸ hbelow)
        (Tree.find?_remove t hne (List.prefix_refl _)) time guard
      rw [prepare, if_neg hfolder, cleared_of_taken hthere, if_pos hfile]
      cases hholds : guard.holds (below ++ [folderName]) with
      | true => rfl
      | false =>
        -- A folder can be put where a file could be taken away.
        have hbars : guard.bars (below ++ [folderName]) = false :=
          (Bool.or_eq_false_iff.mp hholds).1
        simp only [hpaved, hbars, Bool.false_eq_true, if_false, Bool.not_false, if_true]

/-- The archive folder that is ready stands in its place. -/
theorem eq_putFolder_of_prepare (hhome : t.followFrom [] home.stem = .ok below)
    (hbelow : ∃ time, t.find? below = some (.folder time)) {time : Time}
    (h : ((ofHome home).prepare time t guard).1 = .ok ready) :
    guard.letsFolder t (below ++ [folderName]) = true ∧
      ready = t.putFolder (below ++ [folderName]) time := by
  rw [prepare_fst hhome hbelow] at h
  split at h
  next hlets => exact ⟨hlets, (Except.ok.inj h).symm⟩
  · cases h

/-- Where the archive folder of a home is not made ready, nothing changes. -/
theorem eq_of_prepare_error (hhome : t.followFrom [] home.stem = .ok below)
    (hbelow : ∃ time, t.find? below = some (.folder time)) {time : Time} {error : ArchiveError}
    {left : Tree} (h : ((ofHome home).prepare time t guard).1 = .error (error, left)) :
    guard.letsFolder t (below ++ [folderName]) = false ∧
      error = (ofHome home).hindrance t ∧ left = t := by
  rw [prepare_fst hhome hbelow] at h
  split at h
  · cases h
  next hlets =>
    obtain ⟨rfl, rfl⟩ := Prod.mk.inj (Except.error.inj h)
    exact ⟨by simpa using hlets, rfl, rfl⟩

/-- Making the archive folder ready changes nothing if it stands there, and nothing beyond its place
otherwise. -/
theorem prepare_cases (hhome : t.followFrom [] home.stem = .ok below)
    (hbelow : ∃ time, t.find? below = some (.folder time)) {time : Time}
    (h : ((ofHome home).prepare time t guard).1 = .ok ready) :
    ready = t ∨ (∀ time, t.find? (below ++ [folderName]) ≠ some (.folder time)) ∧
      AgreeBeyond (below ++ [folderName]) t ready := by
  have hne : below ++ [folderName] ≠ [] := by simp
  have hput (cleared : Tree) : AgreeBeyond (below ++ [folderName]) cleared
      (cleared.put (below ++ [folderName]) (.folder time)) :=
    Tree.agreeBeyond_put cleared (List.prefix_refl _) hne (.folder time)
  obtain ⟨_, rfl⟩ := eq_putFolder_of_prepare hhome hbelow h
  unfold Files.Tree.putFolder
  cases hfind : t.find? (below ++ [folderName]) with
  | none => exact Or.inr ⟨by simp, hput t⟩
  | some entry =>
    cases entry with
    | folder modified => exact Or.inl rfl
    | file content modified =>
      refine Or.inr ⟨by simp, ?_⟩
      intro place hplace
      dsimp only
      rw [hput _ place hplace, Tree.agreeBeyond_remove t _ place hplace]

/-- Other names of a home lead to the same in a tree that agrees beyond the place of the archive
folder and in which the home has its place. -/
theorem entry?_congr (hhome : t.followFrom [] home.stem = .ok below)
    (hready : ready.followFrom [] home.stem = .ok below)
    (hagree : AgreeBeyond (below ++ [folderName]) t ready) {path : Path} {rest : List String}
    (hpath : path.steps = home.stem ++ rest) (hrest : ¬[folderName] <+: rest)
    (hnames : ∀ step ∈ rest, Path.isIdle step = false ∧ step ≠ "..") :
    ready.entry? path = t.entry? path := by
  have hbeyond : ∀ passed, passed <+: rest → ¬below ++ [folderName] <+: below ++ passed := by
    intro passed hpassed hp
    exact hrest (((List.prefix_append_right_inj below).mp hp).trans hpassed)
  have hsame := Tree.find?_followFrom_congr hagree hbeyond hnames
  rw [Tree.entry?_eq, Tree.entry?_eq, hpath, Tree.followFrom_append, Tree.followFrom_append,
    hready, hhome]
  exact hsame

/-- Making the archive folder ready changes nothing at other names of its home. -/
theorem entry?_of_prepare (hhome : t.followFrom [] home.stem = .ok below)
    (hbelow : ∃ time, t.find? below = some (.folder time)) {time : Time}
    (h : ((ofHome home).prepare time t guard).1 = .ok ready) {path : Path} {rest : List String}
    (hpath : path.steps = home.stem ++ rest) (hrest : ¬[folderName] <+: rest)
    (hnames : ∀ step ∈ rest, Path.isIdle step = false ∧ step ≠ "..") :
    ready.entry? path = t.entry? path := by
  rcases prepare_cases hhome hbelow h with rfl | ⟨hnone, hagree⟩
  · rfl
  · obtain ⟨hfollow, _⟩ := followFrom_stem hhome hbelow hnone hagree
    exact entry?_congr hhome hfollow hagree hpath hrest hnames

/-- Clearing the place of the archive folder makes no file. -/
theorem filesStood_of_cleared {a : Archive} {cleared : Tree} {removal : Journal}
    (h : a.cleared t guard = (some cleared, removal)) : t.FilesStood cleared := by
  unfold Archive.cleared at h
  split at h
  · obtain rfl : t = cleared := Option.some.inj (Prod.mk.inj h).1
    exact .refl t
  next place _ =>
    have hremoved := (Prod.mk.inj h).1
    split at hremoved
    · cases hremoved
    · obtain rfl := Option.some.inj hremoved
      exact Tree.filesStood_remove t place

/-- Making the archive folder ready makes no file. -/
theorem filesStood_of_prepare {a : Archive} {time : Time}
    (h : (a.prepare time t guard).1 = .ok ready) : t.FilesStood ready := by
  unfold prepare at h
  split at h
  · obtain rfl := Except.ok.inj h
    exact .refl t
  · split at h
    · cases h
    next cleared removal hcleared =>
      have hpaved := Tree.filesStood_paveFrom cleared time guard [] a.folder.steps
      split at h
      · cases h
      next made place hmade =>
        obtain rfl : made = ready := Except.ok.inj h
        rw [hmade] at hpaved
        exact (filesStood_of_cleared hcleared).trans hpaved

/-- What holds of the four events that archiving can report holds of all that it reports. -/
theorem forall_mem_journal_keep {P : JournalEntry → Prop}
    (hnothing : P (.event .nothingToArchive))
    (hfile : ∀ path, P (.event (.archiveFolderIsFile path)))
    (hmade : ∀ path, P (.event (.archiveFolderMade path)))
    (harchived : ∀ path, P (.event (.archived path))) (a : Archive) (moment : ArchiveTime)
    (record : Option Credentials) (t : Tree) (guard : Guard) :
    ∀ entry ∈ (a.keep moment record t guard).journal, P entry := by
  have hcleared : ∀ entry ∈ (a.cleared t guard).2, P entry := by
    unfold cleared
    split
    · exact List.forall_mem_nil P
    · exact List.forall_mem_singleton.mpr (hfile _)
  have hprepare : ∀ entry ∈ (a.prepare moment.time t guard).2, P entry := by
    unfold prepare
    generalize a.cleared t guard = cleared at hcleared
    split
    · exact List.forall_mem_nil P
    · split
      · exact hcleared
      · split
        · exact hcleared
        · exact List.forall_mem_append.mpr ⟨hcleared, List.forall_mem_singleton.mpr (hmade _)⟩
  cases record with
  | none => exact List.forall_mem_singleton.mpr hnothing
  | some record =>
    rw [keep]
    generalize a.prepare moment.time t guard = prepared at hprepare
    obtain ⟨_ | ready, journal⟩ := prepared
    · exact hprepare
    · cases hwrite : record.toFile moment.time (a.file moment) ready guard with
      | error error => simpa only [hwrite] using hprepare
      | ok written =>
        simp only [hwrite]
        exact List.forall_mem_append.mpr ⟨hprepare, List.forall_mem_singleton.mpr (harchived _)⟩

/-- Archiving a record ends where the archive folder cannot be made ready, where the file cannot be
written, or with the file in its place. -/
theorem keep_some_cases (a : Archive) (moment : ArchiveTime) (record : Credentials) (t : Tree)
    (guard : Guard) :
    (∃ error left journal, (a.prepare moment.time t guard).1 = .error (error, left) ∧
      a.keep moment (some record) t guard = ⟨.error error, left, journal⟩) ∨
    ∃ ready journal, (a.prepare moment.time t guard).1 = .ok ready ∧
      ((∃ error, a.keep moment (some record) t guard = ⟨.error (.write error), ready, journal⟩) ∨
        ∃ place, ready.follow (a.file moment) = .ok place ∧ ready.find? place = none ∧
          guard.bars place = false ∧ a.keep moment (some record) t guard = ⟨.ok (some (a.file moment)),
            ready.put place (.file (Utf8.encode record.write) moment.time), journal⟩) := by
  unfold keep
  generalize a.prepare moment.time t guard = prepared
  obtain ⟨⟨error, left⟩ | ready, journal⟩ := prepared
  · exact Or.inl ⟨error, left, journal, rfl, rfl⟩
  · refine Or.inr ?_
    dsimp only
    cases hfile : record.toFile moment.time (a.file moment) ready guard with
    | error error => exact ⟨ready, journal, rfl, Or.inl ⟨error, rfl⟩⟩
    | ok written =>
      obtain ⟨place, hfollow, hfree, hbars, rfl⟩ := Credentials.exists_put_of_toFile hfile
      exact ⟨ready, _, rfl, Or.inr ⟨place, hfollow, hfree, hbars, rfl⟩⟩

/-- A record can be archived at a moment: the archive folder is there or can be made, a file in it
can have the name that the record gets, and nothing has that name yet. -/
def IsFree (a : Archive) (moment : ArchiveTime) (t : Tree) : Prop :=
  ∃ ready place, (a.prepare moment.time t).1 = .ok ready ∧
    ready.follow (a.file moment) = .ok place ∧ ready.find? place = none ∧ t.find? place = none

/-- A record that can be archived is written to a file of its name, and no other file comes
about. -/
theorem keep_of_isFree {a : Archive} {moment : ArchiveTime} (h : a.IsFree moment t)
    (record : Credentials) :
    Tree.entry? (a.keep moment (some record) t).tree (a.file moment) =
        some (.file (Utf8.encode record.write) moment.time) ∧
      (a.keep moment (some record) t).tree.newFiles t = [Utf8.encode record.write] := by
  obtain ⟨ready, place, hready, hfollow, hfree, hbefore⟩ := h
  have hwritten : record.toFile moment.time (a.file moment) ready =
      .ok (ready.put place (.file (Utf8.encode record.write) moment.time)) := by
    simp only [Credentials.toFile, hfollow, hfree, Guard.bars_off, Bool.false_eq_true, if_false]
  have htree : (a.keep moment (some record) t).tree =
      ready.put place (.file (Utf8.encode record.write) moment.time) := by
    unfold keep
    generalize hprepare : a.prepare moment.time t = prepared at hready
    obtain ⟨found, journal⟩ := prepared
    obtain rfl : found = .ok ready := hready
    simp only [hwritten]
  rw [htree]
  exact ⟨Tree.entry?_put_self rfl hfree hfollow,
    Tree.newFiles_put (filesStood_of_prepare hready) hbefore hfree _ _⟩

/-- An archived file has a long name. -/
theorem exists_name_file (a : Archive) (moment : ArchiveTime) :
    ∃ first name, (a.file moment).steps = first ++ [name] ∧
      "credentials.toml".toList.length < name.toList.length := by
  obtain ⟨first, hsteps⟩ := a.folder.exists_steps_join (moment.label ++ "-credentials.toml")
  obtain ⟨fields, last, hfields⟩ := exists_fields_append
    (show '/' ∉ "-credentials.toml".toList by decide) moment.label.toList
  refine ⟨first ++ fields.map String.ofList, String.ofList (last ++ "-credentials.toml".toList), ?_,
    ?_⟩
  · rw [file, hsteps, stringFields, String.toList_append, hfields]
    simp
  · have hlength : "-credentials.toml".toList.length = "credentials.toml".toList.length + 1 := by
      decide
    have hname : (String.ofList (last ++ "-credentials.toml".toList)).toList =
        last ++ "-credentials.toml".toList := String.toList_ofList
    rw [hname, List.length_append, hlength]
    omega

/-- A long name leads to what has that name. -/
theorem isName_of_long {name : String}
    (h : "credentials.toml".toList.length < name.toList.length) :
    Path.isIdle name = false ∧ name ≠ ".." ∧ name ≠ "credentials.toml" := by
  have hlong {short : String} (hshort : short.toList.length ≤ "credentials.toml".toList.length) :
      name ≠ short := by
    rintro rfl
    omega
  refine ⟨?_, hlong (by decide), hlong (Nat.le_refl _)⟩
  simp [Path.isIdle, hlong (show "".toList.length ≤ _ by decide),
    hlong (show ".".toList.length ≤ _ by decide)]

/-- A file is archived under no name of a file of the home. -/
theorem follow_ne_of_file {a : Archive} {moment : ArchiveTime} {place : List String}
    (h : t.follow (a.file moment) = .ok place) {path : Path} {steps : List String}
    (hpath : path.steps = steps ++ ["credentials.toml"]) : t.follow path ≠ .ok place := by
  obtain ⟨first, name, hname, hlength⟩ := a.exists_name_file moment
  obtain ⟨hidle, hup, hother⟩ := isName_of_long hlength
  rw [Tree.follow, hname] at h
  rw [Tree.follow, hpath]
  intro hsame
  have hlast := Tree.getLast?_of_followFrom hidle hup h
  have hlast' := Tree.getLast?_of_followFrom (by decide) (by decide) hsame
  rw [hlast'] at hlast
  exact hother (Option.some.inj hlast).symm

/-- Archiving a record changes nothing at a location of the home's own files. -/
theorem entry?_keep (hhome : t.followFrom [] home.stem = .ok below)
    (hbelow : ∃ time, t.find? below = some (.folder time)) (moment : ArchiveTime)
    (record : Option Credentials) {path : Path} {rest : List String}
    (hpath : path.steps = home.stem ++ (rest ++ ["credentials.toml"]))
    (hrest : ¬[folderName] <+: rest ++ ["credentials.toml"])
    (hnames : ∀ step ∈ rest ++ ["credentials.toml"], Path.isIdle step = false ∧ step ≠ "..") :
    Tree.entry? ((ofHome home).keep moment record t guard).tree path = t.entry? path := by
  cases record with
  | none => rfl
  | some record =>
    rcases (ofHome home).keep_some_cases moment record t guard with
      ⟨_, left, _, hprepare, hkeep⟩ | ⟨ready, _, hprepare, hends⟩
    · obtain ⟨_, _, rfl⟩ := eq_of_prepare_error hhome hbelow hprepare
      rw [hkeep]
    · have hready := entry?_of_prepare hhome hbelow hprepare hpath hrest hnames
      rcases hends with ⟨_, hkeep⟩ | ⟨place, hfollow, hfree, _, hkeep⟩
      · rw [hkeep, hready]
      · have hsteps : path.steps = home.stem ++ rest ++ ["credentials.toml"] := by
          rw [hpath, List.append_assoc]
        rw [hkeep, Tree.entry?_put rfl hfree (follow_ne_of_file hfollow hsteps), hready]

/-- What stands at a location below a home stands in a folder. -/
theorem exists_home {path : Path} {rest : List String} (hpath : path.steps = home.stem ++ rest)
    (hrest : rest ≠ []) {entry : Entry} (h : t.entry? path = some entry) :
    ∃ below, t.followFrom [] home.stem = .ok below ∧
      ∃ time, t.find? below = some (.folder time) := by
  rw [Tree.entry?_eq, hpath] at h
  cases hfollow : t.followFrom [] (home.stem ++ rest) with
  | error error =>
    rw [hfollow] at h
    cases h
  | ok place =>
    obtain ⟨below, hhome, hname⟩ := Tree.exists_followFrom hfollow
    obtain ⟨step, steps, rfl⟩ := List.exists_cons_of_ne_nil hrest
    exact ⟨below, hhome, (Tree.followFrom_cons hname).1⟩

/-- Where the record of a home stands at either location, the home is a folder. -/
theorem exists_home_ofCredentials {path : Path}
    (hpath : path = (Placement.ofCredentials home).current ∨
      path = (Placement.ofCredentials home).legacy)
    {entry : Entry} (h : t.entry? path = some entry) :
    ∃ below, t.followFrom [] home.stem = .ok below ∧
      ∃ time, t.find? below = some (.folder time) := by
  rcases hpath with rfl | rfl
  · exact exists_home (home.steps_join_stem (by decide)) (by decide) h
  · exact exists_home (home.steps_join_stem (by decide)) (by decide) h

/-- Where the record of a home stands at either location, archiving changes nothing at both. -/
theorem entry?_keep_ofCredentials {path other : Path}
    (hpath : path = (Placement.ofCredentials home).current ∨
      path = (Placement.ofCredentials home).legacy)
    (hother : other = (Placement.ofCredentials home).current ∨
      other = (Placement.ofCredentials home).legacy)
    {entry : Entry} (h : t.entry? path = some entry) (moment : ArchiveTime)
    (record : Option Credentials) :
    Tree.entry? ((ofHome home).keep moment record t guard).tree other = t.entry? other := by
  have hcurrent : (Placement.ofCredentials home).current.steps =
      home.stem ++ (["conf"] ++ ["credentials.toml"]) := home.steps_join_stem (by decide)
  have hlegacy : (Placement.ofCredentials home).legacy.steps =
      home.stem ++ ([] ++ ["credentials.toml"]) := home.steps_join_stem (by decide)
  obtain ⟨below, hhome, hbelow⟩ := exists_home_ofCredentials hpath h
  rcases hother with rfl | rfl
  · exact entry?_keep hhome hbelow moment record hcurrent (by decide) (by decide)
  · exact entry?_keep hhome hbelow moment record hlegacy (by decide) (by decide)

end Archive

end BrokerAccess
