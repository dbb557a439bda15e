import BrokerAccess.Proofs.Archive
import BrokerAccess.Proofs.Files.Closed

/-!
# Trees that differ in the archive alone

Two trees may differ in what stands at the place of a home's archive folder and below it, and in
nothing else. Then the record of the home is the same in both, and archiving in one or in both,
whatever stands in its way there, makes no other difference.
-/

namespace BrokerAccess

open Files (Entry Guard Path Time Tree)
open Files.Tree (AgreeBeyond)

/-- The time of archiving is shown without a slash, so that a file named after it has one name. -/
def ArchiveTime.IsPlain (moment : ArchiveTime) : Prop := '/' ∉ moment.label.toList

/-- The same stands at both locations of a file in two trees. -/
def Placement.AgreeAt (p : Placement) (t t' : Tree) : Prop :=
  t'.entry? p.current = t.entry? p.current ∧ t'.entry? p.legacy = t.entry? p.legacy

namespace Archive

/-- Two trees differ at most in the archive of a home. That the home is at the same place in both
has to be said, since a name for it may lead through its own archive and up again. -/
structure AgreeBeside (home : Path) (t t' : Tree) : Prop where
  /-- The home leads to the same place in both. -/
  follow : t'.followFrom [] home.stem = t.followFrom [] home.stem
  /-- What is neither at the place of the archive folder nor below it is the same. -/
  find : ∀ place, (∀ below, t.followFrom [] home.stem = .ok below →
    ¬below ++ [folderName] <+: place) → t'.find? place = t.find? place

namespace AgreeBeside

variable {home : Path} {t t' t'' : Tree} {below : List String}

/-- A tree does not differ from itself. -/
theorem refl (home : Path) (t : Tree) : AgreeBeside home t t := ⟨rfl, fun _ _ => rfl⟩

/-- It does not matter which of two trees comes first. -/
theorem symm (h : AgreeBeside home t t') : AgreeBeside home t' t := by
  refine ⟨h.follow.symm, ?_⟩
  intro place hplace
  rw [h.follow] at hplace
  exact (h.find place hplace).symm

/-- Trees that differ from one in the archive alone differ so from each other. -/
theorem trans (h : AgreeBeside home t t') (h' : AgreeBeside home t' t'') :
    AgreeBeside home t t'' := by
  refine ⟨h'.follow.trans h.follow, ?_⟩
  intro place hplace
  rw [h'.find place (by rw [h.follow]; exact hplace), h.find place hplace]

/-- Where a home has a place, what is not in its archive there is all that matters. -/
theorem of_agreeBeyond (hhome : t.followFrom [] home.stem = .ok below)
    (hhome' : t'.followFrom [] home.stem = .ok below)
    (h : AgreeBeyond (below ++ [folderName]) t t') : AgreeBeside home t t' :=
  ⟨hhome'.trans hhome.symm, fun place hplace => h place (hplace below hhome)⟩

/-- A home that is named without going up leads to the same place whatever its archive holds. -/
theorem of_agreeBeyond_below (hup : ".." ∉ home.stem)
    (hhome : t.followFrom [] home.stem = .ok below)
    (h : AgreeBeyond (below ++ [folderName]) t t') : AgreeBeside home t t' :=
  .of_agreeBeyond hhome (Tree.followFrom_of_agreeBeyond_below hup h hhome) h

/-- Where a home has a place, all is the same that is not in its archive there. -/
theorem agreeBeyond (h : AgreeBeside home t t') (hhome : t.followFrom [] home.stem = .ok below) :
    AgreeBeyond (below ++ [folderName]) t t' := by
  intro place hplace
  refine h.find place ?_
  intro other hother
  obtain rfl : below = other := Except.ok.inj (hhome.symm.trans hother)
  exact hplace

/-- Other names of a home lead to the same. -/
theorem entry?_eq (h : AgreeBeside home t t') {path : Path} {rest : List String}
    (hpath : path.steps = home.stem ++ rest) (hrest : ¬[folderName] <+: rest)
    (hnames : ∀ step ∈ rest, Path.isIdle step = false ∧ step ≠ "..") :
    t'.entry? path = t.entry? path := by
  cases hhome : t.followFrom [] home.stem with
  | error error =>
    rw [Tree.entry?_eq, Tree.entry?_eq, hpath, Tree.followFrom_append, Tree.followFrom_append,
      h.follow, hhome]
    rfl
  | ok below =>
    exact entry?_congr hhome (h.follow.trans hhome) (h.agreeBeyond hhome) hpath hrest hnames

/-- The record of a home is the same at both of its locations. -/
theorem agreeAt (h : AgreeBeside home t t') : (Placement.ofCredentials home).AgreeAt t t' :=
  ⟨h.entry?_eq (home.steps_join_stem (by decide)) (by decide) (by decide),
    h.entry?_eq (home.steps_join_stem (by decide)) (by decide) (by decide)⟩

end AgreeBeside

variable {home : Path} {t ready : Tree} {below : List String} {guard : Guard}

/-- The last piece of the path of an archive folder is its name. -/
theorem getLast?_folder (home : Path) : (ofHome home).folder.pieces.getLast? = some folderName := by
  have hname : stringFields '/' "credentials-archive" = [folderName] := by decide
  have hrooted : ¬Path.isRooted [folderName] = true := by simp [Path.isRooted]
  rw [ofHome, Path.join, hname, if_neg hrooted]
  dsimp only
  split
  · exact List.getLast?_concat
  · exact List.getLast?_concat

/-- The steps to an archived file. -/
theorem steps_file {moment : ArchiveTime} (h : moment.IsPlain) (home : Path) :
    ((ofHome home).file moment).steps =
      home.stem ++ [folderName] ++ [moment.label ++ "-credentials.toml"] := by
  have hname : '/' ∉ (moment.label ++ "-credentials.toml").toList := by
    rw [String.toList_append, List.mem_append]
    exact not_or.mpr ⟨h, by decide⟩
  have hfields : stringFields '/' (moment.label ++ "-credentials.toml") =
      [moment.label ++ "-credentials.toml"] := by
    rw [stringFields, fields_eq_singleton hname]
    simp
  have hrooted : Path.isRooted [moment.label ++ "-credentials.toml"] = false := by
    simp [Path.isRooted]
  have hfolder : (ofHome home).folder.pieces.getLast? ≠ some "" := by
    rw [getLast?_folder]
    decide
  rw [file, Path.steps_join (by rw [hfields]; exact hrooted) hfolder, hfields, steps_folder]

/-- The place of the archive folder, if every step to it can be taken. -/
def place (a : Archive) : List String := Tree.placeAfter [] a.folder.steps

/-- The place of the file for a record archived at a moment. -/
def filePlace (a : Archive) (moment : ArchiveTime) : List String :=
  a.place ++ [moment.label ++ "-credentials.toml"]

/-- The archive folder of a home that is a folder has its place there. -/
theorem place_ofHome (hhome : t.followFrom [] home.stem = .ok below)
    (hbelow : ∃ time, t.find? below = some (.folder time)) :
    (ofHome home).place = below ++ [folderName] :=
  (Tree.eq_placeAfter_of_followFrom (follow_folder hhome hbelow)).symm

/-- The name of an archived file leads into the archive folder. -/
theorem stepFrom_file (a : Archive) (moment : ArchiveTime) :
    Files.stepFrom a.place (moment.label ++ "-credentials.toml") = a.filePlace moment := by
  have hlong : "credentials.toml".toList.length <
      (moment.label ++ "-credentials.toml").toList.length := by
    rw [String.toList_append, List.length_append]
    have hlength : "-credentials.toml".toList.length = "credentials.toml".toList.length + 1 := by
      decide
    omega
  obtain ⟨hidle, hup, _⟩ := isName_of_long hlong
  simp [Files.stepFrom, hidle, hup, filePlace]

/-- An archived file has its place in the archive folder. -/
theorem eq_filePlace_of_follow {moment : ArchiveTime} (hmoment : moment.IsPlain)
    {place : List String} (h : t.follow ((ofHome home).file moment) = .ok place) :
    place = (ofHome home).filePlace moment ∧
      ∃ time, t.find? (ofHome home).place = some (.folder time) := by
  rw [Tree.follow, steps_file hmoment, ← steps_folder] at h
  obtain ⟨middle, hfolder, hname⟩ := Tree.exists_followFrom h
  obtain rfl : middle = (ofHome home).place := Tree.eq_placeAfter_of_followFrom hfolder
  obtain ⟨hthere, _, hend⟩ := Tree.followFrom_cons hname
  exact ⟨(Except.ok.inj hend).symm.trans (stepFrom_file _ moment), hthere⟩

/-- Making the archive folder ready makes no difference beside the archive. -/
theorem agreeBeside_of_prepare (hhome : t.followFrom [] home.stem = .ok below)
    (hbelow : ∃ time, t.find? below = some (.folder time)) {time : Time}
    (h : ((ofHome home).prepare time t guard).1 = .ok ready) : AgreeBeside home t ready := by
  rcases prepare_cases hhome hbelow h with rfl | ⟨hnone, hagree⟩
  · exact .refl home ready
  · exact .of_agreeBeyond hhome (followFrom_stem hhome hbelow hnone hagree).1 hagree

/-- Archiving a record makes no difference beside the archive, however it ends. -/
theorem agreeBeside_keep (hhome : t.followFrom [] home.stem = .ok below)
    (hbelow : ∃ time, t.find? below = some (.folder time)) {moment : ArchiveTime}
    (hmoment : moment.IsPlain) (record : Option Credentials) :
    AgreeBeside home t ((ofHome home).keep moment record t guard).tree := by
  cases record with
  | none => exact .refl home t
  | some record =>
    rcases (ofHome home).keep_some_cases moment record t guard with
      ⟨_, left, _, hprepare, hkeep⟩ | ⟨ready, _, hprepare, hends⟩
    · obtain ⟨_, _, rfl⟩ := eq_of_prepare_error hhome hbelow hprepare
      rw [hkeep]
      exact .refl home left
    · have hready := agreeBeside_of_prepare hhome hbelow hprepare
      rcases hends with ⟨_, hkeep⟩ | ⟨place, hfollow, hfree, _, hkeep⟩
      · rw [hkeep]
        exact hready
      · rw [hkeep]
        refine hready.trans ?_
        have hhome' := hready.follow.trans hhome
        have hplace : place = below ++ [folderName] ++ [moment.label ++ "-credentials.toml"] := by
          rw [(eq_filePlace_of_follow hmoment hfollow).1, filePlace, place_ofHome hhome hbelow]
        have hfile : (Entry.file (Utf8.encode record.write) moment.time).isFile = true := rfl
        have hstays := Tree.followFrom_put_of_ok hfile hfree hhome'
        refine .of_agreeBeyond hhome' hstays (Tree.agreeBeyond_put ready ?_ ?_ _)
        · rw [hplace]
          exact List.prefix_append _ _
        · simp [hplace]

end Archive

end BrokerAccess
