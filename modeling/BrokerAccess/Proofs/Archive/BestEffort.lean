import BrokerAccess.Proofs.Archive.Apart
import BrokerAccess.Proofs.Deployment
import BrokerAccess.Proofs.Store.Updates
import BrokerAccess.Proofs.Store.Course

/-!
# Reloads, whatever archiving comes to

Archiving is best effort. A reload is stated here with what archiving comes to left open: how it
ends, which tree it leaves, what it reports about the archive. The reload ends the same, calls the
same subscribers and leaves the same record in effect in every case.
-/

namespace BrokerAccess

open Files (Entry Guard Path Time Tree)

/-! ## What is reported about the archive -/

/-- The event is about the archive. -/
def Event.isOfArchive : Event → Bool
  | .archiveFailed _ => true
  | .nothingToArchive => true
  | .archiveFolderIsFile _ => true
  | .archiveFolderMade _ => true
  | .archived _ => true
  | _ => false

/-- The entry is about the archive. -/
def JournalEntry.isOfArchive : JournalEntry → Bool
  | .event e => e.isOfArchive
  | .count _ => false

/-- What a journal tells beside what is about the archive. -/
def Journal.besideArchive (j : Journal) : Journal := j.filter fun entry => !entry.isOfArchive

/-- What journals tell beside the archive, they tell one after the other. -/
theorem Journal.besideArchive_append (j j' : Journal) :
    (j ++ j').besideArchive = j.besideArchive ++ j'.besideArchive := List.filter_append ..

/-- All that archiving reports is about the archive. -/
theorem Archive.besideArchive_keep (a : Archive) (moment : ArchiveTime)
    (record : Option Credentials) (t : Tree) (guard : Guard) :
    Journal.besideArchive (a.keep moment record t guard).journal = [] := by
  rw [Journal.besideArchive, List.filter_eq_nil_iff]
  refine forall_mem_journal_keep ?_ ?_ ?_ ?_ a moment record t guard <;>
    simp [JournalEntry.isOfArchive, Event.isOfArchive]

/-! ## Reloads -/

namespace Placement.AgreeAt

variable {p : Placement} {t t' : Tree}

/-- A file is used at its legacy location in both trees, or in none. -/
theorem isLegacy_eq (h : p.AgreeAt t t') : p.isLegacy t' = p.isLegacy t := by
  rw [isLegacy, isLegacy, Tree.has, Tree.has, Tree.has, Tree.has, h.1, h.2]

/-- The same file is read in both trees. -/
theorem entry?_path_eq (h : p.AgreeAt t t') :
    p.path t' = p.path t ∧ t'.entry? (p.path t) = t.entry? (p.path t) := by
  refine ⟨path_congr h.1 h.2, ?_⟩
  rcases p.path_eq_or t with hp | hp
  · rw [hp, h.1]
  · rw [hp, h.2]

/-- A look at both trees comes to the same placement. -/
theorem seen_eq (h : p.AgreeAt t t') : p.seen t' = p.seen t := by
  rw [seen, seen, h.isLegacy_eq]

/-- A look at both trees reports the same. -/
theorem notice_eq (h : p.AgreeAt t t') : p.notice t' = p.notice t := by
  rw [notice, notice, h.isLegacy_eq]

/-- What agrees with one tree at both locations agrees there with what agrees with it. -/
theorem trans {t'' : Tree} (h : p.AgreeAt t t') (h' : p.AgreeAt t' t'') : p.AgreeAt t t'' :=
  ⟨h'.1.trans h.1, h'.2.trans h.2⟩

/-- It does not matter which of two trees comes first. -/
theorem symm (h : p.AgreeAt t t') : p.AgreeAt t' t := ⟨h.1.symm, h.2.symm⟩

end Placement.AgreeAt

namespace Store

/-- Put a new record in effect, given what archiving the replaced one comes to. -/
def promoteGiven (s : Store) (archiving : Archiving) (record : Credentials) (time : Time) :
    Reload :=
  let failure : Journal :=
    match archiving.result with
    | .error error => [.event (.archiveFailed error)]
    | .ok _ => []
  let (notices, finished) := deliver s.current record s.subscribers
  { store := { s with current := some record, lastRead := some time }
    tree := archiving.tree
    outcome := if finished then some .reloaded else none
    notices
    journal := .event .recordChanged :: archiving.journal ++ failure }

/-- One look at the record's file, without the count, given what archiving comes to. -/
def lookGiven (s : Store) (t : Tree) (archiving : Archiving) : Reload :=
  let (path, s, notice) := s.locate t
  match t.entry? path with
  | none => ⟨s, t, some .missing, [], notice ++ [.event (.noFile path)]⟩
  | some entry =>
    if s.isKnown entry.modified then
      ⟨s, t, some .unchanged, [], notice ++ [.event (.fileUnchanged path)]⟩
    else
      match s.accept t path with
      | (none, journal) =>
        ⟨s, t, some .rejected, [], notice ++ .event (.fileChanged path) :: journal⟩
      | (some (record, time), _) =>
        let reload := s.promoteGiven archiving record time
        { reload with journal := notice ++ .event (.fileChanged path) :: reload.journal }

/-- A reload, given what archiving comes to. -/
def reloadGiven (s : Store) (t : Tree) (archiving : Archiving) : Reload :=
  let reload := s.lookGiven t archiving
  let count : Journal :=
    match reload.outcome with
    | some outcome => [.count (.reload outcome)]
    | none => []
  { reload with journal := reload.journal ++ count }

/-- A reload archives in its own archive. -/
theorem reload_eq_reloadGiven (s : Store) (moment : ArchiveTime) (t : Tree) :
    s.reload moment t = s.reloadGiven t (s.archive.keep moment s.current t) := rfl

/-- What is accepted at a path depends only on what stands there. -/
theorem accept_congr (s : Store) {t t' : Tree} {path : Path} {entry : Entry}
    (h : t.entry? path = some entry) (h' : t'.entry? path = some entry) :
    s.accept t' path = s.accept t path := by
  simp only [accept, Tree.modified, Credentials.load, Credentials.ofFile, readDocument, Tree.text,
    Tree.content, Tree.entry_eq_ok_iff.mpr h, Tree.entry_eq_ok_iff.mpr h']

/-- What promoting a record reports beside the archive. -/
theorem besideArchive_promoteGiven (s : Store) {archiving : Archiving}
    (h : archiving.journal.besideArchive = []) (record : Credentials) (time : Time) :
    (s.promoteGiven archiving record time).journal.besideArchive = [.event .recordChanged] := by
  obtain ⟨result, tree, journal⟩ := archiving
  have hchanged : Journal.besideArchive (.event .recordChanged :: journal) =
      .event .recordChanged :: Journal.besideArchive journal := rfl
  unfold promoteGiven
  dsimp only at h ⊢
  rw [Journal.besideArchive_append, hchanged, h]
  cases result <;> rfl

/-- Whatever archiving comes to, a reload comes to the same, as long as the same stands at both
locations of the record. -/
theorem reloadGiven_congr (s : Store) {t t' : Tree} (h : s.placement.AgreeAt t t')
    {archiving archiving' : Archiving} (hjournal : archiving.journal.besideArchive = [])
    (hjournal' : archiving'.journal.besideArchive = []) :
    let reload := s.reloadGiven t archiving
    let reload' := s.reloadGiven t' archiving'
    reload'.store = reload.store ∧ reload'.outcome = reload.outcome ∧
      reload'.notices = reload.notices ∧
      reload'.journal.besideArchive = reload.journal.besideArchive := by
  obtain ⟨hpath, hentry⟩ := h.entry?_path_eq
  unfold reloadGiven lookGiven locate
  dsimp only
  rw [hpath, h.seen_eq, h.notice_eq, hentry]
  cases hfound : t.entry? (s.placement.path t) with
  | none => exact ⟨rfl, rfl, rfl, rfl⟩
  | some entry =>
    have haccept := accept_congr { s with placement := s.placement.seen t } hfound
      (hentry.trans hfound)
    dsimp only
    rw [haccept]
    split
    · exact ⟨rfl, rfl, rfl, rfl⟩
    · split
      next => exact ⟨rfl, rfl, rfl, rfl⟩
      next record time _ _ =>
        refine ⟨rfl, rfl, rfl, ?_⟩
        have hchanged (journal : Journal) :
            Journal.besideArchive (.event (.fileChanged (s.placement.path t)) :: journal) =
              .event (.fileChanged (s.placement.path t)) :: journal.besideArchive := rfl
        simp only [Journal.besideArchive_append, hchanged, besideArchive_promoteGiven _ hjournal,
          besideArchive_promoteGiven _ hjournal']
        rfl

/-- The tree is the one that archiving leaves, if the reload puts a record in effect, and stays as
it is otherwise. -/
theorem reloadGiven_tree (s : Store) (t : Tree) (archiving : Archiving) :
    (s.reloadGiven t archiving).tree = t ∨
      (s.reloadGiven t archiving).tree = archiving.tree ∧
        ∃ entry, t.entry? (s.placement.path t) = some entry := by
  unfold reloadGiven lookGiven locate
  dsimp only
  cases hfound : t.entry? (s.placement.path t) with
  | none => exact Or.inl rfl
  | some entry =>
    dsimp only
    split
    · exact Or.inl rfl
    · split
      · exact Or.inl rfl
      · exact Or.inr ⟨rfl, entry, rfl⟩

/-- A store is opened the same in trees that have the same at both locations of the record. -/
theorem ofTree_congr {home : Path} {t t' : Tree} (h : (Placement.ofCredentials home).AgreeAt t t')
    (scheme : PasswordScheme) : (ofTree home scheme t').1 = (ofTree home scheme t).1 := by
  obtain ⟨hpath, hentry⟩ := h.entry?_path_eq
  rw [ofTree_fst, ofTree_fst, hpath, h.seen_eq]
  dsimp only
  rw [Tree.toOption_modified, Tree.toOption_modified, hentry, Credentials.load_congr scheme hentry]

end Store

namespace Deployment

/-- A reload of a deployment, given what archiving comes to. -/
def reloadGiven (d : Deployment) (t : Tree) (archiving : Archiving) : DeploymentReload :=
  let reload := d.store.reloadGiven t archiving
  let (directory, built) := follow d.directory reload.notices
  { deployment := { d with store := reload.store, directory }
    tree := reload.tree
    outcome := reload.outcome
    notices := reload.notices
    journal := reload.journal ++ built }

/-- A reload of a deployment archives in the archive of its store. -/
theorem reload_eq_reloadGiven (d : Deployment) (moment : ArchiveTime) (t : Tree) :
    d.reload moment t = d.reloadGiven t (d.store.archive.keep moment d.store.current t) := by
  rw [reload, Store.reload_eq_reloadGiven]
  rfl

/-- Whatever archiving comes to, a reload of a deployment comes to the same, as long as the same
stands at both locations of the record. -/
theorem reloadGiven_congr (d : Deployment) {t t' : Tree} (h : d.store.placement.AgreeAt t t')
    {archiving archiving' : Archiving} (hjournal : archiving.journal.besideArchive = [])
    (hjournal' : archiving'.journal.besideArchive = []) :
    let reload := d.reloadGiven t archiving
    let reload' := d.reloadGiven t' archiving'
    reload'.deployment = reload.deployment ∧ reload'.outcome = reload.outcome ∧
      reload'.notices = reload.notices ∧
      reload'.journal.besideArchive = reload.journal.besideArchive := by
  obtain ⟨hstore, houtcome, hnotices, hjournals⟩ :=
    d.store.reloadGiven_congr h hjournal hjournal'
  refine ⟨?_, houtcome, hnotices, ?_⟩
  · rw [reloadGiven, reloadGiven, hstore, hnotices]
  · rw [reloadGiven, reloadGiven, hnotices]
    dsimp only
    rw [Journal.besideArchive_append, Journal.besideArchive_append, hjournals]

/-- A deployment is opened the same in trees that have the same at both locations of the record. -/
theorem ofTree_congr {home : Path} {t t' : Tree} (h : (Placement.ofCredentials home).AgreeAt t t')
    (settings : Settings) : (ofTree home settings t').1 = (ofTree home settings t).1 := by
  have hopened (tree : Tree) : (ofTree home settings tree).1 =
      ⟨settings,
        (Store.ofTree home settings.passwordScheme tree).1.subscribe { recipient := .directory },
        .ofCurrent settings.passwordScheme
          (Store.ofTree home settings.passwordScheme tree).1.current,
        .ofSettings settings⟩ :=
    congrArg (Deployment.mk _ _ · _) (ofTree_directory home settings tree)
  rw [hopened, hopened, Store.ofTree_congr h]

end Deployment

/-! ## Archiving that keeps to the archive -/

namespace Archive

/-- What archiving comes to when the file system refuses all that it tries. -/
def barred (error : ArchiveError) (record : Option Credentials) (t : Tree) : Archiving :=
  match record with
  | none => ⟨.ok none, t, [.event .nothingToArchive]⟩
  | some _ => ⟨.error error, t, []⟩

end Archive

/-- Where the record of a home stands at one of its locations, archiving leaves both as they are,
and it reports nothing that is not about the archive. -/
structure Archiving.IsConfined (home : Path) (t : Tree) (archiving : Archiving) : Prop where
  /-- Both locations of the record stay as they are. -/
  record : ∀ path entry, path = (Placement.ofCredentials home).current ∨
    path = (Placement.ofCredentials home).legacy → t.entry? path = some entry →
      (Placement.ofCredentials home).AgreeAt t archiving.tree
  /-- Nothing else is reported. -/
  journal : archiving.journal.besideArchive = []

/-- Archiving below a home is confined, whatever the file system does not let happen. -/
theorem Archive.isConfined_keep (home : Path) (moment : ArchiveTime)
    (record : Option Credentials) (t : Tree) (guard : Guard) :
    ((ofHome home).keep moment record t guard).IsConfined home t := by
  refine ⟨?_, besideArchive_keep _ _ _ _ _⟩
  intro path entry hpath hentry
  exact ⟨entry?_keep_ofCredentials hpath (Or.inl rfl) hentry moment record,
    entry?_keep_ofCredentials hpath (Or.inr rfl) hentry moment record⟩

/-- Archiving that is refused is confined, and leaves the tree as it is. -/
theorem Archive.isConfined_barred (home : Path) (error : ArchiveError)
    (record : Option Credentials) (t : Tree) :
    (barred error record t).IsConfined home t ∧ (barred error record t).tree = t := by
  cases record with
  | none => exact ⟨⟨fun _ _ _ _ => ⟨rfl, rfl⟩, rfl⟩, rfl⟩
  | some record => exact ⟨⟨fun _ _ _ _ => ⟨rfl, rfl⟩, rfl⟩, rfl⟩

end BrokerAccess
