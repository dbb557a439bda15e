import BrokerAccess.Proofs.Store.History

/-!
# When the record moves

The store remembers when the file that it read last was changed, and not where it stood. So
nothing but these times decides what becomes of a record that is found at the other location: it
is put in effect if its file is later than the one that the record in effect was read from, and
taken for no news otherwise.
-/

namespace BrokerAccess

open Files (Entry Path Time Tree)

/-- A file that a record was read from. -/
structure Reading where
  /-- Where it stood. -/
  path : Path
  /-- When it was last changed. -/
  time : Time

/-- What is read of a tree: the file at the location to read, if something stands there. -/
def Reading.ofTree? (home : Path) (t : Tree) : Option Reading :=
  let path := (Placement.ofCredentials home).path t
  (t.entry? path).map fun entry => ⟨path, entry.modified⟩

namespace Site

/-- The file that the record in effect was read from at the opening. -/
def openedReading (home : Path) (scheme : PasswordScheme) (t : Tree) : Option Reading :=
  if (opened home scheme t).store.current.isSome then Reading.ofTree? home t else none

/-- The file that the record in effect was read from after turns in order, by the one that it was
read from before. -/
def readingFrom (home : Path) : Option Reading → Site → List Turn → Option Reading
  | last, _, [] => last
  | last, site, turn :: rest =>
    let next := if site.promotes turn then Reading.ofTree? home site.tree else last
    readingFrom home next (site.turn turn) rest

/-- The file that the record in effect was read from, at the opening or in one of the turns
since. -/
def reading (home : Path) (scheme : PasswordScheme) (t : Tree) (turns : List Turn) :
    Option Reading :=
  readingFrom home (openedReading home scheme t) (opened home scheme t) turns

/-- The store of a site remembers the time of the file that its record was read from. -/
structure Remembers (home : Path) (site : Site) (last : Option Reading) : Prop where
  /-- A record is in effect exactly when one was read. -/
  current : site.store.current.isSome = last.isSome
  /-- The time that is remembered is the file's. -/
  lastRead : site.store.lastRead = last.map Reading.time
  /-- The file stood at one of the two locations. -/
  placed : ∀ file ∈ last, file.path = (Placement.ofCredentials home).current ∨
    file.path = (Placement.ofCredentials home).legacy

variable {home : Path} {scheme : PasswordScheme} {site : Site} {last : Option Reading}

/-- What is read of a tree that can be loaded from. -/
theorem ofTree?_eq {t : Tree} {time : Time}
    (h : t.modified ((Placement.ofCredentials home).path t) = .ok time) :
    Reading.ofTree? home t = some ⟨(Placement.ofCredentials home).path t, time⟩ := by
  obtain ⟨entry, hentry, rfl⟩ := Tree.modified_eq_ok_iff.mp h
  rw [Reading.ofTree?, hentry]
  rfl

/-- A site remembers what it was opened with. -/
theorem opened_remembers (home : Path) (scheme : PasswordScheme) (t : Tree) :
    (opened home scheme t).Remembers home (openedReading home scheme t) := by
  have hstore : (opened home scheme t).store = _ := Store.ofTree_fst home scheme t
  have hcurrent : (opened home scheme t).store.current = _ := Store.ofTree_current home scheme t
  cases hload : Credentials.load scheme t ((Placement.ofCredentials home).path t) with
  | error error =>
    rw [hload] at hcurrent
    have hnone : openedReading home scheme t = none := by
      rw [openedReading, hcurrent]
      rfl
    have hlast : (opened home scheme t).store.lastRead.isSome = false := by
      rw [← (opened_isTended home scheme t).sound.dated, hcurrent]
      rfl
    rw [hnone]
    refine ⟨by rw [hcurrent]; rfl, ?_, fun _ hfile => by cases hfile⟩
    simpa using hlast
  | ok record =>
    obtain ⟨time, htime⟩ := Credentials.exists_modified_of_load hload
    rw [hload] at hcurrent
    have hsome : openedReading home scheme t =
        some ⟨(Placement.ofCredentials home).path t, time⟩ := by
      rw [openedReading, hcurrent, ← ofTree?_eq htime]
      rfl
    rw [hsome]
    refine ⟨by rw [hcurrent]; rfl, ?_, ?_⟩
    · rw [hstore]
      simp only [htime, hload]
      rfl
    · rintro _ ⟨⟩
      exact Placement.path_eq_or _ t

/-- A turn leaves a site with the memory of the file that its record was read from. -/
theorem Remembers.turn (h : site.Remembers home last) (hkept : site.IsKept home scheme)
    (turn : Turn) : (site.turn turn).Remembers home
      (if site.promotes turn then Reading.ofTree? home site.tree else last) := by
  cases turn with
  | disk tree => exact ⟨h.current, h.lastRead, h.placed⟩
  | subscribe subscriber => exact ⟨h.current, h.lastRead, h.placed⟩
  | reload moment =>
    rcases site.store.reload_cases moment site.tree with
      ⟨outcome, hne, houtcome, _, _, hstore⟩ | ⟨record, time, hfresh, _⟩
    · have hquiet : site.promotes (.reload moment) = false := by
        simp [promotes, look, houtcome, hne]
      have hstore : (site.turn (.reload moment)).store = _ := hstore
      rw [hquiet]
      refine ⟨?_, ?_, h.placed⟩ <;> rw [hstore]
      · exact h.current
      · exact h.lastRead
    · obtain ⟨hpromotes, hstore⟩ := turn_of_fresh hfresh moment
      obtain ⟨_, htime, _⟩ := Store.finding_eq_fresh_iff.mp hfresh
      rw [hkept.path] at htime
      rw [hpromotes, if_pos rfl, ofTree?_eq htime]
      refine ⟨by rw [hstore]; rfl, by rw [hstore]; rfl, ?_⟩
      rintro _ ⟨⟩
      exact Placement.path_eq_or _ site.tree

/-- After any turns, a site remembers the file that its record was read from. -/
theorem Remembers.course (h : site.Remembers home last) (hkept : site.IsKept home scheme)
    (turns : List Turn) :
    (site.course turns).Remembers home (readingFrom home last site turns) := by
  induction turns generalizing site last with
  | nil => exact h
  | cons turn rest ih => exact ih (h.turn hkept turn) (hkept.turn turn)

/-- What a look finds where a record can be loaded: it is fresh if its file is later than the one
that was read last, and no news otherwise. -/
theorem Remembers.finding_eq {file : Reading} (h : site.Remembers home (some file))
    (hkept : site.IsKept home scheme) {record : Credentials} {time : Time}
    (hload : Credentials.load scheme site.tree ((Placement.ofCredentials home).path site.tree) =
      .ok record)
    (htime : site.tree.modified ((Placement.ofCredentials home).path site.tree) = .ok time) :
    site.store.finding site.tree = if file.time < time then .fresh record time else .known := by
  have hknown : site.store.isKnown time = decide (time ≤ file.time) := by
    rw [Store.isKnown, h.current, h.lastRead]
    rfl
  obtain ⟨entry, hentry, rfl⟩ := Tree.modified_eq_ok_iff.mp htime
  rw [Store.finding, hkept.path, hentry]
  dsimp only
  rw [hknown, hkept.stored, hload]
  by_cases hlater : file.time < entry.modified
  · rw [if_pos hlater, if_neg (by simpa using hlater)]
  · rw [if_neg hlater, if_pos (by simpa using hlater)]

/-- Whatever came before, let the record in effect be one that was read from a file at one of the
two locations, and let a record without defects stand where the store now looks, be it there or at
the other one. The next look puts it in effect if its file is later than the one that was read;
otherwise the look finds nothing changed, and the record in effect stays. -/
theorem look_after_move (home : Path) (scheme : PasswordScheme) (t : Tree) (turns : List Turn)
    (file : Reading) (hread : reading home scheme t turns = some file) (moment : ArchiveTime) :
    let site := (opened home scheme t).course turns
    let path := (Placement.ofCredentials home).path site.tree
    (file.path = (Placement.ofCredentials home).current ∨
      file.path = (Placement.ofCredentials home).legacy) ∧
    site.store.current.isSome ∧
    ∀ record, Credentials.load scheme site.tree path = .ok record →
      ∃ time, site.tree.modified path = .ok time ∧
        if file.time < time then (site.look moment).store.current = some record
        else (site.look moment).outcome = some .unchanged ∧
          (site.look moment).store.current = site.store.current := by
  intro site path
  have hkept : site.IsKept home scheme := (opened_isKept home scheme t).course turns
  have h : site.Remembers home (some file) :=
    hread ▸ (opened_remembers home scheme t).course (opened_isKept home scheme t) turns
  refine ⟨h.placed file rfl, h.current, ?_⟩
  intro record hload
  obtain ⟨time, htime⟩ := Credentials.exists_modified_of_load hload
  have hfinding := h.finding_eq hkept hload htime
  refine ⟨time, htime, ?_⟩
  rw [look, Store.reload_outcome, Store.reload_store, hfinding]
  by_cases hlater : file.time < time
  · rw [if_pos hlater, if_pos hlater]
    rfl
  · rw [if_neg hlater, if_neg hlater]
    exact ⟨rfl, rfl⟩

/-- A record stands at the legacy location, and nothing at the current one. -/
def legacyHome : Tree :=
  emptyHome.put ["srv", "credentials.toml"] (.file (Utf8.encode soleReader.write) 7)

/-- Another record stands at the current location as well. -/
def movedHome (time : Time) : Tree :=
  legacyHome.put ["srv", "conf", "credentials.toml"] (.file (Utf8.encode soleWriter.write) time)

/-- The record at the legacy location is read at the opening, and others who leave a tree do not
change that. -/
theorem reading_legacyHome (tree : Tree) :
    reading srv .plain legacyHome [.disk tree] = some ⟨srv.join "credentials.toml", 7⟩ ∧
      (opened srv .plain legacyHome).store.current = some soleReader := by
  have hlegacy : legacyHome.entry? (srv.join "credentials.toml") =
      some (.file (Utf8.encode soleReader.write) 7) :=
    Tree.entry?_put_self rfl rfl
      (show emptyHome.follow (srv.join "credentials.toml") =
        .ok ["srv", "credentials.toml"] from rfl)
  have hnone : legacyHome.entry? (srv.join "conf/credentials.toml") = none := by
    rw [legacyHome, Tree.entry?_put rfl rfl (by decide)]
    decide
  have hpath : (Placement.ofCredentials srv).path legacyHome = srv.join "credentials.toml" := by
    simp [Placement.path, Placement.isLegacy, Placement.ofCredentials, Tree.has, hlegacy, hnone]
  have hcurrent : (opened srv .plain legacyHome).store.current = some soleReader := by
    refine (Store.ofTree_current srv .plain legacyHome).trans ?_
    rw [hpath, Credentials.load_eq_ok_of_entry (by decide) hlegacy]
    rfl
  refine ⟨?_, hcurrent⟩
  show openedReading srv .plain legacyHome = _
  rw [openedReading, hcurrent, Option.isSome_some, if_pos rfl, Reading.ofTree?, hpath, hlegacy]
  rfl

/-- The record at the current location is the one to load. -/
theorem load_movedHome (time : Time) :
    (Placement.ofCredentials srv).path (movedHome time) = srv.join "conf/credentials.toml" ∧
      (movedHome time).modified (srv.join "conf/credentials.toml") = .ok time ∧
      Credentials.load .plain (movedHome time) (srv.join "conf/credentials.toml") =
        .ok soleWriter := by
  have hentry : Tree.entry? (movedHome time) (srv.join "conf/credentials.toml") =
      some (.file (Utf8.encode soleWriter.write) time) :=
    Tree.entry?_put_self rfl rfl
      (show legacyHome.follow (srv.join "conf/credentials.toml") =
        .ok ["srv", "conf", "credentials.toml"] from rfl)
  refine ⟨?_, Tree.modified_eq_ok_iff.mpr ⟨_, hentry, rfl⟩,
    Credentials.load_eq_ok_of_entry (by decide) hentry⟩
  simp [Placement.path, Placement.isLegacy, Placement.ofCredentials, Tree.has, hentry]

/-- A record that appears at the current location is put in effect if it is later than the one that
was read at the legacy location. -/
theorem look_after_move_later :
    let site := (opened srv .plain legacyHome).course [.disk (movedHome 9)]
    reading srv .plain legacyHome [.disk (movedHome 9)] = some ⟨srv.join "credentials.toml", 7⟩ ∧
      (site.look ⟨9, "noon"⟩).store.current = some soleWriter := by
  intro site
  obtain ⟨hread, _⟩ := reading_legacyHome (movedHome 9)
  obtain ⟨hpath, htime, hload⟩ := load_movedHome 9
  obtain ⟨_, _, hlook⟩ := look_after_move srv .plain legacyHome [.disk (movedHome 9)] _ hread
    ⟨9, "noon"⟩
  have htree : site.tree = movedHome 9 := rfl
  rw [htree, hpath] at hlook
  obtain ⟨time, hmodified, hcases⟩ := hlook soleWriter hload
  obtain rfl : 9 = time := Except.ok.inj (htime.symm.trans hmodified)
  exact ⟨hread, hcases⟩

/-- A record that appears at the current location is no news if its file is as old as the one that
was read at the legacy location, or older: although it is the one to load, the one that was read
before stays in effect. -/
theorem look_after_move_backdated :
    let site := (opened srv .plain legacyHome).course [.disk (movedHome 5)]
    let path := (Placement.ofCredentials srv).path site.tree
    reading srv .plain legacyHome [.disk (movedHome 5)] = some ⟨srv.join "credentials.toml", 7⟩ ∧
      path ≠ srv.join "credentials.toml" ∧
      Credentials.load .plain site.tree path = .ok soleWriter ∧
      (site.look ⟨9, "noon"⟩).outcome = some .unchanged ∧
      (site.look ⟨9, "noon"⟩).store.current = some soleReader ∧ soleReader ≠ soleWriter := by
  intro site path
  obtain ⟨hread, hcurrent⟩ := reading_legacyHome (movedHome 5)
  obtain ⟨hpath, htime, hload⟩ := load_movedHome 5
  have hopened := opened_isKept srv .plain legacyHome
  have h : site.Remembers srv (some ⟨srv.join "credentials.toml", 7⟩) :=
    hread ▸ (opened_remembers srv .plain legacyHome).course hopened [.disk (movedHome 5)]
  have hpath : path = srv.join "conf/credentials.toml" := hpath
  have hfinding : site.store.finding site.tree = .known :=
    (h.finding_eq (hopened.course _) (hpath ▸ hload) (hpath ▸ htime)).trans (if_neg (by decide))
  rw [look, Store.reload_outcome, Store.reload_store, hfinding, hpath]
  exact ⟨hread, by decide, hload, rfl, hcurrent, by decide⟩

end Site

end BrokerAccess
