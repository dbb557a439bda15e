import Mathlib.Data.List.Forall2
import BrokerAccess.Proofs.Store.Course
import BrokerAccess.Proofs.Store.Updates

/-!
# The archive is the history

Every record that is put in effect retires the one before it, if there was one. As long as
records can be archived, each that retires is written to one new file, and no look of the store
makes any other file. A record in effect has no defects, so nothing of it is lost in its file.
Read in order, the files of the archive and then the record in effect are all the records that
were ever accepted.
-/

namespace BrokerAccess

open Files (Entry Path Time Tree)

/-- A record is what is loaded from a file that holds some bytes, wherever it stands. -/
def Credentials.IsLoadedFrom (scheme : PasswordScheme) (content : List UInt8)
    (record : Credentials) : Prop :=
  ∀ t path time, t.entry? path = some (.file content time) →
    Credentials.load scheme t path = .ok record

namespace Site

/-- A turn puts a record in effect. A look that a subscriber cut off has done so, too. -/
def promotes (site : Site) : Turn → Bool
  | .disk _ => false
  | .subscribe _ => false
  | .reload moment => (site.look moment).outcome.all fun outcome => outcome = .reloaded

/-- What the files hold that the store makes in a turn. -/
def archives (site : Site) : Turn → List (List UInt8)
  | .disk _ => []
  | .subscribe _ => []
  | .reload moment => (site.look moment).tree.newFiles site.tree

/-- The record that a turn retires, if it puts another one in effect. -/
def retires (site : Site) (turn : Turn) : List Credentials :=
  if site.promotes turn then site.store.current.toList else []

/-- The record that a turn puts in effect: the one that its file then holds. -/
def accepts (site : Site) (turn : Turn) : List Credentials :=
  if site.promotes turn then
    (Credentials.load site.store.scheme site.tree
      (site.store.placement.path site.tree)).toOption.toList
  else []

/-- A record that a turn retires can be archived. -/
def CanArchive (site : Site) : Turn → Prop
  | .disk _ => True
  | .subscribe _ => True
  | .reload moment => site.promotes (.reload moment) = true → site.store.current.isSome = true →
      site.store.archive.IsFree moment site.tree

variable {home : Path} {scheme : PasswordScheme} {site : Site}

/-- A turn puts no record in effect and makes no file, or it puts in effect what the file of the
record holds and archives the one before. -/
theorem promotes_cases (site : Site) (turn : Turn) :
    (site.promotes turn = false ∧ (site.turn turn).store.current = site.store.current ∧
      site.archives turn = []) ∨
    site.promotes turn = true ∧ ∃ moment record, turn = .reload moment ∧
      Credentials.load site.store.scheme site.tree (site.store.placement.path site.tree) =
        .ok record ∧
      (site.turn turn).store.current = some record ∧
      (site.look moment).tree =
        (site.store.archive.keep moment site.store.current site.tree).tree := by
  cases turn with
  | disk tree => exact Or.inl ⟨rfl, rfl, rfl⟩
  | subscribe subscriber => exact Or.inl ⟨rfl, rfl, rfl⟩
  | reload moment =>
    rcases site.store.reload_cases moment site.tree with
      ⟨outcome, hne, houtcome, _, htree, hstore⟩ |
      ⟨record, time, hfresh, houtcome, _, htree, hstore⟩
    · have hstore : (site.turn (.reload moment)).store = _ := hstore
      refine Or.inl ⟨?_, by rw [hstore], ?_⟩
      · simp [promotes, look, houtcome, hne]
      · rw [archives, look, htree, Tree.newFiles_self]
    · have hstore : (site.turn (.reload moment)).store = _ := hstore
      obtain ⟨hload, _, _⟩ := Store.finding_eq_fresh_iff.mp hfresh
      refine Or.inr ⟨?_, moment, record, rfl, hload, by rw [hstore], htree⟩
      rw [promotes, look, houtcome]
      split <;> rfl

/-- A turn retires no record and makes no file, or it retires the record in effect, and makes the
file of that and no other, if that can be archived. -/
theorem archives_cases {turn : Turn} (h : site.CanArchive turn) :
    (¬(site.promotes turn = true ∧ site.store.current.isSome = true) ∧ site.retires turn = [] ∧
      site.archives turn = []) ∨
    ∃ moment record, turn = .reload moment ∧ site.promotes turn = true ∧
      site.store.current = some record ∧
      (site.look moment).tree.entry? (site.store.archive.file moment) =
        some (.file (Utf8.encode record.write) moment.time) ∧
      site.archives turn = [Utf8.encode record.write] := by
  rcases site.promotes_cases turn with
    ⟨hquiet, _, hnone⟩ | ⟨hpromotes, moment, record, rfl, _, _, htree⟩
  · exact Or.inl ⟨by simp [hquiet], by simp [retires, hquiet], hnone⟩
  · rw [archives, retires, if_pos hpromotes]
    cases hcurrent : site.store.current with
    | none =>
      rw [hcurrent] at htree
      exact Or.inl ⟨by simp, rfl, by rw [htree]; exact Tree.newFiles_self site.tree⟩
    | some old =>
      have hfree := h hpromotes (by rw [hcurrent]; rfl)
      obtain ⟨hentry, hnew⟩ := Archive.keep_of_isFree hfree old
      rw [hcurrent] at htree
      rw [← htree] at hentry hnew
      exact Or.inr ⟨moment, old, rfl, hpromotes, rfl, hentry, hnew⟩

/-- A turn makes a file of the record that it retires, if that can be archived, and no other. -/
theorem archives_eq_map {turn : Turn} (h : site.CanArchive turn) :
    site.archives turn = (site.retires turn).map fun record => Utf8.encode record.write := by
  rcases archives_cases h with
    ⟨_, hretires, harchives⟩ | ⟨_, record, _, hpromotes, hcurrent, _, harchives⟩
  · rw [harchives, hretires, List.map_nil]
  · rw [harchives, retires, if_pos hpromotes, hcurrent]
    rfl

/-- What a turn retires and then what is in effect is what was in effect and then what it
accepts. -/
theorem retires_append (site : Site) (turn : Turn) :
    site.retires turn ++ (site.turn turn).store.current.toList =
      site.store.current.toList ++ site.accepts turn := by
  rcases site.promotes_cases turn with
    ⟨hquiet, hsame, _⟩ | ⟨hpromotes, _, record, _, hload, hnew, _⟩
  · rw [retires, accepts, hquiet, hsame]
    simp
  · rw [retires, accepts, if_pos hpromotes, if_pos hpromotes, hload, hnew]
    rfl

/-- All that a course retires and then what is in effect is what was in effect and then all that the
course accepts. -/
theorem along_retires_append (site : Site) (turns : List Turn) :
    site.along retires turns ++ (site.course turns).store.current.toList =
      site.store.current.toList ++ site.along accepts turns := by
  induction turns generalizing site with
  | nil => simp [along, course]
  | cons turn rest ih =>
    calc site.along retires (turn :: rest) ++ (site.course (turn :: rest)).store.current.toList
        = site.retires turn ++ ((site.turn turn).along retires rest ++
            ((site.turn turn).course rest).store.current.toList) := List.append_assoc ..
      _ = (site.retires turn ++ (site.turn turn).store.current.toList) ++
            (site.turn turn).along accepts rest := by rw [ih, List.append_assoc]
      _ = site.store.current.toList ++ site.along accepts (turn :: rest) := by
          rw [retires_append, List.append_assoc]
          rfl

/-- What is retired has no defects, so it is loaded from the file that is made of it. -/
theorem IsKept.isLoadedFrom (h : site.IsKept home scheme) {turn : Turn} {record : Credentials}
    (hrecord : record ∈ site.retires turn) :
    record.IsLoadedFrom scheme (Utf8.encode record.write) := by
  rw [retires] at hrecord
  split at hrecord
  · have hdefects := h.accepted record (Option.mem_toList.mp hrecord)
    exact fun _ _ _ hentry => Credentials.load_eq_ok_of_entry hdefects hentry
  · cases hrecord

/-- The files that are made in a course hold what is retired in it, one by one. -/
theorem IsKept.forall₂_archives (h : site.IsKept home scheme) {turns : List Turn}
    (hcan : site.Throughout CanArchive turns) :
    List.Forall₂ (fun content record => record.IsLoadedFrom scheme content)
      (site.along archives turns) (site.along retires turns) := by
  induction turns generalizing site with
  | nil => exact List.Forall₂.nil
  | cons turn rest ih =>
    refine List.rel_append ?_ (ih (h.turn turn) hcan.2)
    rw [archives_eq_map hcan.1, List.forall₂_map_left_iff, List.forall₂_same]
    exact fun record hrecord => h.isLoadedFrom hrecord

/-- As long as the records that retire can be archived, a look of the store that replaces a record
makes one file, which has the name of its time in the archive, and no other look makes any. The
files that are made hold, one by one, the records that retire, and loading them gives these back.
These records and then the one in effect are the record of the opening and then all that were
accepted since. -/
theorem archive_is_history (home : Path) (scheme : PasswordScheme) (t : Tree) (turns : List Turn)
    (hcan : (opened home scheme t).Throughout CanArchive turns) :
    let start := opened home scheme t
    (∀ before moment after, turns = before ++ .reload moment :: after →
      let site := start.course before
      if site.promotes (.reload moment) ∧ site.store.current.isSome then
        ∃ content, site.archives (.reload moment) = [content] ∧
          (site.look moment).tree.entry? ((Archive.ofHome home).file moment) =
            some (.file content moment.time)
      else site.archives (.reload moment) = []) ∧
    List.Forall₂ (fun content record => record.IsLoadedFrom scheme content)
      (start.along archives turns) (start.along retires turns) ∧
    start.along retires turns ++ (start.course turns).store.current.toList =
      (Credentials.load scheme t ((Placement.ofCredentials home).path t)).toOption.toList ++
        start.along accepts turns := by
  intro start
  have hstart : start.IsKept home scheme := opened_isKept home scheme t
  refine ⟨?_, hstart.forall₂_archives hcan, ?_⟩
  · intro before moment after hturns site
    have hsite : site.IsKept home scheme := hstart.course before
    rcases archives_cases (hcan.of_eq_append hturns) with
      ⟨hquiet, _, harchives⟩ | ⟨_, record, hmoment, hpromotes, hcurrent, hentry, harchives⟩
    · rw [if_neg hquiet]
      exact harchives
    · obtain rfl := Turn.reload.inj hmoment
      rw [hsite.archive] at hentry
      rw [if_pos ⟨hpromotes, by rw [hcurrent]; rfl⟩]
      exact ⟨_, harchives, hentry⟩
  · have hopened : start.store.current = _ := Store.ofTree_current home scheme t
    rw [along_retires_append, hopened]

/-- Another user with another role. -/
def soleWriter : Credentials where
  users := some [{ name := some "bob", password := some "boole", roles := some ["writer"] }]
  roles := some [{ id := some "writer", permissions := some [{ topic := some "orders/#" }] }]

/-- A fresh record is put in effect. -/
theorem turn_of_fresh {record : Credentials} {time : Time}
    (h : site.store.finding site.tree = .fresh record time) (moment : ArchiveTime) :
    site.promotes (.reload moment) = true ∧ (site.turn (.reload moment)).store = { site.store with
      placement := site.store.placement.seen site.tree
      current := some record
      lastRead := some time } := by
  have hstore : (site.turn (.reload moment)).store = (site.look moment).store := rfl
  rw [promotes, hstore, look, Store.reload_outcome, Store.reload_store, h]
  refine ⟨?_, rfl⟩
  simp only [Store.react]
  split <;> rfl

/-- What stands at the current location of the home is fresh if it has no defects and is no earlier
than what was read. -/
theorem IsKept.finding_filledHome (h : site.IsKept srv .plain) {record : Credentials}
    (hdefects : record.defects .plain = []) {time : Time}
    (htree : site.tree = filledHome (Utf8.encode record.write) time)
    (hnews : site.store.isKnown time = false) :
    site.store.finding site.tree = .fresh record time := by
  have hentry : site.tree.entry? (srv.join "conf/credentials.toml") =
      some (.file (Utf8.encode record.write) time) := by
    rw [htree]
    exact Tree.entry?_put_self rfl rfl
      (show emptyHome.follow (srv.join "conf/credentials.toml") =
        .ok ["srv", "conf", "credentials.toml"] from rfl)
  have hpath : site.store.placement.path site.tree = srv.join "conf/credentials.toml" := by
    rw [h.path]
    simp [Placement.path, Placement.isLegacy, Placement.ofCredentials, Tree.has, hentry]
  rw [Store.finding_eq_fresh_iff, hpath, h.stored]
  exact ⟨Credentials.load_eq_ok_of_entry hdefects hentry,
    Tree.modified_eq_ok_iff.mpr ⟨_, hentry, rfl⟩, hnews⟩

/-- Beside a file for the record of the home, a record can be archived at noon and at one. -/
theorem isFree_filledHome (content : List UInt8) (time now : Time) {label : String}
    (hlabel : label = "noon" ∨ label = "one") :
    (Archive.ofHome srv).IsFree ⟨now, label⟩ (filledHome content time) := by
  have hsteps : ((Archive.ofHome srv).folder.join (label ++ "-credentials.toml")).steps =
      ["", "srv", "credentials-archive", label ++ "-credentials.toml"] := by
    rcases hlabel with rfl | rfl <;> decide
  refine ⟨(filledHome content time).put ["srv", "credentials-archive"] (.folder now),
    ["srv", "credentials-archive", label ++ "-credentials.toml"], rfl, ?_, ?_⟩
  · rw [Tree.follow, Archive.file, hsteps]
    rcases hlabel with rfl | rfl <;> rfl
  · rcases hlabel with rfl | rfl <;> exact ⟨rfl, rfl⟩

/-- One record is written and read, then another. -/
def exchange : List Turn :=
  [.disk (filledHome (Utf8.encode soleReader.write) 5), .reload ⟨5, "noon"⟩,
    .disk (filledHome (Utf8.encode soleWriter.write) 7), .reload ⟨7, "one"⟩]

/-- In an exchange where no record is in effect, the first record is fresh, and then the second one
is while the first is in effect. -/
theorem IsKept.finding_exchange (h : site.IsKept srv .plain) (hnone : site.store.current = none) :
    let first := site.course (exchange.take 1)
    let second := site.course (exchange.take 3)
    first.store.finding first.tree = .fresh soleReader 5 ∧
      second.store.finding second.tree = .fresh soleWriter 7 ∧
      second.store.current = some soleReader ∧
      second.store.subscribers = site.store.subscribers := by
  intro first second
  have hfirst : first.store.finding first.tree = .fresh soleReader 5 := by
    refine (h.course (exchange.take 1)).finding_filledHome (by decide) rfl ?_
    have hcurrent : first.store.current = none := hnone
    rw [Store.isKnown, hcurrent]
    rfl
  obtain ⟨_, hread⟩ := turn_of_fresh hfirst ⟨5, "noon"⟩
  have hsecond : second.store = _ := hread
  refine ⟨hfirst, ?_, by rw [hsecond], by rw [hsecond]; rfl⟩
  refine (h.course (exchange.take 3)).finding_filledHome (by decide) rfl ?_
  have hknown : second.store.isKnown 7 = _ := congrArg (Store.isKnown · 7) hsecond
  rw [hknown]
  rfl

/-- In an exchange where no record is in effect, the first record retires. -/
theorem IsKept.retires_exchange (h : site.IsKept srv .plain) (hnone : site.store.current = none) :
    site.along retires exchange = [soleReader] := by
  obtain ⟨_, hsecond, hcurrent, _⟩ := h.finding_exchange hnone
  obtain ⟨hpromotes, _⟩ := turn_of_fresh hsecond ⟨7, "one"⟩
  have hfirst : (site.course (exchange.take 1)).retires (.reload ⟨5, "noon"⟩) = [] := by
    rw [retires, show (site.course (exchange.take 1)).store.current = none from hnone]
    exact ite_self _
  have hlast : (site.course (exchange.take 3)).retires (.reload ⟨7, "one"⟩) = [soleReader] := by
    rw [retires, if_pos hpromotes, hcurrent]
    rfl
  have hdisk (site : Site) (tree : Tree) : site.retires (.disk tree) = [] := rfl
  simp only [along, exchange, hdisk, List.nil_append, List.append_nil]
  exact congrArg₂ (· ++ ·) hfirst hlast

/-- Where the home has no record yet, none is in effect at the opening. -/
theorem opened_emptyHome_current : (opened srv .plain emptyHome).store.current = none :=
  (Store.ofTree_current srv .plain emptyHome).trans (Credentials.load_eq_none (by decide))

/-- When one record replaces another, the first one is archived, and loading its file gives it
back. -/
theorem archive_is_history_exchange :
    (opened srv .plain emptyHome).along retires exchange = [soleReader] ∧
      ∃ content, (opened srv .plain emptyHome).along archives exchange = [content] ∧
        soleReader.IsLoadedFrom .plain content := by
  have hstart := opened_isKept srv .plain emptyHome
  have hretires := hstart.retires_exchange opened_emptyHome_current
  have hcan : (opened srv .plain emptyHome).Throughout CanArchive exchange := by
    have hfree (before : List Turn) (content : List UInt8) (time now : Time) {label : String}
        (hlabel : label = "noon" ∨ label = "one") :
        ((opened srv .plain emptyHome).course before).store.archive.IsFree ⟨now, label⟩
          (filledHome content time) := by
      rw [(hstart.course before).archive]
      exact isFree_filledHome content time now hlabel
    exact ⟨trivial, fun _ _ => hfree (exchange.take 1) _ _ _ (Or.inl rfl), trivial,
      fun _ _ => hfree (exchange.take 3) _ _ _ (Or.inr rfl), trivial⟩
  obtain ⟨_, hfiles, _⟩ := archive_is_history srv .plain emptyHome exchange hcan
  rw [hretires, List.forall₂_cons_right_iff] at hfiles
  obtain ⟨content, rest, hloaded, hrest, harchives⟩ := hfiles
  obtain rfl := List.forall₂_nil_right_iff.mp hrest
  exact ⟨hretires, content, harchives, hloaded⟩

end Site

end BrokerAccess
