import BrokerAccess.Proofs.Archive
import BrokerAccess.Proofs.Store.Run

/-!
# No update is lost

The store compares nothing but times of change. That is enough as long as the record's file
stands at one of its two locations only and every version of it is later than all before,
be it removed in between or not: then every look at the file finds what it holds, and a
version that is refused never hides one that follows. What is expected of the store is
told by what others leave and by when the store looks, without the store.
-/

namespace BrokerAccess

open Files (Entry Path Time Tree)

/-! ## Loading -/

/-- What is loaded depends only on what stands there. -/
theorem Credentials.load_congr (scheme : PasswordScheme) {t t' : Tree} {path path' : Path}
    (h : t.entry? path = t'.entry? path') :
    (Credentials.load scheme t path).toOption = (Credentials.load scheme t' path').toOption := by
  have hiff (record : Credentials) :
      Credentials.load scheme t path = .ok record ↔
        Credentials.load scheme t' path' = .ok record := by
    rw [Credentials.load_eq_ok_iff, Credentials.load_eq_ok_iff, Credentials.ofFile_eq_ok_iff,
      Credentials.ofFile_eq_ok_iff, h]
  apply Option.ext
  intro record
  have hsome {e : Except LoadError Credentials} : e.toOption = some record ↔ e = .ok record := by
    cases e <;> simp [Except.toOption]
  rw [hsome, hsome, hiff]

/-- Nothing is loaded where nothing stands. -/
theorem Credentials.load_eq_none {scheme : PasswordScheme} {t : Tree} {path : Path}
    (h : t.entry? path = none) : (Credentials.load scheme t path).toOption = none := by
  cases hload : Credentials.load scheme t path with
  | error error => rfl
  | ok record =>
    obtain ⟨_, _, _, hentry, _⟩ :=
      Credentials.ofFile_eq_ok_iff.mp (Credentials.load_eq_ok_iff.mp hload).1
    rw [h] at hentry
    cases hentry

/-- A record without defects is loaded from the file that it was written to. -/
theorem Credentials.load_eq_ok_of_entry {scheme : PasswordScheme} {c : Credentials}
    (hdefects : c.defects scheme = []) {t : Tree} {path : Path} {time : Time}
    (h : t.entry? path = some (.file (Utf8.encode c.write) time)) :
    Credentials.load scheme t path = .ok c := by
  have hfilled := c.filled_eq_self_iff.mpr (Credentials.isSpelledOut_of_defects hdefects)
  have hread := c.read?_write
  rw [hfilled] at hread
  have hfile := Credentials.ofFile_eq_ok_iff.mpr ⟨_, time, _, h, Utf8.decode?_encode c.write, hread⟩
  exact Credentials.load_eq_ok_iff.mpr ⟨hfile, hdefects⟩

/-! ## What others do -/

/-- What others did at the location of a record, and what was to be seen there. -/
structure Trail where
  /-- What others left last. -/
  tree : Tree
  /-- The latest time of change that anything had there so far. -/
  latest : Option Time
  /-- The record that was there at the last look that found one free of defects. -/
  valid : Option Credentials

namespace Trail

/-- The trail of a location from the opening of the store on. -/
def opened (scheme : PasswordScheme) (live : Path) (t : Tree) : Trail where
  tree := t
  latest := (t.entry? live).map Entry.modified
  valid := (Credentials.load scheme t live).toOption

/-- The trail after an event. -/
def step (scheme : PasswordScheme) (live : Path) (trail : Trail) : SiteEvent → Trail
  | .disk tree =>
    { trail with tree, latest := ((tree.entry? live).map Entry.modified).or trail.latest }
  | .subscribe _ => trail
  | .reload _ =>
    { trail with valid := (Credentials.load scheme trail.tree live).toOption.or trail.valid }

/-- The trail after events in order. -/
def run (scheme : PasswordScheme) (live : Path) (trail : Trail) (events : List SiteEvent) : Trail :=
  events.foldl (step scheme live) trail

/-- Others leave nothing at the dead location, and at the live one what stood there, nothing at all,
or something later than all before. -/
def Allows (live dead : Path) (trail : Trail) : SiteEvent → Prop
  | .disk tree =>
    tree.has dead = false ∧ (tree.entry? live = trail.tree.entry? live ∨
      ∀ entry ∈ tree.entry? live, ∀ last ∈ trail.latest, last < entry.modified)
  | .subscribe _ => True
  | .reload _ => True

/-- Events of which each is allowed after those before it. -/
def IsOrderly (scheme : PasswordScheme) (live dead : Path) : Trail → List SiteEvent → Prop
  | _, [] => True
  | trail, event :: rest =>
    trail.Allows live dead event ∧ IsOrderly scheme live dead (trail.step scheme live event) rest

end Trail

namespace Site

/-! ## Keeping up -/

/-- One of the locations of a home's record, and the other one. -/
def AreLocations (home live dead : Path) : Prop :=
  (live = (Placement.ofCredentials home).current ∧ dead = (Placement.ofCredentials home).legacy) ∨
    live = (Placement.ofCredentials home).legacy ∧ dead = (Placement.ofCredentials home).current

/-- A site that has kept up with a trail. -/
structure KeepsUp (home : Path) (scheme : PasswordScheme) (live dead : Path) (site : Site)
    (trail : Trail) : Prop where
  /-- The store is the one that was opened. -/
  tended : site.IsTended home scheme
  /-- Replaced records go where they went. -/
  archive : site.store.archive = .ofHome home
  /-- At the live location stands what others left. -/
  entry : site.tree.entry? live = trail.tree.entry? live
  /-- Nothing stands at the dead location. -/
  free : site.tree.has dead = false
  /-- What stands at the live location is as late as anything that stood there. -/
  dated : ∀ entry, trail.tree.entry? live = some entry → trail.latest = some entry.modified
  /-- The record in effect is the last one to be seen. -/
  current : site.store.current = trail.valid
  /-- What the store has read is no later than what stood there. -/
  read : ∀ time, site.store.lastRead = some time → ∃ last, trail.latest = some last ∧ time ≤ last
  /-- What the store takes for no news holds the record in effect. -/
  known : ∀ time entry, site.store.lastRead = some time → trail.tree.entry? live = some entry →
    entry.modified ≤ time → (Credentials.load scheme trail.tree live).toOption = site.store.current

variable {home live dead : Path} {scheme : PasswordScheme} {site : Site} {trail : Trail}

/-- The live location is the one to be read, unless nothing stands there. -/
theorem entry?_path (hplaces : AreLocations home live dead) {t : Tree}
    (hfree : t.has dead = false) :
    t.entry? ((Placement.ofCredentials home).path t) = t.entry? live ∧
      (∀ entry, t.entry? live = some entry → (Placement.ofCredentials home).path t = live) := by
  have hdead : t.entry? dead = none := by
    rw [Tree.has] at hfree
    simpa using hfree
  rcases hplaces with ⟨rfl, rfl⟩ | ⟨rfl, rfl⟩
  · have hpath : (Placement.ofCredentials home).path t =
        (Placement.ofCredentials home).current := by
      simp [Placement.path, Placement.isLegacy, hfree]
    exact ⟨by rw [hpath], fun _ _ => hpath⟩
  · cases hlive : t.entry? (Placement.ofCredentials home).legacy with
    | none =>
      have hpath : (Placement.ofCredentials home).path t =
          (Placement.ofCredentials home).current := by
        simp [Placement.path, Placement.isLegacy, Tree.has, hlive]
      refine ⟨by rw [hpath, hdead], ?_⟩
      intro entry hentry
      cases hentry
    | some entry =>
      have hpath : (Placement.ofCredentials home).path t =
          (Placement.ofCredentials home).legacy := by
        simp [Placement.path, Placement.isLegacy, Tree.has, hlive, hdead]
      exact ⟨by rw [hpath, hlive], fun _ _ => hpath⟩

/-- A look finds what others left, unless it takes that for no news. -/
theorem KeepsUp.finding_eq (h : site.KeepsUp home scheme live dead trail)
    (hplaces : AreLocations home live dead) :
    site.store.finding site.tree =
      match trail.tree.entry? live with
      | none => .absent
      | some entry =>
        if site.store.isKnown entry.modified then .known
        else
          match (Credentials.load scheme trail.tree live).toOption with
          | none => .unusable
          | some record => .fresh record entry.modified := by
  obtain ⟨hsame, hpath⟩ := entry?_path hplaces h.free
  have hload := Credentials.load_congr scheme h.entry
  rw [Store.finding, h.tended.placed, hsame, h.entry]
  cases hentry : trail.tree.entry? live with
  | none => rfl
  | some entry =>
    rw [hpath entry (h.entry.trans hentry), h.tended.scheme, ← hload]
    by_cases hknown : site.store.isKnown entry.modified = true
    · simp only [if_pos hknown]
    · simp only [if_neg hknown]
      cases Credentials.load scheme site.tree live <;> rfl

/-- What the store takes for no news was there when it last read the location. -/
theorem KeepsUp.load_of_isKnown (h : site.KeepsUp home scheme live dead trail) {entry : Entry}
    (hentry : trail.tree.entry? live = some entry)
    (hknown : site.store.isKnown entry.modified = true) :
    ∃ record, site.store.current = some record ∧
      (Credentials.load scheme trail.tree live).toOption = some record := by
  rw [Store.isKnown, Bool.and_eq_true, Option.any_eq_true] at hknown
  obtain ⟨hcurrent, time, htime, hle⟩ := hknown
  obtain ⟨record, hrecord⟩ := Option.isSome_iff_exists.mp hcurrent
  have hsame := h.known time entry htime hentry (of_decide_eq_true hle)
  exact ⟨record, hrecord, hsame.trans hrecord⟩

/-- All that a reload can come to at a site that has kept up: the file is missing, it is refused, it
holds the record in effect, or its record is put in effect. -/
theorem KeepsUp.reload_cases (h : site.KeepsUp home scheme live dead trail)
    (hplaces : AreLocations home live dead) (moment : ArchiveTime) :
    let found := (Credentials.load scheme trail.tree live).toOption
    (trail.tree.entry? live = none ∧ site.answer (.reload moment) = some .missing ∧
      site.store.finding site.tree = .absent) ∨
    (∃ entry, trail.tree.entry? live = some entry ∧ found = none ∧
      site.answer (.reload moment) = some .rejected ∧
      site.store.finding site.tree = .unusable) ∨
    (∃ entry record, trail.tree.entry? live = some entry ∧ found = some record ∧
      site.answer (.reload moment) = some .unchanged ∧ site.store.current = some record ∧
      site.store.finding site.tree = .known) ∨
    (∃ entry record, trail.tree.entry? live = some entry ∧ found = some record ∧
      site.answer (.reload moment) = some .reloaded ∧
      site.store.finding site.tree = .fresh record entry.modified) := by
  intro found
  have hfinding := h.finding_eq hplaces
  have hanswer : site.answer (.reload moment) = _ := site.store.reload_outcome moment site.tree
  rw [hanswer]
  cases hentry : trail.tree.entry? live with
  | none =>
    simp only [hentry] at hfinding
    exact Or.inl ⟨rfl, by rw [hfinding]; rfl, hfinding⟩
  | some entry =>
    simp only [hentry] at hfinding
    by_cases hknown : site.store.isKnown entry.modified = true
    · rw [if_pos hknown] at hfinding
      obtain ⟨record, hcurrent, hload⟩ := h.load_of_isKnown hentry hknown
      refine Or.inr (Or.inr (Or.inl ⟨entry, record, rfl, hload, ?_, hcurrent, hfinding⟩))
      rw [hfinding]
      rfl
    · rw [if_neg hknown] at hfinding
      cases hload : (Credentials.load scheme trail.tree live).toOption with
      | none =>
        simp only [hload] at hfinding
        exact Or.inr (Or.inl ⟨entry, rfl, hload, by rw [hfinding]; rfl, hfinding⟩)
      | some record =>
        simp only [hload] at hfinding
        have hdeliver : deliver site.store.current record site.store.subscribers = _ :=
          deliver_of_calm fun subscriber hs =>
            h.tended.sound.calm subscriber hs site.store.current record
        refine Or.inr (Or.inr (Or.inr ⟨entry, record, rfl, hload, ?_, hfinding⟩))
        rw [hfinding]
        simp only [Store.react, hdeliver, if_true]

/-- Others who leave what is allowed do not outrun a site. -/
theorem KeepsUp.disk (h : site.KeepsUp home scheme live dead trail) {tree : Tree}
    (hallows : trail.Allows live dead (.disk tree)) :
    (site.step (.disk tree)).KeepsUp home scheme live dead
      (trail.step scheme live (.disk tree)) := by
  obtain ⟨hfree, hentry⟩ := hallows
  -- What stands there now was not written since, or is later than all that the store has read.
  have hcases : ∀ entry, tree.entry? live = some entry →
      trail.tree.entry? live = some entry ∨
        ∀ time, site.store.lastRead = some time → time < entry.modified := by
    intro entry he
    rcases hentry with hsame | hlater
    · exact Or.inl (hsame.symm.trans he)
    · refine Or.inr fun time htime => ?_
      obtain ⟨last, hlast, hle⟩ := h.read time htime
      exact Int.lt_of_le_of_lt hle (hlater entry he last hlast)
  refine ⟨h.tended.step (.disk tree), h.archive, rfl, hfree, ?_, h.current, ?_, ?_⟩
  · intro entry he
    simp only [Trail.step] at he ⊢
    rw [he]
    rfl
  · intro time htime
    obtain ⟨last, hlast, hle⟩ := h.read time htime
    cases he : tree.entry? live with
    | none => exact ⟨last, by simp [Trail.step, he, hlast], hle⟩
    | some entry =>
      refine ⟨entry.modified, by simp [Trail.step, he], ?_⟩
      rcases hcases entry he with hsame | hlater
      · have hdated := h.dated entry hsame
        rw [hlast] at hdated
        rwa [← Option.some.inj hdated]
      · exact Int.le_of_lt (hlater time htime)
  · intro time entry htime he hle
    rcases hcases entry he with hsame | hlater
    · have hload := Credentials.load_congr scheme (he.trans hsame.symm)
      exact hload.trans (h.known time entry htime hsame hle)
    · exact absurd hle (Int.not_le.mpr (hlater time htime))

/-- A look that puts nothing in effect leaves a site as it is, but for the use of the legacy
location; it has kept up if the record in effect is the last one seen. -/
theorem KeepsUp.of_quiet (h : site.KeepsUp home scheme live dead trail) {after : Site}
    (htended : after.IsTended home scheme)
    (hstore : after.store = { site.store with placement := site.store.placement.seen site.tree })
    (htree : after.tree = site.tree) {valid : Option Credentials}
    (hvalid : site.store.current = valid) :
    after.KeepsUp home scheme live dead { trail with valid } := by
  obtain ⟨store, tree⟩ := after
  obtain rfl : tree = site.tree := htree
  obtain rfl : store = { site.store with placement := site.store.placement.seen site.tree } :=
    hstore
  exact ⟨htended, h.archive, h.entry, h.free, h.dated, hvalid, h.read, h.known⟩

/-- Where something stands at the live location, archiving a record changes nothing at both. -/
theorem KeepsUp.entry?_keep (h : site.KeepsUp home scheme live dead trail)
    (hplaces : AreLocations home live dead) {entry : Entry}
    (hentry : trail.tree.entry? live = some entry) (moment : ArchiveTime)
    (record : Option Credentials) {other : Path} (hother : other = live ∨ other = dead) :
    Tree.entry? (site.store.archive.keep moment record site.tree).tree other =
      site.tree.entry? other := by
  have hlive : live = (Placement.ofCredentials home).current ∨
      live = (Placement.ofCredentials home).legacy := hplaces.imp And.left And.left
  have hother : other = (Placement.ofCredentials home).current ∨
      other = (Placement.ofCredentials home).legacy := by
    rcases hplaces with ⟨rfl, rfl⟩ | ⟨rfl, rfl⟩
    · exact hother
    · exact hother.symm
  rw [h.archive]
  exact Archive.entry?_keep_ofCredentials hlive hother (h.entry.trans hentry) moment record

/-- A look of the store keeps it up with what others did. -/
theorem KeepsUp.reload (h : site.KeepsUp home scheme live dead trail)
    (hplaces : AreLocations home live dead) (moment : ArchiveTime) :
    (site.step (.reload moment)).KeepsUp home scheme live dead
      (trail.step scheme live (.reload moment)) := by
  have htended := h.tended.step (.reload moment)
  have hstore : (site.step (.reload moment)).store = _ := site.store.reload_store moment site.tree
  have htree : (site.step (.reload moment)).tree = _ := site.store.reload_tree moment site.tree
  rcases h.reload_cases hplaces moment with ⟨hentry, _, hfinding⟩ |
    ⟨entry, hentry, hfound, _, hfinding⟩ |
    ⟨entry, record, hentry, hfound, _, hcurrent, hfinding⟩ |
    ⟨entry, record, hentry, hfound, _, hfinding⟩
  · rw [hfinding] at hstore htree
    exact h.of_quiet htended hstore htree
      (by rw [Credentials.load_eq_none hentry, Option.none_or, h.current])
  · rw [hfinding] at hstore htree
    exact h.of_quiet htended hstore htree (by rw [hfound, Option.none_or, h.current])
  · rw [hfinding] at hstore htree
    exact h.of_quiet htended hstore htree (by rw [hfound, Option.some_or, hcurrent])
  · rw [hfinding] at hstore htree
    have hkeep {other : Path} (hother : other = live ∨ other = dead) :
        (site.step (.reload moment)).tree.entry? other = site.tree.entry? other := by
      rw [htree]
      exact h.entry?_keep hplaces hentry moment site.store.current hother
    refine ⟨htended, ?_, ?_, ?_, h.dated, ?_, ?_, ?_⟩
    · rw [hstore]
      exact h.archive
    · exact (hkeep (Or.inl rfl)).trans h.entry
    · have hfree := h.free
      rw [Tree.has] at hfree ⊢
      rw [hkeep (Or.inr rfl), hfree]
    · rw [hstore]
      simp only [Store.react, Trail.step, hfound, Option.some_or]
    · intro time htime
      rw [hstore] at htime
      obtain rfl : entry.modified = time := Option.some.inj htime
      exact ⟨entry.modified, h.dated entry hentry, Int.le_refl _⟩
    · intro time other _ _ _
      rw [hstore]
      exact hfound

/-- An orderly run keeps a site up with what others did. -/
theorem KeepsUp.run (h : site.KeepsUp home scheme live dead trail)
    (hplaces : AreLocations home live dead) {events : List SiteEvent}
    (horderly : trail.IsOrderly scheme live dead events) :
    (site.run events).KeepsUp home scheme live dead (trail.run scheme live events) := by
  induction events generalizing site trail with
  | nil => exact h
  | cons event rest ih =>
    obtain ⟨hallows, hrest⟩ := horderly
    refine ih ?_ hrest
    cases event with
    | disk tree => exact h.disk hallows
    | subscribe recipient =>
      exact ⟨h.tended.step (.subscribe recipient), h.archive, h.entry, h.free, h.dated, h.current,
        h.read, h.known⟩
    | reload moment => exact h.reload hplaces moment

/-- A site has kept up when it is opened. -/
theorem opened_keepsUp (hplaces : AreLocations home live dead) {t : Tree}
    (hfree : t.has dead = false) :
    (opened home scheme t).KeepsUp home scheme live dead (Trail.opened scheme live t) := by
  obtain ⟨hsame, _⟩ := entry?_path hplaces hfree
  have hstore : (opened home scheme t).store = _ := Store.ofTree_fst home scheme t
  have hcurrent : (opened home scheme t).store.current =
      (Credentials.load scheme t live).toOption :=
    (Store.ofTree_current home scheme t).trans (Credentials.load_congr scheme hsame)
  refine ⟨opened_isTended home scheme t, ?_, rfl, hfree, ?_, hcurrent, ?_, ?_⟩
  · rw [hstore]
  · intro entry he
    have hentry : t.entry? live = some entry := he
    simp only [Trail.opened, hentry, Option.map_some]
  · intro time htime
    rw [hstore] at htime
    refine ⟨time, ?_, Int.le_refl time⟩
    simp only [Trail.opened]
    rw [← hsame, Tree.entry?]
    simp only [Tree.modified] at htime
    cases hentry : t.entry ((Placement.ofCredentials home).path t) with
    | error error =>
      rw [hentry] at htime
      cases htime
    | ok entry =>
      rw [hentry] at htime
      cases hload : Credentials.load scheme t ((Placement.ofCredentials home).path t) with
      | error error =>
        rw [hload] at htime
        cases htime
      | ok record =>
        rw [hload] at htime
        exact htime
  · intro time entry _ _ _
    exact hcurrent.symm

/-- No update of a record's file is lost. One of its two locations stays free, and what others leave
at the other is later than all that stood there before, be it removed in between. Then whenever the
store looks, it reports a file that is not there as missing and keeps what is in effect; a record
that it finds free of defects is in effect afterwards, be it new or not; and anything else it
rejects, and the record in effect is the last one that the opening or a look found free of
defects. -/
theorem no_lost_update (home : Path) (scheme : PasswordScheme) (live dead : Path)
    (hplaces : AreLocations home live dead) (t : Tree) (hfree : t.has dead = false)
    (events : List SiteEvent)
    (horderly : (Trail.opened scheme live t).IsOrderly scheme live dead events)
    (moment : ArchiveTime) :
    let site := (opened home scheme t).run events
    let trail := (Trail.opened scheme live t).run scheme live events
    let after := site.step (.reload moment)
    site.tree.entry? live = trail.tree.entry? live ∧
    (trail.tree.has live = false →
      site.answer (.reload moment) = some .missing ∧ after.store.current = site.store.current) ∧
    (∀ record, Credentials.load scheme trail.tree live = .ok record →
      (site.answer (.reload moment) = some .reloaded ∨
        site.answer (.reload moment) = some .unchanged) ∧
      after.store.current = some record) ∧
    (trail.tree.has live = true →
      (∀ record, Credentials.load scheme trail.tree live ≠ .ok record) →
      site.answer (.reload moment) = some .rejected ∧ after.store.current = trail.valid) := by
  intro site trail after
  have h : site.KeepsUp home scheme live dead trail :=
    (opened_keepsUp hplaces hfree).run hplaces horderly
  have hcases := h.reload_cases hplaces moment
  have hcurrent : after.store.current =
      (Credentials.load scheme trail.tree live).toOption.or trail.valid :=
    (h.reload hplaces moment).current
  refine ⟨h.entry, ?_, ?_, ?_⟩
  · intro habsent
    have hentry : trail.tree.entry? live = none := by
      rw [Tree.has] at habsent
      simpa using habsent
    rw [Credentials.load_eq_none hentry, Option.none_or] at hcurrent
    refine ⟨?_, hcurrent.trans h.current.symm⟩
    rcases hcases with ⟨_, hanswer, _⟩ | ⟨_, he, _⟩ | ⟨_, _, he, _⟩ | ⟨_, _, he, _⟩
    · exact hanswer
    all_goals
      rw [hentry] at he
      cases he
  · intro record hload
    have hfound : (Credentials.load scheme trail.tree live).toOption = some record := by
      rw [hload]
      rfl
    rw [hfound, Option.some_or] at hcurrent
    refine ⟨?_, hcurrent⟩
    rcases hcases with ⟨hentry, _⟩ | ⟨_, _, hnone, _⟩ | ⟨_, _, _, _, hanswer, _⟩ |
      ⟨_, _, _, _, hanswer, _⟩
    · rw [Credentials.load_eq_none hentry] at hfound
      cases hfound
    · rw [hnone] at hfound
      cases hfound
    · exact Or.inr hanswer
    · exact Or.inl hanswer
  · intro hpresent hload
    have hfound : (Credentials.load scheme trail.tree live).toOption = none := by
      cases hcase : Credentials.load scheme trail.tree live with
      | error error => rfl
      | ok record => exact absurd hcase (hload record)
    rw [hfound, Option.none_or] at hcurrent
    refine ⟨?_, hcurrent⟩
    rcases hcases with ⟨hentry, _⟩ | ⟨_, _, _, hanswer, _⟩ | ⟨_, _, _, hsome, _⟩ |
      ⟨_, _, _, hsome, _⟩
    · rw [Tree.has, hentry] at hpresent
      cases hpresent
    · exact hanswer
    all_goals
      rw [hfound] at hsome
      cases hsome

/-- A home folder. -/
def srv : Path := ⟨[], ["", "srv"]⟩

/-- A tree in which the home has no record yet. -/
def emptyHome : Tree := ⟨[(["srv"], .folder 0), (["srv", "conf"], .folder 0)]⟩

/-- The tree with a file for the record of the home. -/
def filledHome (content : List UInt8) (time : Time) : Tree :=
  emptyHome.put ["srv", "conf", "credentials.toml"] (.file content time)

/-- One user with one role. -/
def soleReader : Credentials where
  users := some [{ name := some "ada", password := some "lovelace", roles := some ["reader"] }]
  roles := some [{ id := some "reader", permissions := some [{ topic := some "news/#" }] }]

/-- A record is written, removed, and replaced by what is no text; the store looks after the first
and the second. -/
def comeback : List SiteEvent :=
  [.disk (filledHome (Utf8.encode soleReader.write) 5), .reload ⟨5, "noon"⟩,
    .disk emptyHome, .reload ⟨6, "one"⟩, .disk (filledHome [0xFF] 7)]

/-- The record that was written first stays in effect when it is replaced by what is no text. -/
theorem no_lost_update_comeback :
    ((opened srv .plain emptyHome).run comeback).answer (.reload ⟨8, "two"⟩) = some .rejected ∧
      (((opened srv .plain emptyHome).run comeback).step (.reload ⟨8, "two"⟩)).store.current =
        some soleReader := by
  have hplaces : AreLocations srv (srv.join "conf/credentials.toml")
      (srv.join "credentials.toml") := Or.inl ⟨rfl, rfl⟩
  have hfollow : emptyHome.follow (srv.join "conf/credentials.toml") =
      .ok ["srv", "conf", "credentials.toml"] := rfl
  have hfilled (content : List UInt8) (time : Time) :
      Tree.entry? (filledHome content time) (srv.join "conf/credentials.toml") =
        some (.file content time) := Tree.entry?_put_self rfl rfl hfollow
  have hempty : emptyHome.entry? (srv.join "conf/credentials.toml") = none := by decide
  have horderly : (Trail.opened .plain (srv.join "conf/credentials.toml") emptyHome).IsOrderly
      .plain (srv.join "conf/credentials.toml") (srv.join "credentials.toml") comeback := by
    refine ⟨⟨by decide, Or.inr ?_⟩, trivial, ⟨by decide, Or.inr ?_⟩, trivial,
      ⟨by decide, Or.inr ?_⟩, trivial⟩
    · simp [Trail.opened, hempty]
    · simp [hempty]
    · simp [Trail.step, Trail.opened, hempty, hfilled, Entry.modified]
  obtain ⟨_, _, _, hrejected⟩ := no_lost_update srv .plain _ _ hplaces emptyHome (by decide)
    comeback horderly ⟨8, "two"⟩
  have hbroken : ∀ record, Credentials.load .plain (filledHome [0xFF] 7)
      (srv.join "conf/credentials.toml") ≠ .ok record := by
    intro record hload
    obtain ⟨content, time, text, hentry, hdecode, _⟩ :=
      Credentials.ofFile_eq_ok_iff.mp (Credentials.load_eq_ok_iff.mp hload).1
    rw [hfilled] at hentry
    cases hentry
    simp [Utf8.decode?, Utf8.pieces, Utf8.piece] at hdecode
  have hwritten := Credentials.load_eq_ok_of_entry (show soleReader.defects .plain = [] by decide)
    (hfilled _ 5)
  have hnone : (Credentials.load .plain emptyHome (srv.join "conf/credentials.toml")).toOption =
      none := Credentials.load_eq_none hempty
  have hvalid : ((Trail.opened .plain (srv.join "conf/credentials.toml") emptyHome).run .plain
      (srv.join "conf/credentials.toml") comeback).valid =
        (Credentials.load .plain emptyHome (srv.join "conf/credentials.toml")).toOption.or
          ((Credentials.load .plain (filledHome (Utf8.encode soleReader.write) 5)
              (srv.join "conf/credentials.toml")).toOption.or
            (Credentials.load .plain emptyHome (srv.join "conf/credentials.toml")).toOption) := rfl
  obtain ⟨hanswer, hcurrent⟩ := hrejected (by rfl) hbroken
  rw [hvalid, hwritten, hnone, Option.none_or, Option.or_none] at hcurrent
  exact ⟨hanswer, hcurrent⟩

end Site

end BrokerAccess
