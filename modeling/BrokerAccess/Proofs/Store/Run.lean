import BrokerAccess.Proofs.Store.Sound

/-!
# Runs of a store

A store is opened on a tree, and from then on looks at it again and again while others
change it as they like: files may come and go, hold anything, and bear any time of
change, earlier ones included. One lemma says what a step can do to the record in effect;
all that holds of a whole run follows from it.
-/

namespace BrokerAccess

open Files (Path Time Tree)

/-- A store and the tree that it looks at. -/
structure Site where
  /-- The store. -/
  store : Store
  /-- What its file system holds. -/
  tree : Tree

/-- What can happen to a site. -/
inductive SiteEvent where
  /-- Others leave a tree of any kind. -/
  | disk (tree : Tree)
  /-- Somebody subscribes who never fails. -/
  | subscribe (recipient : Recipient)
  /-- The store looks at its file. -/
  | reload (moment : ArchiveTime)

namespace Site

/-- A store opened below a home folder, on its tree. -/
def opened (home : Path) (scheme : PasswordScheme) (t : Tree) : Site :=
  ⟨(Store.ofTree home scheme t).1, t⟩

/-- The site after an event. -/
def step (site : Site) : SiteEvent → Site
  | .disk tree => { site with tree }
  | .subscribe recipient => { site with store := site.store.subscribe { recipient } }
  | .reload moment =>
    let reload := site.store.reload moment site.tree
    ⟨reload.store, reload.tree⟩

/-- How an event ends, if it is a reload. -/
def answer (site : Site) : SiteEvent → Option Outcome
  | .disk _ => none
  | .subscribe _ => none
  | .reload moment => (site.store.reload moment site.tree).outcome

/-- The site after events in order. -/
def run (site : Site) (events : List SiteEvent) : Site := events.foldl step site

/-- The times of change of the files that were put in effect in a run, in order. -/
def promotions : Site → List SiteEvent → List Time
  | _, [] => []
  | site, event :: rest =>
    if site.answer event = some .reloaded then
      (site.step event).store.lastRead.toList ++ promotions (site.step event) rest
    else promotions (site.step event) rest

/-- The store of a site is sound, and still the one that was opened below a home folder for a
scheme. -/
structure IsTended (home : Path) (scheme : PasswordScheme) (site : Site) : Prop where
  /-- The store is sound. -/
  sound : site.store.IsSound
  /-- Passwords are stored as they were. -/
  scheme : site.store.scheme = scheme
  /-- The file is looked for where it was. -/
  placed : ∀ t, site.store.placement.path t = (Placement.ofCredentials home).path t

variable {home : Path} {scheme : PasswordScheme} {site : Site}

/-- A site is tended from its opening on. -/
theorem opened_isTended (home : Path) (scheme : PasswordScheme) (t : Tree) :
    (opened home scheme t).IsTended home scheme where
  sound := Store.ofTree_isSound home scheme t
  scheme := by rw [opened, Store.ofTree_fst]
  placed := by
    intro t'
    rw [opened, Store.ofTree_fst]
    rfl

/-- An event keeps a site tended. -/
theorem IsTended.step (h : site.IsTended home scheme) (event : SiteEvent) :
    (site.step event).IsTended home scheme := by
  cases event with
  | disk tree => exact ⟨h.sound, h.scheme, h.placed⟩
  | subscribe recipient =>
    exact ⟨h.sound.subscribe fun _ _ => rfl, h.scheme, h.placed⟩
  | reload moment =>
    refine ⟨h.sound.reload moment site.tree, ?_, ?_⟩
    · exact (site.store.reload_scheme moment site.tree).trans h.scheme
    · intro t
      exact (site.store.reload_path moment site.tree t).trans (h.placed t)

/-- A run keeps a site tended. -/
theorem IsTended.run (h : site.IsTended home scheme) (events : List SiteEvent) :
    (site.run events).IsTended home scheme := by
  induction events generalizing site with
  | nil => exact h
  | cons event rest ih => exact ih (h.step event)

/-- An event either leaves the record in effect as it is, or is a reload that says that it has put
in effect what the file held at that moment, and the file is later than any before it. -/
theorem IsTended.step_cases (h : site.IsTended home scheme) (event : SiteEvent) :
    (site.answer event ≠ some .reloaded ∧
      (site.step event).store.current = site.store.current ∧
      (site.step event).store.lastRead = site.store.lastRead) ∨
    site.answer event = some .reloaded ∧ ∃ record time,
      Credentials.load scheme site.tree ((Placement.ofCredentials home).path site.tree) =
        .ok record ∧
      site.tree.modified ((Placement.ofCredentials home).path site.tree) = .ok time ∧
      (∀ last, site.store.lastRead = some last → last < time) ∧
      (site.step event).store.current = some record ∧
      (site.step event).store.lastRead = some time := by
  cases event with
  | disk tree => exact Or.inl ⟨(Option.some_ne_none _).symm, rfl, rfl⟩
  | subscribe recipient => exact Or.inl ⟨(Option.some_ne_none _).symm, rfl, rfl⟩
  | reload moment =>
    rcases h.sound.reload_cases moment site.tree with
      ⟨ho, _, hs⟩ | ⟨ho, record, time, hl, hm, hlast, _, hs⟩
    · have hstep : (site.step (.reload moment)).store = _ := hs
      exact Or.inl ⟨ho, by rw [hstep], by rw [hstep]⟩
    · have hstep : (site.step (.reload moment)).store = _ := hs
      rw [h.placed, h.scheme] at hl
      rw [h.placed] at hm
      exact Or.inr ⟨ho, record, time, hl, hm, hlast, by rw [hstep], by rw [hstep]⟩

/-- A record that is in effect is followed by none but a record. -/
theorem IsTended.run_current_isSome (h : site.IsTended home scheme)
    (hc : site.store.current.isSome) (events : List SiteEvent) :
    (site.run events).store.current.isSome := by
  induction events generalizing site with
  | nil => exact hc
  | cons event rest ih =>
    refine ih (h.step event) ?_
    rcases h.step_cases event with ⟨_, hcur, _⟩ | ⟨_, record, _, _, _, _, hcur, _⟩
    · rw [hcur]
      exact hc
    · rw [hcur]
      rfl

/-- The files that are put in effect are later and later, from the one that was read before. -/
theorem IsTended.promotions_pairwise (h : site.IsTended home scheme) (events : List SiteEvent) :
    (site.store.lastRead.toList ++ site.promotions events).Pairwise (· < ·) := by
  induction events generalizing site with
  | nil =>
    rw [promotions, List.append_nil]
    cases site.store.lastRead with
    | none => exact List.Pairwise.nil
    | some last => exact List.pairwise_singleton _ last
  | cons event rest ih =>
    have hrest := ih (h.step event)
    rw [promotions]
    rcases h.step_cases event with ⟨ho, _, hsame⟩ | ⟨ho, _, time, _, _, hlater, _, hnew⟩
    · rw [hsame] at hrest
      rw [if_neg ho]
      exact hrest
    · rw [hnew, Option.toList_some, List.singleton_append] at hrest
      rw [if_pos ho, hnew, Option.toList_some, List.singleton_append]
      cases hl : site.store.lastRead with
      | none => exact hrest
      | some last =>
        have hlt : last < time := hlater last hl
        rw [Option.toList_some, List.singleton_append]
        refine List.Pairwise.cons ?_ hrest
        intro later hm
        rcases List.mem_cons.mp hm with rfl | hm
        · exact hlt
        · exact Int.lt_trans hlt (List.rel_of_pairwise_cons hrest hm)

/-- Whatever happens to the files of a store, the record in effect has no defect, and there is one
exactly when the time of its file is known. It is never lost. It is what the file held at the
opening, and it changes in reloads that say so, into what the file then holds. The files that are
put in effect are later and later. -/
theorem opened_run (home : Path) (scheme : PasswordScheme) (t : Tree) (events : List SiteEvent) :
    let site := (opened home scheme t).run events
    let path := (Placement.ofCredentials home).path
    (∀ record, site.store.current = some record → record.defects scheme = []) ∧
    site.store.current.isSome = site.store.lastRead.isSome ∧
    (site.store.current.isSome → ∀ more, (site.run more).store.current.isSome) ∧
    (opened home scheme t).store.current = (Credentials.load scheme t (path t)).toOption ∧
    (∀ event, site.answer event ≠ some .reloaded →
      (site.step event).store.current = site.store.current ∧
      (site.step event).store.lastRead = site.store.lastRead) ∧
    (∀ event, site.answer event = some .reloaded → ∃ record time,
      Credentials.load scheme site.tree (path site.tree) = .ok record ∧
      site.tree.modified (path site.tree) = .ok time ∧
      (site.step event).store.current = some record ∧
      (site.step event).store.lastRead = some time) ∧
    ((opened home scheme t).store.lastRead.toList ++
      (opened home scheme t).promotions events).Pairwise (· < ·) := by
  have hopen := opened_isTended home scheme t
  have h := hopen.run events
  refine ⟨?_, h.sound.dated, h.run_current_isSome, Store.ofTree_current home scheme t, ?_, ?_,
    hopen.promotions_pairwise events⟩
  · intro record hc
    have hd := h.sound.accepted record hc
    rwa [h.scheme] at hd
  · intro event ho
    rcases h.step_cases event with ⟨_, hc, hl⟩ | ⟨hr, _⟩
    · exact ⟨hc, hl⟩
    · exact absurd hr ho
  · intro event ho
    rcases h.step_cases event with ⟨hn, _⟩ | ⟨_, record, time, hl, hm, _, hc, hr⟩
    · exact absurd ho hn
    · exact ⟨record, time, hl, hm, hc, hr⟩

end Site

end BrokerAccess
