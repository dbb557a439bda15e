import BrokerAccess.Proofs.Archive
import BrokerAccess.Proofs.Store.Run

/-!
# Courses of a store

In a course anything can happen to a store: others leave trees of any kind, the store looks
at its file, and anybody subscribes, those who fail on being told of a change included. What
turns bring about is gathered along a course. A store that is kept this way stays the one that
was opened below its home, and the record in effect never has a defect.
-/

namespace BrokerAccess

open Files (Entry Path Time Tree)

/-- The location to read is one of the two. -/
theorem Placement.path_eq_or (p : Placement) (t : Tree) :
    p.path t = p.current ∨ p.path t = p.legacy := by
  unfold Placement.path
  split
  · exact Or.inr rfl
  · exact Or.inl rfl

/-- The location to read is the same in a tree that has the same at both. -/
theorem Placement.path_congr {p : Placement} {t t' : Tree}
    (hcurrent : t'.entry? p.current = t.entry? p.current)
    (hlegacy : t'.entry? p.legacy = t.entry? p.legacy) : p.path t' = p.path t := by
  unfold Placement.path Placement.isLegacy Tree.has
  rw [hcurrent, hlegacy]

/-- What can happen to a site whose subscribers may fail. -/
inductive Turn where
  /-- Others leave a tree of any kind. -/
  | disk (tree : Tree)
  /-- Somebody subscribes. -/
  | subscribe (subscriber : Subscriber)
  /-- The store looks at its file. -/
  | reload (moment : ArchiveTime)

/-- The turn is one of those that change files. -/
def Turn.isDisk : Turn → Bool
  | .disk _ => true
  | .subscribe _ => false
  | .reload _ => false

namespace Site

/-- What a look of the store at its tree comes to. -/
def look (site : Site) (moment : ArchiveTime) : Reload := site.store.reload moment site.tree

/-- The site after a turn. -/
def turn (site : Site) : Turn → Site
  | .disk tree => { site with tree }
  | .subscribe subscriber => { site with store := site.store.subscribe subscriber }
  | .reload moment => ⟨(site.look moment).store, (site.look moment).tree⟩

/-- The site after turns in order. -/
def course (site : Site) (turns : List Turn) : Site := turns.foldl turn site

/-- What turns bring about, one after the other. -/
def along {α : Type} (f : Site → Turn → List α) : Site → List Turn → List α
  | _, [] => []
  | site, turn :: rest => f site turn ++ along f (site.turn turn) rest

/-- Something holds of every turn of a course and the site that it comes to. -/
def Throughout (P : Site → Turn → Prop) : Site → List Turn → Prop
  | _, [] => True
  | site, turn :: rest => P site turn ∧ Throughout P (site.turn turn) rest

/-- What holds throughout a course holds throughout its first part, and then throughout the rest. -/
theorem throughout_append {P : Site → Turn → Prop} {site : Site} {before after : List Turn} :
    site.Throughout P (before ++ after) ↔
      site.Throughout P before ∧ (site.course before).Throughout P after := by
  induction before generalizing site with
  | nil => exact (iff_of_eq (true_and _)).symm
  | cons turn rest ih =>
    rw [List.cons_append, Throughout, Throughout, ih, and_assoc]
    rfl

/-- What holds throughout a course holds of each of its turns. -/
theorem Throughout.of_eq_append {P : Site → Turn → Prop} {site : Site}
    {turns before after : List Turn} {turn : Turn} (h : site.Throughout P turns)
    (hturns : turns = before ++ turn :: after) : P (site.course before) turn := by
  rw [hturns, throughout_append] at h
  exact h.2.1

/-- What the turns of a course bring about is what those before a turn, that turn and those after it
bring about. -/
theorem along_append {α : Type} (f : Site → Turn → List α) (site : Site)
    (before after : List Turn) : site.along f (before ++ after) =
      site.along f before ++ (site.course before).along f after := by
  induction before generalizing site with
  | nil => rfl
  | cons turn rest ih =>
    rw [List.cons_append, along, along, ih, List.append_assoc]
    rfl

/-- The look of the store in a turn, if it is one. -/
def lookIn (site : Site) : Turn → List Reload
  | .disk _ => []
  | .subscribe _ => []
  | .reload moment => [site.look moment]

/-- The looks of the store in a course, in order. -/
def looks (site : Site) (turns : List Turn) : List Reload := site.along lookIn turns

/-- The store of a site is the one that was opened below a home folder for a scheme, and the record
in effect has no defect. -/
structure IsKept (home : Path) (scheme : PasswordScheme) (site : Site) : Prop where
  /-- The file is looked for where it was. -/
  placement : ∃ warned, site.store.placement = { Placement.ofCredentials home with warned }
  /-- Replaced records go where they went. -/
  archive : site.store.archive = .ofHome home
  /-- Passwords are stored as they were. -/
  stored : site.store.scheme = scheme
  /-- The record in effect has no defect. -/
  accepted : ∀ record, site.store.current = some record → record.defects scheme = []

variable {home : Path} {scheme : PasswordScheme} {site : Site}

/-- The file is looked for at the one location of the home that is in use. -/
theorem IsKept.path (h : site.IsKept home scheme) (t : Tree) :
    site.store.placement.path t = (Placement.ofCredentials home).path t := by
  obtain ⟨warned, hplacement⟩ := h.placement
  rw [hplacement]
  rfl

/-- A site is kept from its opening on. -/
theorem opened_isKept (home : Path) (scheme : PasswordScheme) (t : Tree) :
    (opened home scheme t).IsKept home scheme := by
  have htended := opened_isTended home scheme t
  have hstore : (opened home scheme t).store = _ := Store.ofTree_fst home scheme t
  refine ⟨⟨(Placement.ofCredentials home).isLegacy t, ?_⟩, ?_, htended.scheme, ?_⟩
  · rw [hstore]
    rfl
  · rw [hstore]
  · intro record hc
    have hd := htended.sound.accepted record hc
    rwa [htended.scheme] at hd

/-- A turn keeps a site. -/
theorem IsKept.turn (h : site.IsKept home scheme) (turn : Turn) :
    (site.turn turn).IsKept home scheme := by
  cases turn with
  | disk tree => exact ⟨h.placement, h.archive, h.stored, h.accepted⟩
  | subscribe subscriber => exact ⟨h.placement, h.archive, h.stored, h.accepted⟩
  | reload moment =>
    obtain ⟨warned, hplacement⟩ := h.placement
    have hseen : ∃ warned, site.store.placement.seen site.tree =
        { Placement.ofCredentials home with warned } := by
      rw [hplacement]
      exact ⟨_, rfl⟩
    rcases site.store.reload_cases moment site.tree with
      ⟨_, _, _, _, _, hstore⟩ | ⟨record, time, hfresh, _, _, _, hstore⟩
    · have hstore : (site.turn (.reload moment)).store = _ := hstore
      refine ⟨?_, ?_, ?_, ?_⟩ <;> rw [hstore]
      · exact hseen
      · exact h.archive
      · exact h.stored
      · exact h.accepted
    · have hstore : (site.turn (.reload moment)).store = _ := hstore
      obtain ⟨hload, _, _⟩ := Store.finding_eq_fresh_iff.mp hfresh
      rw [h.stored] at hload
      refine ⟨?_, ?_, ?_, ?_⟩ <;> rw [hstore]
      · exact hseen
      · exact h.archive
      · exact h.stored
      · intro other hother
        obtain rfl : record = other := Option.some.inj hother
        exact (Credentials.load_eq_ok_iff.mp hload).2

/-- A course keeps a site. -/
theorem IsKept.course (h : site.IsKept home scheme) (turns : List Turn) :
    (site.course turns).IsKept home scheme := by
  induction turns generalizing site with
  | nil => exact h
  | cons turn rest ih => exact ih (h.turn turn)

end Site

end BrokerAccess
