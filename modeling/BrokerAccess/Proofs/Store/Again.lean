import BrokerAccess.Proofs.Store.Course

/-!
# Looking again

A look that puts no record in effect changes nothing. One that does has read a file as late as
what stands there, and archiving leaves that file alone; so until others change a file, every
further look finds no news, or what was missing or refused before. However often the store
looks, the record of a file is put in effect, archived and told to the subscribers once at
most.
-/

namespace BrokerAccess

open Files (Entry Path Time Tree)

/-- How a look ends if no file has changed since one that ended thus, or that a subscriber cut
off. -/
def Outcome.again : Option Outcome → Outcome
  | some .missing => .missing
  | some .rejected => .rejected
  | some .unchanged => .unchanged
  | some .reloaded => .unchanged
  | none => .unchanged

/-- What a look finds if no file has changed since one that found this. -/
def Finding.again : Finding → Finding
  | .fresh _ _ => .known
  | finding => finding

/-- A look that finds something again ends as the first one says. -/
theorem Store.outcome_react_again (s s' : Store) (moment moment' : ArchiveTime) (t t' : Tree)
    (finding : Finding) : (s'.react moment' t' finding.again).outcome =
      some (Outcome.again (s.react moment t finding).outcome) := by
  cases finding with
  | fresh record time =>
    simp only [Finding.again, react]
    split <;> rfl
  | _ => rfl

namespace Site

variable {home : Path} {scheme : PasswordScheme} {site : Site}

/-- A look that puts a record in effect changes nothing at the two locations of the record. -/
theorem IsKept.entry?_of_fresh (h : site.IsKept home scheme) (moment : ArchiveTime)
    {record : Credentials} {time : Time}
    (hfresh : site.store.finding site.tree = .fresh record time) {other : Path}
    (hother : other = (Placement.ofCredentials home).current ∨
      other = (Placement.ofCredentials home).legacy) :
    (site.look moment).tree.entry? other = site.tree.entry? other := by
  obtain ⟨_, hmodified, _⟩ := Store.finding_eq_fresh_iff.mp hfresh
  obtain ⟨entry, hentry, _⟩ := Tree.modified_eq_ok_iff.mp hmodified
  rw [h.path] at hentry
  have htree : (site.look moment).tree =
      (site.store.archive.keep moment site.store.current site.tree).tree := by
    rw [look, Store.reload_tree, hfresh]
    rfl
  rw [htree, h.archive]
  exact Archive.entry?_keep_ofCredentials (Placement.path_eq_or _ _) hother hentry moment
    site.store.current

/-- A record that was put in effect is no news to the next look. -/
theorem IsKept.finding_of_fresh (h : site.IsKept home scheme) (moment : ArchiveTime)
    {record : Credentials} {time : Time}
    (hfresh : site.store.finding site.tree = .fresh record time) :
    (site.look moment).store.finding (site.look moment).tree = .known := by
  obtain ⟨_, hmodified, _⟩ := Store.finding_eq_fresh_iff.mp hfresh
  obtain ⟨entry, hentry, htime⟩ := Tree.modified_eq_ok_iff.mp hmodified
  rw [h.path] at hentry
  have hpath : (site.look moment).store.placement.path (site.look moment).tree =
      (Placement.ofCredentials home).path site.tree := by
    have hkept : (site.turn (.reload moment)).IsKept home scheme := h.turn (.reload moment)
    have hhome : (site.look moment).store.placement.path (site.look moment).tree = _ :=
      hkept.path _
    rw [hhome]
    exact Placement.path_congr (h.entry?_of_fresh moment hfresh (Or.inl rfl))
      (h.entry?_of_fresh moment hfresh (Or.inr rfl))
  have hsame : (site.look moment).tree.entry? ((Placement.ofCredentials home).path site.tree) =
      some entry := by
    rw [← hentry]
    exact h.entry?_of_fresh moment hfresh (Placement.path_eq_or _ _)
  have hknown : (site.look moment).store.isKnown entry.modified = true := by
    rw [look, Store.reload_store, hfresh, htime]
    simp [Store.react, Store.isKnown]
  rw [Store.finding, hpath, hsame]
  simp only [hknown, if_true]

/-- After a look, the next one finds what is to be found again. -/
theorem IsKept.finding_look (h : site.IsKept home scheme) (moment : ArchiveTime) :
    (site.look moment).store.finding (site.look moment).tree =
      (site.store.finding site.tree).again := by
  cases hfinding : site.store.finding site.tree with
  | fresh record time => exact h.finding_of_fresh moment hfinding
  | _ =>
    rw [look, Store.reload_store, Store.reload_tree, hfinding]
    exact hfinding

/-- A look that finds something again calls nobody and leaves all as it is, but for having
looked. -/
theorem look_again {finding : Finding} (h : site.store.finding site.tree = finding.again)
    (moment : ArchiveTime) : (site.look moment).notices = [] ∧
      (site.look moment).tree = site.tree ∧
      (site.look moment).store =
        { site.store with placement := site.store.placement.seen site.tree } := by
  rw [look, Store.reload_notices, Store.reload_tree, Store.reload_store, h]
  cases finding <;> exact ⟨rfl, rfl, rfl⟩

/-- A turn that changes no file leaves the tree, the record in effect and what is found again as
they are. -/
theorem turn_again {finding : Finding} (h : site.store.finding site.tree = finding.again)
    {turn : Turn} (hturn : turn.isDisk = false) :
    (site.turn turn).store.finding (site.turn turn).tree = finding.again ∧
      (site.turn turn).tree = site.tree ∧
      (site.turn turn).store.current = site.store.current ∧
      (site.turn turn).store.lastRead = site.store.lastRead := by
  cases turn with
  | disk tree => cases hturn
  | subscribe subscriber => exact ⟨h, rfl, rfl, rfl⟩
  | reload moment =>
    obtain ⟨_, htree, hstore⟩ := look_again h moment
    rw [Site.turn, hstore, htree]
    exact ⟨h, rfl, rfl, rfl⟩

/-- While no file changes, every look ends as what is found again says, calls nobody, and leaves the
tree and the record in effect as they are. -/
theorem looks_of_again {finding : Finding} (h : site.store.finding site.tree = finding.again)
    {first : Option Outcome}
    (hfirst : ∀ s moment t, (Store.react s moment t finding.again).outcome =
      some (Outcome.again first))
    {turns : List Turn} (hturns : ∀ turn ∈ turns, turn.isDisk = false) :
    ∀ later ∈ site.looks turns, later.outcome = some (Outcome.again first) ∧
      later.notices = [] ∧ later.tree = site.tree ∧
      later.store.current = site.store.current ∧ later.store.lastRead = site.store.lastRead := by
  induction turns generalizing site with
  | nil =>
    intro later hlater
    cases hlater
  | cons turn rest ih =>
    rw [List.forall_mem_cons] at hturns
    obtain ⟨hagain, htree, hcurrent, hread⟩ := turn_again h hturns.1
    intro later hlater
    rcases List.mem_append.mp hlater with hnow | hlater
    · cases turn with
      | disk tree => cases hnow
      | subscribe subscriber => cases hnow
      | reload moment =>
        have hnow : later = site.look moment := List.mem_singleton.mp hnow
        obtain ⟨hnotices, htree, hstore⟩ := look_again h moment
        have houtcome : (site.look moment).outcome = some (Outcome.again first) := by
          rw [look, Store.reload_outcome, h]
          exact hfirst site.store moment site.tree
        rw [hnow, hstore]
        exact ⟨houtcome, hnotices, htree, rfl, rfl⟩
    · obtain ⟨houtcome, hnotices, hsame, hrecord, htime⟩ := ih hagain hturns.2 later hlater
      exact ⟨houtcome, hnotices, hsame.trans htree, hrecord.trans hcurrent, htime.trans hread⟩

/-- A look that puts nothing in effect leaves all as it is, but for having looked. -/
theorem look_of_quiet {moment : ArchiveTime}
    (h : (site.look moment).outcome = some .missing ∨ (site.look moment).outcome = some .unchanged ∨
      (site.look moment).outcome = some .rejected) :
    (site.look moment).notices = [] ∧ (site.look moment).tree = site.tree ∧
      (site.look moment).store =
        { site.store with placement := site.store.placement.seen site.tree } := by
  rcases site.store.reload_cases moment site.tree with
    ⟨_, _, _, hnotices, htree, hstore⟩ | ⟨record, time, _, houtcome, _⟩
  · exact ⟨hnotices, htree, hstore⟩
  · rw [look, houtcome] at h
    split at h <;> simp at h

/-- While no file changes after a look, every further one ends as the first one says, calls nobody,
and leaves the tree and the record in effect as the first one left them. -/
theorem IsKept.looks_again (h : site.IsKept home scheme) (moment : ArchiveTime) {more : List Turn}
    (hmore : ∀ turn ∈ more, turn.isDisk = false) :
    ∀ later ∈ (site.turn (.reload moment)).looks more,
      later.outcome = some (Outcome.again (site.look moment).outcome) ∧ later.notices = [] ∧
      later.tree = (site.look moment).tree ∧
      later.store.current = (site.look moment).store.current ∧
      later.store.lastRead = (site.look moment).store.lastRead := by
  have hfinding : (site.turn (.reload moment)).store.finding (site.turn (.reload moment)).tree =
      (site.store.finding site.tree).again := h.finding_look moment
  refine looks_of_again hfinding ?_ hmore
  intro s later tree
  rw [look, Store.reload_outcome]
  exact Store.outcome_react_again site.store s moment later site.tree tree _

/-- Whatever came before, a look that ends with a missing, an unchanged or a refused file leaves the
record in effect, the time of its file, the subscribers and the whole tree as they are, and calls
nobody. And after any look, while no file changes, every further one ends as the first one says,
calls nobody, and leaves the tree and the record in effect as the first one left them. -/
theorem look_settles (home : Path) (scheme : PasswordScheme) (t : Tree) (turns : List Turn)
    (moment : ArchiveTime) :
    let site := (opened home scheme t).course turns
    let first := site.look moment
    (first.outcome = some .missing ∨ first.outcome = some .unchanged ∨
        first.outcome = some .rejected →
      first.store.current = site.store.current ∧ first.store.lastRead = site.store.lastRead ∧
      first.store.subscribers = site.store.subscribers ∧ first.tree = site.tree ∧
      first.notices = []) ∧
    ∀ more : List Turn, (∀ turn ∈ more, turn.isDisk = false) →
      ∀ later ∈ (site.turn (.reload moment)).looks more,
        later.outcome = some (Outcome.again first.outcome) ∧ later.notices = [] ∧
        later.tree = first.tree ∧ later.store.current = first.store.current ∧
        later.store.lastRead = first.store.lastRead := by
  have h := (opened_isKept home scheme t).course turns
  refine ⟨fun houtcome => ?_, fun more hmore => h.looks_again moment hmore⟩
  obtain ⟨hnotices, htree, hstore⟩ := look_of_quiet houtcome
  exact ⟨by rw [hstore], by rw [hstore], by rw [hstore], htree, hnotices⟩

end Site

end BrokerAccess
