import Mathlib.Data.List.Forall2
import BrokerAccess.Proofs.Archive.BestEffort
import BrokerAccess.Proofs.Store.History

/-!
# Versions of a run that differ in the archive

Whatever stands where replaced records should go, and even if the file system refuses them a
place, nobody who does not look into the archive can tell. Two runs of a deployment whose trees
differ in the archive alone show the same, turn by turn, and leave trees that differ in the archive
alone.
-/

namespace BrokerAccess

open Files (Path Time Tree)
open Archive (AgreeBeside)

/-- What can happen in a world in which subscribers may fail and archiving may be refused. -/
inductive WorldTurn where
  /-- An event. -/
  | event (event : WorldEvent)
  /-- Somebody subscribes. -/
  | subscribe (subscriber : Subscriber)
  /-- The store looks at its file while the file system refuses all archiving. -/
  | reloadBarred (error : ArchiveError)

/-- A turn of a store and its tree as a turn of the world that they are in. -/
def WorldTurn.ofTurn : Turn → WorldTurn
  | .disk tree => .event (.disk tree)
  | .subscribe subscriber => .subscribe subscriber
  | .reload moment => .event (.reload moment)

/-- What is seen of a turn, beside the archive. -/
inductive Observation where
  /-- Nothing. -/
  | nothing
  /-- A reload. -/
  | reload (outcome : Option Outcome) (notices : List Notice) (current : Option Credentials)
    (lastRead : Option Time) (journal : Journal)
  /-- The decision on a client. -/
  | connect (decision : Decision) (journal : Journal)
  /-- A look-up of roles. -/
  | rolesOf (lookup : RoleLookup)
  /-- A look-up of grants. -/
  | grants (grants : List Grant) (journal : Journal)

/-- What is seen of a reload, beside the archive. -/
def DeploymentReload.seen (reload : DeploymentReload) : Observation :=
  .reload reload.outcome reload.notices reload.deployment.store.current
    reload.deployment.store.lastRead reload.journal.besideArchive

namespace World

/-- What archiving comes to in a turn in which the store looks at its file. -/
def archiving? (w : World) : WorldTurn → Option Archiving
  | .event (.reload moment) =>
    some (w.deployment.store.archive.keep moment w.deployment.store.current w.tree)
  | .reloadBarred error => some (Archive.barred error w.deployment.store.current w.tree)
  | _ => none

/-- The world after a turn. -/
def turn (w : World) : WorldTurn → World
  | .event event => w.step event
  | .subscribe subscriber => { w with deployment := w.deployment.subscribe subscriber }
  | .reloadBarred error =>
    let reload := w.deployment.reloadGiven w.tree
      (Archive.barred error w.deployment.store.current w.tree)
    { w with deployment := reload.deployment, tree := reload.tree }

/-- The world after turns in order. -/
def course (w : World) (turns : List WorldTurn) : World := turns.foldl turn w

/-- What is seen of a turn. -/
def observe (w : World) : WorldTurn → Observation
  | .event (.disk _) => .nothing
  | .event (.elapse _) => .nothing
  | .event (.subscribe _) => .nothing
  | .event (.reload moment) => (w.deployment.reload moment w.tree).seen
  | .event (.connect request) =>
    let (decision, _, journal) := w.deployment.connect w.now request
    .connect decision journal
  | .event (.rolesOf user password) => .rolesOf (w.deployment.directory.rolesOf w.now user password)
  | .event (.grants clientId userName roles) =>
    .grants (w.deployment.directory.grants clientId userName roles)
      (w.deployment.directory.grantsJournal roles)
  | .subscribe _ => .nothing
  | .reloadBarred error =>
    (w.deployment.reloadGiven w.tree
      (Archive.barred error w.deployment.store.current w.tree)).seen

/-- What is seen of turns in order. -/
def observations : World → List WorldTurn → List Observation
  | _, [] => []
  | w, turn :: rest => w.observe turn :: observations (w.turn turn) rest

variable {home : Path} {scheme : PasswordScheme} {w w' : World} {turn turn' : WorldTurn}
  {archiving archiving' : Archiving}

/-- The store of a world and its tree. -/
def site (w : World) : Site := ⟨w.deployment.store, w.tree⟩

/-- The store of a world is that of its deployment. -/
theorem site_store (w : World) : w.site.store = w.deployment.store := rfl

/-- A turn in which the store looks at its file is a reload, with what archiving comes to in it. -/
theorem turn_of_archiving (h : w.archiving? turn = some archiving) :
    let reload := w.deployment.reloadGiven w.tree archiving
    w.turn turn = ⟨reload.deployment, reload.tree, w.now⟩ ∧ w.observe turn = reload.seen := by
  unfold archiving? at h
  split at h
  · obtain rfl := Option.some.inj h
    rw [turn, step, observe, Deployment.reload_eq_reloadGiven]
    exact ⟨rfl, rfl⟩
  · obtain rfl := Option.some.inj h
    exact ⟨rfl, rfl⟩
  · cases h

/-- Archiving is confined in every turn. -/
theorem isConfined_of_archiving (hkept : w.site.IsKept home scheme)
    (h : w.archiving? turn = some archiving) : archiving.IsConfined home w.tree := by
  unfold archiving? at h
  split at h
  · obtain rfl := Option.some.inj h
    have harchive : w.deployment.store.archive = .ofHome home := hkept.archive
    rw [harchive]
    exact Archive.isConfined_keep home _ _ _ _
  · obtain rfl := Option.some.inj h
    exact (Archive.isConfined_barred home _ _ _).1
  · cases h

/-- Turns of a store and its tree are turns of the world. -/
theorem site_course (w : World) (turns : List Turn) :
    (w.course (turns.map WorldTurn.ofTurn)).site = w.site.course turns := by
  induction turns generalizing w with
  | nil => rfl
  | cons turn rest ih =>
    have hturn : (w.turn (.ofTurn turn)).site = w.site.turn turn := by
      cases turn <;> rfl
    have hcourse : (w.course ((turn :: rest).map WorldTurn.ofTurn)).site = _ :=
      ih (w.turn (.ofTurn turn))
    rw [hcourse, hturn]
    rfl

/-- The store of a world stays the one that was opened. -/
theorem isKept_turn (h : w.site.IsKept home scheme) (turn : WorldTurn) :
    (w.turn turn).site.IsKept home scheme := by
  cases turn with
  | event event =>
    cases event with
    | disk tree => exact h.turn (.disk tree)
    | elapse time => exact h
    | subscribe id => exact h.turn (.subscribe { recipient := .observer id })
    | reload moment => exact h.turn (.reload moment)
    | connect request => exact h
    | rolesOf user password => exact h
    | grants clientId userName roles => exact h
  | subscribe subscriber => exact h.turn (.subscribe subscriber)
  | reloadBarred error =>
    -- The store does not depend on what archiving comes to, so it is that of any other reload.
    have hlook := h.turn (.reload ⟨0, ""⟩)
    obtain ⟨hstore, _⟩ := w.deployment.store.reloadGiven_congr (t := w.tree) ⟨rfl, rfl⟩
      (Archive.besideArchive_keep w.deployment.store.archive ⟨0, ""⟩ w.deployment.store.current
        w.tree .off)
      (Archive.isConfined_barred home error w.deployment.store.current w.tree).1.journal
    have hsame : (w.turn (.reloadBarred error)).site.store =
        (w.site.turn (.reload ⟨0, ""⟩)).store := hstore
    refine ⟨?_, ?_, ?_, ?_⟩ <;> rw [hsame]
    · exact hlook.placement
    · exact hlook.archive
    · exact hlook.stored
    · exact hlook.accepted

/-- A world differs from another in its tree alone, and in that neither at the one nor at the other
location of the record of a home. -/
structure Matches (home : Path) (w w' : World) : Prop where
  /-- The deployments are the same. -/
  deployment : w'.deployment = w.deployment
  /-- The clocks show the same. -/
  now : w'.now = w.now
  /-- The same stands at both locations of the record. -/
  record : (Placement.ofCredentials home).AgreeAt w.tree w'.tree

/-- When the store looks at its file, the tree stays as it is, or becomes the one that archiving
leaves where the record stands. -/
theorem turn_tree_cases (hkept : w.site.IsKept home scheme)
    (h : w.archiving? turn = some archiving) : (w.turn turn).tree = w.tree ∨
      (w.turn turn).tree = archiving.tree ∧
        ∃ entry, w.tree.entry? ((Placement.ofCredentials home).path w.tree) = some entry := by
  have hpath : w.deployment.store.placement.path w.tree = _ := hkept.path w.tree
  rw [(turn_of_archiving h).1, ← hpath]
  exact w.deployment.store.reloadGiven_tree w.tree archiving

/-- When the store looks at its file, the record stays as it is. -/
theorem agreeAt_turn (hkept : w.site.IsKept home scheme)
    (h : w.archiving? turn = some archiving) :
    (Placement.ofCredentials home).AgreeAt w.tree (w.turn turn).tree := by
  rcases turn_tree_cases hkept h with htree | ⟨htree, entry, hentry⟩
  · rw [htree]
    exact ⟨rfl, rfl⟩
  · rw [htree]
    exact (isConfined_of_archiving hkept h).record _ entry (Placement.path_eq_or _ _) hentry

/-- Looks of the store at its file in matching worlds come to the same, whatever archiving comes to
in either. -/
theorem Matches.look (h : w.Matches home w') (hkept : w.site.IsKept home scheme)
    (hkept' : w'.site.IsKept home scheme) (hlook : w.archiving? turn = some archiving)
    (hlook' : w'.archiving? turn' = some archiving') :
    (w.turn turn).Matches home (w'.turn turn') ∧ w'.observe turn' = w.observe turn := by
  have hrecord : (Placement.ofCredentials home).AgreeAt (w.turn turn).tree (w'.turn turn').tree :=
    ((agreeAt_turn hkept hlook).symm.trans h.record).trans (agreeAt_turn hkept' hlook')
  obtain ⟨hturn, hobserve⟩ := turn_of_archiving hlook
  obtain ⟨hturn', hobserve'⟩ := turn_of_archiving hlook'
  have hagree : w.deployment.store.placement.AgreeAt w.tree w'.tree := by
    obtain ⟨warned, hplacement⟩ := hkept.placement
    have hplacement : w.deployment.store.placement = _ := hplacement
    rw [hplacement]
    exact h.record
  obtain ⟨hdeployment, houtcome, hnotices, hjournal⟩ :=
    w.deployment.reloadGiven_congr hagree (isConfined_of_archiving hkept hlook).journal
      (isConfined_of_archiving hkept' hlook').journal
  refine ⟨⟨?_, ?_, hrecord⟩, ?_⟩
  · rw [hturn, hturn', h.deployment]
    exact hdeployment
  · rw [hturn, hturn']
    exact h.now
  · rw [hobserve, hobserve', h.deployment, DeploymentReload.seen, DeploymentReload.seen,
      hdeployment, houtcome, hnotices, hjournal]

end World

/-- The store looks at its file in the turn. -/
def WorldTurn.isLook : WorldTurn → Bool
  | .event (.reload _) => true
  | .reloadBarred _ => true
  | _ => false

/-- Two turns differ in the archive of a home alone: others leave trees that differ in nothing else,
or the store looks at its file and what it archives may come to anything. -/
inductive WorldTurn.IsVersion (home : Path) : WorldTurn → WorldTurn → Prop where
  /-- The turns are the same. -/
  | same (turn : WorldTurn) : IsVersion home turn turn
  /-- Others leave trees that differ in the archive alone. -/
  | disk {t t' : Tree} (h : AgreeBeside home t t') :
    IsVersion home (.event (.disk t)) (.event (.disk t'))
  /-- The store looks at its file. -/
  | look {turn turn' : WorldTurn} (h : turn.isLook = true) (h' : turn'.isLook = true) :
    IsVersion home turn turn'

/-- The time of archiving in a turn, if there is any, is shown without a slash. -/
def WorldTurn.IsPlain : WorldTurn → Prop
  | .event (.reload moment) => moment.IsPlain
  | _ => True

namespace World

variable {home : Path} {scheme : PasswordScheme} {w w' : World}

/-- Archiving comes to something in a turn in which the store looks at its file. -/
theorem exists_archiving (w : World) {turn : WorldTurn} (h : turn.isLook = true) :
    ∃ archiving, w.archiving? turn = some archiving := by
  unfold WorldTurn.isLook at h
  split at h
  · exact ⟨_, rfl⟩
  · exact ⟨_, rfl⟩
  · cases h

/-- Versions of a turn keep worlds matching, and show the same. -/
theorem Matches.turn (h : w.Matches home w') (hkept : w.site.IsKept home scheme)
    (hkept' : w'.site.IsKept home scheme) {turn turn' : WorldTurn}
    (hversion : turn.IsVersion home turn') :
    (w.turn turn).Matches home (w'.turn turn') ∧ w'.observe turn' = w.observe turn := by
  have hlooks {turn turn' : WorldTurn} (hlook : turn.isLook = true)
      (hlook' : turn'.isLook = true) : (w.turn turn).Matches home (w'.turn turn') ∧
        w'.observe turn' = w.observe turn := by
    obtain ⟨_, harchiving⟩ := w.exists_archiving hlook
    obtain ⟨_, harchiving'⟩ := w'.exists_archiving hlook'
    exact h.look hkept hkept' harchiving harchiving'
  cases hversion with
  | look hlook hlook' => exact hlooks hlook hlook'
  | disk htrees => exact ⟨⟨h.deployment, h.now, htrees.agreeAt⟩, rfl⟩
  | same =>
    obtain ⟨deployment, tree', now⟩ := w'
    obtain rfl : deployment = w.deployment := h.deployment
    obtain rfl : now = w.now := h.now
    cases turn with
    | event event =>
      cases event with
      | disk tree => exact ⟨⟨rfl, rfl, rfl, rfl⟩, rfl⟩
      | elapse time => exact ⟨⟨rfl, rfl, h.record⟩, rfl⟩
      | subscribe id => exact ⟨⟨rfl, rfl, h.record⟩, rfl⟩
      | reload moment => exact hlooks rfl rfl
      | connect request => exact ⟨⟨rfl, rfl, h.record⟩, rfl⟩
      | rolesOf user password => exact ⟨⟨rfl, rfl, h.record⟩, rfl⟩
      | grants clientId userName roles => exact ⟨⟨rfl, rfl, h.record⟩, rfl⟩
    | subscribe subscriber => exact ⟨⟨rfl, rfl, h.record⟩, rfl⟩
    | reloadBarred error => exact hlooks rfl rfl

/-- When the store looks at its file, nothing changes beside the archive. -/
theorem apart_turn (hkept : w.site.IsKept home scheme) {turn : WorldTurn}
    (hlook : turn.isLook = true) (hplain : turn.IsPlain) :
    AgreeBeside home w.tree (w.turn turn).tree := by
  obtain ⟨archiving, harchiving⟩ := w.exists_archiving hlook
  rcases turn_tree_cases hkept harchiving with htree | ⟨htree, entry, hentry⟩
  · rw [htree]
    exact .refl home w.tree
  · rw [htree]
    unfold archiving? at harchiving
    split at harchiving
    · obtain rfl := Option.some.inj harchiving
      have harchive : w.deployment.store.archive = .ofHome home := hkept.archive
      obtain ⟨below, hhome, hbelow⟩ :=
        Archive.exists_home_ofCredentials (Placement.path_eq_or _ _) hentry
      rw [harchive]
      exact Archive.agreeBeside_keep hhome hbelow hplain _
    · obtain rfl := Option.some.inj harchiving
      rw [(Archive.isConfined_barred home _ _ _).2]
      exact .refl home w.tree
    · cases harchiving

/-- Versions of a turn leave trees that differ in the archive alone. -/
theorem agreeBeside_turn (h : AgreeBeside home w.tree w'.tree) (hkept : w.site.IsKept home scheme)
    (hkept' : w'.site.IsKept home scheme) {turn turn' : WorldTurn}
    (hversion : turn.IsVersion home turn') (hplain : turn.IsPlain) (hplain' : turn'.IsPlain) :
    AgreeBeside home (w.turn turn).tree (w'.turn turn').tree := by
  have hlooks {turn turn' : WorldTurn} (hlook : turn.isLook = true)
      (hlook' : turn'.isLook = true) (hplain : turn.IsPlain) (hplain' : turn'.IsPlain) :
      AgreeBeside home (w.turn turn).tree (w'.turn turn').tree :=
    ((apart_turn hkept hlook hplain).symm.trans h).trans (apart_turn hkept' hlook' hplain')
  cases hversion with
  | look hlook hlook' => exact hlooks hlook hlook' hplain hplain'
  | disk htrees => exact htrees
  | same =>
    cases turn with
    | event event =>
      cases event with
      | disk tree => exact .refl home tree
      | elapse time => exact h
      | subscribe id => exact h
      | reload moment => exact hlooks rfl rfl hplain hplain'
      | connect request => exact h
      | rolesOf user password => exact h
      | grants clientId userName roles => exact h
    | subscribe subscriber => exact h
    | reloadBarred error => exact hlooks rfl rfl hplain hplain'

/-- Versions of a run keep worlds matching, show the same, and leave trees that differ in the
archive alone. -/
theorem Matches.course (h : w.Matches home w') (hkept : w.site.IsKept home scheme)
    (hkept' : w'.site.IsKept home scheme) {turns turns' : List WorldTurn}
    (hturns : List.Forall₂ (WorldTurn.IsVersion home) turns turns') :
    (w.course turns).Matches home (w'.course turns') ∧
      w'.observations turns' = w.observations turns ∧
      ((∀ turn ∈ turns, turn.IsPlain) → (∀ turn ∈ turns', turn.IsPlain) →
        AgreeBeside home w.tree w'.tree →
          AgreeBeside home (w.course turns).tree (w'.course turns').tree) := by
  induction hturns generalizing w w' with
  | nil => exact ⟨h, rfl, fun _ _ htrees => htrees⟩
  | cons hversion _ ih =>
    obtain ⟨hmatches, hobserve⟩ := h.turn hkept hkept' hversion
    obtain ⟨hcourse, hobservations, htrees⟩ :=
      ih hmatches (isKept_turn hkept _) (isKept_turn hkept' _)
    refine ⟨hcourse, ?_, ?_⟩
    · rw [observations, observations, hobserve, hobservations]
    · intro hplain hplain' hbefore
      rw [List.forall_mem_cons] at hplain hplain'
      exact htrees hplain.2 hplain'.2
        (agreeBeside_turn hbefore hkept hkept' hversion hplain.1 hplain'.1)

/-- Let two versions of a run differ in the archive alone: in what stands there at the opening and
whenever others leave a tree, and in what archiving comes to, even if the file system refuses it.
Both show the same: every reload ends the same, calls the same subscribers, leaves the same record
in effect with the same time of its file, and reports the same but for what is about the archive;
every client is told the same; and all look-ups find the same. The trees that they leave differ in
the archive alone. -/
theorem archive_plays_no_part (home : Path) (settings : Settings) {t t' : Tree}
    (htrees : AgreeBeside home t t') (start : Nat) {turns turns' : List WorldTurn}
    (hturns : List.Forall₂ (WorldTurn.IsVersion home) turns turns') :
    let w := opened home settings t start
    let w' := opened home settings t' start
    w'.observations turns' = w.observations turns ∧
      (w'.course turns').deployment = (w.course turns).deployment ∧
      ((∀ turn ∈ turns, turn.IsPlain) → (∀ turn ∈ turns', turn.IsPlain) →
        AgreeBeside home (w.course turns).tree (w'.course turns').tree) := by
  intro w w'
  have hkept (tree : Tree) :
      (opened home settings tree start).site.IsKept home settings.passwordScheme :=
    (Site.opened_isKept home settings.passwordScheme tree).turn
      (.subscribe { recipient := .directory })
  have hmatches : w.Matches home w' :=
    ⟨Deployment.ofTree_congr htrees.agreeAt settings, rfl, htrees.agreeAt⟩
  obtain ⟨hcourse, hobservations, hapart⟩ := hmatches.course (hkept t) (hkept t') hturns
  exact ⟨hobservations, hcourse.deployment, fun hplain hplain' => hapart hplain hplain' htrees⟩

open Site (srv emptyHome filledHome soleReader soleWriter)

/-- Settings under which passwords are stored as they are. -/
def plainSettings : Settings := { scheme := some .plain }

/-- A home in which a file stands in the way of the archive folder. -/
def barredHome : Tree := emptyHome.put ["srv", "credentials-archive"] (.file [] 0)

/-- A home with a record, and a folder of the name of the next archived file in its archive. -/
def takenHome (content : List UInt8) (time : Time) : Tree :=
  ((filledHome content time).put ["srv", "credentials-archive"] (.folder 6)).put
    ["srv", "credentials-archive", "one-credentials.toml"] (.folder 6)

/-- The exchange of one record for another where the first one cannot be archived. -/
def barredExchange : List Turn :=
  [.disk (filledHome (Utf8.encode soleReader.write) 5), .reload ⟨5, "noon"⟩,
    .disk (takenHome (Utf8.encode soleWriter.write) 7), .reload ⟨7, "one"⟩]

/-- The trees with and without obstacles differ in the archive alone. -/
theorem agreeBeside_takenHome (content : List UInt8) (time : Time) :
    AgreeBeside srv emptyHome barredHome ∧
      AgreeBeside srv (filledHome content time) (takenHome content time) := by
  have hput (t : Tree) {place : List String} (hhome : t.followFrom [] srv.stem = .ok ["srv"])
      (hplace : ["srv", "credentials-archive"] <+: place) (hne : place ≠ []) (entry : Files.Entry) :
      AgreeBeside srv t (t.put place entry) :=
    .of_agreeBeyond_below (by decide) hhome (Tree.agreeBeyond_put t hplace hne entry)
  refine ⟨hput emptyHome rfl (by decide) (by decide) _, ?_⟩
  exact (hput (filledHome content time) rfl (by decide) (by decide) _).trans
    (hput _ rfl (by decide) (by decide) _)

/-- The two exchanges are versions of one run, at times that are shown without a slash. -/
theorem isVersion_barredExchange :
    List.Forall₂ (WorldTurn.IsVersion srv) (Site.exchange.map .ofTurn)
        (barredExchange.map .ofTurn) ∧
      (∀ turn ∈ Site.exchange.map WorldTurn.ofTurn, turn.IsPlain) ∧
      ∀ turn ∈ barredExchange.map WorldTurn.ofTurn, turn.IsPlain := by
  have htaken := (agreeBeside_takenHome (Utf8.encode soleWriter.write) 7).2
  have hnoon : (⟨5, "noon"⟩ : ArchiveTime).IsPlain := by
    unfold ArchiveTime.IsPlain
    decide
  have hone : (⟨7, "one"⟩ : ArchiveTime).IsPlain := by
    unfold ArchiveTime.IsPlain
    decide
  refine ⟨.cons (.same _) (.cons (.same _) (.cons (.disk htaken) (.cons (.same _) .nil))), ?_, ?_⟩
  · simp [Site.exchange, WorldTurn.ofTurn, WorldTurn.IsPlain, hnoon, hone]
  · simp [barredExchange, WorldTurn.ofTurn, WorldTurn.IsPlain, hnoon, hone]

/-- An exchange in a world where no record is in effect puts the second record in effect. -/
theorem exchange_current (h : w.site.IsKept srv .plain) (hnone : w.site.store.current = none) :
    (w.course (Site.exchange.map .ofTurn)).deployment.store.current = some soleWriter := by
  obtain ⟨_, hfresh, _⟩ := h.finding_exchange hnone
  obtain ⟨_, hstore⟩ := Site.turn_of_fresh hfresh ⟨7, "one"⟩
  have hstore : (w.site.course Site.exchange).store = _ := hstore
  rw [← site_store, site_course, hstore]

/-- A second record replaces the first one, whether the first one can be archived or not. -/
theorem archive_plays_no_part_exchange :
    let w := opened srv plainSettings emptyHome 0
    let w' := opened srv plainSettings barredHome 0
    w'.observations (barredExchange.map .ofTurn) = w.observations (Site.exchange.map .ofTurn) ∧
      (w'.course (barredExchange.map .ofTurn)).deployment.store.current = some soleWriter ∧
      AgreeBeside srv (w.course (Site.exchange.map .ofTurn)).tree
        (w'.course (barredExchange.map .ofTurn)).tree := by
  obtain ⟨hturns, hplain, hplain'⟩ := isVersion_barredExchange
  obtain ⟨hobservations, hdeployment, htrees⟩ := archive_plays_no_part srv plainSettings
    (agreeBeside_takenHome [] 0).1 0 hturns
  have hkept : (opened srv plainSettings emptyHome 0).site.IsKept srv .plain :=
    (Site.opened_isKept srv .plain emptyHome).turn (.subscribe { recipient := .directory })
  have hcurrent := exchange_current hkept Site.opened_emptyHome_current
  refine ⟨hobservations, ?_, htrees hplain hplain'⟩
  rw [hdeployment]
  exact hcurrent

end World

end BrokerAccess
