import BrokerAccess.Deployment
import BrokerAccess.Proofs.Gate
import BrokerAccess.Proofs.Store.Sound

/-!
# Runs of a deployment

A deployment is opened and then lives through a run: files change, the store looks at
its file, clients connect, users and grants are looked up, and time passes. At every
moment the directory follows the record in effect and its cache can be relied on, so
every client is told what the record alone would tell it. No password that was taken
back, and no user of an earlier record, lives on in an index or in the cache.
-/

namespace BrokerAccess

open Files (Path Tree)

/-- A directory that is updated follows the new record. -/
theorem Directory.update_follows {d : Directory} (h : d.cache.IsFaithful Password.hash)
    (record : Credentials) : (d.update record).Follows (some record) :=
  ⟨rfl, rfl, h⟩

/-- The directory that is built from the record in effect, if there is one. -/
def Directory.ofCurrent (scheme : PasswordScheme) : Option Credentials → Directory
  | none => ⟨scheme, [], [], .standard⟩
  | some record => Directory.update ⟨scheme, [], [], .standard⟩ record

/-- A directory that is built takes passwords as it is told. -/
theorem Directory.ofCurrent_scheme (scheme : PasswordScheme) (current : Option Credentials) :
    (ofCurrent scheme current).scheme = scheme := by
  cases current <;> rfl

/-- A directory that is built from a record follows it. -/
theorem Directory.ofCurrent_follows (scheme : PasswordScheme) (current : Option Credentials) :
    (ofCurrent scheme current).Follows current := by
  have hcache := HashCache.isFaithful_new Password.hash (30 * HashCache.second) 1000
  cases current with
  | none => exact ⟨rfl, rfl, hcache⟩
  | some record => exact Directory.update_follows hcache record

namespace Deployment

/-- A call changes the directory if it is for it. -/
theorem heed_fst (state : Directory × Journal) (notice : Notice) :
    (heed state notice).1 =
      if notice.recipient = .directory then state.1.update notice.new else state.1 := by
  unfold heed
  cases notice.recipient with
  | directory => rfl
  | observer id => rfl

/-- Calls about one record update the directory to it, if one of them is for it. -/
theorem follow_fst {record : Credentials} {notices : List Notice}
    (hnew : ∀ notice ∈ notices, notice.new = record) (d : Directory) :
    (follow d notices).1 =
      if ∃ notice ∈ notices, notice.recipient = .directory then d.update record else d := by
  have hfold (state : Directory × Journal) : (notices.foldl heed state).1 =
      if ∃ notice ∈ notices, notice.recipient = .directory then state.1.update record
      else state.1 := by
    induction notices generalizing state with
    | nil => simp
    | cons notice rest ih =>
      rw [List.forall_mem_cons] at hnew
      rw [List.foldl_cons, ih hnew.2, heed_fst, hnew.1]
      simp only [List.mem_cons, exists_eq_or_imp]
      by_cases hfirst : notice.recipient = .directory
      · -- A second update to the same record changes nothing.
        have hagain : (state.1.update record).update record = state.1.update record := rfl
        simp only [hfirst, if_true, true_or, hagain, ite_self]
      · simp only [hfirst, if_false, false_or]
  exact hfold (d, [])

/-- A deployment that works as its settings and its record say. -/
structure IsInTune (settings : Settings) (d : Deployment) : Prop where
  /-- The store is sound. -/
  sound : d.store.IsSound
  /-- The store takes passwords as the settings say. -/
  stored : d.store.scheme = settings.passwordScheme
  /-- The directory takes passwords as the settings say. -/
  scheme : d.directory.scheme = settings.passwordScheme
  /-- The gate is that of the settings. -/
  gate : d.gate = .ofSettings settings
  /-- The directory is told about new records. -/
  told : ∃ subscriber ∈ d.store.subscribers, subscriber.recipient = .directory
  /-- The directory follows the record in effect. -/
  follows : d.directory.Follows d.store.current

variable {settings : Settings} {d : Deployment}

/-- A deployment is opened with the directory that is built from its record. -/
theorem ofTree_directory (home : Path) (settings : Settings) (t : Tree) :
    (ofTree home settings t).1.directory =
      .ofCurrent settings.passwordScheme (ofTree home settings t).1.store.current := by
  have hstore : (ofTree home settings t).1.store.current =
      (Store.ofTree home settings.passwordScheme t).1.current := rfl
  rw [hstore]
  unfold ofTree
  dsimp only
  cases (Store.ofTree home settings.passwordScheme t).1.current <;> rfl

/-- A deployment is opened in tune. -/
theorem ofTree_isInTune (home : Path) (settings : Settings) (t : Tree) :
    (ofTree home settings t).1.IsInTune settings := by
  have hstore : (ofTree home settings t).1.store =
      (Store.ofTree home settings.passwordScheme t).1.subscribe { recipient := .directory } := rfl
  have hsound := Store.ofTree_isSound home settings.passwordScheme t
  refine ⟨?_, ?_, ?_, rfl, ?_, ?_⟩
  · rw [hstore]
    exact hsound.subscribe fun _ _ => rfl
  · rw [hstore, Store.ofTree_fst]
    rfl
  · rw [ofTree_directory, Directory.ofCurrent_scheme]
  · rw [hstore]
    exact ⟨_, List.mem_append_right _ (List.mem_singleton.mpr rfl), rfl⟩
  · rw [ofTree_directory]
    exact Directory.ofCurrent_follows _ _

/-- A reload leaves the directory and the record in effect as they are, or it updates the directory
to the record that it puts in effect. -/
theorem IsInTune.reload_cases (h : d.IsInTune settings) (moment : ArchiveTime) (t : Tree) :
    ((d.reload moment t).deployment.directory = d.directory ∧
      (d.reload moment t).deployment.store.current = d.store.current) ∨
    ∃ record, (d.reload moment t).deployment.directory = d.directory.update record ∧
      (d.reload moment t).deployment.store.current = some record := by
  have hd : (d.reload moment t).deployment.directory =
    (follow d.directory (d.store.reload moment t).notices).1 := rfl
  have hs : (d.reload moment t).deployment.store = (d.store.reload moment t).store := rfl
  rcases h.sound.reload_cases moment t with
    ⟨_, hnotices, hstore⟩ | ⟨_, record, time, _, _, _, hnotices, hstore⟩
  · rw [hd, hs, hnotices, hstore]
    exact Or.inl ⟨rfl, rfl⟩
  · obtain ⟨subscriber, hm, hr⟩ := h.told
    have hnew : ∀ notice ∈ (d.store.reload moment t).notices, notice.new = record := by
      rw [hnotices]
      intro notice hn
      obtain ⟨_, _, rfl⟩ := List.mem_map.mp hn
      rfl
    have htold : ∃ notice ∈ (d.store.reload moment t).notices, notice.recipient = .directory := by
      rw [hnotices]
      exact ⟨_, List.mem_map.mpr ⟨subscriber, hm, rfl⟩, hr⟩
    rw [hd, hs, follow_fst hnew, if_pos htold, hstore]
    exact Or.inr ⟨record, rfl, rfl⟩

/-- A reload keeps a deployment in tune. -/
theorem IsInTune.reload (h : d.IsInTune settings) (moment : ArchiveTime) (t : Tree) :
    (d.reload moment t).deployment.IsInTune settings := by
  have hsound := h.sound.reload moment t
  have hstored := (d.store.reload_scheme moment t).trans h.stored
  have htold : ∃ subscriber ∈ (d.store.reload moment t).store.subscribers,
      subscriber.recipient = .directory := by
    rw [Store.reload_subscribers]
    exact h.told
  rcases h.reload_cases moment t with ⟨hd, hc⟩ | ⟨record, hd, hc⟩
  · refine ⟨hsound, hstored, ?_, h.gate, htold, ?_⟩
    · rw [hd]
      exact h.scheme
    · rw [hd, hc]
      exact h.follows
  · refine ⟨hsound, hstored, ?_, h.gate, htold, ?_⟩
    · rw [hd]
      exact h.scheme
    · rw [hd, hc]
      exact Directory.update_follows h.follows.cache record

/-- A decision on a client keeps a deployment in tune. -/
theorem IsInTune.connect (h : d.IsInTune settings) (now : Nat) (request : ConnectRequest) :
    (d.connect now request).2.1.IsInTune settings := by
  have hcache := Gate.connect_cache_isFaithful d.gate h.follows.cache now request
  exact ⟨h.sound, h.stored, h.scheme, h.gate, h.told, h.follows.users, h.follows.roles, hcache⟩

/-- A new observer that does not fail keeps a deployment in tune. -/
theorem IsInTune.subscribe (h : d.IsInTune settings) (id : String) :
    (d.subscribe { recipient := .observer id }).IsInTune settings := by
  obtain ⟨subscriber, hm, hr⟩ := h.told
  refine ⟨?_, h.stored, h.scheme, h.gate, ?_, h.follows⟩
  · exact h.sound.subscribe fun _ _ => rfl
  · exact ⟨subscriber, List.mem_append_left _ hm, hr⟩

/-- The deployment after somebody asked for the roles of a user who presents a password. -/
def afterRolesOf (d : Deployment) (now : Nat) (user : String) (password : List UInt8) :
    Deployment :=
  { d with
    directory := { d.directory with cache := (d.directory.rolesOf now user password).cache } }

/-- A look-up of roles keeps a deployment in tune. -/
theorem IsInTune.afterRolesOf (h : d.IsInTune settings) (now : Nat) (user : String)
    (password : List UInt8) : (d.afterRolesOf now user password).IsInTune settings := by
  have hcache := Directory.rolesOf_cache_isFaithful h.follows.cache now user password
  exact ⟨h.sound, h.stored, h.scheme, h.gate, h.told, h.follows.users, h.follows.roles, hcache⟩

/-- A deployment in tune decides on clients as its record does. -/
theorem IsInTune.connect_eq (h : d.IsInTune settings) (now : Nat) (request : ConnectRequest) :
    (d.connect now request).1 = settings.decision d.store.current request := by
  have hw : ∀ record, d.store.current = some record →
      record.IsWellFormed settings.passwordScheme := by
    intro record hc
    have hd := h.sound.accepted record hc
    rw [h.stored] at hd
    exact Credentials.isWellFormed_of_defects hd
  rw [← Gate.connect_decision h.follows h.scheme hw now request, ← h.gate]
  rfl

end Deployment

/-- A deployment, the tree that it looks at, and its clock. -/
structure World where
  /-- The deployment. -/
  deployment : Deployment
  /-- What its file system holds. -/
  tree : Tree
  /-- What its clock shows, in nanoseconds. -/
  now : Nat

/-- What can happen in a world. -/
inductive WorldEvent where
  /-- Others leave a tree of any kind. -/
  | disk (tree : Tree)
  /-- Time passes. -/
  | elapse (time : Nat)
  /-- Somebody wants to be told about new records, and never fails. -/
  | subscribe (id : String)
  /-- The store looks at its file. -/
  | reload (moment : ArchiveTime)
  /-- A client connects. -/
  | connect (request : ConnectRequest)
  /-- Somebody asks for the roles of a user who presents a password. -/
  | rolesOf (user : String) (password : List UInt8)
  /-- Somebody asks what roles grant to a connection. -/
  | grants (clientId userName : String) (roles : List String)

namespace World

/-- A deployment opened below a home folder, on its tree, at a time. -/
def opened (home : Path) (settings : Settings) (t : Tree) (now : Nat) : World :=
  ⟨(Deployment.ofTree home settings t).1, t, now⟩

/-- The world after an event. A look-up of grants only reads. -/
def step (w : World) : WorldEvent → World
  | .disk tree => { w with tree }
  | .elapse time => { w with now := w.now + time }
  | .subscribe id => { w with deployment := w.deployment.subscribe { recipient := .observer id } }
  | .reload moment =>
    let reload := w.deployment.reload moment w.tree
    { w with deployment := reload.deployment, tree := reload.tree }
  | .connect request => { w with deployment := (w.deployment.connect w.now request).2.1 }
  | .rolesOf user password =>
    { w with deployment := w.deployment.afterRolesOf w.now user password }
  | .grants .. => w

/-- The world after events in order. -/
def run (w : World) (events : List WorldEvent) : World := events.foldl step w

variable {settings : Settings} {w : World}

/-- Every event keeps the deployment in tune. -/
theorem step_isInTune (h : w.deployment.IsInTune settings) (event : WorldEvent) :
    (w.step event).deployment.IsInTune settings := by
  cases event with
  | disk tree => exact h
  | elapse time => exact h
  | subscribe id => exact h.subscribe id
  | reload moment => exact h.reload moment w.tree
  | connect request => exact h.connect w.now request
  | rolesOf user password => exact h.afterRolesOf w.now user password
  | grants clientId userName roles => exact h

/-- Every run keeps the deployment in tune. -/
theorem run_isInTune (h : w.deployment.IsInTune settings) (events : List WorldEvent) :
    (w.run events).deployment.IsInTune settings := by
  induction events generalizing w with
  | nil => exact h
  | cons event rest ih => exact ih (step_isInTune h event)

/-- Whatever happened before, a client that connects is told what the settings, the record in
effect and its request alone decide. -/
theorem connect_eq_decision (home : Path) (settings : Settings) (t : Tree) (start : Nat)
    (events : List WorldEvent) (request : ConnectRequest) :
    let w := (opened home settings t start).run events
    (w.deployment.connect w.now request).1 =
      settings.decision w.deployment.store.current request := by
  have hopen := Deployment.ofTree_isInTune home settings t
  have h := run_isInTune (w := opened home settings t start) hopen events
  exact h.connect_eq _ request

end World

end BrokerAccess
