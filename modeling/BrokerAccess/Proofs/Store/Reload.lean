import BrokerAccess.Store

/-!
# What a reload does

All that a reload does follows from what its look at the record's file finds. The finding
depends on the store and the tree alone: the time of archiving and the subscribers play no
part in it. Only a fresh record changes what is in effect.
-/

namespace BrokerAccess

open Files (Entry Path Time Tree)

/-- What a look at the record's file finds. -/
inductive Finding where
  /-- Nothing stands there. -/
  | absent
  /-- What stands there is no news. -/
  | known
  /-- What stands there cannot be used. -/
  | unusable
  /-- A record to put in effect, and the time of change of its file. -/
  | fresh (record : Credentials) (time : Time)

/-- A record is loaded exactly when its file holds it and it has no defect. -/
theorem Credentials.load_eq_ok_iff {scheme : PasswordScheme} {t : Tree} {path : Path}
    {record : Credentials} : Credentials.load scheme t path = .ok record ↔
      Credentials.ofFile t path = .ok record ∧ record.defects scheme = [] := by
  unfold Credentials.load
  cases hf : Credentials.ofFile t path with
  | error error => simp only [bind, Except.bind, reduceCtorEq, false_and]
  | ok found =>
    simp only [bind, Except.bind, Except.ok.injEq]
    split
    next hd =>
      constructor
      · intro h
        obtain rfl := Except.ok.inj h
        exact ⟨rfl, hd⟩
      · rintro ⟨rfl, _⟩
        rfl
    next hd =>
      simp only [reduceCtorEq, false_iff, not_and]
      rintro rfl
      exact hd

/-- What can be loaded has a time of change. -/
theorem Credentials.exists_modified_of_load {scheme : PasswordScheme} {t : Tree} {path : Path}
    {record : Credentials} (h : Credentials.load scheme t path = .ok record) :
    ∃ time, t.modified path = .ok time := by
  cases he : t.entry path with
  | ok entry => exact ⟨entry.modified, by rw [Tree.modified, he]; rfl⟩
  | error error =>
    have hf : Credentials.ofFile t path = .error (.file error) := by
      simp only [Credentials.ofFile, readDocument, Tree.text, Tree.content, he, bind, Except.bind]
    rw [(Credentials.load_eq_ok_iff.mp h).1] at hf
    cases hf

/-- The subscribers that do not fail are all called. -/
theorem deliver_of_calm {old : Option Credentials} {new : Credentials}
    {subscribers : List Subscriber} (h : ∀ s ∈ subscribers, s.fails old new = false) :
    deliver old new subscribers =
      (subscribers.map fun s => ⟨s.recipient, old, new⟩, true) := by
  induction subscribers with
  | nil => rfl
  | cons s rest ih =>
    rw [List.forall_mem_cons] at h
    rw [deliver, ih h.2]
    simp only [h.1, Bool.false_eq_true, if_false, List.map_cons]

/-- The calls come to their end exactly when no subscriber fails. -/
theorem deliver_snd (old : Option Credentials) (new : Credentials)
    (subscribers : List Subscriber) : (deliver old new subscribers).2 =
      subscribers.all fun s => !s.fails old new := by
  induction subscribers with
  | nil => rfl
  | cons s rest ih =>
    rw [deliver, List.all_cons, ← ih]
    cases s.fails old new <;> rfl

/-- If the calls come to their end, all subscribers are called. -/
theorem deliver_of_finished {old : Option Credentials} {new : Credentials}
    {subscribers : List Subscriber} (h : (deliver old new subscribers).2 = true) :
    (deliver old new subscribers).1 = subscribers.map fun s => ⟨s.recipient, old, new⟩ := by
  rw [deliver_snd, List.all_eq_true] at h
  rw [deliver_of_calm fun s hs => by simpa using h s hs]

namespace Store

/-- What the store's next look at the record's file finds. -/
def finding (s : Store) (t : Tree) : Finding :=
  match t.entry? (s.placement.path t) with
  | none => .absent
  | some entry =>
    if s.isKnown entry.modified then .known
    else
      match Credentials.load s.scheme t (s.placement.path t) with
      | .error _ => .unusable
      | .ok record => .fresh record entry.modified

variable {s : Store} {t : Tree}

/-- What stands at a path is accepted exactly when it can be loaded and has a time of change. -/
theorem accept_fst (s : Store) (t : Tree) (path : Path) :
    (s.accept t path).1 = (t.modified path).toOption.bind fun time =>
      (Credentials.load s.scheme t path).toOption.map fun record => (record, time) := by
  unfold accept
  cases t.modified path with
  | error error => rfl
  | ok time =>
    dsimp only
    split
    next record hl => rw [hl]; rfl
    next defects hl => rw [hl]; rfl
    next error _ hl => rw [hl]; rfl

/-- A finding is fresh exactly when the file can be loaded and its time of change is news. -/
theorem finding_eq_fresh_iff {record : Credentials} {time : Time} :
    s.finding t = .fresh record time ↔
      Credentials.load s.scheme t (s.placement.path t) = .ok record ∧
        t.modified (s.placement.path t) = .ok time ∧ s.isKnown time = false := by
  unfold finding Tree.entry? Tree.modified
  cases he : t.entry (s.placement.path t) with
  | error error => simp [Except.toOption, Except.map]
  | ok entry =>
    simp only [Except.toOption, Except.map, Except.ok.injEq]
    by_cases hk : s.isKnown entry.modified = true
    · simp only [hk, if_true, reduceCtorEq, false_iff]
      rintro ⟨_, rfl, hn⟩
      rw [hk] at hn
      exact Bool.noConfusion hn
    · rw [Bool.not_eq_true] at hk
      simp only [hk, Bool.false_eq_true, if_false]
      cases Credentials.load s.scheme t (s.placement.path t) with
      | error error => simp only [reduceCtorEq, false_and]
      | ok found =>
        simp only [Finding.fresh.injEq, Except.ok.injEq]
        constructor
        · rintro ⟨rfl, rfl⟩
          exact ⟨rfl, rfl, hk⟩
        · rintro ⟨rfl, rfl, _⟩
          exact ⟨rfl, rfl⟩

/-- What a reload comes to by what it finds, but for what it reports. -/
def react (s : Store) (moment : ArchiveTime) (t : Tree) : Finding → Reload
  | .absent => ⟨{ s with placement := s.placement.seen t }, t, some .missing, [], []⟩
  | .known => ⟨{ s with placement := s.placement.seen t }, t, some .unchanged, [], []⟩
  | .unusable => ⟨{ s with placement := s.placement.seen t }, t, some .rejected, [], []⟩
  | .fresh record time =>
    let (notices, finished) := deliver s.current record s.subscribers
    { store :=
        { s with placement := s.placement.seen t, current := some record, lastRead := some time }
      tree := (s.archive.keep moment s.current t).tree
      outcome := if finished then some .reloaded else none
      notices
      journal := [] }

/-- A reload is the reaction to what it finds. -/
theorem reload_eq_react (s : Store) (moment : ArchiveTime) (t : Tree) :
    { s.reload moment t with journal := [] } = s.react moment t (s.finding t) := by
  unfold finding reload look locate Tree.entry?
  dsimp only
  cases he : t.entry (s.placement.path t) with
  | error error => rfl
  | ok entry =>
    have ha := accept_fst { s with placement := s.placement.seen t } t (s.placement.path t)
    rw [Tree.modified, he] at ha
    by_cases hk : s.isKnown entry.modified = true
    · have hk' : isKnown { s with placement := s.placement.seen t } entry.modified = true := hk
      simp only [Except.toOption, hk, hk', if_true, react]
    · have hk' : ¬isKnown { s with placement := s.placement.seen t } entry.modified = true := hk
      simp only [Except.toOption, if_neg hk, if_neg hk']
      generalize accept { s with placement := s.placement.seen t } t (s.placement.path t) =
        accepted at ha ⊢
      obtain ⟨found, journal⟩ := accepted
      obtain rfl : found = _ := ha
      cases Credentials.load s.scheme t (s.placement.path t) with
      | error error => rfl
      | ok record => rfl

/-- The store after a reload, by what it finds. -/
theorem reload_store (s : Store) (moment : ArchiveTime) (t : Tree) :
    (s.reload moment t).store = (s.react moment t (s.finding t)).store := by
  rw [← reload_eq_react]

/-- The end of a reload, by what it finds. -/
theorem reload_outcome (s : Store) (moment : ArchiveTime) (t : Tree) :
    (s.reload moment t).outcome = (s.react moment t (s.finding t)).outcome := by
  rw [← reload_eq_react]

/-- The tree after a reload, by what it finds. -/
theorem reload_tree (s : Store) (moment : ArchiveTime) (t : Tree) :
    (s.reload moment t).tree = (s.react moment t (s.finding t)).tree := by
  rw [← reload_eq_react]

/-- The calls of subscribers in a reload, by what it finds. -/
theorem reload_notices (s : Store) (moment : ArchiveTime) (t : Tree) :
    (s.reload moment t).notices = (s.react moment t (s.finding t)).notices := by
  rw [← reload_eq_react]

/-- A reload either ends without a new record and leaves all as it is, but for having looked, or it
puts the fresh record that it finds in effect, whether or not all subscribers are called. -/
theorem reload_cases (s : Store) (moment : ArchiveTime) (t : Tree) :
    (∃ outcome, outcome ≠ .reloaded ∧ (s.reload moment t).outcome = some outcome ∧
      (s.reload moment t).notices = [] ∧ (s.reload moment t).tree = t ∧
      (s.reload moment t).store = { s with placement := s.placement.seen t }) ∨
    ∃ record time, s.finding t = .fresh record time ∧
      (s.reload moment t).outcome =
        (if (deliver s.current record s.subscribers).2 then some .reloaded else none) ∧
      (s.reload moment t).notices = (deliver s.current record s.subscribers).1 ∧
      (s.reload moment t).tree = (s.archive.keep moment s.current t).tree ∧
      (s.reload moment t).store = { s with
        placement := s.placement.seen t
        current := some record
        lastRead := some time } := by
  rw [reload_outcome, reload_notices, reload_tree, reload_store]
  cases hf : s.finding t with
  | absent => exact Or.inl ⟨.missing, by decide, rfl, rfl, rfl, rfl⟩
  | known => exact Or.inl ⟨.unchanged, by decide, rfl, rfl, rfl, rfl⟩
  | unusable => exact Or.inl ⟨.rejected, by decide, rfl, rfl, rfl, rfl⟩
  | fresh record time => exact Or.inr ⟨record, time, rfl, rfl, rfl, rfl, rfl⟩

/-- A reload does not change how passwords are stored. -/
theorem reload_scheme (s : Store) (moment : ArchiveTime) (t : Tree) :
    (s.reload moment t).store.scheme = s.scheme := by
  rw [reload_store]
  cases s.finding t <;> rfl

/-- A reload does not change who is told about new records. -/
theorem reload_subscribers (s : Store) (moment : ArchiveTime) (t : Tree) :
    (s.reload moment t).store.subscribers = s.subscribers := by
  rw [reload_store]
  cases s.finding t <;> rfl

/-- A reload does not change where the file is looked for. -/
theorem reload_path (s : Store) (moment : ArchiveTime) (t other : Tree) :
    (s.reload moment t).store.placement.path other = s.placement.path other := by
  rw [reload_store]
  cases s.finding t <;> rfl

end Store

end BrokerAccess
