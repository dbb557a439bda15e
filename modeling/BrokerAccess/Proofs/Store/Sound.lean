import BrokerAccess.Proofs.Store.Reload

/-!
# Sound stores

A store is sound when the record in effect has no defect, the time of change of its file
is known, and no subscriber fails. Stores are opened sound and stay so. One lemma says
all that a reload of a sound store can do.
-/

namespace BrokerAccess

open Files (Path Time Tree)

/-- What always holds of a store whose subscribers do not fail. -/
structure Store.IsSound (s : Store) : Prop where
  /-- The record in effect has no defect. -/
  accepted : ∀ record, s.current = some record → record.defects s.scheme = []
  /-- A record is in effect exactly when the time of change of its file is known. -/
  dated : s.current.isSome = s.lastRead.isSome
  /-- No subscriber fails. -/
  calm : ∀ subscriber ∈ s.subscribers, ∀ old new, subscriber.fails old new = false

namespace Store

variable {s : Store} {t : Tree}

/-- What is news to a sound store is later than what it has read. -/
theorem IsSound.lt_of_not_isKnown (h : s.IsSound) {time : Time} (hk : s.isKnown time = false)
    {last : Time} (hl : s.lastRead = some last) : last < time := by
  have hc : s.current.isSome = true := by rw [h.dated, hl]; rfl
  simpa only [isKnown, hc, hl, Bool.true_and, Option.any_some, decide_eq_false_iff_not,
    Int.not_le] using hk

/-- A store is opened with what its tree holds. -/
theorem ofTree_fst (home : Path) (scheme : PasswordScheme) (t : Tree) :
    (ofTree home scheme t).1 =
      let path := (Placement.ofCredentials home).path t
      let found := (t.modified path).toOption.bind fun time =>
        (Credentials.load scheme t path).toOption.map fun record => (record, time)
      { placement := (Placement.ofCredentials home).seen t
        archive := .ofHome home
        scheme
        current := found.map Prod.fst
        lastRead := found.map Prod.snd } := by
  have ha := accept_fst
    ⟨(Placement.ofCredentials home).seen t, .ofHome home, scheme, none, none, []⟩ t
    ((Placement.ofCredentials home).path t)
  unfold ofTree
  dsimp only
  rw [← ha]
  split
  next record time journal hs => rw [hs]; rfl
  next journal hs => rw [hs]; rfl

/-- The record that a store is opened with is what can be loaded. -/
theorem ofTree_current (home : Path) (scheme : PasswordScheme) (t : Tree) :
    (ofTree home scheme t).1.current =
      (Credentials.load scheme t ((Placement.ofCredentials home).path t)).toOption := by
  rw [ofTree_fst]
  dsimp only
  cases hl : Credentials.load scheme t ((Placement.ofCredentials home).path t) with
  | error error =>
    cases t.modified ((Placement.ofCredentials home).path t) with
    | error error => rfl
    | ok time => rfl
  | ok record =>
    obtain ⟨time, hm⟩ := Credentials.exists_modified_of_load hl
    rw [hm]
    rfl

/-- A store is opened sound. -/
theorem ofTree_isSound (home : Path) (scheme : PasswordScheme) (t : Tree) :
    (ofTree home scheme t).1.IsSound where
  accepted := by
    intro record hc
    rw [ofTree_current] at hc
    rw [ofTree_fst]
    cases hl : Credentials.load scheme t ((Placement.ofCredentials home).path t) with
    | error error =>
      rw [hl] at hc
      cases hc
    | ok found =>
      rw [hl] at hc
      obtain rfl : found = record := Option.some.inj hc
      exact (Credentials.load_eq_ok_iff.mp hl).2
  dated := by
    rw [ofTree_fst]
    simp only [Option.isSome_map]
  calm := by
    rw [ofTree_fst]
    intro subscriber hs
    exact absurd hs List.not_mem_nil

/-- A reload of a sound store either leaves in effect what was, or says that it has put the
record of a file in effect that is later than any read before. -/
theorem IsSound.reload_cases (h : s.IsSound) (moment : ArchiveTime) (t : Tree) :
    ((s.reload moment t).outcome ≠ some .reloaded ∧ (s.reload moment t).notices = [] ∧
      (s.reload moment t).store = { s with placement := s.placement.seen t }) ∨
    (s.reload moment t).outcome = some .reloaded ∧ ∃ record time,
      Credentials.load s.scheme t (s.placement.path t) = .ok record ∧
      t.modified (s.placement.path t) = .ok time ∧
      (∀ last, s.lastRead = some last → last < time) ∧
      (s.reload moment t).notices =
        s.subscribers.map (fun subscriber => ⟨subscriber.recipient, s.current, record⟩) ∧
      (s.reload moment t).store = { s with
        placement := s.placement.seen t
        current := some record
        lastRead := some time } := by
  rcases s.reload_cases moment t with
    ⟨outcome, hne, ho, hn, _, hs⟩ | ⟨record, time, hf, ho, hn, _, hs⟩
  · refine Or.inl ⟨?_, hn, hs⟩
    rw [ho]
    exact fun he => hne (Option.some.inj he)
  · obtain ⟨hl, hm, hk⟩ := finding_eq_fresh_iff.mp hf
    have hd : deliver s.current record s.subscribers = _ :=
      deliver_of_calm fun subscriber hs => h.calm subscriber hs s.current record
    refine Or.inr ⟨?_, record, time, hl, hm, fun _ => h.lt_of_not_isKnown hk, ?_, hs⟩
    · rw [ho, hd, if_pos rfl]
    · rw [hn, hd]

/-- A reload keeps a store sound. -/
theorem IsSound.reload (h : s.IsSound) (moment : ArchiveTime) (t : Tree) :
    (s.reload moment t).store.IsSound := by
  rcases h.reload_cases moment t with ⟨_, _, hs⟩ | ⟨_, record, time, hl, _, _, _, hs⟩
  · rw [hs]
    exact ⟨h.accepted, h.dated, h.calm⟩
  · rw [hs]
    refine ⟨?_, rfl, h.calm⟩
    intro other ho
    obtain rfl : record = other := Option.some.inj ho
    exact (Credentials.load_eq_ok_iff.mp hl).2

/-- A new subscriber that does not fail keeps a store sound. -/
theorem IsSound.subscribe (h : s.IsSound) {subscriber : Subscriber}
    (hs : ∀ old new, subscriber.fails old new = false) : (s.subscribe subscriber).IsSound := by
  refine ⟨h.accepted, h.dated, ?_⟩
  intro other ho
  rcases List.mem_append.mp ho with ho | ho
  · exact h.calm other ho
  · obtain rfl := List.mem_singleton.mp ho
    exact hs

end Store

end BrokerAccess
