import BrokerAccess.Proofs.Files.Tree
import BrokerAccess.Proofs.Record.Document
import BrokerAccess.Proofs.Text.Utf8
import BrokerAccess.Record.File

/-!
# Reading written files

What a record file holds depends on the file alone, not on the path or the tree. A record
that was written to a file and is read again is the record with its permissions filled, so
it is the record itself exactly if no permission lacks a constraint; a record without
defects lacks none.
-/

namespace BrokerAccess

open Files (Entry Guard Path Time Tree)

/-! ## What a file holds -/

/-- What a file holds is what its bytes are read as. -/
theorem readDocument_eq_ok_iff {α : Type} {read? : List Char → Option α} {t : Tree} {path : Path}
    {value : α} : readDocument read? t path = .ok value ↔ ∃ content time text,
      t.entry? path = some (.file content time) ∧ Utf8.decode? content = some text ∧
        read? text = some value := by
  unfold readDocument Tree.text Tree.content Tree.entry?
  cases t.entry path with
  | error error => simp [bind, Except.bind, Except.toOption]
  | ok entry =>
    cases entry with
    | folder time => simp [bind, Except.bind, Except.toOption]
    | file content time =>
      simp only [bind, Except.bind, Except.toOption]
      cases hdecode : Utf8.decode? content with
      | none => simp [hdecode]
      | some text =>
        cases hread : read? text <;> simp [hdecode, hread]

/-- What a file holds depends on what its path leads to, or fails to lead to. -/
theorem readDocument_congr {α : Type} (read? : List Char → Option α) {t t' : Tree} {path : Path}
    (h : t'.entry path = t.entry path) :
    readDocument read? t' path = readDocument read? t path := by
  rw [readDocument, readDocument, Tree.text, Tree.text, Tree.content, Tree.content, h]

/-- The record of a file is what its bytes are read as. -/
theorem Credentials.ofFile_eq_ok_iff {t : Tree} {path : Path} {record : Credentials} :
    Credentials.ofFile t path = .ok record ↔ ∃ content time text,
      t.entry? path = some (.file content time) ∧ Utf8.decode? content = some text ∧
        Credentials.read? text = some record :=
  readDocument_eq_ok_iff

/-! ## Constraints that are left open -/

/-- The permission lacks none of the constraints that have a default. -/
structure Permission.IsSpelledOut (p : Permission) : Prop where
  /-- The activity is there. -/
  activity : p.activity.isSome
  /-- The service levels are there. -/
  qos : p.qos.isSome
  /-- The retained messages are there. -/
  retain : p.retain.isSome
  /-- The kinds of subscription are there. -/
  sharedSubscription : p.sharedSubscription.isSome
  /-- The shared group is there. -/
  sharedGroup : p.sharedGroup.isSome

/-- No permission of the record lacks a constraint. -/
def Credentials.IsSpelledOut (c : Credentials) : Prop :=
  ∀ r ∈ c.roleList, ∀ p ∈ r.permissions.getD [], p.IsSpelledOut

/-- A default takes the place of nothing but what is absent. -/
theorem or_some_eq_self_iff {α : Type} (x : Option α) (default : α) :
    x.or (some default) = x ↔ x.isSome := by
  cases x <;> simp

/-- Filling leaves a permission as it is exactly if it lacks nothing. -/
theorem Permission.filled_eq_self_iff (p : Permission) : p.filled = p ↔ p.IsSpelledOut := by
  obtain ⟨topic, activity, qos, retain, sharedSubscription, sharedGroup⟩ := p
  simp only [Permission.filled, Permission.mk.injEq, true_and, or_some_eq_self_iff]
  constructor
  · rintro ⟨ha, hq, hr, hs, hg⟩
    exact ⟨ha, hq, hr, hs, hg⟩
  · intro h
    exact ⟨h.activity, h.qos, h.retain, h.sharedSubscription, h.sharedGroup⟩

/-- Mapping leaves an optional list as it is exactly if it leaves every element as it is. -/
theorem map_map_eq_self_iff {α : Type} (f : α → α) (list : Option (List α)) :
    list.map (List.map f) = list ↔ ∀ a ∈ list.getD [], f a = a := by
  cases list with
  | none => simp
  | some l =>
    have hid : l.map f = l.map id ↔ _ := List.map_eq_map_iff
    rw [List.map_id] at hid
    simpa using hid

/-- Filling leaves a record as it is exactly if none of its permissions lacks anything. -/
theorem Credentials.filled_eq_self_iff (c : Credentials) : c.filled = c ↔ c.IsSpelledOut := by
  have hrole (r : Role) :
      { r with permissions := r.permissions.map fun ps => ps.map Permission.filled } = r ↔
        ∀ p ∈ r.permissions.getD [], p.IsSpelledOut := by
    obtain ⟨id, permissions⟩ := r
    simp only [Role.mk.injEq, true_and, map_map_eq_self_iff, Permission.filled_eq_self_iff]
  obtain ⟨users, roles⟩ := c
  simp only [Credentials.filled, Credentials.mk.injEq, true_and, map_map_eq_self_iff, hrole]
  rfl

/-- A record without defects lacks no constraint. -/
theorem Credentials.isSpelledOut_of_defects {scheme : PasswordScheme} {c : Credentials}
    (h : c.defects scheme = []) : c.IsSpelledOut := by
  intro r hr p hp
  obtain ⟨permissions, hpermissions, _, hcomplete⟩ :=
    ((Credentials.isWellFormed_of_defects h).roleComplete r hr).permissions
  rw [hpermissions, Option.getD_some] at hp
  have hp := hcomplete p hp
  obtain ⟨group, hgroup, _⟩ := hp.sharedGroup
  exact ⟨hp.activity, hp.qos, hp.retain, hp.sharedSubscription, by rw [hgroup]; rfl⟩

/-! ## Writing and reading -/

/-- A record is written where its path leads and nothing stands yet. -/
theorem Credentials.exists_put_of_toFile {c : Credentials} {time : Time} {path : Path} {t t' : Tree}
    {guard : Guard} (h : c.toFile time path t guard = .ok t') :
    ∃ place, t.follow path = .ok place ∧ t.find? place = none ∧ guard.bars place = false ∧
      t' = t.put place (.file (Utf8.encode c.write) time) := by
  unfold Credentials.toFile at h
  cases hfollow : t.follow path with
  | error error =>
    rw [hfollow] at h
    cases h
  | ok place =>
    rw [hfollow] at h
    dsimp only at h
    split at h
    · cases h
    · cases h
    next hfree =>
      split at h
      · cases h
      next hbars => exact ⟨place, rfl, hfree, by simpa using hbars, (Except.ok.inj h).symm⟩

/-- A record that was written to a file is read back filled. -/
theorem Credentials.ofFile_toFile {c : Credentials} {time : Time} {path : Path} {t t' : Tree}
    {guard : Guard} (h : c.toFile time path t guard = .ok t') :
    Credentials.ofFile t' path = .ok c.filled := by
  obtain ⟨place, hfollow, hfree, _, rfl⟩ := Credentials.exists_put_of_toFile h
  have hentry : Tree.entry? (t.put place (.file (Utf8.encode c.write) time)) path = some _ :=
    Tree.entry?_put_self rfl hfree hfollow
  have hdecode : Utf8.decode? (Utf8.encode c.write) = some c.write := Utf8.decode?_encode c.write
  rw [Credentials.ofFile_eq_ok_iff]
  exact ⟨_, time, c.write, hentry, hdecode, c.read?_write⟩

/-- Whatever a record holds, its text is read back as the record with every constraint that is
absent replaced by the one that allows all, and so is every file that it is written to. The record
itself is read back exactly if no permission lacks a constraint, and a record without defects
lacks none. -/
theorem Credentials.write_reads_filled (c : Credentials) :
    Credentials.read? c.write = some c.filled ∧
    (∀ time path t t', c.toFile time path t = .ok t' →
      Credentials.ofFile t' path = .ok c.filled) ∧
    (Credentials.read? c.write = some c ↔ c.IsSpelledOut) ∧
    (∀ scheme, c.defects scheme = [] → c.IsSpelledOut) := by
  refine ⟨c.read?_write, fun _ _ _ _ => Credentials.ofFile_toFile, ?_,
    fun _ => Credentials.isSpelledOut_of_defects⟩
  rw [c.read?_write, Option.some.injEq, c.filled_eq_self_iff]

end BrokerAccess
