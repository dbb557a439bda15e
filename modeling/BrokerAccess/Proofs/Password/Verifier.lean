import Mathlib.Data.List.Forall2
import BrokerAccess.Password.Verifier
import BrokerAccess.Proofs.Password.Cache
import BrokerAccess.Proofs.Text.Base64

/-!
# Answers of a verifier

Whether a password fits a stored one is a matter of these two and the derivation. A
verifier also has a cache, whose state depends on all earlier calls and on the clock; as
long as it is faithful, its answers are those of a verifier without one, and each call
keeps it faithful.
-/

namespace BrokerAccess.Password

/-- A base64 password fits a stored one: the stored one is cut at its colons into exactly three
fields, the second is an iteration count, and the third is the written form of the hash that is
derived with the first as salt. -/
def Fits (derive : Derivation) (password stored : String) : Prop :=
  ∃ salt count hash iterations bytes, fields ':' stored.toList = [salt, count, hash] ∧
    Decimal.readBelow? iterationBound count = some iterations ∧ hash = Base64.encode bytes ∧
    derive password (String.ofList salt) iterations = .ok bytes

/-- A stored password can be taken apart exactly when its three fields are in order. -/
theorem parse?_eq_some_iff (stored : String) (parsed : StoredPassword) :
    StoredPassword.parse? stored = some parsed ↔
      ∃ salt count hash, fields ':' stored.toList = [salt, count, hash] ∧
        String.ofList salt = parsed.salt ∧
        Decimal.readBelow? iterationBound count = some parsed.iterations ∧
        hash = Base64.encode parsed.hash := by
  unfold StoredPassword.parse?
  constructor
  · intro h
    split at h
    next salt count hash hf =>
      simp only [Option.bind_eq_bind, Option.bind_eq_some_iff] at h
      obtain ⟨iterations, hi, bytes, hb, h⟩ := h
      obtain rfl := Option.some.inj h
      exact ⟨salt, count, hash, hf, rfl, hi, (Base64.decode?_eq_some_iff hash bytes).mp hb⟩
    next => exact absurd h.symm (Option.some_ne_none parsed)
  · rintro ⟨salt, count, hash, hf, hs, hi, hb⟩
    rw [hf]
    simp only [hi, hs, (Base64.decode?_eq_some_iff hash parsed.hash).mpr hb, Option.bind_eq_bind,
      Option.bind_some]

/-- The salt of a stored password has no colon. -/
theorem colon_notMem_salt {stored : String} {parsed : StoredPassword}
    (h : StoredPassword.parse? stored = some parsed) : ':' ∉ parsed.salt.toList := by
  obtain ⟨salt, count, hash, hf, hs, _⟩ := (parse?_eq_some_iff stored parsed).mp h
  rw [← hs, String.toList_ofList]
  exact notMem_of_mem_fields (by rw [hf]; exact List.mem_cons_self)

/-- A password fits when the stored one can be taken apart and its hash is derived again. -/
theorem fits_iff_parse? (derive : Derivation) (password stored : String) :
    Fits derive password stored ↔
      ∃ parsed, StoredPassword.parse? stored = some parsed ∧
        derive password parsed.salt parsed.iterations = .ok parsed.hash := by
  simp only [parse?_eq_some_iff]
  constructor
  · rintro ⟨salt, count, hash, iterations, bytes, hf, hi, hb, hd⟩
    exact ⟨⟨String.ofList salt, iterations, bytes⟩, ⟨salt, count, hash, hf, rfl, hi, hb⟩, hd⟩
  · rintro ⟨parsed, ⟨salt, count, hash, hf, hs, hi, hb⟩, hd⟩
    exact ⟨salt, count, hash, parsed.iterations, parsed.hash, hf, hi, hb, hs ▸ hd⟩

/-- Whether a password fits can be computed. -/
instance (derive : Derivation) (password stored : String) :
    Decidable (Fits derive password stored) :=
  decidable_of_iff
    ((StoredPassword.parse? stored).any fun parsed =>
      derive password parsed.salt parsed.iterations = .ok parsed.hash) <| by
    simp only [fits_iff_parse?, Option.any_eq_true, decide_eq_true_eq]

section Verification

variable {derive : Derivation} {cache : HashCache}

/-- With a faithful cache the answer is whether the password fits. -/
theorem verify_matched_iff (h : cache.IsFaithful derive) (now : Nat) (password stored : String) :
    (verify derive now password stored cache).matched = true ↔ Fits derive password stored := by
  rw [fits_iff_parse?]
  unfold verify
  cases hp : StoredPassword.parse? stored with
  | none => simp only [Bool.false_eq_true, reduceCtorEq, false_and, exists_false]
  | some parsed =>
    simp only [Option.some.injEq, exists_eq_left']
    have hs := colon_notMem_salt hp
    split
    next hash after hg =>
      have hd : derive password parsed.salt parsed.iterations = .ok hash :=
        h.of_get_eq_some hs (by rw [hg])
      simp only [hd, Except.ok.injEq, decide_eq_true_eq]
    next after hg =>
      split
      next error hd => simp only [hd, Bool.false_eq_true, reduceCtorEq]
      next hash hd => simp only [hd, Except.ok.injEq, decide_eq_true_eq]

/-- A verification keeps a cache faithful. -/
theorem verify_cache_isFaithful (h : cache.IsFaithful derive) (now : Nat)
    (password stored : String) :
    (verify derive now password stored cache).cache.IsFaithful derive := by
  unfold verify
  cases hp : StoredPassword.parse? stored with
  | none => exact h
  | some parsed =>
    dsimp only
    have hk := h.mono
      (HashCache.mem_get cache now (HashCache.key password parsed.salt parsed.iterations))
    split
    next hash after hg => rwa [hg] at hk
    next after hg =>
      rw [hg] at hk
      split
      next => exact hk
      next hash hd => exact hk.insert (colon_notMem_salt hp) hd

end Verification

/-- A call of a verifier. -/
structure Check where
  /-- When it is made. -/
  now : Nat
  /-- The presented password, base64 encoded. -/
  password : String
  /-- The stored password. -/
  stored : String

/-- The answers to calls in order, of one verifier that keeps its cache. -/
def answers (derive : Derivation) : HashCache → List Check → List Bool
  | _, [] => []
  | cache, check :: rest =>
    let verification := verify derive check.now check.password check.stored cache
    verification.matched :: answers derive verification.cache rest

/-- The answers from a faithful cache on. -/
theorem answers_of_isFaithful {derive : Derivation} {cache : HashCache}
    (h : cache.IsFaithful derive) (checks : List Check) :
    List.Forall₂ (fun check answer => answer = true ↔ Fits derive check.password check.stored)
      checks (answers derive cache checks) := by
  induction checks generalizing cache with
  | nil => exact .nil
  | cons check rest ih =>
    refine .cons ?_ ?_
    · exact verify_matched_iff h check.now check.password check.stored
    · exact ih (verify_cache_isFaithful h check.now check.password check.stored)

/-- The answer to each call is whether its password fits, whatever was asked before, and when: it
depends neither on the lifetime and the capacity of the cache nor on what it holds. -/
theorem answers_new (derive : Derivation) (lifetime capacity : Nat) (checks : List Check) :
    List.Forall₂ (fun check answer => answer = true ↔ Fits derive check.password check.stored)
      checks (answers derive (.new lifetime capacity) checks) :=
  answers_of_isFaithful (HashCache.isFaithful_new derive lifetime capacity) checks

end BrokerAccess.Password
