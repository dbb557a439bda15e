import BrokerAccess.Password.Cache
import BrokerAccess.Password.Hash
import BrokerAccess.Proofs.Text.Fields

/-!
# Faithful hash caches

A cache is faithful when every hash in it is the derivation of the triple that its key
spells. A key spells one triple only, since salts have no colon; the password may have
some, but it comes first. What a faithful cache hands out is therefore what would be
derived, and neither expiry nor eviction can make it less faithful.
-/

namespace BrokerAccess.HashCache

/-- The fields of a key are those of its password, and then its salt and its count. -/
theorem fields_key (password : String) {salt : String} (iterations : Nat)
    (hs : ':' ∉ salt.toList) :
    fields ':' (key password salt iterations).toList =
      fields ':' password.toList ++ [salt.toList, Nat.toDigits 10 iterations] := by
  have hd : ':' ∉ Nat.toDigits 10 iterations := by
    intro h
    exact absurd (Nat.isDigit_of_mem_toDigits (by decide) (by decide) h) (by decide)
  have hk : (key password salt iterations).toList =
      password.toList ++ ':' :: (salt.toList ++ ':' :: Nat.toDigits 10 iterations) := by
    simp only [key, String.toList_append, List.append_assoc, ← Nat.toList_repr]
    rfl
  rw [hk, fields_append_cons, fields_append_cons, fields_eq_singleton hs, fields_eq_singleton hd]
  rfl

/-- A key spells one triple. -/
theorem key_injective {password password' salt salt' : String} {iterations iterations' : Nat}
    (hs : ':' ∉ salt.toList) (hs' : ':' ∉ salt'.toList)
    (h : key password salt iterations = key password' salt' iterations') :
    password = password' ∧ salt = salt' ∧ iterations = iterations' := by
  have hf := congrArg (fun k : String => fields ':' k.toList) h
  simp only [fields_key _ _ hs, fields_key _ _ hs'] at hf
  obtain ⟨hp, ht⟩ := List.append_inj' hf rfl
  simp only [List.cons.injEq, String.toList_inj, and_true] at ht
  have hn := congrArg (fun digits => Nat.ofDigitChars 10 digits 0) ht.2
  simp only [Nat.ofDigitChars_ten_toDigits] at hn
  exact ⟨String.toList_inj.mp (eq_of_fields_eq hp), ht.1, hn⟩

/-- Every hash is the derivation of the triple that its key spells. -/
def IsFaithful (derive : Derivation) (c : HashCache) : Prop :=
  ∀ e ∈ c.entries, ∀ password salt iterations, ':' ∉ salt.toList →
    e.key = key password salt iterations → derive password salt iterations = .ok e.hash

variable {derive : Derivation} {c : HashCache}

/-- An empty cache is faithful. -/
theorem isFaithful_new (derive : Derivation) (lifetime capacity : Nat) :
    (new lifetime capacity).IsFaithful derive := by
  intro e he
  exact absurd he List.not_mem_nil

/-- A cache with fewer hashes is as faithful. -/
theorem IsFaithful.mono {d : HashCache} (h : c.IsFaithful derive)
    (hsub : ∀ e ∈ d.entries, e ∈ c.entries) : d.IsFaithful derive :=
  fun e he => h e (hsub e he)

/-- A look-up leaves no hash behind that was not there. -/
theorem mem_get (c : HashCache) (now : Nat) (k : String) :
    ∀ e ∈ (c.get now k).2.entries, e ∈ c.entries := by
  intro e he
  unfold get at he
  split at he
  next => exact he
  next =>
    split at he
    next => exact he
    next => exact (List.mem_filter.mp he).1

/-- A hash that is found was derived for what the key spells. -/
theorem IsFaithful.of_get_eq_some (h : c.IsFaithful derive) {now : Nat}
    {password salt : String} {iterations : Nat} {hash : List UInt8} (hs : ':' ∉ salt.toList)
    (hg : (c.get now (key password salt iterations)).1 = some hash) :
    derive password salt iterations = .ok hash := by
  unfold get at hg
  split at hg
  next => exact absurd hg.symm (Option.some_ne_none hash)
  next e he =>
    split at hg
    next =>
      obtain rfl := Option.some.inj hg
      have hk : e.key = key password salt iterations := by
        simpa only [decide_eq_true_eq] using List.find?_some he
      exact h e (List.mem_of_find?_eq_some he) password salt iterations hs hk
    next => exact absurd hg.symm (Option.some_ne_none hash)

/-- An insertion adds one hash at most. -/
theorem mem_insert (c : HashCache) (now : Nat) (k : String) (hash : List UInt8) :
    ∀ e ∈ (c.insert now k hash).entries, e = ⟨k, hash, now⟩ ∨ e ∈ c.entries := by
  intro e he
  simp only [insert, List.mem_cons] at he
  rcases he with rfl | he
  · exact Or.inl rfl
  · right
    split at he
    next => exact (List.mem_filter.mp he).1
    next =>
      split at he
      next => exact (List.mem_filter.mp (List.mem_of_mem_take he)).1
      next => exact he

/-- Inserting a derived hash under its key keeps a cache faithful. -/
theorem IsFaithful.insert (h : c.IsFaithful derive) {now : Nat} {password salt : String}
    {iterations : Nat} {hash : List UInt8} (hs : ':' ∉ salt.toList)
    (hd : derive password salt iterations = .ok hash) :
    (c.insert now (key password salt iterations) hash).IsFaithful derive := by
  intro e he password' salt' iterations' hs' hk
  rcases mem_insert c now _ hash e he with rfl | he
  · obtain ⟨rfl, rfl, rfl⟩ := key_injective hs hs' hk
    exact hd
  · exact h e he password' salt' iterations' hs' hk

end BrokerAccess.HashCache
