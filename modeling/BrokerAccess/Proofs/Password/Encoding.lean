import BrokerAccess.Proofs.Password.Derivations
import BrokerAccess.Proofs.Text.Decimal

/-!
# Passwords in their stored form

A stored password that is written here is taken apart here: neither base64 nor a number has a
colon, every byte sequence is read back from its base64, and every iteration count from its
digits. So a password fits the form in which it was stored, in whatever state a verifier is, and
another one fits exactly when the same hash is derived from it.
-/

namespace BrokerAccess.Password

/-- A salt, an iteration count and a hash as a stored password. -/
def storedForm (salt : List UInt8) (iterations : Nat) (hash : List UInt8) : String :=
  Base64.write salt ++ ":" ++ String.ofList (Decimal.digits iterations) ++ ":" ++ Base64.write hash

/-- From written passwords and salts a hash is derived, unless without iterations. -/
theorem hash_write (password salt : List UInt8) (iterations : Nat) :
    hash (Base64.write password) (Base64.write salt) iterations =
      if iterations = 0 then .error .noIterations
      else .ok (Pbkdf2.derive password salt iterations) := by
  simp only [hash, Base64.read?_write]

/-- A password is stored as its salt, its iteration count and the hash that is derived. -/
theorem encode_eq_ok (password salt : List UInt8) {iterations : Nat} (h : 0 < iterations) :
    encode password salt iterations =
      .ok (storedForm salt iterations (Pbkdf2.derive password salt iterations)) := by
  rw [encode, hash_write, if_neg h.ne']
  rfl

/-- Without iterations no password is stored. -/
theorem encode_zero (password salt : List UInt8) :
    encode password salt 0 = .error .noIterations := by
  rw [encode, hash_write, if_pos rfl]
  rfl

/-- The fields of a stored form are the three that it was made of. -/
theorem fields_storedForm (salt : List UInt8) (iterations : Nat) (hash : List UInt8) :
    fields ':' (storedForm salt iterations hash).toList =
      [Base64.encode salt, Decimal.digits iterations, Base64.encode hash] := by
  have hsalt : ':' ∉ Base64.encode salt := Base64.notMem_encode (by decide) (by decide) salt
  have hhash : ':' ∉ Base64.encode hash := Base64.notMem_encode (by decide) (by decide) hash
  have hdigits : ':' ∉ Decimal.digits iterations := fun hmem =>
    absurd (Decimal.isDigit_of_mem_digits hmem) (by decide)
  have hform : (storedForm salt iterations hash).toList =
      Base64.encode salt ++ ':' :: (Decimal.digits iterations ++ ':' :: Base64.encode hash) := by
    simp only [storedForm, Base64.write, String.toList_append, String.toList_ofList,
      List.append_assoc]
    rfl
  rw [hform, fields_append_cons, fields_append_cons, fields_eq_singleton hsalt,
    fields_eq_singleton hdigits, fields_eq_singleton hhash]
  rfl

/-- A stored form is one line. -/
theorem newline_notMem_storedForm (salt : List UInt8) (iterations : Nat) (hash : List UInt8) :
    '\n' ∉ (storedForm salt iterations hash).toList := by
  have hwritten (bytes : List UInt8) : '\n' ∉ Base64.encode bytes :=
    Base64.notMem_encode (by decide) (by decide) bytes
  have hdigits : '\n' ∉ Decimal.digits iterations := fun hmem =>
    absurd (Decimal.isDigit_of_mem_digits hmem) (by decide)
  simp [storedForm, Base64.write, hwritten, hdigits]

/-- A stored form is not empty. -/
theorem storedForm_ne_empty (salt : List UInt8) (iterations : Nat) (hash : List UInt8) :
    storedForm salt iterations hash ≠ "" := by
  intro hempty
  have hlength : (fields ':' (storedForm salt iterations hash).toList).length = 3 :=
    congrArg List.length (fields_storedForm salt iterations hash)
  rw [hempty] at hlength
  exact absurd hlength (by decide)

/-- A stored form is taken apart into what it was made of. -/
theorem parse?_storedForm (salt hash : List UInt8) {iterations : Nat}
    (h : iterations < iterationBound) :
    StoredPassword.parse? (storedForm salt iterations hash) =
      some ⟨Base64.write salt, iterations, hash⟩ :=
  (parse?_eq_some_iff _ _).mpr ⟨_, _, _, fields_storedForm salt iterations hash, rfl,
    Decimal.readBelow?_digits h, rfl⟩

/-- A presented password fits a stored form when the stored hash is derived from it. -/
theorem fits_storedForm_iff (presented salt hash : List UInt8) {iterations : Nat}
    (hpos : 0 < iterations) (hbound : iterations < iterationBound) :
    Fits Password.hash (Base64.write presented) (storedForm salt iterations hash) ↔
      Pbkdf2.derive presented salt iterations = hash := by
  rw [fits_iff_parse?, parse?_storedForm salt hash hbound]
  simp only [Option.some.injEq, exists_eq_left', hash_write, if_neg hpos.ne', Except.ok.injEq]

namespace VerifierUse

/-- An event keeps the cache of a verifier faithful. -/
theorem step_isFaithful {derive : Derivation} {u : VerifierUse} (h : u.cache.IsFaithful derive)
    (event : VerifierEvent) : (u.step derive event).cache.IsFaithful derive := by
  cases event with
  | check password stored => exact verify_cache_isFaithful h u.now password stored
  | elapse time => exact h

/-- A verifier in use has a faithful cache. -/
theorem opened_run_isFaithful (derive : Derivation) (lifetime capacity start : Nat)
    (events : List VerifierEvent) :
    ((opened lifetime capacity start).run derive events).cache.IsFaithful derive := by
  induction events using List.reverseRecOn with
  | nil => exact HashCache.isFaithful_new derive lifetime capacity
  | append_singleton events event ih =>
    rw [run, List.foldl_append]
    exact step_isFaithful ih event

/-- Every password can be stored, under every salt and every iteration count but zero. However a
verifier was used before, and whatever its lifetime and capacity, a presented password passes the
check against what was stored exactly when the same hash is derived from it; so the password itself
always passes. With an iteration count of zero nothing is stored. -/
theorem verify_encode (password salt : List UInt8) {iterations : Nat} (hpos : 0 < iterations)
    (hbound : iterations < iterationBound) :
    (∃ stored, encode password salt iterations = .ok stored ∧
      ∀ lifetime capacity start events,
        let u := (opened lifetime capacity start).run Password.hash events
        let passes := fun presented =>
          (verify Password.hash u.now (Base64.write presented) stored u.cache).matched
        (∀ presented, passes presented = true ↔
          Pbkdf2.derive presented salt iterations = Pbkdf2.derive password salt iterations) ∧
        passes password = true) ∧
    encode password salt 0 = .error .noIterations := by
  refine ⟨⟨_, encode_eq_ok password salt hpos, ?_⟩, encode_zero password salt⟩
  intro lifetime capacity start events u passes
  have hpasses (presented : List UInt8) : passes presented = true ↔
      Pbkdf2.derive presented salt iterations = Pbkdf2.derive password salt iterations := by
    have hfaithful := opened_run_isFaithful Password.hash lifetime capacity start events
    rw [← fits_storedForm_iff presented salt _ hpos hbound]
    exact verify_matched_iff hfaithful u.now (Base64.write presented) _
  exact ⟨hpasses, (hpasses password).mpr rfl⟩

/-- The empty password under the empty salt passes, and so does a zero byte, which a short key is
filled with anyway, but no other byte. -/
theorem verify_encode_empty :
    let u := (opened 30 1 0).run Password.hash [.check "AA==" ":1:AA==", .elapse 5]
    0 < 1 ∧ 1 < iterationBound ∧ ∃ stored, encode [] [] 1 = .ok stored ∧
      (verify Password.hash u.now (Base64.write []) stored u.cache).matched = true ∧
      (verify Password.hash u.now (Base64.write [0]) stored u.cache).matched = true ∧
      (verify Password.hash u.now (Base64.write [1]) stored u.cache).matched = false := by
  intro u
  have hbound : 1 < iterationBound := by decide
  obtain ⟨⟨stored, hstored, hverify⟩, _⟩ := verify_encode [] [] Nat.one_pos hbound
  obtain ⟨hpasses, hself⟩ := hverify 30 1 0 [.check "AA==" ":1:AA==", .elapse 5]
  have hzero : Pbkdf2.derive [0] [] 1 = Pbkdf2.derive [] [] 1 := by decide +kernel
  have hone : Pbkdf2.derive [1] [] 1 ≠ Pbkdf2.derive [] [] 1 := by decide +kernel
  refine ⟨Nat.one_pos, hbound, stored, hstored, hself, (hpasses [0]).mpr hzero, ?_⟩
  exact Bool.eq_false_iff.mpr (mt (hpasses [1]).mp hone)

end VerifierUse

end BrokerAccess.Password
