import BrokerAccess.Password.Hash
import BrokerAccess.Proofs.Text.Base64

/-!
# Hashes as sums of chains

The hash of a password is the exclusive or of a chain of keyed digests, each the digest of the one
before, and the first that of the salt and the number of its block. Here the chain is given link by
link and its sum byte by byte; the derivation, which keeps only the last link and the sum so far, is
proved to come to the same for every number of links. A keyed digest is given by the bytes of its
key, whatever the length of the key is.
-/

namespace BrokerAccess

/-- A list filled up to a length is the list of its elements, and of the filling beyond its end. -/
theorem append_replicate_eq_map {α : Type} {list : List α} {length : Nat}
    (h : list.length ≤ length) (filling : α) :
    list ++ List.replicate (length - list.length) filling =
      (List.range length).map fun i => list.getD i filling := by
  apply List.ext_getElem
  · simp only [List.length_append, List.length_replicate, List.length_map, List.length_range]
    omega
  · intro i hi hi'
    rw [List.getElem_map, List.getElem_range, List.getD_eq_getElem?_getD]
    by_cases hin : i < list.length
    · rw [List.getElem_append_left hin, List.getElem?_eq_getElem hin, Option.getD_some]
    · rw [List.getElem_append_right (Nat.le_of_not_lt hin), List.getElem_replicate,
        List.getElem?_eq_none (Nat.le_of_not_lt hin), Option.getD_none]

/-! ## Digests -/

namespace Sha512

/-- A number is written with as many bytes as were asked for. -/
theorem length_bigEndian (count n : Nat) : (bigEndian count n).length = count := by
  induction count with
  | zero => rfl
  | succ count ih => exact congrArg Nat.succ ih

/-- A digest has sixty-four bytes. -/
theorem length_digest (message : List UInt8) : (digest message).length = 64 := by
  simp [digest, State.bytes, length_bigEndian]

end Sha512

/-! ## Keyed digests -/

namespace Hmac

/-- The key itself, or its digest if it is longer than a block. -/
def shortKey (key : List UInt8) : List UInt8 :=
  if 128 < key.length then Sha512.digest key else key

/-- The bytes of the key that fill a block, zero beyond its end, each under a mask. -/
def maskedKey (mask : UInt8) (key : List UInt8) : List UInt8 :=
  (List.range 128).map fun i => (shortKey key).getD i 0 ^^^ mask

/-- The digest of a message under a key: an outer digest of an inner one, each with the key under a
mask of its own. -/
def keyedDigest (key message : List UInt8) : List UInt8 :=
  Sha512.digest (maskedKey 0x5c key ++ Sha512.digest (maskedKey 0x36 key ++ message))

/-- A short key fits into a block. -/
theorem length_shortKey_le (key : List UInt8) : (shortKey key).length ≤ 128 := by
  unfold shortKey
  split
  · rw [Sha512.length_digest]
    decide
  next h => exact Nat.le_of_not_lt h

/-- A key as one block has the bytes of the key under any mask. -/
theorem map_keyBlock (mask : UInt8) (key : List UInt8) :
    (keyBlock key).map (· ^^^ mask) = maskedKey mask key := by
  have hblock : keyBlock key = shortKey key ++ List.replicate (128 - (shortKey key).length) 0 := rfl
  rw [hblock, append_replicate_eq_map (length_shortKey_le key), List.map_map]
  rfl

/-- The code of a message is its keyed digest. -/
theorem code_eq_keyedDigest (key message : List UInt8) :
    code key message = keyedDigest key message := by
  simp only [code, map_keyBlock, keyedDigest]

end Hmac

/-! ## Chains -/

namespace Pbkdf2

open Hmac (keyedDigest)

/-- The links of the chain of a password and a salt; the first is at zero. -/
def link (password salt : List UInt8) : Nat → List UInt8
  | 0 => keyedDigest password (salt ++ [0, 0, 0, 1])
  | i + 1 => keyedDigest password (link password salt i)

/-- The exclusive or of the bytes that the first links of a chain have at a position. -/
def byteSum (links : Nat → List UInt8) (count j : Nat) : UInt8 :=
  ((List.range count).map fun i => (links i).getD j 0).foldl (· ^^^ ·) 0

/-- The exclusive or of the first links of a chain. -/
def chainSum (links : Nat → List UInt8) (count : Nat) : List UInt8 :=
  (List.range 64).map (byteSum links count)

/-- A sum has as many bytes as a digest. -/
theorem length_chainSum (links : Nat → List UInt8) (count : Nat) :
    (chainSum links count).length = 64 := by
  rw [chainSum, List.length_map, List.length_range]

/-- A chain that is one link longer adds the byte of that link. -/
theorem byteSum_succ (links : Nat → List UInt8) (count j : Nat) :
    byteSum links (count + 1) j = byteSum links count j ^^^ (links count).getD j 0 := by
  rw [byteSum, List.range_succ, List.map_append, List.foldl_append]
  rfl

/-- A chain that is one link longer adds that link. -/
theorem chainSum_succ {links : Nat → List UInt8} {count : Nat} (h : (links count).length = 64) :
    chainSum links (count + 1) = xor (chainSum links count) (links count) := by
  apply List.ext_getElem
  · rw [xor, List.length_zipWith, length_chainSum, length_chainSum, h, Nat.min_self]
  · intro j hj hj'
    have hlink : j < (links count).length := by
      rw [length_chainSum] at hj
      omega
    simp only [chainSum, xor, List.getElem_zipWith, List.getElem_map, List.getElem_range,
      byteSum_succ, List.getD_eq_getElem?_getD, List.getElem?_eq_getElem hlink, Option.getD_some]

/-- The sum of one link is this link. -/
theorem chainSum_one {links : Nat → List UInt8} (h : (links 0).length = 64) :
    chainSum links 1 = links 0 := by
  have hzero (j : Nat) : byteSum links 0 j = 0 := rfl
  apply List.ext_getElem
  · rw [length_chainSum, h]
  · intro j hj hj'
    simp only [chainSum, List.getElem_map, List.getElem_range, byteSum_succ, hzero,
      List.getD_eq_getElem?_getD, List.getElem?_eq_getElem hj', Option.getD_some, UInt8.zero_xor]

/-- Entered with the last of some links and with their sum, the loop ends with the sum of as many
more links as it has rounds. -/
theorem extend_chainSum {prf : List UInt8 → List UInt8} {links : Nat → List UInt8}
    (hlinks : ∀ i, links (i + 1) = prf (links i)) (hlength : ∀ i, (links i).length = 64)
    (last more : Nat) :
    extend prf (links last) (chainSum links (last + 1)) more =
      chainSum links (last + 1 + more) := by
  induction more generalizing last with
  | zero => rfl
  | succ more ih =>
    calc extend prf (links last) (chainSum links (last + 1)) (more + 1)
        = extend prf (links (last + 1)) (xor (chainSum links (last + 1)) (links (last + 1))) more := by
          rw [extend, hlinks]
      _ = extend prf (links (last + 1)) (chainSum links (last + 1 + 1)) more := by
          rw [← chainSum_succ (hlength (last + 1))]
      _ = chainSum links (last + 1 + 1 + more) := ih (last + 1)
      _ = chainSum links (last + 1 + (more + 1)) := by
          rw [Nat.add_assoc (last + 1), Nat.add_comm 1 more]

/-- Every link is a digest. -/
theorem length_link (password salt : List UInt8) (i : Nat) :
    (link password salt i).length = 64 := by
  cases i with
  | zero => exact Sha512.length_digest _
  | succ i => exact Sha512.length_digest _

/-- With iterations, what is derived is the sum of as many links. -/
theorem derive_eq_chainSum (password salt : List UInt8) {iterations : Nat} (h : 0 < iterations) :
    derive password salt iterations = chainSum (link password salt) iterations := by
  have hcode : Hmac.code password = keyedDigest password :=
    funext (Hmac.code_eq_keyedDigest password)
  have hfirst : chainSum (link password salt) 1 = link password salt 0 :=
    chainSum_one (length_link password salt 0)
  have hlinks (i : Nat) : link password salt (i + 1) = keyedDigest password (link password salt i) :=
    rfl
  have hloop := extend_chainSum hlinks (length_link password salt) 0 (iterations - 1)
  rw [Nat.zero_add, hfirst, Nat.add_sub_cancel' h] at hloop
  rw [← hloop, derive, firstLink, hcode]
  rfl

end Pbkdf2

/-! ## Hashes -/

namespace Password

/-- A hash is refused for the password unless that is base64, then for the salt unless that is, then
for the iteration count if that is zero, and otherwise it has sixty-four bytes and is the sum of a
chain of keyed digests, as many as there are iterations, over the bytes of both. -/
theorem hash_eq_chainSum (password salt : String) (iterations : Nat) :
    (hash password salt iterations = .error .badPassword ↔
      ∀ bytes, password ≠ Base64.write bytes) ∧
    (hash password salt iterations = .error .badSalt ↔
      (∃ bytes, password = Base64.write bytes) ∧ ∀ bytes, salt ≠ Base64.write bytes) ∧
    (hash password salt iterations = .error .noIterations ↔
      (∃ bytes, password = Base64.write bytes) ∧ (∃ bytes, salt = Base64.write bytes) ∧
        iterations = 0) ∧
    (∀ key, hash password salt iterations = .ok key ↔
      ∃ passwordBytes saltBytes, password = Base64.write passwordBytes ∧
        salt = Base64.write saltBytes ∧ 0 < iterations ∧ key.length = 64 ∧
        key = Pbkdf2.chainSum (Pbkdf2.link passwordBytes saltBytes) iterations) := by
  simp only [ne_eq, ← Base64.read?_eq_some_iff]
  cases hpassword : Base64.read? password with
  | none => simp [hash, hpassword]
  | some passwordBytes =>
    cases hsalt : Base64.read? salt with
    | none => simp [hash, hpassword, hsalt]
    | some saltBytes =>
      by_cases hzero : iterations = 0
      · simp [hash, hpassword, hsalt, hzero]
      · have hpos : 0 < iterations := Nat.pos_of_ne_zero hzero
        have hsum : hash password salt iterations =
            .ok (Pbkdf2.chainSum (Pbkdf2.link passwordBytes saltBytes) iterations) := by
          simp only [hash, hpassword, hsalt, if_neg hzero, Pbkdf2.derive_eq_chainSum _ _ hpos]
        rw [hsum]
        refine ⟨by simp, by simp, by simp [hzero], ?_⟩
        intro key
        constructor
        · intro h
          obtain rfl := Except.ok.inj h
          exact ⟨_, _, rfl, rfl, hpos, Pbkdf2.length_chainSum _ _, rfl⟩
        · rintro ⟨_, _, ⟨rfl⟩, ⟨rfl⟩, _, _, rfl⟩
          rfl

/-- A known hash: that of `password` under the salt `salt` with one iteration. -/
example : (hash "cGFzc3dvcmQ=" "c2FsdA==" 1).toOption.map Base64.write =
    some ("hn9wzxreAs/zdSWZo6U9xK80x6ZpgVrl1RNVThyM8lLALUcKKFoFAbrZmb/pQ8CP" ++
      "BQI119aLHaVeY/c7YKV/zg==") := by
  decide +kernel

end Password

end BrokerAccess
