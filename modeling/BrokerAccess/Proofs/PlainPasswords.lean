import BrokerAccess.Proofs.Lookups
import BrokerAccess.Proofs.Text.Utf8

/-!
# Plain passwords

A presented password is bytes and a plain stored one is text, and the two are compared after a
lossy reading. That reading takes many byte sequences for one text, but only where the text has
U+FFFD. So a stored password without that character is matched by its own bytes and by nothing
else, however the bytes go wrong: cut off, overlong, surrogates or out of range.
-/

namespace BrokerAccess

/-- A plain password without U+FFFD is accepted for its own bytes alone. -/
theorem PasswordScheme.accepts_plain_iff {stored : String} (h : '\uFFFD' ∉ stored.toList)
    (password : List UInt8) :
    PasswordScheme.plain.Accepts password stored ↔ password = Utf8.bytes stored :=
  Utf8.decodeLossy_eq_iff h password

namespace Desk

/-- However a directory for plain passwords was used before, a user of the last record that it was
given, whose stored password has no U+FFFD, has roles exactly for the bytes of that password, if a
role of the record has an id at all, and they are the user's own. Bytes that are not UTF-8 match no
such user. -/
theorem rolesOf_plain_iff (start : Nat) {events : List DeskEvent} {c : Credentials}
    (hlast : lastRecord events = some c) {user : String} {u : User} {stored : String}
    (huser : lastOf? User.name c.userList user = some u) (hstored : u.password = some stored)
    (hplain : '\uFFFD' ∉ stored.toList) (now : Nat) (password : List UInt8) :
    let found := (((opened .plain start).run events).directory.rolesOf now user password).roles
    (∀ granted, found = some granted ↔
      HasNamed Role.id c.roleList ∧ password = Utf8.bytes stored ∧ u.roles.getD [] = granted) ∧
    (Utf8.decode? password = none → found = none) := by
  intro found
  obtain ⟨hfollows, hscheme⟩ := follows_lastRecord .plain start events
  have hfound (granted : List String) : found = some granted ↔
      HasNamed Role.id c.roleList ∧ password = Utf8.bytes stored ∧ u.roles.getD [] = granted := by
    have hroles := hfollows.rolesOf_eq_some_iff now user password granted
    rw [hscheme, hlast] at hroles
    rw [hroles, ← PasswordScheme.accepts_plain_iff hplain]
    constructor
    · rintro ⟨_, hc, hentitles⟩
      obtain rfl := Option.some.inj hc
      obtain ⟨u', stored', hu', hstored', haccepts, hgranted⟩ := hentitles.entry
      obtain rfl : u = u' := Option.some.inj (huser.symm.trans hu')
      obtain rfl : stored = stored' := Option.some.inj (hstored.symm.trans hstored')
      exact ⟨hentitles.roles, haccepts, hgranted⟩
    · rintro ⟨hnamed, haccepts, hgranted⟩
      have hmem : u ∈ c.userList := List.mem_reverse.mp (List.mem_of_find?_eq_some huser)
      have hbears : u.name = some user := by simpa using List.find?_some huser
      exact ⟨c, rfl, ⟨u, hmem, user, hbears⟩, hnamed,
        u, stored, huser, hstored, haccepts, hgranted⟩
  refine ⟨hfound, ?_⟩
  intro hbroken
  rw [Option.eq_none_iff_forall_ne_some]
  intro granted hgranted
  exact Utf8.ne_bytes_of_decode? hbroken stored ((hfound granted).mp hgranted).2.1

/-- A clerk whose password takes one, two, three and four bytes a character has the role for the
bytes of the password, and for none that break off or are overlong. -/
theorem rolesOf_plain_iff_clerk :
    let stored := "hé€𝄞"
    let desk := (opened .plain 0).run [.update (soleClerk stored), .elapse 5]
    let found := fun password => (desk.directory.rolesOf 5 "eve" password).roles
    lastRecord [.update (soleClerk stored), .elapse 5] = some (soleClerk stored) ∧
      '\uFFFD' ∉ stored.toList ∧
      found [0x68, 0xC3, 0xA9, 0xE2, 0x82, 0xAC, 0xF0, 0x9D, 0x84, 0x9E] = some ["clerk"] ∧
      found [0x68, 0xC3, 0xA9, 0xE2, 0x82, 0xAC, 0xF0, 0x9D, 0x84] = none ∧
      found [0xC1, 0xA8, 0xC3, 0xA9, 0xE2, 0x82, 0xAC, 0xF0, 0x9D, 0x84, 0x9E] = none := by
  intro stored desk found
  have hlast : lastRecord [.update (soleClerk stored), .elapse 5] = some (soleClerk stored) := rfl
  have hplain : '\uFFFD' ∉ stored.toList := by decide
  have huser : lastOf? User.name (soleClerk stored).userList "eve" =
      some { name := some "eve", password := some stored, roles := some ["clerk"] } := rfl
  have hnamed : HasNamed Role.id (soleClerk stored).roleList :=
    ⟨_, List.mem_cons_self, "clerk", rfl⟩
  have hfound := rolesOf_plain_iff 0 hlast huser rfl hplain 5
  refine ⟨hlast, hplain, ?_, ?_, ?_⟩
  · exact ((hfound _).1 ["clerk"]).mpr ⟨hnamed, by decide, rfl⟩
  · exact (hfound _).2 (by decide +kernel)
  · exact (hfound _).2 (by decide +kernel)

/-- A record whose only role has no id. -/
def namelessRole : Credentials where
  users := some [{ name := some "eve", password := some "hertz", roles := some ["clerk"] }]
  roles := some [{ permissions := some [{ topic := some "desk/#" }] }]

/-- A role that has no id is none that a directory knows: with it alone in the record, a user has no
roles for the right password either. -/
theorem rolesOf_plain_namelessRole :
    let desk := (opened .plain 0).run [.update namelessRole]
    let found := (desk.directory.rolesOf 0 "eve" (Utf8.bytes "hertz")).roles
    namelessRole.roleList ≠ [] ∧ '\uFFFD' ∉ "hertz".toList ∧
      lastOf? User.name namelessRole.userList "eve" =
        some { name := some "eve", password := some "hertz", roles := some ["clerk"] } ∧
      ¬(found = some ["clerk"] ↔ Utf8.bytes "hertz" = Utf8.bytes "hertz") := by
  have hfound : (((opened .plain 0).run [.update namelessRole]).directory.rolesOf 0 "eve"
      (Utf8.bytes "hertz")).roles = none := by
    decide +kernel
  refine ⟨List.cons_ne_nil _ _, by decide, rfl, ?_⟩
  rw [hfound]
  exact fun h => Option.some_ne_none _ (h.mpr rfl).symm

end Desk

end BrokerAccess
