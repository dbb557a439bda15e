import BrokerAccess.PasswordTool
import BrokerAccess.Proofs.Password.Encoding
import BrokerAccess.Proofs.Record.Password
import BrokerAccess.Proofs.Text.Utf8

/-!
# Generated passwords in records

The generator prints a stored password as the last line of its output, and on every command line
that it accepts. A record that is otherwise in order takes that line as a user's password, and the
user is known by the bytes of the password from then on, with one exception: the command line may
give an empty salt, and then the line starts with a colon and the record is refused for it, though
a look-up would know the user.
-/

namespace BrokerAccess

namespace Password

/-- A stored form looks like a hashed password unless its salt is empty. -/
theorem looksHashed_storedForm (salt : List UInt8) (iterations : Nat) (hash : List UInt8) :
    looksHashed (storedForm salt iterations hash) = false ↔ salt = [] := by
  rw [looksHashed, fields_storedForm]
  have hdigits : (Decimal.digits iterations).isEmpty = false :=
    List.isEmpty_eq_false_iff.mpr Nat.toDigits_ne_nil
  dsimp only
  rw [hdigits, Bool.not_false, Bool.and_true, Bool.not_eq_false', List.isEmpty_iff,
    Base64.encode_eq_nil_iff]

end Password

namespace PasswordTool

open CommandLine (Given)

/-- A line is the last one of a text. -/
structure IsLastLine (line text : String) : Prop where
  /-- It is one line. -/
  single : '\n' ∉ line.toList
  /-- The text is that line alone, or other lines and that line. -/
  ends : ∃ heading, text = heading ++ line ++ "\n" ∧
    (heading = "" ∨ ∃ more, heading = more ++ "\n")

/-- An iteration count that a command line gives is one under which a password can be stored. -/
theorem limits_of_iterations? {text : String} {n : Nat} (h : iterations? text = some n) :
    0 < n ∧ n < iterationBound := by
  obtain ⟨hread, hpos⟩ := Option.filter_eq_some_iff.mp h
  exact ⟨of_decide_eq_true hpos, Decimal.lt_of_readBelow? hread⟩

/-- The iteration count of a request is one under which a password can be stored. -/
theorem limits_of_request? {given : Given} {request : Request}
    (h : request? given = some request) :
    0 < request.iterations ∧ request.iterations < iterationBound := by
  simp only [request?, Option.bind_eq_bind, Option.bind_eq_some_iff, Option.some.injEq] at h
  obtain ⟨password, _, iterations, hiterations, rfl⟩ := h
  cases hgiven : given.lookup "iterations" with
  | none =>
    rw [hgiven] at hiterations
    obtain rfl := Option.some.inj hiterations
    have hdefault : 0 < 100 ∧ 100 < iterationBound := by decide
    exact hdefault
  | some text =>
    rw [hgiven] at hiterations
    exact limits_of_iterations? hiterations

/-- The iteration count of an accepted command line is one under which a password can be stored. -/
theorem limits_of_read {arguments : List String} {request : Request}
    (h : read arguments = .ok request) :
    0 < request.iterations ∧ request.iterations < iterationBound := by
  unfold read at h
  split at h
  next => cases h
  next given _ =>
    split at h
    next => cases h
    next request' hrequest =>
      obtain rfl := Except.ok.inj h
      exact limits_of_request? hrequest

/-- A drawn salt is not empty. -/
theorem drawnSalt_ne_empty {numbers : List Nat} (h : saltLength ≤ numbers.length) :
    drawnSalt numbers ≠ "" := by
  intro hempty
  have hlength := congrArg (fun s : String => s.toList.length) hempty
  simp only [drawnSalt, String.toList_ofList, List.length_map, List.length_take,
    String.toList_empty, List.length_nil, Nat.min_eq_left h] at hlength
  exact absurd hlength (by decide)

/-- The last line that is printed is the stored password. -/
theorem exists_output {request : Request} (hpos : 0 < request.iterations) (drawn : String) :
    ∃ text, output request drawn = .ok text ∧
      IsLastLine (Password.storedForm (Utf8.bytes (request.salt.getD drawn)) request.iterations
        (Pbkdf2.derive (Utf8.bytes request.password) (Utf8.bytes (request.salt.getD drawn))
          request.iterations)) text := by
  unfold output
  dsimp only
  rw [Password.encode_eq_ok _ _ hpos]
  by_cases hquiet : request.quiet = true
  · refine ⟨_, if_pos hquiet, Password.newline_notMem_storedForm _ _ _, "", ?_, Or.inl rfl⟩
    rw [String.empty_append]
  · refine ⟨_, if_neg hquiet, Password.newline_notMem_storedForm _ _ _, _, rfl, Or.inr ?_⟩
    have hlast : "\n\nUse this string as the password of a user in credentials.toml:\n" =
        "\n\nUse this string as the password of a user in credentials.toml:" ++ "\n" := by decide
    rw [hlast, ← String.append_assoc]
    exact ⟨_, rfl⟩

/-- On every command line that is accepted a stored password is printed as the last line. Put into a
record without defects as the password of a user, it gives one without defects if the salt is not
empty, which a drawn one never is; with an empty salt the form of this password is the only defect.
Whatever the salt, a directory in any state whose last record this is gives the user its roles for
the bytes of the password. -/
theorem defects_withPassword_printed {arguments : List String} {request : Request}
    (hread : read arguments = .ok request) {numbers : List Nat}
    (hnumbers : saltLength ≤ numbers.length) {c : Credentials} (hc : c.defects .hashed = [])
    {u : User} {user : String} (hu : u ∈ c.userList) (hname : u.name = some user) :
    ∃ text stored, output request (drawnSalt numbers) = .ok text ∧ IsLastLine stored text ∧
      (c.withPassword user stored).defects .hashed =
        (if request.salt = some "" then [.badPassword user] else []) ∧
      ∀ start events now, lastRecord events = some (c.withPassword user stored) →
        (((Desk.opened .hashed start).run events).directory.rolesOf now user
          (Utf8.bytes request.password)).roles = u.roles := by
  obtain ⟨hpos, hbound⟩ := limits_of_read hread
  have hwell := Credentials.isWellFormed_of_defects hc
  obtain ⟨text, houtput, hline⟩ := exists_output hpos (drawnSalt numbers)
  refine ⟨text, _, houtput, hline, ?_, ?_⟩
  · have hsaltless : Utf8.bytes (request.salt.getD (drawnSalt numbers)) = [] ↔
        request.salt = some "" := by
      rw [Utf8.bytes_eq_nil_iff]
      cases request.salt with
      | none => simp [drawnSalt_ne_empty hnumbers]
      | some salt => simp
    rw [hwell.defects_withPassword hu hname (Password.storedForm_ne_empty _ _ _)]
    simp only [Password.looksHashed_storedForm, hsaltless, true_and]
  · intro start events now hlast
    obtain ⟨hfollows, hscheme⟩ := Desk.follows_lastRecord .hashed start events
    have haccepts := (Password.fits_storedForm_iff (Utf8.bytes request.password)
      (Utf8.bytes (request.salt.getD (drawnSalt numbers))) _ hpos hbound).mpr rfl
    obtain ⟨granted, hgranted, _⟩ := (hwell.userComplete u hu).roles
    have hentitles := hwell.entitles_withPassword hu hname haccepts
    rw [hgranted, Option.getD_some] at hentitles
    rw [hgranted, hfollows.rolesOf_eq_some_iff, hscheme]
    exact ⟨_, hlast, hentitles⟩

/-- With the salt `salt` and the iteration count that stands for none given, the printed password
serves the only user of a record. -/
theorem defects_withPassword_printed_salted :
    let record := Desk.soleClerk "c2FsdA==:1:AAAA"
    record.defects .hashed = [] ∧ ∃ request text stored,
      read ["-p", "hertz", "--salt=salt"] = .ok request ∧
      output request (drawnSalt (List.range saltLength)) = .ok text ∧ IsLastLine stored text ∧
      (record.withPassword "eve" stored).defects .hashed = [] ∧
      (((Desk.opened .hashed 0).run
        [.update (record.withPassword "eve" stored)]).directory.rolesOf 0 "eve"
        (Utf8.bytes "hertz")).roles = some ["clerk"] := by
  intro record
  have hc : record.defects .hashed = [] := by decide
  have hread : read ["-p", "hertz", "--salt=salt"] =
      .ok ⟨"hertz", some "salt", 100, false⟩ := by
    rfl
  have hnumbers : saltLength ≤ (List.range saltLength).length := by decide
  obtain ⟨text, stored, houtput, hline, hdefects, hroles⟩ :=
    defects_withPassword_printed hread hnumbers hc (List.mem_singleton_self _) rfl
  refine ⟨hc, _, text, stored, hread, houtput, hline, ?_, hroles 0 _ 0 rfl⟩
  rw [hdefects]
  exact if_neg (by decide)

/-- The command line may give an empty salt, and what is printed then makes a record that was in
order one that is refused. -/
theorem defects_withPassword_saltless :
    let record := Desk.soleClerk "c2FsdA==:1:AAAA"
    let stored :=
      ":1:GlRfZ2nZs/5wWdxafYSolXx/XEd0JdTamqDSsOE2htBLWhC89NPTEbvCDumchXuFxi1KobAFtpMrGK/AupyWPA=="
    read ["-p", "hertz", "-s", "", "-i", "1", "-q"] = .ok ⟨"hertz", some "", 1, true⟩ ∧
      output ⟨"hertz", some "", 1, true⟩ "" = .ok (stored ++ "\n") ∧
      record.defects .hashed = [] ∧
      (record.withPassword "eve" stored).defects .hashed = [.badPassword "eve"] := by
  intro record stored
  have houtput : (output ⟨"hertz", some "", 1, true⟩ "").toOption = some (stored ++ "\n") := by
    decide +kernel
  refine ⟨by rfl, ?_, by decide, by decide +kernel⟩
  cases hresult : output ⟨"hertz", some "", 1, true⟩ "" with
  | error reason =>
    rw [hresult] at houtput
    cases houtput
  | ok text =>
    rw [hresult] at houtput
    rw [Option.some.inj houtput]

end PasswordTool

end BrokerAccess
