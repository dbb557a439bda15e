import BrokerAccess.Proofs.Record.File
import BrokerAccess.Proofs.Toml.Edits
import BrokerAccess.Settings.Load

/-!
# The settings in effect

Settings are loaded from the one location that is in use, and whatever stands there, settings come
of it. What the file says is kept but for an interval below one second and a password scheme that
means nothing, which give way to their defaults; the settings in effect are those that the file
gives. A file that cannot be read gives the defaults, and hides the legacy one all the same.
-/

namespace BrokerAccess

open Files (Entry Path Tree)

/-- What stands at the location in use: at the current one, or at the legacy one if nothing stands
at the current one. -/
def Placement.found (p : Placement) (t : Tree) : Option Entry :=
  (t.entry? p.current).or (t.entry? p.legacy)

/-- The location to read leads to what stands at the location in use. -/
theorem Placement.entry?_path (p : Placement) (t : Tree) : t.entry? (p.path t) = p.found t := by
  unfold path isLegacy Tree.has found
  cases hcurrent : t.entry? p.current with
  | none =>
    cases hlegacy : t.entry? p.legacy with
    | none => simpa using hcurrent
    | some entry => simpa using hlegacy
  | some entry => simpa using hcurrent

namespace Settings

/-- The settings that an entry holds, if it is a file and its bytes are a text that writes settings
down. -/
def ofEntry? : Entry → Option Settings
  | .file content _ => (Utf8.decode? content).bind read?
  | .folder _ => none

/-- The settings that the file in use below a home folder holds. -/
def written? (home : Path) (t : Tree) : Option Settings :=
  ((Placement.ofSettings home).found t).bind ofEntry?

/-- A file holds the settings that its entry holds. -/
theorem toOption_ofFile (t : Tree) (path : Path) :
    (ofFile t path).toOption = (t.entry? path).bind ofEntry? := by
  apply Option.ext
  intro s
  have hsome : (ofFile t path).toOption = some s ↔ ofFile t path = .ok s := by
    cases ofFile t path <;> simp [Except.toOption]
  rw [hsome, ofFile, readDocument_eq_ok_iff, Option.bind_eq_some_iff]
  constructor
  · rintro ⟨content, time, text, hentry, htext, hread⟩
    exact ⟨.file content time, hentry, Option.bind_eq_some_iff.mpr ⟨text, htext, hread⟩⟩
  · rintro ⟨entry, hentry, hread⟩
    cases entry with
    | folder time => cases hread
    | file content time =>
      obtain ⟨text, htext, hread⟩ := Option.bind_eq_some_iff.mp hread
      exact ⟨content, time, text, hentry, htext, hread⟩

/-- The settings that are loaded are what the location in use holds, repaired, and the defaults if
it holds none. -/
theorem load_fst (home : Path) (t : Tree) : (load home t).1 =
    ((written? home t).map repaired).getD {} := by
  rw [written?, ← Placement.entry?_path, ← toOption_ofFile]
  unfold load
  dsimp only
  split
  next hmissing =>
    have hentry : t.entry? ((Placement.ofSettings home).path t) = none := by
      simpa [Tree.has] using hmissing
    rw [toOption_ofFile, hentry]
    rfl
  · cases ofFile t ((Placement.ofSettings home).path t) <;> rfl

/-- The interval in effect is the written one, unless that is below a second. -/
theorem reloadInterval_eq (s : Settings) :
    (s.reloadInterval : Int) = if s.interval < 1 then 60 else s.interval := by
  rw [reloadInterval]
  split
  · rfl
  · omega

/-- The interval in effect is at least a second. -/
theorem one_le_reloadInterval (s : Settings) : 1 ≤ s.reloadInterval := by
  have hinterval := s.reloadInterval_eq
  split at hinterval <;> omega

/-- Repaired settings have an interval that can be used and a password scheme. -/
theorem repaired_inRange (s : Settings) :
    1 ≤ s.repaired.interval ∧ s.repaired.scheme.isSome = true :=
  ⟨Int.ofNat_le.mpr s.one_le_reloadInterval, rfl⟩

/-- Repair replaces an interval below one second by a minute and a password scheme that means
nothing by the one that hashes, and changes nothing else. -/
theorem repaired_eq (s : Settings) : s.repaired =
    { s with
      interval := if s.interval < 1 then 60 else s.interval
      scheme := some (s.scheme.getD .hashed) } := by
  rw [repaired, reloadInterval_eq]
  rfl

/-- Repair leaves the settings in effect as they are. -/
theorem repaired_effective (s : Settings) :
    s.repaired.reloadInterval = s.reloadInterval ∧
      s.repaired.passwordScheme = s.passwordScheme := by
  refine ⟨?_, rfl⟩
  have hinterval : s.repaired.interval = s.reloadInterval := rfl
  have hrange := s.one_le_reloadInterval
  rw [reloadInterval, hinterval, if_neg (by omega), Int.toNat_natCast]

/-- Whatever is written for the password scheme, a text that means nothing and a value that is no
text included, the other settings stay as they are written. Only a table in its place that claims to
be a date and is none has the settings refused. -/
theorem ofEntries?_setEntry {entries : List (String × Toml.Value)} {s : Settings}
    (hread : ofEntries? entries = some s) (v : Toml.Value) :
    ofEntries? (Toml.setEntry "password-type" v entries) =
      if v.momentsSound then some { s with scheme := v.text?.bind PasswordScheme.ofName? }
      else none := by
  have hset := Toml.lookup_setEntry "password-type" v entries
  have hscheme : (Toml.setEntry "password-type" v entries).lookup "password-type" = some v := by
    rw [hset, if_pos rfl]
  have hsame {name : String} (h : name ≠ "password-type") :
      (Toml.setEntry "password-type" v entries).lookup name = entries.lookup name := by
    rw [hset, if_neg h]
  simp only [ofEntries?, Option.bind_eq_bind, Option.bind_eq_some_iff] at hread
  obtain ⟨interval, hinterval, listeners, hlisteners, scheme, _, deferToNext, hdefer, watchEvents,
    hwatch, hs⟩ := hread
  obtain rfl := Option.some.inj hs
  rw [ofEntries?, Toml.strict_congr (hsame (by decide)), Toml.strict?_congr (hsame (by decide)),
    Toml.lenient_of_lookup hscheme, Toml.strict_congr (hsame (by decide)),
    Toml.strict_congr (hsame (by decide)), hinterval, hlisteners, hdefer, hwatch]
  cases v.momentsSound <;> rfl

/-- As long as something stands at the current location, loading depends on nothing else. -/
theorem load_congr {home : Path} {t t' : Tree}
    (hcurrent : (t.entry? (Placement.ofSettings home).current).isSome = true)
    (hsame : t'.entry? (Placement.ofSettings home).current =
      t.entry? (Placement.ofSettings home).current) : load home t' = load home t := by
  obtain ⟨entry, hentry⟩ := Option.isSome_iff_exists.mp hcurrent
  rw [hentry] at hsame
  -- Neither tree is read at the legacy location.
  have hlegacy (tree : Tree) (h : tree.entry? (Placement.ofSettings home).current = some entry) :
      (Placement.ofSettings home).isLegacy tree = false := by
    simp [Placement.isLegacy, Tree.has, h]
  have hread : ofFile t' (Placement.ofSettings home).current =
      ofFile t (Placement.ofSettings home).current :=
    readDocument_congr read?
      ((Tree.entry_eq_ok_iff.mpr hsame).trans (Tree.entry_eq_ok_iff.mpr hentry).symm)
  unfold load Placement.path Placement.notice Tree.has
  simp only [hlegacy t hentry, hlegacy t' hsame, Bool.false_eq_true, if_false, hentry, hsame, hread]

/-- Whatever stands at the two locations of the settings, the settings that are loaded have an
interval of at least a second and a password scheme. If the location in use holds settings, they are
these, with an interval below a second replaced by a minute and a password scheme that means nothing
by the one that hashes, and with the same interval and password scheme in effect; otherwise they are
the defaults. When something stands at the current location, whatever it is, nothing else plays a
part, neither in what is loaded nor in what is reported. -/
theorem load_repairs (home : Path) (t : Tree) :
    let placement := Placement.ofSettings home
    let found := (t.entry? placement.current).or (t.entry? placement.legacy)
    let loaded := (load home t).1
    (1 ≤ loaded.interval ∧ loaded.scheme.isSome = true) ∧
    (∀ written, found.bind ofEntry? = some written →
      loaded = { written with
        interval := if written.interval < 1 then 60 else written.interval
        scheme := some (written.scheme.getD .hashed) } ∧
      loaded.reloadInterval = written.reloadInterval ∧
      loaded.passwordScheme = written.passwordScheme) ∧
    (found.bind ofEntry? = none → loaded = {}) ∧
    ((t.entry? placement.current).isSome = true → ∀ t' : Tree,
      t'.entry? placement.current = t.entry? placement.current → load home t' = load home t) := by
  intro placement found loaded
  have hloaded : loaded = ((found.bind ofEntry?).map repaired).getD {} := load_fst home t
  rw [hloaded]
  refine ⟨?_, ?_, ?_, fun hcurrent t' hsame => load_congr hcurrent hsame⟩
  · cases found.bind ofEntry? with
    | none => decide
    | some written => exact written.repaired_inRange
  · intro written hwritten
    rw [hwritten]
    exact ⟨written.repaired_eq, written.repaired_effective⟩
  · intro hnone
    rw [hnone]
    rfl

end Settings

end BrokerAccess
