import BrokerAccess.Proofs.Password.Recency
import BrokerAccess.Proofs.Password.Verifier

/-!
# Derivations that a verifier makes

The cache never shows in an answer, but it shows in the work: a check derives a hash exactly
when what it would derive from is not recent among the derivations that succeeded. A check is
written once more for a derivation that may do something beside, and is proved the same; with
a derivation that notes what it is called for, it shows its calls. The counters agree with
them, and stored passwords that cannot be taken apart are counted nowhere.
-/

namespace BrokerAccess.Password

/-- What a hash is derived from. -/
@[ext] structure Triple where
  /-- The password, base64 encoded. -/
  password : String
  /-- The salt as it is written. -/
  salt : String
  /-- The iteration count. -/
  iterations : Nat
  deriving DecidableEq

/-- The key of a triple in a cache. -/
def Triple.key (t : Triple) : String := HashCache.key t.password t.salt t.iterations

/-- What is derived from a triple. -/
def Triple.derived (derive : Derivation) (t : Triple) : Except HashError (List UInt8) :=
  derive t.password t.salt t.iterations

/-- The triple of a check: a password under the salt and the iteration count of a stored one. -/
def Triple.of (password : String) (parsed : StoredPassword) : Triple :=
  ⟨password, parsed.salt, parsed.iterations⟩

/-- The check of a base64 password against a stored one, for a derivation that may do something
beside. -/
def verifyIn {m : Type → Type} [Monad m] (derive : Triple → m (Except HashError (List UInt8)))
    (now : Nat) (password stored : String) (cache : HashCache) : m Verification :=
  match StoredPassword.parse? stored with
  | none => return ⟨false, cache, []⟩
  | some parsed =>
    let triple := Triple.of password parsed
    match cache.get now triple.key with
    | (some hash, cache) => return ⟨hash = parsed.hash, cache, [.count .cacheHit]⟩
    | (none, cache) => do
      match ← derive triple with
      | .error error =>
        return ⟨false, cache,
          [.count .cacheMiss, .count .derivation, .event (.derivationFailed error)]⟩
      | .ok hash =>
        return ⟨hash = parsed.hash, cache.insert now triple.key hash,
          [.count .cacheMiss, .count .derivation]⟩

/-- A derivation that notes what it is called for. -/
def noting (derive : Derivation) (t : Triple) :
    StateM (List Triple) (Except HashError (List UInt8)) := do
  modify (t :: ·)
  return t.derived derive

/-- A check, and what it calls the derivation for. -/
def verifyNoting (derive : Derivation) (now : Nat) (password stored : String)
    (cache : HashCache) : Verification × List Triple :=
  (verifyIn (noting derive) now password stored cache).run []

/-- A noting derivation gives what is derived, and notes the triple. -/
theorem noting_run (derive : Derivation) (t : Triple) (noted : List Triple) :
    (noting derive t).run noted = (t.derived derive, t :: noted) := rfl

/-- A derivation that notes its calls changes nothing of a check. -/
theorem verifyNoting_fst (derive : Derivation) (now : Nat) (password stored : String)
    (cache : HashCache) :
    (verifyNoting derive now password stored cache).1 =
      verify derive now password stored cache := by
  unfold verifyNoting verifyIn verify
  cases StoredPassword.parse? stored with
  | none => rfl
  | some parsed =>
    dsimp only [Triple.key, Triple.of]
    cases cache.get now (HashCache.key password parsed.salt parsed.iterations) with
    | mk found after =>
      cases found with
      | some hash => rfl
      | none =>
        dsimp only
        rw [StateT.run_bind, noting_run]
        dsimp only [Triple.derived]
        cases derive password parsed.salt parsed.iterations <;> rfl

/-- What a check may come to, and what it calls the derivation for. -/
inductive Checked (derive : Derivation) (now : Nat) (password stored : String)
    (cache : HashCache) : Verification → List Triple → Prop where
  /-- The stored password cannot be taken apart. -/
  | malformed (hparse : StoredPassword.parse? stored = none) :
    Checked derive now password stored cache ⟨false, cache, []⟩ []
  /-- The hash is found in the cache. -/
  | hit {parsed : StoredPassword} {hash : List UInt8}
    (hparse : StoredPassword.parse? stored = some parsed)
    (hget : (cache.get now (Triple.of password parsed).key).1 = some hash) :
    Checked derive now password stored cache
      ⟨hash = parsed.hash, (cache.get now (Triple.of password parsed).key).2, [.count .cacheHit]⟩ []
  /-- Nothing is found in the cache, and no hash can be derived. -/
  | failed {parsed : StoredPassword} {error : HashError}
    (hparse : StoredPassword.parse? stored = some parsed)
    (hget : (cache.get now (Triple.of password parsed).key).1 = none)
    (hderive : (Triple.of password parsed).derived derive = .error error) :
    Checked derive now password stored cache
      ⟨false, (cache.get now (Triple.of password parsed).key).2,
        [.count .cacheMiss, .count .derivation, .event (.derivationFailed error)]⟩
      [Triple.of password parsed]
  /-- Nothing is found in the cache, and a hash is derived. -/
  | derived {parsed : StoredPassword} {hash : List UInt8}
    (hparse : StoredPassword.parse? stored = some parsed)
    (hget : (cache.get now (Triple.of password parsed).key).1 = none)
    (hderive : (Triple.of password parsed).derived derive = .ok hash) :
    Checked derive now password stored cache
      ⟨hash = parsed.hash, (cache.get now (Triple.of password parsed).key).2.insert now
        (Triple.of password parsed).key hash, [.count .cacheMiss, .count .derivation]⟩
      [Triple.of password parsed]

/-- A check comes to one of these, and calls the derivation as it says. -/
theorem checked (derive : Derivation) (now : Nat) (password stored : String)
    (cache : HashCache) :
    Checked derive now password stored cache (verify derive now password stored cache)
      (verifyNoting derive now password stored cache).2 := by
  rw [← verifyNoting_fst]
  unfold verifyNoting verifyIn
  cases hparse : StoredPassword.parse? stored with
  | none => exact .malformed hparse
  | some parsed =>
    dsimp only
    cases hget : cache.get now (Triple.of password parsed).key with
    | mk found after =>
      have hfound : (cache.get now (Triple.of password parsed).key).1 = found := by rw [hget]
      obtain rfl : (cache.get now (Triple.of password parsed).key).2 = after := by rw [hget]
      cases found with
      | some hash => exact .hit hparse hfound
      | none =>
        dsimp only
        rw [StateT.run_bind, noting_run]
        cases hderive : (Triple.of password parsed).derived derive with
        | error error => exact .failed hparse hfound hderive
        | ok hash => exact .derived hparse hfound hderive

namespace Checked

variable {derive : Derivation} {now : Nat} {password stored : String} {cache : HashCache}
  {verification : Verification} {calls : List Triple}

/-- A check looks at nothing of a derivation but what it is called for. -/
theorem verify_eq (h : Checked derive now password stored cache verification calls)
    {other : Derivation} (hsame : ∀ t ∈ calls, t.derived other = t.derived derive) :
    verify other now password stored cache = verification := by
  -- What a look-up finds, together with the cache that it leaves.
  have hpair {found : Option (List UInt8)} {key : String} (hget : (cache.get now key).1 = found) :
      cache.get now key = (found, (cache.get now key).2) := Prod.ext hget rfl
  unfold verify
  cases h with
  | malformed hparse => rw [hparse]
  | hit hparse hget =>
    dsimp only [Triple.key, Triple.of] at hget
    rw [hparse]
    dsimp only
    rw [hpair hget]
    rfl
  | failed hparse hget hderive =>
    have hother := (List.forall_mem_singleton.mp hsame).trans hderive
    dsimp only [Triple.key, Triple.of, Triple.derived] at hget hother
    rw [hparse]
    dsimp only
    rw [hpair hget]
    dsimp only
    rw [hother]
    rfl
  | derived hparse hget hderive =>
    have hother := (List.forall_mem_singleton.mp hsame).trans hderive
    dsimp only [Triple.key, Triple.of, Triple.derived] at hget hother
    rw [hparse]
    dsimp only
    rw [hpair hget]
    dsimp only
    rw [hother]
    rfl

/-- What a check counts: a miss and a derivation for each call, and a hit if there is none, unless
the stored password cannot be taken apart. -/
theorem counts (h : Checked derive now password stored cache verification calls) :
    verification.journal.counts.count .cacheMiss = calls.length ∧
      verification.journal.counts.count .derivation = calls.length ∧
      verification.journal.counts.count .cacheHit + calls.length =
        (StoredPassword.parse? stored).isSome.toNat := by
  cases h with
  | malformed hparse => simp [hparse, Journal.counts]
  | hit hparse => simp [hparse, Journal.counts]
  | failed hparse => simp [hparse, Journal.counts]
  | derived hparse => simp [hparse, Journal.counts]

/-- A check changes neither the lifetime nor the capacity of the cache. -/
theorem limits (h : Checked derive now password stored cache verification calls) :
    verification.cache.lifetime = cache.lifetime ∧
      verification.cache.capacity = cache.capacity := by
  cases h with
  | malformed => exact ⟨rfl, rfl⟩
  | hit => exact cache.get_snd_limits now _
  | failed => exact cache.get_snd_limits now _
  | derived => exact cache.get_snd_limits now _

/-- A check calls the derivation for no salt with a colon. -/
theorem colon_notMem (h : Checked derive now password stored cache verification calls) :
    ∀ t ∈ calls, ':' ∉ t.salt.toList := by
  cases h with
  | malformed => exact List.forall_mem_nil _
  | hit => exact List.forall_mem_nil _
  | failed hparse => exact List.forall_mem_singleton.mpr (colon_notMem_salt hparse)
  | derived hparse => exact List.forall_mem_singleton.mpr (colon_notMem_salt hparse)

end Checked

/-- The keys of triples differ if their salts have no colon. -/
theorem Triple.key_injOn : Set.InjOn Triple.key {t | ':' ∉ t.salt.toList} := by
  intro t ht t' ht' hkey
  obtain ⟨hpassword, hsalt, hiterations⟩ := HashCache.key_injective ht ht' hkey
  exact Triple.ext hpassword hsalt hiterations

/-- A call of the derivation. -/
structure Call where
  /-- What it was called for. -/
  triple : Triple
  /-- When it was called. -/
  time : Nat

/-- The call gives a hash. -/
def Call.succeeds (derive : Derivation) (call : Call) : Bool := (call.triple.derived derive).isOk

/-- What a cache holds of a call that gives a hash. -/
def Call.entry (derive : Derivation) (call : Call) : CachedHash :=
  ⟨call.triple.key, (call.triple.derived derive).toOption.getD [], call.time⟩

/-- What can happen to a verifier. -/
inductive VerifierEvent where
  /-- A base64 password is checked against a stored one. -/
  | check (password stored : String)
  /-- Time passes. -/
  | elapse (time : Nat)

/-- The event is a check against a stored password that can be taken apart. -/
def VerifierEvent.isWellFormed : VerifierEvent → Bool
  | .check _ stored => (StoredPassword.parse? stored).isSome
  | .elapse _ => false

/-- A verifier in use. -/
structure VerifierUse where
  /-- Its cache. -/
  cache : HashCache
  /-- What its clock shows. -/
  now : Nat
  /-- The calls of the derivation so far, the newest first. -/
  calls : List Call := []
  /-- What was reported so far. -/
  journal : Journal := []

namespace VerifierUse

/-- A verifier with a new cache, at a time. -/
def opened (lifetime capacity start : Nat) : VerifierUse := ⟨.new lifetime capacity, start, [], []⟩

/-- The verifier after a check that came to this and called the derivation for these triples. -/
def after (u : VerifierUse) (verification : Verification) (calls : List Triple) : VerifierUse :=
  { u with
    cache := verification.cache
    calls := calls.map (⟨·, u.now⟩) ++ u.calls
    journal := u.journal ++ verification.journal }

/-- The verifier after an event. -/
def step (derive : Derivation) (u : VerifierUse) : VerifierEvent → VerifierUse
  | .check password stored =>
    u.after (verify derive u.now password stored u.cache)
      (verifyNoting derive u.now password stored u.cache).2
  | .elapse time => { u with now := u.now + time }

/-- The verifier after events in order. -/
def run (derive : Derivation) (u : VerifierUse) (events : List VerifierEvent) : VerifierUse :=
  events.foldl (step derive) u

/-- The calls of the derivation so far that gave a hash, the newest first. -/
def derivations (derive : Derivation) (u : VerifierUse) : List Call :=
  u.calls.filter (Call.succeeds derive)

/-- No two hashes were derived at one time. -/
def IsSpaced (derive : Derivation) (u : VerifierUse) : Prop :=
  ((u.derivations derive).map Call.time).Nodup

/-- How often a verifier has counted something. -/
def counted (u : VerifierUse) (m : Metric) : Nat := u.journal.counts.count m

/-- A verifier in use, with the lifetime and the places of its cache, recalls what was derived. -/
structure IsTimely (derive : Derivation) (lifetime places : Nat) (u : VerifierUse) : Prop where
  /-- The cache recalls what was derived. -/
  recalls : u.cache.Recalls ((u.derivations derive).map (Call.entry derive)) u.now
  /-- Nothing was derived later than now. -/
  past : ∀ call ∈ u.calls, call.time ≤ u.now
  /-- Nothing was derived with a colon in the salt. -/
  salts : ∀ call ∈ u.calls, ':' ∉ call.triple.salt.toList
  /-- The lifetime of an entry. -/
  lifetime : u.cache.lifetime = lifetime
  /-- The places for entries. -/
  capacity : u.cache.capacity = places

variable {derive : Derivation} {lifetime places : Nat} {u : VerifierUse}

/-- The triple is among as many as there are places that were derived from last, of those from which
a hash can be derived, and that was less than the lifetime ago. -/
def IsKnown (derive : Derivation) (lifetime places : Nat) (u : VerifierUse) (t : Triple) : Prop :=
  ∃ call, call.triple = t ∧
    IsRecent Call.triple Call.time places lifetime u.now (u.derivations derive) call

/-- The cache has a hash for a triple exactly when the triple is known. -/
theorem IsTimely.get_isSome_iff (h : u.IsTimely derive lifetime places) {t : Triple}
    (ht : ':' ∉ t.salt.toList) :
    (u.cache.get u.now t.key).1.isSome ↔ u.IsKnown derive lifetime places t := by
  have hsalts : ∀ call ∈ u.derivations derive, ':' ∉ call.triple.salt.toList :=
    fun call hcall => h.salts call (List.mem_filter.mp hcall).1
  have hform {call : Call} (hcall : call ∈ u.derivations derive) :
      IsRecent CachedHash.key CachedHash.insertedAt u.cache.capacity u.cache.lifetime u.now
          ((u.derivations derive).map (Call.entry derive)) (call.entry derive) ↔
        IsRecent Call.triple Call.time places lifetime u.now (u.derivations derive) call := by
    have hkey (call : Call) : (call.entry derive).key = call.triple.key := rfl
    have htime (call : Call) : (call.entry derive).insertedAt = call.time := rfl
    rw [h.capacity, h.lifetime]
    refine isRecent_map_iff hkey htime (Triple.key_injOn.mono ?_) hcall
    rintro _ ⟨other, hother, rfl⟩
    exact hsalts other hother
  rw [Option.isSome_iff_exists]
  simp only [h.recalls.get_eq_some_iff]
  constructor
  · rintro ⟨hash, e, hkey, _, hrecent⟩
    obtain ⟨call, hcall, rfl⟩ := List.mem_map.mp hrecent.latest.1
    exact ⟨call, Triple.key_injOn (hsalts call hcall) ht hkey, (hform hcall).mp hrecent⟩
  · rintro ⟨call, rfl, hrecent⟩
    exact ⟨_, call.entry derive, rfl, rfl, (hform hrecent.latest.1).mpr hrecent⟩

/-- A check calls the derivation, for the triple of the check, exactly when that is not known. -/
theorem IsTimely.calls_cases (h : u.IsTimely derive lifetime places) (password : String)
    {stored : String} {parsed : StoredPassword}
    (hparse : StoredPassword.parse? stored = some parsed) :
    (verifyNoting derive u.now password stored u.cache).2 = [] ∧
        u.IsKnown derive lifetime places (.of password parsed) ∨
      (verifyNoting derive u.now password stored u.cache).2 = [.of password parsed] ∧
        ¬ u.IsKnown derive lifetime places (.of password parsed) := by
  have hsalt : ':' ∉ (Triple.of password parsed).salt.toList := colon_notMem_salt hparse
  have hknown := h.get_isSome_iff hsalt
  have hchecked := checked derive u.now password stored u.cache
  rw [← hknown]
  generalize verify derive u.now password stored u.cache = verification at hchecked
  generalize (verifyNoting derive u.now password stored u.cache).2 = calls at hchecked ⊢
  cases hchecked with
  | malformed hnone => rw [hparse] at hnone; cases hnone
  | hit hsome hget =>
    obtain rfl := Option.some.inj (hsome.symm.trans hparse)
    exact .inl ⟨rfl, by rw [hget]; rfl⟩
  | failed hsome hget =>
    obtain rfl := Option.some.inj (hsome.symm.trans hparse)
    exact .inr ⟨rfl, by rw [hget]; exact Bool.false_ne_true⟩
  | derived hsome hget =>
    obtain rfl := Option.some.inj (hsome.symm.trans hparse)
    exact .inr ⟨rfl, by rw [hget]; exact Bool.false_ne_true⟩

/-- After a check, the derivations are those of its calls and those before. -/
theorem derivations_after (u : VerifierUse) (verification : Verification) (calls : List Triple) :
    (u.after verification calls).derivations derive =
      (calls.map (Call.mk · u.now)).filter (Call.succeeds derive) ++ u.derivations derive := by
  rw [derivations, after, List.filter_append]
  rfl

/-- A check makes the cache recall what it derives, if no two hashes are derived at one time. -/
theorem IsTimely.recalls_after (h : u.IsTimely derive lifetime places) {password stored : String}
    {verification : Verification} {calls : List Triple}
    (hchecked : Checked derive u.now password stored u.cache verification calls)
    (hspaced : (u.after verification calls).IsSpaced derive) :
    verification.cache.Recalls
      (((u.after verification calls).derivations derive).map (Call.entry derive)) u.now := by
  rw [IsSpaced] at hspaced
  rw [derivations_after] at hspaced ⊢
  cases hchecked with
  | malformed => exact h.recalls
  | hit => exact h.recalls.get _
  | @failed parsed error _ _ hderive =>
    have hfails : Call.succeeds derive ⟨.of password parsed, u.now⟩ = false := by
      rw [Call.succeeds, hderive]
      rfl
    -- What failed is no derivation, so there is nothing more to recall.
    rw [List.map_singleton, List.filter_cons_of_neg (by simp [hfails])]
    exact h.recalls.get _
  | @derived parsed hash _ _ hderive =>
    have hsucceeds : Call.succeeds derive ⟨.of password parsed, u.now⟩ = true := by
      rw [Call.succeeds, hderive]
      rfl
    have hentry : Call.entry derive ⟨.of password parsed, u.now⟩ =
        ⟨(Triple.of password parsed).key, hash, u.now⟩ := by
      rw [Call.entry, hderive]
      rfl
    rw [List.map_singleton, List.filter_cons_of_pos hsucceeds] at hspaced ⊢
    have hlater : ∀ e ∈ (u.derivations derive).map (Call.entry derive), e.insertedAt < u.now := by
      rw [List.forall_mem_map]
      exact lt_of_nodup_cons hspaced fun call hcall => h.past call (List.mem_filter.mp hcall).1
    show HashCache.Recalls _ (Call.entry derive ⟨.of password parsed, u.now⟩ :: _) u.now
    rw [hentry]
    exact (h.recalls.get _).insert hlater _ hash

/-- A check keeps the cache recalling, if no two hashes are derived at one time. -/
theorem IsTimely.after (h : u.IsTimely derive lifetime places) {password stored : String}
    {verification : Verification} {calls : List Triple}
    (hchecked : Checked derive u.now password stored u.cache verification calls)
    (hspaced : (u.after verification calls).IsSpaced derive) :
    (u.after verification calls).IsTimely derive lifetime places where
  recalls := h.recalls_after hchecked hspaced
  past := List.forall_mem_append.mpr ⟨List.forall_mem_map.mpr fun _ _ => le_rfl, h.past⟩
  salts := List.forall_mem_append.mpr ⟨List.forall_mem_map.mpr hchecked.colon_notMem, h.salts⟩
  lifetime := hchecked.limits.1.trans h.lifetime
  capacity := hchecked.limits.2.trans h.capacity

/-- If no two hashes were derived at one time after an event, none were before. -/
theorem IsSpaced.of_step {event : VerifierEvent} (h : (u.step derive event).IsSpaced derive) :
    u.IsSpaced derive := by
  cases event with
  | check password stored =>
    rw [step, IsSpaced, derivations_after, List.map_append] at h
    exact h.of_append_right
  | elapse time => exact h

/-- An event keeps the cache recalling, if no two hashes are derived at one time. -/
theorem IsTimely.step (h : u.IsTimely derive lifetime places) {event : VerifierEvent}
    (hspaced : (u.step derive event).IsSpaced derive) :
    (u.step derive event).IsTimely derive lifetime places := by
  cases event with
  | check password stored => exact h.after (checked derive u.now password stored u.cache) hspaced
  | elapse time =>
    have hle : u.now ≤ u.now + time := Nat.le_add_right u.now time
    exact ⟨h.recalls.elapse hle, fun call hcall => (h.past call hcall).trans hle, h.salts,
      h.lifetime, h.capacity⟩

/-- A verifier with a new cache recalls what is derived, in any run in which no two hashes are
derived at one time. -/
theorem opened_run_isTimely (lifetime capacity start : Nat) {events : List VerifierEvent}
    (hspaced : ((opened lifetime capacity start).run derive events).IsSpaced derive) :
    ((opened lifetime capacity start).run derive events).IsTimely derive lifetime
      (max 1 capacity) := by
  induction events using List.reverseRecOn with
  | nil =>
    exact ⟨HashCache.recalls_new lifetime capacity start, List.forall_mem_nil _,
      List.forall_mem_nil _, rfl, rfl⟩
  | append_singleton events event ih =>
    rw [run, List.foldl_append] at hspaced ⊢
    exact (ih hspaced.of_step).step hspaced

/-- A check adds what it counts. -/
theorem counted_after (u : VerifierUse) (verification : Verification) (calls : List Triple)
    (m : Metric) :
    (u.after verification calls).counted m =
      u.counted m + verification.journal.counts.count m := by
  rw [counted, after, Journal.counts, List.filterMap_append, List.count_append]
  rfl

/-- The counters of a run agree with its calls and its checks. -/
theorem run_counted (derive : Derivation) (lifetime capacity start : Nat)
    (events : List VerifierEvent) :
    let u := (opened lifetime capacity start).run derive events
    u.counted .cacheMiss = u.calls.length ∧ u.counted .derivation = u.calls.length ∧
      u.counted .cacheHit + u.counted .cacheMiss = events.countP VerifierEvent.isWellFormed := by
  induction events using List.reverseRecOn with
  | nil => exact ⟨rfl, rfl, rfl⟩
  | append_singleton events event ih =>
    rw [run, List.foldl_append, List.countP_append]
    obtain ⟨hmisses, hderivations, hchecks⟩ := ih
    cases event with
    | elapse time => exact ⟨hmisses, hderivations, hchecks⟩
    | check password stored =>
      generalize hu : (opened lifetime capacity start).run derive events = u at *
      obtain ⟨hmiss, hderivation, hcheck⟩ :=
        (checked derive u.now password stored u.cache).counts
      have hwell : [VerifierEvent.check password stored].countP VerifierEvent.isWellFormed =
          (StoredPassword.parse? stored).isSome.toNat := by
        rw [List.countP_singleton, VerifierEvent.isWellFormed]
        cases (StoredPassword.parse? stored).isSome <;> rfl
      rw [run] at hu
      dsimp only [List.foldl_cons, List.foldl_nil]
      rw [hu, step, counted_after, counted_after, counted_after, hmiss, hderivation, hwell,
        ← hcheck, ← hchecks, hmisses, hderivations]
      simp only [after, List.length_append, List.length_map]
      omega

/-- Whatever was checked before, a check calls the derivation exactly when what it would derive from
is not known: when it is not among as many triples as there are places that were last derived
successfully, or its last successful derivation is at least the lifetime ago. So what failed is
tried again each time. Misses and durations are counted once for each call, misses and hits
together once for each check against a stored password that can be taken apart, and other checks
leave everything as it is. The calls are those of the check itself, with a derivation that notes
what it is called for; it would come to the same with any other that agrees on these. -/
theorem calls_unless_known (derive : Derivation) (lifetime capacity start : Nat)
    (events : List VerifierEvent)
    (hspaced : ((opened lifetime capacity start).run derive events).IsSpaced derive) :
    let u := (opened lifetime capacity start).run derive events
    let places := max 1 capacity
    (∀ password stored, (verifyNoting derive u.now password stored u.cache).1 =
        verify derive u.now password stored u.cache ∧
      ∀ other, (∀ t ∈ (verifyNoting derive u.now password stored u.cache).2,
          t.derived other = t.derived derive) →
        verify other u.now password stored u.cache =
          verify derive u.now password stored u.cache) ∧
    (∀ password stored parsed, StoredPassword.parse? stored = some parsed →
      (verifyNoting derive u.now password stored u.cache).2 = [] ∧
          u.IsKnown derive lifetime places (.of password parsed) ∨
        (verifyNoting derive u.now password stored u.cache).2 = [.of password parsed] ∧
          ¬ u.IsKnown derive lifetime places (.of password parsed)) ∧
    (∀ password stored parsed error, StoredPassword.parse? stored = some parsed →
      derive password parsed.salt parsed.iterations = .error error →
        (verifyNoting derive u.now password stored u.cache).2 = [.of password parsed]) ∧
    (u.counted .cacheMiss = u.calls.length ∧ u.counted .derivation = u.calls.length ∧
      u.counted .cacheHit + u.counted .cacheMiss = events.countP VerifierEvent.isWellFormed) ∧
    ∀ password stored, StoredPassword.parse? stored = none →
      u.step derive (.check password stored) = u := by
  intro u places
  have h : u.IsTimely derive lifetime places := opened_run_isTimely lifetime capacity start hspaced
  refine ⟨?_, ?_, ?_, run_counted derive lifetime capacity start events, ?_⟩
  · intro password stored
    exact ⟨verifyNoting_fst derive u.now password stored u.cache, fun other hsame =>
      (checked derive u.now password stored u.cache).verify_eq hsame⟩
  · intro password stored parsed hparse
    exact h.calls_cases password hparse
  · intro password stored parsed error hparse hderive
    rcases h.calls_cases password hparse with ⟨_, call, htriple, hrecent⟩ | ⟨hcalls, _⟩
    · -- What is known gave a hash.
      have hsucceeds := (List.mem_filter.mp hrecent.latest.1).2
      have hfails : call.triple.derived derive = .error error := by rw [htriple]; exact hderive
      rw [Call.succeeds, hfails] at hsucceeds
      cases hsucceeds
    · exact hcalls
  · intro password stored hparse
    have hchecked := checked derive u.now password stored u.cache
    rw [step]
    generalize verify derive u.now password stored u.cache = verification at hchecked ⊢
    generalize (verifyNoting derive u.now password stored u.cache).2 = calls at hchecked ⊢
    cases hchecked with
    | malformed => rw [after, List.append_nil]; rfl
    | hit hsome => rw [hparse] at hsome; cases hsome
    | failed hsome => rw [hparse] at hsome; cases hsome
    | derived hsome => rw [hparse] at hsome; cases hsome

/-- A derivation that gives the password back, unless there are no iterations. -/
def echo : Derivation := fun password _ iterations =>
  if iterations = 0 then .error .noIterations else .ok (Utf8.bytes password)

/-- A verifier that found a hash again, failed to derive one twice, was asked about a stored
password that cannot be taken apart, and then was left alone until its hash expired. -/
def rested : VerifierUse := (opened 30 1 0).run echo
  [.check "p" "salt:1:cA==", .elapse 5, .check "p" "salt:1:cA==", .check "p" "salt:0:cA==",
    .check "p" "salt:0:cA==", .check "p" "plain", .elapse 30]

/-- Three of its four well-formed checks called the derivation, and the next one does so again. -/
theorem calls_unless_known_rested :
    rested.IsSpaced echo ∧ rested.calls.length = 3 ∧ rested.counted .cacheMiss = 3 ∧
      rested.counted .cacheHit + rested.counted .cacheMiss = 4 ∧
      (verifyNoting echo rested.now "p" "salt:1:cA==" rested.cache).2 = [⟨"p", "salt", 1⟩] := by
  have hspaced : rested.IsSpaced echo := by
    unfold IsSpaced
    decide +kernel
  have hparse : StoredPassword.parse? "salt:1:cA==" = some ⟨"salt", 1, [112]⟩ := by decide +kernel
  obtain ⟨_, hcalls, _, ⟨hmisses, _, hchecks⟩, _⟩ := calls_unless_known echo 30 1 0 _ hspaced
  have hlength : rested.calls.length = 3 := by decide +kernel
  refine ⟨hspaced, hlength, hmisses.trans hlength, hchecks.trans (by decide +kernel), ?_⟩
  rcases hcalls "p" _ _ hparse with ⟨_, call, _, hrecent⟩ | ⟨hcalls, _⟩
  · -- The one hash is from the start, and its lifetime is over.
    have hstart : ∀ call ∈ rested.derivations echo, call.time = 0 := by decide +kernel
    have hfresh := hrecent.fresh
    rw [hstart call hrecent.latest.1] at hfresh
    exact absurd hfresh (by decide +kernel)
  · exact hcalls

end VerifierUse

end BrokerAccess.Password
