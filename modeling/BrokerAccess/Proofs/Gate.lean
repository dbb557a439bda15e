import BrokerAccess.Proofs.Directory

/-!
# What the gate decides

Over a directory that follows the record in effect, the gate decides as the record alone
does. The cache may hold anything that can be relied on; it does so afterwards, too.
-/

namespace BrokerAccess.Gate

variable {d : Directory} {record : Option Credentials} {s : Settings}

/-- A text has a wildcard when it holds one of the two characters. -/
theorem hasWildcard_iff (text : String) :
    hasWildcard text = true ↔ '#' ∈ text.toList ∨ '+' ∈ text.toList := by
  simp only [hasWildcard, List.any_eq_true, Bool.or_eq_true, decide_eq_true_eq]
  constructor
  · rintro ⟨c, hc, rfl | rfl⟩
    · exact Or.inl hc
    · exact Or.inr hc
  · rintro (hc | hc)
    · exact ⟨'#', hc, Or.inl rfl⟩
    · exact ⟨'+', hc, Or.inr rfl⟩

/-- The gate of settings does not serve the listeners that the settings leave out. -/
theorem ignores_iff (s : Settings) (listener : String) :
    (ofSettings s).ignores listener = true ↔
      s.listeners.getD [] ≠ [] ∧ listener ∉ s.listeners.getD [] := by
  simp only [ignores, ofSettings, Bool.and_eq_true, Bool.not_eq_true', List.isEmpty_eq_false_iff,
    List.contains_eq_mem, decide_eq_false_iff_not]

/-- A client is dismissed as the settings say. -/
theorem refuse_decision (s : Settings) (cache : HashCache) (reason : Refusal) :
    ((ofSettings s).refuse cache reason).decision = s.dismissal reason.code reason.message := by
  unfold refuse Settings.dismissal ofSettings
  cases s.deferToNext <;> rfl

/-- A refusal leaves the cache as it is. -/
theorem refuse_cache (g : Gate) (cache : HashCache) (reason : Refusal) :
    (g.refuse cache reason).cache = cache := by
  unfold refuse
  split <;> rfl

/-- A user is admitted or dismissed by the record. -/
theorem identify_decision (h : d.Follows record) (hs : d.scheme = s.passwordScheme)
    (hw : ∀ c, record = some c → c.IsWellFormed s.passwordScheme) (now : Nat)
    (clientId user : String) (password : List UInt8) :
    ((ofSettings s).identify d now clientId user password).decision =
      s.verdict record clientId user password := by
  unfold identify Settings.verdict
  dsimp only
  cases record with
  | none =>
    rw [h.rolesOf_none]
    exact refuse_decision s _ _
  | some c =>
    have hwf := hw c rfl
    have hr := h.rolesOf_some (hs ▸ hwf) now user password
    rw [hs] at hr
    dsimp only
    rw [hr]
    cases hu : c.user? s.passwordScheme user password with
    | none => exact refuse_decision s _ _
    | some u =>
      obtain ⟨id, more, hroles⟩ := hwf.exists_roles hu
      simp only [Option.map_some, hroles, Option.getD_some, h.grants (hs ▸ hwf)]

/-- The gate decides on a client as the record does. -/
theorem connect_decision (h : d.Follows record) (hs : d.scheme = s.passwordScheme)
    (hw : ∀ c, record = some c → c.IsWellFormed s.passwordScheme) (now : Nat)
    (request : ConnectRequest) :
    ((ofSettings s).connect d now request).decision = s.decision record request := by
  have hlistener : (request.listener.filter (ofSettings s).ignores).isSome ↔
      s.listeners.getD [] ≠ [] ∧ request.listener.any (· ∉ s.listeners.getD []) := by
    cases request.listener with
    | none => simp
    | some listener => simp [Option.filter, ← ignores_iff]
  show ((ofSettings s).decide d now request).decision = s.decision record request
  unfold decide Settings.decision
  dsimp only
  cases hf : request.listener.filter (ofSettings s).ignores with
  | some listener =>
    rw [if_pos (hlistener.mp (by rw [hf]; rfl))]
  | none =>
    rw [if_neg (mt hlistener.mpr (by rw [hf]; exact Bool.false_ne_true))]
    unfold examine
    cases request.userName with
    | none => exact refuse_decision s _ _
    | some user =>
      cases request.password with
      | none => exact refuse_decision s _ _
      | some password =>
        dsimp only
        simp only [hasWildcard_iff]
        split
        next => exact refuse_decision s _ _
        next =>
          split
          next => exact refuse_decision s _ _
          next => exact identify_decision h hs hw now request.clientId user password

/-- An identification leaves a cache that can be relied on. -/
theorem identify_cache_isFaithful (g : Gate) (h : d.cache.IsFaithful Password.hash) (now : Nat)
    (clientId user : String) (password : List UInt8) :
    (g.identify d now clientId user password).cache.IsFaithful Password.hash := by
  have hc := Directory.rolesOf_cache_isFaithful h now user password
  unfold identify
  dsimp only
  split
  next => exact hc
  next => rw [refuse_cache]; exact hc

/-- A decision leaves a cache that can be relied on. -/
theorem connect_cache_isFaithful (g : Gate) (h : d.cache.IsFaithful Password.hash) (now : Nat)
    (request : ConnectRequest) : (g.connect d now request).cache.IsFaithful Password.hash := by
  show (g.decide d now request).cache.IsFaithful Password.hash
  unfold decide
  split
  next => exact h
  next =>
    unfold examine
    split
    next user password _ _ =>
      split
      next => rw [refuse_cache]; exact h
      next =>
        split
        next => rw [refuse_cache]; exact h
        next => exact identify_cache_isFaithful g h now request.clientId user password
    next => rw [refuse_cache]; exact h

/-- A client that is not let in is not admitted. -/
theorem refuse_ne_admitted (g : Gate) (cache : HashCache) (reason : Refusal) (grants : List Grant)
    (otherwise : Access) : (g.refuse cache reason).decision ≠ .admitted grants otherwise := by
  unfold refuse
  split <;> exact Decision.noConfusion

/-- A client that is admitted has presented a user name and a password, and no wildcard in what it
calls itself; the user has roles, what these grant is what the client is granted, and all else is
denied. -/
theorem exists_of_admitted {g : Gate} {now : Nat} {request : ConnectRequest} {grants : List Grant}
    {otherwise : Access} (h : (g.connect d now request).decision = .admitted grants otherwise) :
    ∃ user password roles, request.userName = some user ∧ request.password = some password ∧
      hasWildcard request.clientId = false ∧ hasWildcard user = false ∧ roles ≠ [] ∧
      (d.rolesOf now user password).roles = some roles ∧
      grants = d.grants request.clientId user roles ∧ otherwise = .deny := by
  replace h : (g.decide d now request).decision = .admitted grants otherwise := h
  unfold decide at h
  split at h
  next => cases h
  next =>
    unfold examine at h
    split at h
    next user password huser hpassword =>
      split at h
      next => exact absurd h (refuse_ne_admitted g _ _ _ _)
      next hclient =>
        split at h
        next => exact absurd h (refuse_ne_admitted g _ _ _ _)
        next hname =>
          unfold identify at h
          dsimp only at h
          split at h
          next role more hroles =>
            obtain ⟨hgrants, hotherwise⟩ := Decision.admitted.inj h
            exact ⟨user, password, role :: more, huser, hpassword, by simpa using hclient,
              by simpa using hname, List.cons_ne_nil _ _, hroles, hgrants.symm, hotherwise.symm⟩
          next => exact absurd h (refuse_ne_admitted g _ _ _ _)
    next => exact absurd h (refuse_ne_admitted g _ _ _ _)

end BrokerAccess.Gate
