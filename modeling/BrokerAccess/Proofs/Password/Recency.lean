import BrokerAccess.Proofs.Password.History

/-!
# What a cache remembers

What a cache hands out can be said by the insertions and the clock alone: under a key it has
what was inserted there last, as long as that is less old than the lifetime and fewer other
keys than there are places have been used since. The stored entries are another set, because
expired ones linger until they are looked up or their place is needed; but the fresh ones
among them are exactly those that are to be remembered.
-/

namespace BrokerAccess

namespace HashCache

section Freshness

variable {c : HashCache} {now : Nat} {e : CachedHash}

/-- What is fresh was so before. -/
theorem isFresh_of_le {later : Nat} (hle : now ≤ later) (h : c.isFresh later e = true) :
    c.isFresh now e = true := by
  rw [isFresh, decide_eq_true_eq] at h ⊢
  omega

/-- What was inserted after something fresh is fresh. -/
theorem isFresh_of_insertedAt_le {other : CachedHash} (hle : e.insertedAt ≤ other.insertedAt)
    (h : c.isFresh now e = true) : c.isFresh now other = true := by
  rw [isFresh, decide_eq_true_eq] at h ⊢
  omega

/-- If nothing new is fresh, nothing is. -/
theorem isFresh_new_of_isFresh (h : c.isFresh now e = true) (key : String) (hash : List UInt8) :
    c.isFresh now ⟨key, hash, now⟩ = true := by
  rw [isFresh, decide_eq_true_eq] at h ⊢
  show now - now < c.lifetime
  omega

/-- In a falling history, what is fresh comes first. -/
theorem IsFalling.pairwise_isFresh {list : List CachedHash} (h : IsFalling list) (c : HashCache)
    (now : Nat) : list.Pairwise fun a b => c.isFresh now b = true → c.isFresh now a = true :=
  h.imp fun hlt hfresh => isFresh_of_insertedAt_le hlt.le hfresh

end Freshness

/-- A cache holds what is to be remembered of a history of insertions, and of the rest at most some
latest ones that have expired. -/
structure Recalls (c : HashCache) (history : List CachedHash) (now : Nat) : Prop where
  /-- The history has the newest first. -/
  falling : IsFalling history
  /-- Every entry is the latest insertion of its key. -/
  entries : c.entries.Sublist (latest history)
  /-- The fresh entries are the newest of the latest insertions. -/
  fresh : c.entries.filter (c.isFresh now) =
    ((latest history).take c.capacity).filter (c.isFresh now)
  /-- There is a place. -/
  place : 0 < c.capacity
  /-- There are no more entries than places. -/
  size : c.entries.length ≤ c.capacity

/-- If no two entries have one key, at most one has a given key. -/
theorem length_filter_key_le_one {list : List CachedHash}
    (h : (list.map CachedHash.key).Nodup) (key : String) :
    (list.filter fun e => e.key = key).length ≤ 1 := by
  have hcount := List.nodup_iff_count_le_one.mp h key
  rw [List.count, List.countP_map, List.countP_eq_length_filter] at hcount
  exact hcount

/-- For a new key a full cache keeps the newest of its fresh entries, and another one keeps all. -/
theorem room_cases {c : HashCache} (hplace : 0 < c.capacity) (now : Nat) :
    ∃ others, (if c.capacity ≤ c.entries.length then c.makeRoom now else c.entries) = others ∧
      others.Sublist c.entries ∧ others.length < c.capacity ∧
      others.filter (c.isFresh now) = (c.entries.filter (c.isFresh now)).take (c.capacity - 1) := by
  refine ⟨_, rfl, ?_⟩
  split
  next =>
    refine ⟨(List.take_sublist _ _).trans List.filter_sublist, ?_, ?_⟩
    · rw [makeRoom, List.length_take]
      omega
    · rw [makeRoom, List.filter_eq_self]
      intro e he
      exact (List.mem_filter.mp (List.mem_of_mem_take he)).2
  next hroom =>
    have hfresh := List.length_filter_le (c.isFresh now) c.entries
    refine ⟨List.Sublist.refl _, Nat.lt_of_not_le hroom, ?_⟩
    rw [List.take_of_length_le]
    omega

/-- A new cache recalls nothing. -/
theorem recalls_new (lifetime capacity now : Nat) : (new lifetime capacity).Recalls [] now :=
  ⟨.nil, .slnil, (congrArg _ List.take_nil).symm,
    Nat.lt_of_lt_of_le Nat.zero_lt_one (Nat.le_max_left 1 capacity), Nat.zero_le _⟩

/-- A look-up gives the hash of the first entry of the key, if that is fresh. -/
theorem get_fst (c : HashCache) (now : Nat) (key : String) :
    (c.get now key).1 =
      ((c.entries.find? fun e => e.key = key).filter (c.isFresh now)).map CachedHash.hash := by
  unfold get
  cases c.entries.find? fun e => e.key = key with
  | none => rfl
  | some e =>
    rw [Option.filter_some]
    dsimp only
    cases c.isFresh now e <;> rfl

/-- Entries of other keys do not matter to a look-up. -/
theorem find?_filter_ne {key other : String} (h : other ≠ key) (entries : List CachedHash) :
    (entries.filter fun e => e.key ≠ key).find? (fun e => e.key = other) =
      entries.find? fun e => e.key = other := by
  rw [List.find?_filter]
  congr 1
  funext e
  by_cases he : e.key = other
  · simp [he, h]
  · simp [he]

/-- A look-up leaves the cache as it is, or it finds an entry that has expired and drops it. -/
theorem get_snd_cases (c : HashCache) (now : Nat) (key : String) :
    (c.get now key).2 = c ∨
      ∃ e, c.entries.find? (fun e => e.key = key) = some e ∧ c.isFresh now e = false ∧
        (c.get now key).2 = { c with entries := c.entries.filter fun e => e.key ≠ key } := by
  unfold get
  split
  next => exact .inl rfl
  next e hfind =>
    split
    next => exact .inl rfl
    next hstale => exact .inr ⟨e, hfind, Bool.eq_false_iff.mpr hstale, rfl⟩

/-- A look-up changes neither the lifetime nor the capacity. -/
theorem get_snd_limits (c : HashCache) (now : Nat) (key : String) :
    (c.get now key).2.lifetime = c.lifetime ∧ (c.get now key).2.capacity = c.capacity := by
  rcases c.get_snd_cases now key with hsame | ⟨_, _, _, hdropped⟩
  · rw [hsame]
    exact ⟨rfl, rfl⟩
  · rw [hdropped]
    exact ⟨rfl, rfl⟩

/-- A look-up changes the outcome of no later one. -/
theorem get_get_fst (c : HashCache) {now later : Nat} (hle : now ≤ later) (key other : String) :
    ((c.get now key).2.get later other).1 = (c.get later other).1 := by
  rcases c.get_snd_cases now key with hsame | ⟨e, hfind, hstale, hdropped⟩
  · rw [hsame]
  · rw [hdropped, get_fst, get_fst]
    dsimp only
    by_cases hother : other = key
    · -- What has expired does not become fresh, so it is not given out later, either.
      have hlater : c.isFresh later e = false := by
        cases hfresh : c.isFresh later e with
        | false => rfl
        | true => rw [isFresh_of_le hle hfresh] at hstale; cases hstale
      have hgone : (c.entries.filter fun e => e.key ≠ key).find? (fun e => e.key = key) =
          none := by
        simp [List.find?_filter]
      rw [hother, hgone, hfind, Option.filter_some_neg hlater]
      rfl
    · exact congrArg (fun found : Option CachedHash => (found.filter _).map CachedHash.hash)
        (find?_filter_ne hother c.entries)

/-- An insertion under a key that has an entry changes the outcome for no other key. -/
theorem get_insert_fst_of_stored {c : HashCache} {key : String}
    (h : ∃ e ∈ c.entries, e.key = key) (now : Nat) (hash : List UInt8) (later : Nat)
    {other : String} (hother : other ≠ key) :
    ((c.insert now key hash).get later other).1 = (c.get later other).1 := by
  have hstored : (c.entries.any fun e => e.key = key) = true := by simpa using h
  have hfind : (c.insert now key hash).entries.find? (fun e => e.key = other) =
      c.entries.find? fun e => e.key = other := by
    have hnew : decide (key = other) = false := decide_eq_false hother.symm
    simp only [insert, hstored, if_true, List.find?_cons, hnew]
    exact find?_filter_ne hother c.entries
  rw [get_fst, get_fst, hfind]
  rfl

/-- The hash under a key is that of a fresh entry, if no two entries have one key. -/
theorem get_eq_some_iff {c : HashCache} (h : (c.entries.map CachedHash.key).Nodup)
    (now : Nat) (key : String) (hash : List UInt8) :
    (c.get now key).1 = some hash ↔
      ∃ e ∈ c.entries, e.key = key ∧ e.hash = hash ∧ c.isFresh now e = true := by
  rw [get_fst, Option.map_eq_some_iff]
  simp only [Option.filter_eq_some_iff]
  constructor
  · rintro ⟨e, ⟨hfind, hfresh⟩, hhash⟩
    exact ⟨e, List.mem_of_find?_eq_some hfind, by simpa using List.find?_some hfind, hhash, hfresh⟩
  · rintro ⟨e, he, hkey, hhash, hfresh⟩
    refine ⟨e, ⟨?_, hfresh⟩, hhash⟩
    have hsome : (c.entries.find? fun e => e.key = key).isSome = true :=
      List.find?_isSome.mpr ⟨e, he, decide_eq_true hkey⟩
    obtain ⟨found, hfound⟩ := Option.isSome_iff_exists.mp hsome
    have hfkey : found.key = key := by simpa using List.find?_some hfound
    rw [hfound, List.inj_on_of_nodup_map h (List.mem_of_find?_eq_some hfound) he
      (hfkey.trans hkey.symm)]

namespace Recalls

variable {c : HashCache} {history : List CachedHash} {now : Nat}

/-- No two entries have one key. -/
theorem nodup_entries (h : c.Recalls history now) : (c.entries.map CachedHash.key).Nodup :=
  (nodup_latest history).sublist (h.entries.map _)

/-- The fresh entries are the first of what is fresh among the latest insertions. -/
theorem fresh_eq_take (h : c.Recalls history now) :
    c.entries.filter (c.isFresh now) =
      ((latest history).filter (c.isFresh now)).take c.capacity := by
  rw [h.fresh, filter_take_of_pairwise (h.falling.latest.pairwise_isFresh c now)]

/-- An entry is fresh exactly when it is to be remembered. -/
theorem mem_fresh_iff (h : c.Recalls history now) (e : CachedHash) :
    e ∈ c.entries ∧ c.isFresh now e = true ↔
      IsRecent CachedHash.key CachedHash.insertedAt c.capacity c.lifetime now history e := by
  have hfresh : c.isFresh now e = true ↔ now - e.insertedAt < c.lifetime := by
    rw [isFresh, decide_eq_true_eq]
  have hplace (he : e ∈ latest history) : e ∈ (latest history).take c.capacity ↔
      (keysSince CachedHash.key CachedHash.insertedAt history e.insertedAt).card < c.capacity := by
    rw [card_keysSince h.falling]
    exact mem_take_iff_length_filter h.falling.latest he c.capacity
  rw [← List.mem_filter, h.fresh, List.mem_filter, hfresh]
  constructor
  · rintro ⟨htake, hage⟩
    have he := List.mem_of_mem_take htake
    exact ⟨(mem_latest_iff h.falling e).mp he, (hplace he).mp htake, hage⟩
  · intro hrecent
    have he := (mem_latest_iff h.falling e).mpr hrecent.latest
    exact ⟨(hplace he).mpr hrecent.recent, hrecent.fresh⟩

/-- The hash under a key is the one to be remembered. -/
theorem get_eq_some_iff (h : c.Recalls history now) (key : String) (hash : List UInt8) :
    (c.get now key).1 = some hash ↔ ∃ e, e.key = key ∧ e.hash = hash ∧
      IsRecent CachedHash.key CachedHash.insertedAt c.capacity c.lifetime now history e := by
  rw [HashCache.get_eq_some_iff h.nodup_entries]
  constructor
  · rintro ⟨e, he, hkey, hhash, hfresh⟩
    exact ⟨e, hkey, hhash, (h.mem_fresh_iff e).mp ⟨he, hfresh⟩⟩
  · rintro ⟨e, hkey, hhash, hrecent⟩
    obtain ⟨he, hfresh⟩ := (h.mem_fresh_iff e).mpr hrecent
    exact ⟨e, he, hkey, hhash, hfresh⟩

/-- Time that passes takes nothing from a cache that it would have to remember. -/
theorem elapse (h : c.Recalls history now) {later : Nat} (hle : now ≤ later) :
    c.Recalls history later := by
  have hafter (list : List CachedHash) :
      list.filter (c.isFresh later) = (list.filter (c.isFresh now)).filter (c.isFresh later) := by
    rw [List.filter_filter]
    refine List.filter_congr fun e _ => ?_
    cases hlater : c.isFresh later e with
    | false => rw [Bool.false_and]
    | true => rw [isFresh_of_le hle hlater, Bool.true_and]
  refine ⟨h.falling, h.entries, ?_, h.place, h.size⟩
  rw [hafter, h.fresh, ← hafter]

/-- A look-up drops at most an entry that has expired. -/
theorem get (h : c.Recalls history now) (key : String) :
    (c.get now key).2.Recalls history now := by
  rcases c.get_snd_cases now key with hsame | ⟨e, hfind, hstale, hdropped⟩
  · rw [hsame]
    exact h
  · rw [hdropped]
    have hkey : e.key = key := by simpa using List.find?_some hfind
    have hkept : (c.entries.filter fun a => a.key ≠ key).filter (c.isFresh now) =
        c.entries.filter (c.isFresh now) := by
      rw [List.filter_comm, List.filter_eq_self]
      intro a ha
      obtain ⟨hmem, hfresh⟩ := List.mem_filter.mp ha
      refine decide_eq_true fun hsame => ?_
      -- Else it would be the entry that was found, which is not fresh.
      have hae := List.inj_on_of_nodup_map h.nodup_entries hmem
        (List.mem_of_find?_eq_some hfind) (hsame.trans hkey.symm)
      rw [hae, hstale] at hfresh
      cases hfresh
    exact ⟨h.falling, List.filter_sublist.trans h.entries, hkept.trans h.fresh, h.place,
      (List.length_filter_le _ _).trans h.size⟩

/-- An insertion puts the new hash in front of entries of other keys that leave a place for it, and
the fresh ones of these are the newest of the other keys. -/
theorem exists_insert (h : c.Recalls history now) (key : String) (hash : List UInt8) :
    ∃ others, c.insert now key hash = { c with entries := ⟨key, hash, now⟩ :: others } ∧
      others.Sublist ((latest history).filter fun old => old.key ≠ key) ∧
      others.length < c.capacity ∧
      others.filter (c.isFresh now) =
        (((latest history).filter (c.isFresh now)).filter fun old => old.key ≠ key).take
          (c.capacity - 1) := by
  have hentries := h.entries.filter fun old => decide (old.key ≠ key)
  unfold insert
  dsimp only
  by_cases hstored : (c.entries.any fun e => e.key = key) = true
  · rw [if_pos hstored]
    obtain ⟨e, he, hkey⟩ := List.any_eq_true.mp hstored
    have hlength : (c.entries.filter fun old => old.key ≠ key).length < c.capacity := by
      refine Nat.lt_of_lt_of_le ?_ h.size
      rw [List.length_filter_lt_length_iff_exists]
      exact ⟨e, he, by simpa using hkey⟩
    refine ⟨_, rfl, hentries, hlength, ?_⟩
    obtain ⟨places, hplaces⟩ : ∃ places, c.capacity = places + 1 :=
      Nat.exists_eq_add_one.mpr h.place
    rw [List.filter_comm, h.fresh_eq_take, hplaces, Nat.add_sub_cancel]
    refine filter_take_succ ?_ ?_
    · have hkeys : (((latest history).filter (c.isFresh now)).map CachedHash.key).Nodup :=
        (nodup_latest history).sublist (List.filter_sublist.map _)
      simpa using length_filter_key_le_one hkeys key
    · rw [← hplaces, ← h.fresh_eq_take, List.filter_comm]
      have hfewer := List.length_filter_le (c.isFresh now)
        (c.entries.filter fun old => old.key ≠ key)
      omega
  · rw [if_neg hstored]
    have hother : ∀ e ∈ c.entries, decide (e.key ≠ key) = true := by
      simpa using hstored
    obtain ⟨others, hothers, hsub, hlength, hfresh⟩ := room_cases h.place now
    rw [hothers]
    rw [List.filter_eq_self.mpr hother] at hentries
    refine ⟨others, rfl, hsub.trans hentries, hlength, ?_⟩
    -- No entry has the key, so the newest of the fresh ones are all of other keys.
    rw [hfresh, h.fresh_eq_take, List.take_take, Nat.min_eq_left (Nat.sub_le _ _)]
    refine (take_filter_of_forall fun e he => hother e ?_).symm
    have hmem : e ∈ ((latest history).filter (c.isFresh now)).take c.capacity :=
      (List.take_prefix_take_left (Nat.sub_le _ _)).subset he
    rw [← h.fresh_eq_take] at hmem
    exact (List.mem_filter.mp hmem).1

/-- An insertion makes a cache recall what was inserted. -/
theorem insert (h : c.Recalls history now) (hlater : ∀ e ∈ history, e.insertedAt < now)
    (key : String) (hash : List UInt8) :
    (c.insert now key hash).Recalls (⟨key, hash, now⟩ :: history) now := by
  obtain ⟨others, hinsert, hsub, hlength, hfresh⟩ := h.exists_insert key hash
  obtain ⟨places, hplaces⟩ : ∃ places, c.capacity = places + 1 :=
    Nat.exists_eq_add_one.mpr h.place
  have hfalling : IsFalling (⟨key, hash, now⟩ :: history) := .cons hlater h.falling
  rw [hinsert]
  refine ⟨hfalling, hsub.cons_cons _, ?_, h.place, hlength⟩
  rw [filter_take_of_pairwise (hfalling.latest.pairwise_isFresh _ now)]
  show (_ :: others).filter (c.isFresh now) = List.take c.capacity
    ((_ :: (latest history).filter fun old => old.key ≠ key).filter (c.isFresh now))
  cases hnew : c.isFresh now ⟨key, hash, now⟩ with
  | true =>
    rw [List.filter_cons_of_pos hnew, List.filter_cons_of_pos hnew, hfresh, hplaces,
      List.take_succ_cons, Nat.add_sub_cancel, List.filter_comm]
  | false =>
    -- Then nothing is ever fresh.
    have hstale (list : List CachedHash) : list.filter (c.isFresh now) = [] := by
      rw [List.filter_eq_nil_iff]
      intro e _ hfresh
      rw [isFresh_new_of_isFresh hfresh key hash] at hnew
      cases hnew
    rw [hstale, hstale, List.take_nil]

end Recalls

end HashCache

/-- What can happen to a cache. -/
inductive CacheEvent where
  /-- A hash is inserted under a key. -/
  | insert (key : String) (hash : List UInt8)
  /-- The hash under a key is looked up. -/
  | get (key : String)
  /-- Time passes. -/
  | elapse (time : Nat)

/-- A cache in use. -/
structure CacheUse where
  /-- The cache. -/
  cache : HashCache
  /-- What its clock shows. -/
  now : Nat
  /-- What was inserted so far, the newest first. -/
  inserted : List CachedHash := []

namespace CacheUse

/-- A new cache, at a time. -/
def opened (lifetime capacity start : Nat) : CacheUse := ⟨.new lifetime capacity, start, []⟩

/-- The cache after an event. -/
def step (u : CacheUse) : CacheEvent → CacheUse
  | .insert key hash =>
    { u with
      cache := u.cache.insert u.now key hash
      inserted := ⟨key, hash, u.now⟩ :: u.inserted }
  | .get key => { u with cache := (u.cache.get u.now key).2 }
  | .elapse time => { u with now := u.now + time }

/-- The cache after events in order. -/
def run (u : CacheUse) (events : List CacheEvent) : CacheUse := events.foldl step u

/-- No two insertions were made at one time. -/
def IsSpaced (u : CacheUse) : Prop := (u.inserted.map CachedHash.insertedAt).Nodup

/-- If no two insertions were made at one time after an event, none were before. -/
theorem IsSpaced.of_step {u : CacheUse} {event : CacheEvent} (h : (u.step event).IsSpaced) :
    u.IsSpaced := by
  cases event with
  | insert key hash => exact (List.nodup_cons.mp h).2
  | get key => exact h
  | elapse time => exact h

/-- A cache in use, with its lifetime and its places, recalls what was inserted in the past. -/
structure IsTimely (lifetime places : Nat) (u : CacheUse) : Prop where
  /-- It recalls what was inserted. -/
  recalls : u.cache.Recalls u.inserted u.now
  /-- Nothing was inserted later than now. -/
  past : ∀ e ∈ u.inserted, e.insertedAt ≤ u.now
  /-- The lifetime of an entry. -/
  lifetime : u.cache.lifetime = lifetime
  /-- The places for entries. -/
  capacity : u.cache.capacity = places

variable {lifetime places : Nat}

/-- An event keeps a cache recalling, if no two insertions are made at one time. -/
theorem IsTimely.step {u : CacheUse} (h : u.IsTimely lifetime places) {event : CacheEvent}
    (hspaced : (u.step event).IsSpaced) : (u.step event).IsTimely lifetime places := by
  cases event with
  | insert key hash =>
    have hlater := lt_of_nodup_cons hspaced h.past
    refine ⟨h.recalls.insert hlater key hash, ?_, h.lifetime, h.capacity⟩
    exact List.forall_mem_cons.mpr ⟨le_rfl, h.past⟩
  | get key =>
    have hlimits := u.cache.get_snd_limits u.now key
    exact ⟨h.recalls.get key, h.past, hlimits.1.trans h.lifetime, hlimits.2.trans h.capacity⟩
  | elapse time =>
    have hle : u.now ≤ u.now + time := Nat.le_add_right u.now time
    exact ⟨h.recalls.elapse hle, fun e he => (h.past e he).trans hle, h.lifetime, h.capacity⟩

/-- A new cache recalls what is inserted, in any run in which no two insertions are made at one
time. -/
theorem opened_run_isTimely (lifetime capacity start : Nat) {events : List CacheEvent}
    (hspaced : ((opened lifetime capacity start).run events).IsSpaced) :
    ((opened lifetime capacity start).run events).IsTimely lifetime (max 1 capacity) := by
  induction events using List.reverseRecOn with
  | nil =>
    exact ⟨HashCache.recalls_new lifetime capacity start, List.forall_mem_nil _, rfl, rfl⟩
  | append_singleton events event ih =>
    rw [run, List.foldl_append] at hspaced ⊢
    exact (ih hspaced.of_step).step hspaced

/-- Whatever was inserted and looked up before, a cache gives under a key the hash of the latest
insertion there, if that is less than the lifetime old and the key is among as many keys with the
latest insertions as there are places, and otherwise nothing; and it never has more entries than
places. So a hash that has not expired is lost only to as many newer keys; an insertion under a key
that has an entry takes nothing from other keys; and a look-up changes the outcome of no later
one, neither of the same key nor of another. -/
theorem get_eq_recent (lifetime capacity start : Nat) (events : List CacheEvent)
    (hspaced : ((opened lifetime capacity start).run events).IsSpaced) :
    let u := (opened lifetime capacity start).run events
    let places := max 1 capacity
    (∀ key hash, (u.cache.get u.now key).1 = some hash ↔ ∃ e, e.key = key ∧ e.hash = hash ∧
      IsRecent CachedHash.key CachedHash.insertedAt places lifetime u.now u.inserted e) ∧
    u.cache.size ≤ places ∧
    (∀ e, IsLatest CachedHash.key CachedHash.insertedAt u.inserted e →
      u.now - e.insertedAt < lifetime → (u.cache.get u.now e.key).1 = none →
        places ≤ (keysSince CachedHash.key CachedHash.insertedAt u.inserted e.insertedAt).card) ∧
    (∀ key hash other later, (∃ e ∈ u.cache.entries, e.key = key) → other ≠ key →
      ((u.cache.insert u.now key hash).get later other).1 = (u.cache.get later other).1) ∧
    ∀ key other later, u.now ≤ later →
      ((u.cache.get u.now key).2.get later other).1 = (u.cache.get later other).1 := by
  intro u places
  have h : u.IsTimely lifetime places := opened_run_isTimely lifetime capacity start hspaced
  have hget (key : String) (hash : List UInt8) := h.recalls.get_eq_some_iff key hash
  rw [h.lifetime, h.capacity] at hget
  refine ⟨hget, ?_, ?_, ?_, ?_⟩
  · rw [← h.capacity]
    exact h.recalls.size
  · intro e hlatest hfresh hlost
    by_contra hfew
    have hgiven := (hget e.key e.hash).mpr ⟨e, rfl, rfl, hlatest, Nat.lt_of_not_le hfew, hfresh⟩
    rw [hlost] at hgiven
    cases hgiven
  · intro key hash other later hstored hother
    exact HashCache.get_insert_fst_of_stored hstored u.now hash later hother
  · intro key other later hle
    exact u.cache.get_get_fst hle key other

/-- A cache with two places, of which one is overwritten before a third key comes. -/
def crowded : CacheUse := (opened 60 2 0).run
  [.insert "a" [1], .elapse 5, .insert "b" [2], .elapse 5, .insert "b" [3], .get "a", .elapse 5,
    .insert "c" [4], .elapse 50]

/-- Overwriting the second key did not cost the first one its place, but the third key did; and the
second key has its second hash, which has not expired yet. -/
theorem get_eq_recent_crowded :
    crowded.IsSpaced ∧ (crowded.cache.get 65 "b").1 = some [3] ∧
      (crowded.cache.get 65 "a").1 = none ∧
      keysSince CachedHash.key CachedHash.insertedAt crowded.inserted 0 = {"b", "c"} ∧
      crowded.cache.size ≤ 2 := by
  have hspaced : crowded.IsSpaced := by
    unfold IsSpaced
    decide +kernel
  obtain ⟨hget, hsize, _⟩ := get_eq_recent 60 2 0 _ hspaced
  have hkeys : keysSince CachedHash.key CachedHash.insertedAt crowded.inserted 0 = {"b", "c"} := by
    decide +kernel
  have hb : IsRecent CachedHash.key CachedHash.insertedAt 2 60 65 crowded.inserted
      ⟨"b", [3], 10⟩ := by
    refine ⟨⟨?_, ?_⟩, ?_, ?_⟩ <;> decide +kernel
  refine ⟨hspaced, (hget "b" [3]).mpr ⟨_, rfl, rfl, hb⟩, ?_, hkeys, hsize⟩
  rw [Option.eq_none_iff_forall_ne_some]
  intro hash hfound
  obtain ⟨e, hkey, _, hrecent⟩ := (hget "a" hash).mp hfound
  -- The only insertion under the first key is older than the two of the others.
  have hfirst : ∀ e ∈ crowded.inserted, e.key = "a" → e.insertedAt = 0 := by decide +kernel
  have hfew := hrecent.recent
  rw [hfirst e hrecent.latest.1 hkey] at hfew
  change (keysSince CachedHash.key CachedHash.insertedAt crowded.inserted 0).card < 2 at hfew
  rw [hkeys] at hfew
  exact absurd hfew (by decide +kernel)

end CacheUse

end BrokerAccess
