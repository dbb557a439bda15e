import Mathlib.Data.Finset.Card
import Mathlib.Data.List.Nodup
import BrokerAccess.Password.Cache

/-!
# What is recent in a history

A history is a list of entries, each with a key and a time. An entry is recent when it is the
latest of its key, its key is among a given number of keys with the latest entries, and it has
not expired. This says nothing of how a history is kept. For insertions into a cache, the
newest first, the recent ones are the first of the latest ones of each key, as far as they are
fresh.
-/

namespace BrokerAccess

section History

variable {α κ : Type} (key : α → κ) (time : α → Nat)

/-- An entry of a history is the latest one of its key. -/
def IsLatest (history : List α) (e : α) : Prop :=
  e ∈ history ∧ ∀ other ∈ history, key other = key e → time other ≤ time e

/-- The keys of the entries after a moment. -/
def keysSince [DecidableEq κ] (history : List α) (moment : Nat) : Finset κ :=
  ((history.filter fun e => moment < time e).map key).toFinset

/-- An entry of a history is one of those to remember: its key is among the `capacity` keys with
the latest entries, and it is the latest of its key and less old than `lifetime`. -/
structure IsRecent [DecidableEq κ] (capacity lifetime now : Nat) (history : List α) (e : α) :
    Prop where
  /-- It is the latest of its key. -/
  latest : IsLatest key time history e
  /-- Fewer than `capacity` keys have a later one. -/
  recent : (keysSince key time history (time e)).card < capacity
  /-- It is less old than `lifetime`. -/
  fresh : now - time e < lifetime

variable {key time} {β κ' : Type} {key' : β → κ'} {time' : β → Nat} {history : List α}

/-- What is recent stays so in another form of the history, if the form keeps times and tells keys
apart. -/
theorem isRecent_map_iff [DecidableEq κ] [DecidableEq κ'] {form : α → β} {spell : κ → κ'}
    (hkey : ∀ a, key' (form a) = spell (key a)) (htime : ∀ a, time' (form a) = time a)
    (hspell : Set.InjOn spell {k | ∃ a ∈ history, key a = k}) {capacity lifetime now : Nat}
    {e : α} (he : e ∈ history) :
    IsRecent key' time' capacity lifetime now (history.map form) (form e) ↔
      IsRecent key time capacity lifetime now history e := by
  have hsame {a : α} (ha : a ∈ history) : spell (key a) = spell (key e) ↔ key a = key e :=
    ⟨fun h => hspell ⟨a, ha, rfl⟩ ⟨e, he, rfl⟩ h, congrArg spell⟩
  have hlatest : IsLatest key' time' (history.map form) (form e) ↔ IsLatest key time history e := by
    simp only [IsLatest, List.forall_mem_map, hkey, htime, he, List.mem_map_of_mem he, true_and]
    exact forall₂_congr fun a ha => by rw [hsame ha]
  have hsince (moment : Nat) : keysSince key' time' (history.map form) moment =
      (keysSince key time history moment).image spell := by
    ext k
    simp only [keysSince, List.mem_toFinset, List.mem_map, List.mem_filter, Finset.mem_image,
      decide_eq_true_eq]
    constructor
    · rintro ⟨_, ⟨⟨a, ha, rfl⟩, hafter⟩, rfl⟩
      exact ⟨key a, ⟨a, ⟨ha, htime a ▸ hafter⟩, rfl⟩, (hkey a).symm⟩
    · rintro ⟨_, ⟨a, ⟨ha, hafter⟩, rfl⟩, rfl⟩
      exact ⟨form a, ⟨⟨a, ha, rfl⟩, (htime a).symm ▸ hafter⟩, hkey a⟩
  have hcard : (keysSince key' time' (history.map form) (time' (form e))).card =
      (keysSince key time history (time e)).card := by
    rw [hsince, htime]
    refine Finset.card_image_of_injOn (hspell.mono fun k hk => ?_)
    obtain ⟨a, ha, hak⟩ := List.mem_map.mp (List.mem_toFinset.mp hk)
    exact ⟨a, (List.mem_filter.mp ha).1, hak⟩
  constructor
  · intro h
    exact ⟨hlatest.mp h.latest, hcard ▸ h.recent, htime e ▸ h.fresh⟩
  · intro h
    exact ⟨hlatest.mpr h.latest, hcard.symm ▸ h.recent, (htime e).symm ▸ h.fresh⟩

end History

section Lists

variable {α : Type}

/-- Where whatever passes is preceded only by what passes, the first ones that pass are those among
the first ones. -/
theorem filter_take_of_pairwise {p : α → Bool} {list : List α}
    (h : list.Pairwise fun a b => p b = true → p a = true) (n : Nat) :
    (list.take n).filter p = (list.filter p).take n := by
  induction list generalizing n with
  | nil => simp only [List.take_nil, List.filter_nil]
  | cons a rest ih =>
    rw [List.pairwise_cons] at h
    cases n with
    | zero => simp only [List.take_zero, List.filter_nil]
    | succ n =>
      by_cases ha : p a = true
      · rw [List.take_succ_cons, List.filter_cons_of_pos ha, List.filter_cons_of_pos ha,
          List.take_succ_cons, ih h.2]
      · -- Nothing passes any more.
        have hrest : (a :: rest).filter p = [] := by
          rw [List.filter_eq_nil_iff]
          intro b hb hp
          rcases List.mem_cons.mp hb with rfl | hb
          · exact ha hp
          · exact ha (h.1 b hb hp)
        rw [hrest, List.take_nil, List.filter_eq_nil_iff]
        intro b hb
        exact List.filter_eq_nil_iff.mp hrest b (List.mem_of_mem_take hb)

/-- In a list that falls, an entry is one of the first `n` exactly when fewer than `n` are above
it. -/
theorem mem_take_iff_length_filter {time : α → Nat} {list : List α}
    (h : list.Pairwise fun a b => time b < time a) {e : α} (he : e ∈ list) (n : Nat) :
    e ∈ list.take n ↔ (list.filter fun a => time e < time a).length < n := by
  induction list generalizing n with
  | nil => exact absurd he List.not_mem_nil
  | cons a rest ih =>
    rw [List.pairwise_cons] at h
    cases n with
    | zero => simp only [List.take_zero, List.not_mem_nil, Nat.not_lt_zero]
    | succ n =>
      rw [List.take_succ_cons, List.mem_cons]
      by_cases hea : e = a
      · subst hea
        have hnone : ((e :: rest).filter fun a => time e < time a) = [] := by
          simp only [List.filter_eq_nil_iff, List.mem_cons, forall_eq_or_imp, decide_eq_true_eq]
          exact ⟨Nat.lt_irrefl _, fun b hb => Nat.lt_asymm (h.1 b hb)⟩
        simp only [hnone, List.length_nil, Nat.zero_lt_succ, true_or]
      · have hrest : e ∈ rest := (List.mem_cons.mp he).resolve_left hea
        have habove : ((a :: rest).filter fun b => time e < time b) =
            a :: rest.filter fun b => time e < time b :=
          List.filter_cons_of_pos (decide_eq_true (h.1 e hrest))
        rw [habove, List.length_cons, Nat.succ_lt_succ_iff, ← ih h.2 hrest n]
        simp only [hea, false_or]

/-- If only one is taken out, and there is room for the others, then the others of the first ones
are the first of the others. -/
theorem filter_take_succ {p : α → Bool} {list : List α} {n : Nat}
    (hone : (list.filter fun a => !p a).length ≤ 1)
    (hroom : ((list.take (n + 1)).filter p).length ≤ n) :
    (list.take (n + 1)).filter p = (list.filter p).take n := by
  by_cases hall : list.length ≤ n + 1
  · rw [List.take_of_length_le hall] at hroom ⊢
    rw [List.take_of_length_le hroom]
  · have hfirst := (List.take_prefix (n + 1) list).filter p
    have hsplit := List.length_eq_length_filter_add (l := list.take (n + 1)) p
    have hout : ((list.take (n + 1)).filter fun a => !p a).length ≤ 1 :=
      (((List.take_sublist (n + 1) list).filter _).length_le).trans hone
    rw [List.length_take_of_le (by omega)] at hsplit
    have hlength : ((list.take (n + 1)).filter p).length = n := by omega
    rw [List.prefix_iff_eq_take.mp hfirst, hlength]

/-- If all of the first ones pass, they are the first that pass. -/
theorem take_filter_of_forall {p : α → Bool} {list : List α} {n : Nat}
    (h : ∀ a ∈ list.take n, p a = true) : (list.filter p).take n = list.take n := by
  induction list generalizing n with
  | nil => simp only [List.filter_nil]
  | cons a rest ih =>
    cases n with
    | zero => simp only [List.take_zero]
    | succ n =>
      rw [List.take_succ_cons, List.forall_mem_cons] at h
      rw [List.filter_cons_of_pos h.1, List.take_succ_cons, List.take_succ_cons, ih h.2]

/-- A moment that is no earlier than any other and was not there before is the latest. -/
theorem lt_of_nodup_cons {time : α → Nat} {list : List α} {now : Nat}
    (h : (now :: list.map time).Nodup) (hpast : ∀ a ∈ list, time a ≤ now) :
    ∀ a ∈ list, time a < now := by
  intro a ha
  refine Nat.lt_of_le_of_ne (hpast a ha) fun hnow => ?_
  exact (List.nodup_cons.mp h).1 (List.mem_map.mpr ⟨a, ha, hnow⟩)

end Lists

namespace HashCache

/-- The latest insertion of each key, in a history that has the newest first. -/
def latest : List CachedHash → List CachedHash
  | [] => []
  | e :: earlier => e :: (latest earlier).filter fun old => old.key ≠ e.key

/-- Every insertion of a history that has the newest first was later than those before it. -/
def IsFalling (history : List CachedHash) : Prop :=
  history.Pairwise fun later earlier => earlier.insertedAt < later.insertedAt

section Latest

variable {history : List CachedHash}

/-- The latest insertions are insertions, in the same order. -/
theorem latest_sublist (history : List CachedHash) : (latest history).Sublist history := by
  induction history with
  | nil => exact .slnil
  | cons e earlier ih => exact (List.filter_sublist.trans ih).cons_cons e

/-- The latest insertions fall, too. -/
theorem IsFalling.latest (h : IsFalling history) : IsFalling (latest history) :=
  h.sublist (latest_sublist history)

/-- Each key has one latest insertion. -/
theorem nodup_latest (history : List CachedHash) :
    ((latest history).map CachedHash.key).Nodup := by
  induction history with
  | nil => exact .nil
  | cons e earlier ih =>
    rw [latest, List.map_cons, List.nodup_cons]
    refine ⟨?_, ih.sublist (List.filter_sublist.map _)⟩
    intro hmem
    obtain ⟨old, hold, hkey⟩ := List.mem_map.mp hmem
    exact of_decide_eq_true (List.mem_filter.mp hold).2 hkey

/-- The latest insertions are those after which there is no other of their key. -/
theorem mem_latest_iff (h : IsFalling history) (e : CachedHash) :
    e ∈ latest history ↔ IsLatest CachedHash.key CachedHash.insertedAt history e := by
  induction history with
  | nil => simp only [latest, IsLatest, List.not_mem_nil, false_and]
  | cons new earlier ih =>
    obtain ⟨hnew, hearlier⟩ := List.pairwise_cons.mp h
    simp only [latest, List.mem_cons, List.mem_filter, decide_eq_true_eq, ih hearlier]
    unfold IsLatest
    rw [List.mem_cons, List.forall_mem_cons]
    constructor
    · rintro (rfl | ⟨⟨he, hlatest⟩, hkey⟩)
      · exact ⟨.inl rfl, fun _ => le_rfl, fun other hother _ => (hnew other hother).le⟩
      · exact ⟨.inr he, fun hsame => absurd hsame.symm hkey, hlatest⟩
    · rintro ⟨rfl | he, hfirst, hlatest⟩
      · exact .inl rfl
      · refine .inr ⟨⟨he, hlatest⟩, fun hsame => ?_⟩
        exact absurd (hfirst hsame.symm) (Nat.not_le.mpr (hnew e he))

/-- Every insertion is followed by a latest one of its key, or is one. -/
theorem exists_latest (h : IsFalling history) {e : CachedHash} (he : e ∈ history) :
    ∃ last ∈ latest history, last.key = e.key ∧ e.insertedAt ≤ last.insertedAt := by
  induction history with
  | nil => exact absurd he List.not_mem_nil
  | cons new earlier ih =>
    obtain ⟨hnew, hearlier⟩ := List.pairwise_cons.mp h
    rcases List.mem_cons.mp he with rfl | he
    · exact ⟨e, List.mem_cons_self, rfl, le_rfl⟩
    · by_cases hkey : e.key = new.key
      · exact ⟨new, List.mem_cons_self, hkey.symm, (hnew e he).le⟩
      · obtain ⟨last, hlast, hsame, hle⟩ := ih hearlier he
        refine ⟨last, List.mem_cons_of_mem _ (List.mem_filter.mpr ⟨hlast, ?_⟩), hsame, hle⟩
        exact decide_eq_true (hsame ▸ hkey)

/-- As many keys were used since a moment as there are latest insertions after it. -/
theorem card_keysSince (h : IsFalling history) (moment : Nat) :
    (keysSince CachedHash.key CachedHash.insertedAt history moment).card =
      ((latest history).filter fun e => moment < e.insertedAt).length := by
  have hkeys : keysSince CachedHash.key CachedHash.insertedAt history moment =
      (((latest history).filter fun e => moment < e.insertedAt).map CachedHash.key).toFinset := by
    ext key
    simp only [keysSince, List.mem_toFinset, List.mem_map, List.mem_filter, decide_eq_true_eq]
    constructor
    · rintro ⟨e, ⟨he, hafter⟩, rfl⟩
      obtain ⟨last, hlast, hsame, hle⟩ := exists_latest h he
      exact ⟨last, ⟨hlast, hafter.trans_le hle⟩, hsame⟩
    · rintro ⟨e, ⟨he, hafter⟩, rfl⟩
      exact ⟨e, ⟨(latest_sublist history).subset he, hafter⟩, rfl⟩
  have hnodup : (((latest history).filter fun e => moment < e.insertedAt).map
      CachedHash.key).Nodup :=
    (nodup_latest history).sublist (List.filter_sublist.map _)
  rw [hkeys, List.toFinset_card_of_nodup hnodup, List.length_map]

end Latest

end HashCache

end BrokerAccess
