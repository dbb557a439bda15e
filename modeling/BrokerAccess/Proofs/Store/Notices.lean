import Mathlib.Data.List.Chain
import BrokerAccess.Proofs.Store.History

/-!
# What subscribers hear

As long as no subscriber fails, a look that puts a record in effect calls all who have
subscribed so far, once each and in their order, with the record before and the new one; no
other look calls anybody. So what one subscriber hears leads from the record that was in effect
when it subscribed to the one in effect now, each call starting from what the last one put in
effect.
-/

namespace BrokerAccess

open Files (Path Tree)

/-- Calls lead from one record in effect to another: each is about the record that the one before
put in effect. -/
def LeadsTo : (current : Option Credentials) → List Notice → (last : Option Credentials) → Prop
  | current, [], last => last = current
  | current, call :: rest, last => call.old = current ∧ LeadsTo (some call.new) rest last

namespace LeadsTo

variable {first middle last : Option Credentials} {calls more : List Notice}

/-- Calls that go on where others ended lead on. -/
theorem append (h : LeadsTo first calls middle) (h' : LeadsTo middle more last) :
    LeadsTo first (calls ++ more) last := by
  induction calls generalizing first with
  | nil =>
    obtain rfl : middle = first := h
    exact h'
  | cons call rest ih => exact ⟨h.1, ih h.2⟩

/-- The first call is about the record that was in effect. -/
theorem head? (h : LeadsTo first calls last) : ∀ call ∈ calls.head?, call.old = first := by
  cases calls with
  | nil => simp
  | cons call rest =>
    rw [List.head?_cons]
    rintro _ ⟨⟩
    exact h.1

/-- Each call is about the record that the one before put in effect. -/
theorem isChain (h : LeadsTo first calls last) :
    calls.IsChain fun earlier later => later.old = some earlier.new := by
  induction calls generalizing first with
  | nil => exact List.isChain_nil
  | cons call rest ih => exact List.isChain_cons.mpr ⟨h.2.head?, ih h.2⟩

/-- The last call put in effect what is in effect now. -/
theorem getLast? (h : LeadsTo first calls last) :
    ∀ call ∈ calls.getLast?, last = some call.new := by
  induction calls generalizing first with
  | nil => simp
  | cons call rest ih =>
    cases rest with
    | nil =>
      rw [List.getLast?_singleton]
      rintro _ ⟨⟩
      exact h.2
    | cons next rest =>
      rw [List.getLast?_cons_cons]
      exact ih h.2

end LeadsTo

/-- Who subscribes in a turn, if anybody does. -/
def Turn.subscriber? : Turn → Option Subscriber
  | .disk _ => none
  | .subscribe subscriber => some subscriber
  | .reload _ => none

namespace Site

/-- No subscriber cuts off the look of a turn, if it is one. -/
def IsUncut (site : Site) : Turn → Prop
  | .disk _ => True
  | .subscribe _ => True
  | .reload moment => (site.look moment).outcome ≠ none

/-- The call in a turn of the subscriber at some place in the order of subscription, if it is
called. -/
def hears (i : Nat) (site : Site) : Turn → List Notice
  | .disk _ => []
  | .subscribe _ => []
  | .reload moment => (site.look moment).notices[i]?.toList

variable {site : Site} {i : Nat}

/-- Nobody has subscribed at the opening of a site. -/
theorem opened_subscribers (home : Path) (scheme : PasswordScheme) (t : Tree) :
    (opened home scheme t).store.subscribers = [] := by
  rw [opened, Store.ofTree_fst]

/-- In the course of a site, those who subscribe join those who have. -/
theorem course_subscribers (site : Site) (turns : List Turn) :
    (site.course turns).store.subscribers =
      site.store.subscribers ++ turns.filterMap Turn.subscriber? := by
  induction turns generalizing site with
  | nil => exact (List.append_nil _).symm
  | cons turn rest ih =>
    have hcourse : (site.course (turn :: rest)).store.subscribers = _ := ih (site.turn turn)
    rw [hcourse]
    cases turn with
    | disk tree => rfl
    | subscribe subscriber => exact List.append_assoc ..
    | reload moment =>
      have hsame : (site.turn (.reload moment)).store.subscribers = site.store.subscribers :=
        site.store.reload_subscribers moment site.tree
      rw [hsame]
      rfl

/-- A look that is not cut off calls nobody and leaves the record in effect, or it puts a record in
effect and tells all subscribers. -/
theorem notices_cases {moment : ArchiveTime} (h : site.IsUncut (.reload moment)) :
    ((site.look moment).outcome ≠ some .reloaded ∧ (site.look moment).notices = [] ∧
      (site.look moment).store.current = site.store.current) ∨
    (site.look moment).outcome = some .reloaded ∧ ∃ new,
      (site.look moment).store.current = some new ∧
      (site.look moment).notices =
        site.store.subscribers.map fun s => ⟨s.recipient, site.store.current, new⟩ := by
  rcases site.store.reload_cases moment site.tree with
    ⟨outcome, hne, houtcome, hnotices, _, hstore⟩ |
    ⟨record, time, _, houtcome, hnotices, _, hstore⟩
  · refine Or.inl ⟨?_, hnotices, by rw [look, hstore]⟩
    rw [look, houtcome]
    exact fun he => hne (Option.some.inj he)
  · have hfinished : (deliver site.store.current record site.store.subscribers).2 = true := by
      by_contra hcut
      rw [if_neg hcut] at houtcome
      exact h houtcome
    rw [if_pos hfinished] at houtcome
    rw [deliver_of_finished hfinished] at hnotices
    exact Or.inr ⟨houtcome, record, by rw [look, hstore], hnotices⟩

/-- What a subscriber hears in a turn leads from the record in effect before to the one after. -/
theorem leadsTo_hears {turn : Turn} (h : site.IsUncut turn)
    (hi : i < site.store.subscribers.length) :
    LeadsTo site.store.current (site.hears i turn) (site.turn turn).store.current := by
  cases turn with
  | disk tree => rfl
  | subscribe subscriber => rfl
  | reload moment =>
    rcases notices_cases h with ⟨_, hnotices, hcurrent⟩ | ⟨_, new, hcurrent, hnotices⟩
    · rw [hears, hnotices]
      exact hcurrent
    · rw [hears, hnotices, List.getElem?_map, List.getElem?_eq_getElem hi]
      exact ⟨rfl, hcurrent⟩

/-- What a subscriber hears in a course leads from the record in effect before to the one after. -/
theorem leadsTo_along_hears {turns : List Turn} (h : site.Throughout IsUncut turns)
    (hi : i < site.store.subscribers.length) :
    LeadsTo site.store.current (site.along (hears i) turns)
      (site.course turns).store.current := by
  induction turns generalizing site with
  | nil => rfl
  | cons turn rest ih =>
    have hlater : i < (site.turn turn).store.subscribers.length := by
      have hjoin : (site.turn turn).store.subscribers = _ := site.course_subscribers [turn]
      rw [hjoin, List.length_append]
      omega
    exact (leadsTo_hears h.1 hi).append (ih h.2 hlater)

/-- Nobody hears anything before subscribing. -/
theorem along_hears_eq_nil {turns : List Turn} (h : site.Throughout IsUncut turns)
    (hi : (site.course turns).store.subscribers.length ≤ i) : site.along (hears i) turns = [] := by
  induction turns generalizing site with
  | nil => rfl
  | cons turn rest ih =>
    have hnow : site.store.subscribers.length ≤ i := by
      rw [course_subscribers, List.length_append] at hi
      omega
    have hsilent : site.hears i turn = [] := by
      cases turn with
      | disk tree => rfl
      | subscribe subscriber => rfl
      | reload moment =>
        rcases notices_cases h.1 with ⟨_, hnotices, _⟩ | ⟨_, new, _, hnotices⟩
        · rw [hears, hnotices]
          rfl
        · rw [hears, hnotices, List.getElem?_map, List.getElem?_eq_none hnow]
          rfl
    rw [along, hsilent, ih h.2 hi]
    rfl

/-- What a subscriber hears in a course leads from the record in effect when it subscribed to the
one after the course. -/
theorem leadsTo_of_subscribe {turns before after : List Turn} {subscriber : Subscriber}
    (h : site.Throughout IsUncut turns)
    (hturns : turns = before ++ .subscribe subscriber :: after) :
    LeadsTo (site.course before).store.current
      (site.along (hears (site.course before).store.subscribers.length) turns)
      (site.course turns).store.current := by
  subst hturns
  obtain ⟨hbefore, -, hafter⟩ := throughout_append.mp h
  have hcourse : site.course (before ++ .subscribe subscriber :: after) =
      ((site.course before).turn (.subscribe subscriber)).course after := List.foldl_append
  have hjoins : (site.course before).store.subscribers.length <
      ((site.course before).turn (.subscribe subscriber)).store.subscribers.length := by
    rw [turn, Store.subscribe, List.length_append]
    exact Nat.lt_succ_self _
  have hheard := leadsTo_along_hears hafter hjoins
  rw [hcourse, along_append, along_hears_eq_nil hbefore (Nat.le_refl _)]
  exact hheard

/-- As long as no subscriber fails, a look that ends with a new record calls all who have subscribed
before, once each and in their order, about the record in effect before and the one in effect after;
and no other look calls anybody. What a subscriber hears is a chain: it starts from the record in
effect at the subscription, every call is about the record that the last one told of, and the last
one told of the record that is in effect. -/
theorem hears_chain (home : Path) (scheme : PasswordScheme) (t : Tree) (turns : List Turn)
    (huncut : (opened home scheme t).Throughout IsUncut turns) :
    let start := opened home scheme t
    (∀ before moment after, turns = before ++ .reload moment :: after →
      let site := start.course before
      let reload := site.look moment
      (reload.outcome = some .reloaded → ∃ new, reload.store.current = some new ∧
        reload.notices = (before.filterMap Turn.subscriber?).map fun s =>
          ⟨s.recipient, site.store.current, new⟩) ∧
      (reload.outcome ≠ some .reloaded → reload.notices = [])) ∧
    ∀ before subscriber after, turns = before ++ .subscribe subscriber :: after →
      let heard := start.along (hears (before.filterMap Turn.subscriber?).length) turns
      (∀ first ∈ heard.head?, first.old = (start.course before).store.current) ∧
      heard.IsChain (fun earlier later => later.old = some earlier.new) ∧
      ∀ last ∈ heard.getLast?, (start.course turns).store.current = some last.new := by
  intro start
  have hjoined (before : List Turn) :
      (start.course before).store.subscribers = before.filterMap Turn.subscriber? := by
    rw [course_subscribers, opened_subscribers, List.nil_append]
  constructor
  · intro before moment after hturns site reload
    have hsite : site.IsUncut (.reload moment) := huncut.of_eq_append hturns
    rw [← hjoined before]
    rcases notices_cases hsite with ⟨hne, hnotices, _⟩ | ⟨houtcome, new, hcurrent, hnotices⟩
    · exact ⟨fun he => absurd he hne, fun _ => hnotices⟩
    · exact ⟨fun _ => ⟨new, hcurrent, hnotices⟩, fun hne => absurd houtcome hne⟩
  · intro before subscriber after hturns heard
    have hleads : LeadsTo (start.course before).store.current heard
        (start.course turns).store.current := by
      have hheard := leadsTo_of_subscribe huncut hturns
      rwa [hjoined before] at hheard
    exact ⟨hleads.head?, hleads.isChain, hleads.getLast?⟩

/-- Where no subscriber ever fails, no look is cut off. -/
theorem isUncut_of_calm (h : ∀ s ∈ site.store.subscribers, ∀ old new, s.fails old new = false)
    (turn : Turn) : site.IsUncut turn := by
  cases turn with
  | disk tree => trivial
  | subscribe subscriber => trivial
  | reload moment =>
    rw [IsUncut, look]
    rcases site.store.reload_cases moment site.tree with
      ⟨_, _, houtcome, _⟩ | ⟨record, _, _, houtcome, _⟩
    · simp [houtcome]
    · rw [houtcome, deliver_of_calm fun s hs => h s hs site.store.current record]
      simp

/-- As long as nobody subscribes who can fail, no look is cut off. -/
theorem throughout_isUncut {turns : List Turn}
    (h : ∀ s ∈ site.store.subscribers ++ turns.filterMap Turn.subscriber?,
      ∀ old new, s.fails old new = false) : site.Throughout IsUncut turns := by
  induction turns generalizing site with
  | nil => trivial
  | cons turn rest ih =>
    refine ⟨isUncut_of_calm (fun s hs => h s (List.mem_append_left _ hs)) turn, ih ?_⟩
    have hjoin : (site.turn turn).store.subscribers = _ := site.course_subscribers [turn]
    rwa [hjoin, List.append_assoc, ← List.filterMap_append]

/-- An observer that never fails. -/
def listener : Subscriber := { recipient := .observer "log" }

/-- When one record replaces another, the listener is called with both. -/
theorem hears_chain_exchange :
    let site := (opened srv .plain emptyHome).course (.subscribe listener :: exchange.take 3)
    (site.look ⟨7, "one"⟩).outcome = some .reloaded ∧
      (site.look ⟨7, "one"⟩).notices = [⟨.observer "log", some soleReader, soleWriter⟩] := by
  intro site
  have huncut : (opened srv .plain emptyHome).Throughout IsUncut
      (.subscribe listener :: exchange) := by
    apply throughout_isUncut
    rw [opened_subscribers]
    intro s hs old new
    obtain rfl : s = listener := List.mem_singleton.mp hs
    rfl
  obtain ⟨hlooks, _⟩ := hears_chain srv .plain emptyHome (.subscribe listener :: exchange) huncut
  obtain ⟨hreloaded, _⟩ := hlooks (.subscribe listener :: exchange.take 3) ⟨7, "one"⟩ [] rfl
  obtain ⟨_, hfresh, hcurrent, _⟩ :=
    ((opened_isKept srv .plain emptyHome).turn (.subscribe listener)).finding_exchange
      opened_emptyHome_current
  obtain ⟨hpromotes, hstore⟩ := turn_of_fresh hfresh ⟨7, "one"⟩
  have houtcome : (site.look ⟨7, "one"⟩).outcome = some .reloaded := by
    have hended : (site.look ⟨7, "one"⟩).outcome ≠ none :=
      huncut.of_eq_append (show _ = (.subscribe listener :: exchange.take 3) ++ _ from rfl)
    obtain ⟨outcome, houtcome⟩ := Option.ne_none_iff_exists'.mp hended
    have hall : (site.look ⟨7, "one"⟩).outcome.all (· = .reloaded) = true := hpromotes
    rw [houtcome] at hall ⊢
    exact congrArg some (of_decide_eq_true hall)
  obtain ⟨new, hnew, hnotices⟩ := hreloaded houtcome
  have hwriter : (site.look ⟨7, "one"⟩).store.current = some soleWriter :=
    congrArg Store.current hstore
  obtain rfl : soleWriter = new := Option.some.inj (hwriter.symm.trans hnew)
  have hreader : site.store.current = some soleReader := hcurrent
  have hcalls : (site.look ⟨7, "one"⟩).notices =
      [⟨.observer "log", site.store.current, soleWriter⟩] := hnotices
  exact ⟨houtcome, by rw [hcalls, hreader]⟩

end Site

end BrokerAccess
