import BrokerAccess.Reloading.Schedule
import Mathlib.Data.List.Chain

/-!
# Timetables

A timetable says which ticks are served while time passes in spans, and knows nothing else. The
ticker of a schedule keeps to it as long as the clock can show when the next tick is due, and fails
for good when the clock cannot. Nudges, and an end of them, do not move the ticks.
-/

namespace BrokerAccess

/-- A tick that was served. -/
structure Tick where
  /-- When it was due. -/
  due : Nat
  /-- When it was served. -/
  served : Nat
  deriving DecidableEq, Repr

/-- When the tick after this one is due: an interval after this one was served if that was late, and
an interval after it was due if it was served in time. -/
def Tick.next (interval : Nat) (tick : Tick) : Nat :=
  if tick.due + Ticker.tolerance < tick.served then tick.served + interval
  else tick.due + interval

/-- The ticks that are served while time passes. -/
structure Timetable where
  /-- The time that has passed. -/
  now : Nat := 0
  /-- The ticks served so far, in order. -/
  ticks : List Tick := []
  deriving DecidableEq, Repr

/-- A tick that was served no more than five milliseconds late is followed an interval after it was
due, and any later one an interval after it was served. -/
theorem Tick.next_cases (interval : Nat) (tick : Tick) :
    (tick.served ≤ tick.due + 5 → tick.next interval = tick.due + interval) ∧
      (tick.due + 5 < tick.served → tick.next interval = tick.served + interval) :=
  ⟨fun h => if_neg (Nat.not_lt.mpr h), fun h => if_pos h⟩

namespace Timetable

/-- When the next tick is due: an interval after the start, or after the last tick served. -/
def due (interval : Nat) (table : Timetable) : Nat :=
  (table.ticks.getLast?.map (Tick.next interval)).getD interval

/-- The timetable after a span of time, at whose end one tick is served if one is due by then. -/
def pass (interval : Nat) (table : Timetable) (span : Nat) : Timetable :=
  let now := table.now + span
  ⟨now, if now < table.due interval then table.ticks
    else table.ticks ++ [⟨table.due interval, now⟩]⟩

/-- The timetable after spans of time. -/
def after (interval : Nat) (table : Timetable) (spans : List Nat) : Timetable :=
  spans.foldl (pass interval) table

/-- The ticker that keeps to a timetable, if the clock can show when the next tick is due. -/
def ticker? (reading interval : Nat) (table : Timetable) : Option Ticker :=
  if Ticker.canShow reading (table.due interval) then
    some ⟨reading, interval, table.now, table.due interval⟩
  else none

variable {reading interval : Nat} {table : Timetable}

/-- When the next tick is due after a span of time. -/
theorem due_pass (interval : Nat) (table : Timetable) (span : Nat) :
    (table.pass interval span).due interval =
      if table.now + span < table.due interval then table.due interval
      else Tick.next interval ⟨table.due interval, table.now + span⟩ := by
  unfold pass
  dsimp only
  split
  · rfl
  · rw [due, List.getLast?_concat]
    rfl

/-- The next tick is never due earlier than it was. -/
theorem due_le_due_pass (interval : Nat) (table : Timetable) (span : Nat) :
    table.due interval ≤ (table.pass interval span).due interval := by
  rw [due_pass]
  split
  · exact Nat.le_refl _
  · unfold Tick.next
    dsimp only
    split <;> omega

/-- The next tick is never due earlier than it was, however much time passes. -/
theorem due_le_due_after (interval : Nat) (table : Timetable) (spans : List Nat) :
    table.due interval ≤ (table.after interval spans).due interval := by
  induction spans generalizing table with
  | nil => exact Nat.le_refl _
  | cons span rest ih =>
    exact Nat.le_trans (due_le_due_pass interval table span) (ih (table.pass interval span))

/-- Time passes in one part of the spans and then in the other. -/
theorem after_append (interval : Nat) (table : Timetable) (first second : List Nat) :
    table.after interval (first ++ second) =
      (table.after interval first).after interval second := List.foldl_append

/-- The next tick stays due within an interval of the present time. -/
theorem due_pass_le (h : table.due interval ≤ table.now + interval) (span : Nat) :
    (table.pass interval span).due interval ≤ (table.pass interval span).now + interval := by
  rw [due_pass]
  have hnow : (table.pass interval span).now = table.now + span := rfl
  rw [hnow]
  split
  · omega
  · unfold Tick.next
    dsimp only
    split <;> omega

/-- The next tick stays due within an interval of the present time, however much time passes. -/
theorem due_after_le (h : table.due interval ≤ table.now + interval) (spans : List Nat) :
    (table.after interval spans).due interval ≤ (table.after interval spans).now + interval := by
  induction spans generalizing table with
  | nil => exact h
  | cons span rest ih => exact ih (due_pass_le h span)

/-- What comes before a time that a clock can show, the clock can show. -/
theorem canShow_of_le {time later : Nat} (hle : time ≤ later)
    (h : Ticker.canShow reading later = true) : Ticker.canShow reading time = true := by
  rw [Ticker.canShow, decide_eq_true_eq] at h ⊢
  omega

/-- The ticks of a timetable were due when they had to be, and none was served early. -/
structure IsRegular (interval : Nat) (table : Timetable) : Prop where
  /-- The first tick was due an interval after the start. -/
  first : ∀ tick ∈ table.ticks.head?, tick.due = interval
  /-- Every other tick was due when the one before it said. -/
  next : table.ticks.IsChain fun tick later => later.due = tick.next interval
  /-- No tick was served before it was due. -/
  served : ∀ tick ∈ table.ticks, tick.due ≤ tick.served

/-- Ticks stay regular while a span of time passes. -/
theorem IsRegular.pass (h : table.IsRegular interval) (span : Nat) :
    (table.pass interval span).IsRegular interval := by
  unfold Timetable.pass
  dsimp only
  split
  · exact ⟨h.first, h.next, h.served⟩
  next hdue =>
    refine ⟨?_, ?_, ?_⟩
    · intro tick htick
      rw [List.head?_append] at htick
      cases hticks : table.ticks with
      | nil =>
        rw [hticks] at htick
        obtain rfl := Option.some.inj htick
        rw [due, hticks]
        rfl
      | cons first rest =>
        rw [hticks] at htick
        exact h.first tick (hticks ▸ htick)
    · refine h.next.append (List.isChain_singleton _) fun tick htick later hlater => ?_
      obtain rfl := Option.some.inj hlater
      rw [due, htick]
      rfl
    · intro tick htick
      rcases List.mem_append.mp htick with hbefore | hnow
      · exact h.served tick hbefore
      · obtain rfl := List.mem_singleton.mp hnow
        exact Nat.not_lt.mp hdue

/-- The ticks of a timetable that begins empty are regular. -/
theorem isRegular_after (interval : Nat) (spans : List Nat) :
    (after interval {} spans).IsRegular interval := by
  have hkeeps (table : Timetable) (h : table.IsRegular interval) :
      (table.after interval spans).IsRegular interval := by
    induction spans generalizing table with
    | nil => exact h
    | cons span rest ih => exact ih (table.pass interval span) (h.pass span)
  exact hkeeps {} ⟨nofun, List.isChain_nil, nofun⟩

/-- There is a ticker as long as the clock can show when the next tick is due. -/
theorem isSome_ticker? (reading interval : Nat) (table : Timetable) :
    (table.ticker? reading interval).isSome = Ticker.canShow reading (table.due interval) := by
  unfold ticker?
  cases Ticker.canShow reading (table.due interval) <;> rfl

/-- A span of time adds one tick if the next one is due at its end, and none otherwise. -/
theorem length_ticks_pass (interval : Nat) (table : Timetable) (span : Nat) :
    (table.pass interval span).ticks.length =
      table.ticks.length + if table.now + span < table.due interval then 0 else 1 := by
  rw [pass]
  split <;> simp

/-- A ticker starts with the empty timetable. -/
theorem start?_eq (reading seconds : Nat) :
    Ticker.start? reading seconds = ticker? reading (seconds * 1000) {} := rfl

/-- A ticker that keeps to a timetable goes on with it, and ticks when the timetable does. -/
theorem advance?_eq {ticker : Ticker} (h : table.ticker? reading interval = some ticker)
    (span : Nat) : ticker.advance? span =
      ((table.pass interval span).ticker? reading interval).map
        (·, !decide (table.now + span < table.due interval)) := by
  unfold ticker? at h
  split at h
  next hshow =>
    obtain rfl := Option.some.inj h
    rw [ticker?, due_pass, Ticker.advance?]
    dsimp only
    by_cases hearly : table.now + span < table.due interval
    · simp only [hearly, if_true, hshow, Option.map_some, decide_true, Bool.not_true]
      rfl
    · have hnext : (if table.due interval + Ticker.tolerance < table.now + span then
          table.now + span else table.due interval) + interval =
            Tick.next interval ⟨table.due interval, table.now + span⟩ := by
        unfold Tick.next
        dsimp only
        split <;> rfl
      simp only [hearly, if_false, hnext, decide_false, Bool.not_false]
      split <;> rfl
  next => cases h

/-- A ticker that the clock has failed stays so. -/
theorem ticker?_pass_of_none (h : table.ticker? reading interval = none) (span : Nat) :
    (table.pass interval span).ticker? reading interval = none := by
  unfold ticker? at h ⊢
  split at h
  · cases h
  next hshow =>
    rw [if_neg]
    intro hlater
    exact hshow (canShow_of_le (due_le_due_pass interval table span) hlater)

end Timetable

/-! ## Schedules -/

namespace Schedule

variable {s : Schedule} {reading interval : Nat} {table : Timetable}

/-- A schedule that keeps to a timetable goes on with it while time passes. -/
theorem step_elapse (h : s.ticker = table.ticker? reading interval) (span : Nat) :
    (s.step (.elapse span)).schedule =
        ⟨(table.pass interval span).ticker? reading interval, s.nudgeable⟩ ∧
      (s.step (.elapse span)).reloads =
        (((table.pass interval span).ticker? reading interval).isSome &&
          !decide (table.now + span < table.due interval)) := by
  unfold step
  cases hticker : s.ticker with
  | none =>
    rw [hticker] at h
    rw [Timetable.ticker?_pass_of_none h.symm]
    refine ⟨?_, rfl⟩
    dsimp only
    rw [← hticker]
  | some ticker =>
    rw [hticker] at h
    dsimp only
    rw [Timetable.advance?_eq h.symm]
    cases (table.pass interval span).ticker? reading interval <;> exact ⟨rfl, rfl⟩

/-- A nudge is a reload if the schedule has not ended and its channel is open. -/
theorem step_nudge (s : Schedule) :
    (s.step .nudge).schedule = s ∧ (s.step .nudge).reloads = (s.isRunning && s.nudgeable) := by
  unfold step isRunning
  cases s.ticker <;> exact ⟨rfl, rfl⟩

/-- A closed channel leaves the ticks as they are, and is no reload. -/
theorem step_closeNudges (s : Schedule) :
    (s.step .closeNudges).schedule.ticker = s.ticker ∧
      (s.step .closeNudges).schedule.nudgeable = (s.nudgeable && !s.isRunning) ∧
      (s.step .closeNudges).reloads = false := by
  unfold step isRunning
  cases hticker : s.ticker
  · exact ⟨hticker, (Bool.and_true _).symm, rfl⟩
  · exact ⟨rfl, (Bool.and_false _).symm, rfl⟩

/-- A stop signal ends the schedule, and is no reload. -/
theorem step_stop (s : Schedule) :
    (s.step .stop).schedule.isRunning = false ∧ (s.step .stop).reloads = false := by
  unfold step isRunning
  cases hticker : s.ticker
  · exact ⟨by rw [hticker]; rfl, rfl⟩
  · exact ⟨rfl, rfl⟩

/-- Nothing comes of a schedule that has ended. -/
theorem step_of_ended (h : s.isRunning = false) (input : ScheduleInput) :
    s.step input = { schedule := s } := by
  have hticker : s.ticker = none := by simpa [isRunning] using h
  rw [step, hticker]

end Schedule

end BrokerAccess
