import BrokerAccess.Proofs.Reloading.Cycles
import BrokerAccess.Proofs.Settings

/-!
# The interval of a reload task

A reload task gets the interval of the settings that are loaded. What the file says is repaired when
it is below a second, and is not repaired when it is too long for the clock: the first tick of the
task is then due at a time that the clock cannot show, and the task has ended before it began. With
any other interval it runs as long as the clock can show the present time and one more interval.
-/

namespace BrokerAccess

open Files (Path Tree)

namespace Shift

variable {shift : Shift} {table : Timetable} {reading interval : Nat} {occasions : List Occasion}

/-- A task that keeps to a timetable runs if the clock can show when the next tick is due. -/
theorem isRunning_iff (h : shift.schedule.ticker = table.ticker? reading interval) :
    shift.schedule.isRunning = true ↔ Ticker.canShow reading (table.due interval) = true := by
  rw [Schedule.isRunning, h, Timetable.isSome_ticker?]

/-- A task runs from its start if the clock can show when its first tick is due. -/
theorem opened_isRunning_iff (home : Path) (scheme : PasswordScheme) (t : Tree)
    (reading seconds : Nat) (nudgeable : Bool) (directory : Directory) :
    (opened home scheme t reading seconds nudgeable directory).schedule.isRunning = true ↔
      reading + max 1 seconds < Ticker.clockBound := by
  rw [isRunning_iff (opened_ticker home scheme t reading seconds nudgeable directory),
    Ticker.canShow, decide_eq_true_eq]
  have hdue : ({} : Timetable).due (max 1 seconds * 1000) = max 1 seconds * 1000 := rfl
  rw [hdue]
  omega

/-- Until the shutdown a task runs as long as the clock can show the present time and one more
interval. -/
theorem opened_run_isRunning (home : Path) (scheme : PasswordScheme) (t : Tree)
    {reading seconds : Nat} (nudgeable : Bool) (directory : Directory)
    (hlived : ∀ occasion ∈ occasions, occasion.isEnd = false)
    (hshow : let table := Timetable.after (max 1 seconds * 1000) {} (Occasion.spans occasions)
      Ticker.canShow reading (table.now + max 1 seconds * 1000) = true) :
    ((opened home scheme t reading seconds nudgeable directory).run
      occasions).schedule.isRunning = true := by
  have hstart := opened_ticker home scheme t reading seconds nudgeable directory
  have hfirst : ({} : Timetable).due (max 1 seconds * 1000) ≤
      ({} : Timetable).now + max 1 seconds * 1000 := Nat.le_add_left _ 0
  rw [isRunning_iff (run_keeps hstart hlived).2]
  exact Timetable.canShow_of_le (Timetable.due_after_le hfirst (Occasion.spans occasions)) hshow

end Shift

namespace Settings

open Shift (opened)

/-- The interval in effect of the settings that are loaded is that of the settings in the file, and
a minute if there are none or if theirs is below a second. -/
theorem load_reloadInterval (home : Path) (t : Tree) :
    1 ≤ (load home t).1.reloadInterval ∧
      ((load home t).1.reloadInterval : Int) =
        match written? home t with
        | none => 60
        | some written => if written.interval < 1 then 60 else written.interval := by
  rw [load_fst]
  cases written? home t with
  | none => exact ⟨by decide, rfl⟩
  | some written =>
    dsimp only [Option.map_some, Option.getD_some]
    rw [written.repaired_effective.1]
    exact ⟨written.one_le_reloadInterval, written.reloadInterval_eq⟩

/-- Whatever the file of the settings holds, a reload task with the interval and the password
scheme that are loaded from it has an interval of at least a second, the written one unless that is
below a second. It runs after its start if and only if the clock can show when its first tick is
due; it then runs until the shutdown as long as the clock can show the present time and one more
interval, and otherwise it never runs and never looks at the record. -/
theorem task_runs_iff (home : Path) (t : Tree) (reading : Nat) (nudgeable : Bool)
    (directory : Directory) :
    let loaded := (load home t).1
    let seconds := loaded.reloadInterval
    let shift := opened home loaded.passwordScheme t reading seconds nudgeable directory
    1 ≤ seconds ∧
    (seconds : Int) =
      (match written? home t with
      | none => 60
      | some written => if written.interval < 1 then 60 else written.interval) ∧
    (shift.schedule.isRunning = true ↔ reading + seconds < Ticker.clockBound) ∧
    (∀ occasions : List Occasion, (∀ occasion ∈ occasions, occasion.isEnd = false) →
      let table := Timetable.after (seconds * 1000) {} (Occasion.spans occasions)
      Ticker.canShow reading (table.now + seconds * 1000) = true →
        (shift.run occasions).schedule.isRunning = true) ∧
    (Ticker.clockBound ≤ reading + seconds → ∀ occasions : List Occasion,
      (shift.run occasions).schedule.isRunning = false ∧
        (shift.journal occasions).cycles = 0) := by
  intro loaded seconds shift
  obtain ⟨hpositive, hseconds⟩ := load_reloadInterval home t
  have hmax : max 1 seconds = seconds := Nat.max_eq_right hpositive
  have hstart : shift.schedule.isRunning = true ↔ reading + seconds < Ticker.clockBound := by
    have hopened := Shift.opened_isRunning_iff home loaded.passwordScheme t reading seconds
      nudgeable directory
    rw [hmax] at hopened
    exact hopened
  refine ⟨hpositive, hseconds, hstart, fun occasions hlived hshow => ?_, fun hlate occasions => ?_⟩
  · refine Shift.opened_run_isRunning home loaded.passwordScheme t nudgeable directory hlived ?_
    rw [hmax]
    exact hshow
  · have hended : shift.schedule.isRunning = false := by
      rw [← Bool.not_eq_true, hstart]
      exact Nat.not_lt.mpr hlate
    obtain ⟨hover, hnothing, _⟩ := Shift.run_of_ended hended occasions
    exact ⟨hover, congrArg Journal.cycles hnothing⟩

open Site (srv emptyHome)

/-- The home with settings that write the longest interval that an integer of a document can be. -/
def patientHome : Tree :=
  emptyHome.put ["srv", "conf", "config.toml"]
    (.file (Utf8.encode "credentials-reload-interval = 9223372036854775807".toList) 3)

/-- The longest interval that can be written is loaded as it is. -/
theorem load_patientHome : (load srv patientHome).1.reloadInterval = 9223372036854775807 := by
  have hentry : (Placement.ofSettings srv).found patientHome = some
      (.file (Utf8.encode "credentials-reload-interval = 9223372036854775807".toList) 3) := by
    have hcurrent : patientHome.entry? (srv.join "conf/config.toml") = some
        (.file (Utf8.encode "credentials-reload-interval = 9223372036854775807".toList) 3) :=
      Tree.entry?_put_self rfl rfl
        (show emptyHome.follow (srv.join "conf/config.toml") =
          .ok ["srv", "conf", "config.toml"] from rfl)
    rw [Placement.found]
    exact congrArg (Option.or · _) hcurrent
  have hread : read? "credentials-reload-interval = 9223372036854775807".toList =
      some { interval := 9223372036854775807 } := by decide +kernel
  have hwritten : written? srv patientHome = some { interval := 9223372036854775807 } := by
    rw [written?, hentry, Option.bind_some, ofEntry?, Utf8.decode?_encode, Option.bind_some, hread]
  rw [load_fst, hwritten]
  rfl

/-- A task with the longest interval that can be written has ended before it began. -/
theorem task_of_patientHome_ends :
    let loaded := (load srv patientHome).1
    loaded.reloadInterval = 9223372036854775807 ∧
      (opened srv loaded.passwordScheme patientHome 1000 loaded.reloadInterval true
        (.ofCurrent .plain none)).schedule.isRunning = false := by
  intro loaded
  refine ⟨load_patientHome, ?_⟩
  rw [← Bool.not_eq_true, Shift.opened_isRunning_iff, load_patientHome]
  decide

end Settings

end BrokerAccess
