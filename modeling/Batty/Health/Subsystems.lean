import Mathlib.Algebra.Order.Ring.Int
import Mathlib.Data.List.Basic
import Mathlib.Logic.Function.Basic

/-!
# Optional subsystems

A subsystem that the daemon can do without is disabled for a while if more than five of its errors
lie in the last ten minutes, the longer the more often that has come about. When it is disabled and
how long for is kept in two maps that other parts of the daemon use too; the errors are counted in
the event log; and over a restart only the time that was left and the level of the back-off are
carried.

Seen from one subsystem all this is a `Breaker`, with a deadline, a level and the errors
(`view_runOptionalSubsystemStep`, `view_restart`). In every run it backs off as it is meant to
(`backsOffAsDesigned`).
-/

namespace Batty

namespace Subsystems

open Function (update)

/-! ### The state -/

def errorWindowSecs : Nat := 600

def errorBudget : Nat := 5

def backoffTable : List Nat := [60, 300, 1800]

def nanosPerSec : Nat := 1000000000

/-- An entry of the event log, as far as it is read here. -/
structure LoopEvent where
  event : String
  step : Option String
  ts : Nat
deriving DecidableEq

def loopStepError (step : String) (ts : Nat) : LoopEvent := ⟨"loop_step_error", some step, ts⟩

/-- Two maps of the daemon and its event log. Deadlines are instants in nanoseconds. -/
structure SubsystemState where
  interventionCooldowns : String → Option Nat
  subsystemErrorCounts : String → Option Nat
  events : List LoopEvent

namespace SubsystemState

def fresh (events : List LoopEvent) : SubsystemState := ⟨fun _ => none, fun _ => none, events⟩

def setCooldown (key : String) (deadline : Option Nat) (state : SubsystemState) : SubsystemState :=
  ⟨update state.interventionCooldowns key deadline, state.subsystemErrorCounts, state.events⟩

def setCount (key : String) (count : Option Nat) (state : SubsystemState) : SubsystemState :=
  ⟨state.interventionCooldowns, update state.subsystemErrorCounts key count, state.events⟩

end SubsystemState

def optionalSubsystemForStep (step : String) : Option String :=
  if step = "telemetry_emit_event" then some "telemetry"
  else if step = "process_discord_queue" then some "discord"
  else if step = "process_telegram_queue" then some "telegram"
  else if step = "maybe_generate_standup" then some "standup"
  else none

def optionalSubsystemNames : List String := ["telemetry", "discord", "telegram", "grafana", "standup"]

def optionalSubsystemBackoffKey (subsystem : String) : String :=
  "__optional_subsystem_backoff:" ++ subsystem

def optionalSubsystemDisableKey (subsystem : String) : String :=
  "__optional_subsystem_disabled:" ++ subsystem

/-! ### A step -/

/-- How an action ends: well, with an error or with a panic. -/
inductive ActionResult where
  | ok
  | error
  | panicked
deriving DecidableEq

/-- One call: when it comes, when its failure is recorded and when the errors are counted; the time
stamps of the errors that the action itself records for its step; how it ends; and whether the event
log can be read after it. -/
structure Call where
  started : Nat
  recorded : Nat
  ended : Nat
  counted : Nat
  faults : List Nat
  result : ActionResult
  readable : Bool

/-- What is logged when a subsystem is disabled. -/
structure Disabling where
  recentErrors : Nat
  backoffSecs : Nat
deriving DecidableEq

/-- Whether the step ran, and whether its failure disabled the subsystem. -/
structure CallOutcome where
  ran : Bool
  disabled : Option Disabling
deriving DecidableEq

namespace SubsystemState

def optionalSubsystemReady (subsystem : String) (now : Nat) (state : SubsystemState) :
    Bool × SubsystemState :=
  let disableKey := optionalSubsystemDisableKey subsystem
  match state.interventionCooldowns disableKey with
  | none => (true, state)
  | some disabledUntil =>
    if now < disabledUntil then (false, state)
    else (true, state.setCooldown disableKey none)

def recordLoopStepError (step : String) (ts : Nat) (state : SubsystemState) : SubsystemState :=
  { state with events := state.events ++ [loopStepError step ts] }

def incrementSubsystemError (step : String) (state : SubsystemState) : SubsystemState :=
  state.setCount step (some ((state.subsystemErrorCounts step).getD 0 + 1))

def countsFor (subsystem : String) (event : LoopEvent) : Bool :=
  event.event = "loop_step_error" && event.step.bind optionalSubsystemForStep = some subsystem

/-- A log that cannot be read has no errors. -/
def recentOptionalSubsystemErrorCount (subsystem : String) (call : Call) (state : SubsystemState) :
    Nat :=
  let cutoff := call.counted - errorWindowSecs
  if call.readable then
    state.events.countP fun event => countsFor subsystem event && cutoff ≤ event.ts
  else 0

def recordOptionalSubsystemSuccess (subsystem : String) (call : Call) (state : SubsystemState) :
    SubsystemState :=
  if state.recentOptionalSubsystemErrorCount subsystem call = 0 then
    state.setCount (optionalSubsystemBackoffKey subsystem) none
  else state

/-- Beyond its budget of errors a subsystem is disabled, each time for longer. -/
def recordOptionalSubsystemFailure (subsystem : String) (call : Call) (state : SubsystemState) :
    Option Disabling × SubsystemState :=
  let recentErrors := state.recentOptionalSubsystemErrorCount subsystem call
  let disableKey := optionalSubsystemDisableKey subsystem
  let backoffKey := optionalSubsystemBackoffKey subsystem
  if recentErrors ≤ errorBudget || (state.interventionCooldowns disableKey).isSome then (none, state)
  else
    let backoffIndex :=
      min ((state.subsystemErrorCounts backoffKey).getD 0) (backoffTable.length - 1)
    let backoffSecs := backoffTable.getD backoffIndex 0
    (some ⟨recentErrors, backoffSecs⟩,
      (state.setCooldown disableKey (some (call.ended + backoffSecs * nanosPerSec))).setCount
        backoffKey (some (min (backoffIndex + 1) (backoffTable.length - 1))))

/-- The action runs, and its result is recorded. -/
def attempt (step subsystem : String) (call : Call) (state : SubsystemState) :
    CallOutcome × SubsystemState :=
  let state := call.faults.foldl (fun state ts => state.recordLoopStepError step ts) state
  match call.result with
  | .ok => (⟨true, none⟩, (state.setCount step none).recordOptionalSubsystemSuccess subsystem call)
  | .error | .panicked =>
    let state := (state.recordLoopStepError step call.recorded).incrementSubsystemError step
    let failure := state.recordOptionalSubsystemFailure subsystem call
    (⟨true, failure.1⟩, failure.2)

def runOptionalSubsystemStep (step subsystem : String) (call : Call) (state : SubsystemState) :
    CallOutcome × SubsystemState :=
  match state.optionalSubsystemReady subsystem call.started with
  | (false, state) => (⟨false, none⟩, state)
  | (true, state) => state.attempt step subsystem call

/-! ### A restart -/

def snapshotOptionalSubsystemBackoff (state : SubsystemState) : List (String × Nat) :=
  optionalSubsystemNames.filterMap fun subsystem =>
    (state.subsystemErrorCounts (optionalSubsystemBackoffKey subsystem)).map (subsystem, ·)

/-- The seconds that are left, rounded down. -/
def snapshotOptionalSubsystemDisabledRemainingSecs (now : Nat) (state : SubsystemState) :
    List (String × Nat) :=
  optionalSubsystemNames.filterMap fun subsystem =>
    ((state.interventionCooldowns (optionalSubsystemDisableKey subsystem)).bind fun deadline =>
      if now ≤ deadline then some ((deadline - now) / nanosPerSec) else none).map (subsystem, ·)

def restoreOptionalSubsystemBudgetState (backoff disabledRemainingSecs : List (String × Nat))
    (now : Nat) (state : SubsystemState) : SubsystemState :=
  let state := backoff.foldl (fun state (subsystem, value) =>
    state.setCount (optionalSubsystemBackoffKey subsystem) (some value)) state
  disabledRemainingSecs.foldl (fun state (subsystem, remainingSecs) =>
    state.setCooldown (optionalSubsystemDisableKey subsystem)
      (some (now + remainingSecs * nanosPerSec))) state

/-- What is persisted at one instant is restored at another one, by a daemon that is new. -/
def restart (persisted restored : Nat) (state : SubsystemState) : SubsystemState :=
  (fresh state.events).restoreOptionalSubsystemBudgetState state.snapshotOptionalSubsystemBackoff
    (state.snapshotOptionalSubsystemDisabledRemainingSecs persisted) restored

end SubsystemState

/-! ### One subsystem -/

/-- The steps that are run as optional subsystems. -/
inductive OptionalStep where
  | discord
  | telegram
  | standup
deriving DecidableEq

def OptionalStep.step : OptionalStep → String
  | .discord => "process_discord_queue"
  | .telegram => "process_telegram_queue"
  | .standup => "maybe_generate_standup"

def OptionalStep.subsystem : OptionalStep → String
  | .discord => "discord"
  | .telegram => "telegram"
  | .standup => "standup"

/-- All there is to a subsystem: until when it is disabled, how far its back-off has come, and the
time stamps of its errors. -/
structure Breaker where
  deadline : Option Nat
  level : Option Nat
  errors : List Nat

namespace Breaker

/-- The errors that a call counts in the end. -/
def recent (call : Call) (breaker : Breaker) : Nat :=
  if call.readable then
    breaker.errors.countP fun ts => call.counted - errorWindowSecs ≤ ts
  else 0

def lastLevel : Nat := backoffTable.length - 1

/-- How the subsystem is disabled, if it is. -/
def disabling (call : Call) (breaker : Breaker) : Disabling where
  recentErrors := breaker.recent call
  backoffSecs := backoffTable.getD (min (breaker.level.getD 0) lastLevel) 0

def disable (call : Call) (breaker : Breaker) : Breaker where
  deadline := some (call.ended + (breaker.disabling call).backoffSecs * nanosPerSec)
  level := some (min (min (breaker.level.getD 0) lastLevel + 1) lastLevel)
  errors := breaker.errors

def fail (call : Call) (breaker : Breaker) : CallOutcome × Breaker :=
  if breaker.recent call ≤ errorBudget then (⟨true, none⟩, breaker)
  else (⟨true, some (breaker.disabling call)⟩, breaker.disable call)

def succeed (call : Call) (breaker : Breaker) : Breaker :=
  if breaker.recent call = 0 then ⟨breaker.deadline, none, breaker.errors⟩ else breaker

/-- A call that is not refused. -/
def attempt (call : Call) (breaker : Breaker) : CallOutcome × Breaker :=
  match call.result with
  | .ok => (⟨true, none⟩, succeed call ⟨none, breaker.level, breaker.errors ++ call.faults⟩)
  | .error | .panicked =>
    fail call ⟨none, breaker.level, breaker.errors ++ call.faults ++ [call.recorded]⟩

def refuses (call : Call) (breaker : Breaker) : Bool := breaker.deadline.any (call.started < ·)

def call (call : Call) (breaker : Breaker) : CallOutcome × Breaker :=
  if breaker.refuses call then (⟨false, none⟩, breaker) else breaker.attempt call

def restart (persisted restored : Nat) (breaker : Breaker) : Breaker where
  deadline := breaker.deadline.bind fun deadline =>
    if persisted ≤ deadline then
      some (restored + (deadline - persisted) / nanosPerSec * nanosPerSec)
    else none
  level := breaker.level
  errors := breaker.errors

end Breaker

def SubsystemState.view (which : OptionalStep) (state : SubsystemState) : Breaker where
  deadline := state.interventionCooldowns (optionalSubsystemDisableKey which.subsystem)
  level := state.subsystemErrorCounts (optionalSubsystemBackoffKey which.subsystem)
  errors := (state.events.filter (SubsystemState.countsFor which.subsystem)).map LoopEvent.ts

section

variable {which other : OptionalStep} {state : SubsystemState}

theorem optionalSubsystemDisableKey_inj {name name' : String}
    (h : optionalSubsystemDisableKey name = optionalSubsystemDisableKey name') : name = name' := by
  unfold optionalSubsystemDisableKey at h
  exact (String.append_right_inj _).mp h

theorem optionalSubsystemBackoffKey_inj {name name' : String}
    (h : optionalSubsystemBackoffKey name = optionalSubsystemBackoffKey name') : name = name' := by
  unfold optionalSubsystemBackoffKey at h
  exact (String.append_right_inj _).mp h

/-- Every subsystem has keys of its own. -/
theorem keys_ne (h : other ≠ which) :
    optionalSubsystemDisableKey other.subsystem ≠ optionalSubsystemDisableKey which.subsystem ∧
      optionalSubsystemBackoffKey other.subsystem ≠ optionalSubsystemBackoffKey which.subsystem := by
  have hname : other.subsystem ≠ which.subsystem := by
    revert h
    cases other <;> cases which <;> decide
  exact ⟨fun heq => hname (optionalSubsystemDisableKey_inj heq),
    fun heq => hname (optionalSubsystemBackoffKey_inj heq)⟩

theorem step_ne_backoffKey (other which : OptionalStep) :
    other.step ≠ optionalSubsystemBackoffKey which.subsystem := by
  cases other <;> cases which <;> decide

theorem countsFor_loopStepError (other which : OptionalStep) (ts : Nat) :
    SubsystemState.countsFor which.subsystem (loopStepError other.step ts) =
      decide (other = which) := by
  cases other <;> cases which <;> rfl

namespace SubsystemState

theorem view_setCooldown (deadline : Option Nat) :
    (state.setCooldown (optionalSubsystemDisableKey which.subsystem) deadline).view which =
      ⟨deadline, (state.view which).level, (state.view which).errors⟩ := by
  simp [view, setCooldown]

theorem view_setCount (count : Option Nat) :
    (state.setCount (optionalSubsystemBackoffKey which.subsystem) count).view which =
      ⟨(state.view which).deadline, count, (state.view which).errors⟩ := by
  simp [view, setCount]

theorem view_setCooldown_of_ne {key : String} (deadline : Option Nat)
    (h : key ≠ optionalSubsystemDisableKey which.subsystem) :
    (state.setCooldown key deadline).view which = state.view which := by
  simp [view, setCooldown, Function.update_of_ne h.symm]

theorem view_setCount_of_ne {key : String} (count : Option Nat)
    (h : key ≠ optionalSubsystemBackoffKey which.subsystem) :
    (state.setCount key count).view which = state.view which := by
  simp [view, setCount, Function.update_of_ne h.symm]

theorem view_recordLoopStepError (ts : Nat) :
    (state.recordLoopStepError other.step ts).view which =
      ⟨(state.view which).deadline, (state.view which).level,
        (state.view which).errors ++ if other = which then [ts] else []⟩ := by
  simp only [view, recordLoopStepError, List.filter_append, List.map_append]
  rw [List.filter_cons, countsFor_loopStepError]
  by_cases h : other = which <;> simp [h, loopStepError]

theorem view_faults (faults : List Nat) :
    (faults.foldl (fun state ts => state.recordLoopStepError other.step ts) state).view which =
      ⟨(state.view which).deadline, (state.view which).level,
        (state.view which).errors ++ if other = which then faults else []⟩ := by
  induction faults generalizing state with
  | nil => simp
  | cons ts faults ih =>
    rw [List.foldl_cons, ih, view_recordLoopStepError]
    by_cases h : other = which <;> simp [h]

theorem recentOptionalSubsystemErrorCount_eq (call : Call) :
    state.recentOptionalSubsystemErrorCount which.subsystem call =
      (state.view which).recent call := by
  simp only [recentOptionalSubsystemErrorCount, Breaker.recent, view, List.countP_map,
    List.countP_filter, Function.comp_def, Bool.and_comm]

theorem view_recordOptionalSubsystemFailure (call : Call)
    (hready : (state.view which).deadline = none) :
    ((⟨true, (state.recordOptionalSubsystemFailure which.subsystem call).1⟩ : CallOutcome),
      (state.recordOptionalSubsystemFailure which.subsystem call).2.view which) =
        (state.view which).fail call := by
  have hcooldown : (state.interventionCooldowns
      (optionalSubsystemDisableKey which.subsystem)).isSome = false :=
    Option.isSome_eq_false_iff.mpr (Option.isNone_iff_eq_none.mpr hready)
  rw [recordOptionalSubsystemFailure, Breaker.fail, recentOptionalSubsystemErrorCount_eq,
    hcooldown, Bool.or_false]
  by_cases hbudget : (state.view which).recent call ≤ errorBudget
  · simp [hbudget]
  · simp only [hbudget, decide_false, Bool.false_eq_true, if_false, view_setCount,
      view_setCooldown]
    rfl

theorem view_recordOptionalSubsystemSuccess (call : Call) :
    (state.recordOptionalSubsystemSuccess which.subsystem call).view which =
      (state.view which).succeed call := by
  rw [recordOptionalSubsystemSuccess, Breaker.succeed, recentOptionalSubsystemErrorCount_eq]
  by_cases hnone : (state.view which).recent call = 0
  · rw [if_pos hnone, if_pos hnone, view_setCount]
  · rw [if_neg hnone, if_neg hnone]

/-- Once it may run, a step does to its breaker what the breaker does. -/
theorem view_attempt (call : Call) (hready : (state.view which).deadline = none) :
    ((state.attempt which.step which.subsystem call).1,
      (state.attempt which.step which.subsystem call).2.view which) =
        (state.view which).attempt call := by
  have hstep := step_ne_backoffKey which which
  have hfaults : (call.faults.foldl (fun state ts => state.recordLoopStepError which.step ts)
      state).view which = ⟨none, (state.view which).level,
        (state.view which).errors ++ call.faults⟩ := by
    rw [view_faults, hready, if_pos rfl]
  simp only [attempt, Breaker.attempt]
  generalize call.faults.foldl (fun state ts => state.recordLoopStepError which.step ts) state =
    recorded at hfaults
  have hfailed : ((recorded.recordLoopStepError which.step call.recorded).incrementSubsystemError
      which.step).view which = ⟨none, (state.view which).level,
        (state.view which).errors ++ call.faults ++ [call.recorded]⟩ := by
    rw [incrementSubsystemError, view_setCount_of_ne _ hstep, view_recordLoopStepError, hfaults,
      if_pos rfl]
  cases call.result with
  | ok =>
    simp only [view_recordOptionalSubsystemSuccess, view_setCount_of_ne none hstep, hfaults]
  | error | panicked =>
    simp only [← hfailed]
    exact view_recordOptionalSubsystemFailure call (by rw [hfailed])

/-- **A step is a call of its breaker.** -/
theorem view_runOptionalSubsystemStep (call : Call) :
    ((state.runOptionalSubsystemStep which.step which.subsystem call).1,
      (state.runOptionalSubsystemStep which.step which.subsystem call).2.view which) =
        (state.view which).call call := by
  have hdeadline : (state.view which).deadline =
      state.interventionCooldowns (optionalSubsystemDisableKey which.subsystem) := rfl
  rw [runOptionalSubsystemStep, optionalSubsystemReady, Breaker.call, Breaker.refuses, hdeadline]
  cases hcooldown : state.interventionCooldowns (optionalSubsystemDisableKey which.subsystem) with
  | none =>
    simp only [Option.any_none, Bool.false_eq_true, if_false]
    exact view_attempt call (hdeadline.trans hcooldown)
  | some disabledUntil =>
    by_cases hnow : call.started < disabledUntil
    · simp [hnow]
    · simp only [hnow, if_false, Option.any_some, decide_false, Bool.false_eq_true]
      have hreset : (state.setCooldown (optionalSubsystemDisableKey which.subsystem) none).view
          which = ⟨none, (state.view which).level, (state.view which).errors⟩ :=
        view_setCooldown none
      rw [view_attempt call (by rw [hreset]), hreset]
      rfl

/-- A step leaves the other breakers alone. -/
theorem view_attempt_of_ne (h : other ≠ which) (call : Call) :
    (state.attempt other.step other.subsystem call).2.view which = state.view which := by
  obtain ⟨hdisable, hbackoff⟩ := keys_ne h
  have hstep := step_ne_backoffKey other which
  have hfaults : (call.faults.foldl (fun state ts => state.recordLoopStepError other.step ts)
      state).view which = state.view which := by
    rw [view_faults, if_neg h, List.append_nil]
  have hfailure : ∀ state : SubsystemState,
      (state.recordOptionalSubsystemFailure other.subsystem call).2.view which =
        state.view which := by
    intro state
    rw [recordOptionalSubsystemFailure]
    split
    · rfl
    · rw [view_setCount_of_ne _ hbackoff, view_setCooldown_of_ne _ hdisable]
  have hsuccess : ∀ state : SubsystemState,
      (state.recordOptionalSubsystemSuccess other.subsystem call).view which =
        state.view which := by
    intro state
    rw [recordOptionalSubsystemSuccess]
    split
    · exact view_setCount_of_ne _ hbackoff
    · rfl
  simp only [attempt]
  cases call.result with
  | ok => rw [hsuccess, view_setCount_of_ne _ hstep, hfaults]
  | error | panicked =>
    rw [hfailure, incrementSubsystemError, view_setCount_of_ne _ hstep, view_recordLoopStepError,
      hfaults, if_neg h, List.append_nil]

theorem view_runOptionalSubsystemStep_of_ne (h : other ≠ which) (call : Call) :
    (state.runOptionalSubsystemStep other.step other.subsystem call).2.view which =
      state.view which := by
  rw [runOptionalSubsystemStep, optionalSubsystemReady]
  cases state.interventionCooldowns (optionalSubsystemDisableKey other.subsystem) with
  | none => exact view_attempt_of_ne h call
  | some disabledUntil =>
    by_cases hnow : call.started < disabledUntil
    · simp only [hnow, if_true]
    · simp only [hnow, if_false, view_attempt_of_ne h call]
      exact view_setCooldown_of_ne _ (keys_ne h).1

/-! ### Restarts -/

theorem view_restoreCounts (value : String → Option Nat) (names : List String) :
    ((names.filterMap fun subsystem => (value subsystem).map (subsystem, ·)).foldl
        (fun state (subsystem, value) =>
          state.setCount (optionalSubsystemBackoffKey subsystem) (some value)) state).view which =
      ⟨(state.view which).deadline, if which.subsystem ∈ names then
          (value which.subsystem).or (state.view which).level else (state.view which).level,
        (state.view which).errors⟩ := by
  induction names generalizing state with
  | nil => simp
  | cons name names ih =>
    cases hvalue : value name with
    | none =>
      simp only [List.filterMap_cons, hvalue, Option.map_none]
      rw [ih]
      by_cases hname : which.subsystem = name
      · simp [hname, hvalue]
      · simp [hname]
    | some count =>
      simp only [List.filterMap_cons, hvalue, Option.map_some, List.foldl_cons]
      rw [ih]
      by_cases hname : which.subsystem = name
      · rw [← hname, view_setCount]
        simp [hname, hvalue]
      · rw [view_setCount_of_ne _ fun heq => hname (optionalSubsystemBackoffKey_inj heq).symm]
        simp [hname]

theorem view_restoreCooldowns (remaining : String → Option Nat) (now : Nat) (names : List String) :
    ((names.filterMap fun subsystem => (remaining subsystem).map (subsystem, ·)).foldl
        (fun state (subsystem, remainingSecs) =>
          state.setCooldown (optionalSubsystemDisableKey subsystem)
            (some (now + remainingSecs * nanosPerSec))) state).view which =
      ⟨if which.subsystem ∈ names then
          ((remaining which.subsystem).map fun remainingSecs =>
            now + remainingSecs * nanosPerSec).or (state.view which).deadline
        else (state.view which).deadline, (state.view which).level, (state.view which).errors⟩ := by
  induction names generalizing state with
  | nil => simp
  | cons name names ih =>
    cases hremaining : remaining name with
    | none =>
      simp only [List.filterMap_cons, hremaining, Option.map_none]
      rw [ih]
      by_cases hname : which.subsystem = name
      · simp [hname, hremaining]
      · simp [hname]
    | some remainingSecs =>
      simp only [List.filterMap_cons, hremaining, Option.map_some, List.foldl_cons]
      rw [ih]
      by_cases hname : which.subsystem = name
      · rw [← hname, view_setCooldown]
        simp [hname, hremaining]
      · rw [view_setCooldown_of_ne _ fun heq => hname (optionalSubsystemDisableKey_inj heq).symm]
        simp [hname]

/-- **A restart**, seen from one subsystem. -/
theorem view_restart (persisted restored : Nat) :
    (state.restart persisted restored).view which =
      (state.view which).restart persisted restored := by
  have hmem : which.subsystem ∈ optionalSubsystemNames := by cases which <;> decide
  simp only [restart, restoreOptionalSubsystemBudgetState, snapshotOptionalSubsystemBackoff,
    snapshotOptionalSubsystemDisabledRemainingSecs, view_restoreCooldowns, view_restoreCounts,
    if_pos hmem]
  simp only [fresh, view, Breaker.restart, Option.or_none]
  cases state.interventionCooldowns (optionalSubsystemDisableKey which.subsystem) with
  | none => rfl
  | some deadline =>
    by_cases hleft : persisted ≤ deadline
    · simp [hleft]
    · simp [hleft]

end SubsystemState

end

/-! ### Runs -/

/-- A call of one of the steps, a restart, or an entry that something else adds to the log. -/
inductive Op where
  | call (which : OptionalStep) (call : Call)
  | restart (persisted restored : Nat)
  | logged (event : LoopEvent)

def SubsystemState.take (state : SubsystemState) : Op → CallOutcome × SubsystemState
  | .call which call => state.runOptionalSubsystemStep which.step which.subsystem call
  | .restart persisted restored => (⟨false, none⟩, state.restart persisted restored)
  | .logged event =>
    (⟨false, none⟩, ⟨state.interventionCooldowns, state.subsystemErrorCounts,
      state.events ++ [event]⟩)

/-- An operation of a run, with its outcome. -/
structure Entry where
  op : Op
  outcome : CallOutcome

/-- What has happened, the latest first, and the state after it. -/
def runFrom (past : List Entry) (state : SubsystemState) : List Op → List Entry × SubsystemState
  | [] => (past, state)
  | op :: ops => runFrom (⟨op, (state.take op).1⟩ :: past) (state.take op).2 ops

def history (ops : List Op) : List Entry := (runFrom [] (.fresh []) ops).1

/-- The times do not decrease. -/
def Timely : Nat → List Op → Prop
  | _, [] => True
  | now, .call _ call :: ops => now ≤ call.started ∧ call.started ≤ call.ended ∧ Timely call.ended ops
  | now, .restart persisted restored :: ops =>
    now ≤ persisted ∧ persisted ≤ restored ∧ Timely restored ops
  | now, .logged _ :: ops => Timely now ops

/-! ### What is claimed -/

section

variable (which : OptionalStep)

/-- The errors of a subsystem: those that its actions record, and its failed calls. -/
def newErrors (entry : Entry) : List Nat :=
  match entry.op with
  | .call other call =>
    if other = which ∧ entry.outcome.ran = true then
      call.faults ++ if call.result = .ok then [] else [call.recorded]
    else []
  | .restart _ _ => []
  | .logged event => if SubsystemState.countsFor which.subsystem event then [event.ts] else []

def errorsOf : List Entry → List Nat
  | [] => []
  | entry :: past => errorsOf past ++ newErrors which entry

/-- The errors of the last ten minutes. -/
def errorsInWindow (call : Call) (history : List Entry) : Nat :=
  (errorsOf which history).countP fun ts => call.counted - errorWindowSecs ≤ ts

/-- A success whose window has no error, as far as the log can be read. -/
def QuietSuccess (call : Call) (outcome : CallOutcome) (history : List Entry) : Prop :=
  outcome.ran = true ∧ call.result = .ok ∧
    (call.readable = true → errorsInWindow which call history = 0)

instance (call : Call) (outcome : CallOutcome) (history : List Entry) :
    Decidable (QuietSuccess which call outcome history) :=
  inferInstanceAs (Decidable (_ ∧ _ ∧ _))

/-- The deadline of the last disabling, and how many restarts there were since. -/
def lastDisabling : List Entry → Option (Nat × Nat)
  | [] => none
  | ⟨.call other call, outcome⟩ :: past =>
    match outcome.disabled with
    | some disabling =>
      if other = which then some (call.ended + disabling.backoffSecs * nanosPerSec, 0)
      else lastDisabling past
    | none => lastDisabling past
  | ⟨.restart _ _, _⟩ :: past =>
    (lastDisabling past).map fun (deadline, restarts) => (deadline, restarts + 1)
  | ⟨.logged _, _⟩ :: past => lastDisabling past

/-- How often the subsystem was disabled since its last quiet success. -/
def disablings : List Entry → Nat
  | [] => 0
  | ⟨.call other call, outcome⟩ :: past =>
    if other = which then
      if outcome.disabled.isSome then disablings past + 1
      else if QuietSuccess which call outcome (⟨.call other call, outcome⟩ :: past) then 0
      else disablings past
    else disablings past
  | ⟨.restart _ _, _⟩ :: past | ⟨.logged _, _⟩ :: past => disablings past

/-- Before the deadline the action does not run; the subsystem is disabled for its errors only, and
for as long as the table has it. -/
structure CallAsDesigned (call : Call) (outcome : CallOutcome) (past : List Entry) : Prop where
  refused : ∀ deadline restarts, lastDisabling which past = some (deadline, restarts) →
    call.started + restarts * nanosPerSec < deadline → outcome.ran = false
  budget : outcome.disabled.isSome = true →
    errorBudget < errorsInWindow which call (⟨.call which call, outcome⟩ :: past)
  backoff : ∀ disabling, outcome.disabled = some disabling →
    backoffTable[min (disablings which past + 1) 3 - 1]? = some disabling.backoffSecs

def AsDesigned : List Entry → Prop
  | [] => True
  | ⟨.call other call, outcome⟩ :: past =>
    (other = which → CallAsDesigned which call outcome past) ∧ AsDesigned past
  | ⟨.restart _ _, _⟩ :: past | ⟨.logged _, _⟩ :: past => AsDesigned past

end

/-! ### What is kept -/

section

variable {which : OptionalStep} {past : List Entry} {breaker : Breaker} {now : Nat}

/-- The breaker knows what has happened to it, but for a second at each restart. -/
structure Kept (which : OptionalStep) (past : List Entry) (breaker : Breaker) (now : Nat) : Prop where
  deadline : ∀ deadline restarts, lastDisabling which past = some (deadline, restarts) →
    deadline ≤ breaker.deadline.getD now + restarts * nanosPerSec
  level : breaker.level.getD 0 = min (disablings which past) Breaker.lastLevel
  errors : breaker.errors = errorsOf which past

theorem Kept.later (h : Kept which past breaker now) {later : Nat} (hle : now ≤ later) :
    Kept which past breaker later := by
  refine ⟨fun deadline restarts hlast => ?_, h.level, h.errors⟩
  have hdeadline := h.deadline deadline restarts hlast
  have hgetD : breaker.deadline.getD now ≤ breaker.deadline.getD later := by
    cases breaker.deadline with
    | none => exact hle
    | some _ => exact le_rfl
  omega

theorem recent_eq {call : Call} {history : List Entry} (h : breaker.errors = errorsOf which history) :
    breaker.recent call =
      if call.readable = true then errorsInWindow which call history else 0 := by
  rw [Breaker.recent, h]
  rfl

/-- A call that is refused changes nothing. -/
theorem Kept.refuse (h : Kept which past breaker now) (call : Call) (hlater : now ≤ call.ended) :
    Kept which (⟨.call which call, ⟨false, none⟩⟩ :: past) breaker call.ended ∧
      CallAsDesigned which call ⟨false, none⟩ past := by
  have hquiet : ¬ QuietSuccess which call ⟨false, none⟩
      (⟨.call which call, ⟨false, none⟩⟩ :: past) := fun hquiet => Bool.false_ne_true hquiet.1
  refine ⟨⟨(h.later hlater).deadline, ?_, ?_⟩, fun _ _ _ _ => rfl, fun h => ?_, fun _ h => ?_⟩
  · simp [disablings, hquiet, h.level]
  · simp [errorsOf, newErrors, h.errors]
  · cases h
  · cases h

theorem Kept.deadline_le_started (h : Kept which past breaker now) {call : Call}
    (hnow : now ≤ call.started) (hready : breaker.refuses call = false) {deadline restarts : Nat}
    (hlast : lastDisabling which past = some (deadline, restarts)) :
    deadline ≤ call.started + restarts * nanosPerSec := by
  have hdeadline := h.deadline deadline restarts hlast
  have hpassed : breaker.deadline.getD now ≤ call.started := by
    cases hold : breaker.deadline with
    | none => exact hnow
    | some old =>
      rw [Breaker.refuses, hold, Option.any_some, decide_eq_false_iff_not] at hready
      exact Nat.le_of_not_lt hready
  omega

/-- A call that succeeds. Only if it sees no error the level is given up. -/
theorem Kept.succeed (h : Kept which past breaker now) (call : Call) (hnow : now ≤ call.started)
    (hlater : call.started ≤ call.ended) (hready : breaker.refuses call = false)
    (hresult : call.result = .ok) :
    Kept which (⟨.call which call, ⟨true, none⟩⟩ :: past)
      (Breaker.succeed call ⟨none, breaker.level, breaker.errors ++ call.faults⟩) call.ended := by
  let history : List Entry := ⟨.call which call, ⟨true, none⟩⟩ :: past
  have herrors : breaker.errors ++ call.faults = errorsOf which history := by
    simp [history, errorsOf, newErrors, hresult, h.errors]
  have hrecent : Breaker.recent call ⟨none, breaker.level, breaker.errors ++ call.faults⟩ =
      if call.readable = true then errorsInWindow which call history else 0 := recent_eq herrors
  have hquiet : QuietSuccess which call ⟨true, none⟩ history ↔
      Breaker.recent call ⟨none, breaker.level, breaker.errors ++ call.faults⟩ = 0 := by
    rw [hrecent]
    cases hreadable : call.readable <;> simp [QuietSuccess, hresult, hreadable]
  have hdisablings : disablings which history =
      if QuietSuccess which call ⟨true, none⟩ history then 0 else disablings which past := by
    simp [history, disablings]
  have hlast : ∀ deadline restarts, lastDisabling which history = some (deadline, restarts) →
      deadline ≤ call.ended + restarts * nanosPerSec := by
    intro deadline restarts hlast
    have hstarted := h.deadline_le_started hnow hready hlast
    omega
  rw [Breaker.succeed]
  split
  · rename_i hnone
    refine ⟨hlast, ?_, herrors⟩
    show 0 = min (disablings which history) Breaker.lastLevel
    rw [hdisablings, if_pos (hquiet.mpr hnone), Nat.zero_min]
  · rename_i hsome
    refine ⟨hlast, ?_, herrors⟩
    show breaker.level.getD 0 = min (disablings which history) Breaker.lastLevel
    rw [hdisablings, if_neg fun hq => hsome (hquiet.mp hq), h.level]

theorem lastDisabling_disabled (which : OptionalStep) (call : Call) (ran : Bool)
    (disabling : Disabling) (past : List Entry) :
    lastDisabling which (⟨.call which call, ⟨ran, some disabling⟩⟩ :: past) =
      some (call.ended + disabling.backoffSecs * nanosPerSec, 0) := by
  simp [lastDisabling]

theorem disablings_disabled (which : OptionalStep) (call : Call) (ran : Bool)
    (disabling : Disabling) (past : List Entry) :
    disablings which (⟨.call which call, ⟨ran, some disabling⟩⟩ :: past) =
      disablings which past + 1 := by
  simp [disablings]

/-- A call that fails within the budget. -/
theorem Kept.spend (h : Kept which past breaker now) {call : Call} (hnow : now ≤ call.started)
    (hlater : call.started ≤ call.ended) (hready : breaker.refuses call = false)
    (hresult : call.result ≠ .ok) :
    Kept which (⟨.call which call, ⟨true, none⟩⟩ :: past)
      ⟨none, breaker.level, breaker.errors ++ call.faults ++ [call.recorded]⟩ call.ended := by
  have hquiet : ¬ QuietSuccess which call ⟨true, none⟩
      (⟨.call which call, ⟨true, none⟩⟩ :: past) := fun hquiet => hresult hquiet.2.1
  refine ⟨fun deadline restarts hlast => ?_, ?_, ?_⟩
  · have hstarted := h.deadline_le_started hnow hready hlast
    rw [Option.getD_none]
    omega
  · simp [disablings, hquiet, h.level]
  · simp [errorsOf, newErrors, hresult, h.errors]

/-- A call that fails beyond the budget. -/
theorem Kept.disable (h : Kept which past breaker now) {call : Call} (hresult : call.result ≠ .ok)
    {failed : Breaker} (hlevel : failed.level = breaker.level)
    (herrors : failed.errors = breaker.errors ++ call.faults ++ [call.recorded]) :
    Kept which (⟨.call which call, ⟨true, some (failed.disabling call)⟩⟩ :: past)
      (failed.disable call) call.ended := by
  refine ⟨fun deadline restarts hlast => ?_, ?_, ?_⟩
  · rw [lastDisabling_disabled, Option.some.injEq, Prod.mk.injEq] at hlast
    rw [Breaker.disable, Option.getD_some, ← hlast.1]
    exact Nat.le_add_right _ _
  · have hmin : min (min (disablings which past) 2 + 1) 2 = min (disablings which past + 1) 2 := by
      omega
    rw [disablings_disabled, Breaker.disable, Option.getD_some, hlevel, h.level, Nat.min_assoc,
      Nat.min_self]
    exact hmin
  · simp [errorsOf, newErrors, hresult, Breaker.disable, herrors, h.errors]

/-- Beyond the budget the back-off is the next entry of the table, or the last one. -/
theorem Kept.callAsDesigned_disable (h : Kept which past breaker now) {call : Call}
    (hnow : now ≤ call.started) (hready : breaker.refuses call = false)
    (hresult : call.result ≠ .ok) {failed : Breaker} (hlevel : failed.level = breaker.level)
    (herrors : failed.errors = breaker.errors ++ call.faults ++ [call.recorded])
    (hbudget : ¬ failed.recent call ≤ errorBudget) :
    CallAsDesigned which call ⟨true, some (failed.disabling call)⟩ past := by
  refine ⟨fun deadline restarts hlast hlt => ?_, fun _ => ?_, fun disabling hdisabling => ?_⟩
  · exact absurd hlt (Nat.not_lt.mpr (h.deadline_le_started hnow hready hlast))
  · have hhistory : failed.errors = errorsOf which
        (⟨.call which call, ⟨true, some (failed.disabling call)⟩⟩ :: past) := by
      simp [errorsOf, newErrors, hresult, herrors, h.errors]
    rw [recent_eq hhistory] at hbudget
    split at hbudget
    · exact Nat.lt_of_not_le hbudget
    · exact absurd (Nat.zero_le _) hbudget
  · cases hdisabling
    have hindex : min (disablings which past + 1) 3 - 1 = min (disablings which past) 2 := by omega
    have hlt : min (disablings which past) 2 < backoffTable.length :=
      Nat.lt_of_le_of_lt (Nat.min_le_right _ _) (by decide)
    rw [hindex, Breaker.disabling, hlevel, h.level, Nat.min_assoc, Nat.min_self]
    show backoffTable[min (disablings which past) 2]? =
      some (backoffTable.getD (min (disablings which past) 2) 0)
    rw [List.getD_eq_getElem?_getD, List.getElem?_eq_getElem hlt]
    rfl

/-- **A call that is not refused** comes after the deadline. -/
theorem Kept.attempt (h : Kept which past breaker now) (call : Call) (hnow : now ≤ call.started)
    (hlater : call.started ≤ call.ended) (hready : breaker.refuses call = false) :
    Kept which (⟨.call which call, (breaker.attempt call).1⟩ :: past) (breaker.attempt call).2
        call.ended ∧ CallAsDesigned which call (breaker.attempt call).1 past := by
  have hplain : CallAsDesigned which call ⟨true, none⟩ past := by
    refine ⟨fun deadline restarts hlast hlt => ?_, fun h => ?_, fun _ h => ?_⟩
    · exact absurd hlt (Nat.not_lt.mpr (h.deadline_le_started hnow hready hlast))
    · cases h
    · cases h
  have hfailed : call.result ≠ .ok → ∀ failed : Breaker,
      failed = ⟨none, breaker.level, breaker.errors ++ call.faults ++ [call.recorded]⟩ →
        Kept which (⟨.call which call, (failed.fail call).1⟩ :: past) (failed.fail call).2
            call.ended ∧ CallAsDesigned which call (failed.fail call).1 past := by
    intro hresult failed heq
    rw [Breaker.fail]
    split
    · exact ⟨heq ▸ h.spend hnow hlater hready hresult, hplain⟩
    · rename_i hbudget
      exact ⟨h.disable hresult (by rw [heq]) (by rw [heq]),
        h.callAsDesigned_disable hnow hready hresult (by rw [heq]) (by rw [heq]) hbudget⟩
  rw [Breaker.attempt]
  cases hresult : call.result with
  | ok => exact ⟨h.succeed call hnow hlater hready hresult, hplain⟩
  | error | panicked => exact hfailed (by rw [hresult]; decide) _ rfl

/-- What is cut off over a restart is less than a second. -/
theorem le_restarted_deadline {nanos deadline restarts old persisted restored : Nat}
    (hpos : 0 < nanos) (hdeadline : deadline ≤ old + restarts * nanos) (hleft : persisted ≤ old)
    (hlater : persisted ≤ restored) :
    deadline ≤ restored + (old - persisted) / nanos * nanos + (restarts + 1) * nanos := by
  have hcut : old - persisted < (old - persisted) / nanos * nanos + nanos :=
    Nat.lt_div_mul_add hpos
  have hsucc : (restarts + 1) * nanos = restarts * nanos + nanos := Nat.succ_mul _ _
  omega

theorem Kept.restart (h : Kept which past breaker now) {persisted restored : Nat}
    (hnow : now ≤ persisted) (hlater : persisted ≤ restored) (outcome : CallOutcome) :
    Kept which (⟨.restart persisted restored, outcome⟩ :: past) (breaker.restart persisted restored)
      restored := by
  refine ⟨fun deadline restarts hlast => ?_, h.level, ?_⟩
  · obtain ⟨⟨deadline', restarts'⟩, hlast', heq⟩ := Option.map_eq_some_iff.mp hlast
    cases heq
    have hdeadline := h.deadline deadline restarts' hlast'
    have hpos : 0 < nanosPerSec := by decide
    have hmore : restarts' * nanosPerSec ≤ (restarts' + 1) * nanosPerSec :=
      Nat.mul_le_mul_right _ (Nat.le_succ _)
    simp only [Breaker.restart]
    cases hold : breaker.deadline with
    | none =>
      rw [hold, Option.getD_none] at hdeadline
      rw [Option.bind_none, Option.getD_none]
      omega
    | some old =>
      rw [hold, Option.getD_some] at hdeadline
      by_cases hleft : persisted ≤ old
      · rw [Option.bind_some, if_pos hleft, Option.getD_some]
        exact le_restarted_deadline hpos hdeadline hleft hlater
      · rw [Option.bind_some, if_neg hleft, Option.getD_none]
        omega
  · simp [errorsOf, newErrors, Breaker.restart, h.errors]

/-- **A call** of the subsystem's own step. -/
theorem Kept.call (h : Kept which past breaker now) (call : Call) (hnow : now ≤ call.started)
    (hlater : call.started ≤ call.ended) :
    Kept which (⟨.call which call, (breaker.call call).1⟩ :: past) (breaker.call call).2
        call.ended ∧ CallAsDesigned which call (breaker.call call).1 past := by
  rw [Breaker.call]
  cases hrefuses : breaker.refuses call with
  | true => exact h.refuse call (hnow.trans hlater)
  | false => exact h.attempt call hnow hlater hrefuses

theorem Kept.logged (h : Kept which past breaker now) (event : LoopEvent) (outcome : CallOutcome) :
    Kept which (⟨.logged event, outcome⟩ :: past) ⟨breaker.deadline, breaker.level,
      breaker.errors ++ if SubsystemState.countsFor which.subsystem event then [event.ts] else []⟩
        now := by
  refine ⟨fun deadline restarts hlast => h.deadline deadline restarts hlast, h.level, ?_⟩
  simp [errorsOf, newErrors, h.errors]

/-- A call of another step. -/
theorem Kept.elsewhere (h : Kept which past breaker now) {other : OptionalStep}
    (hother : other ≠ which) (call : Call) (hlater : now ≤ call.ended) (outcome : CallOutcome) :
    Kept which (⟨.call other call, outcome⟩ :: past) breaker call.ended := by
  refine ⟨fun deadline restarts hlast => (h.later hlater).deadline deadline restarts ?_, ?_, ?_⟩
  · rw [← hlast, lastDisabling]
    cases outcome.disabled with
    | none => rfl
    | some disabling => exact (if_neg hother).symm
  · rw [h.level, disablings, if_neg hother]
  · simp [errorsOf, newErrors, hother, h.errors]

/-- **Every step of a run** is as designed, and keeps the breaker up with what has happened. -/
theorem asDesigned_runFrom {ops : List Op} {state : SubsystemState}
    (h : Kept which past (state.view which) now) (hdesigned : AsDesigned which past)
    (htimely : Timely now ops) : AsDesigned which (runFrom past state ops).1 := by
  induction ops generalizing past state now with
  | nil => exact hdesigned
  | cons op ops ih =>
    rw [runFrom]
    cases op with
    | call other call =>
      obtain ⟨hnow, hlater, hrest⟩ := htimely
      by_cases hother : other = which
      · subst hother
        have hview : ((state.take (.call other call)).1, (state.take (.call other call)).2.view other) =
            (state.view other).call call := SubsystemState.view_runOptionalSubsystemStep call
        obtain ⟨hkept, hcall⟩ := h.call call hnow hlater
        rw [← hview] at hkept hcall
        exact ih hkept ⟨fun _ => hcall, hdesigned⟩ hrest
      · have hview : (state.take (.call other call)).2.view which = state.view which :=
          SubsystemState.view_runOptionalSubsystemStep_of_ne hother call
        refine ih ?_ ⟨fun heq => absurd heq hother, hdesigned⟩ hrest
        rw [← hview] at h
        exact h.elsewhere hother call (hnow.trans hlater) _
    | restart persisted restored =>
      obtain ⟨hnow, hlater, hrest⟩ := htimely
      refine ih ?_ hdesigned hrest
      have hkept := h.restart hnow hlater ⟨false, none⟩
      rw [← SubsystemState.view_restart] at hkept
      exact hkept
    | logged event =>
      refine ih ?_ hdesigned htimely
      have hview : (state.take (.logged event)).2.view which =
          ⟨(state.view which).deadline, (state.view which).level, (state.view which).errors ++
            if SubsystemState.countsFor which.subsystem event then [event.ts] else []⟩ := by
        simp only [SubsystemState.take, SubsystemState.view, List.filter_append, List.map_append,
          List.filter_cons, List.filter_nil]
        cases SubsystemState.countsFor which.subsystem event <;> rfl
      rw [hview]
      exact h.logged event _

end

/-- **Optional subsystems back off** as they are meant to, in every run. -/
theorem backsOffAsDesigned (which : OptionalStep) (ops : List Op) (htimely : Timely 0 ops) :
    AsDesigned which (history ops) := by
  have hstart : Kept which [] ((SubsystemState.fresh []).view which) 0 := by
    refine ⟨fun _ _ h => ?_, rfl, rfl⟩
    cases h
  exact asDesigned_runFrom hstart trivial htimely

/-! ### A subsystem that fails for a while -/

/-- A call that fails, or not, so many seconds after the start. -/
def callAt (secs : Nat) (result : ActionResult) : Op :=
  .call .telegram ⟨secs * nanosPerSec, secs, secs * nanosPerSec, secs, [], result, true⟩

/-- Six failures, a call that is refused, a restart and two more calls. -/
def failingOps : List Op :=
  [callAt 1 .error, callAt 2 .error, callAt 3 .panicked, callAt 4 .error, callAt 5 .error,
    callAt 6 .error, callAt 65 .ok, .restart (65 * nanosPerSec) (70 * nanosPerSec),
    callAt 70 .ok, callAt 71 .error]

theorem timely_failingOps : Timely 0 failingOps := by
  simp [failingOps, callAt, Timely, nanosPerSec]

/-- It is disabled for a minute, and after the next failures for five. -/
theorem backsOffAsDesigned_failingOps :
    (history failingOps).map (fun entry => (entry.outcome.disabled.map Disabling.backoffSecs)) =
      [some 300, none, none, none, some 60, none, none, none, none, none] ∧
    AsDesigned .telegram (history failingOps) :=
  ⟨by decide +kernel, backsOffAsDesigned .telegram failingOps timely_failingOps⟩

end Subsystems

end Batty
