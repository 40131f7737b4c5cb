import Batty.Dispatch.Daemon
import Batty.Shim.Protocol

/-!
# Since when a member works

An agent that is at work and says nothing is restarted, but only after it has been at work for a
while. For this the daemon notes when the member's recorded state became `working`.

The note is made when the shim reports a change of state, and taken off when it reports one again
or is started anew. Three more handlers and the timeout of the working state record the member as
idle and leave the note where it is, and the next time the member starts to work the old note
stays. The note is right in every state of a run exactly if none of them finds the member recorded
as working (`tracks_iff_findsAtRest`).
-/

namespace Batty

/-- What the daemon keeps about the work of a member that has a shim: the state of its handle, the
state that is recorded for it, and when it began to work. -/
structure WorkingWatch where
  handle : ShimState
  recorded : Option MemberState
  workingSince : Option Nat

/-- What happens to a member that may be at work. -/
inductive WatchStep where
  | ready
  | stateChanged (target : ShimState)
  /-- One completion too many without a commit is answered by a new shim. -/
  | completion (respawns : Bool)
  | contextExhausted (hasTask : Bool)
  | stats (outputBytes uptimeSecs : Nat) (respawns : Bool)
  /-- The member has been at work for longer than the timeout of the working state. -/
  | forceIdle
  | coldRespawn
  /-- Whatever else happens touches the handle at most: failed deliveries, deaths, restarts. -/
  | handleIs (state : ShimState)

/-- What a state of the shim counts as. -/
def memberStateOf : ShimState → MemberState
  | .idle => .idle
  | .working | .starting | .dead | .contextExhausted => .working

def zeroOutputThresholdSecs : Nat := 600

/-- Whether work that began at `since` has gone on for long enough to call silence a hang. -/
def workingLongEnough (now since : Nat) : Bool :=
  zeroOutputThresholdSecs ≤ (now - since) / 1000000000

namespace WorkingWatch

/-- The agent has said nothing and is restarted. -/
def zeroOutputRestarts (watch : WorkingWatch) (now outputBytes uptimeSecs : Nat) : Bool :=
  outputBytes = 0 && decide (zeroOutputThresholdSecs ≤ uptimeSecs) &&
    watch.recorded == some .working && watch.workingSince.any (workingLongEnough now)

def coldRespawn (_ : WorkingWatch) : WorkingWatch :=
  { handle := .starting, recorded := some .idle, workingSince := none }

/-- The member is recorded as idle, and the note of when it began to work is left. -/
def recordIdle (watch : WorkingWatch) : WorkingWatch := { watch with recorded := some .idle }

def handleStateChanged (watch : WorkingWatch) (now : Nat) (target : ShimState) : WorkingWatch :=
  let watch := { watch with handle := target }
  let memberState := memberStateOf target
  if watch.recorded = some memberState then watch
  else
    { watch with
      recorded := some memberState
      workingSince := if memberState = .working then watch.workingSince.or (some now) else none }

end WorkingWatch

def WatchStep.run (now : Nat) (watch : WorkingWatch) : WatchStep → WorkingWatch
  | ready =>
    if watch.handle = .working then watch else { watch.recordIdle with handle := .idle }
  | stateChanged target => watch.handleStateChanged now target
  | completion respawns =>
    let watch := { watch.recordIdle with handle := .idle }
    if respawns then watch.coldRespawn else watch
  | contextExhausted hasTask =>
    let watch := { watch with handle := .contextExhausted }
    if hasTask then watch else watch.recordIdle
  | stats outputBytes uptimeSecs respawns =>
    if watch.zeroOutputRestarts now outputBytes uptimeSecs && respawns then watch.coldRespawn
    else watch
  | forceIdle =>
    if watch.handle = .working then { watch.recordIdle with handle := .idle } else watch
  | coldRespawn => watch.coldRespawn
  | handleIs state => { watch with handle := state }

/-! ### Runs -/

/-- A point of a run: what the daemon keeps, and since when the recorded state really has been
`working`. -/
structure WatchMoment where
  watch : WorkingWatch
  since : Option Nat

namespace WatchMoment

def next (moment : WatchMoment) (now : Nat) (step : WatchStep) : WatchMoment where
  watch := step.run now moment.watch
  since :=
    if (step.run now moment.watch).recorded = some .working then
      if moment.watch.recorded = some .working then moment.since else some now
    else none

/-- The note is there exactly while the member is recorded as working, and says since when. -/
structure Tracks (moment : WatchMoment) : Prop where
  since : moment.watch.workingSince = moment.since
  working : moment.since.isSome = true ↔ moment.watch.recorded = some .working

/-- A restart for silence finds the member at work, without a break, for long enough. -/
def RestartsDue (moment : WatchMoment) (now : Nat) : WatchStep → Prop
  | .stats outputBytes uptimeSecs _ =>
    moment.watch.zeroOutputRestarts now outputBytes uptimeSecs = true →
      ∃ since ∈ moment.since, workingLongEnough now since = true
  | _ => True

end WatchMoment

/-- The note is right in every state of the run, and no restart for silence comes too early. -/
def TracksWork (moment : WatchMoment) : List (Nat × WatchStep) → Prop
  | [] => moment.Tracks
  | (now, step) :: steps =>
    moment.Tracks ∧ moment.RestartsDue now step ∧ TracksWork (moment.next now step) steps

/-- If the step records the member as idle without a new shim, the member was not recorded as
working. -/
def WatchStep.FindsAtRest (watch : WorkingWatch) : WatchStep → Prop
  | ready => watch.handle = .working ∨ watch.recorded ≠ some .working
  | completion respawns => respawns = true ∨ watch.recorded ≠ some .working
  | contextExhausted hasTask => hasTask = true ∨ watch.recorded ≠ some .working
  | forceIdle => watch.handle ≠ .working ∨ watch.recorded ≠ some .working
  | stateChanged _ | stats _ _ _ | coldRespawn | handleIs _ => True

def FindsAtRest (watch : WorkingWatch) : List (Nat × WatchStep) → Prop
  | [] => True
  | (now, step) :: steps => step.FindsAtRest watch ∧ FindsAtRest (step.run now watch) steps

section

variable {moment : WatchMoment}

/-- The note of a member that is recorded as working. -/
theorem WatchMoment.Tracks.workingSince_isSome (h : moment.Tracks) :
    moment.watch.workingSince.isSome = true ↔ moment.watch.recorded = some .working := by
  rw [h.since]
  exact h.working

theorem WatchMoment.Tracks.workingSince_eq_none (h : moment.Tracks)
    (hrest : moment.watch.recorded ≠ some .working) : moment.watch.workingSince = none := by
  rw [← Option.not_isSome_iff_eq_none, h.workingSince_isSome]
  exact hrest

/-- What the note must say after a step, where it was right before. -/
theorem tracks_next_iff_workingSince (h : moment.Tracks) (now : Nat) (step : WatchStep) :
    (moment.next now step).Tracks ↔ (step.run now moment.watch).workingSince =
      if (step.run now moment.watch).recorded = some .working then
        if moment.watch.recorded = some .working then moment.watch.workingSince else some now
      else none := by
  refine ⟨fun hnext => hnext.since.trans (by rw [WatchMoment.next, h.since]), fun hnote => ?_⟩
  refine ⟨hnote.trans (by rw [WatchMoment.next, h.since]), ?_⟩
  unfold WatchMoment.next
  dsimp only
  split
  · rename_i hworking
    refine iff_of_true ?_ hworking
    split
    · rename_i hbefore
      exact h.working.mpr hbefore
    · rfl
  · rename_i hrest
    exact iff_of_false (by simp) hrest

/-- Where the record stays as it is, the note may stay as it is. -/
theorem note_of_recorded_eq (h : moment.Tracks) {watch : WorkingWatch} {now : Nat}
    (hrecorded : watch.recorded = moment.watch.recorded)
    (hsince : watch.workingSince = moment.watch.workingSince) : watch.workingSince =
      if watch.recorded = some .working then
        if moment.watch.recorded = some .working then moment.watch.workingSince else some now
      else none := by
  rw [hrecorded, hsince]
  split
  · rfl
  · rename_i hrest
    exact h.workingSince_eq_none hrest

/-- Recording a member as idle leaves a note that is wrong if the member was at work. -/
theorem note_recordIdle_iff (h : moment.Tracks) {watch : WorkingWatch} {now : Nat}
    (hrecorded : watch.recorded = some .idle)
    (hsince : watch.workingSince = moment.watch.workingSince) : (watch.workingSince =
      if watch.recorded = some .working then
        if moment.watch.recorded = some .working then moment.watch.workingSince else some now
      else none) ↔ moment.watch.recorded ≠ some .working := by
  rw [hrecorded, hsince, if_neg (by simp), ← Option.not_isSome_iff_eq_none, h.workingSince_isSome]

theorem note_handleStateChanged (h : moment.Tracks) (now : Nat) (target : ShimState) :
    (moment.watch.handleStateChanged now target).workingSince =
      if (moment.watch.handleStateChanged now target).recorded = some .working then
        if moment.watch.recorded = some .working then moment.watch.workingSince else some now
      else none := by
  unfold WorkingWatch.handleStateChanged
  dsimp only
  split
  · exact note_of_recorded_eq h rfl rfl
  · rename_i hchanged
    cases hstate : memberStateOf target with
    | idle => simp
    | working =>
      rw [hstate] at hchanged
      simp [h.workingSince_eq_none hchanged, hchanged]

/-- **One step.** -/
theorem tracks_next_iff (h : moment.Tracks) (now : Nat) (step : WatchStep) :
    (moment.next now step).Tracks ↔ step.FindsAtRest moment.watch := by
  rw [tracks_next_iff_workingSince h]
  cases step with
  | ready =>
    by_cases hhandle : moment.watch.handle = .working
    · simp only [WatchStep.run, if_pos hhandle]
      exact iff_of_true (note_of_recorded_eq h rfl rfl) (.inl hhandle)
    · simp only [WatchStep.run, WatchStep.FindsAtRest, hhandle, false_or]
      exact note_recordIdle_iff h rfl rfl
  | stateChanged target => exact iff_of_true (note_handleStateChanged h now target) trivial
  | completion respawns =>
    cases respawns with
    | true => exact iff_of_true (by simp [WatchStep.run, WorkingWatch.coldRespawn]) (.inl rfl)
    | false =>
      simp only [WatchStep.run, WatchStep.FindsAtRest, Bool.false_eq_true, false_or, if_false]
      exact note_recordIdle_iff h rfl rfl
  | contextExhausted hasTask =>
    cases hasTask with
    | true => exact iff_of_true (note_of_recorded_eq h rfl rfl) (.inl rfl)
    | false =>
      simp only [WatchStep.run, WatchStep.FindsAtRest, Bool.false_eq_true, false_or, if_false]
      exact note_recordIdle_iff h rfl rfl
  | stats outputBytes uptimeSecs respawns =>
    refine iff_of_true ?_ trivial
    simp only [WatchStep.run]
    split
    · simp [WorkingWatch.coldRespawn]
    · exact note_of_recorded_eq h rfl rfl
  | forceIdle =>
    by_cases hhandle : moment.watch.handle = .working
    · simp only [WatchStep.run, WatchStep.FindsAtRest, hhandle, ne_eq, not_true_eq_false,
        false_or]
      exact note_recordIdle_iff h rfl rfl
    · simp only [WatchStep.run, if_neg hhandle]
      exact iff_of_true (note_of_recorded_eq h rfl rfl) (.inl hhandle)
  | coldRespawn => exact iff_of_true (by simp [WatchStep.run, WorkingWatch.coldRespawn]) trivial
  | handleIs state => exact iff_of_true (note_of_recorded_eq h rfl rfl) trivial

/-- Where the note is right, silence is a hang only after work for long enough. -/
theorem restartsDue_of_tracks (h : moment.Tracks) (now : Nat) (step : WatchStep) :
    moment.RestartsDue now step := by
  cases step with
  | stats outputBytes uptimeSecs respawns =>
    intro hrestarts
    simp only [WorkingWatch.zeroOutputRestarts, Bool.and_eq_true, h.since] at hrestarts
    simpa [Option.any_eq_true] using hrestarts.2
  | _ => trivial

theorem tracksWork_iff (h : moment.Tracks) (steps : List (Nat × WatchStep)) :
    TracksWork moment steps ↔ FindsAtRest moment.watch steps := by
  induction steps generalizing moment with
  | nil => exact iff_of_true h trivial
  | cons entry steps ih =>
    obtain ⟨now, step⟩ := entry
    have hone := tracks_next_iff h now step
    constructor
    · rintro ⟨-, -, hrest⟩
      have hnext : (moment.next now step).Tracks := by
        cases steps with
        | nil => exact hrest
        | cons entry steps => exact hrest.1
      exact ⟨hone.mp hnext, (ih hnext).mp hrest⟩
    · rintro ⟨hfinds, hrest⟩
      have hnext := hone.mpr hfinds
      exact ⟨h, restartsDue_of_tracks h now step, (ih hnext).mpr hrest⟩

end

/-- **The note of work.** From a state in which it is right, it is right all along a run, and no
silent agent is restarted too early, exactly if the handlers that leave the note alone never find
the member recorded as working. -/
theorem tracksWork_iff_findsAtRest (watch : WorkingWatch) (steps : List (Nat × WatchStep))
    (hstart : watch.workingSince.isSome = true ↔ watch.recorded = some .working) :
    TracksWork { watch, since := watch.workingSince } steps ↔ FindsAtRest watch steps :=
  @tracksWork_iff { watch, since := watch.workingSince } ⟨rfl, hstart⟩ steps

/-! ### A note that is left behind -/

def restedWatch : WorkingWatch := { handle := .idle, recorded := some .idle, workingSince := none }

/-- The member works, says so, and rests. -/
theorem tracksWork_iff_findsAtRest_rested :
    TracksWork { watch := restedWatch, since := none }
      [(0, .stateChanged .working), (60000000000, .stateChanged .idle),
        (60000000000, .completion false)] :=
  (tracksWork_iff_findsAtRest restedWatch _ (by decide)).mpr
    ⟨trivial, trivial, .inr (by decide), trivial⟩

/-- The completion comes before the change of state. -/
theorem not_tracksWork_completed :
    ¬ ∀ (watch : WorkingWatch) (steps : List (Nat × WatchStep)),
      (watch.workingSince.isSome = true ↔ watch.recorded = some .working) →
        TracksWork { watch, since := watch.workingSince } steps := by
  intro h
  have hrun := h restedWatch
    [(0, .stateChanged .working), (60000000000, .completion false)] (by decide)
  exact absurd hrun.2.2.2.2.since (by decide)

end Batty
