import Batty.Health.Pressure

/-!
# What is done about context pressure

Under pressure an agent is to be warned and nudged once, and restarted when the pressure lasts; a
warning of its own is to make things no better. The first holds of every run
(`PressureDaemon.warnsOnce_through`).

The others fail. The warning of an agent says nothing of how much it has written, and is handled as
if that were nothing: a new session, so that what is kept of the agent is forgotten, and the time
until a restart begins again (`not_actsOnPressure_approached`). They hold in runs in which nothing
that is seen of an agent is less than before (`actsOnPressure_of_keepsMemory`).
-/

namespace Batty

/-! ### The laws -/

def PressureNotice.time : PressureNotice → Nat
  | .ready now | .stateChanged now _ | .error now | .other now _ => now
  | .contextApproaching look | .sessionStats look _ _ | .contextWarning look _ _ _ => look.now

def PressureNotice.isStats : PressureNotice → Bool
  | .sessionStats _ _ _ => true
  | _ => false

/-- The pressure is high as far as this says, and the session goes on. -/
def PressureNotice.Presses (daemon : PressureDaemon) : PressureNotice → Prop
  | .ready _ => False
  | .stateChanged _ target => memberStateOf target = .working
  | .sessionStats look outputBytes uptimeSecs => daemon.tracker.threshold ≤
      daemon.tracker.score (daemon.contextPressureInputs look outputBytes uptimeSecs none)
  | .contextWarning look outputBytes uptimeSecs usagePct => daemon.tracker.threshold ≤
      daemon.tracker.score
        (daemon.contextPressureInputs look outputBytes uptimeSecs (some usagePct))
  | .contextApproaching _ | .error _ | .other _ _ => True

namespace PressureDaemon

/-- The agent works all the time, and is under pressure. -/
def Pressed (daemon : PressureDaemon) : List PressureNotice → Prop
  | [] => True
  | notice :: notices => daemon.watch.recorded = some .working ∧ notice.Presses daemon ∧
      Pressed (daemon.step notice) notices

def issuedSince (daemon next : PressureDaemon) : List ContextPressureAction :=
  (next.issued.drop daemon.issued.length).map IssuedAction.action

/-- Between two resets there is one warning and one nudge. -/
def WarnsOnce (daemon : PressureDaemon) : Prop :=
  daemon.issued.Pairwise fun issued issued' => issued.action = issued'.action →
    issued.action ≠ .restart → issued.resets ≠ issued'.resets

/-- Pressure that lasts for the delay, from one look at the agent to another, leads to a restart. -/
def RestartsUnderPressure (start : PressureDaemon) (notices : List PressureNotice) : Prop :=
  ∀ before first stretch last after, notices = before ++ (first :: (stretch ++ [last]) ++ after) →
    first.isStats = true → last.isStats = true →
    (start.through before).Pressed (first :: (stretch ++ [last])) →
    fromSecs (max start.restartDelaySecs 1) ≤ last.time - first.time →
    .restart ∈ (start.through before).issuedSince
      ((start.through before).through (first :: (stretch ++ [last])))

/-- What is kept of an agent is still kept, unless the agent has been restarted. -/
def Remembers (daemon next : PressureDaemon) : Prop :=
  .restart ∈ daemon.issuedSince next ∧ next.tracker.member = none ∨
    ∀ state ∈ daemon.tracker.member, ∃ state' ∈ next.tracker.member,
      state.lastOutputBytes ≤ state'.lastOutputBytes ∧
        (state.warningEmitted = true → state'.warningEmitted = true) ∧
        (state.nudgeSent = true → state'.nudgeSent = true) ∧
        state.shimFailureCount ≤ state'.shimFailureCount ∧
        (daemon.watch.recorded = some .working → ∀ since ∈ state.overThresholdSince,
          state'.overThresholdSince = some since)

/-- What is to be done about context pressure. -/
structure ActsOnPressure (start : PressureDaemon) (notices : List PressureNotice) : Prop where
  warnsOnce : (start.through notices).WarnsOnce
  restarts : start.RestartsUnderPressure notices
  remembers : ∀ before look after, notices = before ++ .contextApproaching look :: after →
    (start.through before).Remembers ((start.through before).step (.contextApproaching look))

end PressureDaemon

/-- No less is seen of the agent than before, in particular not nothing at all. -/
def PressureNotice.KeepsMemory (daemon : PressureDaemon) : PressureNotice → Prop
  | .contextApproaching _ => daemon.tracker.lastOutputBytes = 0
  | .sessionStats _ outputBytes uptimeSecs => daemon.watch.recorded = some .working →
      daemon.tracker.lastOutputBytes ≤ outputBytes ∧
        ¬ (outputBytes = 0 ∧ zeroOutputThresholdSecs ≤ uptimeSecs)
  | .contextWarning _ outputBytes _ _ => daemon.watch.recorded = some .working →
      daemon.tracker.lastOutputBytes ≤ outputBytes
  | _ => True

def PressureDaemon.KeepsMemory (daemon : PressureDaemon) : List PressureNotice → Prop
  | [] => True
  | notice :: notices => notice.KeepsMemory daemon ∧ (daemon.step notice).KeepsMemory notices

/-! ### What an observation does -/

section

variable {tracker : ContextPressureTracker} {inputs : ContextPressureInputs} {isWorking : Bool}
  {delay now : Nat}

/-- The score is high, and has been so for long enough. -/
def ContextPressureTracker.restarts (tracker : ContextPressureTracker)
    (inputs : ContextPressureInputs) (delay now : Nat) : Bool :=
  shouldForceRestart inputs delay ||
    (tracker.score inputs ≥ tracker.threshold &&
      now - (tracker.recalled inputs).overThresholdSince.getD now ≥ fromSecs (max delay 1))

/-- Since when the score is high. -/
def ContextPressureTracker.since (tracker : ContextPressureTracker)
    (inputs : ContextPressureInputs) (isWorking : Bool) (delay now : Nat) : Option Nat :=
  if !isWorking then none
  else if shouldForceRestart inputs delay then (tracker.recalled inputs).overThresholdSince
  else if tracker.score inputs ≥ tracker.threshold then
    some ((tracker.recalled inputs).overThresholdSince.getD now)
  else none

/-- What is kept after an observation. -/
def ContextPressureTracker.seen (tracker : ContextPressureTracker)
    (inputs : ContextPressureInputs) (isWorking : Bool) (delay now : Nat) :
    ContextPressureState :=
  { tracker.recalled inputs with
    warningEmitted :=
      (tracker.recalled inputs).warningEmitted || (isWorking && tracker.warns inputs)
    nudgeSent := (tracker.recalled inputs).nudgeSent || (isWorking && tracker.nudges inputs)
    overThresholdSince := tracker.since inputs isWorking delay now }

theorem ContextPressureTracker.observeAt_tracker :
    (tracker.observeAt inputs isWorking delay now).1 =
      { tracker with member := some (tracker.seen inputs isWorking delay now) } := by
  cases isWorking with
  | false => simp [observeAt, seen, since]
  | true =>
    simp only [observeAt, seen, since, Bool.not_true, Bool.false_eq_true, if_false, Bool.true_and]
    split
    · rfl
    · split <;> rfl

theorem ContextPressureTracker.observeAt_actions :
    (tracker.observeAt inputs isWorking delay now).2.2 =
      (if isWorking && tracker.warns inputs then [.warn] else []) ++
        (if isWorking && tracker.nudges inputs then [.nudge] else []) ++
        if isWorking && tracker.restarts inputs delay now then [.restart] else [] := by
  cases isWorking with
  | false => simp [observeAt]
  | true =>
    simp only [observeAt, restarts, Bool.not_true, Bool.false_eq_true, if_false, Bool.true_and]
    split
    · rename_i hforce
      rw [hforce, Bool.true_or, if_pos rfl]
    · rename_i hforce
      rw [Bool.eq_false_iff.mpr hforce, Bool.false_or]
      split
      · rename_i hscore
        simp only [decide_eq_true hscore, Bool.true_and, decide_eq_true_eq]
      · rename_i hscore
        simp only [decide_eq_false hscore, Bool.false_and, Bool.false_eq_true, if_false,
          List.append_nil]

end

/-! ### What an event does -/

namespace PressureDaemon

/-- What the tracker asks for when this is seen of the agent. -/
def asks (daemon : PressureDaemon) (inputs : ContextPressureInputs) (now : Nat) :
    List ContextPressureAction :=
  (daemon.tracker.observeAt inputs (daemon.watch.recorded = some .working)
    daemon.restartDelaySecs now).2.2

/-- What carrying out actions does: at most, a restart makes that the agent is forgotten. -/
structure CarriesOut (daemon next : PressureDaemon) (actions : List ContextPressureAction) :
    Prop where
  restartDelaySecs : next.restartDelaySecs = daemon.restartDelaySecs
  issued : next.issued = daemon.issued
  tracker : next.tracker = daemon.tracker ∧ next.resets = daemon.resets ∨
    .restart ∈ actions ∧ next.tracker.member = none ∧ daemon.resets < next.resets

theorem CarriesOut.trans {daemon mid next : PressureDaemon}
    {actions actions' : List ContextPressureAction} (h : daemon.CarriesOut mid actions)
    (h' : mid.CarriesOut next actions') : daemon.CarriesOut next (actions ++ actions') where
  restartDelaySecs := h'.restartDelaySecs.trans h.restartDelaySecs
  issued := h'.issued.trans h.issued
  tracker := by
    rcases h.tracker with ⟨htracker, hresets⟩ | ⟨hmem, hnone, hlt⟩
    · rw [← htracker, ← hresets]
      exact h'.tracker.imp_right fun h => ⟨List.mem_append_right _ h.1, h.2⟩
    · refine .inr ⟨List.mem_append_left _ hmem, ?_⟩
      rcases h'.tracker with ⟨htracker, hresets⟩ | ⟨-, hnone', hlt'⟩
      · rw [htracker, hresets]
        exact ⟨hnone, hlt⟩
      · exact ⟨hnone', hlt.trans hlt'⟩

section

variable {daemon : PressureDaemon} {look : PressureLook} {inputs : ContextPressureInputs}

theorem after_act (score : Nat) (action : ContextPressureAction) :
    After (act look inputs score action) daemon (fun _ next => daemon.CarriesOut next [action])
      (fun _ next => daemon.CarriesOut next [action]) := by
  cases action with
  | warn => exact ⟨rfl, rfl, .inl ⟨rfl, rfl⟩⟩
  | nudge => exact ⟨rfl, rfl, .inl ⟨rfl, rfl⟩⟩
  | restart =>
    rw [act, after_bind, after_get]
    split
    · rw [after_bind, after_modify, after_bind]
      cases look.restart with
      | error error => exact ⟨rfl, rfl, .inl ⟨rfl, rfl⟩⟩
      | ok restarted =>
        rw [after_orFail_ok]
        cases restarted with
        | false => exact ⟨rfl, rfl, .inl ⟨rfl, rfl⟩⟩
        | true => exact ⟨rfl, rfl, .inr ⟨List.mem_singleton_self _, rfl, Nat.lt_succ_self _⟩⟩
    · exact ⟨rfl, rfl, .inl ⟨rfl, rfl⟩⟩

theorem after_acts (score : Nat) (actions : List ContextPressureAction) :
    After (actions.forM (act look inputs score)) daemon
      (fun _ next => daemon.CarriesOut next actions)
      (fun _ next => daemon.CarriesOut next actions) := by
  induction actions generalizing daemon with
  | nil => exact ⟨rfl, rfl, .inl ⟨rfl, rfl⟩⟩
  | cons action actions ih =>
    rw [List.forM_eq_forM, List.forM_cons, after_bind]
    refine (after_act score action).mono (fun _ mid hmid => ?_) fun _ next hnext => ?_
    · exact ih.mono (fun _ _ h => hmid.trans h) fun _ _ h => hmid.trans h
    · have hnone : next.CarriesOut next actions := ⟨rfl, rfl, .inl ⟨rfl, rfl⟩⟩
      exact hnext.trans hnone

/-- **A signal** is observed, and what the tracker asks for is carried out. -/
theorem endState_handleContextPressureSignal (outputBytes uptimeSecs : Nat)
    (proactiveUsagePct : Option Nat)
    (hinputs : daemon.contextPressureInputs look outputBytes uptimeSecs proactiveUsagePct =
      inputs) :
    (daemon.observe inputs look.now).CarriesOut
      (endState (handleContextPressureSignal look outputBytes uptimeSecs proactiveUsagePct) daemon)
      (daemon.asks inputs look.now) := by
  subst hinputs
  refine (after_iff_endState (P := fun next => CarriesOut _ next _)).mp ?_
  rw [handleContextPressureSignal, after_bind, after_get, after_bind, after_set]
  exact after_acts _ _

end

end PressureDaemon

/-- What an event shows of the agent. -/
def PressureNotice.observation (daemon : PressureDaemon) :
    PressureNotice → Option ContextPressureInputs
  | .contextApproaching look => some (daemon.contextPressureInputs look 0 0 (some 80))
  | .sessionStats look outputBytes uptimeSecs =>
    if outputBytes = 0 && uptimeSecs ≥ zeroOutputThresholdSecs then none
    else some (daemon.contextPressureInputs look outputBytes uptimeSecs none)
  | .contextWarning look outputBytes uptimeSecs usagePct =>
    some (daemon.contextPressureInputs look outputBytes uptimeSecs (some usagePct))
  | .ready _ | .stateChanged _ _ | .error _ | .other _ _ => none

namespace PressureDaemon

/-- An event that shows nothing of the agent leaves what is kept of it, or has it forgotten. -/
structure Rests (daemon next : PressureDaemon) : Prop where
  restartDelaySecs : next.restartDelaySecs = daemon.restartDelaySecs
  issued : next.issued = daemon.issued
  resets : daemon.resets ≤ next.resets
  flags : daemon.resets = next.resets → ∀ state ∈ daemon.tracker.member,
    ∃ state' ∈ next.tracker.member, state'.warningEmitted = state.warningEmitted ∧
      state'.nudgeSent = state.nudgeSent
  past : ∀ state' ∈ next.tracker.member, ∀ since ∈ state'.overThresholdSince,
    ∃ state ∈ daemon.tracker.member, since ∈ state.overThresholdSince

section

variable {daemon : PressureDaemon} {notice : PressureNotice} {inputs : ContextPressureInputs}

theorem step_of_observation (h : notice.observation daemon = some inputs) :
    (daemon.observe inputs notice.time).CarriesOut (daemon.step notice)
      (daemon.asks inputs notice.time) := by
  cases notice with
  | contextApproaching look =>
    exact endState_handleContextPressureSignal _ _ _ (Option.some.inj h)
  | contextWarning look outputBytes uptimeSecs usagePct =>
    exact endState_handleContextPressureSignal _ _ _ (Option.some.inj h)
  | sessionStats look outputBytes uptimeSecs =>
    rw [PressureNotice.observation] at h
    split at h
    · cases h
    · rename_i hzero
      have hstep : daemon.step (.sessionStats look outputBytes uptimeSecs) =
          endState (handleContextPressureSignal look outputBytes uptimeSecs none) daemon := by
        rw [step, handleShimEvent, handleContextPressureStats, if_neg hzero]
      rw [hstep]
      exact endState_handleContextPressureSignal _ _ _ (Option.some.inj h)
  | ready now => cases h
  | stateChanged now target => cases h
  | error now => cases h
  | other now watch => cases h

theorem rests_of_quiet {next : PressureDaemon}
    (hdelay : next.restartDelaySecs = daemon.restartDelaySecs)
    (hissued : next.issued = daemon.issued) (hresets : next.resets = daemon.resets)
    (htracker : next.tracker = daemon.tracker) : daemon.Rests next :=
  ⟨hdelay, hissued, hresets.ge, fun _ state hstate => ⟨state, htracker ▸ hstate, rfl, rfl⟩,
    fun state hstate _ hsince => ⟨state, htracker ▸ hstate, hsince⟩⟩

theorem rests_of_cleared {next : PressureDaemon}
    (hdelay : next.restartDelaySecs = daemon.restartDelaySecs)
    (hissued : next.issued = daemon.issued) (hresets : daemon.resets < next.resets)
    (hnone : next.tracker.member = none) : daemon.Rests next :=
  ⟨hdelay, hissued, hresets.le, fun heq => absurd heq hresets.ne, fun _ h => by
    rw [hnone] at h
    cases h⟩

theorem step_of_unobserved (h : notice.observation daemon = none) :
    daemon.Rests (daemon.step notice) := by
  cases notice with
  | contextApproaching look => cases h
  | contextWarning look outputBytes uptimeSecs usagePct => cases h
  | sessionStats look outputBytes uptimeSecs =>
    rw [PressureNotice.observation] at h
    split at h
    · rename_i hzero
      refine (after_iff_endState (P := fun next => daemon.Rests next)).mp ?_
      rw [handleShimEvent, handleContextPressureStats, if_pos hzero, after_bind, after_get]
      split
      · rw [after_bind, recordOrchestratorAction, after_modify, after_bind, after_modify,
          after_bind]
        cases look.respawn with
        | error error => exact rests_of_quiet rfl rfl rfl rfl
        | ok _ => exact rests_of_cleared rfl rfl (Nat.lt_succ_self _) rfl
      · exact rests_of_quiet rfl rfl rfl rfl
    · cases h
  | ready now => exact rests_of_cleared rfl rfl (Nat.lt_succ_self _) rfl
  | stateChanged now target =>
    refine (after_iff_endState (P := fun next => daemon.Rests next)).mp ?_
    rw [handleShimEvent, after_bind, after_modify]
    split
    · refine ⟨rfl, rfl, le_rfl, fun _ state hstate => ?_, ?_⟩
      · exact ⟨_, Option.mem_map_of_mem _ hstate, rfl, rfl⟩
      · intro state' hstate' since hsince
        obtain ⟨state, -, rfl⟩ := Option.mem_map.mp hstate'
        cases hsince
    · exact rests_of_quiet rfl rfl rfl rfl
  -- A failure is counted for the member, which may be the first that is known of it.
  | error now =>
    refine ⟨rfl, rfl, le_rfl, fun _ state hstate => ?_, fun state' hstate' since hsince => ?_⟩
    · have hrecorded : (daemon.step (.error now)).tracker.member = some { state with
          shimFailureCount := min (state.shimFailureCount + 1) (2 ^ 32 - 1) } := by
        show daemon.tracker.recordFailure.member = _
        rw [ContextPressureTracker.recordFailure, Option.mem_def.mp hstate, Option.getD_some]
      exact ⟨_, hrecorded, rfl, rfl⟩
    · have hrecorded : daemon.tracker.recordFailure.member = some state' := hstate'
      rw [ContextPressureTracker.recordFailure] at hrecorded
      cases hmember : daemon.tracker.member with
      | none =>
        rw [hmember] at hrecorded
        obtain rfl := Option.some.inj hrecorded
        cases hsince
      | some state =>
        rw [hmember] at hrecorded
        obtain rfl := Option.some.inj hrecorded
        exact ⟨state, rfl, hsince⟩
  | other now watch => exact rests_of_quiet rfl rfl rfl rfl

/-- Nothing is taken off the record. -/
theorem issued_step (notice : PressureNotice) : daemon.issued <+: (daemon.step notice).issued := by
  cases hobservation : notice.observation daemon with
  | none => exact ⟨[], by rw [List.append_nil, (step_of_unobserved hobservation).issued]⟩
  | some inputs => exact ⟨_, (step_of_observation hobservation).issued.symm⟩

theorem issuedSince_of_observation (h : notice.observation daemon = some inputs) :
    daemon.issuedSince (daemon.step notice) = daemon.asks inputs notice.time := by
  have hissued : (daemon.step notice).issued = daemon.issued ++ _ :=
    (step_of_observation h).issued
  rw [issuedSince, hissued, List.drop_left, List.map_map]
  exact List.map_id _

theorem restartDelaySecs_step (notice : PressureNotice) :
    (daemon.step notice).restartDelaySecs = daemon.restartDelaySecs := by
  cases hobservation : notice.observation daemon with
  | none => exact (step_of_unobserved hobservation).restartDelaySecs
  | some inputs => exact (step_of_observation hobservation).restartDelaySecs

end

end PressureDaemon

/-! ### Warnings -/

section

variable {tracker : ContextPressureTracker} {inputs : ContextPressureInputs} {isWorking : Bool}
  {delay now : Nat}

theorem ContextPressureTracker.recalled_of_le {state : ContextPressureState}
    (hmember : tracker.member = some state) (hle : tracker.lastOutputBytes ≤ inputs.outputBytes) :
    tracker.recalled inputs = { state with lastOutputBytes := inputs.outputBytes } := by
  have hkept : ¬ inputs.outputBytes < state.lastOutputBytes := by
    rw [lastOutputBytes, hmember] at hle
    exact Nat.not_lt.mpr hle
  rw [recalled, hmember, Option.getD_some, if_neg hkept]

theorem ContextPressureTracker.mem_actions {action : ContextPressureAction} :
    action ∈ (tracker.observeAt inputs isWorking delay now).2.2 ↔ isWorking = true ∧
      match action with
      | .warn => tracker.warns inputs = true
      | .nudge => tracker.nudges inputs = true
      | .restart => tracker.restarts inputs delay now = true := by
  rw [observeAt_actions]
  cases isWorking <;> cases action <;> simp

theorem ContextPressureTracker.nodup_actions :
    (tracker.observeAt inputs isWorking delay now).2.2.Nodup := by
  rw [observeAt_actions]
  cases isWorking && tracker.warns inputs <;> cases isWorking && tracker.nudges inputs <;>
    cases isWorking && tracker.restarts inputs delay now <;> decide

end

namespace PressureDaemon

/-- The record agrees with what is kept of the agent: what has been asked for since the last reset
is noted. -/
structure Notes (daemon : PressureDaemon) : Prop where
  warnsOnce : daemon.WarnsOnce
  past : ∀ issued ∈ daemon.issued, issued.resets ≤ daemon.resets
  noted : ∀ issued ∈ daemon.issued, issued.resets = daemon.resets → issued.action ≠ .restart →
    ∃ state ∈ daemon.tracker.member, (issued.action = .warn → state.warningEmitted = true) ∧
      (issued.action = .nudge → state.nudgeSent = true)

section

variable {daemon next : PressureDaemon} {inputs : ContextPressureInputs}

/-- What was noted before is recalled, if the agent is not forgotten. -/
theorem Notes.recalled (h : daemon.Notes) {issued : IssuedAction} (hmem : issued ∈ daemon.issued)
    (hresets : issued.resets = daemon.resets) (haction : issued.action ≠ .restart)
    (hle : daemon.tracker.lastOutputBytes ≤ inputs.outputBytes) :
    (issued.action = .warn → (daemon.tracker.recalled inputs).warningEmitted = true) ∧
      (issued.action = .nudge → (daemon.tracker.recalled inputs).nudgeSent = true) := by
  obtain ⟨state, hstate, hnoted⟩ := h.noted issued hmem hresets haction
  rw [ContextPressureTracker.recalled_of_le hstate hle]
  exact hnoted

theorem Notes.observe (h : daemon.Notes) (now : Nat) : (daemon.observe inputs now).Notes := by
  have hold : ∀ issued ∈ daemon.issued, issued.action ≠ .restart →
      issued.resets = (daemon.observe inputs now).resets →
        issued.resets = daemon.resets ∧ daemon.tracker.lastOutputBytes ≤ inputs.outputBytes := by
    intro issued hmem _ hresets
    have hpast := h.past issued hmem
    rw [PressureDaemon.observe] at hresets
    dsimp only at hresets
    split at hresets
    · omega
    · exact ⟨hresets, by omega⟩
  have hmember : (daemon.observe inputs now).tracker.member = some (daemon.tracker.seen inputs
      (daemon.watch.recorded = some .working) daemon.restartDelaySecs now) :=
    congrArg ContextPressureTracker.member ContextPressureTracker.observeAt_tracker
  have hlater : daemon.resets ≤ (daemon.observe inputs now).resets := by
    rw [PressureDaemon.observe]
    dsimp only
    split <;> omega
  refine ⟨List.pairwise_append.mpr ⟨h.warnsOnce, ?_, ?_⟩, ?_, ?_⟩
  · -- the actions of one observation differ
    exact List.pairwise_map.mpr (ContextPressureTracker.nodup_actions.imp fun hne hsame =>
      absurd hsame hne)
  · rintro issued hmem _ hmem' hsame haction hresets
    obtain ⟨action, hnew, rfl⟩ := List.mem_map.mp hmem'
    obtain ⟨hcurrent, hle⟩ := hold issued hmem haction hresets
    obtain ⟨hwarn, hnudge⟩ := h.recalled hmem hcurrent haction hle
    have hasked := ContextPressureTracker.mem_actions.mp hnew
    obtain rfl : issued.action = action := hsame
    cases hissued : issued.action with
    | warn => simp [hissued, ContextPressureTracker.warns, hwarn hissued] at hasked
    | nudge => simp [hissued, ContextPressureTracker.nudges, hnudge hissued] at hasked
    | restart => exact haction hissued
  · intro issued hmem
    rcases List.mem_append.mp hmem with hmem | hmem
    · exact (h.past issued hmem).trans hlater
    · obtain ⟨action, -, rfl⟩ := List.mem_map.mp hmem
      exact le_rfl
  · intro issued hmem hresets haction
    refine ⟨_, hmember, ?_⟩
    rcases List.mem_append.mp hmem with hmem | hmem
    · obtain ⟨hcurrent, hle⟩ := hold issued hmem haction hresets
      obtain ⟨hwarn, hnudge⟩ := h.recalled hmem hcurrent haction hle
      exact ⟨fun heq => by rw [ContextPressureTracker.seen, hwarn heq, Bool.true_or],
        fun heq => by rw [ContextPressureTracker.seen, hnudge heq, Bool.true_or]⟩
    · obtain ⟨action, hnew, rfl⟩ := List.mem_map.mp hmem
      have hasked := ContextPressureTracker.mem_actions.mp hnew
      refine ⟨fun heq => ?_, fun heq => ?_⟩
      · obtain rfl : action = .warn := heq
        rw [ContextPressureTracker.seen, hasked.1, hasked.2, Bool.and_true, Bool.or_true]
      · obtain rfl : action = .nudge := heq
        rw [ContextPressureTracker.seen, hasked.1, hasked.2, Bool.and_true, Bool.or_true]

theorem Notes.carriesOut {actions : List ContextPressureAction} (h : daemon.Notes)
    (hnext : daemon.CarriesOut next actions) : next.Notes := by
  have hissued := hnext.issued
  rcases hnext.tracker with ⟨htracker, hresets⟩ | ⟨-, -, hlt⟩
  · refine ⟨?_, ?_, ?_⟩
    · rw [WarnsOnce, hissued]
      exact h.warnsOnce
    · rw [hissued, hresets]
      exact h.past
    · rw [hissued, hresets, htracker]
      exact h.noted
  · refine ⟨?_, ?_, ?_⟩
    · rw [WarnsOnce, hissued]
      exact h.warnsOnce
    · rw [hissued]
      exact fun issued hmem => (h.past issued hmem).trans hlt.le
    · rw [hissued]
      intro issued hmem hresets
      have hpast := h.past issued hmem
      omega

theorem Notes.rests (h : daemon.Notes) (hnext : daemon.Rests next) : next.Notes := by
  have hissued := hnext.issued
  refine ⟨?_, ?_, ?_⟩
  · rw [WarnsOnce, hissued]
    exact h.warnsOnce
  · rw [hissued]
    exact fun issued hmem => (h.past issued hmem).trans hnext.resets
  · rw [hissued]
    intro issued hmem hresets haction
    have hpast := h.past issued hmem
    have hlater := hnext.resets
    obtain ⟨state, hstate, hnoted⟩ := h.noted issued hmem (by omega) haction
    obtain ⟨state', hstate', hwarning, hnudge⟩ := hnext.flags (by omega) state hstate
    exact ⟨state', hstate', hwarning ▸ hnoted.1, hnudge ▸ hnoted.2⟩

theorem Notes.step (h : daemon.Notes) (notice : PressureNotice) : (daemon.step notice).Notes := by
  cases hobservation : notice.observation daemon with
  | none => exact h.rests (step_of_unobserved hobservation)
  | some inputs => exact (h.observe notice.time).carriesOut (step_of_observation hobservation)

/-- Nothing is known of the agent, and nothing has been asked for. -/
structure Fresh (daemon : PressureDaemon) : Prop where
  member : daemon.tracker.member = none
  issued : daemon.issued = []

theorem Fresh.notes (h : daemon.Fresh) : daemon.Notes := by
  refine ⟨?_, ?_, ?_⟩
  · rw [WarnsOnce, h.issued]
    exact List.Pairwise.nil
  · rw [h.issued]
    exact nofun
  · rw [h.issued]
    exact nofun

/-- **One warning and one nudge** between two resets, in every run. -/
theorem warnsOnce_through (h : daemon.Notes) (notices : List PressureNotice) :
    (daemon.through notices).WarnsOnce := by
  induction notices generalizing daemon with
  | nil => exact h.warnsOnce
  | cons notice notices ih => exact ih (h.step notice)

end

/-! ### Runs -/

section

variable {daemon : PressureDaemon} {notice : PressureNotice} {inputs : ContextPressureInputs}
  {time : Nat}

theorem keepsMemory_append {notices notices' : List PressureNotice} :
    daemon.KeepsMemory (notices ++ notices') ↔
      daemon.KeepsMemory notices ∧ (daemon.through notices).KeepsMemory notices' := by
  induction notices generalizing daemon with
  | nil => exact (and_iff_right trivial).symm
  | cons notice notices ih => exact (and_congr_right fun _ => ih).trans and_assoc.symm

theorem restartDelaySecs_through (notices : List PressureNotice) :
    (daemon.through notices).restartDelaySecs = daemon.restartDelaySecs := by
  induction notices generalizing daemon with
  | nil => rfl
  | cons notice notices ih => exact ih.trans (restartDelaySecs_step notice)

theorem issued_through (notices : List PressureNotice) :
    daemon.issued <+: (daemon.through notices).issued := by
  induction notices generalizing daemon with
  | nil => exact List.prefix_rfl
  | cons notice notices ih => exact (issued_step notice).trans ih

theorem mem_issuedSince_iff {next : PressureDaemon} {action : ContextPressureAction}
    (h : daemon.issued <+: next.issued) : action ∈ daemon.issuedSince next ↔
      ∃ actions, next.issued = daemon.issued ++ actions ∧
        action ∈ actions.map IssuedAction.action := by
  obtain ⟨actions, hactions⟩ := h
  rw [issuedSince, ← hactions, List.drop_left]
  refine ⟨fun hmem => ⟨actions, rfl, hmem⟩, ?_⟩
  rintro ⟨actions', heq, hmem⟩
  exact List.append_cancel_left heq ▸ hmem

/-- What is asked for at an event is asked for in the run. -/
theorem issuedSince_of_step {action : ContextPressureAction} (notices : List PressureNotice)
    (h : action ∈ daemon.issuedSince (daemon.step notice)) :
    action ∈ daemon.issuedSince (daemon.through (notice :: notices)) := by
  obtain ⟨actions, hstep, hmem⟩ := (mem_issuedSince_iff (issued_step notice)).mp h
  obtain ⟨later, hlater⟩ : (daemon.step notice).issued <+:
    ((daemon.step notice).through notices).issued := issued_through notices
  refine (mem_issuedSince_iff (issued_through (notice :: notices))).mpr ⟨actions ++ later, ?_, ?_⟩
  · rw [← List.append_assoc, ← hstep]
    exact hlater.symm
  · rw [List.map_append]
    exact List.mem_append_left _ hmem

theorem issuedSince_of_through {action : ContextPressureAction} {notices : List PressureNotice}
    (h : action ∈ (daemon.step notice).issuedSince ((daemon.step notice).through notices)) :
    action ∈ daemon.issuedSince (daemon.through (notice :: notices)) := by
  obtain ⟨actions, hthrough, hmem⟩ := (mem_issuedSince_iff (issued_through notices)).mp h
  obtain ⟨earlier, hearlier⟩ : daemon.issued <+: (daemon.step notice).issued := issued_step notice
  refine (mem_issuedSince_iff (issued_through (notice :: notices))).mpr ⟨earlier ++ actions, ?_, ?_⟩
  · rw [← List.append_assoc, hearlier]
    exact hthrough
  · rw [List.map_append]
    exact List.mem_append_right _ hmem

/-! ### Since when the score is high -/

/-- The note of when the score became high is from a time that is past. -/
def Past (daemon : PressureDaemon) (time : Nat) : Prop :=
  ∀ state ∈ daemon.tracker.member, ∀ since ∈ state.overThresholdSince, since ≤ time

/-- The score has been high since `time` at least. -/
def HighSince (daemon : PressureDaemon) (time : Nat) : Prop :=
  ∃ state ∈ daemon.tracker.member, ∃ since ∈ state.overThresholdSince, since ≤ time

theorem Past.recalled (h : daemon.Past time) {since : Nat}
    (hsince : since ∈ (daemon.tracker.recalled inputs).overThresholdSince) : since ≤ time := by
  rw [ContextPressureTracker.recalled] at hsince
  dsimp only at hsince
  split at hsince
  · cases hsince
  · cases hmember : daemon.tracker.member with
    | none =>
      rw [hmember] at hsince
      cases hsince
    | some state =>
      rw [hmember] at hsince
      exact h state hmember since hsince

theorem member_observe (inputs : ContextPressureInputs) (now : Nat) :
    (daemon.observe inputs now).tracker.member = some (daemon.tracker.seen inputs
      (daemon.watch.recorded = some .working) daemon.restartDelaySecs now) :=
  congrArg ContextPressureTracker.member ContextPressureTracker.observeAt_tracker

theorem Past.step (h : daemon.Past time) (hle : notice.time ≤ time) :
    (daemon.step notice).Past time := by
  cases hobservation : notice.observation daemon with
  | none =>
    intro state' hstate' since hsince
    obtain ⟨state, hstate, hmem⟩ :=
      (step_of_unobserved hobservation).past state' hstate' since hsince
    exact h state hstate since hmem
  | some inputs =>
    rcases (step_of_observation hobservation).tracker with ⟨htracker, -⟩ | ⟨-, hnone, -⟩
    · intro state hstate since hsince
      rw [htracker, member_observe] at hstate
      obtain rfl := Option.some.inj hstate
      rw [ContextPressureTracker.seen, ContextPressureTracker.since] at hsince
      dsimp only at hsince
      split at hsince
      · cases hsince
      · split at hsince
        · exact h.recalled hsince
        · split at hsince
          · obtain rfl := Option.some.inj hsince
            cases hrecalled : (daemon.tracker.recalled inputs).overThresholdSince with
            | none => exact hle
            | some since => exact h.recalled hrecalled
          · cases hsince
    · intro state hstate
      rw [hnone] at hstate
      cases hstate

theorem Past.through (h : daemon.Past time) {notices : List PressureNotice}
    (hle : ∀ notice ∈ notices, notice.time ≤ time) : (daemon.through notices).Past time := by
  induction notices generalizing daemon with
  | nil => exact h
  | cons notice notices ih =>
    rw [List.forall_mem_cons] at hle
    exact ih (h.step hle.1) hle.2

/-- A high score of a working agent is noted, or answered by a restart. -/
theorem step_of_high (hobservation : notice.observation daemon = some inputs)
    (hworking : daemon.watch.recorded = some .working)
    (hhigh : daemon.tracker.threshold ≤ daemon.tracker.score inputs) :
    .restart ∈ daemon.issuedSince (daemon.step notice) ∨
      daemon.tracker.restarts inputs daemon.restartDelaySecs notice.time = false ∧
        ∃ state ∈ (daemon.step notice).tracker.member, state.overThresholdSince =
          some ((daemon.tracker.recalled inputs).overThresholdSince.getD notice.time) := by
  rw [issuedSince_of_observation hobservation]
  cases hrestarts : daemon.tracker.restarts inputs daemon.restartDelaySecs notice.time with
  | true =>
    exact .inl (ContextPressureTracker.mem_actions.mpr ⟨decide_eq_true hworking, hrestarts⟩)
  | false =>
    rcases (step_of_observation hobservation).tracker with ⟨htracker, -⟩ | ⟨hmem, -⟩
    · refine .inr ⟨rfl, _, by rw [htracker]; exact member_observe inputs notice.time, ?_⟩
      rw [ContextPressureTracker.restarts, Bool.or_eq_false_iff] at hrestarts
      rw [ContextPressureTracker.seen, ContextPressureTracker.since]
      dsimp only
      rw [decide_eq_true hworking, hrestarts.1]
      exact if_pos hhigh
    · exact .inl hmem

/-- What an event that presses shows of a working agent presses, and is no less than before. -/
theorem high_of_presses (hobservation : notice.observation daemon = some inputs)
    (hpresses : notice.Presses daemon) (hworking : daemon.watch.recorded = some .working)
    (hkeeps : notice.KeepsMemory daemon) :
    daemon.tracker.threshold ≤ daemon.tracker.score inputs ∧
      daemon.tracker.lastOutputBytes ≤ inputs.outputBytes := by
  cases notice with
  | contextApproaching look =>
    obtain rfl := Option.some.inj hobservation
    refine ⟨?_, (show _ = 0 from hkeeps).le⟩
    rw [ContextPressureTracker.score]
    exact le_max_right _ _
  | sessionStats look outputBytes uptimeSecs =>
    rw [PressureNotice.observation] at hobservation
    split at hobservation
    · cases hobservation
    · obtain rfl := Option.some.inj hobservation
      exact ⟨hpresses, (hkeeps hworking).1⟩
  | contextWarning look outputBytes uptimeSecs usagePct =>
    obtain rfl := Option.some.inj hobservation
    exact ⟨hpresses, hkeeps hworking⟩
  | ready now => cases hobservation
  | stateChanged now target => cases hobservation
  | error now => cases hobservation
  | other now watch => cases hobservation

/-- An event that presses and shows nothing leaves the note of when the score became high. -/
theorem HighSince.step_of_unobserved (h : daemon.HighSince time)
    (hobservation : notice.observation daemon = none) (hpresses : notice.Presses daemon)
    (hworking : daemon.watch.recorded = some .working) (hkeeps : notice.KeepsMemory daemon) :
    (daemon.step notice).HighSince time := by
  cases notice with
  | contextApproaching look => cases hobservation
  | contextWarning look outputBytes uptimeSecs usagePct => cases hobservation
  | sessionStats look outputBytes uptimeSecs =>
    rw [PressureNotice.observation] at hobservation
    split at hobservation
    · rename_i hzero
      rw [Bool.and_eq_true, decide_eq_true_eq, decide_eq_true_eq] at hzero
      exact absurd hzero (hkeeps hworking).2
    · cases hobservation
  | ready now => exact hpresses.elim
  | stateChanged now target =>
    have hstep : (daemon.step (.stateChanged now target)).tracker = daemon.tracker := by
      refine (after_iff_endState (P := fun next : PressureDaemon =>
        next.tracker = daemon.tracker)).mp ?_
      rw [handleShimEvent, after_bind, after_modify,
        if_neg (not_not.mpr (show memberStateOf target = .working from hpresses))]
      rfl
    rw [HighSince, hstep]
    exact h
  | error now =>
    obtain ⟨state, hstate, since, hsince, hle⟩ := h
    refine ⟨{ state with shimFailureCount := min (state.shimFailureCount + 1) (2 ^ 32 - 1) }, ?_,
      since, hsince, hle⟩
    show daemon.tracker.recordFailure.member = _
    rw [ContextPressureTracker.recordFailure, Option.mem_def.mp hstate, Option.getD_some]
  | other now watch => exact h

/-- **One event** of those that press: there is a restart, or the score stays high. -/
theorem HighSince.step (h : daemon.HighSince time) (hpresses : notice.Presses daemon)
    (hworking : daemon.watch.recorded = some .working) (hkeeps : notice.KeepsMemory daemon) :
    .restart ∈ daemon.issuedSince (daemon.step notice) ∨ (daemon.step notice).HighSince time := by
  cases hobservation : notice.observation daemon with
  | none => exact .inr (h.step_of_unobserved hobservation hpresses hworking hkeeps)
  | some inputs =>
    obtain ⟨hhigh, hle⟩ := high_of_presses hobservation hpresses hworking hkeeps
    refine (step_of_high hobservation hworking hhigh).imp_right ?_
    rintro ⟨-, state', hstate', hsince'⟩
    obtain ⟨state, hstate, since, hsince, hearly⟩ := h
    rw [ContextPressureTracker.recalled_of_le hstate hle] at hsince'
    dsimp only at hsince'
    rw [Option.mem_def.mp hsince, Option.getD_some] at hsince'
    exact ⟨state', hstate', since, hsince', hearly⟩

theorem observation_of_isStats (hstats : notice.isStats = true)
    (hworking : daemon.watch.recorded = some .working) (hkeeps : notice.KeepsMemory daemon) :
    ∃ inputs, notice.observation daemon = some inputs := by
  cases notice with
  | sessionStats look outputBytes uptimeSecs =>
    refine ⟨_, if_neg fun hzero => ?_⟩
    rw [Bool.and_eq_true, decide_eq_true_eq, decide_eq_true_eq] at hzero
    exact (hkeeps hworking).2 hzero
  | contextApproaching look => cases hstats
  | contextWarning look outputBytes uptimeSecs usagePct => cases hstats
  | ready now => cases hstats
  | stateChanged now target => cases hstats
  | error now => cases hstats
  | other now watch => cases hstats

/-- The first look at an agent under pressure. -/
theorem highSince_of_first (hpast : daemon.Past notice.time) (hstats : notice.isStats = true)
    (hpresses : notice.Presses daemon) (hworking : daemon.watch.recorded = some .working)
    (hkeeps : notice.KeepsMemory daemon) :
    .restart ∈ daemon.issuedSince (daemon.step notice) ∨
      (daemon.step notice).HighSince notice.time := by
  obtain ⟨inputs, hobservation⟩ := observation_of_isStats hstats hworking hkeeps
  obtain ⟨hhigh, -⟩ := high_of_presses hobservation hpresses hworking hkeeps
  refine (step_of_high hobservation hworking hhigh).imp_right ?_
  rintro ⟨-, state, hstate, hsince⟩
  refine ⟨state, hstate, _, hsince, ?_⟩
  cases hrecalled : (daemon.tracker.recalled inputs).overThresholdSince with
  | none => exact le_rfl
  | some since => exact hpast.recalled hrecalled

/-- The last look: the score has been high for long enough. -/
theorem HighSince.restart_of_last (h : daemon.HighSince time) (hstats : notice.isStats = true)
    (hpresses : notice.Presses daemon) (hworking : daemon.watch.recorded = some .working)
    (hkeeps : notice.KeepsMemory daemon)
    (hdelay : fromSecs (max daemon.restartDelaySecs 1) ≤ notice.time - time) :
    .restart ∈ daemon.issuedSince (daemon.step notice) := by
  obtain ⟨inputs, hobservation⟩ := observation_of_isStats hstats hworking hkeeps
  obtain ⟨hhigh, hle⟩ := high_of_presses hobservation hpresses hworking hkeeps
  refine (step_of_high hobservation hworking hhigh).resolve_right ?_
  rintro ⟨hrestarts, -⟩
  obtain ⟨state, hstate, since, hsince, hearly⟩ := h
  have hrecalled : (daemon.tracker.recalled inputs).overThresholdSince = some since := by
    rw [ContextPressureTracker.recalled_of_le hstate hle]
    exact hsince
  rw [ContextPressureTracker.restarts, Bool.or_eq_false_iff, decide_eq_true hhigh, Bool.true_and,
    hrecalled, Option.getD_some, decide_eq_false_iff_not] at hrestarts
  omega

/-- From then on: there is a restart on the way, or at the last look. -/
theorem HighSince.restart {stretch : List PressureNotice} (h : daemon.HighSince time)
    (hstats : notice.isStats = true) (hpressed : daemon.Pressed (stretch ++ [notice]))
    (hkeeps : daemon.KeepsMemory (stretch ++ [notice]))
    (hdelay : fromSecs (max daemon.restartDelaySecs 1) ≤ notice.time - time) :
    .restart ∈ daemon.issuedSince (daemon.through (stretch ++ [notice])) := by
  induction stretch generalizing daemon with
  | nil => exact h.restart_of_last hstats hpressed.2.1 hpressed.1 hkeeps.1 hdelay
  | cons first stretch ih =>
    rcases h.step hpressed.2.1 hpressed.1 hkeeps.1 with hrestart | hhigh
    · exact issuedSince_of_step _ hrestart
    · refine issuedSince_of_through (ih hhigh hpressed.2.2 hkeeps.2 ?_)
      rw [restartDelaySecs_step]
      exact hdelay

/-- The warning of an agent of which nothing had been seen. -/
theorem remembers_of_contextApproaching {look : PressureLook}
    (hkeeps : PressureNotice.KeepsMemory daemon (.contextApproaching look)) :
    daemon.Remembers (daemon.step (.contextApproaching look)) := by
  have hobservation : PressureNotice.observation daemon (.contextApproaching look) =
    some (daemon.contextPressureInputs look 0 0 (some 80)) := rfl
  rw [Remembers, issuedSince_of_observation hobservation]
  rcases (step_of_observation hobservation).tracker with ⟨htracker, -⟩ | ⟨hmem, hnone, -⟩
  · refine .inr fun state hstate => ?_
    have hzero : daemon.tracker.lastOutputBytes = 0 := hkeeps
    have hlast : state.lastOutputBytes = 0 := by
      rw [ContextPressureTracker.lastOutputBytes, Option.mem_def.mp hstate] at hzero
      exact hzero
    have hrecalled : daemon.tracker.recalled (daemon.contextPressureInputs look 0 0 (some 80)) =
        { state with lastOutputBytes := 0 } :=
      ContextPressureTracker.recalled_of_le hstate hzero.le
    rw [htracker, member_observe]
    refine ⟨_, rfl, ?_⟩
    rw [ContextPressureTracker.seen, hrecalled]
    refine ⟨hlast.le, fun h => ?_, fun h => ?_, le_rfl, fun hworking since hsince => ?_⟩
    · rw [h, Bool.true_or]
    · rw [h, Bool.true_or]
    · have hhigh := (high_of_presses hobservation trivial hworking hkeeps).1
      rw [ContextPressureTracker.since, decide_eq_true hworking, hrecalled]
      dsimp only
      rw [Option.mem_def.mp hsince, Option.getD_some]
      cases shouldForceRestart (daemon.contextPressureInputs look 0 0 (some 80))
        daemon.restartDelaySecs with
      | true => rfl
      | false => exact if_pos hhigh
  · exact .inl ⟨hmem, hnone⟩

end

end PressureDaemon

/-- The events are in the order of time. -/
abbrev InOrder (notices : List PressureNotice) : Prop :=
  notices.Pairwise fun notice notice' => notice.time ≤ notice'.time

open PressureDaemon in
theorem restartsUnderPressure_of_keepsMemory {start : PressureDaemon}
    {notices : List PressureNotice} (hfresh : start.Fresh) (hordered : InOrder notices)
    (hkeeps : start.KeepsMemory notices) : start.RestartsUnderPressure notices := by
  rintro before first stretch last after rfl hfirst hlast ⟨hworking, hpresses, hpressed⟩ hdelay
  rw [keepsMemory_append, keepsMemory_append] at hkeeps
  obtain ⟨-, ⟨hkeepsFirst, hkeepsRest⟩, -⟩ := hkeeps
  have hpast : (start.through before).Past first.time := by
    refine Past.through (fun state hstate => ?_) fun notice hmem => ?_
    · rw [hfresh.member] at hstate
      cases hstate
    · exact (List.pairwise_append.mp hordered).2.2 notice hmem first (by simp)
  rcases highSince_of_first hpast hfirst hpresses hworking hkeepsFirst with hrestart | hhigh
  · exact issuedSince_of_step _ hrestart
  · refine issuedSince_of_through ?_
    refine hhigh.restart hlast hpressed hkeepsRest ?_
    rw [restartDelaySecs_step, restartDelaySecs_through]
    exact hdelay

open PressureDaemon in
/-- **Pressure is acted on** in every run in which no less is seen of the agent than before. -/
theorem actsOnPressure_of_keepsMemory {start : PressureDaemon} {notices : List PressureNotice}
    (hfresh : start.Fresh) (hordered : InOrder notices) (hkeeps : start.KeepsMemory notices) :
    start.ActsOnPressure notices where
  warnsOnce := warnsOnce_through hfresh.notes notices
  restarts := restartsUnderPressure_of_keepsMemory hfresh hordered hkeeps
  remembers := by
    rintro before look after rfl
    exact remembers_of_contextApproaching (keepsMemory_append.mp hkeeps).2.1

/-! ### A warning in between -/

/-- An agent that talks and does nothing. -/
def talkingLook (secs : Nat) : PressureLook where
  now := fromSecs secs
  narrating := true
  assistantMessageCount := 4
  toolCallCount := 0
  uniqueToolNames := 0
  shrinkingResponses := false
  repeatedIdenticalOutputs := false
  toolFailureMessage := none
  secsSinceLastCommit := none
  restart := .ok true
  watchAfterRestart := ⟨.starting, some .idle, none⟩
  respawn := .ok ()
  watchAfterRespawn := ⟨.starting, some .idle, none⟩

def talkingDaemon : PressureDaemon where
  name := "eng-1"
  tracker := .new 100 512000
  watch := ⟨.working, some .working, some 0⟩
  hasShim := true
  restartDelaySecs := 120
  threshold := 100

/-- After a minute of pressure the agent warns that its context fills up. -/
def approachedNotices : List PressureNotice := [
  .sessionStats (talkingLook 0) 512000 60,
  .contextApproaching (talkingLook 60),
  .sessionStats (talkingLook 130) 512000 190]

/-- The pressure has lasted for more than the delay of two minutes, and the agent is warned and
nudged again instead of restarted. -/
theorem not_actsOnPressure_approached : talkingDaemon.Fresh ∧ InOrder approachedNotices ∧
    ¬ talkingDaemon.ActsOnPressure approachedNotices := by
  refine ⟨⟨rfl, rfl⟩, by decide, fun h => ?_⟩
  have hpressed : talkingDaemon.Pressed approachedNotices :=
    ⟨rfl, show (_ : Nat) ≤ _ by decide +kernel, rfl, trivial, rfl,
      show (_ : Nat) ≤ _ by decide +kernel, trivial⟩
  have hrestart := h.restarts [] (.sessionStats (talkingLook 0) 512000 60)
    [.contextApproaching (talkingLook 60)] (.sessionStats (talkingLook 130) 512000 190) [] rfl
    rfl rfl hpressed (by decide)
  have hissued : talkingDaemon.issuedSince (talkingDaemon.through approachedNotices) =
      [.warn, .nudge, .warn, .nudge] := by decide +kernel
  exact absurd (hissued ▸ hrestart) (by decide)

/-- Two looks at an agent that only talks. -/
theorem actsOnPressure_of_keepsMemory_talking : talkingDaemon.ActsOnPressure [
    .sessionStats (talkingLook 0) 512000 60, .sessionStats (talkingLook 130) 512000 190] := by
  refine actsOnPressure_of_keepsMemory ⟨rfl, rfl⟩ (by decide) ⟨fun _ => ?_, fun _ => ?_, trivial⟩
  · exact ⟨by decide +kernel, by decide⟩
  · exact ⟨by decide +kernel, by decide⟩

end Batty
