import Batty.Health.Working

/-!
# Context pressure

How much an agent has written, and how it behaves, adds up to a score. When the score gets high the
agent is warned and nudged, each once; when it has been above the threshold for a while the agent
is restarted. What this takes is kept for each agent, and forgotten when the agent has written less
than it had before, as that is a new session.

Here is what the daemon keeps about one agent, and what each event from its shim does to it.
-/

namespace Batty

def u64Max : Nat := 2 ^ 64 - 1

def warningPercent : Nat := 70

def nudgePercent : Nat := 90

def claudeProactiveRestartPct : Nat := 80

/-- What is done about a context that fills up. -/
inductive ContextPressureAction where
  | warn | nudge | restart
deriving DecidableEq

/-- What is observed of an agent. -/
structure ContextPressureInputs where
  outputBytes : Nat
  sessionUptimeSecs : Nat
  proactiveContextUsagePct : Option Nat
  narrationDetected : Bool
  metaConversationDetected : Bool
  assistantMessageCount : Nat
  toolCallCount : Nat
  uniqueToolNames : Nat
  shrinkingResponses : Bool
  repeatedIdenticalOutputs : Bool
  toolFailureMessage : Option String
  shimFailureCount : Nat
  secsSinceLastCommit : Option Nat

/-- What is remembered of an agent. -/
structure ContextPressureState where
  lastOutputBytes : Nat := 0
  warningEmitted : Bool := false
  nudgeSent : Bool := false
  overThresholdSince : Option Nat := none
  shimFailureCount : Nat := 0

/-- The tracker, as far as one agent is concerned. -/
structure ContextPressureTracker where
  member : Option ContextPressureState
  threshold : Nat
  thresholdBytes : Nat

/-- The weights of what was observed, added up. -/
def computePressureScore (inputs : ContextPressureInputs) (thresholdBytes : Nat) : Nat :=
  let sinceCommit := inputs.secsSinceLastCommit.getD u64Max
  let written := min (min (inputs.outputBytes * 35) u64Max / max thresholdBytes 1) 35
  let known := if inputs.proactiveContextUsagePct.isSome then max written 100 else written
  known +
    (if inputs.narrationDetected then 25 else 0) +
    (if inputs.metaConversationDetected then 30 else 0) +
    (if inputs.assistantMessageCount ≥ 3 ∧ inputs.toolCallCount = 0 then 25
      else if inputs.assistantMessageCount ≥ 4 ∧
        inputs.assistantMessageCount ≥ min (inputs.toolCallCount * 3) (2 ^ 32 - 1) then 15
      else 0) +
    (if inputs.toolCallCount ≥ 3 ∧ inputs.uniqueToolNames ≤ 1 then 10 else 0) +
    (if inputs.repeatedIdenticalOutputs then 20 else 0) +
    (if inputs.shrinkingResponses then 15 else 0) +
    (if inputs.toolFailureMessage.isSome then 10 else 0) +
    (if inputs.shimFailureCount ≥ 2 then 10 else 0) +
    (if inputs.shimFailureCount ≥ 3 then 15 else 0) +
    (if inputs.assistantMessageCount ≥ 3 ∧ inputs.outputBytes ≥ thresholdBytes / 2 ∧
      sinceCommit ≥ 900 then 15 else 0) +
    (if inputs.sessionUptimeSecs ≥ 900 ∧ sinceCommit ≥ 900 then 15 else 0)

/-- The agent has failed again and again without a commit. -/
def shouldForceRestart (inputs : ContextPressureInputs) (restartDelaySecs : Nat) : Bool :=
  let restartDelaySecs := max restartDelaySecs 1
  inputs.sessionUptimeSecs ≥ restartDelaySecs && inputs.shimFailureCount ≥ 3 &&
    inputs.secsSinceLastCommit.getD u64Max ≥ restartDelaySecs

namespace ContextPressureTracker

variable (tracker : ContextPressureTracker)

/-- A tracker that knows of no agent. -/
def new (threshold thresholdBytes : Nat) : ContextPressureTracker where
  member := none
  threshold := max threshold 1
  thresholdBytes := max thresholdBytes 1

def clearMember : ContextPressureTracker := { tracker with member := none }

def markNotWorking : ContextPressureTracker :=
  { tracker with
    member := tracker.member.map fun state => { state with overThresholdSince := none } }

def recordFailure : ContextPressureTracker :=
  let state := tracker.member.getD {}
  let shimFailureCount := min (state.shimFailureCount + 1) (2 ^ 32 - 1)
  { tracker with member := some { state with shimFailureCount } }

def shimFailureCount : Nat := (tracker.member.map ContextPressureState.shimFailureCount).getD 0

/-- How much the agent had written when it was last looked at. -/
def lastOutputBytes : Nat := (tracker.member.map ContextPressureState.lastOutputBytes).getD 0

/-- The score that counts: a warning from the agent itself is enough. -/
def score (inputs : ContextPressureInputs) : Nat :=
  let score := computePressureScore inputs tracker.thresholdBytes
  if inputs.proactiveContextUsagePct.getD 0 ≥ claudeProactiveRestartPct then
    max score tracker.threshold
  else score

/-- What is kept of the agent when this is seen of it. -/
def recalled (inputs : ContextPressureInputs) : ContextPressureState :=
  let state := tracker.member.getD {}
  let state := if inputs.outputBytes < state.lastOutputBytes then {} else state
  { state with lastOutputBytes := inputs.outputBytes }

def warns (inputs : ContextPressureInputs) : Bool :=
  tracker.score inputs ≥ min (tracker.threshold * warningPercent) u64Max / 100 &&
    !(tracker.recalled inputs).warningEmitted

def nudges (inputs : ContextPressureInputs) : Bool :=
  tracker.score inputs ≥ min (tracker.threshold * nudgePercent) u64Max / 100 &&
    !(tracker.recalled inputs).nudgeSent

/-- The score, and what is to be done about it. -/
def observeAt (inputs : ContextPressureInputs) (isWorking : Bool) (restartDelaySecs now : Nat) :
    ContextPressureTracker × Nat × List ContextPressureAction :=
  let state := tracker.recalled inputs
  if !isWorking then
    ({ tracker with member := some { state with overThresholdSince := none } }, 0, [])
  else
    let score := tracker.score inputs
    let warns := tracker.warns inputs
    let nudges := tracker.nudges inputs
    let state := { state with
      warningEmitted := state.warningEmitted || warns
      nudgeSent := state.nudgeSent || nudges }
    let actions := (if warns then [ContextPressureAction.warn] else []) ++
      if nudges then [ContextPressureAction.nudge] else []
    if shouldForceRestart inputs restartDelaySecs then
      ({ tracker with member := some state }, score, actions ++ [.restart])
    else if score ≥ tracker.threshold then
      let since := state.overThresholdSince.getD now
      ({ tracker with member := some { state with overThresholdSince := some since } }, score,
        actions ++ if now - since ≥ fromSecs (max restartDelaySecs 1) then [.restart] else [])
    else ({ tracker with member := some { state with overThresholdSince := none } }, score, actions)

end ContextPressureTracker

/-! ### The daemon -/

/-- An action that the tracker has asked for, at a time, after so many resets. -/
structure IssuedAction where
  action : ContextPressureAction
  time : Nat
  resets : Nat

/-- What the daemon keeps about an agent; the last two fields are for the record. -/
structure PressureDaemon where
  name : String
  tracker : ContextPressureTracker
  watch : WorkingWatch
  hasShim : Bool
  restartDelaySecs : Nat
  threshold : Nat
  actions : List String := []
  resets : Nat := 0
  issued : List IssuedAction := []

abbrev PressureAction := EStateM String PressureDaemon

/-- What is seen of an agent besides what an event says, and how a restart would go. -/
structure PressureLook where
  now : Nat
  narrating : Bool
  assistantMessageCount : Nat
  toolCallCount : Nat
  uniqueToolNames : Nat
  shrinkingResponses : Bool
  repeatedIdenticalOutputs : Bool
  toolFailureMessage : Option String
  secsSinceLastCommit : Option Nat
  /-- Whether a restart for context pressure is made, and what it leaves. -/
  restart : Except String Bool
  watchAfterRestart : WorkingWatch
  /-- The same for a restart of an agent that says nothing. -/
  respawn : Except String Unit
  watchAfterRespawn : WorkingWatch

namespace PressureDaemon

def recordOrchestratorAction (action : String) : PressureAction Unit :=
  modify fun daemon => { daemon with actions := daemon.actions ++ [action] }

/-- Forget what is kept of the agent. -/
def clearMember : PressureAction Unit :=
  modify fun daemon =>
    { daemon with tracker := daemon.tracker.clearMember, resets := daemon.resets + 1 }

def contextPressureInputs (daemon : PressureDaemon) (look : PressureLook)
    (outputBytes uptimeSecs : Nat) (proactiveUsagePct : Option Nat) : ContextPressureInputs where
  outputBytes
  sessionUptimeSecs := uptimeSecs
  proactiveContextUsagePct := proactiveUsagePct
  narrationDetected := look.narrating
  metaConversationDetected := look.narrating
  assistantMessageCount := look.assistantMessageCount
  toolCallCount := look.toolCallCount
  uniqueToolNames := look.uniqueToolNames
  shrinkingResponses := look.shrinkingResponses
  repeatedIdenticalOutputs := look.repeatedIdenticalOutputs
  toolFailureMessage := look.toolFailureMessage
  shimFailureCount := daemon.tracker.shimFailureCount
  secsSinceLastCommit := look.secsSinceLastCommit

/-- The observation, as it is kept. -/
def observe (daemon : PressureDaemon) (inputs : ContextPressureInputs) (now : Nat) :
    PressureDaemon :=
  let observed := daemon.tracker.observeAt inputs (daemon.watch.recorded = some .working)
    daemon.restartDelaySecs now
  let forgets := inputs.outputBytes < daemon.tracker.lastOutputBytes
  let resets := if forgets then daemon.resets + 1 else daemon.resets
  { daemon with
    tracker := observed.1
    resets
    issued := daemon.issued ++ observed.2.2.map fun action => { action, time := now, resets } }

def percentText : Option Nat → String
  | none => "None"
  | some pct => s!"Some({pct})"

/-- Do what the tracker has asked for. -/
def act (look : PressureLook) (inputs : ContextPressureInputs) (score : Nat) :
    ContextPressureAction → PressureAction Unit
  | .warn => do
    let daemon ← get
    let pct := percentText inputs.proactiveContextUsagePct
    recordOrchestratorAction <|
      s!"health: context pressure warning for {daemon.name} (score={score}/{daemon.threshold}, " ++
        s!"output_bytes={inputs.outputBytes}, proactive_context_usage_pct={pct})"
  | .nudge => do
    let daemon ← get
    let pct := percentText inputs.proactiveContextUsagePct
    recordOrchestratorAction <|
      s!"health: nudged {daemon.name} to wrap up under context pressure " ++
        s!"(score={score}/{daemon.threshold}, proactive_context_usage_pct={pct})"
  | .restart => do
    if (← get).hasShim then
      modify fun daemon => { daemon with watch := look.watchAfterRestart }
      if ← orFail look.restart then
        let daemon ← get
        recordOrchestratorAction <|
          s!"health: restarted {daemon.name} after sustained context pressure " ++
            s!"(score={score}/{daemon.threshold})"
        clearMember
      else return ()
    else return ()

def handleContextPressureSignal (look : PressureLook) (outputBytes uptimeSecs : Nat)
    (proactiveUsagePct : Option Nat) : PressureAction Unit := do
  let daemon ← get
  let inputs := daemon.contextPressureInputs look outputBytes uptimeSecs proactiveUsagePct
  let observed := daemon.tracker.observeAt inputs (daemon.watch.recorded = some .working)
    daemon.restartDelaySecs look.now
  set (daemon.observe inputs look.now)
  observed.2.2.forM (act look inputs observed.2.1)

def handleContextPressureStats (look : PressureLook) (outputBytes uptimeSecs : Nat) :
    PressureAction Unit := do
  if outputBytes = 0 && uptimeSecs ≥ zeroOutputThresholdSecs then
    let daemon ← get
    if daemon.watch.zeroOutputRestarts look.now outputBytes uptimeSecs && daemon.hasShim then
      recordOrchestratorAction
        s!"health: restarting {daemon.name} after {uptimeSecs}s with zero output"
      modify fun daemon => { daemon with watch := look.watchAfterRespawn }
      orFail look.respawn
      clearMember
    else return ()
  else handleContextPressureSignal look outputBytes uptimeSecs none

end PressureDaemon

/-- What comes from the shim of the agent. -/
inductive PressureNotice where
  | ready (now : Nat)
  | stateChanged (now : Nat) (target : ShimState)
  /-- A warning that does not say how much has been written. -/
  | contextApproaching (look : PressureLook)
  | sessionStats (look : PressureLook) (outputBytes uptimeSecs : Nat)
  | contextWarning (look : PressureLook) (outputBytes uptimeSecs usagePct : Nat)
  | error (now : Nat)
  /-- Whatever else happens leaves the tracker alone. -/
  | other (now : Nat) (watch : WorkingWatch)

namespace PressureDaemon

def handleShimEvent : PressureNotice → PressureAction Unit
  | .ready now => do
    clearMember
    modify fun daemon => { daemon with watch := WatchStep.ready.run now daemon.watch }
  | .stateChanged now target => do
    modify fun daemon =>
      { daemon with watch := (WatchStep.stateChanged target).run now daemon.watch }
    if memberStateOf target ≠ .working then
      modify fun daemon => { daemon with tracker := daemon.tracker.markNotWorking }
    else return ()
  | .contextApproaching look => handleContextPressureSignal look 0 0 (some 80)
  | .sessionStats look outputBytes uptimeSecs =>
    handleContextPressureStats look outputBytes uptimeSecs
  | .contextWarning look outputBytes uptimeSecs usagePct =>
    handleContextPressureSignal look outputBytes uptimeSecs (some usagePct)
  | .error _ => modify fun daemon => { daemon with tracker := daemon.tracker.recordFailure }
  | .other _ watch => modify fun daemon => { daemon with watch }

def step (daemon : PressureDaemon) (notice : PressureNotice) : PressureDaemon :=
  endState (handleShimEvent notice) daemon

/-- One event after another; an error ends the handling of an event, and what it did stays done. -/
def through (daemon : PressureDaemon) (notices : List PressureNotice) : PressureDaemon :=
  notices.foldl step daemon

end PressureDaemon

end Batty
