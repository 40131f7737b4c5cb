import Batty.Shim.Common

/-!
# The terminal runtime

The agent runs in a terminal, and its state is read off the screen. The reader thread takes the
output; the idle thread waits for a quiet screen of an agent that repaints its prompt too early;
the poll thread looks again at the screen of an agent that went quiet. The terminal and the
reading of its screen are outside the runtime: an input brings the screen along with the verdict
on it and the response that it shows.
-/

namespace Batty

/-- The agents whose screen is read. -/
inductive AgentType where
  | claude | codex | kiro | generic
deriving DecidableEq

/-- What the screen says. -/
inductive ScreenVerdict where
  | agentIdle | agentWorking | contextExhausted | unknown
deriving DecidableEq

/-- A screen, and the response that is cut from it. -/
structure Screen where
  contents : String
  verdict : ScreenVerdict
  response : String

/-- What the threads share. -/
structure ShimInner where
  agentType : AgentType
  state : ShimState
  preInjectionContent : String
  pendingMessageId : Option String
  messageQueue : List QueuedMessage
  testFailureIterations : Nat
  contextApproachingEmitted : Bool
  /-- The agent has shown its first prompt, and commands are taken. -/
  isReady : Bool

/-- The command loop, the reader, and the two threads that look at the screen. -/
inductive PtyKind where
  | command | reader | idle | poll
deriving DecidableEq

/-- What the threads wait for. -/
inductive PtyInput where
  /-- A look at the state before commands are taken; `timedOut` if there were too many. -/
  | startup (timedOut : Bool)
  | sendMessage (message : QueuedMessage) (contents : String)
  /-- A shutdown, a kill, or the end of the channel. -/
  | hangUp
  /-- Output that changed the screen; `dwelt` if the state has held for long enough. -/
  | output (screen : Screen) (dwelt : Bool)
  | ptyEnd
  /-- The screen, after the output has been quiet for long enough. -/
  | settled (screen : Screen)
  | polled (screen : Screen)

/-- The second section of a delivery. -/
inductive PtyPoint where
  | injected (messageId : Option String)

def detectContextApproachingLimit (text : String) : Bool :=
  Text.mentions (Text.toLowercase text.toList)
    ["automatically compress prior messages", "context window is approaching",
      "approaching context limit", "context is getting large",
      "conversation history has been compressed", "messages were compressed",
      "running low on context", "nearing the context limit"]

namespace ShimInner

abbrev Section := ShimInner × List (ShimAct PtyKind PtyPoint)

/-! ### Commands -/

def startup (inner : ShimInner) (timedOut : Bool) : Section :=
  match inner.state with
  | .dead => (inner, [.stop])
  | .idle => ({ inner with isReady := true }, [.send .ready])
  | _ =>
    if timedOut then (inner, [.send (.error "startup" "agent did not show prompt"), .stop])
    else (inner, [])

def sendMessage (inner : ShimInner) (message : QueuedMessage) (contents : String) : Section :=
  match inner.state with
  | .idle =>
    let failed : List (ShimEvent String) :=
      answerWith (.deliveryFailed · "PTY write failed") message.messageId ++
        [.error "SendMessage" "PTY write failed"]
    ({ inner with
        preInjectionContent := contents, pendingMessageId := message.messageId
        testFailureIterations := 0 },
      [.write (.message message) (some (failed, none)), .lock (.injected message.messageId)])
  | .working =>
    let (messageQueue, events) := queueMessage inner.messageQueue message
    ({ inner with messageQueue }, events.map .send)
  | other => (inner, [.send (refusal other)])

def injected (inner : ShimInner) (messageId : Option String) : Section :=
  ({ inner with state := .working },
    (answerWith .messageDelivered messageId).map .send ++
      [.send (.stateChanged inner.state .working)])

/-! ### The screen -/

def newState (inner : ShimInner) (verdict : ScreenVerdict) (dwelt : Bool) : Option ShimState :=
  match inner.state, verdict with
  | .starting, .agentIdle => some .idle
  | .working, .agentIdle => if !dwelt || inner.agentType = .kiro then none else some .idle
  | _, .contextExhausted => some .contextExhausted
  | .idle, .agentWorking | .starting, .agentWorking => some .working
  | _, _ => none

def buildTransitionEvents (inner : ShimInner) (source target : ShimState) :
    List (ShimEvent String) :=
  .stateChanged source target ::
    if source = .working && target = .idle && !inner.preInjectionContent.isEmpty then
      [.completion inner.pendingMessageId]
    else []

/-- The agent is idle after a turn: failed tests send it back to work, and else the head of the
queue, if there is one, opens the next turn. `failed` follows a queued message that could not be
written. -/
def completeTurn (inner : ShimInner) (screen : Screen) (failed : List (ShimEvent String)) :
    Section :=
  match detectTestFailureFollowup screen.response inner.testFailureIterations with
  | some followup =>
    ({ inner with
        testFailureIterations := followup.nextIterationCount
        preInjectionContent := screen.contents, pendingMessageId := none, state := .working },
      [.write (.followup followup.body)
          (some ([.error "SendMessage" "PTY write failed for test failure follow-up"], none)),
        .send (.warning followup.notice)])
  | none =>
    let events : List (ShimAct PtyKind PtyPoint) :=
      (inner.buildTransitionEvents .working .idle).map .send
    let inner := { inner with testFailureIterations := 0, pendingMessageId := none }
    match inner.messageQueue with
    | [] => ({ inner with state := .idle }, events)
    | message :: messageQueue =>
      ({ inner with
          preInjectionContent := screen.contents, pendingMessageId := message.messageId
          state := .working, messageQueue },
        events ++ [
          .write (.message message)
            (some (.error "SendMessage" "PTY write failed for queued message" :: failed, none)),
          .send (.stateChanged .idle .working)])

def output (inner : ShimInner) (screen : Screen) (dwelt : Bool) : Section :=
  if !inner.contextApproachingEmitted && detectContextApproachingLimit screen.contents then
    ({ inner with contextApproachingEmitted := true }, [])
  else
    match inner.newState screen.verdict dwelt with
    | none => (inner, [])
    | some new =>
      if inner.state = .working && new = .idle then
        inner.completeTurn screen [.stateChanged .idle .working]
      else
        let dropped := if new = .contextExhausted then inner.messageQueue else []
        let kept := if new = .contextExhausted then [] else inner.messageQueue
        ({ inner with state := new, pendingMessageId := none, messageQueue := kept },
          (inner.buildTransitionEvents inner.state new).map .send ++
            (drainQueueErrors dropped .contextExhausted).map .send)

def ptyEnd (inner : ShimInner) : Section :=
  ({ inner with state := .dead, messageQueue := [] },
    .send (.stateChanged inner.state .dead) ::
      (drainQueueErrors inner.messageQueue .dead).map .send ++ [.stop])

def settled (inner : ShimInner) (screen : Screen) : Section :=
  if inner.agentType = .kiro && inner.state = .working && screen.verdict = .agentIdle then
    inner.completeTurn screen []
  else (inner, [])

def polled (inner : ShimInner) (screen : Screen) : Section :=
  if inner.state = .working && screen.verdict = .agentIdle then
    ({ inner with state := .idle }, [.send (.stateChanged .working .idle)])
  else (inner, [])

/-! ### The threads -/

def receive : PtyKind → PtyInput → ShimInner → Section
  | .command, .startup timedOut, inner => inner.startup timedOut
  | .command, .sendMessage message contents, inner => inner.sendMessage message contents
  | .command, .hangUp, inner => (inner, [.stop])
  | .reader, .output screen dwelt, inner => inner.output screen dwelt
  | .reader, .ptyEnd, inner => inner.ptyEnd
  | .idle, .settled screen, inner => inner.settled screen
  | .poll, .polled screen, inner => inner.polled screen
  | _, _, inner => (inner, [])

end ShimInner

def PtyInput.kind : PtyInput → PtyKind
  | .startup _ | .sendMessage _ _ | .hangUp => .command
  | .output _ _ | .ptyEnd => .reader
  | .settled _ => .idle
  | .polled _ => .poll

def PtyInput.message? : PtyInput → Option QueuedMessage
  | .sendMessage message _ => some message
  | _ => none

/-- Whether an input is for the stretch before the shim is ready, or for the one after. -/
def PtyInput.isTimely (inner : ShimInner) : PtyInput → Bool
  | .startup _ => !inner.isReady
  | .sendMessage _ _ | .hangUp => inner.isReady
  | _ => true

def ShimInner.machine :
    Machine ShimInner PtyInput PtyKind PtyPoint AgentLine (ShimEvent String) where
  accepts kind input inner := input.kind = kind && input.isTimely inner
  receive := ShimInner.receive
  resume | .injected messageId, inner => inner.injected messageId

abbrev PtyShim := ShimWorld ShimInner PtyInput PtyKind PtyPoint

/-- The runtime in a terminal. -/
def Pty.run (agentType : AgentType) : Runtime where
  State := ShimInner
  Input := PtyInput
  Kind := PtyKind
  Point := PtyPoint
  machine := ShimInner.machine
  state := ShimInner.state
  messageQueue := ShimInner.messageQueue
  incoming := PtyInput.message?
  owed := fun (.injected messageId) => messageId
  start := {
    shared := {
      agentType, state := .starting, preInjectionContent := "", pendingMessageId := none
      messageQueue := [], testFailureIterations := 0, contextApproachingEmitted := false
      isReady := false }
    threads := [⟨.command, some []⟩, ⟨.reader, some []⟩, ⟨.idle, some []⟩, ⟨.poll, some []⟩]
    received := []
    sent := []
    written := [] }

theorem PtyInput.kind_of_accepts {agentType : AgentType} {kind : PtyKind} {input : PtyInput}
    {inner : ShimInner} (h : (Pty.run agentType).machine.accepts kind input inner = true) :
    input.kind = kind := by
  have haccepts : (decide (input.kind = kind) && input.isTimely inner) = true := h
  exact of_decide_eq_true (Bool.and_eq_true_iff.mp haccepts).1

end Batty
