import Batty.Shim.Common

/-!
# The Kiro runtime

The agent is one process that answers numbered requests. The shim first opens a session; only
then does the command thread take commands. The reader thread takes the agent's answers, and a
turn ends with the answer to the prompt that opened it.
-/

namespace Batty

/-- What the threads share. -/
structure KiroState where
  state : ShimState
  pendingMessageId : Option String
  messageQueue : List QueuedMessage
  initialized : Bool
  sentSessionNew : Bool
  pendingPromptRequestId : Option Nat
  /-- The counter from which requests are numbered. -/
  requestId : Nat

/-- The command loop and the reader. -/
inductive KiroKind where
  | command | reader
deriving DecidableEq

/-- What the threads wait for. -/
inductive KiroInput where
  | sendMessage (message : QueuedMessage)
  /-- A shutdown, a kill, or the end of the channel. -/
  | hangUp
  | errorResponse (id : Nat) (message : Option String)
  | resultResponse (id : Nat) (sessionId : Option String)
  /-- A report of how much of the context is used; `exhausted` from 98 per cent on. -/
  | metadata (exhausted : Bool)
  | stdoutEnd

/-- The section that notes the request of a queued message. -/
inductive KiroPoint where
  | promptSent (requestId : Nat)

namespace KiroState

abbrev Section := KiroState × List (ShimAct KiroKind KiroPoint)

/-! ### Commands -/

def sendMessage (st : KiroState) (message : QueuedMessage) : Section :=
  match st.state with
  | .idle =>
    let failed : List (ShimEvent String) :=
      answerWith (.deliveryFailed · "stdin write failed (closed)") message.messageId ++
        [.error "SendMessage" "stdin write failed (closed)"]
    ({ st with
        pendingMessageId := message.messageId, state := .working
        pendingPromptRequestId := some st.requestId, requestId := st.requestId + 1 },
      [.write (.message message) (some (failed, none))] ++
        (answerWith .messageDelivered message.messageId).map .send ++
        [.send (.stateChanged .idle .working)])
  | .working =>
    let (messageQueue, events) := queueMessage st.messageQueue message
    ({ st with messageQueue }, events.map .send)
  | other => (st, [.send (refusal other)])

/-! ### Answers of the agent -/

def exhaustContext (st : KiroState) : Section :=
  ({ st with state := .contextExhausted, messageQueue := [] },
    .send (.stateChanged st.state .contextExhausted) ::
      (drainQueueErrors st.messageQueue .contextExhausted).map .send)

def errorResponse (st : KiroState) (id : Nat) (message : Option String) : Section :=
  if st.pendingPromptRequestId = some id then
    let st := { st with pendingPromptRequestId := none }
    if detectContextExhausted (message.getD "unknown error") then st.exhaustContext
    else
      -- the prompt has failed, and the turn is over without a look at the queue
      ({ st with pendingMessageId := none, state := .idle },
        [.send (.stateChanged .working .idle), .send (.completion st.pendingMessageId)])
  else (st, [])

/-- The prompt is answered. The head of the queue, if there is one, becomes the next prompt. -/
def completePrompt (st : KiroState) : Section :=
  let completed : List (ShimAct KiroKind KiroPoint) :=
    [.send (.stateChanged st.state .idle), .send (.completion st.pendingMessageId)]
  let st := { st with pendingPromptRequestId := none }
  match st.messageQueue with
  | [] => ({ st with pendingMessageId := none, state := .idle }, completed)
  | message :: messageQueue =>
    ({ st with
        pendingMessageId := message.messageId, state := .working, messageQueue
        requestId := st.requestId + 1 },
      completed ++ [.write (.message message) none, .lock (.promptSent st.requestId)])

def promptSent (st : KiroState) (requestId : Nat) : Section :=
  ({ st with pendingPromptRequestId := some requestId }, [.send (.stateChanged .idle .working)])

def resultResponse (st : KiroState) (id : Nat) (sessionId : Option String) : Section :=
  if !st.initialized && !st.sentSessionNew then
    ({ st with sentSessionNew := true, requestId := st.requestId + 1 }, [])
  else if !st.initialized then
    match sessionId with
    | some _ => ({ st with initialized := true, state := .idle }, [.send .ready])
    | none => (st, [])
  else if st.pendingPromptRequestId = some id then st.completePrompt
  else (st, [])

def metadata (st : KiroState) (exhausted : Bool) : Section :=
  if exhausted then st.exhaustContext else (st, [])

def stdoutEnd (st : KiroState) : Section :=
  ({ st with state := .dead, messageQueue := [] },
    .send (.stateChanged st.state .dead) ::
      (drainQueueErrors st.messageQueue .dead).map .send ++ [.stop])

/-! ### The threads -/

def receive : KiroKind → KiroInput → KiroState → Section
  | .command, .sendMessage message, st => st.sendMessage message
  | .command, .hangUp, st => (st, [.stop])
  | .reader, .errorResponse id message, st => st.errorResponse id message
  | .reader, .resultResponse id sessionId, st => st.resultResponse id sessionId
  | .reader, .metadata exhausted, st => st.metadata exhausted
  | .reader, .stdoutEnd, st => st.stdoutEnd
  | _, _, st => (st, [])

end KiroState

def KiroInput.kind : KiroInput → KiroKind
  | .sendMessage _ | .hangUp => .command
  | .errorResponse _ _ | .resultResponse _ _ | .metadata _ | .stdoutEnd => .reader

def KiroInput.message? : KiroInput → Option QueuedMessage
  | .sendMessage message => some message
  | _ => none

def KiroState.machine :
    Machine KiroState KiroInput KiroKind KiroPoint AgentLine (ShimEvent String) where
  accepts kind input st := input.kind = kind && (kind = .reader || st.initialized)
  receive := KiroState.receive
  resume | .promptSent requestId, st => st.promptSent requestId

abbrev KiroShim := ShimWorld KiroState KiroInput KiroKind KiroPoint

/-- The first request, numbered 0, is on its way. -/
def runKiroAcp : Runtime where
  State := KiroState
  Input := KiroInput
  Kind := KiroKind
  Point := KiroPoint
  machine := KiroState.machine
  state := KiroState.state
  messageQueue := KiroState.messageQueue
  incoming := KiroInput.message?
  owed _ := none
  start := {
    shared := {
      state := .starting, pendingMessageId := none, messageQueue := [], initialized := false
      sentSessionNew := false, pendingPromptRequestId := none, requestId := 1 }
    threads := [⟨.command, some []⟩, ⟨.reader, some []⟩]
    received := []
    sent := []
    written := [] }

theorem KiroInput.kind_of_accepts {kind : KiroKind} {input : KiroInput} {st : KiroState}
    (h : runKiroAcp.machine.accepts kind input st = true) : input.kind = kind := by
  have haccepts : (decide (input.kind = kind) && (decide (kind = .reader) || st.initialized)) =
    true := h
  exact of_decide_eq_true (Bool.and_eq_true_iff.mp haccepts).1

end Batty
