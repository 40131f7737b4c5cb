import Batty.Shim.Common

/-!
# The Claude runtime

The agent is one process for the life of the shim. The command thread takes the commands and,
when none comes for a while, keeps the session alive; the reader thread takes the lines that the
agent prints and gives up on a turn that stays silent too long.
-/

namespace Batty

/-- What the threads share. -/
structure SdkState where
  state : ShimState
  sessionId : String
  accumulatedResponse : String
  pendingMessageId : Option String
  messageQueue : List QueuedMessage
  testFailureIterations : Nat

/-- The command loop and the reader. -/
inductive SdkKind where
  | command | reader
deriving DecidableEq

/-- What the threads wait for. -/
inductive SdkInput where
  | sendMessage (message : QueuedMessage)
  /-- No command came; `keepaliveDue` if none has for long enough. -/
  | commandTimeout (keepaliveDue : Bool)
  /-- A shutdown, a kill, or the end of the channel. -/
  | hangUp
  | assistant (text : String) (sessionId : Option String)
  | streamEvent (text : String) (sessionId : Option String)
  | result (result : Option String) (errors : Option (List String)) (sessionId : Option String)
  | stdoutTimeout
  | stdoutEnd

/-- The second section of a keepalive. -/
inductive SdkPoint where
  | keepaliveFailed

namespace SdkState

abbrev Section := SdkState × List (ShimAct SdkKind SdkPoint)

def turnInFlight (st : SdkState) : Bool :=
  st.state = .working || st.pendingMessageId.isSome

def noteSession (st : SdkState) (sessionId : Option String) : SdkState :=
  if st.sessionId.isEmpty then { st with sessionId := sessionId.getD st.sessionId } else st

/-! ### Commands -/

def sendMessage (st : SdkState) (message : QueuedMessage) : Section :=
  match st.state with
  | .idle =>
    let failed : List (ShimEvent String) :=
      answerWith (.deliveryFailed · "stdin write failed") message.messageId ++
        [.error "SendMessage" "stdin write failed"]
    ({ st with
        pendingMessageId := message.messageId, accumulatedResponse := ""
        testFailureIterations := 0, state := .working },
      [.write (.message message) (some (failed, none))] ++
        (answerWith .messageDelivered message.messageId).map .send ++
        [.send (.stateChanged .idle .working)])
  | .working =>
    let (messageQueue, events) := queueMessage st.messageQueue message
    ({ st with messageQueue }, events.map .send)
  | other => (st, [.send (refusal other)])

def maybeSendKeepalive (st : SdkState) (due : Bool) : Section :=
  if due && st.state = .idle && !st.sessionId.isEmpty && st.pendingMessageId.isNone then
    ({ st with state := .working, accumulatedResponse := "", testFailureIterations := 0 },
      [.write .keepalive (some ([], some .keepaliveFailed))])
  else (st, [])

def keepaliveFailed (st : SdkState) : Section := ({ st with state := .idle }, [])

/-! ### Lines of the agent -/

def streamEvent (st : SdkState) (text : String) (sessionId : Option String) : Section :=
  if !st.turnInFlight then (st, [])
  else ({ st with accumulatedResponse := st.accumulatedResponse ++ text }.noteSession sessionId, [])

def assistant (st : SdkState) (text : String) (sessionId : Option String) : Section :=
  if text.isEmpty then (st, []) else st.streamEvent text sessionId

/-- The turn is over: the head of the queue, if there is one, opens the next. -/
def completeTurn (st : SdkState) : SdkState × Option QueuedMessage :=
  match st.messageQueue with
  | [] => ({ st with state := .idle, pendingMessageId := none }, none)
  | message :: messageQueue =>
    ({ st with
        state := .working, pendingMessageId := message.messageId, messageQueue }, some message)

/-- What is said of a completed turn, and the write that opens the next. Whether that write
succeeds is not looked at. -/
def announceCompletion (old : ShimState) (messageId : Option String)
    (queued : Option QueuedMessage) : List (ShimAct SdkKind SdkPoint) :=
  [.send (.stateChanged old .idle), .send (.completion messageId)] ++
    match queued with
    | none => []
    | some message =>
      [.write (.message message) none, .send (.stateChanged .idle .working)]

def exhaustContext (st : SdkState) : Section :=
  ({ st with state := .contextExhausted, messageQueue := [] },
    .send (.stateChanged st.state .contextExhausted) ::
      (drainQueueErrors st.messageQueue .contextExhausted).map .send)

def reportsExhaustion (result : Option String) (errors : Option (List String)) : Bool :=
  (errors.getD []).any detectContextExhausted || (result.map detectContextExhausted).getD false

def response (st : SdkState) (result : Option String) : String :=
  if st.accumulatedResponse.isEmpty then result.getD "" else st.accumulatedResponse

def result (st : SdkState) (result : Option String) (errors : Option (List String))
    (sessionId : Option String) : Section :=
  if !st.turnInFlight then (st, [])
  else
    let st := st.noteSession sessionId
    if reportsExhaustion result errors then exhaustContext st
    else
      let response := st.response result
      let st := { st with accumulatedResponse := "" }
      match detectTestFailureFollowup response st.testFailureIterations with
      | some followup =>
        ({ st with
            pendingMessageId := none, testFailureIterations := followup.nextIterationCount
            state := .working },
          [.write (.followup followup.body) none, .send (.warning followup.notice)])
      | none =>
        let (next, queued) := { st with testFailureIterations := 0 }.completeTurn
        (next, announceCompletion st.state st.pendingMessageId queued)

def forceStalledCompletion (st : SdkState) : Section :=
  if st.state = .working then
    let (next, queued) := { st with accumulatedResponse := "" }.completeTurn
    (next, announceCompletion st.state st.pendingMessageId queued)
  else (st, [])

def stdoutEnd (st : SdkState) : Section :=
  ({ st with state := .dead, messageQueue := [] },
    .send (.stateChanged st.state .dead) ::
      (drainQueueErrors st.messageQueue .dead).map .send ++ [.stop])

/-! ### What the note of a session leaves alone -/

section

variable {st : SdkState}

@[simp] theorem noteSession_state (sessionId : Option String) :
    (st.noteSession sessionId).state = st.state := by
  unfold noteSession
  split <;> rfl

@[simp] theorem noteSession_messageQueue (sessionId : Option String) :
    (st.noteSession sessionId).messageQueue = st.messageQueue := by
  unfold noteSession
  split <;> rfl

@[simp] theorem noteSession_response (sessionId result : Option String) :
    (st.noteSession sessionId).response result = st.response result := by
  unfold noteSession
  split <;> rfl

@[simp] theorem noteSession_testFailureIterations (sessionId : Option String) :
    (st.noteSession sessionId).testFailureIterations = st.testFailureIterations := by
  unfold noteSession
  split <;> rfl

end

/-! ### The threads -/

def receive : SdkKind → SdkInput → SdkState → Section
  | .command, .sendMessage message, st => st.sendMessage message
  | .command, .commandTimeout due, st => st.maybeSendKeepalive due
  | .command, .hangUp, st => (st, [.stop])
  | .reader, .assistant text sessionId, st => st.assistant text sessionId
  | .reader, .streamEvent text sessionId, st => st.streamEvent text sessionId
  | .reader, .result result errors sessionId, st => st.result result errors sessionId
  | .reader, .stdoutTimeout, st => st.forceStalledCompletion
  | .reader, .stdoutEnd, st => st.stdoutEnd
  | _, _, st => (st, [])

end SdkState

def SdkInput.kind : SdkInput → SdkKind
  | .sendMessage _ | .commandTimeout _ | .hangUp => .command
  | .assistant _ _ | .streamEvent _ _ | .result _ _ _ | .stdoutTimeout | .stdoutEnd => .reader

def SdkInput.message? : SdkInput → Option QueuedMessage
  | .sendMessage message => some message
  | _ => none

def SdkState.machine :
    Machine SdkState SdkInput SdkKind SdkPoint AgentLine (ShimEvent String) where
  accepts kind input _ := input.kind = kind
  receive := SdkState.receive
  resume | .keepaliveFailed, st => st.keepaliveFailed

abbrev SdkShim := ShimWorld SdkState SdkInput SdkKind SdkPoint

/-- The runtime of Claude's SDK. -/
def runSdk : Runtime where
  State := SdkState
  Input := SdkInput
  Kind := SdkKind
  Point := SdkPoint
  machine := SdkState.machine
  state := SdkState.state
  messageQueue := SdkState.messageQueue
  incoming := SdkInput.message?
  owed _ := none
  start := {
    shared := {
      state := .idle, sessionId := "", accumulatedResponse := "", pendingMessageId := none
      messageQueue := [], testFailureIterations := 0 }
    threads := [⟨.command, some []⟩, ⟨.reader, some []⟩]
    received := []
    sent := [.ready]
    written := [] }

theorem SdkInput.kind_of_accepts {kind : SdkKind} {input : SdkInput} {st : SdkState}
    (h : runSdk.machine.accepts kind input st = true) : input.kind = kind :=
  of_decide_eq_true h

end Batty
