import Batty.Shim.Common

/-!
# The Codex runtime

Every message gets a process of its own, run by a thread of its own: the thread spawns it, writes
the prompt to it, reads what it prints, and when it ends opens the next process for the head of the
queue. A spawn that fails is announced; a prompt that cannot be written is logged and nothing else.
-/

namespace Batty

/-- What the threads share. -/
structure CodexState where
  state : ShimState
  pendingMessageId : Option String
  messageQueue : List QueuedMessage
  quotaBlockedUntil : Option Nat

/-- The command loop, and the thread of a process. -/
inductive CodexKind where
  | command | exec
deriving DecidableEq

/-- What a thread waits for. -/
inductive CodexInput where
  | sendMessage (message : QueuedMessage) (now : Nat)
  /-- A shutdown or a kill. -/
  | shutdown
  /-- The channel has ended. -/
  | hangUp
  /-- `retryAt` is the time after `try again at` in the error, as the local calendar reads it. -/
  | turnFailed (error : Option String) (retryAt : Option Nat)
  | error (error : Option String) (retryAt : Option Nat)
  | stdoutEnd

/-- Where a thread goes on after a failure. -/
inductive CodexPoint where
  | spawnFailed

def detectAuthRequired (message : String) : Bool :=
  let lower := Text.toAsciiLowercase message.toList
  Text.mentions lower ["refresh token was already used"] ||
    (Text.mentions lower ["failed to refresh token"] &&
      Text.mentions lower ["log out and sign in"])

/-- Whether an error reports a block by quota, whose end may be known. -/
def detectQuotaBlock (message : String) : Bool :=
  let lower := Text.toAsciiLowercase message.toList
  Text.mentions lower ["usage limit", "purchase more credits"] ||
    (Text.mentions lower ["quota"] && Text.mentions lower ["try again"])

namespace CodexState

abbrev Section := CodexState × List (ShimAct CodexKind CodexPoint)

/-! ### Commands -/

/-- A message to an idle shim is reported as delivered and gets a thread, in which its process is
spawned and then given the prompt; the failure of the second write changes nothing. -/
def deliver (st : CodexState) (message : QueuedMessage) : Section :=
  match st.state with
  | .idle =>
    ({ st with pendingMessageId := message.messageId, state := .working },
      [.send (.stateChanged .idle .working)] ++
        (answerWith .messageDelivered message.messageId).map .send ++
        [.fork .exec (.process message) (some ([], some .spawnFailed)) (.message message)])
  | .working =>
    let (messageQueue, events) := queueMessage st.messageQueue message
    ({ st with messageQueue }, events.map .send)
  | other => (st, [.send (refusal other)])

def sendMessage (st : CodexState) (message : QueuedMessage) (now : Nat) : Section :=
  match st.quotaBlockedUntil with
  | some until' =>
    if now < until' then
      (st, [.send (.quotaBlocked
        ("backend quota is blocked until " ++ toString until' ++ "; message not sent"))])
    else { st with quotaBlockedUntil := none }.deliver message
  | none => st.deliver message

def shutdown (st : CodexState) : Section := ({ st with state := .dead }, [.stop])

/-! ### A process -/

def spawnFailed (st : CodexState) : Section :=
  ({ st with pendingMessageId := none, state := .idle },
    [.send (.error "SendMessage" "codex exec spawn failed"),
      .send (.stateChanged .working .idle), .send (.completion st.pendingMessageId), .stop])

/-- A failure that parks the shim: the queue is dropped and the process given up. The thread goes
on to wait for the process before it returns, which is not a step here, as it changes nothing. -/
def park (st : CodexState) (quotaBlockedUntil : Option Nat) (event : ShimEvent String) : Section :=
  ({ st with pendingMessageId := none, state := .idle, messageQueue := [], quotaBlockedUntil },
    .send event :: (drainQueueErrors st.messageQueue .idle).map .send ++ [.stop])

def exhaustContext (st : CodexState) : Section :=
  ({ st with state := .contextExhausted, messageQueue := [] },
    .send (.stateChanged .working .contextExhausted) ::
      (drainQueueErrors st.messageQueue .contextExhausted).map .send ++ [.stop])

def turnFailed (st : CodexState) (error : Option String) (retryAt : Option Nat) : Section :=
  let message := error.getD "unknown error"
  if detectAuthRequired message then st.park st.quotaBlockedUntil (.authRequired message)
  else if detectContextExhausted message then st.exhaustContext
  else if detectQuotaBlock message then st.park retryAt (.quotaBlocked message)
  else (st, [])

def error (st : CodexState) (error : Option String) (retryAt : Option Nat) : Section :=
  let message := error.getD "stream error"
  if detectAuthRequired message then st.park st.quotaBlockedUntil (.authRequired message)
  else if Text.mentions (Text.toAsciiLowercase message.toList)
      ["usage limit", "quota", "billing", "purchase more credits"] && detectQuotaBlock message then
    st.park retryAt (.quotaBlocked message)
  else (st, [])

/-- The process has ended. The head of the queue, if there is one, gets the next. -/
def stdoutEnd (st : CodexState) : Section :=
  let completed : List (ShimAct CodexKind CodexPoint) :=
    [.send (.stateChanged .working .idle), .send (.completion st.pendingMessageId)]
  match st.messageQueue with
  | [] => ({ st with pendingMessageId := none, state := .idle }, completed ++ [.stop])
  | message :: messageQueue =>
    ({ st with pendingMessageId := message.messageId, state := .working, messageQueue },
      completed ++ [.send (.stateChanged .idle .working),
        .write (.process message) (some ([], some .spawnFailed)), .write (.message message) none])

/-! ### The threads -/

def receive : CodexKind → CodexInput → CodexState → Section
  | .command, .sendMessage message now, st => st.sendMessage message now
  | .command, .shutdown, st => st.shutdown
  | .command, .hangUp, st => (st, [.stop])
  | .exec, .turnFailed error retryAt, st => st.turnFailed error retryAt
  | .exec, .error error retryAt, st => st.error error retryAt
  | .exec, .stdoutEnd, st => st.stdoutEnd
  | _, _, st => (st, [])

end CodexState

def CodexInput.kind : CodexInput → CodexKind
  | .sendMessage _ _ | .shutdown | .hangUp => .command
  | .turnFailed _ _ | .error _ _ | .stdoutEnd => .exec

def CodexInput.message? : CodexInput → Option QueuedMessage
  | .sendMessage message _ => some message
  | _ => none

def CodexState.machine :
    Machine CodexState CodexInput CodexKind CodexPoint AgentLine (ShimEvent String) where
  accepts kind input _ := input.kind = kind
  receive := CodexState.receive
  resume | .spawnFailed, st => st.spawnFailed

abbrev CodexShim := ShimWorld CodexState CodexInput CodexKind CodexPoint

/-- The runtime of Codex. -/
def runCodexSdk : Runtime where
  State := CodexState
  Input := CodexInput
  Kind := CodexKind
  Point := CodexPoint
  machine := CodexState.machine
  state := CodexState.state
  messageQueue := CodexState.messageQueue
  incoming := CodexInput.message?
  owed _ := none
  start := {
    shared := {
      state := .idle, pendingMessageId := none, messageQueue := [], quotaBlockedUntil := none }
    threads := [⟨.command, some []⟩]
    received := []
    sent := [.ready]
    written := [] }

theorem CodexInput.kind_of_accepts {kind : CodexKind} {input : CodexInput} {st : CodexState}
    (h : runCodexSdk.machine.accepts kind input st = true) : input.kind = kind :=
  of_decide_eq_true h

end Batty
