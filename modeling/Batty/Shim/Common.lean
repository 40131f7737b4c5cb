import Batty.Foundation.Text
import Batty.Foundation.Threads
import Batty.Shim.Protocol

/-!
# What the shim runtimes share

Four runtimes speak the shim protocol, one for an agent in a terminal and three for agents that
exchange lines of JSON. They share the message queue with its cap, the way a queue is dropped,
and the phrases by which they recognise what an agent reports.

`Runtime` is a runtime as a machine of threads together with the view that the protocol has of
it: its state, its queue, and the messages among its inputs.
-/

namespace Batty

def ShimState.label : ShimState → String
  | .starting => "starting"
  | .idle => "idle"
  | .working => "working"
  | .dead => "dead"
  | .contextExhausted => "context_exhausted"

/-- A message for the agent, as it is sent and as it waits in the queue. -/
structure QueuedMessage where
  sender : String
  body : String
  messageId : Option String
deriving DecidableEq

/-- What a runtime writes to its agent, and the start of a process that is to be written to. -/
inductive AgentLine where
  | process (message : QueuedMessage)
  | message (message : QueuedMessage)
  | followup (body : String)
  | keepalive
deriving DecidableEq

def AgentLine.message? : AgentLine → Option QueuedMessage
  | message queued => some queued
  | process _ | followup _ | keepalive => none

/-- An act of a shim's thread. -/
abbrev ShimAct (Kind Point : Type) := Act Kind Point AgentLine (ShimEvent String)

abbrev ShimWorld (State Input Kind Point : Type) :=
  World State Input Kind Point AgentLine (ShimEvent String)

/-! ### The queue -/

def maxQueueDepth : Nat := 16

def idSuffix : Option String → String
  | none => ""
  | some id => " (id: " ++ id ++ ")"

/-- The errors that stand for the messages of a queue that is dropped. -/
def drainQueueErrors (queue : List QueuedMessage) (terminalState : ShimState) :
    List (ShimEvent String) :=
  queue.map fun message => .error "SendMessage"
    ("agent entered " ++ terminalState.label ++ " state, queued message dropped" ++
      idSuffix message.messageId)

/-- A message that comes while the agent works waits, and displaces the oldest if there are too
many. -/
def queueMessage (queue : List QueuedMessage) (message : QueuedMessage) :
    List QueuedMessage × List (ShimEvent String) :=
  let queued (queue : List QueuedMessage) : ShimEvent String :=
    .warning ("message queued while agent working (depth: " ++ toString queue.length ++ ")")
  if maxQueueDepth ≤ queue.length then
    let droppedId := queue.head?.bind QueuedMessage.messageId
    let queue := queue.tail ++ [message]
    (queue, [.error "SendMessage" ("message queue full (" ++ toString maxQueueDepth ++
      "), dropped oldest message" ++ idSuffix droppedId), queued queue])
  else
    let queue := queue ++ [message]
    (queue, [queued queue])

def refusal (state : ShimState) : ShimEvent String :=
  .error "SendMessage" ("agent in " ++ state.label ++ " state, cannot accept message")

/-- The answer to a message that carries an id, and to others none. -/
def answerWith (answer : String → ShimEvent String) (messageId : Option String) :
    List (ShimEvent String) :=
  messageId.toList.map answer

/-! ### What agents report -/

namespace Text

def contains (s sub : List Char) : Bool := s.tails.any fun tail => sub.isPrefixOf tail

/-- Lower case as far as ASCII phrases can tell: two more characters have an ASCII letter in their
lower case. -/
def toLowercase (s : List Char) : List Char :=
  s.flatMap fun c =>
    if c = '\u212a' then ['k'] else if c = '\u0130' then ['i', '\u0307'] else [c.toLower]

def mentions (s : List Char) (phrases : List String) : Bool :=
  phrases.any fun phrase => contains s phrase.toList

end Text

def detectContextExhausted (text : String) : Bool :=
  Text.mentions (Text.toLowercase text.toList)
    ["context window exceeded", "context window is full", "conversation is too long",
      "maximum context length", "context limit reached", "truncated due to context limit",
      "input exceeds the model", "prompt is too long"]

/-- Whether the response tells of a failed test. -/
def detectTestFailure (text : String) : Bool :=
  let lower := Text.toAsciiLowercase text.toList
  Text.mentions lower
      ["cargo test", "cargo nextest", "pytest", "npm test", "pnpm test", "yarn test", "go test",
        "bundle exec rspec", "mix test", "test result:"] &&
    (Text.mentions lower
        ["test result: failed", "error: test failed", "failing tests:", "failures:", "failures (",
          "test failed, to rerun pass"] ||
      (Text.lines lower).any fun line =>
        "test ".toList.isPrefixOf (Text.trim line) && "... failed".toList.isSuffixOf (Text.trim line))

def testFailureMaxIterations : Nat := 5

/-- The prompt that is sent after a failed test, and the notice of it. -/
structure TestFailureFollowup where
  body : String
  notice : String
  nextIterationCount : Nat
  escalate : Bool

/-- The next prompt after a failed test; once the attempts are spent it escalates. -/
def detectTestFailureFollowup (text : String) (iterationCount : Nat) :
    Option TestFailureFollowup :=
  if !detectTestFailure text then none
  else if iterationCount < testFailureMaxIterations then
    let attempt := iterationCount + 1
    let count := toString attempt ++ "/" ++ toString testFailureMaxIterations
    some {
      body := "tests failed — fix and retest before reporting completion.\nAttempt " ++ count ++
        ".\nRe-run cargo test after fixing the failures.\n" ++
        "Do not send a completion packet unless tests_passed=true."
      notice := "tests failed — fix and retest (attempt " ++ count ++ ")"
      nextIterationCount := attempt
      escalate := false }
  else
    some {
      body := "tests failed — fix and retest loop exhausted after " ++
        toString testFailureMaxIterations ++ " attempts.\n" ++
        "Stop reporting completion, send a blocker or escalation with the failing " ++
        "test summary, and wait for direction."
      notice := "tests failed repeatedly — escalation required after " ++
        toString testFailureMaxIterations ++ " attempts"
      nextIterationCount := testFailureMaxIterations
      escalate := true }

/-! ### Runtimes -/

/-- A runtime, as the protocol sees it. -/
structure Runtime where
  State : Type
  Input : Type
  Kind : Type
  Point : Type
  machine : Machine State Input Kind Point AgentLine (ShimEvent String)
  state : State → ShimState
  messageQueue : State → List QueuedMessage
  incoming : Input → Option QueuedMessage
  /-- The id of the message that a further section has still to answer. -/
  owed : Point → Option String
  start : ShimWorld State Input Kind Point

namespace Runtime

abbrev Shim (runtime : Runtime) : Type :=
  ShimWorld runtime.State runtime.Input runtime.Kind runtime.Point

/-- The states of a run of a shim, from its start. -/
def through (runtime : Runtime) (turns : List (Turn runtime.Input)) : List runtime.Shim :=
  runtime.start.through runtime.machine turns

end Runtime

end Batty
