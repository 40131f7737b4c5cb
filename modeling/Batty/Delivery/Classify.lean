import Batty.Delivery.Tiers
import Batty.Foundation.Substrings
import Batty.Foundation.Text
import Mathlib.Data.List.Dedup
import Mathlib.Data.List.Sort

/-!
# What a message is about

The category of a message and the tasks it names are read off its text, by the phrases that the
prompts of the team and the notices of the daemon use. The category goes by the text in lower case
without the white space around it, the tasks by the text itself.
-/

namespace Batty

open Text

/-! ### Phrases -/

def normalizedBody (body : String) : List Char := toAsciiLowercase (trim body.toList)

/-- One of the phrases stands in the text. -/
def holdsAny (phrases : List String) (body : List Char) : Bool :=
  phrases.any fun phrase => phrase.toList <:+: body

/-- The text begins with one of the phrases. -/
def opensWithAny (phrases : List String) (body : List Char) : Bool :=
  phrases.any fun phrase => phrase.toList <+: body

/-! ### Supervisory notices -/

/-- What kind of notice a supervisor is sent. -/
inductive SupervisoryPressure where
  | reviewBacklog | triageBacklog | idleActiveRecovery | dispatchGap | planningBacklog | reviewNudge
  | idleNudge | recoveryUpdate | resolvedUpdate | statusUpdate

def classifyRecoveryPressure (body : List Char) : SupervisoryPressure :=
  if holdsAny ["still holding active work", "still have active work", "parked on active work",
    "idle active lane", "idle active work"] body then .idleActiveRecovery
  else .dispatchGap

def isIdleNudgeNormalized (body : List Char) : Bool :=
  holdsAny ["idle nudge:", "if you are idle, take action now",
    "you have been idle past your configured timeout"] body

def isResolvedSupervisoryUpdate (body : List Char) : Bool :=
  holdsAny ["healthy and no action is required right now", "healthy; no action is required",
    "resolved and no action is required", "already resolved"] body

def isStatusUpdateNormalized (body : List Char) : Bool :=
  opensWithAny ["rollup:"] body || holdsAny ["status update"] body

/-- The first kind whose words the notice has. -/
def classifySupervisoryPressureNormalized (body : List Char) : Option SupervisoryPressure :=
  if opensWithAny ["review nudge:"] body then some .reviewNudge
  else if opensWithAny ["review backlog detected:"] body then some .reviewBacklog
  else if opensWithAny ["triage backlog detected:"] body then some .triageBacklog
  else if opensWithAny ["dispatch recovery needed:", "utilization gap detected:",
      "architect utilization"] body || holdsAny ["utilization recovery"] body then
    some (classifyRecoveryPressure body)
  else if opensWithAny ["board needs replenishment:"] body ||
      holdsAny ["create concrete tasks from `planning/roadmap.md`",
        "create tasks from planning/roadmap.md"] body then
    some .planningBacklog
  else if holdsAny ["dispatch queue", "dispatch fallback"] body then some .dispatchGap
  else if isIdleNudgeNormalized body then some .idleNudge
  else if isResolvedSupervisoryUpdate body then some .resolvedUpdate
  else if opensWithAny ["recovery:"] body ||
      holdsAny ["lane blocked", "stuck-task escalation"] body then
    some .recoveryUpdate
  else if isStatusUpdateNormalized body then some .statusUpdate
  else none

/-- The category that the pressure of a notice counts as. -/
def SupervisoryPressure.category : SupervisoryPressure → MessageCategory
  | .reviewNudge | .idleNudge => .nudge
  | .reviewBacklog => .reviewRequest
  | .triageBacklog | .idleActiveRecovery | .dispatchGap | .planningBacklog => .dispatchAction
  | .recoveryUpdate | .resolvedUpdate | .statusUpdate => .status

/-! ### Categories -/

def isAcknowledgementMessage (body : List Char) : Bool :=
  opensWithAny ["review passed", "review triaged", "review approved", "ack:", "scope ack"] body ||
    holdsAny ["acknowledged", "moved to done", "already integrated", "no further action"] body

def isStaleReminderMessage (body : List Char) : Bool :=
  opensWithAny ["commit reminder:"] body ||
    holdsAny ["claim on task", "claim expires", "expires in", "stale reminder", "stale review"] body

def isDispatchActionMessage (body : List Char) : Bool :=
  opensWithAny ["manager dispatch nudge:", "dispatch nudge:", "dispatch recovery needed:",
    "utilization gap detected:"] body ||
    holdsAny ["utilization recovery", "dispatch queue", "dispatch fallback"] body

def isCompletionActionMessage (body : List Char) : Bool :=
  let mentionsTask := holdsAny ["\"task_id\":", "task_id:"] body
  let testsPassed := holdsAny ["\"tests_passed\":true", "\"tests_passed\": true",
    "tests_passed: true"] body
  let readyForReview := holdsAny ["\"outcome\":\"ready_for_review\"",
    "\"outcome\": \"ready_for_review\"", "outcome: ready_for_review"] body
  holdsAny ["completion packet"] body || (mentionsTask && testsPassed && readyForReview) ||
    (holdsAny ["task #"] body && holdsAny ["tests: passed"] body &&
      holdsAny ["merge: success"] body)

def isBlockerMessage (body : List Char) : Bool :=
  holdsAny ["blocked on", "blocker:"] body || opensWithAny ["blocked:"] body

def isReviewRequestMessage (body : List Char) : Bool :=
  holdsAny ["ready for review", "awaiting manual review", "requires manual review",
    "review request", "ready_for_review"] body ||
    opensWithAny ["review backlog detected:", "review:"] body

def isEscalationMessage (body : List Char) : Bool :=
  holdsAny ["escalat", "task_escalated"] body || (holdsAny ["blocker"] body &&
    holdsAny ["escalat"] body)

def classifyBody (body : List Char) : MessageCategory :=
  if isAcknowledgementMessage body then .acknowledgement
  else if isStaleReminderMessage body then .reminder
  else if isEscalationMessage body then .escalation
  else
    match classifySupervisoryPressureNormalized body with
    | some pressure => pressure.category
    | none =>
      if isDispatchActionMessage body then .dispatchAction
      else if isCompletionActionMessage body then .completionAction
      else if isBlockerMessage body then .blocker
      else if isReviewRequestMessage body then .reviewRequest
      -- What is no status update by its words counts as one all the same.
      else .status

def classifyMessage (message : InboxMessage) : MessageCategory :=
  classifyBody (normalizedBody message.body)

/-! ### Tasks -/

def nonEmptyDigits (digits : List Char) : Option (List Char) :=
  if digits.isEmpty then none else some digits

/-- The digits after a mention of a task id, or else those right behind the first hash sign. -/
def extractTaskId (body : List Char) : Option (List Char) :=
  let named := (splitOnce "task_id".toList (toAsciiLowercase body)).bind fun found =>
    nonEmptyDigits (((body.drop (found.1.length + 7)).dropWhile fun c => !c.isDigit).takeWhile
      Char.isDigit)
  let marked := (splitOnce ['#'] body).bind fun found =>
    nonEmptyDigits (found.2.takeWhile Char.isDigit)
  named <|> marked

/-- The numbers behind hash signs, in the order of the text. The digits of a number hold no hash
sign, so that they need not be passed over. -/
def markedTaskIds : List Char → List Nat
  | [] => []
  | c :: s =>
    if c = '#' then ((nonEmptyDigits (s.takeWhile Char.isDigit)).bind parseU32).toList ++
      markedTaskIds s
    else markedTaskIds s

def extractTaskIdsFromBody (body : List Char) : List Nat :=
  ((markedTaskIds body).insertionSort (· ≤ ·)).dedup

end Batty
