import Batty.Shim.Pty
import Batty.Shim.Sdk

/-!
# The loop of failing tests

An answer that reports failing tests is not passed on: the agent is told to fix them, five times,
and then to stop and escalate. The answer to that is judged like any other.

* `Retesting`: a runtime with a loop of this kind. `Retesting.Loops` says what a section does for
  it, and holds of the Claude runtime and of the terminal runtime.
* `Retesting.Loops.counts`: how many follow-ups of either kind a turn gets.
* `boundsRetests_iff`: the loop keeps its bound up to the sixth failing answer of a turn.
-/

namespace Batty

/-! ### Follow-ups -/

/-- The order to stop and escalate. -/
def escalationBody : String :=
  "tests failed — fix and retest loop exhausted after " ++ toString testFailureMaxIterations ++
    " attempts.\n" ++ "Stop reporting completion, send a blocker or escalation with the failing " ++
    "test summary, and wait for direction."

/-- One order to fix and retest, or one escalation at the end of the attempts. -/
inductive FollowsUp (iterations : Nat) (followup : TestFailureFollowup) : Prop where
  | retest : iterations < testFailureMaxIterations → followup.body ≠ escalationBody →
      followup.nextIterationCount = iterations + 1 → FollowsUp iterations followup
  | escalate : testFailureMaxIterations ≤ iterations → followup.body = escalationBody →
      followup.nextIterationCount = testFailureMaxIterations → FollowsUp iterations followup

theorem followsUp_of_detect {text : String} {iterations : Nat} {followup : TestFailureFollowup}
    (h : detectTestFailureFollowup text iterations = some followup) :
    FollowsUp iterations followup := by
  unfold detectTestFailureFollowup at h
  split at h
  · cases h
  · split at h
    · rename_i hlt
      obtain rfl := Option.some.inj h
      refine .retest hlt ?_ rfl
      have hcases : iterations = 0 ∨ iterations = 1 ∨ iterations = 2 ∨ iterations = 3 ∨
          iterations = 4 := by
        unfold testFailureMaxIterations at hlt
        omega
      rcases hcases with rfl | rfl | rfl | rfl | rfl <;> decide
    · rename_i hlt
      obtain rfl := Option.some.inj h
      exact .escalate (Nat.le_of_not_lt hlt) rfl rfl

theorem detect_eq_none_iff {text : String} {iterations : Nat} :
    detectTestFailureFollowup text iterations = none ↔ detectTestFailure text = false := by
  unfold detectTestFailureFollowup
  cases detectTestFailure text
  · simp
  · simp only [Bool.not_true, Bool.false_eq_true, if_false]
    split <;> simp

/-! ### Turns -/

/-- How a section is entered. -/
inductive Runtime.Entry (runtime : Runtime) where
  | receive (kind : runtime.Kind) (input : runtime.Input)
  | resume (point : runtime.Point)

def Runtime.enter (runtime : Runtime) (st : runtime.State) :
    runtime.Entry → runtime.State × List (ShimAct runtime.Kind runtime.Point)
  | .receive kind input => runtime.machine.receive kind input st
  | .resume point => runtime.machine.resume point st

section

variable {Kind Point : Type}

/-- The turn is over with this act, or another begins. -/
def Act.endsTurn : ShimAct Kind Point → Bool
  | .send (.stateChanged _ .idle) | .send (.completion _) => true
  | .write (.message _) _ | .write .keepalive _ | .fork _ _ _ (.message _) => true
  | _ => false

def Act.followup? : ShimAct Kind Point → Option String
  | .write (.followup body) _ => some body
  | _ => none

@[simp] theorem followups_sends (events : List (ShimEvent String))
    (acts : List (ShimAct Kind Point)) :
    (events.map Act.send ++ acts).filterMap Act.followup? = acts.filterMap Act.followup? := by
  induction events with
  | nil => rfl
  | cons event events ih => exact ih

end

/-! ### Sections -/

section

variable {State Kind Point : Type} {iterations : State → Nat} {before : Nat}

/-- Nothing is asked of the agent, and the count stays while the turn goes on. -/
structure AsksNothing (iterations : State → Nat) (before : Nat)
    (result : State × List (ShimAct Kind Point)) : Prop where
  written : result.2.filterMap Act.followup? = []
  iterations : result.2.any Act.endsTurn = false → iterations result.1 = before

/-- What a section does for the loop: an answer that reports failing tests has its follow-up. -/
structure LoopsAt (iterations : State → Nat) (before : Nat) (judged : Option String)
    (result : State × List (ShimAct Kind Point)) : Prop where
  failing : ∀ {text followup}, judged = some text →
    detectTestFailureFollowup text before = some followup →
    result.2.filterMap Act.followup? = [followup.body] ∧ result.2.any Act.endsTurn = false ∧
      iterations result.1 = followup.nextIterationCount
  passing : (∀ text, judged = some text → detectTestFailure text = false) →
    AsksNothing iterations before result

theorem asksNothing_sends {after : State} (events : List (ShimEvent String))
    (h : iterations after = before) :
    AsksNothing iterations before (after, (events.map .send : List (ShimAct Kind Point))) := by
  refine ⟨?_, fun _ => h⟩
  have hsends := followups_sends events ([] : List (ShimAct Kind Point))
  rwa [List.append_nil] at hsends

theorem loopsAt_none {result : State × List (ShimAct Kind Point)}
    (h : AsksNothing iterations before result) : LoopsAt iterations before none result where
  failing := nofun
  passing _ := h

theorem loopsAt_passing {text : String} {result : State × List (ShimAct Kind Point)}
    (hdetect : detectTestFailureFollowup text before = none)
    (h : AsksNothing iterations before result) : LoopsAt iterations before (some text) result where
  failing hjudged hfollowup := by
    obtain rfl := Option.some.inj hjudged
    exact nomatch hdetect.symm.trans hfollowup
  passing _ := h

theorem loopsAt_failing {text : String} {followup : TestFailureFollowup}
    {result : State × List (ShimAct Kind Point)}
    (hdetect : detectTestFailureFollowup text before = some followup)
    (hwritten : result.2.filterMap Act.followup? = [followup.body])
    (hends : result.2.any Act.endsTurn = false)
    (hiterations : iterations result.1 = followup.nextIterationCount) :
    LoopsAt iterations before (some text) result where
  failing hjudged hfollowup := by
    obtain rfl := Option.some.inj hjudged
    obtain rfl := Option.some.inj (hdetect.symm.trans hfollowup)
    exact ⟨hwritten, hends, hiterations⟩
  passing hpassing := by
    exact nomatch hdetect.symm.trans (detect_eq_none_iff.mpr (hpassing text rfl))

end

/-! ### Loops -/

/-- A runtime that answers failing tests, with the count of the answers, and the response that a
section puts to the test. -/
structure Retesting where
  runtime : Runtime
  iterations : runtime.State → Nat
  response : runtime.State → runtime.Entry → Option String

namespace Retesting

variable (agent : Retesting)

/-- The follow-ups that are written up to the section that ends the turn. -/
def followups : agent.runtime.State → List agent.runtime.Entry → List String
  | _, [] => []
  | st, entry :: entries =>
    let (after, acts) := agent.runtime.enter st entry
    acts.filterMap Act.followup? ++ if acts.any Act.endsTurn then [] else followups after entries

/-- The responses that are put to the test up to the section that ends the turn. -/
def responses : agent.runtime.State → List agent.runtime.Entry → List String
  | _, [] => []
  | st, entry :: entries =>
    let (after, acts) := agent.runtime.enter st entry
    (agent.response st entry).toList ++
      if acts.any Act.endsTurn then [] else responses after entries

def retests (st : agent.runtime.State) (entries : List agent.runtime.Entry) : Nat :=
  (agent.followups st entries).countP (· ≠ escalationBody)

def escalations (st : agent.runtime.State) (entries : List agent.runtime.Entry) : Nat :=
  (agent.followups st entries).count escalationBody

def failures (st : agent.runtime.State) (entries : List agent.runtime.Entry) : Nat :=
  (agent.responses st entries).countP detectTestFailure

/-- At most five orders to fix and retest in a turn, and one to escalate. -/
structure BoundsRetests (st : agent.runtime.State) (entries : List agent.runtime.Entry) : Prop where
  retests : agent.retests st entries ≤ testFailureMaxIterations
  escalations : agent.escalations st entries ≤ 1

/-- Every section does its part. -/
structure Loops : Prop where
  loopsAt : ∀ st entry, LoopsAt agent.iterations (agent.iterations st) (agent.response st entry)
    (agent.runtime.enter st entry)

variable {agent}

/-- A failing answer, after which the turn goes on. -/
theorem failures_cons {st after : agent.runtime.State} {entry : agent.runtime.Entry}
    {acts : List (ShimAct agent.runtime.Kind agent.runtime.Point)} {text : String}
    {entries : List agent.runtime.Entry} (henter : agent.runtime.enter st entry = (after, acts))
    (hends : acts.any Act.endsTurn = false) (hresponse : agent.response st entry = some text)
    (hdetect : detectTestFailure text = true) :
    agent.failures st (entry :: entries) = 1 + agent.failures after entries := by
  simp [failures, responses, henter, hends, hresponse, hdetect, add_comm]

/-- **The loop.** Each failing answer of a turn has its follow-up, and the attempts come first. -/
theorem Loops.counts (hloops : agent.Loops) (entries : List agent.runtime.Entry) :
    ∀ st : agent.runtime.State, agent.iterations st ≤ testFailureMaxIterations →
      agent.retests st entries + agent.iterations st =
          min (agent.iterations st + agent.failures st entries) testFailureMaxIterations ∧
        agent.retests st entries + agent.escalations st entries = agent.failures st entries := by
  induction entries with
  | nil =>
    intro st hle
    simp [retests, escalations, failures, followups, responses, hle]
  | cons entry entries ih =>
    intro st hle
    have hloop := hloops.loopsAt st entry
    by_cases hfailing : ∃ text followup, agent.response st entry = some text ∧
        detectTestFailureFollowup text (agent.iterations st) = some followup
    · obtain ⟨text, followup, hresponse, hfollowup⟩ := hfailing
      obtain ⟨hwritten, hends, hiterations⟩ := hloop.failing hresponse hfollowup
      have hdetect : detectTestFailure text = true := by
        by_contra hpass
        rw [Bool.not_eq_true, ← detect_eq_none_iff, hfollowup] at hpass
        cases hpass
      have hretests : agent.retests st (entry :: entries) =
          (if followup.body = escalationBody then 0 else 1) +
            agent.retests (agent.runtime.enter st entry).1 entries := by
        simp [retests, followups, hwritten, hends, List.countP_cons, add_comm]
      have hescalations : agent.escalations st (entry :: entries) =
          (if followup.body = escalationBody then 1 else 0) +
            agent.escalations (agent.runtime.enter st entry).1 entries := by
        simp [escalations, followups, hwritten, hends, List.count_cons, add_comm]
      have hfailures : agent.failures st (entry :: entries) =
          1 + agent.failures (agent.runtime.enter st entry).1 entries := by
          simp [failures, responses, hresponse, hends, hdetect, add_comm]
      rw [hretests, hescalations, hfailures]
      cases followsUp_of_detect hfollowup with
      | retest hlt hbody hnext =>
        have hrest := ih (agent.runtime.enter st entry).1 (by omega)
        rw [if_neg hbody, if_neg hbody]
        omega
      | escalate hge hbody hnext =>
        have hrest := ih (agent.runtime.enter st entry).1 (by omega)
        rw [if_pos hbody, if_pos hbody]
        omega
    · have hpassing : ∀ text, agent.response st entry = some text →
          detectTestFailure text = false := by
        intro text hresponse
        rw [← detect_eq_none_iff, Option.eq_none_iff_forall_ne_some]
        exact fun followup hfollowup => hfailing ⟨text, followup, hresponse, hfollowup⟩
      obtain ⟨hwritten, hsame⟩ := hloop.passing hpassing
      have hcount : (agent.response st entry).toList.countP detectTestFailure = 0 := by
        rw [List.countP_eq_zero]
        intro text hmem
        rw [hpassing text (Option.mem_toList.mp hmem)]
        decide
      cases hends : (agent.runtime.enter st entry).2.any Act.endsTurn with
      | true =>
        simp [retests, escalations, failures, followups, responses, hwritten, hends, hcount, hle]
      | false =>
        have hrest := ih (agent.runtime.enter st entry).1 (by rw [hsame hends]; exact hle)
        rw [hsame hends] at hrest
        simpa [retests, escalations, failures, followups, responses, hwritten, hends, hcount]
          using hrest

/-- The loop keeps its bound as long as the turn sees fewer than seven failing answers. -/
theorem Loops.staysBounded_iff (hloops : agent.Loops) {st : agent.runtime.State}
    (h : agent.iterations st = 0) (entries : List agent.runtime.Entry) :
    agent.BoundsRetests st entries ↔
      agent.failures st entries ≤ testFailureMaxIterations + 1 := by
  have hcounts := hloops.counts entries st (by omega)
  constructor
  · rintro ⟨hretests, hescalations⟩
    omega
  · intro hfailures
    constructor <;> omega

end Retesting

/-! ### The Claude runtime -/

/-- The answer to a turn in flight, where the context is not used up. -/
def SdkState.judgedResult (st : SdkState) (result : Option String)
    (errors : Option (List String)) : Option String :=
  if !st.turnInFlight then none
  else if reportsExhaustion result errors then none
  else some (st.response result)

def SdkState.judged (st : SdkState) : runSdk.Entry → Option String
  | .receive .reader (.result result errors _) => st.judgedResult result errors
  | _ => none

def runSdk.retesting : Retesting where
  runtime := runSdk
  iterations := SdkState.testFailureIterations
  response := SdkState.judged

namespace SdkState

variable {st : SdkState}

theorem asksNothing_sendMessage (message : QueuedMessage) :
    AsksNothing testFailureIterations st.testFailureIterations (st.sendMessage message) := by
  unfold sendMessage
  split
  · refine ⟨?_, nofun⟩
    dsimp only
    rw [List.append_assoc, List.singleton_append, List.filterMap_cons, followups_sends]
    rfl
  · exact asksNothing_sends _ rfl
  · exact ⟨rfl, fun _ => rfl⟩

theorem asksNothing_completion {next : SdkState} {before : Nat} (old : ShimState)
    (messageId : Option String) (queued : Option QueuedMessage) :
    AsksNothing testFailureIterations before (next, announceCompletion old messageId queued) := by
  cases queued <;> exact ⟨rfl, nofun⟩

theorem asksNothing_streamEvent (text : String) (sessionId : Option String) :
    AsksNothing testFailureIterations st.testFailureIterations (st.streamEvent text sessionId) := by
  unfold streamEvent
  split
  · exact ⟨rfl, fun _ => rfl⟩
  · exact ⟨rfl, fun _ => noteSession_testFailureIterations sessionId⟩

theorem loopsAt_result (result : Option String) (errors : Option (List String))
    (sessionId : Option String) :
    LoopsAt testFailureIterations st.testFailureIterations
      (st.judgedResult result errors) (st.result result errors sessionId) := by
  unfold judgedResult SdkState.result
  by_cases hturn : (!st.turnInFlight) = true
  · rw [if_pos hturn, if_pos hturn]
    exact loopsAt_none ⟨rfl, fun _ => rfl⟩
  · rw [if_neg hturn, if_neg hturn]
    dsimp only
    by_cases hexhausted : reportsExhaustion result errors = true
    · rw [if_pos hexhausted, if_pos hexhausted]
      exact loopsAt_none (asksNothing_sends
        (.stateChanged (st.noteSession sessionId).state .contextExhausted ::
          drainQueueErrors (st.noteSession sessionId).messageQueue .contextExhausted)
        (noteSession_testFailureIterations sessionId))
    · rw [if_neg hexhausted, if_neg hexhausted, noteSession_response,
        noteSession_testFailureIterations]
      split
      · rename_i followup hfollowup
        exact loopsAt_failing hfollowup rfl rfl rfl
      · rename_i hfollowup
        exact loopsAt_passing hfollowup (asksNothing_completion _ _ _)

theorem loops : runSdk.retesting.Loops where
  loopsAt := fun (st : SdkState) entry => by
    match entry with
    | .resume .keepaliveFailed => exact loopsAt_none ⟨rfl, fun _ => rfl⟩
    | .receive .command (.sendMessage message) =>
      exact loopsAt_none (asksNothing_sendMessage message)
    | .receive .command (.commandTimeout due) =>
      refine loopsAt_none ?_
      change AsksNothing testFailureIterations _ (st.maybeSendKeepalive due)
      unfold maybeSendKeepalive
      split <;> [exact ⟨rfl, nofun⟩; exact ⟨rfl, fun _ => rfl⟩]
    | .receive .command .hangUp => exact loopsAt_none ⟨rfl, fun _ => rfl⟩
    | .receive .reader (.result result errors sessionId) =>
      exact loopsAt_result result errors sessionId
    | .receive .reader (.assistant text sessionId) =>
      refine loopsAt_none ?_
      change AsksNothing testFailureIterations _ (st.assistant text sessionId)
      unfold assistant
      split <;> [exact ⟨rfl, fun _ => rfl⟩; exact asksNothing_streamEvent text sessionId]
    | .receive .reader (.streamEvent text sessionId) =>
      exact loopsAt_none (asksNothing_streamEvent text sessionId)
    | .receive .reader .stdoutTimeout =>
      refine loopsAt_none ?_
      change AsksNothing testFailureIterations _ st.forceStalledCompletion
      unfold forceStalledCompletion
      split <;> [exact asksNothing_completion _ _ _; exact ⟨rfl, fun _ => rfl⟩]
    | .receive .reader .stdoutEnd =>
      refine loopsAt_none ⟨?_, fun _ => rfl⟩
      exact (followups_sends (.stateChanged st.state .dead ::
        drainQueueErrors st.messageQueue .dead) [.stop]).trans rfl
    | .receive .command (.result _ _ _) | .receive .command (.assistant _ _)
    | .receive .command (.streamEvent _ _) | .receive .command .stdoutTimeout
    | .receive .command .stdoutEnd | .receive .reader (.sendMessage _)
    | .receive .reader (.commandTimeout _) | .receive .reader .hangUp =>
      exact loopsAt_none ⟨rfl, fun _ => rfl⟩

end SdkState

/-! ### The terminal runtime -/

namespace ShimInner

variable {inner : ShimInner}

/-- The answer on a screen that shows the agent back at its prompt. -/
def judgedOutput (inner : ShimInner) (screen : Screen) (dwelt : Bool) : Option String :=
  if !inner.contextApproachingEmitted && detectContextApproachingLimit screen.contents then none
  else if inner.state = .working ∧ inner.newState screen.verdict dwelt = some .idle then
    some screen.response
  else none

def judgedSettled (inner : ShimInner) (screen : Screen) : Option String :=
  if inner.agentType = .kiro && inner.state = .working && screen.verdict = .agentIdle then
    some screen.response
  else none

def judged {agentType : AgentType} (inner : ShimInner) : (Pty.run agentType).Entry → Option String
  | .receive .reader (.output screen dwelt) => inner.judgedOutput screen dwelt
  | .receive .idle (.settled screen) => inner.judgedSettled screen
  | _ => none

end ShimInner

def Pty.retesting (agentType : AgentType) : Retesting where
  runtime := Pty.run agentType
  iterations := ShimInner.testFailureIterations
  response := ShimInner.judged

namespace ShimInner

variable {inner : ShimInner}

theorem loopsAt_completeTurn (screen : Screen) (failed : List (ShimEvent String)) :
    LoopsAt testFailureIterations inner.testFailureIterations (some screen.response)
      (inner.completeTurn screen failed) := by
  unfold completeTurn
  split
  · rename_i followup hfollowup
    exact loopsAt_failing hfollowup rfl rfl rfl
  · rename_i hfollowup
    refine loopsAt_passing hfollowup ?_
    dsimp only
    split
    · exact ⟨by simpa using followups_sends _ [], nofun⟩
    · exact ⟨followups_sends _ _, nofun⟩

theorem loopsAt_output (screen : Screen) (dwelt : Bool) :
    LoopsAt testFailureIterations inner.testFailureIterations (inner.judgedOutput screen dwelt)
      (inner.output screen dwelt) := by
  unfold judgedOutput output
  by_cases happroaching : (!inner.contextApproachingEmitted &&
      detectContextApproachingLimit screen.contents) = true
  · rw [if_pos happroaching, if_pos happroaching]
    exact loopsAt_none ⟨rfl, fun _ => rfl⟩
  · rw [if_neg happroaching, if_neg happroaching]
    cases hnew : inner.newState screen.verdict dwelt with
    | none =>
      rw [if_neg (by simp)]
      exact loopsAt_none ⟨rfl, fun _ => rfl⟩
    | some new =>
      dsimp only
      by_cases hidle : inner.state = .working ∧ new = .idle
      · rw [if_pos (by simpa using hidle), if_pos (by simpa using hidle)]
        exact loopsAt_completeTurn _ _
      · rw [if_neg (by simpa using hidle), if_neg (by simpa using hidle), ← List.map_append]
        exact loopsAt_none (asksNothing_sends _ rfl)

theorem loopsAt_settled (screen : Screen) :
    LoopsAt testFailureIterations inner.testFailureIterations (inner.judgedSettled screen)
      (inner.settled screen) := by
  unfold judgedSettled settled
  split
  · exact loopsAt_completeTurn _ _
  · exact loopsAt_none ⟨rfl, fun _ => rfl⟩

theorem loops (agentType : AgentType) : (Pty.retesting agentType).Loops where
  loopsAt := fun (inner : ShimInner) entry => by
    match entry with
    | .resume (.injected messageId) =>
      refine loopsAt_none ?_
      change AsksNothing testFailureIterations _ (inner.injected messageId)
      rw [injected, ← List.map_singleton, ← List.map_append]
      exact asksNothing_sends _ rfl
    | .receive .command (.startup timedOut) =>
      refine loopsAt_none ?_
      change AsksNothing testFailureIterations _ (inner.startup timedOut)
      unfold startup
      split <;> [exact ⟨rfl, fun _ => rfl⟩; exact ⟨rfl, fun _ => rfl⟩; skip]
      split <;> exact ⟨rfl, fun _ => rfl⟩
    | .receive .command (.sendMessage message contents) =>
      refine loopsAt_none ?_
      change AsksNothing testFailureIterations _ (inner.sendMessage message contents)
      unfold sendMessage
      split <;> [exact ⟨rfl, nofun⟩; exact asksNothing_sends _ rfl; exact ⟨rfl, fun _ => rfl⟩]
    | .receive .command .hangUp => exact loopsAt_none ⟨rfl, fun _ => rfl⟩
    | .receive .reader (.output screen dwelt) => exact loopsAt_output screen dwelt
    | .receive .reader .ptyEnd =>
      refine loopsAt_none ⟨?_, fun _ => rfl⟩
      exact (followups_sends (.stateChanged inner.state .dead ::
        drainQueueErrors inner.messageQueue .dead) [.stop]).trans rfl
    | .receive .idle (.settled screen) => exact loopsAt_settled screen
    | .receive .poll (.polled screen) =>
      refine loopsAt_none ?_
      change AsksNothing testFailureIterations _ (inner.polled screen)
      unfold polled
      split <;> exact ⟨rfl, fun _ => rfl⟩
    | .receive .command (.output _ _) | .receive .command .ptyEnd
    | .receive .command (.settled _) | .receive .command (.polled _)
    | .receive .reader (.startup _) | .receive .reader (.sendMessage _ _)
    | .receive .reader .hangUp | .receive .reader (.settled _) | .receive .reader (.polled _)
    | .receive .idle (.startup _) | .receive .idle (.sendMessage _ _) | .receive .idle .hangUp
    | .receive .idle (.output _ _) | .receive .idle .ptyEnd | .receive .idle (.polled _)
    | .receive .poll (.startup _) | .receive .poll (.sendMessage _ _) | .receive .poll .hangUp
    | .receive .poll (.output _ _) | .receive .poll .ptyEnd | .receive .poll (.settled _) =>
      exact loopsAt_none ⟨rfl, fun _ => rfl⟩

end ShimInner

/-! ### Both runtimes -/

/-- The runtimes that ask for another test. -/
inductive RetestingName where
  | pty (agentType : AgentType)
  | sdk

namespace RetestingName

def retesting : RetestingName → Retesting
  | .pty agentType => Pty.retesting agentType
  | .sdk => runSdk.retesting

theorem loops (name : RetestingName) : name.retesting.Loops := by
  cases name with
  | pty agentType => exact ShimInner.loops agentType
  | sdk => exact SdkState.loops

end RetestingName

/-- **The bound of the loop.** From a fresh count on, a turn stays within five orders and one
escalation as long as fewer than seven of its answers report failing tests. -/
theorem boundsRetests_iff (name : RetestingName) (st : name.retesting.runtime.State)
    (h : name.retesting.iterations st = 0) (entries : List name.retesting.runtime.Entry) :
    name.retesting.BoundsRetests st entries ↔
      name.retesting.failures st entries ≤ testFailureMaxIterations + 1 :=
  name.loops.staysBounded_iff h entries

def failingAnswer : String := "test result: FAILED. 1 failed"

def failingResult : runSdk.Entry :=
  .receive SdkKind.reader (SdkInput.result (some failingAnswer) none none)

/-- A turn in which nothing has streamed in. -/
structure SdkState.Answers (st : SdkState) : Prop where
  state : st.state = .working
  accumulatedResponse : st.accumulatedResponse = ""

/-- A failing result is answered, and the turn goes on as it was. -/
theorem SdkState.Answers.enter {st : SdkState} (h : st.Answers) :
    ∃ (after : SdkState) (followup : TestFailureFollowup), after.Answers ∧
      runSdk.enter st failingResult =
        (after, [.write (.followup followup.body) none, .send (.warning followup.notice)]) ∧
      runSdk.retesting.response st failingResult = some failingAnswer := by
  have hdetect : detectTestFailureFollowup failingAnswer st.testFailureIterations ≠ none := by
    rw [Ne, detect_eq_none_iff]
    decide
  obtain ⟨followup, hfollowup⟩ := Option.ne_none_iff_exists'.mp hdetect
  have hturn : (!st.turnInFlight) = false := by simp [turnInFlight, h.state]
  have hexhausted : reportsExhaustion (some failingAnswer) none = false := by decide
  have hresponse : st.response (some failingAnswer) = failingAnswer := by
    simp [response, h.accumulatedResponse]
  refine ⟨{ st.noteSession none with
    accumulatedResponse := "", pendingMessageId := none
    testFailureIterations := followup.nextIterationCount, state := .working }, followup,
    ⟨rfl, rfl⟩, ?_, ?_⟩
  · change st.result (some failingAnswer) none none = _
    unfold SdkState.result
    simp only [hturn, hexhausted, noteSession_response, noteSession_testFailureIterations,
      hresponse, hfollowup, Bool.false_eq_true, if_false]
    rfl
  · change st.judgedResult (some failingAnswer) none = _
    simp only [judgedResult, hturn, hexhausted, hresponse, Bool.false_eq_true, if_false]

/-- However many results fail, none of them ends the turn. -/
theorem failures_replicate (n : ℕ) :
    ∀ st : SdkState, st.Answers →
      runSdk.retesting.failures st (List.replicate n failingResult) = n := by
  induction n with
  | zero => exact fun st h => rfl
  | succ n ih =>
    intro st h
    obtain ⟨after, followup, hafter, henter, hresponse⟩ := h.enter
    have hcons : runSdk.retesting.failures st (failingResult :: List.replicate n failingResult) =
        1 + runSdk.retesting.failures after (List.replicate n failingResult) :=
      Retesting.failures_cons henter rfl hresponse (by decide)
    exact hcons.trans ((congrArg (1 + ·) (ih after hafter)).trans (Nat.add_comm 1 n))

def workingSdk : SdkState := { runSdk.start.shared with state := .working }

/-- Six answers with failing tests: five orders, and one to escalate. -/
theorem boundsRetests_iff_six :
    RetestingName.sdk.retesting.BoundsRetests workingSdk (List.replicate 6 failingResult) :=
  (boundsRetests_iff .sdk workingSdk rfl _).mpr
    (Nat.le_of_eq (failures_replicate 6 workingSdk ⟨rfl, rfl⟩))

/-- **An escalation that quotes the summary.** Each of seven answers quotes the failing tests, and
the order to escalate is given twice. -/
theorem not_boundsRetests :
    ¬ RetestingName.sdk.retesting.BoundsRetests workingSdk (List.replicate 7 failingResult) := by
  intro hbounds
  have hfailures := (SdkState.loops.staysBounded_iff rfl _).mp hbounds
  have hseven := failures_replicate 7 workingSdk ⟨rfl, rfl⟩
  exact absurd (Nat.le_trans (Nat.le_of_eq hseven.symm) hfailures) (by decide)

end Batty
