import Batty.Shim.Answers
import Batty.Shim.Line

/-!
# Messages in order

A turn may end in many places, and each of them is to hand over to the head of the queue. In
three the queue is not looked at: the look at the screen of an agent that went quiet, the process
that cannot be spawned, and the prompt that fails.

* `ordered_of_handsOver`: messages are written in order, and none is left in the queue of an idle
  shim, in every run in which these three find the queue empty.
* `not_ordered_leftBehind`: a message that waits behind a process that cannot be spawned is left.
-/

namespace Batty

/-! ### The Claude runtime -/

namespace SdkState

def manners : Manners runSdk where
  kinds := [.command, .reader]
  Hands kind st := kind = .reader ∧ st.state ≠ .idle
  locks := false

/-- What a section leaves to do is what was handed on. -/
abbrev HandsOn (st : SdkState) (after : Section) : Prop :=
  Batty.HandsOn false st.messageQueue after.1.state after.1.messageQueue after.2

variable {st : SdkState}

theorem handsOn_completeTurn (old : ShimState) (messageId : Option String) :
    st.HandsOn (st.completeTurn.1, announceCompletion old messageId st.completeTurn.2) := by
  unfold completeTurn
  cases hqueue : st.messageQueue with
  | nil =>
    exact handsOn_dropped (by simp [announceCompletion])
  | cons message queue =>
    rw [HandsOn, hqueue]
    refine ⟨?_, ?_, ?_, by rintro ⟨⟩, fun _ => rfl⟩
    · simp [announceCompletion, AgentLine.message?]
    · simp [announceCompletion, AgentLine.message?]
    · simp [announceCompletion]

/-- A section that leaves the queue alone, and the state alone or working. -/
theorem handsOn_same (hidle : st.state = .idle → st.messageQueue = []) {st' : SdkState}
    {acts : List (ShimAct SdkKind SdkPoint)} (hqueue : st'.messageQueue = st.messageQueue)
    (hstate : st'.state = st.state ∨ st'.state = .working)
    (hacts : ∀ act ∈ acts, act.isWork = false) : st.HandsOn (st', acts) := by
  refine handsOn_quiet (hqueue ▸ .refl _) (fun h => ?_) hacts
  rw [hqueue]
  rcases hstate with hstate | hstate
  · exact hidle (hstate.symm.trans h)
  · cases hstate.symm.trans h

theorem handsOn_streamEvent (hidle : st.state = .idle → st.messageQueue = []) (text : String)
    (sessionId : Option String) : st.HandsOn (st.streamEvent text sessionId) := by
  unfold streamEvent
  split
  · exact handsOn_same hidle rfl (.inl rfl) (by simp)
  · exact handsOn_same hidle (by simp) (.inl (by simp)) (by simp)

theorem handsOn_result (hidle : st.state = .idle → st.messageQueue = []) (result : Option String)
    (errors : Option (List String)) (sessionId : Option String) :
    st.HandsOn (st.result result errors sessionId) := by
  unfold SdkState.result
  split
  · exact handsOn_same hidle rfl (.inl rfl) (by simp)
  split
  · exact handsOn_dropped (by simp [exhaustContext])
  simp only
  split
  · refine ⟨?_, ?_, ?_, nofun, fun _ => rfl⟩
    · simp [AgentLine.message?]
    · simp [AgentLine.message?]
    · simp
  · have hcomplete := @handsOn_completeTurn { st.noteSession sessionId with
      accumulatedResponse := "", testFailureIterations := 0 }
    simpa using hcomplete _ _

theorem handsOn_receive {input : SdkInput} (hkind : input.kind = .reader)
    (hidle : st.state = .idle → st.messageQueue = []) : st.HandsOn (receive .reader input st) := by
  cases input with
  | assistant text sessionId =>
    simp only [receive, assistant]
    split
    · exact handsOn_same hidle rfl (.inl rfl) (by simp)
    · exact handsOn_streamEvent hidle text sessionId
  | streamEvent text sessionId => exact handsOn_streamEvent hidle text sessionId
  | result result errors sessionId => exact handsOn_result hidle result errors sessionId
  | stdoutTimeout =>
    simp only [receive, forceStalledCompletion]
    split
    · exact @handsOn_completeTurn { st with accumulatedResponse := "" } _ _
    · exact handsOn_same hidle rfl (.inl rfl) (by simp)
  | stdoutEnd => exact handsOn_dropped (by simp [receive, stdoutEnd, or_imp, forall_and])
  | _ => cases hkind

theorem takes_receive {input : SdkInput} (hkind : input.kind = .command)
    (hidle : st.state = .idle → st.messageQueue = []) :
    Takes st.messageQueue input.message? st.state (receive .command input st).1.state
      (receive .command input st).1.messageQueue (receive .command input st).2 := by
  cases input with
  | sendMessage message =>
    simp only [receive, sendMessage]
    split
    · rename_i hstate
      exact takes_message hstate (hidle hstate) (by simp) (by simp [or_imp, forall_and])
    · rename_i hstate
      rw [hstate]
      exact takes_queueMessage _ _
    · exact takes_quiet hidle (.inl rfl) (by simp)
  | commandTimeout due =>
    simp only [receive, maybeSendKeepalive]
    split
    · rename_i hdue
      simp only [Bool.and_eq_true, decide_eq_true_eq] at hdue
      have hstate := hdue.1.1.2
      rw [hidle hstate]
      refine ⟨?_, ?_, ?_, by rintro ⟨⟩, fun _ => ⟨hstate, rfl⟩, by rintro ⟨⟩⟩
      · simp [AgentLine.message?]
      · simp [AgentLine.message?]
      · simp
    · exact takes_quiet hidle (.inl rfl) (by simp)
  | hangUp => exact takes_quiet hidle (.inl rfl) (by simp [receive])
  | _ => cases hkind

theorem attends_receive {shim : SdkShim} (h : Attended manners shim) {i : Nat} {kind : SdkKind}
    {input : SdkInput} (hget : shim.threads[i]? = some ⟨kind, some []⟩)
    (hkind : input.kind = kind) :
    Attends manners shim i kind input.message? (receive kind input shim.shared) := by
  subst hkind
  refine attends_of_reader rfl (fun _ _ => Iff.rfl) h hget (fun hcommand => ?_)
    fun hreader => ⟨?_, ?_⟩
  · rw [hcommand]
    exact takes_receive hcommand h.idle
  · cases input <;> first | rfl | cases hreader
  · rw [hreader]
    exact handsOn_receive hreader h.idle

theorem resumes (st : SdkState) (point : SdkPoint) :
    Resumes manners st (runSdk.machine.resume point st) := by
  cases point with
  | keepaliveFailed => exact ⟨⟨[], rfl⟩, rfl, nofun⟩

end SdkState

/-! ### The Kiro runtime -/

namespace KiroState

def manners : Manners runKiroAcp where
  kinds := [.command, .reader]
  Hands kind st := kind = .reader ∧ st.state ≠ .idle
  locks := true

/-- A prompt that fails, and does not end the session, finds the queue empty. -/
def HandsOver (st : KiroState) : KiroInput → Prop
  | .errorResponse id message => st.pendingPromptRequestId = some id →
    detectContextExhausted (message.getD "unknown error") = false → st.messageQueue = []
  | _ => True

def HandsOverIn (shim : KiroShim) : Turn KiroInput → Prop
  | .receive i input => ∀ kind, shim.threads[i]? = some ⟨kind, some []⟩ → input.kind = kind →
    shim.shared.HandsOver input
  | .go _ _ => True

/-- No message is taken before the session is open. -/
def Fresh (st : KiroState) : Prop := st.initialized = false → st.messageQueue = []

abbrev HandsOn (st : KiroState) (after : Section) : Prop :=
  Batty.HandsOn true st.messageQueue after.1.state after.1.messageQueue after.2

variable {st : KiroState}

theorem handsOn_same (hidle : st.state = .idle → st.messageQueue = []) {st' : KiroState}
    {acts : List (ShimAct KiroKind KiroPoint)} (hqueue : st'.messageQueue = st.messageQueue)
    (hstate : st'.state = st.state) (hacts : ∀ act ∈ acts, act.isWork = false) :
    st.HandsOn (st', acts) := by
  refine handsOn_quiet (hqueue ▸ .refl _) (fun h => ?_) hacts
  rw [hqueue]
  exact hidle (hstate.symm.trans h)

theorem handsOn_completePrompt : st.HandsOn st.completePrompt := by
  unfold completePrompt
  simp only
  cases hqueue : st.messageQueue with
  | nil => exact handsOn_dropped (by simp)
  | cons message queue =>
    rw [HandsOn, hqueue]
    refine ⟨?_, ?_, ?_, nofun, fun _ => rfl⟩
    · simp [AgentLine.message?]
    · simp [AgentLine.message?]
    · simp

theorem handsOn_exhaustContext : st.HandsOn st.exhaustContext :=
  handsOn_dropped (by simp [exhaustContext])

theorem handsOn_receive {input : KiroInput} (hkind : input.kind = .reader) (hfresh : st.Fresh)
    (hidle : st.state = .idle → st.messageQueue = []) (hover : st.HandsOver input) :
    st.HandsOn (receive .reader input st) := by
  cases input with
  | errorResponse id message =>
    simp only [receive, errorResponse]
    split
    · rename_i hid
      split
      · exact @handsOn_exhaustContext { st with pendingPromptRequestId := none }
      · rename_i hexhausted
        exact handsOn_quiet (.refl _) (fun _ => hover hid (by simpa using hexhausted)) (by simp)
    · exact handsOn_same hidle rfl rfl (by simp)
  | resultResponse id sessionId =>
    simp only [receive, resultResponse]
    split
    · exact handsOn_same hidle rfl rfl (by simp)
    split
    · rename_i hclosed
      split
      · exact handsOn_quiet (.refl _) (fun _ => hfresh (by simpa using hclosed)) (by simp)
      · exact handsOn_same hidle rfl rfl (by simp)
    split
    · exact handsOn_completePrompt
    · exact handsOn_same hidle rfl rfl (by simp)
  | metadata exhausted =>
    simp only [receive, metadata]
    split
    · exact handsOn_exhaustContext
    · exact handsOn_same hidle rfl rfl (by simp)
  | stdoutEnd => exact handsOn_dropped (by simp [receive, stdoutEnd, or_imp, forall_and])
  | _ => cases hkind

theorem takes_receive {input : KiroInput} (hkind : input.kind = .command)
    (hidle : st.state = .idle → st.messageQueue = []) :
    Takes st.messageQueue input.message? st.state (receive .command input st).1.state
      (receive .command input st).1.messageQueue (receive .command input st).2 := by
  cases input with
  | sendMessage message =>
    simp only [receive, sendMessage]
    split
    · rename_i hstate
      exact takes_message hstate (hidle hstate) (by simp) (by simp [or_imp, forall_and])
    · rename_i hstate
      rw [hstate]
      exact takes_queueMessage _ _
    · exact takes_quiet hidle (.inl rfl) (by simp)
  | hangUp => exact takes_quiet hidle (.inl rfl) (by simp [receive])
  | _ => cases hkind

theorem attends_receive {shim : KiroShim} (h : Attended manners shim) (hfresh : shim.shared.Fresh)
    {i : Nat} {kind : KiroKind} {input : KiroInput}
    (hget : shim.threads[i]? = some ⟨kind, some []⟩) (hkind : input.kind = kind)
    (hover : shim.shared.HandsOver input) :
    Attends manners shim i kind input.message? (receive kind input shim.shared) := by
  subst hkind
  refine attends_of_reader rfl (fun _ _ => Iff.rfl) h hget (fun hcommand => ?_)
    fun hreader => ⟨?_, ?_⟩
  · rw [hcommand]
    exact takes_receive hcommand h.idle
  · cases input <;> first | rfl | cases hreader
  · rw [hreader]
    exact handsOn_receive hreader hfresh h.idle hover

theorem resumes (st : KiroState) (point : KiroPoint) :
    Resumes manners st (runKiroAcp.machine.resume point st) := by
  cases point with
  | promptSent requestId =>
    exact ⟨⟨[.stateChanged .idle .working], rfl⟩, rfl, fun _ => ⟨rfl, fun _ => id⟩⟩

/-- A session that is open stays open. -/
theorem initialized_of_receive {kind : KiroKind} {input : KiroInput}
    (h : (receive kind input st).1.initialized = false) : st.initialized = false := by
  rcases hinitialized : st.initialized with _ | _
  · rfl
  refine absurd h (Bool.not_eq_false _ ▸ ?_)
  cases kind <;> cases input <;> simp only [receive, hinitialized]
  · rename_i message
    unfold sendMessage
    split <;> simp [hinitialized]
  · rename_i id message
    unfold errorResponse
    split
    · simp only
      split <;> simp [exhaustContext, hinitialized]
    · exact hinitialized
  · rename_i id sessionId
    unfold resultResponse
    simp only [hinitialized, Bool.not_true, Bool.false_and, Bool.false_eq_true, if_false]
    split
    · unfold completePrompt
      simp only
      split <;> simp [hinitialized]
    · exact hinitialized
  · rename_i exhausted
    unfold metadata
    split <;> simp [exhaustContext, hinitialized]
  · simp [stdoutEnd, hinitialized]

/-- The queue stays empty until the session is open. -/
theorem fresh_receive {kind : KiroKind} {input : KiroInput} (hfresh : st.Fresh)
    (hidle : st.state = .idle → st.messageQueue = []) (hover : st.HandsOver input)
    (haccepts : runKiroAcp.machine.accepts kind input st = true) :
    (receive kind input st).1.Fresh := by
  intro hafter
  have hbefore := initialized_of_receive hafter
  have hkind := KiroInput.kind_of_accepts haccepts
  cases kind with
  | command =>
    have hopen : (decide (input.kind = .command) && (decide (KiroKind.command = .reader) ||
      st.initialized)) = true := haccepts
    simp [hbefore] at hopen
  | reader =>
    have horder := (handsOn_receive hkind hfresh hidle hover).order
    rw [hfresh hbefore, List.sublist_nil] at horder
    exact (List.append_eq_nil_iff.mp horder).2

end KiroState

/-! ### The Codex runtime -/

namespace CodexState

/-- A process that cannot be spawned finds the queue empty. -/
def HandsOver (shim : CodexShim) : Turn CodexInput → Prop
  | .go i _ => ∀ kind rest, shim.threads[i]? = some ⟨kind, some (.lock .spawnFailed :: rest)⟩ →
    shim.shared.messageQueue = []
  | .receive _ _ => True

/-- What the runs of the Codex runtime keep. -/
structure Steers (shim : CodexShim) : Prop where
  one : OneProcess shim.threads shim.shared.state
  idle : shim.shared.state = .idle → shim.shared.messageQueue = []
  lined : @Lined runCodexSdk shim

variable {shim : CodexShim} {i : Nat}

theorem atWork_of_unwritten {thread : CodexThread} (h : unwritten (thread.acts.getD []) ≠ []) :
    AtWork thread := by
  obtain ⟨kind, acts⟩ := thread
  cases acts with
  | none => exact absurd rfl h
  | some acts =>
    exact ⟨acts, rfl, .inl (Bool.of_not_eq_false fun hidle => h (unwritten_of_not_work hidle))⟩

/-- If no other thread is at work, there is nothing on its way but what this one has. -/
theorem unwrittenBy_eq_nil_of_alone (hget : ∀ (j : Nat) (thread : CodexThread),
    shim.threads[j]? = some thread → AtWork thread → unwritten (thread.acts.getD []) = []) :
    unwrittenBy shim.threads = [] := by
  refine List.flatMap_eq_nil_iff.mpr fun thread hmem => ?_
  obtain ⟨j, hj⟩ := List.getElem?_of_mem hmem
  by_contra hsome
  exact hsome (hget j thread hj (atWork_of_unwritten hsome))

theorem keepsLine_of {incoming : Option QueuedMessage} {after : Section}
    (horder : (unwritten after.2 ++ after.1.messageQueue).Sublist
      (shim.shared.messageQueue ++ incoming.toList))
    (halone : unwritten after.2 = [] ∨
      unwrittenBy shim.threads = [] ∧ (unwritten after.2).length ≤ 1) :
    @KeepsLine runCodexSdk shim incoming after :=
  ⟨horder, halone⟩

theorem keepsLine_quiet {incoming : Option QueuedMessage} {after : Section}
    (hqueue : after.1.messageQueue.Sublist shim.shared.messageQueue)
    (hnone : unwritten after.2 = []) : @KeepsLine runCodexSdk shim incoming after := by
  refine keepsLine_of ?_ (.inl hnone)
  have hall := hqueue.trans (List.sublist_append_left _ incoming.toList)
  rwa [← List.nil_append after.1.messageQueue, ← hnone] at hall

theorem keepsLine_deliver {st : CodexState} (h : Steers shim)
    (hstate : st.state = shim.shared.state) (hqueue : st.messageQueue = shim.shared.messageQueue)
    (message : QueuedMessage) :
    @KeepsLine runCodexSdk shim (some message) (st.deliver message) := by
  unfold deliver
  split
  · rename_i hidle
    rw [hstate] at hidle
    have hempty := h.idle hidle
    refine keepsLine_of ?_
      (.inr ⟨unwrittenBy_eq_nil_of_alone fun j thread hj hwork => ?_, ?_⟩)
    · simp [hqueue, hempty, AgentLine.message?]
    · have hbusy := h.one.busy thread (List.mem_of_getElem? hj) hwork
      rw [hidle] at hbusy
      rcases hbusy with hbusy | hbusy <;> cases hbusy
    · simp [AgentLine.message?]
  · refine keepsLine_of ?_ (.inl (unwritten_sends _))
    simp only [unwritten_sends, List.nil_append, ← hqueue]
    exact sublist_queueMessage _ _
  · exact keepsLine_quiet (hqueue ▸ .refl _) rfl

theorem keepsLine_receive (h : Steers shim) {kind : CodexKind} {input : CodexInput}
    (hkind : input.kind = kind) (hget : shim.threads[i]? = some ⟨kind, some []⟩) :
    @KeepsLine runCodexSdk shim input.message? (receive kind input shim.shared) := by
  have hdropped : ∀ {events : List (ShimEvent String)} {st : CodexState}, st.messageQueue = [] →
      @KeepsLine runCodexSdk shim none (st, events.map .send ++ [.stop]) := fun hempty =>
    keepsLine_quiet (hempty ▸ List.nil_sublist _) (unwritten_returns _)
  have hsame : @KeepsLine runCodexSdk shim none (shim.shared, []) := keepsLine_quiet (.refl _) rfl
  subst hkind
  cases input with
  | sendMessage message now =>
    simp only [receive, CodexInput.kind, sendMessage]
    split
    · split
      · exact keepsLine_quiet (.refl _) rfl
      · exact @keepsLine_deliver shim { shim.shared with quotaBlockedUntil := none } h rfl rfl _
    · exact keepsLine_deliver h rfl rfl message
  | shutdown => exact keepsLine_quiet (.refl _) rfl
  | hangUp => exact keepsLine_quiet (.refl _) rfl
  | turnFailed error retryAt =>
    simp only [receive, CodexInput.kind, turnFailed]
    split
    · exact @hdropped (_ :: drainQueueErrors _ _) _ rfl
    split
    · exact @hdropped (_ :: drainQueueErrors _ _) _ rfl
    split
    · exact @hdropped (_ :: drainQueueErrors _ _) _ rfl
    · exact hsame
  | error error retryAt =>
    simp only [receive, CodexInput.kind, CodexState.error]
    split
    · exact @hdropped (_ :: drainQueueErrors _ _) _ rfl
    split
    · exact @hdropped (_ :: drainQueueErrors _ _) _ rfl
    · exact hsame
  | stdoutEnd =>
    simp only [receive, CodexInput.kind, stdoutEnd]
    cases hqueue : shim.shared.messageQueue with
    | nil => exact @hdropped [_, _] _ rfl
    | cons message queue =>
      refine keepsLine_of ?_
        (.inr ⟨unwrittenBy_eq_nil_of_alone fun j thread hj hwork => ?_, ?_⟩)
      · simp [hqueue, CodexInput.message?, AgentLine.message?]
      · have hexec : AtWork ⟨.exec, some []⟩ := ⟨[], rfl, .inr ⟨rfl, by simp⟩⟩
        obtain rfl := h.one.alone hget hj hexec hwork
        obtain rfl := Option.some.inj (hget.symm.trans hj)
        rfl
      · simp [AgentLine.message?]

theorem idle_receive {st : CodexState} {kind : CodexKind} {input : CodexInput}
    (h : st.state = .idle → st.messageQueue = []) :
    (receive kind input st).1.state = .idle → (receive kind input st).1.messageQueue = [] := by
  have hdeliver : ∀ {st : CodexState} (message : QueuedMessage),
      (st.state = .idle → st.messageQueue = []) →
      (st.deliver message).1.state = .idle → (st.deliver message).1.messageQueue = [] := by
    intro st message h
    unfold deliver
    split
    · exact fun h => by cases h
    · rename_i hstate
      intro hidle
      cases hstate.symm.trans hidle
    · exact h
  cases kind <;> cases input <;> try exact h
  · rename_i message now
    simp only [receive, sendMessage]
    split
    · split
      · exact h
      · exact @hdeliver { st with quotaBlockedUntil := none } message h
    · exact hdeliver message h
  · exact fun h => by cases h
  · rename_i error retryAt
    simp only [receive, turnFailed]
    repeat' split
    · exact fun _ => rfl
    · exact fun _ => rfl
    · exact fun _ => rfl
    · exact h
  · rename_i error retryAt
    simp only [receive, CodexState.error]
    repeat' split
    · exact fun _ => rfl
    · exact fun _ => rfl
    · exact h
  · simp only [receive, stdoutEnd]
    split
    · rename_i hqueue
      exact fun _ => hqueue
    · exact fun h => by cases h

theorem steers_step (h : Steers shim) {turn : Turn CodexInput} (hover : HandsOver shim turn) :
    Steers (shim.step CodexState.machine turn) := by
  refine ⟨oneProcess_step h.one turn, ?_, h.lined.step ?_ ?_⟩
  · refine World.step_shared (P := fun st : CodexState => st.state = .idle → st.messageQueue = [])
      h.idle (fun _ _ _ => idle_receive h.idle) fun {i succeeds kind point rest} hturn hget => ?_
    cases point with
    | spawnFailed =>
      rw [hturn] at hover
      exact fun _ => hover kind rest hget
  · exact fun {i input kind} hturn hget haccepts =>
      keepsLine_receive h (CodexInput.kind_of_accepts haccepts) hget
  · intro i succeeds kind point rest hturn hget
    cases point with
    | spawnFailed => exact ⟨rfl, .refl _⟩

end CodexState

/-! ### The terminal runtime -/

namespace ShimInner

def manners (agentType : AgentType) : Manners (Pty.run agentType) where
  kinds := [.command, .reader, .idle, .poll]
  Hands kind inner := inner.state ≠ .idle ∧ inner.state ≠ .starting ∧
    (kind = .reader ∧ inner.agentType ≠ .kiro ∨ kind = .idle ∧ inner.agentType = .kiro)
  locks := false

/-- A look at the screen that ends a turn finds the queue empty, and no message on its way out of
it. -/
def HandsOver (shim : PtyShim) : Turn PtyInput → Prop
  | .receive i (.polled screen) => shim.threads[i]? = some ⟨.poll, some []⟩ →
    shim.shared.state = .working → screen.verdict = .agentIdle →
      shim.shared.messageQueue = [] ∧ ∀ (j : Nat) (thread : Thread PtyKind PtyPoint AgentLine
        (ShimEvent String)), j ≠ 0 → shim.threads[j]? = some thread →
          unwritten (thread.acts.getD []) = []
  | _ => True

/-- No message is taken before the first prompt. -/
def Fresh (inner : ShimInner) : Prop := inner.state = .starting → inner.messageQueue = []

abbrev HandsOn (inner : ShimInner) (after : Section) : Prop :=
  Batty.HandsOn false inner.messageQueue after.1.state after.1.messageQueue after.2

variable {inner : ShimInner}

/-- A section that leaves the queue alone. -/
theorem handsOn_same (hidle : inner.state = .idle → inner.messageQueue = []) {inner' : ShimInner}
    {acts : List (ShimAct PtyKind PtyPoint)} (hqueue : inner'.messageQueue = inner.messageQueue)
    (hstate : inner'.state = .idle → inner.state = .idle)
    (hacts : ∀ act ∈ acts, act.isWork = false) : inner.HandsOn (inner', acts) := by
  refine handsOn_quiet (hqueue ▸ .refl _) (fun h => ?_) hacts
  rw [hqueue]
  exact hidle (hstate h)

theorem handsOn_completeTurn (screen : Screen) (failed : List (ShimEvent String)) :
    inner.HandsOn (inner.completeTurn screen failed) := by
  unfold completeTurn
  split
  · refine ⟨?_, ?_, ?_, by rintro ⟨⟩, fun _ => rfl⟩
    · simp [AgentLine.message?]
    · simp [AgentLine.message?]
    · simp
  simp only
  cases hqueue : inner.messageQueue with
  | nil => exact handsOn_dropped (by simp)
  | cons message queue =>
    rw [HandsOn, hqueue]
    refine ⟨?_, ?_, ?_, by rintro ⟨⟩, fun _ => rfl⟩
    · simp [AgentLine.message?]
    · simp [AgentLine.message?]
    · simp [or_imp, forall_and]

/-- The screen is read as idle after the start, and after a turn of any agent but one. -/
theorem newState_eq_idle {verdict : ScreenVerdict} {dwelt : Bool}
    (h : inner.newState verdict dwelt = some .idle) :
    inner.state = .starting ∨ inner.state = .working ∧ inner.agentType ≠ .kiro := by
  unfold newState at h
  split at h
  · exact .inl ‹_›
  · rename_i hworking
    split at h
    · cases h
    · rename_i hkiro
      exact .inr ⟨hworking, fun heq => hkiro (by simp [heq])⟩
  all_goals cases h

theorem newState_ne_starting {verdict : ScreenVerdict} {dwelt : Bool} :
    inner.newState verdict dwelt ≠ some .starting := by
  unfold newState
  split
  · nofun
  · split <;> nofun
  all_goals nofun

theorem handsOn_output (screen : Screen) (dwelt : Bool) (hfresh : inner.Fresh)
    (hidle : inner.state = .idle → inner.messageQueue = []) :
    inner.HandsOn (inner.output screen dwelt) := by
  unfold output
  split
  · exact handsOn_same hidle rfl id (by simp)
  split
  · exact handsOn_same hidle rfl id (by simp)
  rename_i new hnew
  split
  · exact handsOn_completeTurn screen _
  rename_i hother
  by_cases hexhausted : new = .contextExhausted
  · simp only [if_pos hexhausted]
    exact handsOn_dropped (by simp [or_imp, forall_and])
  · simp only [if_neg hexhausted]
    refine handsOn_quiet (.refl _) (fun hnewIdle => ?_) (by simp [drainQueueErrors])
    -- what was not working, and is idle now, has shown its first prompt
    obtain rfl : new = .idle := hnewIdle
    refine hfresh ((newState_eq_idle hnew).resolve_right fun hworking => ?_)
    exact hother (by simp [hworking.1])

theorem handsOn_receive {kind : PtyKind} {input : PtyInput} (hkind : input.kind = kind)
    (hne : kind ≠ .command) (hfresh : inner.Fresh)
    (hidle : inner.state = .idle → inner.messageQueue = [])
    (hpolled : ∀ screen, input = .polled screen → inner.state = .working →
      screen.verdict = .agentIdle → inner.messageQueue = []) :
    inner.HandsOn (receive kind input inner) := by
  subst hkind
  cases input with
  | output screen dwelt => exact handsOn_output screen dwelt hfresh hidle
  | ptyEnd => exact handsOn_dropped (by simp [receive, PtyInput.kind, ptyEnd, or_imp, forall_and])
  | settled screen =>
    simp only [receive, PtyInput.kind, settled]
    split
    · exact handsOn_completeTurn screen []
    · exact handsOn_same hidle rfl id (by simp)
  | polled screen =>
    simp only [receive, PtyInput.kind, polled]
    split
    · rename_i hdone
      simp only [Bool.and_eq_true, decide_eq_true_eq] at hdone
      exact handsOn_quiet (.refl _) (fun _ => hpolled screen rfl hdone.1 hdone.2) (by simp)
    · exact handsOn_same hidle rfl id (by simp)
  | _ => exact absurd rfl hne

theorem takes_receive {input : PtyInput} (hkind : input.kind = .command)
    (hidle : inner.state = .idle → inner.messageQueue = []) :
    Takes inner.messageQueue input.message? inner.state (receive .command input inner).1.state
      (receive .command input inner).1.messageQueue (receive .command input inner).2 := by
  cases input with
  | startup timedOut =>
    simp only [receive, startup]
    split
    · exact takes_quiet hidle (.inl rfl) (by simp)
    · exact takes_quiet hidle (.inl rfl) (by simp)
    · split <;> exact takes_quiet hidle (.inl rfl) (by simp)
  | sendMessage message contents =>
    simp only [receive, sendMessage]
    split
    · rename_i hstate
      exact takes_message hstate (hidle hstate) (by simp) (by simp)
    · rename_i hstate
      rw [hstate]
      exact takes_queueMessage _ _
    · exact takes_quiet hidle (.inl rfl) (by simp)
  | hangUp => exact takes_quiet hidle (.inl rfl) (by simp [receive])
  | _ => cases hkind

/-- What a section does to the state of the shim: it never begins anew, and it does not go idle
but from the start, or where a turn ends. -/
structure Goes (inner inner' : ShimInner) (ends : Prop) : Prop where
  agentType : inner'.agentType = inner.agentType
  starting : inner'.state = .starting → inner.state = .starting ∧
    inner'.messageQueue = inner.messageQueue
  idle : inner'.state = .idle → inner.state = .idle ∨ inner.state = .starting ∨ ends

theorem goes_same {inner' : ShimInner} {ends : Prop} (hagent : inner'.agentType = inner.agentType)
    (hstate : inner'.state = inner.state) (hqueue : inner.state = .starting →
      inner'.messageQueue = inner.messageQueue) : inner.Goes inner' ends := by
  refine ⟨hagent, fun h => ?_, fun h => .inl (hstate ▸ h)⟩
  rw [hstate] at h
  exact ⟨h, hqueue h⟩

theorem goes_completeTurn (screen : Screen) (failed : List (ShimEvent String)) {ends : Prop}
    (hends : ends) : inner.Goes (inner.completeTurn screen failed).1 ends := by
  unfold completeTurn
  split
  · exact ⟨rfl, nofun, nofun⟩
  · simp only
    split
    · exact ⟨rfl, nofun, fun _ => .inr (.inr hends)⟩
    · exact ⟨rfl, nofun, nofun⟩

theorem goes_output (screen : Screen) (dwelt : Bool) :
    inner.Goes (inner.output screen dwelt).1 (inner.agentType ≠ .kiro) := by
  unfold output
  split
  · exact goes_same rfl rfl fun _ => rfl
  split
  · exact goes_same rfl rfl fun _ => rfl
  rename_i new hnew
  split
  · rename_i hends
    simp only [Bool.and_eq_true, decide_eq_true_eq] at hends
    refine goes_completeTurn screen _ ?_
    rcases newState_eq_idle (hends.2 ▸ hnew) with hstarting | ⟨-, hkiro⟩
    · cases hstarting.symm.trans hends.1
    · exact hkiro
  · refine ⟨rfl, fun hstarting => ?_, fun hidle => ?_⟩
    · obtain rfl : new = .starting := hstarting
      exact absurd hnew newState_ne_starting
    · obtain rfl : new = .idle := hidle
      exact (newState_eq_idle hnew).elim (fun h => .inr (.inl h)) fun h => .inr (.inr h.2)

theorem goes_receive (kind : PtyKind) (input : PtyInput) :
    inner.Goes (receive kind input inner).1
      (kind = .reader ∧ inner.agentType ≠ .kiro ∨ kind = .idle ∧ inner.agentType = .kiro ∨
        kind = .poll) := by
  have hsame : ∀ {ends : Prop}, inner.Goes inner ends := goes_same rfl rfl fun _ => rfl
  cases kind <;> cases input <;> try exact hsame
  · rename_i timedOut
    simp only [receive, startup]
    split
    · exact hsame
    · exact goes_same rfl rfl fun _ => rfl
    · split <;> exact hsame
  · rename_i message contents
    simp only [receive, sendMessage]
    split
    · exact goes_same rfl rfl fun _ => rfl
    · rename_i hworking
      exact goes_same rfl rfl fun hstarting => by cases hworking.symm.trans hstarting
    · exact hsame
  · rename_i screen dwelt
    obtain ⟨hagent, hstarting, hidle⟩ := goes_output screen dwelt
    refine ⟨hagent, hstarting, fun h => (hidle h).imp id (Or.imp id fun hkiro => .inl ⟨rfl, hkiro⟩)⟩
  · exact ⟨rfl, by rintro ⟨⟩, by rintro ⟨⟩⟩
  · rename_i screen
    change inner.Goes (inner.settled screen).1 _
    unfold settled
    split
    · rename_i hends
      simp only [Bool.and_eq_true, decide_eq_true_eq] at hends
      exact goes_completeTurn screen _ (.inr (.inl ⟨rfl, hends.1.1⟩))
    · exact hsame
  · rename_i screen
    change inner.Goes (inner.polled screen).1 _
    unfold polled
    split
    · exact ⟨rfl, by rintro ⟨⟩, fun _ => .inr (.inr (.inr (.inr rfl)))⟩
    · exact hsame

/-- The threads that hand messages on are two, and never for the same agent. -/
theorem hands_receive {kind : PtyKind} {input : PtyInput} (hne : kind ≠ .command)
    (hsome : unwritten (receive kind input inner).2 ≠ []) :
    kind = .reader ∧ inner.agentType ≠ .kiro ∨ kind = .idle ∧ inner.agentType = .kiro := by
  cases kind <;> cases input <;> try exact absurd rfl hsome
  · exact absurd rfl hne
  · exact absurd rfl hne
  · rename_i screen dwelt
    refine .inl ⟨rfl, ?_⟩
    change unwritten (inner.output screen dwelt).2 ≠ [] at hsome
    unfold output at hsome
    split at hsome
    · exact absurd rfl hsome
    split at hsome
    · exact absurd rfl hsome
    rename_i new hnew
    split at hsome
    · rename_i hends
      simp only [Bool.and_eq_true, decide_eq_true_eq] at hends
      rcases newState_eq_idle (hends.2 ▸ hnew) with hstarting | ⟨-, hkiro⟩
      · cases hstarting.symm.trans hends.1
      · exact hkiro
    · simp at hsome
  · refine absurd ?_ hsome
    exact unwritten_returns (_ :: drainQueueErrors _ _)
  · rename_i screen
    refine .inr ⟨rfl, ?_⟩
    change unwritten (inner.settled screen).2 ≠ [] at hsome
    unfold settled at hsome
    split at hsome
    · rename_i hends
      simp only [Bool.and_eq_true, decide_eq_true_eq] at hends
      exact hends.1.1
    · exact absurd rfl hsome
  · rename_i screen
    change unwritten (inner.polled screen).2 ≠ [] at hsome
    unfold polled at hsome
    split at hsome <;> exact absurd rfl hsome

theorem alone_of_ne {kind kind' : PtyKind} (hne : kind' ≠ kind)
    (h : kind = .reader ∧ inner.agentType ≠ .kiro ∨ kind = .idle ∧ inner.agentType = .kiro) :
    ¬ (kind' = .reader ∧ inner.agentType ≠ .kiro ∨ kind' = .idle ∧ inner.agentType = .kiro) := by
  rintro (⟨rfl, hkiro⟩ | ⟨rfl, hkiro⟩)
  · exact h.elim (fun h => hne h.1.symm) fun h => hkiro h.2
  · exact h.elim (fun h => h.2 hkiro) fun h => hne h.1.symm

theorem Goes.hands {agentType : AgentType} {inner' : ShimInner} {ends : Prop}
    (h : inner.Goes inner' ends) (hends : ¬ ends) {kind : PtyKind}
    (hhands : (manners agentType).Hands kind inner) : (manners agentType).Hands kind inner' := by
  obtain ⟨hidle, hstarting, hkind⟩ := hhands
  refine ⟨fun h' => ?_, fun h' => hstarting (h.starting h').1, ?_⟩
  · rcases h.idle h' with hsame | hsame | hsame
    · exact hidle hsame
    · exact hstarting hsame
    · exact hends hsame
  · rwa [h.agentType]

theorem attends_receive {agentType : AgentType} {shim : PtyShim}
    (h : Attended (manners agentType) shim) (hfresh : shim.shared.Fresh) {i : Nat} {kind : PtyKind}
    {input : PtyInput} (hget : shim.threads[i]? = some ⟨kind, some []⟩) (hkind : input.kind = kind)
    (hover : HandsOver shim (.receive i input)) :
    Attends (manners agentType) shim i kind input.message? (receive kind input shim.shared) := by
  have hgoes := @goes_receive shim.shared kind input
  have hplace := h.kind_at hget
  by_cases hzero : i = 0
  · subst hzero
    obtain rfl : PtyKind.command = kind := Option.some.inj hplace
    exact attends_of_takes h rfl (takes_receive hkind h.idle) (fun _ hhands => hhands.1)
      fun _ _ hhands => hgoes.hands (by simp) hhands
  have hne : kind ≠ .command := by
    rintro rfl
    match i, hplace with
    | 0, _ => exact hzero rfl
    | 1, hplace => cases hplace
    | 2, hplace => cases hplace
    | 3, hplace => cases hplace
    | _ + 4, hplace => cases hplace
  have hincoming : input.message? = none := by
    cases input with
    | sendMessage message contents => exact absurd hkind.symm hne
    | _ => rfl
  have hpolled : ∀ screen, input = .polled screen → shim.shared.state = .working →
      screen.verdict = .agentIdle → shim.shared.messageQueue = [] ∧
        @NothingUnwritten (Pty.run agentType) shim.threads := by
    rintro screen rfl hworking hverdict
    subst hkind
    exact hover hget hworking hverdict
  have hhandsOn := handsOn_receive hkind hne hfresh h.idle fun screen hinput hworking hverdict =>
    (hpolled screen hinput hworking hverdict).1
  refine attends_of_handsOn hzero hincoming hhandsOn (fun hsome => ?_) ?_
  · have hworking := hhandsOn.handed hsome
    have hkinds := hands_receive hne hsome
    refine ⟨⟨?_, ?_, ?_⟩, fun kind' hother hhands => ?_⟩
    · exact fun hidle => by cases hworking.symm.trans hidle
    · exact fun hstarting => by cases hworking.symm.trans hstarting
    · rw [hgoes.agentType]
      exact hkinds
    · exact alone_of_ne hother hkinds hhands.2.2
  by_cases hpoll : kind = .poll
  · subst hpoll
    cases input with
    | polled screen =>
      by_cases hends : shim.shared.state = .working ∧ screen.verdict = .agentIdle
      · exact .inl (hpolled screen rfl hends.1 hends.2).2
      · refine .inr fun kind' _ hhands => ?_
        have hsame : (receive .poll (.polled screen) shim.shared).1 = shim.shared := by
          simp only [receive, polled]
          rw [if_neg (by simpa using hends)]
        rwa [hsame]
    | _ => cases hkind
  · refine .inr fun kind' hother hhands => hgoes.hands ?_ hhands
    rintro (hends | hends | hends)
    · exact alone_of_ne hother (.inl hends) hhands.2.2
    · exact alone_of_ne hother (.inr hends) hhands.2.2
    · exact hpoll hends

theorem resumes (agentType : AgentType) (inner : ShimInner) (point : PtyPoint) :
    Resumes (manners agentType) inner ((Pty.run agentType).machine.resume point inner) := by
  cases point with
  | injected messageId =>
    exact ⟨⟨answerWith .messageDelivered messageId ++ [.stateChanged inner.state .working],
      by simp [Pty.run, machine, injected]⟩, rfl, nofun⟩

theorem fresh_receive {kind : PtyKind} {input : PtyInput} (hfresh : inner.Fresh) :
    (receive kind input inner).1.Fresh := by
  intro hstarting
  obtain ⟨hbefore, hqueue⟩ := (goes_receive kind input).starting hstarting
  exact hqueue.trans (hfresh hbefore)

end ShimInner

/-! ### Runs -/

/-- The turn does not leave a message behind in the queue of an idle shim. -/
def RuntimeName.HandsOver : ∀ name : RuntimeName,
    name.runtime.Shim → Turn name.runtime.Input → Prop
  | .pty _ => ShimInner.HandsOver
  | .sdk => fun _ _ => True
  | .codex => CodexState.HandsOver
  | .kiro => KiroState.HandsOverIn

theorem ShimInner.ordered_through (agentType : AgentType) {turns : List (Turn PtyInput)}
    (h : World.Allowed ShimInner.machine ShimInner.HandsOver (Pty.run agentType).start turns) :
    ∀ shim ∈ (Pty.run agentType).through turns, Ordered shim := by
  let Inv (shim : PtyShim) : Prop := (Attended (manners agentType) shim ∧
    @Lined (Pty.run agentType) shim) ∧ shim.shared.Fresh
  have hnodup : [PtyKind.command, .reader, .idle, .poll].Nodup := by decide
  have hstep : ∀ shim turn, Inv shim → HandsOver shim turn → Inv (shim.step machine turn) := by
    intro shim turn hinv hover
    refine ⟨attended_step hinv.1 hnodup (fun hturn hget haccepts => ?_) (resumes agentType _),
      ?_⟩
    · rw [hturn] at hover
      exact attends_receive hinv.1.1 hinv.2 hget (PtyInput.kind_of_accepts haccepts) hover
    · refine World.step_shared hinv.2 (fun _ _ _ => fresh_receive hinv.2) ?_
      intro i succeeds kind point rest hturn hget
      cases point with
      | injected messageId => nofun
  have hwaits := (RuntimeName.pty agentType).waits_start
  intro shim hmem
  have hinv := World.through_of_steps hstep
    ⟨⟨attended_of_waits rfl rfl hwaits, lined_of_waits rfl rfl hwaits⟩, fun _ => rfl⟩ h shim hmem
  exact ordered_of_lined hinv.1.1.idle hinv.1.2

theorem SdkState.ordered_through {turns : List (Turn SdkInput)} :
    ∀ shim ∈ runSdk.through turns, Ordered shim := by
  let Inv (shim : SdkShim) : Prop := Attended manners shim ∧ @Lined runSdk shim
  have hnodup : [SdkKind.command, .reader].Nodup := by decide
  have hstep : ∀ shim turn, Inv shim → True → Inv (shim.step SdkState.machine turn) := by
    intro shim turn hinv _
    refine attended_step hinv hnodup (fun hturn hget haccepts => ?_) (resumes _)
    exact attends_receive hinv.1 hget (SdkInput.kind_of_accepts haccepts)
  have hwaits := RuntimeName.sdk.waits_start
  intro shim hmem
  have hinv := World.through_of_steps hstep
    ⟨attended_of_waits rfl rfl hwaits, lined_of_waits rfl rfl hwaits⟩
    (World.allowed_true turns _) shim hmem
  exact ordered_of_lined hinv.1.idle hinv.2

theorem CodexState.ordered_through {turns : List (Turn CodexInput)}
    (h : World.Allowed CodexState.machine CodexState.HandsOver runCodexSdk.start turns) :
    ∀ shim ∈ runCodexSdk.through turns, Ordered shim := by
  have hwaits := RuntimeName.codex.waits_start
  intro shim hmem
  have hstep : ∀ shim turn, Steers shim → HandsOver shim turn →
      Steers (shim.step CodexState.machine turn) := fun _ _ hsteers hover =>
    steers_step hsteers hover
  have hsteers := World.through_of_steps hstep
    ⟨oneProcess_start, fun _ => rfl, lined_of_waits rfl rfl hwaits⟩ h shim hmem
  exact ordered_of_lined hsteers.idle hsteers.lined

theorem KiroState.ordered_through {turns : List (Turn KiroInput)}
    (h : World.Allowed KiroState.machine KiroState.HandsOverIn runKiroAcp.start turns) :
    ∀ shim ∈ runKiroAcp.through turns, Ordered shim := by
  let Inv (shim : KiroShim) : Prop := (Attended manners shim ∧ @Lined runKiroAcp shim) ∧
    shim.shared.Fresh
  have hnodup : [KiroKind.command, .reader].Nodup := by decide
  have hstep : ∀ shim turn, Inv shim → HandsOverIn shim turn →
      Inv (shim.step KiroState.machine turn) := by
    intro shim turn hinv hover
    refine ⟨attended_step hinv.1 hnodup (fun hturn hget haccepts => ?_) (resumes _), ?_⟩
    · have hkind := KiroInput.kind_of_accepts haccepts
      rw [hturn] at hover
      exact attends_receive hinv.1.1 hinv.2 hget hkind (hover _ hget hkind)
    · refine World.step_shared hinv.2 (fun hturn hget haccepts => ?_) ?_
      · rw [hturn] at hover
        exact fresh_receive hinv.2 hinv.1.1.idle
          (hover _ hget (KiroInput.kind_of_accepts haccepts)) haccepts
      · intro i succeeds kind point rest hturn hget
        cases point with
        | promptSent requestId => exact hinv.2
  have hwaits := RuntimeName.kiro.waits_start
  intro shim hmem
  have hinv := World.through_of_steps hstep
    ⟨⟨attended_of_waits rfl rfl hwaits, lined_of_waits rfl rfl hwaits⟩, fun _ => rfl⟩ h shim hmem
  exact ordered_of_lined hinv.1.1.idle hinv.1.2

/-- **Messages are handed on in order** in every run that leaves none behind. -/
theorem ordered_of_handsOver (name : RuntimeName) {turns : List (Turn name.runtime.Input)}
    (h : World.Allowed name.runtime.machine name.HandsOver name.runtime.start turns) :
    ∀ shim ∈ name.runtime.through turns, Ordered shim := by
  cases name with
  | pty agentType => exact ShimInner.ordered_through agentType h
  | sdk => exact SdkState.ordered_through
  | codex => exact CodexState.ordered_through h
  | kiro => exact KiroState.ordered_through h

def orderMessage (body : String) : QueuedMessage := { sender := "manager", body, messageId := none }

/-- A message whose process cannot be spawned, with nothing behind it. -/
def unspawnedTurns : List (Turn CodexInput) :=
  [.receive 0 (.sendMessage (orderMessage "task 1") 0), .go 0 true, .go 0 true, .go 1 false,
    .go 1 true]

/-- A message whose process cannot be spawned. -/
theorem ordered_of_handsOver_unspawned : (runCodexSdk.through unspawnedTurns).length = 6 ∧
    ∀ shim ∈ runCodexSdk.through unspawnedTurns, Ordered shim :=
  ⟨rfl, ordered_of_handsOver .codex
    ⟨trivial, fun _ _ _ => rfl, fun _ _ _ => rfl, fun _ _ _ => rfl, fun _ _ _ => rfl, trivial⟩⟩

/-- The same with a second message behind it. -/
def leftBehindTurns : List (Turn CodexInput) :=
  [.receive 0 (.sendMessage (orderMessage "task 1") 0), .go 0 true, .go 0 true,
    .receive 0 (.sendMessage (orderMessage "task 2") 0), .go 1 false, .go 1 true]

/-- The second message stays in the queue of an idle shim. -/
theorem not_ordered_leftBehind :
    ¬ ∀ (name : RuntimeName) (turns : List (Turn name.runtime.Input)),
      ∀ shim ∈ name.runtime.through turns, Ordered shim := by
  intro h
  have hleft : ∃ shim ∈ runCodexSdk.through leftBehindTurns,
      runCodexSdk.state shim.shared = .idle ∧
        runCodexSdk.messageQueue shim.shared = [orderMessage "task 2"] := by
    refine ⟨(runCodexSdk.through leftBehindTurns).getLast (List.cons_ne_nil _ _),
      List.getLast_mem _, ?_, ?_⟩
    · rfl
    · rfl
  obtain ⟨shim, hmem, hidle, hqueue⟩ := hleft
  cases hqueue.symm.trans ((h .codex leftBehindTurns shim hmem).idle hidle)

end Batty
