import Batty.Shim.Accounts
import Batty.Shim.Codex
import Batty.Shim.Kiro
import Batty.Shim.Pty
import Batty.Shim.Sdk

/-!
# Answers to messages

* `accountsFor_of_sparesAnswers`: messages are accounted for in every run that neither drops,
  refuses nor hands over a queued message with an id, and in which the Codex process of no such
  message fails to spawn or to be given it.
* `not_accountsFor_handedOver`: the queue is where the accounts break. What leaves it, leaves it
  without an answer.
-/

namespace Batty

/-- The four runtimes. -/
inductive RuntimeName where
  | pty (agentType : AgentType)
  | sdk
  | codex
  | kiro

def RuntimeName.runtime : RuntimeName → Runtime
  | .pty agentType => Pty.run agentType
  | .sdk => runSdk
  | .codex => runCodexSdk
  | .kiro => runKiroAcp

/-! ### The Claude runtime -/

def SdkState.SparesAnswers (st : SdkState) : SdkInput → Prop
  | .sendMessage message => TakesMessage st.state st.messageQueue message
  | .result result errors _ => st.turnInFlight = true →
    if reportsExhaustion result errors then Unnamed st.messageQueue
    else detectTestFailureFollowup (st.response result) st.testFailureIterations = none →
      HeadUnnamed st.messageQueue
  | .stdoutTimeout => st.state = .working → HeadUnnamed st.messageQueue
  | .stdoutEnd => Unnamed st.messageQueue
  | _ => True

namespace SdkState

variable {id : String} {MayFail : AgentLine → Prop} {st : SdkState}

theorem keeps_sendMessage {message : QueuedMessage}
    (h : TakesMessage st.state st.messageQueue message) :
    Keeps runSdk id MayFail st.messageQueue (carries id message.messageId) 0
      (st.sendMessage message) := by
  unfold sendMessage
  unfold TakesMessage at h
  split
  · exact keeps_written rfl
  · rename_i hstate
    rw [hstate] at h
    exact keeps_queueMessage h rfl
  · have hunnamed : message.messageId = none := by split at h <;> simp_all
    exact keeps_refused rfl hunnamed

theorem keeps_completeTurn {before : List QueuedMessage} {old : ShimState}
    {messageId : Option String} (hqueue : st.messageQueue = before) (h : HeadUnnamed before) :
    Keeps runSdk id MayFail before 0 0
      (st.completeTurn.1, announceCompletion old messageId st.completeTurn.2) := by
  unfold completeTurn
  rw [hqueue]
  unfold HeadUnnamed at h
  cases before with
  | nil =>
    constructor <;>
      simp [runSdk, announceCompletion, Accounting.ofActs, Accounting.Balanced, ShimEvent.answers]
  | cons message queue =>
    have hmessage : message.messageId = none := h message (by simp)
    constructor <;>
      simp [runSdk, announceCompletion, Accounting.ofActs, Accounting.Balanced, ShimEvent.answers,
        hmessage]

theorem keeps_result {result : Option String} {errors : Option (List String)}
    {sessionId : Option String} (h : st.SparesAnswers (.result result errors sessionId)) :
    Keeps runSdk id MayFail st.messageQueue 0 0 (st.result result errors sessionId) := by
  unfold SdkState.result
  split
  · exact keeps_quiet (.inl rfl) rfl
  · rename_i hturn
    have hspares := h (by simpa using hturn)
    dsimp only
    split
    · rename_i hexhausted
      rw [if_pos hexhausted] at hspares
      have hkeeps : Keeps runSdk id MayFail (st.noteSession sessionId).messageQueue 0 0
          (exhaustContext (st.noteSession sessionId)) :=
        keeps_exhausted (by rwa [noteSession_messageQueue]) rfl
      rwa [noteSession_messageQueue] at hkeeps
    · rename_i hexhausted
      rw [if_neg hexhausted] at hspares
      rw [noteSession_response, noteSession_testFailureIterations]
      split
      · constructor <;>
          simp [runSdk, Accounting.ofActs, Accounting.Balanced, ShimEvent.answers]
      · rename_i hfollowup
        exact keeps_completeTurn (by simp) (hspares hfollowup)

theorem keeps_receive {kind : SdkKind} {input : SdkInput} (hkind : input.kind = kind)
    (h : st.SparesAnswers input) :
    Keeps runSdk id MayFail st.messageQueue
      ((input.message?.map fun message => carries id message.messageId).getD 0) 0
      (receive kind input st) := by
  subst hkind
  cases input with
  | sendMessage message => exact keeps_sendMessage h
  | commandTimeout due =>
    simp only [receive, SdkInput.kind, maybeSendKeepalive]
    split
    · constructor <;>
        simp [runSdk, SdkInput.message?, Accounting.ofActs, Accounting.Balanced, failedActs,
          Runtime.answersAccount, Runtime.deliveriesAccount, AgentLine.message?]
    · exact keeps_quiet (.inl rfl) rfl
  | hangUp => exact keeps_quiet (.inr rfl) rfl
  | assistant text sessionId =>
    simp only [receive, SdkInput.kind, assistant, streamEvent]
    split
    · exact keeps_quiet (.inl rfl) rfl
    · split
      · exact keeps_quiet (.inl rfl) rfl
      · exact keeps_quiet (.inl rfl) (noteSession_messageQueue _)
  | streamEvent text sessionId =>
    simp only [receive, SdkInput.kind, streamEvent]
    split
    · exact keeps_quiet (.inl rfl) rfl
    · exact keeps_quiet (.inl rfl) (noteSession_messageQueue _)
  | result result errors sessionId => exact keeps_result h
  | stdoutTimeout =>
    simp only [receive, SdkInput.kind, forceStalledCompletion]
    split
    · rename_i hstate
      exact keeps_completeTurn rfl (h hstate)
    · exact keeps_quiet (.inl rfl) rfl
  | stdoutEnd => exact keeps_dropped (.inr rfl) rfl h rfl

end SdkState

/-! ### The Codex runtime -/

/-- Only a message without an id may fail to get its process, or to be written to it. -/
def CodexState.MayFail : AgentLine → Prop
  | .process message | .message message => message.messageId = none
  | .followup _ | .keepalive => True

/-- A failure that parks or ends the shim finds no message with an id in the queue. -/
def CodexState.SparesAnswers (st : CodexState) : CodexInput → Prop
  | .sendMessage message now =>
    if ∃ until' ∈ st.quotaBlockedUntil, now < until' then message.messageId = none
    else TakesMessage st.state st.messageQueue message
  | .turnFailed error _ =>
    detectAuthRequired (error.getD "unknown error") ∨
        detectContextExhausted (error.getD "unknown error") ∨
        detectQuotaBlock (error.getD "unknown error") → Unnamed st.messageQueue
  | .error error _ =>
    detectAuthRequired (error.getD "stream error") ∨ detectQuotaBlock (error.getD "stream error") →
      Unnamed st.messageQueue
  | .stdoutEnd => HeadUnnamed st.messageQueue
  | .shutdown | .hangUp => True

namespace CodexState

variable {id : String} {st : CodexState}

theorem keeps_deliver {message : QueuedMessage}
    (h : TakesMessage st.state st.messageQueue message) :
    Keeps runCodexSdk id MayFail st.messageQueue (carries id message.messageId) 0
      (st.deliver message) := by
  unfold deliver
  unfold TakesMessage at h
  split
  · -- the delivery is reported before the process is spawned
    rw [List.append_assoc, List.singleton_append]
    refine ⟨?_, ?_, (balanced_sends _ _).mpr ⟨fun _ => rfl, fun _ => rfl, trivial⟩,
      (balanced_sends _ _).mpr ⟨fun hmay => ?_, fun hmay => ?_, trivial⟩⟩
    · simp [runCodexSdk, Accounting.ofActs, ShimEvent.answers]
    · simp [runCodexSdk, Accounting.ofActs]
    all_goals
      have hunnamed : message.messageId = none := hmay
      simp only [deliveriesAccount_message, hunnamed]
      rfl
  · rename_i hstate
    rw [hstate] at h
    exact keeps_queueMessage h rfl
  · have hunnamed : message.messageId = none := by split at h <;> simp_all
    exact keeps_refused rfl hunnamed

theorem keeps_park {until' : Option Nat} {event : ShimEvent String}
    (hevent : event.answers id = false) (h : Unnamed st.messageQueue) :
    Keeps runCodexSdk id MayFail st.messageQueue 0 0 (st.park until' event) :=
  keeps_dropped (.inr rfl) hevent h rfl

theorem keeps_exhaustContext (h : Unnamed st.messageQueue) :
    Keeps runCodexSdk id MayFail st.messageQueue 0 0 st.exhaustContext :=
  keeps_dropped (.inr rfl) rfl h rfl

theorem keeps_receive {kind : CodexKind} {input : CodexInput} (hkind : input.kind = kind)
    (h : st.SparesAnswers input) :
    Keeps runCodexSdk id MayFail st.messageQueue
      ((input.message?.map fun message => carries id message.messageId).getD 0) 0
      (receive kind input st) := by
  subst hkind
  cases input with
  | sendMessage message now =>
    simp only [receive, CodexInput.kind, CodexInput.message?, sendMessage]
    simp only [SparesAnswers] at h
    split
    · rename_i until' huntil
      rw [huntil] at h
      split
      · rename_i hlater
        rw [if_pos ⟨until', rfl, hlater⟩] at h
        exact keeps_refused rfl h
      · rename_i hover
        rw [if_neg (by simpa using hover)] at h
        have hkeeps := @keeps_deliver id { st with quotaBlockedUntil := none } message h
        exact hkeeps
    · rename_i huntil
      rw [huntil] at h
      exact keeps_deliver (by simpa using h)
  | shutdown => exact keeps_quiet (.inr rfl) rfl
  | hangUp => exact keeps_quiet (.inr rfl) rfl
  | turnFailed error retryAt =>
    simp only [receive, CodexInput.kind, turnFailed]
    simp only [SparesAnswers] at h
    split
    · exact keeps_park rfl (h (by simp_all))
    · split
      · exact keeps_exhaustContext (h (by simp_all))
      · split
        · exact keeps_park rfl (h (by simp_all))
        · exact keeps_quiet (.inl rfl) rfl
  | error error retryAt =>
    simp only [receive, CodexInput.kind, CodexState.error]
    simp only [SparesAnswers] at h
    split
    · exact keeps_park rfl (h (by simp_all))
    · split
      · exact keeps_park rfl (h (by simp_all))
      · exact keeps_quiet (.inl rfl) rfl
  | stdoutEnd =>
    simp only [receive, CodexInput.kind, stdoutEnd]
    simp only [SparesAnswers, HeadUnnamed] at h
    cases hqueue : st.messageQueue with
    | nil =>
      constructor <;>
        simp [runCodexSdk, CodexInput.message?, Accounting.ofActs, Accounting.Balanced,
          ShimEvent.answers]
    | cons message queue =>
      rw [hqueue] at h
      have hmessage : message.messageId = none := h message (by simp)
      constructor <;>
        simp [runCodexSdk, CodexInput.message?, Accounting.ofActs, Accounting.Balanced,
          ShimEvent.answers, failedActs, Runtime.answersAccount, Runtime.deliveriesAccount,
          AgentLine.message?, hmessage]

theorem keeps_spawnFailed : Keeps runCodexSdk id MayFail st.messageQueue 0 0 st.spawnFailed := by
  constructor <;>
    simp [runCodexSdk, spawnFailed, Accounting.ofActs, Accounting.Balanced, ShimEvent.answers]

end CodexState

/-! ### The Kiro runtime -/

def KiroState.SparesAnswers (st : KiroState) : KiroInput → Prop
  | .sendMessage message => TakesMessage st.state st.messageQueue message
  | .errorResponse id message => st.pendingPromptRequestId = some id →
    detectContextExhausted (message.getD "unknown error") → Unnamed st.messageQueue
  | .resultResponse id _ => st.initialized = true → st.pendingPromptRequestId = some id →
    HeadUnnamed st.messageQueue
  | .metadata exhausted => exhausted = true → Unnamed st.messageQueue
  | .stdoutEnd => Unnamed st.messageQueue
  | .hangUp => True

namespace KiroState

variable {id : String} {MayFail : AgentLine → Prop} {st : KiroState}

theorem keeps_sendMessage {message : QueuedMessage}
    (h : TakesMessage st.state st.messageQueue message) :
    Keeps runKiroAcp id MayFail st.messageQueue (carries id message.messageId) 0
      (st.sendMessage message) := by
  unfold sendMessage
  unfold TakesMessage at h
  split
  · exact keeps_written rfl
  · rename_i hstate
    rw [hstate] at h
    exact keeps_queueMessage h rfl
  · have hunnamed : message.messageId = none := by split at h <;> simp_all
    exact keeps_refused rfl hunnamed

theorem keeps_completePrompt (h : HeadUnnamed st.messageQueue) :
    Keeps runKiroAcp id MayFail st.messageQueue 0 0 st.completePrompt := by
  unfold completePrompt
  unfold HeadUnnamed at h
  dsimp only
  cases hqueue : st.messageQueue with
  | nil =>
    constructor <;>
      simp [runKiroAcp, Accounting.ofActs, Accounting.Balanced, ShimEvent.answers]
  | cons message queue =>
    rw [hqueue] at h
    have hmessage : message.messageId = none := h message (by simp)
    constructor <;>
      simp [runKiroAcp, Accounting.ofActs, Accounting.Balanced, ShimEvent.answers,
        Runtime.answersAccount, Runtime.deliveriesAccount, AgentLine.message?, hmessage]

theorem keeps_receive {kind : KiroKind} {input : KiroInput} (hkind : input.kind = kind)
    (h : st.SparesAnswers input) :
    Keeps runKiroAcp id MayFail st.messageQueue
      ((input.message?.map fun message => carries id message.messageId).getD 0) 0
      (receive kind input st) := by
  subst hkind
  cases input with
  | sendMessage message => exact keeps_sendMessage h
  | hangUp => exact keeps_quiet (.inr rfl) rfl
  | errorResponse request message =>
    simp only [receive, KiroInput.kind, errorResponse]
    split
    · rename_i hpending
      split
      · rename_i hexhausted
        exact keeps_exhausted (h hpending hexhausted) rfl
      · have hkeeps : Keeps runKiroAcp id MayFail st.messageQueue 0 0
            (({ st with
                pendingPromptRequestId := none, pendingMessageId := none
                state := .idle } : KiroState),
              [ShimEvent.stateChanged .working .idle, .completion st.pendingMessageId].map .send ++
                []) :=
          keeps_events (.inl rfl) rfl (by simp) (by simp [runKiroAcp])
        exact hkeeps
    · exact keeps_quiet (.inl rfl) rfl
  | resultResponse request sessionId =>
    simp only [receive, KiroInput.kind, resultResponse]
    split
    · exact keeps_quiet (.inl rfl) rfl
    · split
      · split
        · have hkeeps : Keeps runKiroAcp id MayFail st.messageQueue 0 0
              (({ st with initialized := true, state := .idle } : KiroState),
                [ShimEvent.ready].map .send ++ []) :=
            keeps_events (.inl rfl) rfl (by simp) (by simp [runKiroAcp])
          exact hkeeps
        · exact keeps_quiet (.inl rfl) rfl
      · rename_i hinitialized
        split
        · rename_i hpending
          exact keeps_completePrompt (h (by simpa using hinitialized) hpending)
        · exact keeps_quiet (.inl rfl) rfl
  | metadata exhausted =>
    simp only [receive, KiroInput.kind, metadata]
    split
    · rename_i hexhausted
      exact keeps_exhausted (h hexhausted) rfl
    · exact keeps_quiet (.inl rfl) rfl
  | stdoutEnd => exact keeps_dropped (.inr rfl) rfl h rfl

theorem keeps_promptSent {requestId : Nat} :
    Keeps runKiroAcp id MayFail st.messageQueue 0 0 (st.promptSent requestId) := by
  have hkeeps : Keeps runKiroAcp id MayFail st.messageQueue 0 0
      (({ st with pendingPromptRequestId := some requestId } : KiroState),
        [ShimEvent.stateChanged .idle .working].map .send ++ []) :=
    keeps_events (.inl rfl) rfl (by simp) (by simp [runKiroAcp])
  exact hkeeps

end KiroState

/-! ### The terminal runtime -/

/-- The queue is handed over where a turn ends with no failed tests. -/
def ShimInner.SparesHead (inner : ShimInner) (screen : Screen) : Prop :=
  detectTestFailureFollowup screen.response inner.testFailureIterations = none →
    HeadUnnamed inner.messageQueue

def ShimInner.SparesAnswers (inner : ShimInner) : PtyInput → Prop
  | .sendMessage message _ => TakesMessage inner.state inner.messageQueue message
  | .output screen dwelt =>
    inner.contextApproachingEmitted || !detectContextApproachingLimit screen.contents →
      (inner.state = .working → inner.newState screen.verdict dwelt = some .idle →
        inner.SparesHead screen) ∧
      (screen.verdict = .contextExhausted → Unnamed inner.messageQueue)
  | .ptyEnd => Unnamed inner.messageQueue
  | .settled screen => inner.agentType = .kiro → inner.state = .working →
    screen.verdict = .agentIdle → inner.SparesHead screen
  | .startup _ | .hangUp | .polled _ => True

namespace ShimInner

variable {id : String} {MayFail : AgentLine → Prop} {inner : ShimInner} {agentType : AgentType}

theorem keeps_sendMessage {message : QueuedMessage} {contents : String}
    (h : TakesMessage inner.state inner.messageQueue message) :
    Keeps (Pty.run agentType) id MayFail inner.messageQueue (carries id message.messageId) 0
      (inner.sendMessage message contents) := by
  unfold sendMessage
  unfold TakesMessage at h
  split
  · exact keeps_writtenOwed rfl rfl
  · rename_i hstate
    rw [hstate] at h
    exact keeps_queueMessage h rfl
  · have hunnamed : message.messageId = none := by split at h <;> simp_all
    exact keeps_refused rfl hunnamed

theorem answers_buildTransitionEvents {source target : ShimState} :
    ∀ event ∈ inner.buildTransitionEvents source target, event.answers id = false := by
  intro event hmem
  unfold buildTransitionEvents at hmem
  split at hmem <;> simp at hmem
  · rcases hmem with rfl | rfl <;> rfl
  · exact hmem ▸ rfl

theorem keeps_completeTurn {screen : Screen} {failed : List (ShimEvent String)}
    (hfailed : ∀ event ∈ failed, event.answers id = false) (h : inner.SparesHead screen) :
    Keeps (Pty.run agentType) id MayFail inner.messageQueue 0 0
      (inner.completeTurn screen failed) := by
  unfold completeTurn
  split
  · constructor <;>
      simp [Pty.run, Accounting.ofActs, Accounting.Balanced, ShimEvent.answers, failedActs,
        Runtime.answersAccount, Runtime.deliveriesAccount, AgentLine.message?]
  · rename_i hfollowup
    have hhead := h hfollowup
    unfold HeadUnnamed at hhead
    dsimp only
    cases hqueue : inner.messageQueue with
    | nil =>
      have hkeeps : Keeps (Pty.run agentType) id MayFail [] 0 0
          (({ inner with
              testFailureIterations := 0, pendingMessageId := none, messageQueue := []
              state := .idle } : ShimInner),
            (inner.buildTransitionEvents .working .idle).map .send ++ []) :=
        Keeps.sends answers_buildTransitionEvents (keeps_quiet (.inl rfl) rfl)
      rwa [List.append_nil] at hkeeps
    | cons message queue =>
      rw [hqueue] at hhead
      have hmessage : message.messageId = none := hhead message (by simp)
      refine Keeps.sends answers_buildTransitionEvents (keeps_handedOver hmessage ?_ ?_)
      · intro event hmem
        rcases List.mem_cons.mp hmem with rfl | hmem
        · rfl
        · exact hfailed event hmem
      · simp [Pty.run, hmessage]

theorem verdict_of_newState {verdict : ScreenVerdict} {dwelt : Bool}
    (h : inner.newState verdict dwelt = some .contextExhausted) : verdict = .contextExhausted := by
  unfold newState at h
  split at h <;> simp_all

theorem keeps_output {screen : Screen} {dwelt : Bool}
    (h : inner.SparesAnswers (.output screen dwelt)) :
    Keeps (Pty.run agentType) id MayFail inner.messageQueue 0 0 (inner.output screen dwelt) := by
  unfold output
  split
  · exact keeps_quiet (.inl rfl) rfl
  · rename_i happroaching
    obtain ⟨hhead, hdropped⟩ := h (by simpa [or_iff_not_imp_left] using happroaching)
    split
    · exact keeps_quiet (.inl rfl) rfl
    · rename_i new hnew
      split
      · rename_i hturn
        simp only [Bool.and_eq_true, decide_eq_true_eq] at hturn
        exact keeps_completeTurn (by simp [ShimEvent.answers]) (hhead hturn.1 (hturn.2 ▸ hnew))
      · dsimp only
        refine Keeps.sends answers_buildTransitionEvents ?_
        by_cases hexhausted : new = .contextExhausted
        · have hunnamed := hdropped (verdict_of_newState (hexhausted ▸ hnew))
          simp only [hexhausted, if_true]
          have hkeeps : Keeps (Pty.run agentType) id MayFail inner.messageQueue 0 0
              (({ inner with
                  state := .contextExhausted, pendingMessageId := none
                  messageQueue := [] } : ShimInner),
                (drainQueueErrors inner.messageQueue .contextExhausted).map .send ++ []) :=
            keeps_events (.inl rfl) (answers_drainQueueErrors _ _) (deliveries_drainQueueErrors _ _)
              (by rw [sum_carries_unnamed hunnamed]; rfl)
          rwa [List.append_nil] at hkeeps
        · simp only [hexhausted, if_false]
          exact keeps_quiet (.inl rfl) rfl

theorem keeps_receive {kind : PtyKind} {input : PtyInput} (hkind : input.kind = kind)
    (h : inner.SparesAnswers input) :
    Keeps (Pty.run agentType) id MayFail inner.messageQueue
      ((input.message?.map fun message => carries id message.messageId).getD 0) 0
      (receive kind input inner) := by
  subst hkind
  cases input with
  | startup timedOut =>
    simp only [receive, PtyInput.kind, startup]
    split
    · exact keeps_quiet (.inr rfl) rfl
    · have hkeeps : Keeps (Pty.run agentType) id MayFail inner.messageQueue 0 0
          (({ inner with isReady := true } : ShimInner), [ShimEvent.ready].map .send ++ []) :=
        keeps_events (.inl rfl) rfl (by simp) (by simp [Pty.run])
      exact hkeeps
    · split
      · have hkeeps : Keeps (Pty.run agentType) id MayFail inner.messageQueue 0 0
            (inner, [ShimEvent.error "startup" "agent did not show prompt"].map .send ++ [.stop]) :=
          keeps_events (.inr rfl) rfl (by simp) (by simp [Pty.run])
        exact hkeeps
      · exact keeps_quiet (.inl rfl) rfl
  | sendMessage message contents => exact keeps_sendMessage h
  | hangUp => exact keeps_quiet (.inr rfl) rfl
  | output screen dwelt => exact keeps_output h
  | ptyEnd => exact keeps_dropped (.inr rfl) rfl h rfl
  | settled screen =>
    simp only [receive, PtyInput.kind, settled]
    split
    · rename_i hturn
      simp only [Bool.and_eq_true, decide_eq_true_eq] at hturn
      exact keeps_completeTurn (by simp) (h hturn.1.1 hturn.1.2 hturn.2)
    · exact keeps_quiet (.inl rfl) rfl
  | polled screen =>
    simp only [receive, PtyInput.kind, polled]
    split
    · have hkeeps : Keeps (Pty.run agentType) id MayFail inner.messageQueue 0 0
          (({ inner with state := .idle } : ShimInner),
            [ShimEvent.stateChanged .working .idle].map .send ++ []) :=
        keeps_events (.inl rfl) rfl (by simp) (by simp [Pty.run])
      exact hkeeps
    · exact keeps_quiet (.inl rfl) rfl

theorem keeps_injected {messageId : Option String} :
    Keeps (Pty.run agentType) id MayFail inner.messageQueue 0 (carries id messageId)
      (inner.injected messageId) := by
  refine ⟨?_, ?_, (balanced_sends _ _).mpr trivial, (balanced_sends _ _).mpr trivial⟩
  · simp [injected, Pty.run, Accounting.ofActs, ShimEvent.answers]
  · simp [injected, Pty.run, Accounting.ofActs]

end ShimInner

/-! ### Runs -/

/-- What an input may find in the runtime of this name. -/
def RuntimeName.SparesAnswers : ∀ name : RuntimeName,
    name.runtime.State → name.runtime.Input → Prop
  | .pty _ => ShimInner.SparesAnswers
  | .sdk => SdkState.SparesAnswers
  | .codex => CodexState.SparesAnswers
  | .kiro => KiroState.SparesAnswers

def RuntimeName.MayFail : RuntimeName → AgentLine → Prop
  | .codex => CodexState.MayFail
  | .pty _ | .sdk | .kiro => fun _ => True

def RuntimeName.SparesTurn (name : RuntimeName) :
    name.runtime.Shim → Turn name.runtime.Input → Prop :=
  Accounting.Allows name.runtime.machine (fun _ input state => name.SparesAnswers state input)
    name.MayFail

theorem RuntimeName.settles (name : RuntimeName) (id : String) :
    (name.runtime.answersAccount id).Settles name.runtime.machine
        (fun _ input state => name.SparesAnswers state input) name.MayFail ∧
      (name.runtime.deliveriesAccount id).Settles name.runtime.machine
        (fun _ input state => name.SparesAnswers state input) name.MayFail := by
  cases name with
  | pty agentType =>
    refine settles_of_keeps (fun haccepts hspares => ?_) fun point state => ?_
    · exact ShimInner.keeps_receive (PtyInput.kind_of_accepts haccepts) hspares
    · cases point with
      | injected messageId => exact ShimInner.keeps_injected
  | sdk =>
    refine settles_of_keeps (fun haccepts hspares => ?_) fun point state => ?_
    · exact SdkState.keeps_receive (SdkInput.kind_of_accepts haccepts) hspares
    · cases point with
      | keepaliveFailed => exact keeps_quiet (.inl rfl) rfl
  | codex =>
    refine settles_of_keeps (fun haccepts hspares => ?_) fun point state => ?_
    · exact CodexState.keeps_receive (CodexInput.kind_of_accepts haccepts) hspares
    · cases point with
      | spawnFailed => exact CodexState.keeps_spawnFailed
  | kiro =>
    refine settles_of_keeps (fun haccepts hspares => ?_) fun point state => ?_
    · exact KiroState.keeps_receive (KiroInput.kind_of_accepts haccepts) hspares
    · cases point with
      | promptSent requestId => exact KiroState.keeps_promptSent

/-- At the start all threads wait. -/
theorem RuntimeName.waits_start (name : RuntimeName) :
    ∀ thread ∈ name.runtime.start.threads, thread.acts = some [] := by
  have hcons : ∀ {Kind Point : Type} {kind : Kind} {threads : List (Thread Kind Point AgentLine
      (ShimEvent String))}, (∀ thread ∈ threads, thread.acts = some []) →
      ∀ thread ∈ ⟨kind, some []⟩ :: threads, thread.acts = some [] := fun hthreads =>
    List.forall_mem_cons.mpr ⟨rfl, hthreads⟩
  cases name with
  | pty agentType => exact hcons (hcons (hcons (hcons (List.forall_mem_nil _))))
  | sdk => exact hcons (hcons (List.forall_mem_nil _))
  | codex => exact hcons (List.forall_mem_nil _)
  | kiro => exact hcons (hcons (List.forall_mem_nil _))

theorem RuntimeName.settled_start (name : RuntimeName) (id : String) :
    (name.runtime.answersAccount id).Settled name.MayFail name.runtime.start ∧
      (name.runtime.deliveriesAccount id).Settled name.MayFail name.runtime.start := by
  have hbalanced : ∀ account : Accounting name.runtime.State name.runtime.Input
      name.runtime.Point AgentLine (ShimEvent String), ∀ thread ∈ name.runtime.start.threads,
      ∀ acts ∈ thread.acts, account.Balanced name.MayFail acts := by
    intro account thread hmem acts hacts
    rw [name.waits_start thread hmem] at hacts
    exact Option.some.inj hacts ▸ trivial
  cases name <;> exact ⟨⟨rfl, hbalanced _⟩, ⟨rfl, hbalanced _⟩⟩

/-- **Delivery accounting.** -/
theorem accountsFor_of_sparesAnswers (name : RuntimeName) {turns : List (Turn name.runtime.Input)}
    (h : World.Allowed name.runtime.machine name.SparesTurn name.runtime.start turns) :
    ∀ shim ∈ name.runtime.through turns, ∀ id, Runtime.AccountsFor shim id := by
  intro shim hmem id
  obtain ⟨hanswers, hdeliveries⟩ := name.settles id
  have hsettled := World.through_of_steps
    (fun world turn (hsettled : (name.runtime.answersAccount id).Settled name.MayFail world ∧
        (name.runtime.deliveriesAccount id).Settled name.MayFail world) hallows =>
      ⟨hanswers.step hsettled.1 hallows, hdeliveries.step hsettled.2 hallows⟩)
    (name.settled_start id) h shim hmem
  exact accountsFor_of_settled hsettled.1 hsettled.2

def taskMessage : QueuedMessage := { sender := "manager", body := "task 1", messageId := some "m1" }

/-- One message, written and answered. -/
def deliveredTurns : List (Turn SdkInput) :=
  [.receive 0 (.sendMessage taskMessage), .go 0 true, .go 0 true, .go 0 true]

def nextMessage : QueuedMessage := { sender := "manager", body := "task 2", messageId := some "m2" }

/-- Two messages more wait for the end of the turn, and the first, which has no id, is handed over. -/
def queuedTurns : List (Turn SdkInput) :=
  deliveredTurns ++ [.receive 0 (.sendMessage { nextMessage with messageId := none }), .go 0 true,
    .receive 0 (.sendMessage nextMessage), .go 0 true, .receive 1 (.result (some "done") none none),
    .go 1 true, .go 1 true, .go 1 true, .go 1 true]

/-- Messages that are delivered, and one that is queued in between. -/
theorem accountsFor_of_sparesAnswers_delivered :
    (runSdk.through queuedTurns).length = 14 ∧
      ∀ shim ∈ runSdk.through queuedTurns, ∀ id, Runtime.AccountsFor shim id := by
  refine ⟨rfl, accountsFor_of_sparesAnswers .sdk ?_⟩
  have hgoes : ∀ i world, RuntimeName.sdk.SparesTurn world (.go i true) :=
    fun _ _ _ _ _ _ _ h => nomatch h
  exact ⟨fun _ _ _ => trivial, hgoes 0 _, hgoes 0 _, hgoes 0 _,
    fun _ _ _ hfull => absurd hfull (by decide), hgoes 0 _,
    fun _ _ _ hfull => absurd hfull (by decide), hgoes 0 _,
    fun _ _ _ _ _ => List.forall_mem_singleton.mpr rfl,
    hgoes 1 _, hgoes 1 _, hgoes 1 _, hgoes 1 _, trivial⟩

/-- A second message waits for the end of the turn and is then handed over. -/
def handedOverTurns : List (Turn SdkInput) :=
  deliveredTurns ++
    [.receive 0 (.sendMessage nextMessage), .go 0 true, .receive 1 (.result (some "done") none none),
      .go 1 true, .go 1 true, .go 1 true, .go 1 true]

/-- The message that is handed over leaves the queue without an answer. -/
theorem not_accountsFor_handedOver :
    ¬ ∀ (name : RuntimeName) (turns : List (Turn name.runtime.Input)),
      ∀ shim ∈ name.runtime.through turns, ∀ id, Runtime.AccountsFor shim id := by
  intro h
  have hlost : ∃ shim ∈ runSdk.through handedOverTurns, Runtime.AtRest shim ∧
      Runtime.answered shim "m2" + Runtime.waiting shim "m2" ≠ Runtime.asked shim "m2" := by
    decide +kernel
  obtain ⟨shim, hmem, hrest, hne⟩ := hlost
  exact hne ((h .sdk handedOverTurns shim hmem "m2").atRest hrest)

end Batty
