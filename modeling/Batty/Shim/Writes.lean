import Batty.Foundation.Failures
import Batty.Shim.Answers

/-!
# Writes to an agent that fail

A runtime opens a turn before it writes the message of the turn, and lets go of the lock in
between. If the write fails while the agent lives on, the turn has to be taken back.

* `RollsBack`: a section one of whose writes fails leaves the shim idle, with no message pending,
  and as it was if it was idle before.
* `rollsBack_iff`: which runtimes take a turn back, and for which of their writes.
-/

namespace Batty

namespace RuntimeName

def pendingMessageId : (name : RuntimeName) → name.runtime.State → Option String
  | .pty _ => ShimInner.pendingMessageId
  | .sdk => SdkState.pendingMessageId
  | .codex => CodexState.pendingMessageId
  | .kiro => KiroState.pendingMessageId

/-- The writes of a section, and what the shim is in after the section if one of them fails. -/
def failures (name : RuntimeName) (kind : name.runtime.Kind) (input : name.runtime.Input)
    (st : name.runtime.State) : List (AgentLine × name.runtime.State) :=
  name.runtime.machine.failures (name.runtime.machine.receive kind input st).1
    (name.runtime.machine.receive kind input st).2

/-- **A failed write is taken back**: the shim is idle and owes no message, and one that was idle is
as before. -/
structure RollsBack (name : RuntimeName) (st after : name.runtime.State) : Prop where
  idle : name.runtime.state after = .idle
  none : name.pendingMessageId after = none
  before : name.runtime.state st = .idle → name.pendingMessageId after = name.pendingMessageId st

/-- The writes that are taken back: the keepalives of the Claude runtime, the spawns of the Codex
runtime but not its prompts, and in a terminal the messages for which nothing is noted. -/
def TakesBack : (name : RuntimeName) → AgentLine → name.runtime.Input → name.runtime.State → Prop
  | .pty _, _, input, (inner : ShimInner) => inner.pendingMessageId = Option.none ∧
      ∃ message contents, input = PtyInput.sendMessage message contents ∧
        message.messageId = Option.none
  | .sdk, _, input, _ => ∃ due, input = SdkInput.commandTimeout due
  | .codex, line, _, (st : CodexState) => (∃ message, line = .process message) ∧
      (st.state = .idle → st.pendingMessageId = Option.none)
  | .kiro, _, _, _ => False

end RuntimeName

/-! ### The Claude runtime -/

namespace SdkState

variable {kind : SdkKind} {input : SdkInput} {st : SdkState}

theorem failsTo_sendMessage (message : QueuedMessage) :
    machine.FailsTo (fun _ after => after.state = .working) (st.sendMessage message) := by
  unfold sendMessage
  split
  · exact failsTo_written rfl rfl
  · exact failsTo_sends _
  · exact failsTo_of_quiet rfl

theorem failsTo_completeTurn {old : ShimState} {messageId : Option String} :
    machine.FailsTo (fun _ after => after.state = .working)
      (st.completeTurn.1, announceCompletion old messageId st.completeTurn.2) := by
  unfold completeTurn announceCompletion
  split
  · exact failsTo_of_quiet rfl
  · exact List.forall_mem_singleton.mpr rfl

theorem failsTo_result (result : Option String) (errors : Option (List String))
    (sessionId : Option String) :
    machine.FailsTo (fun _ after => after.state = .working) (st.result result errors sessionId) := by
  unfold SdkState.result
  split
  · exact failsTo_of_quiet rfl
  · dsimp only
    split
    · exact failsTo_of_quiet (by simp [exhaustContext])
    · split
      · exact List.forall_mem_singleton.mpr rfl
      · exact failsTo_completeTurn

/-- Only a keepalive is taken back: after any other write the turn stays open. -/
theorem failsTo_receive (kind : SdkKind) (hinput : ∀ due, input ≠ .commandTimeout due) :
    machine.FailsTo (fun _ after => after.state = .working) (receive kind input st) := by
  unfold receive
  split
  · exact failsTo_sendMessage _
  · exact absurd rfl (hinput _)
  · exact failsTo_of_quiet rfl
  · refine failsTo_of_quiet ?_
    unfold assistant streamEvent
    split <;> [rfl; (split <;> rfl)]
  · refine failsTo_of_quiet ?_
    unfold streamEvent
    split <;> rfl
  · exact failsTo_result _ _ _
  · unfold forceStalledCompletion
    split
    · exact failsTo_completeTurn
    · exact failsTo_of_quiet rfl
  · exact failsTo_of_quiet (by simp [stdoutEnd])
  · exact failsTo_of_quiet rfl

/-- A keepalive is sent while idle with nothing pending, and its failure restores that. -/
theorem failsTo_maybeSendKeepalive (due : Bool) :
    machine.FailsTo (fun _ after => after.state = .idle ∧ after.pendingMessageId = none ∧
      st.pendingMessageId = none) (st.maybeSendKeepalive due) := by
  unfold maybeSendKeepalive
  split
  · rename_i hdue
    simp only [Bool.and_eq_true, decide_eq_true_eq, Option.isNone_iff_eq_none] at hdue
    exact List.forall_mem_singleton.mpr ⟨rfl, hdue.2, hdue.2⟩
  · exact failsTo_of_quiet rfl

end SdkState

theorem rollsBack_sdk_iff {kind : SdkKind} {input : SdkInput} {st after : SdkState}
    {line : AgentLine} (h : (line, after) ∈ RuntimeName.failures .sdk kind input st) :
    RuntimeName.RollsBack .sdk st after ↔ RuntimeName.TakesBack .sdk line input st := by
  constructor
  · intro hrolls
    by_contra hinput
    have hworking : after.state = .working :=
      SdkState.failsTo_receive kind (fun due hdue => hinput ⟨due, hdue⟩) _ h
    have hidle : after.state = .idle := hrolls.idle
    rw [hworking] at hidle
    cases hidle
  · rintro ⟨due, rfl⟩
    cases kind with
    | command =>
      obtain ⟨hidle, hnone, hbefore⟩ := st.failsTo_maybeSendKeepalive due _ h
      exact ⟨hidle, hnone, fun _ => hnone.trans hbefore.symm⟩
    | reader => cases h

/-! ### The Kiro runtime -/

namespace KiroState

variable {input : KiroInput} {st : KiroState}

theorem failsTo_completePrompt :
    machine.FailsTo (fun _ after => after.state = .working) st.completePrompt := by
  unfold completePrompt
  dsimp only
  split
  · exact failsTo_of_quiet rfl
  · exact List.forall_mem_singleton.mpr rfl

/-- Nothing is taken back. -/
theorem failsTo_receive (kind : KiroKind) :
    machine.FailsTo (fun _ after => after.state = .working) (receive kind input st) := by
  unfold receive
  split
  · unfold sendMessage
    split
    · exact failsTo_written rfl rfl
    · exact failsTo_sends _
    · exact failsTo_of_quiet rfl
  · exact failsTo_of_quiet rfl
  · refine failsTo_of_quiet ?_
    unfold errorResponse exhaustContext
    split
    · dsimp only
      split <;> simp
    · rfl
  · unfold resultResponse
    split
    · exact failsTo_of_quiet rfl
    · split
      · split <;> exact failsTo_of_quiet rfl
      · split
        · exact failsTo_completePrompt
        · exact failsTo_of_quiet rfl
  · refine failsTo_of_quiet ?_
    unfold metadata exhaustContext
    split <;> simp
  · exact failsTo_of_quiet (by simp [stdoutEnd])
  · exact failsTo_of_quiet rfl

end KiroState

theorem rollsBack_kiro_iff {kind : KiroKind} {input : KiroInput} {st after : KiroState}
    {line : AgentLine} (h : (line, after) ∈ RuntimeName.failures .kiro kind input st) :
    RuntimeName.RollsBack .kiro st after ↔ RuntimeName.TakesBack .kiro line input st := by
  refine iff_of_false (fun hrolls => ?_) id
  have hworking : after.state = .working := KiroState.failsTo_receive kind _ h
  have hidle : after.state = .idle := hrolls.idle
  rw [hworking] at hidle
  cases hidle

/-! ### The Codex runtime -/

namespace CodexState

variable {input : CodexInput} {st : CodexState}

/-- A process that is not spawned leaves the shim at rest, and a prompt that is not written leaves
it at work. -/
inductive FailsOn : AgentLine → CodexState → Prop where
  | spawn (message : QueuedMessage) {after : CodexState} : after.state = .idle →
    after.pendingMessageId = none → FailsOn (.process message) after
  | prompt (message : QueuedMessage) {after : CodexState} : after.state = .working →
    FailsOn (.message message) after

theorem failsTo_deliver (message : QueuedMessage) : machine.FailsTo FailsOn (st.deliver message) := by
  unfold deliver
  split
  · rw [Machine.FailsTo, List.append_assoc, List.singleton_append, Machine.failures,
      Machine.failures_sends]
    exact List.forall_mem_cons.mpr ⟨.spawn message rfl rfl,
      List.forall_mem_singleton.mpr (.prompt message rfl)⟩
  · exact failsTo_sends _
  · exact failsTo_of_quiet rfl

theorem failsTo_receive (kind : CodexKind) :
    machine.FailsTo FailsOn (receive kind input st) := by
  unfold receive
  split
  · unfold sendMessage
    split
    · split
      · exact failsTo_of_quiet rfl
      · exact failsTo_deliver _
    · exact failsTo_deliver _
  · exact failsTo_of_quiet rfl
  · exact failsTo_of_quiet rfl
  · refine failsTo_of_quiet ?_
    unfold turnFailed park exhaustContext
    dsimp only
    split <;> [simp; (split <;> [simp; (split <;> simp)])]
  · refine failsTo_of_quiet ?_
    unfold error park
    dsimp only
    split <;> [simp; (split <;> simp)]
  · unfold stdoutEnd
    dsimp only
    split
    · exact failsTo_of_quiet rfl
    · exact List.forall_mem_cons.mpr ⟨.spawn _ rfl rfl,
        List.forall_mem_singleton.mpr (.prompt _ rfl)⟩
  · exact failsTo_of_quiet rfl

end CodexState

theorem rollsBack_codex_iff {kind : CodexKind} {input : CodexInput} {st after : CodexState}
    {line : AgentLine} (h : (line, after) ∈ RuntimeName.failures .codex kind input st) :
    RuntimeName.RollsBack .codex st after ↔ RuntimeName.TakesBack .codex line input st := by
  have hfails : CodexState.FailsOn line after := CodexState.failsTo_receive kind _ h
  constructor
  · intro hrolls
    cases hfails with
    | spawn message _ hnone =>
      exact ⟨⟨message, rfl⟩, fun hstate => (hrolls.before hstate).symm.trans hnone⟩
    | prompt message hworking => exact nomatch hworking.symm.trans hrolls.idle
  · rintro ⟨⟨message, rfl⟩, hbefore⟩
    cases hfails with
    | spawn message hidle hnone =>
      exact ⟨hidle, hnone, fun hstate => hnone.trans (hbefore hstate).symm⟩

/-! ### The terminal runtime -/

namespace ShimInner

variable {input : PtyInput} {inner : ShimInner}

theorem failsTo_completeTurn (screen : Screen) (failed : List (ShimEvent String)) :
    machine.FailsTo (fun _ after => after.state = .working) (inner.completeTurn screen failed) := by
  unfold completeTurn
  split
  · exact List.forall_mem_singleton.mpr rfl
  · dsimp only
    split
    · exact failsTo_sends _
    · rw [Machine.FailsTo, Machine.failures_sends]
      exact List.forall_mem_singleton.mpr rfl

/-- A message is written only to an idle agent. -/
theorem idle_of_sendMessage (message : QueuedMessage) (contents : String) :
    machine.FailsTo (fun _ _ => inner.state = .idle) (inner.sendMessage message contents) := by
  unfold sendMessage
  split
  · rename_i hstate
    exact List.forall_mem_singleton.mpr hstate
  · exact failsTo_sends _
  · exact failsTo_of_quiet rfl

/-- Only a message to an idle agent leaves the turn closed. -/
theorem failsTo_receive (kind : PtyKind)
    (hinput : inner.state = .idle → ∀ message contents, input ≠ .sendMessage message contents) :
    machine.FailsTo (fun _ after => after.state = .working) (receive kind input inner) := by
  unfold receive
  split
  · refine failsTo_of_quiet ?_
    unfold startup
    split <;> [rfl; rfl; (split <;> rfl)]
  · unfold sendMessage
    split
    · rename_i hstate
      exact absurd rfl (hinput hstate _ _)
    · exact failsTo_sends _
    · exact failsTo_of_quiet rfl
  · exact failsTo_of_quiet rfl
  · unfold output
    split
    · exact failsTo_of_quiet rfl
    · split
      · exact failsTo_of_quiet rfl
      · split
        · exact failsTo_completeTurn _ _
        · exact failsTo_of_quiet (by simp)
  · exact failsTo_of_quiet (by simp [ptyEnd])
  · unfold settled
    split
    · exact failsTo_completeTurn _ _
    · exact failsTo_of_quiet rfl
  · refine failsTo_of_quiet ?_
    unfold polled
    split <;> rfl
  · exact failsTo_of_quiet rfl

end ShimInner

theorem rollsBack_pty_iff {agentType : AgentType} {kind : PtyKind} {input : PtyInput}
    {inner after : ShimInner} {line : AgentLine}
    (h : (line, after) ∈ RuntimeName.failures (.pty agentType) kind input inner) :
    RuntimeName.RollsBack (.pty agentType) inner after ↔
      RuntimeName.TakesBack (.pty agentType) line input inner := by
  by_cases hinput : inner.state = .idle ∧ ∃ message contents, input = .sendMessage message contents
  · obtain ⟨hstate, message, contents, rfl⟩ := hinput
    cases kind with
    | command =>
      have hafter : after = { inner with
          preInjectionContent := contents, pendingMessageId := message.messageId
          testFailureIterations := 0 } := by
        have hfails : ShimInner.machine.FailsTo (fun _ after => after = { inner with
            preInjectionContent := contents, pendingMessageId := message.messageId
            testFailureIterations := 0 }) (inner.sendMessage message contents) := by
          unfold ShimInner.sendMessage
          rw [hstate]
          exact List.forall_mem_singleton.mpr rfl
        exact hfails _ h
      subst hafter
      constructor
      · intro hrolls
        exact ⟨(hrolls.before hstate).symm.trans hrolls.none, message, contents, rfl, hrolls.none⟩
      · rintro ⟨hpending, message', contents', heq, hnone⟩
        obtain ⟨rfl, rfl⟩ := PtyInput.sendMessage.inj heq
        exact ⟨hstate, hnone, fun _ => hnone.trans hpending.symm⟩
    | reader | idle | poll => cases h
  · have hworking : after.state = .working := ShimInner.failsTo_receive kind
      (fun hstate message contents heq => hinput ⟨hstate, message, contents, heq⟩) _ h
    refine iff_of_false (fun hrolls => ?_) fun htakes => ?_
    · have hidle : after.state = .idle := hrolls.idle
      rw [hworking] at hidle
      cases hidle
    · obtain ⟨-, message, contents, rfl, -⟩ := htakes
      cases kind with
      | command => exact hinput ⟨ShimInner.idle_of_sendMessage message contents _ h, _, _, rfl⟩
      | reader | idle | poll => cases h

/-! ### All runtimes -/

/-- **Taking back a turn.** What a section does one of whose writes fails. -/
theorem rollsBack_iff (name : RuntimeName) (kind : name.runtime.Kind) (input : name.runtime.Input)
    (st : name.runtime.State) {line : AgentLine} {after : name.runtime.State}
    (h : (line, after) ∈ name.failures kind input st) :
    name.RollsBack st after ↔ name.TakesBack line input st := by
  cases name with
  | pty agentType => exact rollsBack_pty_iff h
  | sdk => exact rollsBack_sdk_iff h
  | codex => exact rollsBack_codex_iff h
  | kiro => exact rollsBack_kiro_iff h

def statusRequest (messageId : Option String) : QueuedMessage :=
  { sender := "manager", body := "status?", messageId }

/-- A shim whose terminal has just shown its prompt. -/
def prompted : ShimInner := { (Pty.run .claude).start.shared with state := .idle, isReady := true }

/-- A message without an id to an agent in a terminal, and a process that is not spawned. -/
theorem rollsBack_iff_unnamed :
    (∀ failure ∈ RuntimeName.failures (.pty .claude) PtyKind.command
      (PtyInput.sendMessage (statusRequest none) "> ") prompted,
        RuntimeName.RollsBack (.pty .claude) prompted failure.2) ∧
    ∃ failure ∈ RuntimeName.failures .codex CodexKind.command
      (CodexInput.sendMessage (statusRequest (some "m-1")) 0) runCodexSdk.start.shared,
        RuntimeName.RollsBack .codex runCodexSdk.start.shared failure.2 :=
  ⟨List.forall_mem_singleton.mpr ((rollsBack_iff (.pty .claude) PtyKind.command
      (PtyInput.sendMessage (statusRequest none) "> ") prompted List.mem_cons_self).mpr
      ⟨rfl, _, _, rfl, rfl⟩),
    _, List.mem_cons_self, (rollsBack_iff .codex CodexKind.command
      (CodexInput.sendMessage (statusRequest (some "m-1")) 0) runCodexSdk.start.shared
      List.mem_cons_self).mpr ⟨⟨_, rfl⟩, fun _ => rfl⟩⟩

/-- **A turn that nobody closes.** The write of the first message to Claude fails. -/
theorem not_rollsBack : ∃ failure ∈ RuntimeName.failures .sdk SdkKind.command
    (SdkInput.sendMessage (statusRequest (some "m-1"))) runSdk.start.shared,
      ¬ RuntimeName.RollsBack .sdk runSdk.start.shared failure.2 :=
  ⟨_, List.mem_cons_self, fun hrolls => nomatch hrolls.none⟩

end Batty
