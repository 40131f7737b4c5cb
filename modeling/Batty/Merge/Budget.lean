import Batty.Dispatch.Claims
import Batty.Merge.Completion

/-!
# The verification budget

A completion that fails its tests goes back to the engineer, and after as many of them as are
configured, of one to three, the task is blocked. The attempts are counted in the state of the
verification, which is taken out of the daemon at the start of a completion and put back at its end.

It is put back at one end only. An error on the way drops it, and so does a wrong branch, so that
the count begins again; a completion that leaves its scope, or has not acknowledged it, is rejected
without being counted, for ever (`not_budgetExact_unacknowledged`). In a run without these, and
without completions that have nothing to show, the budget is exact (`budgetExact_of_attemptsSafe`).
-/

namespace Batty

namespace CompletionDaemon

/-! ### Kinds of completions -/

/-- What there is to show, if all of it can be found out. -/
def findingsOf (completion : Completion) : Except String Findings := do
  let totalCommits ← completion.commitsAhead
  let _ ← completion.diffStat
  let filesChanged ← completion.filesChanged
  let codeFilesChanged ← completion.codeFilesChanged
  return { totalCommits, filesChanged, codeFilesChanged }

/-- The scope was left, or has not been acknowledged. -/
def outOfScope (completion : Completion) : Bool :=
  match completion.scopeFence with
  | .ok fence => fence.any ScopeFenceCheck.stops
  | .error _ => false

/-- The run that a completion is judged by. -/
def runOf (settings : CompletionSettings) (completion : Completion) :
    Except String VerificationRunResult := do
  let _ ← completion.scopeFence
  if outOfScope completion || settings.autoRunTests then completion.verification
  else return skippedRun

/-- How a completion went. -/
inductive CompletionKind where
  | unverified | error | recovery | unevidenced | failed | passed
deriving DecidableEq

/-- How a completion is judged that comes to an end. -/
def judgedKind (settings : CompletionSettings) (findings : Findings)
    (run : VerificationRunResult) : CompletionKind :=
  if run.recovery.isSome then .recovery
  else if !findings.hasRequiredEvidence settings then .unevidenced
  else if run.passed then .passed
  else .failed

/-- How a completion is judged, if nothing fails before. -/
def returnedKind (settings : CompletionSettings) (completion : Completion) : CompletionKind :=
  match findingsOf completion, runOf settings completion with
  | .ok findings, .ok run => judgedKind settings findings run
  | _, _ => .error

/-- What a completion comes to: an error on the way, or how it is judged. -/
def completionKind (settings : CompletionSettings) (completion : Completion)
    (daemon : CompletionDaemon) : CompletionKind :=
  if !settings.usesWorktrees then .unverified
  else
    match handleEngineerCompletion settings completion daemon with
    | .error _ _ => .error
    | .ok _ _ => returnedKind settings completion

/-! ### The law -/

def completed (settings : CompletionSettings) (daemon : CompletionDaemon)
    (completion : Completion) : CompletionDaemon :=
  endState (handleEngineerCompletion settings completion) daemon

/-- The task is blocked on the board. -/
def BlockedOn (board : Board) (taskId : Nat) : Prop :=
  ∃ path, board.findPath taskId = some path ∧ board.statusAt path = some "blocked"

/-- The task is escalated: it is blocked, and the engineer released from it. -/
structure Escalated (taskId : Nat) (daemon next : CompletionDaemon) : Prop where
  noted : .escalated taskId "verification_failed" ∈ daemon.notedSince next
  released : next.activeTask = none
  blocked : BlockedOn next.disk.board taskId

/-- The failure that uses the last attempt is escalated, and nothing else is. -/
def AttemptCounted (settings : CompletionSettings) (taskId used : Nat)
    (daemon next : CompletionDaemon) (kind : CompletionKind) : Prop :=
  Escalated taskId daemon next ↔
    kind = .failed ∧ used + 1 = verificationRetryBudget settings.maxIterations

/-- The attempts that have been used: the failures since a completion has passed. -/
def usedAfter (used : Nat) : CompletionKind → Nat
  | .failed => used + 1
  | .passed => 0
  | .unverified | .error | .recovery | .unevidenced => used

/-- As long as the engineer has the task, every completion counts as it should. -/
def BudgetExact (settings : CompletionSettings) (taskId : Nat) :
    Nat → CompletionDaemon → List Completion → Prop
  | _, _, [] => True
  | used, daemon, completion :: completions => daemon.activeTask = some taskId →
      AttemptCounted settings taskId used daemon (daemon.completed settings completion)
        (completionKind settings completion daemon) ∧
      BudgetExact settings taskId (usedAfter used (completionKind settings completion daemon))
        (daemon.completed settings completion) completions

/-- A failure is one of tests that were run within the scope; a wrong branch and an error come after
no failure, unless the error comes before the state of the verification is taken; and what has
nothing to show is neither counted as a failure nor the second completion without code. -/
def AttemptSafe (settings : CompletionSettings) (completion : Completion) (taskId used : Nat)
    (daemon : CompletionDaemon) : CompletionKind → Prop
  | .failed => outOfScope completion = false
  | .recovery => used = 0
  | .error => used = 0 ∨ (findingsOf completion).toOption = none
  | .unevidenced => (outOfScope completion = true ∨ settings.autoRunTests = false) ∧
      ∀ findings ∈ (findingsOf completion).toOption,
        findings.isNarrationOnly settings = true → daemon.narrationRejections taskId = 0
  | .unverified | .passed => True

instance (settings : CompletionSettings) (completion : Completion) (taskId used : Nat)
    (daemon : CompletionDaemon) (kind : CompletionKind) :
    Decidable (AttemptSafe settings completion taskId used daemon kind) := by
  cases kind <;> unfold AttemptSafe <;> infer_instance

def AttemptsSafe (settings : CompletionSettings) (taskId : Nat) :
    Nat → CompletionDaemon → List Completion → Prop
  | _, _, [] => True
  | used, daemon, completion :: completions => daemon.activeTask = some taskId →
      AttemptSafe settings completion taskId used daemon
        (completionKind settings completion daemon) ∧
      AttemptsSafe settings taskId (usedAfter used (completionKind settings completion daemon))
        (daemon.completed settings completion) completions

/-! ### Where a completion is rejected -/

theorem editsTasks_updateBlock (fields : List (String × String)) :
    EditsTasks (updateBlockMutator fields) := by
  refine editsTasks_of_block (fun mapping key hkey => ?_) fun {mapping} hblock => ?_
  · have hclear : clearBlocked mapping key = mapping key := clearBlocked_apply mapping hkey
    unfold updateBlockMutator
    split <;> split <;> simp [setBlockedReason_apply _ _ _ hkey, hclear]
  · unfold updateBlockMutator
    have hstart : (if (fields.lookup "clear_blocked").isSome then clearBlocked mapping
        else mapping).BlockDecodes := by
      split
      · exact blockDecodes_clearBlocked _
      · exact hblock
    dsimp only
    generalize (if (fields.lookup "clear_blocked").isSome then clearBlocked mapping
      else mapping) = start at hstart ⊢
    split
    · exact blockDecodes_setBlockedReason _ _ _
    · exact hstart

/-! ### What a completion comes to -/

/-- The attempts on record. -/
def attempts (daemon : CompletionDaemon) : Nat :=
  (daemon.verification.map VerificationState.iteration).getD 0

/-- The attempts on record after tests that were run, or were not. -/
def attempted (settings : CompletionSettings) (completion : Completion)
    (daemon : CompletionDaemon) : Nat :=
  if outOfScope completion || !settings.autoRunTests then daemon.attempts
  else min (daemon.attempts + 1) (2 ^ 32 - 1)

/-- The count of completions without code, this one included. -/
def narrations (settings : CompletionSettings) (taskId : Nat) (findings : Findings)
    (daemon : CompletionDaemon) : Nat :=
  if findings.isNarrationOnly settings then daemon.narrationRejections taskId + 1 else 0

/-- A completion of this kind is too many. -/
def Exhausts (settings : CompletionSettings) (completion : Completion) (taskId : Nat)
    (daemon : CompletionDaemon) : CompletionKind → Prop
  | .failed => verificationRetryBudget settings.maxIterations ≤ daemon.attempted settings completion
  | .unevidenced => ∃ findings, findingsOf completion = .ok findings ∧
      findings.isNarrationOnly settings = true ∧ 2 ≤ daemon.narrationRejections taskId + 1
  | .unverified | .error | .recovery | .passed => False

/-- What can become of a completion. -/
inductive Settles (settings : CompletionSettings) (completion : Completion) (taskId : Nat)
    (daemon next : CompletionDaemon) : CompletionKind → Prop
  | unverified (hnext : next = daemon) : Settles settings completion taskId daemon next .unverified
  | uninspected (error : String) (hfindings : findingsOf completion = .error error)
      (hnext : next = daemon) : Settles settings completion taskId daemon next .error
  | ended (kind : CompletionKind) (hkind : kind = .recovery ∨ kind = .error ∨ kind = .passed)
      (hfound : ∃ findings, findingsOf completion = .ok findings)
      (hnot : ¬ Escalated taskId daemon next) (hverification : next.verification = none) :
      Settles settings completion taskId daemon next kind
  | escalated (kind : CompletionKind)
      (hexhausts : Exhausts settings completion taskId daemon kind)
      (hescalated : Escalated taskId daemon next) :
      Settles settings completion taskId daemon next kind
  | kept (kind : CompletionKind) (hkind : kind = .failed ∨ kind = .unevidenced)
      (hexhausts : ¬ Exhausts settings completion taskId daemon kind)
      (hactive : next.activeTask = daemon.activeTask)
      (hattempts : next.attempts = daemon.attempted settings completion) :
      Settles settings completion taskId daemon next kind

section

variable {settings : CompletionSettings} {completion : Completion} {taskId : Nat}
  {daemon : CompletionDaemon}

theorem not_escalated_of_active {next : CompletionDaemon}
    (hactive : daemon.activeTask = some taskId) (h : next.activeTask = daemon.activeTask) :
    ¬ Escalated taskId daemon next := by
  intro hescalated
  have hreleased := hescalated.released
  rw [h, hactive] at hreleased
  cases hreleased

theorem inspectWorktree_eq : inspectWorktree completion = orFail (findingsOf completion) := by
  unfold inspectWorktree findingsOf
  cases completion.commitsAhead <;> cases completion.diffStat <;>
    cases completion.filesChanged <;> cases completion.codeFilesChanged <;> rfl

theorem after_onBoard {α : Type} {step : BoardStep} {command : DiskAction α} {P : Disk → Prop}
    (h : After command { daemon.disk with faults := completion.faults step, accesses := 0 }
      (fun _ disk => P disk) (fun _ _ => True)) :
    After (onBoard completion step command) daemon (fun _ next => P next.disk)
      (fun _ _ => True) := by
  unfold After onBoard at *
  cases hrun : command { daemon.disk with faults := completion.faults step, accesses := 0 } with
  | ok a disk => simpa only [hrun] using h
  | error error disk => trivial

/-- A transition that returns puts the status on the board. -/
theorem after_transitionTask_blocked (disk : Disk) :
    After (transitionTask taskId "blocked") disk
      (fun _ disk' => BlockedOn disk'.board taskId) (fun _ _ => True) := by
  refine (after_transitionWith transitionMutator taskId (parseTaskState_stateName .blocked)).mono
    ?_ fun _ _ _ => trivial
  rintro _ disk' ⟨-, path, hpath, hleads⟩
  obtain ⟨task, htask, -⟩ := Board.exists_taskAt hpath
  obtain ⟨file, hfind, -⟩ := Option.bind_eq_some_iff.mp htask
  refine ⟨path, ?_, ?_⟩
  · rw [hleads.board, findPath_update htask (EditsTasks.keepsIds (editsTasks_transition _)), hpath]
  · rw [hleads.board, Board.statusAt, Board.find?_update, hfind, Option.map_some, if_pos rfl]
    exact TaskFile.status_update_of_sets _ (setsStatus_transition .blocked)

/-- Another edit of the task leaves it blocked. -/
theorem BlockedOn.update {board : Board} {path : String} {mutator : Mapping → Mapping}
    (h : BlockedOn board taskId) (hpath : board.findPath taskId = some path)
    (hedits : EditsTasks mutator) (hkeeps : KeepsStatus mutator) :
    BlockedOn (board.update path mutator) taskId := by
  obtain ⟨path', hpath', hstatus⟩ := h
  obtain ⟨task, htask, -⟩ := Board.exists_taskAt hpath
  refine ⟨path', ?_, ?_⟩
  · rw [findPath_update htask hedits.keepsIds, hpath']
  · rw [Board.statusAt_update_of_keeps hkeeps, hstatus]

theorem after_readWorkflowMetadata (path : String) (disk : Disk) :
    After (readWorkflowMetadata path) disk (fun _ disk' => disk'.board = disk.board)
      (fun _ disk' => disk'.board = disk.board) := by
  simp only [readWorkflowMetadata, after_bind, after_get]
  refine (after_access _ disk).mono (fun _ disk' h => ?_) fun _ _ h => h.board
  split <;> exact h.board

/-- The reason for the block leaves the task blocked. -/
theorem after_cmdUpdate_blockedOn (reason : String) {disk : Disk}
    (h : BlockedOn disk.board taskId) :
    After (cmdUpdate taskId [("blocked_on", reason)]) disk
      (fun _ disk' => BlockedOn disk'.board taskId) (fun _ _ => True) := by
  have hupdate : ∀ path metadata, updateMetadata path [("blocked_on", reason)] metadata = pure () :=
    fun path metadata => rfl
  simp only [cmdUpdate, List.isEmpty_cons, Bool.false_eq_true, if_false, after_bind,
    after_orFail_ok, hupdate, after_pure]
  refine (after_findTaskPath taskId).mono ?_ fun _ _ _ => trivial
  rintro path disk₁ ⟨h₁, hpath⟩
  refine (after_readWorkflowMetadata path disk₁).mono (fun _ disk₂ h₂ => ?_) fun _ _ _ => trivial
  have hboard : disk₂.board = disk.board := h₂.trans h₁.board
  refine (after_updateTaskFrontmatter path _).mono (fun _ disk₃ h₃ => ?_) fun _ _ _ => trivial
  rw [h₃.board, hboard]
  exact h.update hpath (editsTasks_updateBlock _) (keepsStatus_updateBlock _)

/-- An escalation that comes to its end is one. -/
theorem after_escalateVerification (reason : String) :
    After (escalateVerification settings completion taskId reason) daemon
      (fun _ next => next.notes = daemon.notes ++ [.escalated taskId "verification_failed"] ∧
        next.activeTask = none ∧ BlockedOn next.disk.board taskId)
      (fun _ next => next.activeTask = daemon.activeTask ∧
        next.verification = daemon.verification) := by
  simp only [escalateVerification, note, after_bind, after_modify]
  refine (moves_messageManager (R := Still) daemon).mono (fun _ told htold => ?_)
    fun _ _ h => ⟨h.activeTask, h.verification⟩
  refine ((still_onBoard _ _ _).and (after_onBoard (after_transitionTask_blocked _))).mono ?_
    fun _ _ h => ⟨h.1.activeTask.trans htold.activeTask,
      h.1.verification.trans htold.verification⟩
  rintro _ blocked ⟨hstill, hblocked⟩
  refine ((still_onBoard _ _ _).and (after_onBoard (after_cmdUpdate_blockedOn reason ?_))).mono ?_
    fun _ _ h => ⟨h.1.activeTask.trans (hstill.activeTask.trans htold.activeTask),
      h.1.verification.trans (hstill.verification.trans htold.verification)⟩
  · exact hblocked
  · rintro _ written ⟨hstill', hblocked'⟩
    simp only [clearActiveTask, forgetNarration, after_modify]
    refine ⟨?_, trivial, hblocked'⟩
    rw [hstill'.notes, hstill.notes, ← htold.notes]

theorem after_countNarration (findings : Findings) :
    After (countNarration settings taskId findings) daemon
      (fun narrationCount _ => narrationCount = narrations settings taskId findings daemon)
      (fun _ _ => False) := by
  unfold countNarration narrations
  split
  · simp only [after_bind, after_modify, after_get, after_pure, Function.update_self]
  · rfl

/-- What is rejected is escalated, or kept for the next completion. -/
theorem after_rejectCompletion (findings : Findings) (run : VerificationRunResult)
    (state : VerificationState) :
    After (rejectCompletion settings completion taskId findings run state) daemon
      (fun _ next =>
        if shouldEscalate settings findings (narrations settings taskId findings daemon) state then
          Escalated taskId daemon next
        else next.activeTask = daemon.activeTask ∧ next.attempts = state.iteration)
      (fun _ next => next.activeTask = daemon.activeTask ∧
        next.verification = daemon.verification) := by
  simp only [rejectCompletion, after_bind]
  refine (moves_orFail (R := Eq) _ daemon).mono ?_ fun _ _ h => by rw [← h]; exact ⟨rfl, rfl⟩
  rintro _ _ rfl
  refine ((still_countNarration findings daemon).and (after_countNarration findings)).mono ?_
    fun _ _ h => h.2.elim
  rintro _ counted ⟨hcounted, rfl⟩
  generalize narrations settings taskId findings daemon = narrationCount
  by_cases hescalate : shouldEscalate settings findings narrationCount state = true
  · simp only [if_pos hescalate, after_bind]
    refine (still_returnToEngineer _ _ counted).mono (fun _ back hback => ?_) fun _ _ h =>
      ⟨h.activeTask.trans hcounted.activeTask, h.verification.trans hcounted.verification⟩
    have hstill := trans_of Still hcounted hback
    refine (after_escalateVerification _).mono ?_ fun _ _ h =>
      ⟨h.1.trans hstill.activeTask, h.2.trans hstill.verification⟩
    rintro _ next ⟨hnotes, hreleased, hblocked⟩
    refine ⟨?_, hreleased, hblocked⟩
    rw [notedSince, hnotes, hstill.notes, List.drop_left]
    exact List.mem_singleton_self _
  · simp only [if_neg hescalate, after_bind]
    refine (still_returnToEngineer _ _ counted).mono (fun _ back hback => ?_) fun _ _ h =>
      ⟨h.activeTask.trans hcounted.activeTask, h.verification.trans hcounted.verification⟩
    have hstill := trans_of Still hcounted hback
    simp only [keepVerification, note, after_bind, after_modify]
    exact ⟨hstill.activeTask, rfl⟩

/-- The tests are run, and that is an attempt or not. -/
theorem after_verifyCompletion {fence : Option ScopeFenceCheck}
    (hfence : completion.scopeFence = .ok fence) (state : VerificationState) :
    After (verifyCompletion settings completion fence state) daemon
      (fun verified next => next = daemon ∧ runOf settings completion = .ok verified.1 ∧
        verified.2.maxIterations = state.maxIterations ∧
        verified.2.iteration = if outOfScope completion || !settings.autoRunTests then
          state.iteration else min (state.iteration + 1) (2 ^ 32 - 1))
      (fun _ next => next = daemon) := by
  have hout : outOfScope completion = fence.any ScopeFenceCheck.stops := by
    simp only [outOfScope, hfence]
  unfold verifyCompletion runOf
  rw [hfence, hout]
  cases hstops : fence.any ScopeFenceCheck.stops with
  | true =>
    cases hrun : completion.verification with
    | error error => rfl
    | ok run => exact ⟨rfl, rfl, rfl, rfl⟩
  | false =>
    cases hauto : settings.autoRunTests with
    | true =>
      cases hrun : completion.verification with
      | error error => rfl
      | ok run => exact ⟨rfl, rfl, rfl, rfl⟩
    | false => exact ⟨rfl, rfl, rfl, rfl⟩

/-- The outcome of a verification that has not failed on the way. -/
def Judges (settings : CompletionSettings) (completion : Completion) (taskId : Nat)
    (daemon : CompletionDaemon) (kind : CompletionKind) :
    Option (String × VerificationRunResult) → CompletionDaemon → Prop
  | none, next => Settles settings completion taskId daemon next kind
  | some (_, run), next => kind = .passed ∧ (∃ findings, findingsOf completion = .ok findings) ∧
      run.passed = true ∧ next.verification = none ∧ next.notes = daemon.notes

/-- The state of the verification has been taken out of the daemon. -/
def taken (daemon : CompletionDaemon) : CompletionDaemon := { daemon with verification := none }

theorem settles_error_of_active {next : CompletionDaemon}
    (hfound : ∃ findings, findingsOf completion = .ok findings)
    (hactive : daemon.activeTask = some taskId) (h : next.activeTask = daemon.activeTask)
    (hverification : next.verification = none) :
    Settles settings completion taskId daemon next .error :=
  .ended _ (.inr (.inl rfl)) hfound (not_escalated_of_active hactive h) hverification

/-- Nothing is noted or put back, and the engineer keeps the task. -/
structure Drops (daemon next : CompletionDaemon) : Prop where
  activeTask : next.activeTask = daemon.activeTask
  notes : next.notes = daemon.notes
  verification : daemon.verification = none → next.verification = none

instance : IsPreorder CompletionDaemon Drops where
  refl _ := ⟨rfl, rfl, id⟩
  trans _ _ _ h h' := ⟨h'.activeTask.trans h.activeTask, h'.notes.trans h.notes,
    fun hnone => h'.verification (h.verification hnone)⟩

theorem Still.drops {daemon next : CompletionDaemon} (h : daemon.Still next) : daemon.Drops next :=
  ⟨h.activeTask, h.notes, fun hnone => h.verification.trans hnone⟩

theorem drops_dropped (daemon : CompletionDaemon) :
    daemon.Drops { daemon with verification := none } :=
  ⟨rfl, rfl, fun _ => rfl⟩

theorem shouldEscalate_iff {findings : Findings} (hfindings : findingsOf completion = .ok findings)
    {state : VerificationState}
    (hmax : state.maxIterations = verificationRetryBudget settings.maxIterations)
    (hiteration : state.iteration = daemon.attempted settings completion) :
    shouldEscalate settings findings (narrations settings taskId findings daemon) state = true ↔
      Exhausts settings completion taskId daemon
        (if findings.hasRequiredEvidence settings then .failed else .unevidenced) := by
  unfold shouldEscalate narrations
  cases hevident : findings.hasRequiredEvidence settings with
  | true =>
    simp [Findings.isNarrationOnly, Findings.isZeroCommit, hevident, Exhausts,
      VerificationState.reachedMaxIterations, hmax, hiteration]
  | false =>
    by_cases hnarration : findings.isNarrationOnly settings = true
    · simp [hnarration, Exhausts, hfindings]
    · have hzero : findings.isZeroCommit settings = true := by
        simp only [Findings.isNarrationOnly, Findings.isZeroCommit, hevident, Bool.not_false,
          Bool.true_and, Bool.and_eq_true, decide_eq_true_eq] at hnarration ⊢
        simp only [Findings.hasRequiredEvidence, Bool.or_eq_false_iff, Bool.and_eq_false_iff,
          decide_eq_false_iff_not] at hevident
        omega
      simp [hnarration, hzero, Exhausts, hfindings]

theorem settles_rejected {findings : Findings} (hfindings : findingsOf completion = .ok findings)
    (hactive : daemon.activeTask = some taskId) (run : VerificationRunResult)
    {state : VerificationState}
    (hmax : state.maxIterations = verificationRetryBudget settings.maxIterations)
    (hiteration : state.iteration = daemon.attempted settings completion) :
    After (rejectCompletion settings completion taskId findings run state) daemon.taken
      (fun _ next => Settles settings completion taskId daemon next
        (if findings.hasRequiredEvidence settings then .failed else .unevidenced))
      (fun _ next => Settles settings completion taskId daemon next .error) := by
  have hiff := @shouldEscalate_iff settings completion taskId daemon _ hfindings _ hmax hiteration
  refine (after_rejectCompletion findings run state).mono (fun _ next h => ?_)
    fun _ next h => settles_error_of_active ⟨_, hfindings⟩ hactive h.1 h.2
  split at h
  · rename_i hescalate
    exact .escalated _ (hiff.mp hescalate) ⟨h.noted, h.released, h.blocked⟩
  · rename_i hescalate
    refine .kept _ ?_ (fun hexhausts => hescalate (hiff.mpr hexhausts)) h.1 (h.2.trans hiteration)
    split
    · exact .inl rfl
    · exact .inr rfl

theorem settles_judgeRun (hactive : daemon.activeTask = some taskId) {findings : Findings}
    (hfindings : findingsOf completion = .ok findings) (run : VerificationRunResult)
    (state : VerificationState)
    (hmax : state.maxIterations = verificationRetryBudget settings.maxIterations)
    (hiteration : state.iteration = daemon.attempted settings completion) :
    After (judgeRun settings completion taskId findings run state) daemon.taken
      (Judges settings completion taskId daemon (judgedKind settings findings run))
      (fun _ next => Settles settings completion taskId daemon next .error) := by
  unfold judgeRun judgedKind
  cases hrecovery : run.recovery with
  | some recovery =>
    simp only [Option.isSome_some, if_true, after_bind, after_pure]
    refine (moves_recoverBranch (fun _ _ => Still.drops) drops_dropped recovery run state
      daemon.taken).mono (fun _ next h => ?_)
      fun _ next h => settles_error_of_active ⟨_, hfindings⟩ hactive h.activeTask
        (h.verification rfl)
    exact .ended _ (.inl rfl) ⟨_, hfindings⟩ (not_escalated_of_active hactive h.activeTask)
      (h.verification rfl)
  | none =>
    have hrejected := settles_rejected hfindings hactive run hmax hiteration
    simp only [Option.isSome_none, Bool.false_eq_true, if_false]
    cases hevident : findings.hasRequiredEvidence settings with
    | false =>
      simp only [hevident, Bool.false_eq_true, if_false] at hrejected
      simp only [Bool.not_false, Bool.true_or, if_true, after_bind, after_pure]
      exact hrejected
    | true =>
      simp only [hevident, if_true] at hrejected
      cases hpassed : run.passed with
      | false =>
        simp only [Bool.not_true, Bool.not_false, Bool.or_true, Bool.false_eq_true, if_false,
          if_true, after_bind, after_pure]
        exact hrejected
      | true =>
        simp only [Bool.not_true, Bool.or_self, Bool.false_eq_true, if_false, if_true, after_bind,
          after_pure]
        refine (moves_acceptVerification (fun _ _ => Still.drops) drops_dropped run state
          daemon.taken).mono (fun branch next h => ?_)
          fun _ next h => settles_error_of_active ⟨_, hfindings⟩ hactive h.activeTask
            (h.verification rfl)
        exact ⟨rfl, ⟨_, hfindings⟩, hpassed, h.verification rfl, h.notes⟩

/-- A verification comes to its judgment, or fails on the way. -/
theorem settles_verifyTask (hactive : daemon.activeTask = some taskId) :
    After (verifyTask settings completion taskId) daemon
      (Judges settings completion taskId daemon (returnedKind settings completion))
      (fun _ next => Settles settings completion taskId daemon next .error) := by
  simp only [verifyTask, inspectWorktree_eq, after_bind]
  unfold returnedKind
  cases hfindings : findingsOf completion with
  | error error => exact .uninspected error hfindings rfl
  | ok findings =>
    simp only [after_orFail_ok, takeVerification, after_bind, after_get, after_set, after_pure]
    cases hfence : completion.scopeFence with
    | error error => exact settles_error_of_active ⟨_, hfindings⟩ hactive rfl rfl
    | ok fence =>
      simp only [after_orFail_ok]
      refine (moves_revertOutOfScope (R := Eq) fence _).mono ?_ fun _ _ h => ?_
      · rintro _ _ rfl
        refine (after_verifyCompletion hfence _).mono ?_ fun _ _ h => ?_
        · rintro ⟨run, state⟩ _ ⟨rfl, hrun, hmax, hiteration⟩
          simp only [hrun]
          refine settles_judgeRun hactive hfindings run state ?_ ?_
          · rw [hmax, collectEvidence]
            simp only [VerificationState.recordEvidence_maxIterations]
          · rw [hiteration, attempted, collectEvidence, attempts]
            simp only [VerificationState.recordEvidence_iteration]
            cases daemon.verification <;> rfl
        · rw [h]
          exact settles_error_of_active ⟨_, hfindings⟩ hactive rfl rfl
      · rw [← h]
        exact settles_error_of_active ⟨_, hfindings⟩ hactive rfl rfl

/-! ### The ways on -/

/-- Nothing is put back, and no task is escalated for its verification. -/
structure Passes (daemon next : CompletionDaemon) : Prop where
  verification : daemon.verification = none → next.verification = none
  notes : ∃ noted, next.notes = daemon.notes ++ noted ∧
    ∀ entry ∈ noted, ∀ taskId, entry ≠ .escalated taskId "verification_failed"

instance : IsPreorder CompletionDaemon Passes where
  refl _ := ⟨id, [], (List.append_nil _).symm, nofun⟩
  trans _ _ _ h h' := ⟨fun hnone => h'.verification (h.verification hnone),
    notes_trans h.notes h'.notes⟩

theorem Passes.not_escalated {next : CompletionDaemon} (h : daemon.Passes next) :
    ¬ Escalated taskId daemon next := by
  obtain ⟨noted, hnotes, hnoted⟩ := h.notes
  intro hescalated
  have hmem := hescalated.noted
  rw [notedSince, hnotes, List.drop_left] at hmem
  exact hnoted _ hmem taskId rfl

theorem passes_of_eq {next : CompletionDaemon}
    (hverification : daemon.verification = none → next.verification = none)
    (hnotes : next.notes = daemon.notes) : daemon.Passes next :=
  ⟨hverification, [], by rw [hnotes, List.append_nil], nofun⟩

theorem Still.passes {daemon next : CompletionDaemon} (h : daemon.Still next) :
    daemon.Passes next :=
  passes_of_eq (fun hnone => h.verification.trans hnone) h.notes

theorem passes_note {entry : CompletionNote}
    (h : ∀ taskId, entry ≠ .escalated taskId "verification_failed") : Moves Passes (note entry) :=
  moves_modify fun _ => ⟨id, [entry], rfl, by simpa using h⟩

theorem passes_clearActiveTask : Moves Passes clearActiveTask :=
  moves_modify fun _ => passes_of_eq (fun _ => rfl) rfl

theorem passes_incrementRetry : Moves Passes incrementRetry := by
  refine Moves.bind ?_ fun _ => moves_get.bind fun _ => moves_pure _
  exact moves_modify fun _ => passes_of_eq id rfl

theorem passes_finishTask : Moves Passes (finishTask taskId) :=
  passes_clearActiveTask.bind fun _ => passes_note nofun

theorem passes_mergeAtOnce : Moves Passes (mergeAtOnce settings completion taskId) := by
  refine (moves_orFail _).bind fun _ => (moves_orFail _).bind fun outcome => ?_
  cases outcome with
  | success => exact moves_handleMergeSuccess (fun _ _ => Still.passes) passes_finishTask
  | rebaseConflict info =>
    refine moves_handleRebaseConflict passes_incrementRetry (fun _ => passes_note (by simp)) ?_
    refine (passes_note (by simp)).bind fun _ => moves_reportToManager.bind fun _ => ?_
    exact ((still_runKanban _).mono fun _ _ => Still.passes).bind fun _ => passes_clearActiveTask
  | mergeFailure info =>
    exact moves_handleMergeFailure
      ((passes_note (by simp)).bind fun _ => passes_clearActiveTask)

theorem passes_takeExit (branch : String) (exit : CompletionExit) :
    Moves Passes (takeExit settings completion taskId branch exit) := by
  have hreview : ∀ {next : CompletionAction Unit}, Moves Passes next →
      Moves Passes (reviewWithPacket settings completion taskId branch next) :=
    moves_reviewWithPacket (fun _ _ => Still.passes) (passes_note (by simp)) passes_clearActiveTask
  cases exit with
  | override => exact moves_reviewByOverride (fun _ _ => Still.passes) passes_finishTask
  | autoMerge => exact hreview (moves_modify fun _ => passes_of_eq id rfl)
  | manualReview => exact hreview (moves_messageManager.bind fun _ => passes_finishTask)
  | mergeAtOnce => exact passes_mergeAtOnce

/-! ### One completion -/

/-- **Completions.** What becomes of a completion is what its kind says. -/
theorem settles_completed (hactive : daemon.activeTask = some taskId) :
    Settles settings completion taskId daemon (daemon.completed settings completion)
      (completionKind settings completion daemon) := by
  cases hworktrees : settings.usesWorktrees with
  | false =>
    have hkind : completionKind settings completion daemon = .unverified := by
      simp only [completionKind, hworktrees, Bool.not_false, if_true]
    rw [hkind]
    refine .unverified (after_iff_endState (P := (· = daemon)).mp ?_)
    simp only [handleEngineerCompletion, after_bind, after_get, hactive, hworktrees, Bool.not_false,
      if_true, after_pure]
  | true =>
    have hrun : After (handleEngineerCompletion settings completion) daemon
        (fun _ next => Settles settings completion taskId daemon next
          (returnedKind settings completion))
        (fun _ next => Settles settings completion taskId daemon next .error) := by
      simp only [handleEngineerCompletion, after_bind, after_get, hactive, hworktrees,
        Bool.not_true, Bool.false_eq_true, if_false]
      refine (settles_verifyTask hactive).mono ?_ fun _ _ h => h
      rintro judged next h
      cases judged with
      | none => exact h
      | some judged =>
        obtain ⟨hkind, hfound, hpassed, hverification, hnotes⟩ := h
        simp only [hpassed, if_true]
        have hfrom : daemon.Passes next := passes_of_eq (fun _ => hverification) hnotes
        refine (passes_takeExit judged.1 (completionExit settings completion) next).mono ?_ ?_
        · intro _ last hlast
          exact .ended _ (.inr (.inr hkind)) hfound (trans_of Passes hfrom hlast).not_escalated
            (hlast.verification hverification)
        · intro _ last hlast
          exact .ended _ (.inr (.inl rfl)) hfound (trans_of Passes hfrom hlast).not_escalated
            (hlast.verification hverification)
    unfold completed endState completionKind
    unfold After at hrun
    rw [hworktrees]
    split at hrun <;> rename_i hresult <;> rw [hresult] <;> exact hrun

/-- A failure is of tests that were run. -/
theorem tested_of_failed (h : completionKind settings completion daemon = .failed) :
    outOfScope completion = true ∨ settings.autoRunTests = true := by
  by_contra hnot
  simp only [not_or, Bool.not_eq_true] at hnot
  unfold completionKind returnedKind at h
  split at h
  · cases h
  split at h
  · cases h
  split at h
  · rename_i findings run hfindings hrun
    simp only [runOf, hnot, Bool.or_self, Bool.false_eq_true, if_false] at hrun
    cases hfence : completion.scopeFence with
    | error error =>
      rw [hfence] at hrun
      cases hrun
    | ok fence =>
      rw [hfence] at hrun
      obtain rfl := Except.ok.inj hrun
      simp only [judgedKind, skippedRun, Option.isSome_none, Bool.false_eq_true, if_false,
        if_true] at h
      split at h <;> cases h
  · cases h

theorem verificationRetryBudget_le (maxIterations : Nat) :
    verificationRetryBudget maxIterations ≤ 3 := by
  unfold verificationRetryBudget
  omega

variable {used : Nat}

/-- **One completion** counts as it should, and the attempts on record are those used. -/
theorem counts_completed (hactive : daemon.activeTask = some taskId)
    (hattempts : daemon.attempts = used)
    (hused : used < verificationRetryBudget settings.maxIterations)
    (hsafe : AttemptSafe settings completion taskId used daemon
      (completionKind settings completion daemon)) :
    AttemptCounted settings taskId used daemon (daemon.completed settings completion)
        (completionKind settings completion daemon) ∧
      ((daemon.completed settings completion).activeTask = some taskId →
        (daemon.completed settings completion).attempts =
            usedAfter used (completionKind settings completion daemon) ∧
          usedAfter used (completionKind settings completion daemon) <
            verificationRetryBudget settings.maxIterations) := by
  have htested := @tested_of_failed settings completion daemon
  have hbudget := verificationRetryBudget_le settings.maxIterations
  have hsettles := @settles_completed settings completion taskId daemon hactive
  generalize daemon.completed settings completion = next at hsettles ⊢
  generalize completionKind settings completion daemon = kind at hsettles hsafe htested ⊢
  unfold AttemptCounted
  cases hsettles with
  | unverified hnext =>
    subst hnext
    exact ⟨iff_of_false (not_escalated_of_active hactive rfl) (by simp),
      fun _ => ⟨hattempts, hused⟩⟩
  | uninspected error hfindings hnext =>
    subst hnext
    exact ⟨iff_of_false (not_escalated_of_active hactive rfl) (by simp),
      fun _ => ⟨hattempts, hused⟩⟩
  | ended kind hkind hfound hnot hverification =>
    have hnone : next.attempts = 0 := by rw [attempts, hverification]; rfl
    obtain ⟨findings, hfindings⟩ := hfound
    rcases hkind with rfl | rfl | rfl
    · have hzero : used = 0 := hsafe
      exact ⟨iff_of_false hnot (by simp), fun _ => ⟨hnone.trans hzero.symm, hused⟩⟩
    · have hzero : used = 0 := hsafe.resolve_right (by rw [hfindings]; nofun)
      exact ⟨iff_of_false hnot (by simp), fun _ => ⟨hnone.trans hzero.symm, hused⟩⟩
    · exact ⟨iff_of_false hnot (by simp), fun _ => ⟨hnone, Nat.zero_lt_of_lt hused⟩⟩
  -- A task that was escalated is nobody's, so nothing is said of later attempts.
  | escalated kind hexhausts hescalated =>
    have hreleased : next.activeTask = some taskId → False := by
      rw [hescalated.released]
      nofun
    refine ⟨iff_of_true hescalated ?_, fun h => (hreleased h).elim⟩
    cases kind with
    | failed =>
      have hlast : verificationRetryBudget settings.maxIterations ≤ used + 1 := by
        have hle : verificationRetryBudget settings.maxIterations ≤ _ := hexhausts
        rw [attempted, hattempts] at hle
        split at hle <;> omega
      exact ⟨rfl, by omega⟩
    -- Narration counts on its own, and it is safe only while that count stays low.
    | unevidenced =>
      obtain ⟨findings, hfindings, hnarration, hcount⟩ := hexhausts
      rw [hsafe.2 findings (by rw [hfindings]; rfl) hnarration] at hcount
      omega
    | unverified | error | recovery | passed => exact hexhausts.elim
  | kept kind hkind hexhausts hsame hkept =>
    rw [attempted, hattempts] at hkept
    rcases hkind with rfl | rfl
    · have hscope : outOfScope completion = false := hsafe
      have htests : settings.autoRunTests = true :=
        (htested rfl).resolve_left (by rw [hscope]; decide)
      simp only [hscope, htests, Bool.not_true, Bool.or_self, Bool.false_eq_true, if_false] at hkept
      have hfewer : ¬ verificationRetryBudget settings.maxIterations ≤ _ := hexhausts
      simp only [attempted, hscope, htests, hattempts, Bool.not_true, Bool.or_self,
        Bool.false_eq_true, if_false] at hfewer
      refine ⟨iff_of_false (not_escalated_of_active hactive hsame) ?_, fun _ => ?_⟩
      · omega
      · exact ⟨by rw [hkept, usedAfter]; omega, by rw [usedAfter]; omega⟩
    · have huncounted : (outOfScope completion || !settings.autoRunTests) = true := by
        rcases hsafe.1 with h | h <;> simp [h]
      rw [if_pos huncounted] at hkept
      exact ⟨iff_of_false (not_escalated_of_active hactive hsame) (by simp),
        fun _ => ⟨hkept, hused⟩⟩

theorem budgetExact_of_counted {completions : List Completion}
    (hattempts : daemon.activeTask = some taskId → daemon.attempts = used)
    (hused : daemon.activeTask = some taskId →
      used < verificationRetryBudget settings.maxIterations)
    (hsafe : AttemptsSafe settings taskId used daemon completions) :
    BudgetExact settings taskId used daemon completions := by
  induction completions generalizing used daemon with
  | nil => trivial
  | cons completion completions ih =>
    intro hactive
    obtain ⟨hsafe, hrest⟩ := hsafe hactive
    obtain ⟨hcounted, hnext⟩ := counts_completed hactive (hattempts hactive) (hused hactive) hsafe
    exact ⟨hcounted, ih (fun h => (hnext h).1) (fun h => (hnext h).2) hrest⟩

/-- **The budget.** The failure that uses the last attempt is escalated and nothing else is, in
every run in which each failure is one of tests that were run within the scope, no wrong branch and
no error comes after a failure, and what has nothing to show is not counted. -/
theorem budgetExact_of_attemptsSafe (settings : CompletionSettings) (taskId : Nat)
    (daemon : CompletionDaemon) (completions : List Completion)
    (hfresh : daemon.verification = none)
    (hsafe : AttemptsSafe settings taskId 0 daemon completions) :
    BudgetExact settings taskId 0 daemon completions := by
  refine budgetExact_of_counted (fun _ => ?_) (fun _ => ?_) hsafe
  · rw [attempts, hfresh]
    rfl
  · unfold verificationRetryBudget
    omega

end

/-- The tests fail. -/
def failedCompletion : Completion :=
  { plainCompletion with
    verification := .ok { passed := false, output := "1 failed", failureSummary := "1 failed" } }

/-- The scope was not acknowledged, and is not going to be. -/
def unacknowledgedCompletion : Completion :=
  { failedCompletion with scopeFence := .ok (some { outOfScopeFiles := [], ackPresent := false }) }

/-- The third failure is escalated. -/
theorem budgetExact_failures : BudgetExact plainSettings 1 0 taskDaemon
    [failedCompletion, failedCompletion, failedCompletion] :=
  budgetExact_of_attemptsSafe plainSettings 1 taskDaemon _ rfl fun _ =>
    ⟨by decide +kernel, fun _ => ⟨by decide +kernel, fun _ => ⟨by decide +kernel, trivial⟩⟩⟩

/-- After three failures without an acknowledgement the engineer still has the task. -/
theorem not_budgetExact_unacknowledged : ¬ ∀ settings taskId daemon completions,
    daemon.verification = none → BudgetExact settings taskId 0 daemon completions := by
  intro h
  have hsecond := (h plainSettings 1 taskDaemon [unacknowledgedCompletion, unacknowledgedCompletion,
    unacknowledgedCompletion] rfl rfl).2 (by decide +kernel)
  have hthird := (hsecond.2 (by decide +kernel)).1
  have hreleased := (hthird.mpr ⟨by decide +kernel, by decide +kernel⟩).released
  exact absurd hreleased (by decide +kernel)

end CompletionDaemon

end Batty
