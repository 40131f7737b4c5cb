import Batty.Board.Lifecycle
import Batty.Delivery.Assign
import Batty.Merge.Queue

/-!
# The completion of a task

An engineer has said that its task is done. The daemon looks at what is in the worktree and runs
the tests. What does not pass goes back to the engineer, until the attempts are used up and the task
is blocked; what passes is put up for review, put in the merge queue, or merged at once.

Whatever is outside the daemon and the board (git, the tests, the reports, the messages, the tool
that moves a task) may fail: `Completion` says of one completion how each of these ends, and how the
accesses to the disk fail in each command of the board.

* `CompletionDaemon.handleEngineerCompletion`: what is done about a completion.
* `recoverBranch`, `rejectCompletion`, `acceptVerification`: what comes of the verification.
* `takeExit`: where a completion goes that has passed it.
-/

namespace Batty

/-! ### Verification -/

/-- Where the verification of a task stands. -/
inductive VerificationPhase where
  | executing | verifying | fixing | complete | failed
deriving DecidableEq

/-- What speaks for a completion. -/
inductive EvidenceKind where
  | commitsAhead | filesChanged | codeFilesChanged | testsPassed | testsFailed
deriving DecidableEq

/-- The verification of a task, with its budget of attempts. -/
structure VerificationState where
  phase : VerificationPhase := .executing
  iteration : Nat := 0
  maxIterations : Nat
  lastTestOutput : Option String := none
  lastTestPassed : Bool := false
  evidence : List EvidenceKind := []

def VerificationState.new (maxIterations : Nat) : VerificationState :=
  { maxIterations := max maxIterations 1 }

def VerificationState.beginIteration (state : VerificationState) : VerificationState :=
  { state with iteration := min (state.iteration + 1) (2 ^ 32 - 1) }

def VerificationState.reachedMaxIterations (state : VerificationState) : Bool :=
  state.iteration ≥ state.maxIterations

def VerificationState.recordEvidence (state : VerificationState) (kind : EvidenceKind)
    (present : Bool) : VerificationState :=
  if present then { state with evidence := state.evidence ++ [kind] } else state

@[simp] theorem VerificationState.recordEvidence_iteration (state : VerificationState)
    (kind : EvidenceKind) (present : Bool) :
    (state.recordEvidence kind present).iteration = state.iteration := by
  cases present <;> rfl

@[simp] theorem VerificationState.recordEvidence_maxIterations (state : VerificationState)
    (kind : EvidenceKind) (present : Bool) :
    (state.recordEvidence kind present).maxIterations = state.maxIterations := by
  cases present <;> rfl

def verificationRetryBudget (maxIterations : Nat) : Nat := max 1 (min maxIterations 3)

def verificationOutcomeLabel : VerificationPhase → String
  | .fixing => "verification_retry_required"
  | .complete => "verification_passed"
  | .failed => "verification_escalated"
  | .executing | .verifying => "verification_pending"

/-- The worktree is on the branch of another task. -/
structure VerificationRecovery where
  expectedBranch : String
  actualBranch : String

/-- What a run of the tests gave. -/
structure VerificationRunResult where
  passed : Bool
  output : String
  failureSummary : String
  recovery : Option VerificationRecovery := none

/-- The tests have been run. -/
def VerificationState.tested (state : VerificationState) (run : VerificationRunResult) :
    VerificationState :=
  { state with
    lastTestPassed := run.passed
    lastTestOutput := some run.output
    evidence := state.evidence ++ [if run.passed then .testsPassed else .testsFailed] }

/-- The attempt is given back. -/
def VerificationState.recovered (state : VerificationState) (run : VerificationRunResult) :
    VerificationState :=
  { state with
    iteration := state.iteration - 1
    lastTestPassed := false
    lastTestOutput := some run.output }

/-- The files a diff has outside the scope, and whether the engineer stands by them. -/
structure ScopeFenceCheck where
  outOfScopeFiles : List String
  ackPresent : Bool

/-- The scope was left, or has not been acknowledged. -/
def ScopeFenceCheck.stops (check : ScopeFenceCheck) : Bool :=
  !check.ackPresent || !check.outOfScopeFiles.isEmpty

/-! ### One completion -/

/-- Merge, or ask for a review. -/
inductive AutoMergeDecisionKind where
  | accepted | manualReview
deriving DecidableEq

/-- What a merge came to. -/
inductive MergeOutcome where
  | success
  | rebaseConflict (info : String)
  | mergeFailure (info : String)

/-- The commands of the board that belong to a completion. -/
inductive BoardStep where
  | snapshot | previousResults | review | progress | reviewAgain | owners | packet | redispatch
  | block | blockReason | release
deriving DecidableEq

/-- The tool that moves tasks on the board: whether it brings a task to `done`, and the board that it
leaves. -/
structure KanbanTool where
  moved : Bool
  moveToDone : Nat → Board → Board
  block : Nat → Board → Board

/-- How everything ends in one completion that is outside the daemon and the board. -/
structure Completion where
  commitsAhead : Except String Nat
  diffStat : Except String String
  filesChanged : Except String Nat
  codeFilesChanged : Except String Nat
  scopeFence : Except String (Option ScopeFenceCheck)
  revert : Except String Unit
  verification : Except String VerificationRunResult
  report : Except String Unit
  /-- Whether the artifacts and the branch are those of the task. -/
  target : Except String Unit
  telemetry : Except String Unit
  /-- The head of the branch that is expected. -/
  expectedHead : Option String
  branch : Except String String
  decision : Except String AutoMergeDecisionKind
  reviewCommits : Except String Nat
  packetTarget : Except String Unit
  headCommit : Except String String
  lock : Except String Unit
  merge : Except String MergeOutcome
  kanban : KanbanTool
  message : String → Except String Unit
  reports : Except String Unit
  /-- The escalation of failing tests has just been made known. -/
  escalationSuppressed : Bool
  faults : BoardStep → Nat → Bool

/-- What is configured, and known of the engineer. -/
structure CompletionSettings where
  engineer : String
  managerName : Option String
  usesWorktrees : Bool
  worktreePath : String
  canDeliverAssignment : Bool
  site : LaunchSite
  maxIterations : Nat
  autoRunTests : Bool
  requireEvidence : Bool
  autoMergeEnabled : Bool
  autoMergeOverride : Option Bool

/-- What the daemon makes known of a completion, or has decided to do. -/
inductive CompletionNote where
  | escalated (taskId : Nat) (reason : String)
  | completed (taskId : Nat)
  | rejected (taskId : Nat)
  | testsFailed (attempt : Nat)
  | rebaseConflict (attempt : Nat)
  | stallBackoff (attempt backoffSecs : Nat)
  | stallRestart (attempt : Nat)
  | stallBlocked (attempt : Nat)
deriving DecidableEq

/-- What is written down of a verification. -/
structure VerificationReport where
  path : String
  outcome : String
  attempt : Nat
  maxAttempts : Nat
  passed : Bool

/-- The daemon as far as one engineer's completions go; `narrationRejections` is by task. -/
structure CompletionDaemon where
  disk : Disk
  activeTask : Option Nat := none
  retryCount : Nat := 0
  verification : Option VerificationState := none
  narrationRejections : Nat → Nat := fun _ => 0
  mergeQueue : MergeQueue := {}
  notes : List CompletionNote := []
  reports : List VerificationReport := []

abbrev CompletionAction := EStateM String CompletionDaemon

namespace CompletionDaemon

/-- A command of the board, with its own faults. -/
def onBoard {α : Type} (completion : Completion) (step : BoardStep) (command : DiskAction α) :
    CompletionAction α := fun daemon =>
  match command { daemon.disk with faults := completion.faults step, accesses := 0 } with
  | .ok a disk => .ok a { daemon with disk }
  | .error error disk => .error error { daemon with disk }

def note (entry : CompletionNote) : CompletionAction Unit :=
  modify fun daemon => { daemon with notes := daemon.notes ++ [entry] }

def forgetNarration (taskId : Nat) : CompletionAction Unit :=
  modify fun daemon => { daemon with
    narrationRejections := Function.update daemon.narrationRejections taskId 0 }

def incrementRetry : CompletionAction Nat := do
  modify fun daemon => { daemon with retryCount := daemon.retryCount + 1 }
  return (← get).retryCount

def clearActiveTask : CompletionAction Unit :=
  modify fun daemon => { daemon with
    activeTask := none
    retryCount := 0
    verification := none
    narrationRejections := match daemon.activeTask with
      | some taskId => Function.update daemon.narrationRejections taskId 0
      | none => daemon.narrationRejections }

def messageManager (settings : CompletionSettings) (completion : Completion) :
    CompletionAction Unit :=
  match settings.managerName with
  | some manager => orFail (completion.message manager)
  | none => pure ()

def reportToManager (settings : CompletionSettings) (completion : Completion) :
    CompletionAction Unit :=
  match settings.managerName with
  | some _ => orFail completion.reports
  | none => pure ()

/-! ### Snapshots -/

def reportPath (taskId : Nat) (engineer : String) (attempt : Nat) : String :=
  let digits := toString taskId
  let padded := String.ofList (List.replicate (3 - digits.length) '0') ++ digits
  s!".batty/reports/verification/completion/task-{padded}-{engineer}-attempt-{attempt}.json"

def trackArtifact (artifact : String) (artifacts : List String) : List String :=
  if artifact ∈ artifacts then artifacts else artifacts ++ [artifact]

/-- Write a report, and what it says to the task. -/
def persistSnapshot (completion : Completion) (taskId : Nat) (report : VerificationReport)
    (edit : WorkflowRecord → WorkflowRecord) : CompletionAction Unit := do
  orFail completion.report
  modify fun daemon => { daemon with reports := daemon.reports ++ [report] }
  onBoard completion .snapshot do
    let path ← findTaskPath taskId
    orFail completion.target
    let metadata ← readWorkflowMetadata path
    writeWorkflowMetadata path (edit metadata)

/-- What is written down of a run; the attempt in the path is that in the report. -/
def snapshotReport (settings : CompletionSettings) (taskId : Nat) (state : VerificationState)
    (run : VerificationRunResult) : VerificationReport :=
  let attempt := max state.iteration 1
  { path := reportPath taskId settings.engineer attempt
    outcome := verificationOutcomeLabel state.phase
    attempt
    maxAttempts := state.maxIterations
    passed := run.passed }

/-- What is written down of a wrong branch. -/
def recoveryReport (settings : CompletionSettings) (taskId : Nat) (state : VerificationState) :
    VerificationReport where
  path := reportPath taskId settings.engineer 1
  outcome := "branch_recovery_required"
  attempt := state.iteration
  maxAttempts := state.maxIterations
  passed := false

def reportEdit (report : VerificationReport) (metadata : WorkflowRecord) : WorkflowRecord :=
  { metadata with
    testsRun := some true
    testsPassed := some report.passed
    testResults := some (.nested true)
    outcome := some report.outcome
    artifacts := trackArtifact report.path metadata.artifacts }

def worktreePathForBranch (branch : String) : Option String :=
  if "preserved/".toList.isPrefixOf branch.toList || "backup/".toList.isPrefixOf branch.toList then
    none
  else
    match Text.trim (branch.toList.takeWhile (· ≠ '/')) with
    | [] => none
    | engineer => some (".batty/worktrees/" ++ String.ofList engineer)

def recoveryEdit (completion : Completion) (recovery : VerificationRecovery)
    (metadata : WorkflowRecord) : WorkflowRecord :=
  { metadata with
    branch := some recovery.expectedBranch
    commit := completion.expectedHead
    worktreePath := (worktreePathForBranch recovery.expectedBranch).or metadata.worktreePath }

/-! ### What does not pass -/

/-- The worktree is on a wrong branch: the engineer is told, and the verification ends. -/
def recoverBranch (settings : CompletionSettings) (completion : Completion) (taskId : Nat)
    (recovery : VerificationRecovery) (run : VerificationRunResult) (state : VerificationState) :
    CompletionAction Unit := do
  let report := recoveryReport settings taskId (state.recovered run)
  persistSnapshot completion taskId report fun metadata =>
    recoveryEdit completion recovery (reportEdit report metadata)
  orFail (completion.message settings.engineer)
  messageManager settings completion
  modify fun daemon => { daemon with verification := none }

def redispatch (settings : CompletionSettings) (completion : Completion) (taskId : Nat) :
    CompletionAction (Except String Unit) :=
  if settings.canDeliverAssignment then
    attempt (onBoard completion .redispatch
      (assignTaskWithTaskIdAs settings.site settings.engineer "" (some taskId)))
  else pure (.error "the engineer has neither a shim nor a pane")

/-- Give the task to the engineer once more, as a task or else as a message. -/
def deliverVerificationRetry (settings : CompletionSettings) (completion : Completion)
    (taskId : Nat) : CompletionAction Unit := do
  match ← redispatch settings completion taskId with
  | .ok _ => pure ()
  | .error _ => orFail (completion.message settings.engineer)

def escalateVerification (settings : CompletionSettings) (completion : Completion)
    (taskId : Nat) (reason : String) : CompletionAction Unit := do
  messageManager settings completion
  note (.escalated taskId "verification_failed")
  onBoard completion .block (transitionTask taskId "blocked")
  onBoard completion .blockReason (cmdUpdate taskId [("blocked_on", reason)])
  clearActiveTask
  forgetNarration taskId

/-- What there is to show for a completion. -/
structure Findings where
  totalCommits : Nat
  filesChanged : Nat
  codeFilesChanged : Nat

def Findings.hasRequiredEvidence (findings : Findings) (settings : CompletionSettings) : Bool :=
  !settings.requireEvidence || (findings.totalCommits > 0 && findings.codeFilesChanged > 0)

def Findings.isZeroCommit (findings : Findings) (settings : CompletionSettings) : Bool :=
  !findings.hasRequiredEvidence settings && findings.totalCommits = 0

/-- Commits without code. -/
def Findings.isNarrationOnly (findings : Findings) (settings : CompletionSettings) : Bool :=
  !findings.hasRequiredEvidence settings && findings.totalCommits > 0 &&
    findings.codeFilesChanged = 0

/-- Completions without code are counted by task. -/
def countNarration (settings : CompletionSettings) (taskId : Nat) (findings : Findings) :
    CompletionAction Nat :=
  if findings.isNarrationOnly settings then do
    modify fun daemon => { daemon with
      narrationRejections := Function.update daemon.narrationRejections taskId
        (daemon.narrationRejections taskId + 1) }
    return (← get).narrationRejections taskId
  else return 0

/-- Two completions without code are too many, and one without commits never is. -/
def shouldEscalate (settings : CompletionSettings) (findings : Findings) (narrationCount : Nat)
    (state : VerificationState) : Bool :=
  if findings.isNarrationOnly settings then narrationCount ≥ 2
  else if findings.isZeroCommit settings then false
  else state.reachedMaxIterations

def blockReason (findings : Findings) (evident : Bool) (iteration : Nat) (summary : String) :
    String :=
  s!"verification escalation after {iteration} attempts: " ++
    if !evident && findings.codeFilesChanged = 0 then "narration-only completion"
    else if evident then summary
    else "insufficient task evidence"

/-- What has been decided about a rejected completion is put on file, and told the engineer. -/
def returnToEngineer (settings : CompletionSettings) (completion : Completion) (taskId : Nat)
    (run : VerificationRunResult) (state : VerificationState) : CompletionAction Unit := do
  let report := snapshotReport settings taskId state run
  persistSnapshot completion taskId report (reportEdit report)
  deliverVerificationRetry settings completion taskId

/-- Keep the state of the verification for the next completion. -/
def keepVerification (taskId : Nat) (state : VerificationState) : CompletionAction Unit := do
  note (.rejected taskId)
  modify fun daemon => { daemon with verification := some state }

/-- The completion is rejected: back to the engineer, and at last to the manager. -/
def rejectCompletion (settings : CompletionSettings) (completion : Completion) (taskId : Nat)
    (findings : Findings) (run : VerificationRunResult) (state : VerificationState) :
    CompletionAction Unit := do
  orFail (if run.passed then .ok () else completion.telemetry)
  let narrationCount ← countNarration settings taskId findings
  if shouldEscalate settings findings narrationCount state then
    returnToEngineer settings completion taskId run { state with phase := .failed }
    escalateVerification settings completion taskId (blockReason findings
      (findings.hasRequiredEvidence settings) state.iteration run.failureSummary)
  else
    returnToEngineer settings completion taskId run { state with phase := .fixing }
    keepVerification taskId { state with phase := .fixing }

/-! ### What passes -/

/-- Move the task to `review`, by way of `in-progress` if it does not go at once. That it has not
come there is not told. -/
def transitionToReview (completion : Completion) (taskId : Nat) : CompletionAction Unit := do
  match ← attempt (onBoard completion .review (transitionTask taskId "review")) with
  | .ok _ => return ()
  | .error _ =>
    let _ ← attempt (onBoard completion .progress (transitionTask taskId "in-progress"))
    discard (attempt (onBoard completion .reviewAgain (transitionTask taskId "review")))

def assignReviewOwner (settings : CompletionSettings) (completion : Completion) (taskId : Nat) :
    CompletionAction Unit :=
  match settings.managerName with
  | some manager => discard (attempt (onBoard completion .owners
      (assignTaskOwners taskId (some settings.engineer) (some manager))))
  | none => pure ()

/-- Put the task up for review, unless there is nothing to review. -/
def moveTaskToReview (settings : CompletionSettings) (completion : Completion) (taskId : Nat) :
    CompletionAction Bool := do
  let commitsAhead ← orFail completion.reviewCommits
  if commitsAhead = 0 then
    orFail (completion.message settings.engineer)
    return false
  else
    transitionToReview completion taskId
    assignReviewOwner settings completion taskId
    return true

def packetEdit (settings : CompletionSettings) (branch commit : String)
    (metadata : WorkflowRecord) : WorkflowRecord :=
  { metadata with
    branch := some branch
    commit := some commit
    worktreePath := some settings.worktreePath
    testsRun := some true
    testsPassed := some true
    outcome :=
      if Text.trim (metadata.outcome.getD "").toList = [] then some "ready_for_review"
      else metadata.outcome
    testResults := some (.nested true) }

def recordCompletionPacketMetadata (settings : CompletionSettings) (completion : Completion)
    (taskId : Nat) (branch : String) : CompletionAction Unit :=
  onBoard completion .packet do
    let path ← findTaskPath taskId
    orFail completion.packetTarget
    let metadata ← readWorkflowMetadata path
    let commit ← orFail completion.headCommit
    writeWorkflowMetadata path (packetEdit settings branch commit metadata)

def escalateCompletionMetadataRejection (settings : CompletionSettings) (completion : Completion)
    (taskId : Nat) : CompletionAction Unit := do
  note (.escalated taskId "completion_metadata_mismatch")
  messageManager settings completion
  clearActiveTask

/-- The engineer is done with the task. -/
def finishTask (taskId : Nat) : CompletionAction Unit := do
  clearActiveTask
  note (.completed taskId)

def finishForManualReview (settings : CompletionSettings) (completion : Completion) (taskId : Nat) :
    CompletionAction Unit := do
  messageManager settings completion
  finishTask taskId

def enqueueMergeRequest (settings : CompletionSettings) (taskId : Nat) (branch : String) :
    CompletionAction Unit :=
  modify fun daemon => { daemon with
    mergeQueue := daemon.mergeQueue.enqueue { taskId, engineer := settings.engineer, branch } }

/-- Up for review with all that the merge queue asks for, and on. -/
def reviewWithPacket (settings : CompletionSettings) (completion : Completion) (taskId : Nat)
    (branch : String) (next : CompletionAction Unit) : CompletionAction Unit := do
  if !(← moveTaskToReview settings completion taskId) then return ()
  else
    match ← attempt (recordCompletionPacketMetadata settings completion taskId branch) with
    | .error _ => escalateCompletionMetadataRejection settings completion taskId
    | .ok _ => next

/-- Up for review, since that is what has been set for this task. -/
def reviewByOverride (settings : CompletionSettings) (completion : Completion) (taskId : Nat) :
    CompletionAction Unit := do
  if !(← moveTaskToReview settings completion taskId) then return ()
  else finishForManualReview settings completion taskId

/-- Whether the tool succeeds makes no difference but to what is told. -/
def runKanban (tool : Board → Board) : CompletionAction Unit :=
  modify fun daemon => { daemon with disk := { daemon.disk with board := tool daemon.disk.board } }

/-- A conflict goes back to the engineer twice, and then to the manager. -/
def handleRebaseConflict (settings : CompletionSettings) (completion : Completion) (taskId : Nat) :
    CompletionAction Unit := do
  let attempt ← incrementRetry
  note (.rebaseConflict attempt)
  if attempt ≤ 2 then orFail (completion.message settings.engineer)
  else
    messageManager settings completion
    note (.escalated taskId "merge_conflict")
    reportToManager settings completion
    runKanban (completion.kanban.block taskId)
    clearActiveTask

def unlessSuppressed (completion : Completion) (action : CompletionAction Unit) :
    CompletionAction Unit :=
  if completion.escalationSuppressed then pure () else action

/-- What is done about failing tests of a completion that has been accepted. -/
def handleTestsFailed (settings : CompletionSettings) (completion : Completion) (taskId : Nat) :
    CompletionAction Unit := do
  let attempt ← incrementRetry
  note (.testsFailed attempt)
  if attempt ≤ 2 then orFail (completion.message settings.engineer)
  else
    unlessSuppressed completion (messageManager settings completion)
    note (.escalated taskId "tests_failed")
    unlessSuppressed completion (reportToManager settings completion)
    runKanban (completion.kanban.block taskId)
    clearActiveTask

def handleMergeSuccess (settings : CompletionSettings) (completion : Completion) (taskId : Nat) :
    CompletionAction Unit := do
  runKanban (completion.kanban.moveToDone taskId)
  messageManager settings completion
  reportToManager settings completion
  finishTask taskId

def handleMergeFailure (settings : CompletionSettings) (completion : Completion) (taskId : Nat) :
    CompletionAction Unit := do
  messageManager settings completion
  reportToManager settings completion
  orFail (completion.message settings.engineer)
  note (.escalated taskId "merge_failure")
  clearActiveTask

def mergeAtOnce (settings : CompletionSettings) (completion : Completion) (taskId : Nat) :
    CompletionAction Unit := do
  orFail completion.lock
  match ← orFail completion.merge with
  | .success => handleMergeSuccess settings completion taskId
  | .rebaseConflict _ => handleRebaseConflict settings completion taskId
  | .mergeFailure _ => handleMergeFailure settings completion taskId

/-- The ways on for what has passed. -/
inductive CompletionExit where
  | override | autoMerge | manualReview | mergeAtOnce
deriving DecidableEq

def completionExit (settings : CompletionSettings) (completion : Completion) : CompletionExit :=
  if settings.autoMergeOverride = some false then .override
  else if settings.autoMergeOverride = some true || settings.autoMergeEnabled then
    match completion.decision with
    | .ok .accepted => .autoMerge
    | .ok .manualReview => .manualReview
    | .error _ => .mergeAtOnce
  else .mergeAtOnce

def takeExit (settings : CompletionSettings) (completion : Completion) (taskId : Nat)
    (branch : String) : CompletionExit → CompletionAction Unit
  | .override => reviewByOverride settings completion taskId
  | .autoMerge => reviewWithPacket settings completion taskId branch
      (enqueueMergeRequest settings taskId branch)
  | .manualReview => reviewWithPacket settings completion taskId branch
      (finishForManualReview settings completion taskId)
  | .mergeAtOnce => mergeAtOnce settings completion taskId

/-- The verification is over: its state is dropped, and its outcome is on file. -/
def acceptVerification (settings : CompletionSettings) (completion : Completion) (taskId : Nat)
    (run : VerificationRunResult) (state : VerificationState) : CompletionAction String := do
  forgetNarration taskId
  let report := snapshotReport settings taskId { state with phase := .complete } run
  persistSnapshot completion taskId report (reportEdit report)
  modify fun daemon => { daemon with verification := none }
  let branch ← orFail completion.branch
  onBoard completion .previousResults do
    let path ← findTaskPath taskId
    discard (readWorkflowMetadata path)
  orFail completion.telemetry
  return branch

/-! ### The completion -/

/-- Take the state of the verification out of the daemon. -/
def takeVerification (settings : CompletionSettings) : CompletionAction VerificationState := do
  let daemon ← get
  set { daemon with verification := none }
  let state := daemon.verification.getD (.new settings.maxIterations)
  return { state with
    maxIterations := verificationRetryBudget settings.maxIterations
    evidence := []
    phase := .verifying }

def revertOutOfScope (completion : Completion) : Option ScopeFenceCheck → CompletionAction Unit
  | some check => if check.outOfScopeFiles.isEmpty then pure () else orFail completion.revert
  | none => pure ()

/-- What stands for a run when no tests are to be run. -/
def skippedRun : VerificationRunResult where
  passed := true
  output := "automatic verification skipped because " ++
    "workflow_policy.verification.auto_run_tests=false"
  failureSummary := "automatic verification skipped by policy"

/-- Run the tests. This is an attempt, unless the scope was left or not acknowledged. -/
def verifyCompletion (settings : CompletionSettings) (completion : Completion)
    (fence : Option ScopeFenceCheck) (state : VerificationState) :
    CompletionAction (VerificationRunResult × VerificationState) :=
  if fence.any ScopeFenceCheck.stops then do
    let run ← orFail completion.verification
    return (run, state)
  else if settings.autoRunTests then do
    let run ← orFail completion.verification
    return (run, state.beginIteration.tested run)
  else return (skippedRun, state.tested skippedRun)

/-- What the completion has to show. -/
def inspectWorktree (completion : Completion) : CompletionAction Findings := do
  let totalCommits ← orFail completion.commitsAhead
  let _ ← orFail completion.diffStat
  let filesChanged ← orFail completion.filesChanged
  let codeFilesChanged ← orFail completion.codeFilesChanged
  return { totalCommits, filesChanged, codeFilesChanged }

def collectEvidence (findings : Findings) (state : VerificationState) : VerificationState :=
  ((state.recordEvidence .commitsAhead (findings.totalCommits > 0)).recordEvidence .filesChanged
    (findings.filesChanged > 0)).recordEvidence .codeFilesChanged (findings.codeFilesChanged > 0)

/-- Judge a run: a wrong branch goes back at once, and what fails or shows nothing is rejected. -/
def judgeRun (settings : CompletionSettings) (completion : Completion) (taskId : Nat)
    (findings : Findings) (run : VerificationRunResult) (state : VerificationState) :
    CompletionAction (Option (String × VerificationRunResult)) :=
  match run.recovery with
  | some recovery => do
    recoverBranch settings completion taskId recovery run state
    return none
  | none =>
    if !findings.hasRequiredEvidence settings || !run.passed then do
      rejectCompletion settings completion taskId findings run state
      return none
    else do
      let branch ← acceptVerification settings completion taskId run state
      return some (branch, run)

/-- The branch and the run of what has passed the verification. -/
def verifyTask (settings : CompletionSettings) (completion : Completion) (taskId : Nat) :
    CompletionAction (Option (String × VerificationRunResult)) := do
  let findings ← inspectWorktree completion
  let state ← takeVerification settings
  let fence ← orFail completion.scopeFence
  revertOutOfScope completion fence
  let (run, state) ← verifyCompletion settings completion fence (collectEvidence findings state)
  judgeRun settings completion taskId findings run state

/-- What the daemon does when an engineer has completed a task. -/
def handleEngineerCompletion (settings : CompletionSettings) (completion : Completion) :
    CompletionAction Unit := do
  match (← get).activeTask with
  | none => return ()
  | some taskId =>
    if !settings.usesWorktrees then return ()
    else
      match ← verifyTask settings completion taskId with
      | none => return ()
      | some (branch, run) =>
        if run.passed then
          takeExit settings completion taskId branch (completionExit settings completion)
        else handleTestsFailed settings completion taskId

def notedSince (daemon next : CompletionDaemon) : List CompletionNote :=
  next.notes.drop daemon.notes.length

/-! ### What most steps leave alone -/

theorem notes_trans {P : CompletionNote → Prop} {first second third : List CompletionNote}
    (h : ∃ noted, second = first ++ noted ∧ ∀ entry ∈ noted, P entry)
    (h' : ∃ noted, third = second ++ noted ∧ ∀ entry ∈ noted, P entry) :
    ∃ noted, third = first ++ noted ∧ ∀ entry ∈ noted, P entry := by
  obtain ⟨noted, rfl, hnoted⟩ := h
  obtain ⟨noted', rfl, hnoted'⟩ := h'
  exact ⟨noted ++ noted', List.append_assoc .., List.forall_mem_append.mpr ⟨hnoted, hnoted'⟩⟩

/-- All but the board, the reports and the counts of completions without code stays as it is. -/
structure Still (daemon next : CompletionDaemon) : Prop where
  activeTask : next.activeTask = daemon.activeTask
  retryCount : next.retryCount = daemon.retryCount
  verification : next.verification = daemon.verification
  mergeQueue : next.mergeQueue = daemon.mergeQueue
  notes : next.notes = daemon.notes

instance : IsPreorder CompletionDaemon Still where
  refl _ := ⟨rfl, rfl, rfl, rfl, rfl⟩
  trans _ _ _ h h' := ⟨h'.activeTask.trans h.activeTask, h'.retryCount.trans h.retryCount,
    h'.verification.trans h.verification, h'.mergeQueue.trans h.mergeQueue,
    h'.notes.trans h.notes⟩

section

variable {settings : CompletionSettings} {completion : Completion} {taskId : Nat} {α : Type}

theorem still_onBoard (step : BoardStep) (command : DiskAction α) :
    Moves Still (onBoard completion step command) := by
  intro daemon
  unfold After onBoard
  cases command { daemon.disk with faults := completion.faults step, accesses := 0 } with
  | ok a disk => exact ⟨rfl, rfl, rfl, rfl, rfl⟩
  | error error disk => exact ⟨rfl, rfl, rfl, rfl, rfl⟩

theorem still_forgetNarration : Moves Still (forgetNarration taskId) :=
  moves_modify fun _ => ⟨rfl, rfl, rfl, rfl, rfl⟩

section

variable {R : CompletionDaemon → CompletionDaemon → Prop} [IsPreorder CompletionDaemon R]

theorem moves_messageManager : Moves R (messageManager settings completion) := by
  unfold messageManager
  split
  · exact moves_orFail _
  · exact moves_pure _

theorem moves_reportToManager : Moves R (reportToManager settings completion) := by
  unfold reportToManager
  split
  · exact moves_orFail _
  · exact moves_pure _

theorem moves_revertOutOfScope (fence : Option ScopeFenceCheck) :
    Moves R (revertOutOfScope completion fence) := by
  unfold revertOutOfScope
  split
  · split
    · exact moves_pure _
    · exact moves_orFail _
  · exact moves_pure _

end

theorem still_runKanban (tool : Board → Board) : Moves Still (runKanban tool) :=
  moves_modify fun _ => ⟨rfl, rfl, rfl, rfl, rfl⟩

theorem still_persistSnapshot (report : VerificationReport)
    (edit : WorkflowRecord → WorkflowRecord) :
    Moves Still (persistSnapshot completion taskId report edit) := by
  refine (moves_orFail _).bind fun _ => Moves.bind ?_ fun _ => still_onBoard _ _
  exact moves_modify fun _ => ⟨rfl, rfl, rfl, rfl, rfl⟩

theorem still_deliverVerificationRetry :
    Moves Still (deliverVerificationRetry settings completion taskId) := by
  refine Moves.bind ?_ fun delivered => ?_
  · unfold redispatch
    split
    · exact (still_onBoard _ _).attempt
    · exact moves_pure _
  · split
    · exact moves_pure _
    · exact moves_orFail _

theorem still_returnToEngineer (run : VerificationRunResult) (state : VerificationState) :
    Moves Still (returnToEngineer settings completion taskId run state) :=
  (still_persistSnapshot _ _).bind fun _ => still_deliverVerificationRetry

theorem still_countNarration (findings : Findings) :
    Moves Still (countNarration settings taskId findings) := by
  unfold countNarration
  split
  · refine Moves.bind ?_ fun _ => moves_get.bind fun _ => moves_pure _
    exact moves_modify fun _ => ⟨rfl, rfl, rfl, rfl, rfl⟩
  · exact moves_pure _

theorem still_transitionToReview : Moves Still (transitionToReview completion taskId) := by
  refine (still_onBoard _ _).attempt.bind fun result => ?_
  split
  · exact moves_pure _
  · exact (still_onBoard _ _).attempt.bind fun _ => (still_onBoard _ _).attempt.map

theorem still_assignReviewOwner : Moves Still (assignReviewOwner settings completion taskId) := by
  unfold assignReviewOwner
  split
  · exact (still_onBoard _ _).attempt.map
  · exact moves_pure _

theorem still_moveTaskToReview : Moves Still (moveTaskToReview settings completion taskId) := by
  refine (moves_orFail _).bind fun commitsAhead => ?_
  split
  · exact (moves_orFail _).bind fun _ => moves_pure _
  · exact still_transitionToReview.bind fun _ => still_assignReviewOwner.bind fun _ => moves_pure _

theorem still_verifyCompletion (fence : Option ScopeFenceCheck) (state : VerificationState) :
    Moves Still (verifyCompletion settings completion fence state) := by
  unfold verifyCompletion
  split
  · exact (moves_orFail _).bind fun _ => moves_pure _
  · split
    · exact (moves_orFail _).bind fun _ => moves_pure _
    · exact moves_pure _

theorem still_inspectWorktree : Moves Still (inspectWorktree completion) :=
  (moves_orFail _).bind fun _ => (moves_orFail _).bind fun _ => (moves_orFail _).bind fun _ =>
    (moves_orFail _).bind fun _ => moves_pure _

/-! A frame that a still step is within has only to be checked where more is changed. -/

section

variable {R : CompletionDaemon → CompletionDaemon → Prop} [IsPreorder CompletionDaemon R]
  (hstill : ∀ daemon next, Still daemon next → R daemon next)
include hstill

theorem moves_recoverBranch (hdropped : ∀ daemon, R daemon { daemon with verification := none })
    (recovery : VerificationRecovery) (run : VerificationRunResult) (state : VerificationState) :
    Moves R (recoverBranch settings completion taskId recovery run state) := by
  refine ((still_persistSnapshot _ _).mono hstill).bind fun _ => (moves_orFail _).bind fun _ => ?_
  exact moves_messageManager.bind fun _ => moves_modify hdropped

theorem moves_acceptVerification
    (hdropped : ∀ daemon, R daemon { daemon with verification := none })
    (run : VerificationRunResult) (state : VerificationState) :
    Moves R (acceptVerification settings completion taskId run state) := by
  refine (still_forgetNarration.mono hstill).bind fun _ => ?_
  refine ((still_persistSnapshot _ _).mono hstill).bind fun _ => ?_
  refine (moves_modify hdropped).bind fun _ => (moves_orFail _).bind fun _ => ?_
  refine ((still_onBoard _ _).mono hstill).bind fun _ => ?_
  exact (moves_orFail _).bind fun _ => moves_pure _

theorem moves_reviewByOverride (hfinish : Moves R (finishTask taskId)) :
    Moves R (reviewByOverride settings completion taskId) := by
  refine (still_moveTaskToReview.mono hstill).bind fun moved => ?_
  split
  · exact moves_pure _
  · exact moves_messageManager.bind fun _ => hfinish

/-- A packet that cannot be written is escalated. -/
theorem moves_reviewWithPacket {branch : String} {next : CompletionAction Unit}
    (hescalated : Moves R (note (.escalated taskId "completion_metadata_mismatch")))
    (hclear : Moves R clearActiveTask) (hnext : Moves R next) :
    Moves R (reviewWithPacket settings completion taskId branch next) := by
  refine (still_moveTaskToReview.mono hstill).bind fun moved => ?_
  split
  · exact moves_pure _
  · refine ((still_onBoard _ _).attempt.mono hstill).bind fun recorded => ?_
    split
    · exact hescalated.bind fun _ => moves_messageManager.bind fun _ => hclear
    · exact hnext

theorem moves_handleMergeSuccess (hfinish : Moves R (finishTask taskId)) :
    Moves R (handleMergeSuccess settings completion taskId) := by
  refine ((still_runKanban _).mono hstill).bind fun _ => moves_messageManager.bind fun _ => ?_
  exact moves_reportToManager.bind fun _ => hfinish

omit hstill in
theorem moves_handleMergeFailure
    (hescalates : Moves R (do note (.escalated taskId "merge_failure"); clearActiveTask)) :
    Moves R (handleMergeFailure settings completion taskId) := by
  refine moves_messageManager.bind fun _ => moves_reportToManager.bind fun _ => ?_
  exact (moves_orFail _).bind fun _ => hescalates

omit hstill in
theorem moves_handleRebaseConflict (hcounted : Moves R incrementRetry)
    (hnoted : ∀ attempt, Moves R (note (.rebaseConflict attempt)))
    (hescalates : Moves R (do
      note (.escalated taskId "merge_conflict")
      reportToManager settings completion
      runKanban (completion.kanban.block taskId)
      clearActiveTask)) :
    Moves R (handleRebaseConflict settings completion taskId) := by
  refine hcounted.bind fun attempt => (hnoted attempt).bind fun _ => ?_
  split
  · exact moves_orFail _
  · exact moves_messageManager.bind fun _ => hescalates

end

end

/-! ### An ordinary completion -/

/-- An engineer with the task with id 1. -/
def taskDaemon : CompletionDaemon where
  disk := loginDisk "in-progress"
  activeTask := some 1

/-- Everything goes well. -/
def plainCompletion : Completion where
  commitsAhead := .ok 1
  diffStat := .ok " 1 file changed"
  filesChanged := .ok 1
  codeFilesChanged := .ok 1
  scopeFence := .ok none
  revert := .ok ()
  verification := .ok { passed := true, output := "ok", failureSummary := "" }
  report := .ok ()
  target := .ok ()
  telemetry := .ok ()
  expectedHead := some "c0ffee"
  branch := .ok "eng-1/7"
  decision := .ok .accepted
  reviewCommits := .ok 1
  packetTarget := .ok ()
  headCommit := .ok "c0ffee"
  lock := .ok ()
  merge := .ok .success
  kanban := { moved := false, moveToDone := fun _ => id, block := fun _ => id }
  message := fun _ => .ok ()
  reports := .ok ()
  escalationSuppressed := false
  faults := fun _ _ => false

def plainSettings : CompletionSettings where
  engineer := "eng-1"
  managerName := some "manager"
  usesWorktrees := true
  worktreePath := ".batty/worktrees/eng-1"
  canDeliverAssignment := false
  site := { usesWorktrees := true, worktreePath := ".batty/worktrees/eng-1", launch := .ok () }
  maxIterations := 3
  autoRunTests := true
  requireEvidence := true
  autoMergeEnabled := true
  autoMergeOverride := none

end CompletionDaemon

end Batty
