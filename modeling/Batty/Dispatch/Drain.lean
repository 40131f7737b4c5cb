import Batty.Dispatch.Reconcile

/-!
# Draining the dispatch queue

`processDispatchQueue` takes the queue out of the daemon, decides for every entry what becomes of
it, and puts back those that are retained. What becomes of an entry is its `EntryFate`. Handling an
entry has two halves: `examineEntry` looks at everything that could speak against the dispatch
and settles the fate or admits the task; `claimAndLaunch` then claims the task on the board and
launches the engineer.
-/

namespace Batty

/-! ### Entries and their fates -/

/-- Why an entry is taken off the queue without a launch. -/
inductive DropReason where
  | stale | rescued | releaseExcluded | benched | alreadyInProgress | unmetBodyDependencies
  | everyoneBusy
deriving DecidableEq

/-- What becomes of a queue entry in a pass. -/
inductive EntryFate where
  | dropped (reason : DropReason)
  | retained (entry : DispatchQueueEntry)
  | escalated (entry : DispatchQueueEntry)
  | delivered (task : Task)

/-- What the pass puts back into the queue. -/
def EntryFate.kept : EntryFate → List DispatchQueueEntry
  | .retained entry => [entry]
  | _ => []

namespace DispatchQueueEntry

def failed (entry : DispatchQueueEntry) (failure : String) : DispatchQueueEntry :=
  { entry with
    validationFailures := entry.validationFailures + 1
    lastFailure := some failure }

def cleared (entry : DispatchQueueEntry) : DispatchQueueEntry :=
  { entry with validationFailures := 0, lastFailure := none }

end DispatchQueueEntry

/-- An entry that failed once more is retained until it reaches the limit, and then escalated. -/
def retainOrEscalate (entry : DispatchQueueEntry) (fallback : String) : Action EntryFate :=
  if entry.validationFailures ≥ dispatchQueueFailureLimit then do
    escalateDispatchQueueEntry entry (entry.lastFailure.getD fallback)
    return .escalated entry
  else return .retained entry

/-! ### The task of an entry -/

/-- The task is the entry's and could be dispatched now. -/
def Daemon.dispatchableFor (daemon : Daemon) (evidence : Evidence) (tasks : List Task)
    (calendar : Calendar) (entry : DispatchQueueEntry) (task : Task) : Bool :=
  let retryDispatchable := daemon.verificationRetryDispatchableTask evidence task true
  task.id = entry.taskId &&
  (task.status = "backlog" || task.status = "todo" || retryDispatchable) &&
  (task.claimedBy.isNone || retryDispatchable) &&
  task.blocked.isNone &&
  task.blockedOn.isNone &&
  !task.isScheduleBlocked calendar &&
  dependenciesSatisfied tasks task &&
  bodyDependenciesSatisfied tasks task

def taskForDispatchEntry (entry : DispatchQueueEntry) : Action (Option Task) := do
  let tasks ← onDisk loadTasks
  let evidence ← onDisk readEvidence
  let calendar ← ask fun outside => outside.calendar
  return tasks.find? ((← get).dispatchableFor evidence tasks calendar entry)

def hasUnmetDependencies (tasks : List Task) (blockedIds : List Nat) : Bool :=
  blockedIds.isEmpty || blockedIds.any fun id =>
    !tasks.any fun task => task.id = id && depStatusSatisfied task.status

def blockUnmetTask (task : Task) : Action Bool := do
  let _ ← attempt (onDisk (transitionTask task.id "blocked"))
  return true

/-- Check the dependencies named in the body once more; a task that has unmet ones is moved to
`blocked`. A board that cannot be read counts as empty. -/
def unmetBodyDependencies (task : Task) : Action Bool := do
  match parseBodyDependencyIds task.description with
  | none => return false
  | some blockedIds =>
    let loaded ← attempt (onDisk loadTasks)
    if hasUnmetDependencies (loaded.toOption.getD []) blockedIds then blockUnmetTask task
    else return false

/-! ### Passing an entry on -/

/-- The first of the names whose engineer has nothing active; an engineer whose items cannot be
counted is passed over. -/
def findFree : List String → Action (Option String)
  | [] => return none
  | name :: names => do
    match ← attempt (engineerActiveBoardItemCount name) with
    | .ok 0 => return some name
    | _ => findFree names

/-- An idle engineer to take the entry instead, other than those of entries already retained. -/
def findAlternative (retained : List DispatchQueueEntry) (engineer : String) :
    Action (Option String) := do
  findFree ((← get).idleEngineerNames.filter fun name =>
    name ≠ engineer && !(retained.map DispatchQueueEntry.engineer).contains name)

/-- The entry's engineer is busy: another takes it, or the entry waits; after too many failures
it is dropped without a word, for it will be queued again. -/
def passOn (retained : List DispatchQueueEntry) (entry : DispatchQueueEntry) (activeCount : Nat) :
    Action EntryFate := do
  match ← findAlternative retained entry.engineer with
  | some name => return .retained { entry.cleared with engineer := name }
  | none =>
    let entry := entry.failed <| "Dispatch guard blocked assignment for '" ++ entry.engineer ++
      s!"' with {activeCount} active board item(s); no idle alternative"
    if entry.validationFailures ≥ dispatchQueueFailureLimit then return .dropped .everyoneBusy
    else return .retained entry

/-! ### The worktree -/

/-- A worktree with work in it is rebased rather than reset, if that makes it ready. -/
def rebasedToReady (engineer : String) : Action Bool := do
  if ← ask fun outside question => outside.hasWork question engineer then
    if ← ask fun outside question => outside.rebase question engineer then
      return (← ask fun outside question => outside.readyForDispatch question engineer).isOk
    else return false
  else return false

/-- Recovery of a worktree that is not ready; the failure to be so is already on the entry. -/
def recoverWorktree (entry : DispatchQueueEntry) : Action EntryFate := do
  if ← rebasedToReady entry.engineer then return .retained entry.cleared
  else
    match ← ask fun outside question => outside.resetIfClean question entry.engineer with
    | .error error =>
      let entry := entry.failed error
      reportPreserveFailure entry.engineer none "dispatch/reset recovery" error
      retainOrEscalate entry "worktree readiness validation failed"
    | .ok (true, _) => return .retained entry.cleared
    | .ok (false, reason) =>
      let dir := (← get).outside.worktreeDir entry.engineer
      let entry := entry.failed <|
        s!"Batty could not safely auto-save dirty worktree {dir} before dispatch/reset recovery. " ++
        "Commit or clean the lane manually."
      reportPreserveFailure entry.engineer none "dispatch/reset recovery" reason
      return .retained entry

/-- The fate of an entry whose worktree is not ready. -/
def checkWorktree (entry : DispatchQueueEntry) : Action (Option EntryFate) := do
  if (← get).memberUsesWorktrees entry.engineer then
    match ← ask fun outside question => outside.readyForDispatch question entry.engineer with
    | .ok () => return none
    | .error error => some <$> recoverWorktree (entry.failed error)
  else return none

/-! ### Claim and launch -/

/-- What the engineer is told about the earlier attempts at the task. -/
def verificationRetryAssignmentContext (evidence : Evidence) (task : Task) : Option String :=
  ((evidence task.sourcePath).filter WorkflowMetadata.retryRequired).map fun metadata =>
    "\n".intercalate <|
      ["Verification retry required.", "Outcome: verification_retry_required."] ++
      (task.claimedBy.map fun owner => s!"Previous owner: {owner}.").toList ++
      (metadata.artifacts.getLast?.map fun artifact =>
        s!"Latest verification artifact: {artifact}.").toList

def assignmentMessage (evidence : Evidence) (task : Task) : String :=
  let message := s!"Task #{task.id}: {task.title}\n\n{task.description}"
  match verificationRetryAssignmentContext evidence task with
  | some context => s!"{message}\n\n{context}"
  | none => message

def assignTaskWithTaskId (engineer message : String) (taskId : Nat) : Action Unit := do
  let launch ← ask fun outside question => outside.launch question engineer taskId
  orFail launch
  modify fun daemon => { daemon with launched := daemon.launched ++ [(engineer, taskId, message)] }
  markMemberWorking engineer

/-- The daemon's records after an assignment. -/
def noteDispatched (engineer : String) (taskId : Nat) : Action Unit := do
  modify fun daemon => { daemon with
    activeTasks := daemon.activeTasks.insert engineer taskId
    retryCounts := Function.update daemon.retryCounts engineer none }
  noteRecentDispatch taskId engineer

/-- Launch the engineer on the task that was claimed for it. -/
def launchTask (entry : DispatchQueueEntry) (task : Task) : Action EntryFate := do
  let evidence ← onDisk readEvidence
  match ← attempt (assignTaskWithTaskId entry.engineer (assignmentMessage evidence task) task.id) with
  | .ok () =>
    noteDispatched entry.engineer task.id
    return .delivered task
  | .error error => retainOrEscalate (entry.failed error) "assignment launch failed"

/-- Claim the task for the entry's engineer and launch. -/
def claimAndLaunch (entry : DispatchQueueEntry) (task : Task) : Action EntryFate := do
  match ← onDisk (claimTask entry.engineer task) with
  | .error error =>
    retainOrEscalate (entry.failed s!"board transition failed: {error}") "board transition failed"
  | .ok () => launchTask entry task

/-! ### One entry -/

/-- The examination of an entry settles its fate, or admits its task to be claimed. -/
inductive Verdict where
  | settled (fate : EntryFate)
  | admitted (task : Task)

/-- The engineer's active items, less the retried task itself if it is the engineer's own. -/
def effectiveActiveCount (retryDispatchable : Bool) (entry : DispatchQueueEntry) (task : Task)
    (activeCount : Nat) : Nat :=
  if retryDispatchable && task.claimedBy = some entry.engineer then activeCount - 1
  else activeCount

/-- The capacity of the engineer, and then its worktree. -/
def examineEngineer (retained : List DispatchQueueEntry) (entry : DispatchQueueEntry) (task : Task)
    (activeCount : Nat) : Action Verdict := do
  if activeCount > 0 then .settled <$> passOn retained entry activeCount
  else if !(← get).config.checkWipLimit activeCount then
    .settled <$> retainOrEscalate (entry.failed <| "WIP gate blocked dispatch for '" ++
      entry.engineer ++ s!"' with {activeCount} active board task(s)") "wip gate blocked dispatch"
  else
    match ← checkWorktree entry with
    | some fate => return .settled fate
    | none => return .admitted task

/-- The stages for an entry whose engineer is idle and whose task can be dispatched. -/
def examineTask (retained : List DispatchQueueEntry) (entry : DispatchQueueEntry) (task : Task) :
    Action Verdict := do
  let evidence ← onDisk readEvidence
  let retryDispatchable := (← get).verificationRetryDispatchableTask evidence task true
  if task.status = "in-progress" && !retryDispatchable then
    return .settled (.dropped .alreadyInProgress)
  else if ← unmetBodyDependencies task then return .settled (.dropped .unmetBodyDependencies)
  else
    let activeCount ← engineerActiveBoardItemCount entry.engineer
    examineEngineer retained entry task
      (effectiveActiveCount retryDispatchable entry task activeCount)

/-- An engineer who is said to work but has no task is idle. -/
def recoverStuckMember (engineer : String) : Action Unit := do
  let daemon ← get
  if daemon.states engineer = some .working && (daemon.activeTasks.lookup engineer).isNone then
    setMemberState engineer .idle
  else pure ()

/-- The stages for an entry that is not out of date. -/
def examineCurrent (retained : List DispatchQueueEntry) (entry : DispatchQueueEntry) :
    Action Verdict := do
  recoverStuckMember entry.engineer
  if (← get).states entry.engineer ≠ some .idle then return .settled (.retained entry)
  else if ← shouldHoldDispatchForStabilization entry.engineer then
    return .settled (.retained entry)
  else
    match ← taskForDispatchEntry entry with
    | none => return .settled (.dropped .stale)
    | some task => examineTask retained entry task

/-- Everything that is looked at before the claim, given the engineers that are benched, the tasks
in their rescue cooldown and the entries retained so far. -/
def examineEntry (benched : List String) (rescued : List Nat) (retained : List DispatchQueueEntry)
    (entry : DispatchQueueEntry) : Action Verdict := do
  if (← taskForDispatchEntry entry).isNone then return .settled (.dropped .stale)
  else if rescued.contains entry.taskId then return .settled (.dropped .rescued)
  else if ← isReleaseExcluded entry.taskId entry.engineer then
    return .settled (.dropped .releaseExcluded)
  else if benched.contains entry.engineer then return .settled (.dropped .benched)
  else examineCurrent retained entry

/-- What becomes of an entry. -/
def handleEntry (benched : List String) (rescued : List Nat) (retained : List DispatchQueueEntry)
    (entry : DispatchQueueEntry) : Action EntryFate := do
  match ← examineEntry benched rescued retained entry with
  | .settled fate => return fate
  | .admitted task => claimAndLaunch entry task

/-! ### The pass -/

/-- One round of the drain: settle the fate of an entry and keep what it leaves. -/
def drainEntry (benched : List String) (rescued : List Nat) (retained : List DispatchQueueEntry)
    (entry : DispatchQueueEntry) : Action (List DispatchQueueEntry) := do
  let fate ← handleEntry benched rescued retained entry
  return retained ++ fate.kept

def benchedEngineerNames : Action (List String) := do
  let benched ← ask fun outside => outside.benchedEngineers
  orFail benched

def takeQueue : Action (List DispatchQueueEntry) := do
  let daemon ← get
  set { daemon with dispatchQueue := [] }
  return daemon.dispatchQueue

/-- What a pass knows before it takes the queue. -/
def preparePass : Action (List String × List Nat) := do
  reconcileActiveTasks
  let benched ← benchedEngineerNames
  let rescued ← rescuedTaskIds
  return (benched, rescued)

def processDispatchQueue : Action Unit := do
  let (benched, rescued) ← preparePass
  let pending ← takeQueue
  let retained ← pending.foldlM (drainEntry benched rescued) []
  modify fun daemon => { daemon with dispatchQueue := retained }

end Batty
