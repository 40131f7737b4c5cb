import Batty.Dispatch.Roster
import Batty.Foundation.Loops

/-!
# Reconciling active tasks

Before it looks at the queue, a pass brings the daemon's record of who works on what in line with
the board: entries of `activeTasks` that the board contradicts are cleared, an engineer with
several claims keeps one of them, worktrees are aligned with claimed tasks now and then, and tasks
that nobody works on are rescued back to `todo`.

Apart from the claims it releases, what reconciliation writes to the board it writes without
looking back: the errors of the rescues are ignored.

The clean-up of worktrees of members that are no longer configured is left out; it touches git
alone and its errors are only logged.
-/

namespace Batty

def loadBoardTasks : Action (List Task) := do
  if ← ask fun outside => outside.tasksDirExists then onDisk loadTasks else return []

def noteIntervention (key : String) (time : Nat) : Action Unit :=
  modify fun daemon => { daemon with
    interventionCooldowns := Function.update daemon.interventionCooldowns key (some time) }

/-- The audit of worktrees is due; if so, it is noted as done now. -/
def stateReconciliationAuditDue : Action Bool := do
  let time ← now
  let daemon ← get
  let interval := fromSecs daemon.config.stateReconciliationIntervalSecs
  if (daemon.interventionCooldowns "state-reconciliation::audit").all (interval ≤ time - ·) then
    noteIntervention "state-reconciliation::audit" time
    return true
  else return false

/-! ### Stale entries -/

/-- Why a task is no longer the active one of its engineer. -/
inductive StaleReason where
  | done | archived | review | blocked | missing | unclaimed
deriving DecidableEq

/-- The engineer a claim means: an engineer's own name, or a role that one engineer has. -/
def resolveEngineerClaim (members : List MemberInstance) (claim : String) : Option String :=
  match members.find? fun member => member.name = claim && member.roleType = .engineer with
  | some member => some member.name
  | none =>
    match members.filter fun member => member.roleName = claim && member.roleType = .engineer with
    | [member] => some member.name
    | _ => none

/-- Why the board contradicts that the engineer works on the task, if it does. -/
def staleReason (members : List MemberInstance) (tasks : List Task) (engineer : String)
    (taskId : Nat) : Option StaleReason :=
  match tasks.find? fun task => task.id = taskId with
  | none => some .missing
  | some task =>
    if task.status = "done" then some .done
    else if task.status = "archived" then some .archived
    else if task.status = "review" then some .review
    else if task.status = "blocked" then some .blocked
    else if task.claimedBy ≠ some engineer &&
        task.claimedBy.bind (resolveEngineerClaim members) ≠ some engineer then some .unclaimed
    else none

def staleActiveTasks (daemon : Daemon) (tasks : List Task) : List (String × Nat × StaleReason) :=
  daemon.activeTasks.entries.filterMap fun entry =>
    (staleReason daemon.config.members tasks entry.1 entry.2).map fun reason =>
      (entry.1, entry.2, reason)

/-- The lane of a finished task is put aside before its entry is cleared; if that fails the task
is blocked and the entry stays. -/
def preserveLane (engineer : String) (taskId : Nat) (reason : StaleReason) : Action Bool := do
  if reason = .done || reason = .archived then
    if ← ask fun outside question => outside.worktreeExists question engineer then
      match ← ask fun outside question => outside.quarantine question engineer taskId with
      | .ok () => return true
      | .error error =>
        reportPreserveFailure engineer (some taskId) "completed-task cleanup/reset" error
        return false
    else return true
  else return true

def releaseStaleClaim (taskId : Nat) (reason : StaleReason) : Action Bool := do
  if reason = .review || reason = .blocked then
    onDisk (releaseEngineerClaim taskId)
    return true
  else return false

/-- An engineer who gave up the task itself is not to get it back at once. -/
def noteStaleRelease (engineer : String) (taskId : Nat) (reason : StaleReason) : Action Unit :=
  if reason = .unclaimed then recordTaskReleaseBy taskId engineer else pure ()

/-- Clear one stale entry; whether a claim has been released so far is passed along. -/
def clearStale (released : Bool) (stale : String × Nat × StaleReason) : Action Bool := do
  let (engineer, taskId, reason) := stale
  if ← preserveLane engineer taskId reason then
    let releases ← releaseStaleClaim taskId reason
    noteStaleRelease engineer taskId reason
    clearActiveTask engineer
    return released || releases
  else return released

/-! ### Ownership -/

/-- A claimed task in this state is for its engineer to move. -/
def taskNeedsOwnedIntervention (status : String) : Bool :=
  status ≠ "review" && status ≠ "done" && status ≠ "archived"

def Task.isOwnedBy (task : Task) (engineer : String) : Bool :=
  task.claimedBy = some engineer && taskNeedsOwnedIntervention task.status

/-- Among several claims the more urgent one counts, then the older; a time that cannot be read
counts as the oldest. -/
def ownedTaskCollisionBefore (calendar : Calendar) (task task' : Task) : Bool :=
  let rank := dispatchPriorityRank task.priority
  let rank' := dispatchPriorityRank task'.priority
  if rank ≠ rank' then rank < rank'
  else if task.claimedAt.isNone ≠ task'.claimedAt.isNone then task'.claimedAt.isNone
  else
    match task.claimedAt.bind calendar.instantOf, task'.claimedAt.bind calendar.instantOf with
    | none, some _ => true
    | some _, none => false
    | some instant, some instant' =>
      if instant ≠ instant' then instant < instant' else task.id < task'.id
    | none, none => task.id < task'.id

/-- The claimed task that is kept: of several the one the engineer is tracked on, if any. With a
single claim, the tie-breakers by branch and worktree could only pick that one. -/
def authoritativeId (daemon : Daemon) (calendar : Calendar) (engineer : String)
    (claimed : List Task) (first : Task) : Nat :=
  if claimed.length > 1 then
    ((daemon.activeTasks.lookup engineer).filter fun taskId =>
      claimed.any fun task => task.id = taskId).getD
        (claimed.foldl (fun kept task =>
          if ownedTaskCollisionBefore calendar task kept then task else kept) first).id
  else first.id

def authoritativeTaskBranch (engineer : String) (task : Task) : String :=
  task.branch.getD s!"{engineer}/{task.id}"

/-- Give up a claim beyond the one that is kept, unless the task waits for a retry. -/
def reclaimExcess (engineer : String) (keptId : Nat) (released : Bool) (task : Task) :
    Action Bool := do
  let evidence ← onDisk readEvidence
  if verificationRetryRequired evidence task then return released
  else
    onDisk <| reclaimTaskClaim task.id <|
      s!"Reclaimed during reconciliation while {engineer} retained authoritative task #{keptId}."
    return true

def orphanBranchMismatchKey (engineer : String) (taskId : Nat) : String :=
  s!"orphan-branch-mismatch::{engineer}::{taskId}"

def setRetryCount (key : String) (count : Option Nat) : Action Unit :=
  modify fun daemon => { daemon with retryCounts := Function.update daemon.retryCounts key count }

/-- The worktree of a claimed task could not be aligned with it, again. A task under way that ran
out of attempts is `exhausted`. -/
structure LaneFailure where
  task : Task
  mismatch : ClaimedTaskBranchMismatch
  reason : String
  exhausted : Bool

/-- Count a failed attempt at a task under way. -/
def countBranchMismatch (engineer : String) (task : Task) : Action Bool := do
  if task.status ≠ "in-progress" then return false
  else
    let key := orphanBranchMismatchKey engineer task.id
    let attempts := ((← get).retryCounts key).getD 0 + 1
    setRetryCount key (some attempts)
    return (← get).config.orphanBranchMismatchMaxAttempts ≤ attempts

def alertClaimedTaskBranchMismatch (engineer : String) (mismatch : ClaimedTaskBranchMismatch)
    (reason : String) : Action Unit := do
  let time ← now
  let daemon ← get
  let key := s!"claimed-branch-mismatch::{engineer}"
  let cooldown := fromSecs (max daemon.config.interventionCooldownSecs 60)
  if (daemon.interventionCooldowns key).any fun last => time - last < cooldown then return ()
  else
    noteIntervention key time
    let _ ← attempt <| queueDaemonMessage (daemon.assignmentSender engineer) <|
      s!"Reconciliation alert: {engineer} is claimed on task #{mismatch.taskId} but the worktree " ++
      "is on '" ++ mismatch.currentBranch ++ "' instead of '" ++ mismatch.expectedBranch ++
      "'. Batty will refuse new assignment and suppress automation nudges until the branch is " ++
      s!"corrected manually. Reason: {reason}."
    let _ ← attempt <| queueDaemonMessage engineer <|
      s!"Branch/task mismatch detected for task #{mismatch.taskId}. Current branch: '" ++
      mismatch.currentBranch ++ "'. Expected branch: '" ++ mismatch.expectedBranch ++
      s!"'. {reason} Resolve it manually before continuing."

/-- A task whose worktree cannot be aligned goes back to `todo` when it is exhausted. -/
def settleLaneFailure (engineer : String) (failure : LaneFailure) : Action Unit := do
  if failure.exhausted then
    let _ ← onDisk (giveBackTask failure.task)
    clearActiveTask engineer
    setRetryCount (orphanBranchMismatchKey engineer failure.task.id) none
    alertClaimedTaskBranchMismatch engineer failure.mismatch failure.reason
  else alertClaimedTaskBranchMismatch engineer failure.mismatch failure.reason

/-- Save what is uncommitted on the present branch; the error of the save, if it fails. -/
def saveBeforeRecovery (engineer : String) : Action (Option String) := do
  let changes ← ask fun outside question => outside.hasUserChanges question engineer
  if ← orFail changes then
    match ← ask fun outside question => outside.autoSave question engineer with
    | .ok _ => return none
    | .error error => return some error
  else return none

def switchToExpected (engineer : String) (mismatch : ClaimedTaskBranchMismatch) :
    Action (Except String Unit) := do
  let found ← ask fun outside question => outside.branchExists question mismatch.expectedBranch
  let found ← orFail (found.mapError fun error => s!"failed to inspect expected branch: {error}")
  let result ← ask fun outside question =>
    outside.checkout question engineer mismatch.expectedBranch
  return result.mapError fun error =>
    if found then s!"failed to checkout expected branch: {error}"
    else s!"failed to create expected branch from main: {error}"

/-- Save and switch; the reason if that fails. -/
def recoverBranch (engineer : String) (mismatch : ClaimedTaskBranchMismatch) :
    Action (Option String) := do
  match ← saveBeforeRecovery engineer with
  | some error => return some s!"failed to auto-save dirty worktree before recovery: {error}"
  | none =>
    match ← switchToExpected engineer mismatch with
    | .ok () =>
      setRetryCount (orphanBranchMismatchKey engineer mismatch.taskId) none
      return none
    | .error error => return some error

def alignBranch (engineer : String) (mismatch : ClaimedTaskBranchMismatch) :
    Action (Option String) := do
  if mismatch.currentBranch = mismatch.expectedBranch then
    setRetryCount (orphanBranchMismatchKey engineer mismatch.taskId) none
    return none
  else if mismatch.currentBranch = "HEAD" then
    return some "worktree is in detached HEAD state"
  else recoverBranch engineer mismatch

def alignLane (engineer : String) (task : Task) (currentBranch : String) :
    Action (Option LaneFailure) := do
  let mismatch : ClaimedTaskBranchMismatch :=
    { taskId := task.id
      expectedBranch := authoritativeTaskBranch engineer task
      currentBranch }
  match ← alignBranch engineer mismatch with
  | none => return none
  | some reason =>
    let exhausted ← countBranchMismatch engineer task
    let reason := s!"automatic branch recovery blocked: {reason}"
    return some { task, mismatch, reason, exhausted }

def maybeAlignEngineerWorktreeWithTask (engineer : String) (task : Task) :
    Action (Option LaneFailure) := do
  if (((← get).config.member? engineer).map MemberInstance.useWorktrees).getD false then
    if ← ask fun outside question => outside.worktreeExists question engineer then
      match ← ask fun outside question => outside.currentBranch question engineer with
      | .error _ => return none
      | .ok currentBranch => alignLane engineer task currentBranch
    else return none
  else return none

def setActiveTask (engineer : String) (taskId : Nat) : Action Unit :=
  modify fun daemon =>
    if daemon.activeTasks.lookup engineer = some taskId then daemon
    else { daemon with activeTasks := daemon.activeTasks.insert engineer taskId }

def auditOwnership (engineer : String) (claimed : List Task) (keptId : Nat) (auditDue : Bool) :
    Action (Option LaneFailure) :=
  if auditDue then
    match claimed.find? fun task => task.id = keptId with
    | some task => maybeAlignEngineerWorktreeWithTask engineer task
    | none => pure none
  else pure none

/-- The engineer keeps one of the tasks it claims, and its worktree is aligned with that one when
an audit is due. Whether claims were given up is returned, and the failure to align. -/
def normalizeEngineerActiveTaskOwnership (tasks : List Task) (engineer : String)
    (auditDue : Bool) : Action (Bool × Option LaneFailure) := do
  match tasks.filter fun task => task.isOwnedBy engineer with
  | [] => return (false, none)
  | first :: rest =>
    let calendar ← ask fun outside => outside.calendar
    let claimed := first :: rest
    let keptId := authoritativeId (← get) calendar engineer claimed first
    setActiveTask engineer keptId
    let excess := if rest = [] then [] else claimed.filter fun task => task.id ≠ keptId
    let released ← excess.foldlM (reclaimExcess engineer keptId) false
    let failure ← auditOwnership engineer claimed keptId auditDue
    return (released, failure)

def settleLane (engineer : String) : Option LaneFailure → Action Unit
  | none => pure ()
  | some failure => settleLaneFailure engineer failure

/-- One round over the engineers; the board is read anew when claims were given up. -/
def normalizeEngineer (auditDue : Bool) (tasks : List Task) (engineer : String) :
    Action (List Task) := do
  let (released, failure) ← normalizeEngineerActiveTaskOwnership tasks engineer auditDue
  settleLane engineer failure
  if released then loadBoardTasks else return tasks

/-! ### Rescues -/

def reviewRescueGraceSecs : Nat := 600

/-- A task in review without a reviewer goes back to `todo`, once it has been there for a while. -/
def rescueReview (tracked : List Nat) (task : Task) : Action Unit := do
  if task.status = "review" && task.reviewOwner.isNone && !tracked.contains task.id then
    let age ← ask fun outside question => outside.taskFileAgeSecs question task.sourcePath
    if age.any (· < reviewRescueGraceSecs) then return ()
    else
      let _ ← onDisk (returnReviewToTodo task)
      recordTaskRescue task.id
  else return ()

def cascadeBlockReason : String :=
  "orphan-rescue cascade: task was claimed and released repeatedly by different engineers " ++
  "within the cascade window. Likely causes: wrong role/assignee, ambiguous ownership, " ++
  "or the task body already describes completed/parked work. Manager triage required " ++
  "before returning to todo."

def notifyCascade (taskId : Nat) : Action Unit := do
  match firstManagerName (← get).config.members with
  | none => return ()
  | some manager =>
    discard <| attempt <| queueDaemonMessage manager <|
      s!"Task #{taskId} has been orphan-rescued repeatedly — engineers keep claiming it and " ++
      "releasing within seconds. I moved it to `blocked` so dispatch stops re-cycling it. " ++
      "Please review the task body and either (a) correct the assignee/role if it's been routed " ++
      "to the wrong discipline, (b) split or clarify the spec if engineers are refusing because " ++
      "ownership is ambiguous, or (c) transition it to done if the body already documents " ++
      "gate-pass or parked state. Then unblock it (remove `blocked`/`blocked_on`) or move " ++
      "directly to the correct terminal status."

/-- The task keeps being claimed and released: it is blocked for the manager to look at. -/
def blockCascading (task : Task) : Action Unit := do
  match ← attempt (onDisk (blockTaskWithReason task.id cascadeBlockReason)) with
  | .ok () => notifyCascade task.id
  | .error _ => return ()

def isRepeatInCascade (taskId : Nat) : Action Bool := do
  let time ← now
  let daemon ← get
  return (daemon.recentlyRescuedTasks.lookup taskId).any fun record =>
    record.inCascadeWindow daemon.rescueBase time

/-- A task under way that nobody has claimed goes back to `todo`, or is blocked if that happens
again and again. -/
def rescueInProgress (tracked : List Nat) (task : Task) : Action Unit := do
  if task.status = "in-progress" && task.claimedBy.isNone && !tracked.contains task.id then
    if ← isRepeatInCascade task.id then
      blockCascading task
      recordTaskRescue task.id
    else
      let _ ← attempt (onDisk (transitionRescued task "todo"))
      recordTaskRescue task.id
  else return ()

/-! ### The whole -/

def clearStaleTasks (tasks : List Task) : Action (List Task) := do
  let stale := staleActiveTasks (← get) tasks
  let released ← stale.foldlM clearStale false
  if released then loadBoardTasks else return tasks

/-- Bring the active tasks in line with the board. -/
def reconcileActiveTasks : Action Unit := do
  let tasks ← loadBoardTasks
  let auditDue ← stateReconciliationAuditDue
  let tasks ← clearStaleTasks tasks
  let engineers := (← get).config.engineerNames
  let tasks ← engineers.foldlM (normalizeEngineer auditDue) tasks
  let tracked := (← get).activeTasks.entries.map Sigma.snd
  tasks.foldlM (fun _ task => rescueReview tracked task) ()
  tasks.foldlM (fun _ task => rescueInProgress tracked task) ()

/-! ### What reconciliation leaves alone -/

section

theorem moves_loadBoardTasks : Moves Daemon.Quiet loadBoardTasks := by
  refine (moves_ask _).toQuiet.bind fun found => ?_
  split
  · exact moves_loadTasks.toQuiet
  · exact moves_pure _

theorem moves_noteIntervention (key : String) (time : Nat) :
    Moves Daemon.Quiet (noteIntervention key time) :=
  moves_modify_quiet fun _ => ⟨rfl, rfl, rfl, rfl, rfl, rfl, rfl⟩

theorem moves_setRetryCount (key : String) (count : Option Nat) :
    Moves Daemon.Quiet (setRetryCount key count) :=
  moves_modify_quiet fun _ => ⟨rfl, rfl, rfl, rfl, rfl, rfl, rfl⟩

theorem moves_stateReconciliationAuditDue : Moves Daemon.Quiet stateReconciliationAuditDue := by
  refine moves_now.toQuiet.bind fun time => moves_get.bind fun daemon => ?_
  dsimp only
  split
  · exact (moves_noteIntervention _ _).bind fun _ => moves_pure _
  · exact moves_pure _

theorem moves_alertClaimedTaskBranchMismatch (engineer : String)
    (mismatch : ClaimedTaskBranchMismatch) (reason : String) :
    Moves Daemon.Quiet (alertClaimedTaskBranchMismatch engineer mismatch reason) := by
  refine moves_now.toQuiet.bind fun time => moves_get.bind fun daemon => ?_
  dsimp only
  split
  · exact moves_pure _
  · exact (moves_noteIntervention _ _).bind fun _ => (moves_queueDaemonMessage _ _).toQuiet.attempt.bind
      fun _ => (moves_queueDaemonMessage _ _).toQuiet.attempt.bind fun _ => moves_pure _

theorem moves_saveBeforeRecovery (engineer : String) :
    Moves Daemon.Quiet (saveBeforeRecovery engineer) := by
  refine (moves_ask _).toQuiet.bind fun changes => (moves_orFail _).bind fun dirty => ?_
  split
  · refine (moves_ask _).toQuiet.bind fun saved => ?_
    split <;> exact moves_pure _
  · exact moves_pure _

theorem moves_switchToExpected (engineer : String) (mismatch : ClaimedTaskBranchMismatch) :
    Moves Daemon.Quiet (switchToExpected engineer mismatch) :=
  (moves_ask _).toQuiet.bind fun _ => (moves_orFail _).bind fun _ => (moves_ask _).toQuiet.bind fun _ =>
    moves_pure _

theorem moves_setActiveTask (engineer : String) (taskId : Nat) :
    Moves Daemon.Quiet (setActiveTask engineer taskId) := by
  refine moves_modify_quiet fun daemon => ?_
  split <;> exact ⟨rfl, rfl, rfl, rfl, rfl, rfl, rfl⟩

theorem moves_notifyCascade (taskId : Nat) : Moves Daemon.Quiet (notifyCascade taskId) := by
  refine moves_get.bind fun daemon => ?_
  split
  · exact moves_pure _
  · exact (moves_queueDaemonMessage _ _).toQuiet.attempt.map

theorem moves_isRepeatInCascade (taskId : Nat) : Moves Daemon.Quiet (isRepeatInCascade taskId) :=
  moves_now.toQuiet.bind fun _ => moves_get.bind fun _ => moves_pure _

theorem moves_recoverBranch (engineer : String) (mismatch : ClaimedTaskBranchMismatch) :
    Moves Daemon.Quiet (recoverBranch engineer mismatch) := by
  refine (moves_saveBeforeRecovery _).bind fun failure => ?_
  cases failure with
  | some error => exact moves_pure _
  | none =>
    refine (moves_switchToExpected _ _).bind fun result => ?_
    cases result with
    | ok _ => exact (moves_setRetryCount _ _).bind fun _ => moves_pure _
    | error error => exact moves_pure _

theorem moves_alignBranch (engineer : String) (mismatch : ClaimedTaskBranchMismatch) :
    Moves Daemon.Quiet (alignBranch engineer mismatch) := by
  unfold alignBranch
  split
  · exact (moves_setRetryCount _ _).bind fun _ => moves_pure _
  · split
    · exact moves_pure _
    · exact moves_recoverBranch _ _

theorem moves_countBranchMismatch (engineer : String) (task : Task) :
    Moves Daemon.Quiet (countBranchMismatch engineer task) := by
  unfold countBranchMismatch
  split
  · exact moves_pure _
  · exact moves_get.bind fun _ => (moves_setRetryCount _ _).bind fun _ => moves_get.bind fun _ =>
      moves_pure _

theorem moves_alignLane (engineer : String) (task : Task) (currentBranch : String) :
    Moves Daemon.Quiet (alignLane engineer task currentBranch) := by
  refine (moves_alignBranch _ _).bind fun failure => ?_
  cases failure with
  | none => exact moves_pure _
  | some reason => exact (moves_countBranchMismatch _ _).bind fun _ => moves_pure _

theorem moves_auditOwnership (engineer : String) (claimed : List Task) (keptId : Nat)
    (auditDue : Bool) : Moves Daemon.Quiet (auditOwnership engineer claimed keptId auditDue) := by
  unfold auditOwnership
  split
  · split
    · refine moves_get.bind fun daemon => ?_
      split
      · refine (moves_ask _).toQuiet.bind fun found => ?_
        split
        · refine (moves_ask _).toQuiet.bind fun branch => ?_
          cases branch with
          | error error => exact moves_pure _
          | ok branch => exact moves_alignLane _ _ _
        · exact moves_pure _
      · exact moves_pure _
    · exact moves_pure _
  · exact moves_pure _

theorem moves_reclaimExcess (engineer : String) (keptId : Nat) (released : Bool) (task : Task) :
    Moves Daemon.Stays (reclaimExcess engineer keptId released task) := by
  refine moves_readEvidence.toQuiet.toStays.bind fun evidence => ?_
  split
  · exact moves_pure _
  · exact (moves_onDisk (moves_rewriteTask _ (editsTasks_reclaim _) _)).bind fun _ => moves_pure _

theorem moves_normalizeEngineerActiveTaskOwnership (tasks : List Task) (engineer : String)
    (auditDue : Bool) :
    Moves Daemon.Stays (normalizeEngineerActiveTaskOwnership tasks engineer auditDue) := by
  unfold normalizeEngineerActiveTaskOwnership
  split
  · exact moves_pure _
  · exact (moves_ask _).toQuiet.toStays.bind fun _ => moves_get.bind fun _ =>
      (moves_setActiveTask _ _).toStays.bind fun _ =>
        (moves_foldlM (moves_reclaimExcess _ _) _ _).bind fun _ =>
          (moves_auditOwnership _ _ _ _).toStays.bind fun _ => moves_pure _

theorem moves_settleLane (engineer : String) (failure : Option LaneFailure) :
    Moves Daemon.Stays (settleLane engineer failure) := by
  cases failure with
  | none => exact moves_pure _
  | some failure =>
    rw [settleLane, settleLaneFailure]
    split
    · exact (moves_onDisk (moves_giveBackTask _)).bind fun _ =>
        (moves_clearActiveTask _).toStays.bind fun _ => (moves_setRetryCount _ _).toStays.bind
          fun _ => (moves_alertClaimedTaskBranchMismatch _ _ _).toStays
    · exact (moves_alertClaimedTaskBranchMismatch _ _ _).toStays

theorem moves_normalizeEngineer (auditDue : Bool) (tasks : List Task) (engineer : String) :
    Moves Daemon.Stays (normalizeEngineer auditDue tasks engineer) := by
  refine (moves_normalizeEngineerActiveTaskOwnership _ _ _).bind fun result => ?_
  refine (moves_settleLane _ _).bind fun _ => ?_
  split
  · exact moves_loadBoardTasks.toStays
  · exact moves_pure _

theorem moves_preserveLane (engineer : String) (taskId : Nat) (reason : StaleReason) :
    Moves Daemon.Stays (preserveLane engineer taskId reason) := by
  unfold preserveLane
  split
  · refine (moves_ask _).toQuiet.toStays.bind fun found => ?_
    split
    · refine (moves_ask _).toQuiet.toStays.bind fun result => ?_
      cases result with
      | ok _ => exact moves_pure _
      | error error => exact (moves_reportPreserveFailure _ _ _ _).bind fun _ => moves_pure _
    · exact moves_pure _
  · exact moves_pure _

theorem moves_releaseStaleClaim (taskId : Nat) (reason : StaleReason) :
    Moves Daemon.Stays (releaseStaleClaim taskId reason) := by
  unfold releaseStaleClaim
  split
  · exact (moves_onDisk (moves_editTask _ editsTasks_releaseClaim)).bind fun _ => moves_pure _
  · exact moves_pure _

theorem moves_noteStaleRelease (engineer : String) (taskId : Nat) (reason : StaleReason) :
    Moves Daemon.Onward (noteStaleRelease engineer taskId reason) := by
  unfold noteStaleRelease
  split
  · exact moves_recordTaskReleaseBy _ _
  · exact moves_pure _

theorem moves_clearStale (released : Bool) (stale : String × Nat × StaleReason) :
    Moves Daemon.Onward (clearStale released stale) := by
  obtain ⟨engineer, taskId, reason⟩ := stale
  refine (moves_preserveLane _ _ _).toOnward.bind fun preserved => ?_
  split
  · refine (moves_releaseStaleClaim _ _).toOnward.bind fun releases => ?_
    exact (moves_noteStaleRelease _ _ _).bind fun _ =>
      (moves_clearActiveTask _).toStays.toOnward.bind fun _ => moves_pure _
  · exact moves_pure _

theorem moves_clearStaleTasks (tasks : List Task) :
    Moves Daemon.Onward (clearStaleTasks tasks) := by
  refine moves_get.bind fun daemon => (moves_foldlM moves_clearStale _ _).bind fun released => ?_
  split
  · exact moves_loadBoardTasks.toStays.toOnward
  · exact moves_pure _

theorem moves_rescueReview (tracked : List Nat) (task : Task) :
    Moves Daemon.Onward (rescueReview tracked task) := by
  unfold rescueReview
  split
  · refine (moves_ask _).toQuiet.toStays.toOnward.bind fun age => ?_
    split
    · exact moves_pure _
    · exact (moves_onDisk (moves_returnReviewToTodo _)).toOnward.bind fun _ =>
        moves_recordTaskRescue _
  · exact moves_pure _

theorem moves_blockCascading (task : Task) : Moves Daemon.Stays (blockCascading task) := by
  refine (moves_onDisk (moves_rewriteTask _ (editsTasks_block _) _)).attempt.bind fun result => ?_
  cases result with
  | ok _ => exact (moves_notifyCascade _).toStays
  | error error => exact moves_pure _

theorem moves_rescueInProgress (tracked : List Nat) (task : Task) :
    Moves Daemon.Onward (rescueInProgress tracked task) := by
  unfold rescueInProgress
  split
  · refine (moves_isRepeatInCascade _).toStays.toOnward.bind fun repeated => ?_
    split
    · exact (moves_blockCascading _).toOnward.bind fun _ => moves_recordTaskRescue _
    · exact (moves_onDisk (moves_transitionRescued _ parseTaskState_todo)).attempt.toOnward.bind fun _ =>
        moves_recordTaskRescue _
  · exact moves_pure _

/-- **Reconciliation does not touch the queue.** -/
theorem moves_reconcileActiveTasks : Moves Daemon.Onward reconcileActiveTasks :=
  moves_loadBoardTasks.toStays.toOnward.bind fun _ =>
    moves_stateReconciliationAuditDue.toStays.toOnward.bind fun _ =>
      (moves_clearStaleTasks _).bind fun _ => moves_get.bind fun _ =>
        (moves_foldlM (fun _ _ => (moves_normalizeEngineer _ _ _).toOnward) _ _).bind fun _ =>
          moves_get.bind fun _ => (moves_foldlM (fun _ _ => moves_rescueReview _ _) _ _).bind
            fun _ => moves_foldlM (fun _ _ => moves_rescueInProgress _ _) _ _

end

end Batty
