import Batty.Dispatch.Overlap
import Batty.Dispatch.Pass

/-!
# Filling the dispatch queue

`enqueueDispatchCandidates` chooses tasks for the queue one at a time. Each round of its loop
surveys the tasks that can still be chosen, in dispatch order, and takes the first that does not
overlap with work under way; if every one does, the least conflicted is made to wait for the work
it overlaps with, by dependencies that are written to the board, and the next round begins.

The loop has no bound of its own. The model runs it for a number of rounds and says whether it
came to an end.
-/

namespace Batty

/-! ### The survey -/

/-- What a look through the available tasks finds: the task to queue, the ids of tasks that wait
for a file lock, and the overlapping task with the fewest conflicts. -/
structure Survey where
  selected : Option Task := none
  fileLocked : List Nat
  leastConflicted : Option (Task × List OverlapConflict) := none

/-- Look through the tasks up to the first that overlaps with nothing. -/
def surveyTasks (skipOverlapChecks fileLevelLocks : Bool) (conflictsOf : Task → List OverlapConflict)
    (survey : Survey) : List Task → Survey
  | [] => survey
  | task :: tasks =>
    if skipOverlapChecks then { survey with selected := some task }
    else
      match conflictsOf task with
      | [] => { survey with selected := some task }
      | conflicts =>
        let survey :=
          if fileLevelLocks then { survey with fileLocked := task.id :: survey.fileLocked }
          else if survey.leastConflicted.all fun least => conflicts.length < least.2.length then
            { survey with leastConflicted := some (task, conflicts) }
          else survey
        surveyTasks skipOverlapChecks fileLevelLocks conflictsOf survey tasks

/-- Overlaps are not looked at when every engineer works in a worktree and locks are off. -/
def TeamConfig.skipOverlapChecks (config : TeamConfig) : Bool :=
  ((config.roles.filter fun role => role.1 = .engineer).all Prod.snd) && !config.fileLevelLocks

/-! ### Ranking -/

/-- The engineers that carry a role. -/
def TeamConfig.engineersWithRole (config : TeamConfig) (role : String) : List String :=
  (config.members.filter fun member => member.roleType = .engineer && member.roleName = role).map
    MemberInstance.name

/-- If the body names an owner role that engineers carry, only they are eligible. -/
def TeamConfig.withOwnerRole (config : TeamConfig) (task : Task) (eligible : List String) :
    List String :=
  match (parseBodyOwnerRole task.description).map config.engineersWithRole with
  | none => eligible
  | some engineers =>
    if engineers.isEmpty then eligible else eligible.filter engineers.contains

/-- The task as it is ranked: the owner role counts as one of its tags. -/
def taskForRanking (task : Task) : Task :=
  match parseBodyOwnerRole task.description with
  | some role => if task.tags.contains role then task else { task with tags := task.tags ++ [role] }
  | none => task

/-- The engineers who could be given the task, before they are ranked. -/
def Daemon.eligibleEngineers (daemon : Daemon) (task : Task) (queued benched : List String)
    (unixNow time : Nat) : List String :=
  let idle := daemon.idleEngineerNames.filter fun name =>
    !queued.contains name && !benched.contains name &&
    task.assignee.all (· = name) &&
    !daemon.memberBackendParked unixNow name &&
    (daemon.manualAssignCooldowns name).all fun assignedAt =>
      fromSecs daemon.config.dispatchManualCooldownSecs ≤ time - assignedAt
  daemon.config.withOwnerRole task (idle.insertionSort (· ≤ ·))

/-- What a pass knows before its first round. -/
structure EnqueuePass where
  benched : List String
  rescuedTaskIds : List Nat
  profiles : String → Option EngineerProfile
  allowPeerPickup : Bool

/-- The engineers in the order in which tasks are offered to them. -/
def rankDispatchEngineers (pass : EnqueuePass) (task : Task) (queued : List String) :
    Action (List String) := do
  let unixNow ← ask fun outside => outside.unixTime
  let time ← now
  let daemon ← get
  let eligible := daemon.eligibleEngineers task queued pass.benched unixNow time
  match daemon.config.allocationStrategy with
  | .roundRobin => return eligible
  | .scored =>
    return rankEngineersForTask daemon.outside.declaredFiles eligible pass.profiles
      (taskForRanking task) daemon.config.allocation

/-- A retry goes to its previous owner first, and to others only if peers may pick it up. -/
def ownerFirst (allowPeerPickup : Bool) (owner : String) (ranked : List String) : List String :=
  let ranked := ranked.filter fun name => name = owner || allowPeerPickup
  if ranked.contains owner then owner :: ranked.erase owner else ranked

/-- The engineers for a task, in the order in which they are considered. -/
def rankForTask (pass : EnqueuePass) (task : Task) (queued : List String) :
    Action (List String) := do
  let ranked ← rankDispatchEngineers pass task queued
  let evidence ← onDisk readEvidence
  if (← get).verificationRetryDispatchableTask evidence task pass.allowPeerPickup then
    return task.claimedBy.elim ranked fun owner => ownerFirst pass.allowPeerPickup owner ranked
  else return ranked

/-- The first engineer who was not given the task recently and did not give it up recently. -/
def findEligible (taskId : Nat) : List String → Action (Option String)
  | [] => return none
  | name :: names => do
    if ((← get).recentDispatches (taskId, name)).isSome then findEligible taskId names
    else if ← isReleaseExcluded taskId name then findEligible taskId names
    else return some name

/-! ### One round -/

/-- What the rounds of a pass have come to. -/
structure Enqueued where
  queuedTaskIds : List Nat
  queuedEngineers : List String
  fileLockedTaskIds : List Nat := []
  eligibilityExcludedTaskIds : List Nat := []

def Enqueued.unavailableTaskIds (enqueued : Enqueued) : List Nat :=
  enqueued.queuedTaskIds ++ enqueued.fileLockedTaskIds ++ enqueued.eligibilityExcludedTaskIds

def verificationRetryDispatchableTaskIds (allowPeerPickup : Bool) : Action (List Nat) := do
  let tasks ← onDisk loadTasks
  let evidence ← onDisk readEvidence
  let daemon ← get
  return (tasks.filter fun task =>
    daemon.verificationRetryDispatchableTask evidence task allowPeerPickup).map Task.id

/-- The available tasks, as the board and the members are now. -/
def availableTasks (unavailableTaskIds rescuedTaskIds verificationRetryTaskIds : List Nat) :
    Action (List Task) := do
  let tasks ← onDisk loadTasks
  let calendar ← ask fun outside => outside.calendar
  let config := (← get).config
  return availableDispatchTasks tasks calendar {
    unavailableTaskIds
    excludedTags := config.dispatchExcludedTags
    nonEngineers := nonEngineerMemberNames config.members
    rescuedTaskIds
    verificationRetryTaskIds }

/-- Make the candidate wait for the tasks it overlaps with, except for those that wait for it. -/
def serializeOverlappingCandidate (candidate : Task) (conflicts : List OverlapConflict) :
    Action Unit := do
  let tasks ← onDisk loadTasks
  let (safe, _) := splitAcyclicBlockingIds tasks candidate.id (blockingTaskIds conflicts)
  if safe = [] then return () else onDisk (appendTaskDependencies candidate.id safe)

def DispatchQueueEntry.new (engineer : String) (task : Task) : DispatchQueueEntry :=
  { engineer, taskId := task.id, taskTitle := task.title }

/-- Queue the task for the first eligible engineer; without one it is left for another pass. -/
def enqueueTask (pass : EnqueuePass) (enqueued : Enqueued) (task : Task) : Action Enqueued := do
  let ranked ← rankForTask pass task enqueued.queuedEngineers
  match ← findEligible task.id ranked with
  | none => return { enqueued with
      eligibilityExcludedTaskIds := task.id :: enqueued.eligibilityExcludedTaskIds }
  | some name =>
    modify fun daemon => { daemon with
      dispatchQueue := daemon.dispatchQueue ++ [.new name task] }
    return { enqueued with
      queuedTaskIds := task.id :: enqueued.queuedTaskIds
      queuedEngineers := name :: enqueued.queuedEngineers }

/-- Go on from what the survey found; nothing when the loop is to end. -/
def actOnSurvey (pass : EnqueuePass) (enqueued : Enqueued) (survey : Survey) :
    Action (Option Enqueued) := do
  let enqueued := { enqueued with fileLockedTaskIds := survey.fileLocked }
  match survey.selected, survey.leastConflicted with
  | some task, _ => some <$> enqueueTask pass enqueued task
  | none, some (task, conflicts) =>
    serializeOverlappingCandidate task conflicts
    return some enqueued
  | none, none => return none

/-- Survey the tasks that are available; nothing when there are none. -/
def surveyRound (pass : EnqueuePass) (enqueued : Enqueued) : Action (Option Survey) := do
  let retryTaskIds ← verificationRetryDispatchableTaskIds pass.allowPeerPickup
  let available ← availableTasks enqueued.unavailableTaskIds pass.rescuedTaskIds retryTaskIds
  if available = [] then return none
  else
    let inProgress := (← onDisk loadTasks).filter fun task => task.status = "in-progress"
    let daemon ← get
    let conflictsOf task :=
      findOverlappingTasks (daemon.outside.predictedFiles daemon.disk.board) task inProgress
    return some <| surveyTasks daemon.config.skipOverlapChecks daemon.config.fileLevelLocks
      conflictsOf { fileLocked := enqueued.fileLockedTaskIds } available

/-- One round of the loop; nothing when it is the last. -/
def enqueueRound (pass : EnqueuePass) (enqueued : Enqueued) : Action (Option Enqueued) := do
  match ← surveyRound pass enqueued with
  | none => return none
  | some survey => actOnSurvey pass enqueued survey

/-! ### The pass -/

/-- Records are kept through twice the time for which they hold dispatch back, so that a further
occurrence finds them. -/
def expireRecords : Action Unit := do
  let time ← now
  modify fun daemon => { daemon with
    recentDispatches := fun key => (daemon.recentDispatches key).filter fun dispatchedAt =>
      time - dispatchedAt < fromSecs daemon.config.dispatchDedupWindowSecs
    recentlyReleasedBy := fun key => (daemon.recentlyReleasedBy key).filter fun record =>
      record.inCascadeWindow daemon.releaseExclusionWindow time
    recentlyRescuedTasks :=
      ⟨daemon.recentlyRescuedTasks.entries.filter fun entry =>
        entry.2.inCascadeWindow daemon.rescueBase time,
        daemon.recentlyRescuedTasks.nodupKeys.sublist List.filter_sublist⟩ }

/-- The engineers that are benched, the tasks in their rescue cooldown and the profiles. -/
def refreshRecords : Action (List String × List Nat × (String → Option EngineerProfile)) := do
  let _ ← onDisk loadTasks
  let benched ← benchedEngineerNames
  expireRecords
  let rescuedTaskIds ← rescuedTaskIds
  let loaded ← ask fun outside => outside.loadEngineerProfiles
  let profiles ← orFail loaded
  return (benched, rescuedTaskIds, profiles)

def prepareEnqueue : Action (EnqueuePass × Enqueued) := do
  let (benched, rescuedTaskIds, profiles) ← refreshRecords
  let queue := (← get).dispatchQueue
  let enqueued : Enqueued :=
    { queuedTaskIds := queue.map DispatchQueueEntry.taskId
      queuedEngineers := queue.map DispatchQueueEntry.engineer }
  let unqueued ← availableTasks enqueued.queuedTaskIds rescuedTaskIds []
  let allowPeerPickup := unqueued.isEmpty && !(← get).idleEngineerNames.isEmpty
  return ({ benched, rescuedTaskIds, profiles, allowPeerPickup }, enqueued)

/-- The loop for a number of rounds, and whether it came to an end. -/
def enqueueLoop (pass : EnqueuePass) : Nat → Enqueued → Action Bool
  | 0, _ => return false
  | rounds + 1, enqueued => do
    match ← enqueueRound pass enqueued with
    | none => return true
    | some enqueued => enqueueLoop pass rounds enqueued

/-- The pass for a number of rounds, and whether it came to an end. -/
def enqueueDispatchCandidates (rounds : Nat) : Action Bool := do
  let (pass, enqueued) ← prepareEnqueue
  enqueueLoop pass rounds enqueued

end Batty
