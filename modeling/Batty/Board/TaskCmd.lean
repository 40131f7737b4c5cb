import Batty.Board.Mutators
import Batty.Foundation.Fallible

/-!
# Board commands

The commands that edit one task file. Each finds the file of its task, edits the frontmatter
and, when the status changed, appends a line to the activity log. Every step is an access to
the disk and may fail; a command that fails in the activity log has already written the file. A
write that fails is taken to leave the file as it was.

A theorem `after_…` says for each command which edit was applied to which file when it returns,
and what may already have happened when it fails.
-/

namespace Batty

/-! ### The disk -/

/-- The board on disk. Access number `n` fails when `faults n` says so, and when it reads the
evidence of several files, those that `unreadable n` names are skipped; `accesses` counts the
accesses made so far, and `stamp` is the time of day as a claim records it. -/
structure Disk where
  board : Board
  tasksDir : String
  stamp : String
  faults : Nat → Bool
  unreadable : Nat → String → Bool := fun _ _ => false
  accesses : Nat := 0

abbrev DiskAction := EStateM String Disk

/-- `disk'` is `disk` after some accesses, with `board` on it. -/
structure Disk.Leads (disk : Disk) (board : Board) (disk' : Disk) : Prop where
  board : disk'.board = board
  tasksDir : disk'.tasksDir = disk.tasksDir
  stamp : disk'.stamp = disk.stamp
  faults : disk'.faults = disk.faults
  unreadable : disk'.unreadable = disk.unreadable
  accesses : disk.accesses ≤ disk'.accesses

theorem Disk.Leads.refl (disk : Disk) : disk.Leads disk.board disk :=
  ⟨rfl, rfl, rfl, rfl, rfl, le_rfl⟩

theorem Disk.Leads.trans {disk disk' disk'' : Disk} {board board' : Board}
    (h : disk.Leads board disk') (h' : disk'.Leads board' disk'') : disk.Leads board' disk'' :=
  ⟨h'.board, h'.tasksDir.trans h.tasksDir, h'.stamp.trans h.stamp, h'.faults.trans h.faults,
    h'.unreadable.trans h.unreadable, h.accesses.trans h'.accesses⟩

/-- The disk goes on: there are further accesses, and the board goes on. -/
structure Disk.Onward (disk disk' : Disk) : Prop where
  leads : disk.Leads disk'.board disk'
  board : disk.board.Onward disk'.board

theorem Disk.Leads.onward {disk disk' : Disk} (h : disk.Leads disk.board disk') :
    disk.Onward disk' := by
  refine ⟨⟨rfl, h.tasksDir, h.stamp, h.faults, h.unreadable, h.accesses⟩, ?_⟩
  rw [h.board]
  exact .refl _

instance : IsPreorder Disk Disk.Onward where
  refl disk := ⟨.refl disk, .refl _⟩
  trans _ _ _ h h' := ⟨h.leads.trans h'.leads, h.board.trans h'.board⟩

/-- One access to the disk. -/
def access (failure : String) : DiskAction Unit := do
  let disk ← get
  set { disk with accesses := disk.accesses + 1 }
  if disk.faults disk.accesses then throw failure

theorem after_access (failure : String) (disk : Disk) :
    After (access failure) disk (fun _ disk' => disk.Leads disk.board disk')
      (fun _ disk' => disk.Leads disk.board disk') := by
  have hleads : disk.Leads disk.board { disk with accesses := disk.accesses + 1 } :=
    ⟨rfl, rfl, rfl, rfl, rfl, Nat.le_succ _⟩
  simp only [access, after_bind, after_get, after_set]
  split <;> simpa using hleads

/-! ### Commands -/

def loadTasks : DiskAction (List Task) := do
  access s!"failed to read tasks directory: {(← get).tasksDir}"
  return (← get).board.tasks

/-- What the evidence in the task files says, by path. -/
abbrev Evidence := String → Option WorkflowMetadata

def readEvidence : DiskAction Evidence := do
  let disk ← get
  set { disk with accesses := disk.accesses + 1 }
  return fun path =>
    if disk.unreadable disk.accesses path then none else disk.board.workflowMetadata path

/-- The file that is named after the task, or else the one that holds it. -/
def findTaskPath (taskId : Nat) : DiskAction String := do
  access s!"failed to read tasks directory: {(← get).tasksDir}"
  match (← get).board.findPathByName taskId with
  | some path => pure path
  | none =>
    let tasks ← loadTasks
    match tasks.find? fun task => task.id = taskId with
    | some task => pure task.sourcePath
    | none => throw s!"task #{taskId} not found in {(← get).tasksDir}"

def taskFromFile (path : String) : DiskAction Task := do
  access s!"failed to read task file: {path}"
  match (← get).board.taskAt path with
  | some task => pure task
  | none => throw s!"failed to parse task file: {path}"

def updateTaskFrontmatter (path : String) (mutator : Mapping → Mapping) : DiskAction Unit := do
  access s!"failed to read {path}"
  access s!"failed to write {path}"
  modify fun disk => { disk with board := disk.board.update path mutator }

/-- The log line of a status change; there is none when the status stays as it is. -/
def recordStatusTransitionActivity (fromStatus toStatus : String) : DiskAction Unit :=
  if fromStatus = toStatus then pure () else access "failed to open activity log"

/-- The body of both transitions: they differ in what they do to the block fields. -/
def transitionWith (mutator : TaskState → Mapping → Mapping) (taskId : Nat) (target : String) :
    DiskAction Unit := do
  let path ← findTaskPath taskId
  let task ← taskFromFile path
  let current ← orFail (parseTaskState task.status)
  let target ← orFail (parseTaskState target)
  orFail (canTransition current target)
  updateTaskFrontmatter path (mutator target)
  recordStatusTransitionActivity task.status (stateName target)

def transitionTask (taskId : Nat) (target : String) : DiskAction Unit :=
  transitionWith transitionMutator taskId target

/-- The variant for rescues: a parked task stays parked. -/
def transitionTaskPreservingBlock (taskId : Nat) (target : String) : DiskAction Unit :=
  transitionWith setStatus taskId target

/-- An edit that sets a status whatever the present one is. -/
def rewriteTask (taskId : Nat) (mutator : Mapping → Mapping) (toStatus : String) :
    DiskAction Unit := do
  let path ← findTaskPath taskId
  let task ← taskFromFile path
  updateTaskFrontmatter path mutator
  recordStatusTransitionActivity task.status toStatus

def blockTaskWithReason (taskId : Nat) (reason : String) : DiskAction Unit :=
  rewriteTask taskId (blockMutator reason) "blocked"

def reclaimTaskClaim (taskId : Nat) (nextAction : String) : DiskAction Unit :=
  rewriteTask taskId (reclaimMutator nextAction) "todo"

/-- An edit that leaves the status alone: find the file and write it. -/
def editTask (taskId : Nat) (mutator : Mapping → Mapping) : DiskAction Unit := do
  let path ← findTaskPath taskId
  updateTaskFrontmatter path mutator

def assignTaskOwners (taskId : Nat) (execOwner reviewOwner : Option String) :
    DiskAction Unit := do
  if execOwner.isNone && reviewOwner.isNone then throw "at least one owner must be provided"
  let now := (← get).stamp
  editTask taskId (assignOwnersMutator now execOwner reviewOwner)

def unclaimTask (taskId : Nat) : DiskAction Unit := editTask taskId unclaimMutator

def releaseEngineerClaim (taskId : Nat) : DiskAction Unit := editTask taskId releaseClaimMutator

def appendTaskDependencies (taskId : Nat) (dependencyIds : List Nat) : DiskAction Unit :=
  editTask taskId (appendDependenciesMutator dependencyIds)

/-! ### Moves of a claimed task

Three sequences of commands move a task that somebody may have claimed. In each the status is
written before the claim is, by a write of its own, and the sequence may stop in between. -/

def promoteBacklog (task : Task) : DiskAction Unit :=
  if task.status = "backlog" then discard (attempt (transitionTask task.id "todo")) else pure ()

/-- Move the task under way and claim it for the engineer. The transition's error is handed to the
caller; that of the claim ends the caller's own work. -/
def claimTask (engineer : String) (task : Task) : DiskAction (Except String Unit) := do
  promoteBacklog task
  match ← attempt (transitionTask task.id "in-progress") with
  | .error error => return .error error
  | .ok () =>
    assignTaskOwners task.id (some engineer) none
    return .ok ()

/-- Put a task back to `todo` and take its claim off; every error is ignored. -/
def giveBackTask (task : Task) : DiskAction (Except String Unit) := do
  let _ ← attempt (transitionTask task.id "todo")
  attempt (unclaimTask task.id)

/-- A task that was parked is moved without losing the reason it was parked for. -/
def transitionRescued (task : Task) (target : String) : DiskAction Unit :=
  if task.blocked.isSome || task.blockedOn.isSome then transitionTaskPreservingBlock task.id target
  else transitionTask task.id target

/-- Put a task in review back to `todo`, by way of `in-progress`, and take its claim off. -/
def returnReviewToTodo (task : Task) : DiskAction (Except String Unit) := do
  let _ ← attempt (transitionRescued task "in-progress")
  let _ ← attempt (transitionRescued task "todo")
  attempt (unclaimTask task.id)

/-! ### What the commands do -/

section

variable {disk : Disk}

theorem after_loadTasks : After loadTasks disk
    (fun tasks disk' => disk.Leads disk.board disk' ∧ tasks = disk.board.tasks)
    (fun _ disk' => disk.Leads disk.board disk') := by
  simp only [loadTasks, after_bind, after_get, after_pure]
  refine (after_access _ disk).mono (fun _ disk' h => ⟨h, ?_⟩) (fun _ _ h => h)
  rw [h.board]

/-- Evidence that is read is that of the board. -/
theorem after_readEvidence : After readEvidence disk
    (fun evidence disk' => disk.Leads disk.board disk' ∧ ∀ path metadata,
      evidence path = some metadata → disk.board.workflowMetadata path = some metadata)
    (fun _ disk' => disk.Leads disk.board disk') := by
  have hleads : disk.Leads disk.board { disk with accesses := disk.accesses + 1 } :=
    ⟨rfl, rfl, rfl, rfl, rfl, Nat.le_succ _⟩
  simp only [readEvidence, after_bind, after_get, after_set, after_pure]
  refine ⟨hleads, fun path metadata h => ?_⟩
  split at h
  · cases h
  · exact h

/-- The path found is the board's, and finding it changes nothing. -/
theorem after_findTaskPath (taskId : Nat) : After (findTaskPath taskId) disk
    (fun path disk' => disk.Leads disk.board disk' ∧ disk.board.findPath taskId = some path)
    (fun _ disk' => disk.Leads disk.board disk') := by
  simp only [findTaskPath, after_bind, after_get]
  refine (after_access _ disk).mono (fun _ disk' h => ?_) (fun _ _ h => h)
  simp only [h.board]
  cases hname : disk.board.findPathByName taskId with
  | some path => exact ⟨h, by simp [Board.findPath, hname]⟩
  | none =>
    simp only [after_bind]
    refine (@after_loadTasks disk').mono ?_ (fun _ disk'' h' => ?_)
    · rintro tasks disk'' ⟨h', rfl⟩
      rw [h.board] at h' ⊢
      cases hfind : disk.board.tasks.find? fun task => task.id = taskId with
      | some task => exact ⟨h.trans h', by simp [Board.findPath, hname, hfind]⟩
      | none => exact h.trans h'
    · rw [h.board] at h'
      exact h.trans h'

theorem after_taskFromFile (path : String) : After (taskFromFile path) disk
    (fun task disk' => disk.Leads disk.board disk' ∧ disk.board.taskAt path = some task)
    (fun _ disk' => disk.Leads disk.board disk') := by
  simp only [taskFromFile, after_bind, after_get]
  refine (after_access _ disk).mono (fun _ disk' h => ?_) (fun _ _ h => h)
  rw [h.board]
  cases htask : disk.board.taskAt path with
  | some task => exact ⟨h, rfl⟩
  | none => exact h

theorem after_updateTaskFrontmatter (path : String) (mutator : Mapping → Mapping) :
    After (updateTaskFrontmatter path mutator) disk
      (fun _ disk' => disk.Leads (disk.board.update path mutator) disk')
      (fun _ disk' => disk.Leads disk.board disk') := by
  simp only [updateTaskFrontmatter, after_bind, after_modify]
  refine (after_access _ disk).mono (fun _ disk' h => ?_) (fun _ _ h => h)
  refine (after_access _ disk').mono (fun _ disk'' h' => ?_) (fun _ disk'' h' => ?_)
  · rw [h.board] at h'
    refine (h.trans h').trans ⟨?_, rfl, rfl, rfl, rfl, le_rfl⟩
    simp only [h'.board]
  · rw [h.board] at h'
    exact h.trans h'

theorem after_recordStatusTransitionActivity (fromStatus toStatus : String) :
    After (recordStatusTransitionActivity fromStatus toStatus) disk
      (fun _ disk' => disk.Leads disk.board disk') (fun _ disk' => disk.Leads disk.board disk') := by
  unfold recordStatusTransitionActivity
  split
  · exact Disk.Leads.refl disk
  · exact after_access _ disk

/-! ### Edits -/

/-- The command edited the task's file, and the disk now is `disk'`. -/
def Disk.Edits (disk : Disk) (taskId : Nat) (mutator : Mapping → Mapping) (disk' : Disk) : Prop :=
  ∃ path, disk.board.findPath taskId = some path ∧
    disk.Leads (disk.board.update path mutator) disk'

/-- An edit of a task goes on. -/
theorem Disk.Edits.onward {taskId : Nat} {mutator : Mapping → Mapping} {disk' : Disk}
    (h : disk.Edits taskId mutator disk') (hmutator : EditsTasks mutator) : disk.Onward disk' := by
  obtain ⟨path, hpath, hleads⟩ := h
  refine ⟨⟨rfl, hleads.tasksDir, hleads.stamp, hleads.faults, hleads.unreadable,
    hleads.accesses⟩, ?_⟩
  rw [hleads.board]
  exact Board.onward_update hpath hmutator

theorem after_editTask (taskId : Nat) (mutator : Mapping → Mapping) :
    After (editTask taskId mutator) disk (fun _ disk' => disk.Edits taskId mutator disk')
      (fun _ disk' => disk.Leads disk.board disk') := by
  simp only [editTask, after_bind]
  refine (after_findTaskPath taskId).mono ?_ (fun _ _ h => h)
  rintro path disk' ⟨h, hpath⟩
  refine (after_updateTaskFrontmatter path mutator).mono (fun _ disk'' h' => ?_)
    (fun _ disk'' h' => ?_)
  · rw [h.board] at h'
    exact ⟨path, hpath, h.trans h'⟩
  · rw [h.board] at h'
    exact h.trans h'

/-- The shape the status-changing commands share: read the task, decide, write, log. -/
theorem after_rewrite (taskId : Nat) (mutator : Mapping → Mapping) (path : String)
    (fromStatus toStatus : String) (hpath : disk.board.findPath taskId = some path) :
    After (do
      updateTaskFrontmatter path mutator
      recordStatusTransitionActivity fromStatus toStatus) disk
      (fun _ disk' => disk.Edits taskId mutator disk')
      (fun _ disk' => disk.Leads disk.board disk' ∨ disk.Edits taskId mutator disk') := by
  simp only [after_bind]
  refine (after_updateTaskFrontmatter path mutator).mono (fun _ disk' h => ?_)
    (fun _ _ h => .inl h)
  refine (after_recordStatusTransitionActivity _ _).mono (fun _ disk'' h' => ?_)
    (fun _ disk'' h' => ?_) <;> rw [h.board] at h'
  · exact ⟨path, hpath, h.trans h'⟩
  · exact .inr ⟨path, hpath, h.trans h'⟩

theorem Disk.Leads.edits {disk' disk'' : Disk} {taskId : Nat} {mutator : Mapping → Mapping}
    (h : disk.Leads disk.board disk') (h' : disk'.Edits taskId mutator disk'') :
    disk.Edits taskId mutator disk'' := by
  obtain ⟨path, hpath, hleads⟩ := h'
  rw [h.board] at hpath hleads
  exact ⟨path, hpath, h.trans hleads⟩

theorem after_rewriteTask (taskId : Nat) (mutator : Mapping → Mapping) (toStatus : String) :
    After (rewriteTask taskId mutator toStatus) disk
      (fun _ disk' => disk.Edits taskId mutator disk')
      (fun _ disk' => disk.Leads disk.board disk' ∨ disk.Edits taskId mutator disk') := by
  rw [rewriteTask, after_bind]
  refine (after_findTaskPath taskId).mono ?_ (fun _ _ h => .inl h)
  rintro path disk' ⟨h, hpath⟩
  rw [after_bind]
  refine (after_taskFromFile path).mono ?_ (fun _ disk'' h' => .inl ?_)
  · rintro task disk'' ⟨h', -⟩
    rw [h.board] at h'
    have hleads := h.trans h'
    refine (after_rewrite taskId mutator path task.status toStatus ?_).mono
      (fun _ _ h'' => hleads.edits h'') (fun _ disk₃ h'' => ?_)
    · rw [hleads.board]
      exact hpath
    · rw [hleads.board] at h''
      exact h''.imp hleads.trans hleads.edits
  · rw [h.board] at h'
    exact h.trans h'

/-- The board allows the transition: the task's status can be read and leads to the target. -/
def Board.AllowsTransition (board : Board) (taskId : Nat) (target : TaskState) : Prop :=
  ∃ path task current, board.findPath taskId = some path ∧ board.taskAt path = some task ∧
    parseTaskState task.status = .ok current ∧ canTransition current target = .ok ()

/-- **Transitions.** A transition that returns was allowed and is on the board; one that fails
has either changed nothing, or was allowed and failed in the activity log. -/
theorem after_transitionWith (mutator : TaskState → Mapping → Mapping) (taskId : Nat)
    {target : String} {state : TaskState} (htarget : parseTaskState target = .ok state) :
    After (transitionWith mutator taskId target) disk
      (fun _ disk' => disk.board.AllowsTransition taskId state ∧
        disk.Edits taskId (mutator state) disk')
      (fun _ disk' => disk.Leads disk.board disk' ∨
        disk.board.AllowsTransition taskId state ∧ disk.Edits taskId (mutator state) disk') := by
  simp only [transitionWith, after_bind, htarget]
  refine (after_findTaskPath taskId).mono ?_ (fun _ _ h => .inl h)
  rintro path disk' ⟨h, hpath⟩
  refine (after_taskFromFile path).mono ?_ (fun _ disk'' h' => .inl ?_)
  · rintro task disk'' ⟨h', htask⟩
    rw [h.board] at h' htask
    have hleads := h.trans h'
    cases hcurrent : parseTaskState task.status with
    | error error => exact (after_orFail_error error).mpr (.inl hleads)
    | ok current =>
      simp only [after_orFail_ok]
      cases hallowed : canTransition current state with
      | error error => exact (after_orFail_error error).mpr (.inl hleads)
      | ok _ =>
        simp only [after_orFail_ok]
        have hallows : disk.board.AllowsTransition taskId state :=
          ⟨path, task, current, hpath, htask, hcurrent, hallowed⟩
        have hrewrite := @after_rewrite disk'' taskId (mutator state) path task.status
          (stateName state) (by rw [hleads.board]; exact hpath)
        refine after_bind.mp (hrewrite.mono (fun _ _ h'' => ⟨hallows, hleads.edits h''⟩)
          fun _ disk₃ h'' => ?_)
        rw [hleads.board] at h''
        exact h''.imp hleads.trans fun h'' => ⟨hallows, hleads.edits h''⟩
  · rw [h.board] at h'
    exact h.trans h'

/-- Whether or not it returns, a transition has edited the task's file or nothing. -/
theorem after_transitionTask (taskId : Nat) {target : String} {state : TaskState}
    (htarget : parseTaskState target = .ok state) : After (transitionTask taskId target) disk
      (fun _ disk' => disk.Leads disk.board disk' ∨
        disk.Edits taskId (transitionMutator state) disk')
      (fun _ disk' => disk.Leads disk.board disk' ∨
        disk.Edits taskId (transitionMutator state) disk') :=
  (after_transitionWith transitionMutator taskId htarget).mono (fun _ _ h => .inr h.2)
    fun _ _ h => h.imp id And.right

/-! ### Every command goes on -/

theorem moves_transitionWith {mutator : TaskState → Mapping → Mapping}
    (hmutator : ∀ state, EditsTasks (mutator state)) (taskId : Nat) {target : String}
    {state : TaskState} (htarget : parseTaskState target = .ok state) :
    Moves Disk.Onward (transitionWith mutator taskId target) := fun _ =>
  (after_transitionWith mutator taskId htarget).mono (fun _ _ h => h.2.onward (hmutator state))
    fun _ _ h => h.elim Disk.Leads.onward fun h => h.2.onward (hmutator state)

theorem moves_transitionTask (taskId : Nat) {target : String} {state : TaskState}
    (htarget : parseTaskState target = .ok state) :
    Moves Disk.Onward (transitionTask taskId target) :=
  moves_transitionWith editsTasks_transition taskId htarget

theorem moves_rewriteTask (taskId : Nat) {mutator : Mapping → Mapping}
    (hmutator : EditsTasks mutator) (toStatus : String) :
    Moves Disk.Onward (rewriteTask taskId mutator toStatus) := fun _ =>
  (after_rewriteTask taskId mutator toStatus).mono (fun _ _ h => h.onward hmutator)
    fun _ _ h => h.elim Disk.Leads.onward fun h => h.onward hmutator

theorem moves_editTask (taskId : Nat) {mutator : Mapping → Mapping} (hmutator : EditsTasks mutator) :
    Moves Disk.Onward (editTask taskId mutator) := fun _ =>
  (after_editTask taskId mutator).mono (fun _ _ h => h.onward hmutator) fun _ _ h => h.onward

theorem moves_assignTaskOwners (taskId : Nat) (execOwner reviewOwner : Option String) :
    Moves Disk.Onward (assignTaskOwners taskId execOwner reviewOwner) := by
  unfold assignTaskOwners
  split
  · exact (moves_throw _).bind fun _ => moves_get.bind fun _ =>
      moves_editTask _ (editsTasks_assignOwners _ _ _)
  · exact moves_get.bind fun _ => moves_editTask _ (editsTasks_assignOwners _ _ _)

theorem moves_promoteBacklog (task : Task) : Moves Disk.Onward (promoteBacklog task) := by
  unfold promoteBacklog
  split
  · exact (moves_transitionTask _ parseTaskState_todo).attempt.map
  · exact moves_pure _

theorem moves_claimTask (engineer : String) (task : Task) :
    Moves Disk.Onward (claimTask engineer task) := by
  refine (moves_promoteBacklog task).bind fun _ =>
    (moves_transitionTask _ parseTaskState_inProgress).attempt.bind fun result => ?_
  cases result with
  | error error => exact moves_pure _
  | ok _ => exact (moves_assignTaskOwners _ _ _).bind fun _ => moves_pure _

theorem moves_giveBackTask (task : Task) : Moves Disk.Onward (giveBackTask task) :=
  (moves_transitionTask _ parseTaskState_todo).attempt.bind fun _ =>
    (moves_editTask _ editsTasks_unclaim).attempt

theorem moves_transitionRescued (task : Task) {target : String} {state : TaskState}
    (htarget : parseTaskState target = .ok state) :
    Moves Disk.Onward (transitionRescued task target) := by
  unfold transitionRescued
  split
  · exact moves_transitionWith editsTasks_setStatus _ htarget
  · exact moves_transitionTask _ htarget

theorem moves_returnReviewToTodo (task : Task) : Moves Disk.Onward (returnReviewToTodo task) :=
  (moves_transitionRescued _ parseTaskState_inProgress).attempt.bind fun _ =>
    (moves_transitionRescued _ parseTaskState_todo).attempt.bind fun _ =>
      (moves_editTask _ editsTasks_unclaim).attempt

end

end Batty
