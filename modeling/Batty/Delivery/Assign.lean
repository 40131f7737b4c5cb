import Batty.Board.Removal
import Batty.Board.Review
import Batty.Dispatch.Roster

/-!
# Assignments by message

Work is also handed out by hand: a message in an engineer's inbox names a task, as in
`Task #7: …`. When it is delivered, the task is first claimed on the board, so that the automatic
dispatch leaves it alone; then the launch is tried; and after a launch the task is moved under
way. The errors of the first and the last step are only logged, and when the launch fails the
sender is told so.

A task has two ids here. The claim and the move go by the id at the start of the message, the
launch by that or else by an id anywhere in it.

* `SettlesBoard`: a launch that fails leaves the claim and the status of the task as they were,
  and after one that succeeds the engineer holds the task and it is under way.
* `settlesBoard_iff`: which messages are delivered so. A claim that was written before a launch
  that fails is never taken back.
-/

namespace Batty

/-! ### Which task a message is about -/

/-- The digits that a text begins with, as a task id. -/
def leadingTaskId (text : List Char) : Option Nat := Text.parseU32 (text.takeWhile Char.isDigit)

/-- Lower case as far as `task #` needs it: of the letters beyond ASCII only the Kelvin sign has
one of these as its lower case. -/
def lowercaseLetter (c : Char) : Char := if c = '\u212a' then 'k' else c.toLower

def extractTaskIdFromBody (body : String) : Option Nat :=
  let body := Text.trim body.toList
  if "Task #".toList.isPrefixOf body then leadingTaskId (body.drop 6)
  else
    let lower := body.map lowercaseLetter
    if "task #".toList.isPrefixOf lower then leadingTaskId (lower.drop 6) else none

/-- The first `task #` with an id after it. -/
def parseAssignmentTaskId (task : String) : Option Nat :=
  task.toList.tails.findSome? fun rest =>
    if Text.toAsciiLowercase (rest.take 6) = "task #".toList then leadingTaskId (rest.drop 6)
    else none

def effectiveTaskId (taskId : Option Nat) (task : String) : Option Nat :=
  taskId.or (parseAssignmentTaskId task)

/-! ### The delivery -/

/-- The tasks, or none if they cannot be read. -/
def loadTasksOrDefault : DiskAction (List Task) := do
  match ← attempt loadTasks with
  | .ok tasks => return tasks
  | .error _ => return []

/-- The id and the status of a task that nobody should be given any more. -/
def terminalStatus (taskId : Nat) (tasks : List Task) : Option (Nat × String) :=
  ((tasks.find? fun task => task.id = taskId).map Task.status).bind fun status =>
    if status = "done" ∨ status = "review" then some (taskId, status) else none

def assignStaleTerminalStatus (body : String) : DiskAction (Option (Nat × String)) :=
  match extractTaskIdFromBody body with
  | none => pure none
  | some taskId => do
    match ← attempt loadTasks with
    | .error _ => return none
    | .ok tasks => return terminalStatus taskId tasks

/-- What counts against the limit of one piece of work for each engineer. -/
def wipItems (engineer : String) (tasks : List Task) : List Task :=
  tasks.filter fun task => task.claimedBy = some engineer &&
    (task.status = "in-progress" || task.status = "review")

/-- What a launch depends on besides the board. The last field is how it ends once the worktree's
branch and path are on file: nothing that comes after that writes a task file. -/
structure LaunchSite where
  usesWorktrees : Bool
  worktreePath : String
  launch : Except String Unit

def activeBoardTaskIds (engineer : String) (tasks : List Task) : List Nat :=
  ((tasks.filter fun task => task.isActiveFor engineer).map Task.id).insertionSort (· ≤ ·)

/-- The engineer has tasks of its own, and this is none of them. -/
def GuardBlocks (taskId : Option Nat) (activeTaskIds : List Nat) : Prop :=
  activeTaskIds ≠ [] ∧ ∀ id ∈ taskId, id ∉ activeTaskIds

instance (taskId : Option Nat) (activeTaskIds : List Nat) :
    Decidable (GuardBlocks taskId activeTaskIds) :=
  inferInstanceAs (Decidable (activeTaskIds ≠ [] ∧ ∀ id ∈ taskId, id ∉ activeTaskIds))

def dispatchGuard (engineer : String) (taskId : Option Nat) (activeTaskIds : List Nat) :
    Except String Unit :=
  if GuardBlocks taskId activeTaskIds then
    .error ("dispatch guard blocked assignment for '" ++ engineer ++
      "': already owns active board task(s) " ++
      ", ".intercalate (activeTaskIds.map fun id => "#" ++ toString id))
  else .ok ()

def setTaskAssignmentContext (taskId : Nat) (branch worktreePath : Option String) :
    DiskAction Unit := do
  let path ← findTaskPath taskId
  let metadata ← readWorkflowMetadata path
  writeWorkflowMetadata path { metadata with
    branch := branch.bind normalizeOptional
    worktreePath := worktreePath.bind normalizeOptional }

/-- The worktree's branch and path, if the engineer has a worktree and the task an id. -/
def recordContext (site : LaunchSite) (engineer : String) : Option Nat → DiskAction Unit
  | some taskId =>
    if site.usesWorktrees then
      setTaskAssignmentContext taskId (some (engineer ++ "/" ++ toString taskId))
        (some site.worktreePath)
    else pure ()
  | none => pure ()

def assignTaskWithTaskIdAs (site : LaunchSite) (engineer task : String) (taskId : Option Nat) :
    DiskAction Unit := do
  let taskId := effectiveTaskId taskId task
  let tasks ← loadTasks
  orFail (dispatchGuard engineer taskId (activeBoardTaskIds engineer tasks))
  recordContext site engineer taskId
  orFail site.launch

/-- What became of an assignment. -/
inductive AssignDelivery where
  | orchestratorLogged | livePane | failed (error : String)
deriving DecidableEq

/-- A command for the task the message starts with, whose error is only logged. -/
def onTask (command : Nat → DiskAction Unit) : Option Nat → DiskAction Unit
  | some taskId => discard (attempt (command taskId))
  | none => pure ()

def claimBeforeLaunch (engineer : String) : Option Nat → DiskAction Unit :=
  onTask fun taskId => assignTaskOwners taskId (some engineer) none

def startAssigned : Option Nat → DiskAction Unit :=
  onTask fun taskId => transitionTask taskId "in-progress"

def launchClaimed (site : LaunchSite) (engineer body : String) : DiskAction AssignDelivery := do
  match ← attempt (assignTaskWithTaskIdAs site engineer body (extractTaskIdFromBody body)) with
  | .error error => return .failed error
  | .ok _ =>
    startAssigned (extractTaskIdFromBody body)
    return .livePane

def claimAndAssign (site : LaunchSite) (engineer body : String) : DiskAction AssignDelivery := do
  claimBeforeLaunch engineer (extractTaskIdFromBody body)
  launchClaimed site engineer body

/-- An assignment from the inbox is dropped when it is out of date, turned down when the engineer
has enough to do, and else tried. -/
def deliverAssign (site : LaunchSite) (engineer body : String) : DiskAction AssignDelivery := do
  match ← assignStaleTerminalStatus body with
  | some _ => return .orchestratorLogged
  | none =>
    let active := wipItems engineer (← loadTasksOrDefault)
    if active ≠ [] then
      -- the board is read once more to tell the sender what the engineer is at
      let _ ← loadTasksOrDefault
      return .orchestratorLogged
    else claimAndAssign site engineer body

/-! ### What a delivery is to leave behind -/

/-- The file at `path` holds a task with this claim and this status. -/
def Board.ShowsClaim (board : Board) (path : String) (claimedBy : Option String)
    (status : String) : Prop :=
  ∃ task, board.taskAt path = some task ∧ task.claimedBy = claimedBy ∧ task.status = status

/-- How the file of a task is left, given how it was and how the delivery ended. -/
def LeftInOrder (engineer path : String) (task : Task) (board : Board) : AssignDelivery → Prop
  | .orchestratorLogged => True
  | .livePane => board.ShowsClaim path (some engineer) "in-progress"
  | .failed _ => board.ShowsClaim path task.claimedBy task.status

/-- The delivery leaves the file of its task in order. -/
def SettlesBoard (site : LaunchSite) (engineer body : String) (disk : Disk) : Prop :=
  ∀ taskId path task, effectiveTaskId (extractTaskIdFromBody body) body = some taskId →
    disk.board.findPath taskId = some path → disk.board.taskAt path = some task →
    After (deliverAssign site engineer body) disk
      (fun delivery disk' => LeftInOrder engineer path task disk'.board delivery)
      (fun _ _ => False)

/-! ### Edits of the file -/

/-- What the edit does to the claim and the status of a task, which keeps its id. -/
def EditsClaim (mutator : Mapping → Mapping) (onClaim : Option String → Option String)
    (onStatus : String → String) : Prop :=
  ∀ (file : TaskFile) (task : Task), file.task = some task →
    ∃ task', (file.update mutator).task = some task' ∧ task'.id = task.id ∧
      task'.claimedBy = onClaim task.claimedBy ∧ task'.status = onStatus task.status

theorem editsClaim_assignOwners (now engineer : String) :
    EditsClaim (assignOwnersMutator now (some engineer) none)
      (fun _ => normalizeOptional engineer) id := by
  intro file task htask
  obtain ⟨task', htask', hedit⟩ := task_update_assignOwners htask now (some engineer) none
  exact ⟨task', htask', hedit.id, hedit.claimedBy, hedit.status⟩

theorem editsClaim_transition (target : TaskState) :
    EditsClaim (transitionMutator target) id fun _ => stateName target := by
  intro file task htask
  obtain ⟨task', htask', hedit⟩ := task_update_transition htask target
  exact ⟨task', htask', hedit.id, hedit.claimedBy, hedit.status⟩

theorem metadataMutator_apply (metadata : WorkflowRecord) (mapping : Mapping) {key : Key}
    (h : key ∉ [Key.branch, .worktreePath, .commit, .changedPaths, .testsRun, .testsPassed,
      .testResults, .artifacts, .outcome, .reviewBlockers]) :
    metadataMutator metadata mapping key = mapping key := by
  simp only [List.mem_cons, List.not_mem_nil, or_false, not_or] at h
  simp [metadataMutator, h]

theorem mapM_asString (values : List String) :
    values.mapM (Value.asString ∘ Value.string) = some values := by
  induction values with
  | nil => rfl
  | cons value values ih => rw [List.mapM_cons, ih]; rfl

/-- Workflow metadata that is written can be read by those who read tasks. -/
theorem restDecodes_metadataMutator {mapping : Mapping} (h : mapping.restDecodes = true)
    (metadata : WorkflowRecord) : (metadataMutator metadata mapping).restDecodes = true := by
  have hcommit : metadataMutator metadata mapping .commit = metadata.commit.map .string := by
    simp [metadataMutator]
  have hartifacts : metadataMutator metadata mapping .artifacts =
      if metadata.artifacts.isEmpty then none
      else some (.sequence (metadata.artifacts.map .string)) := by
    simp [metadataMutator]
  refine restDecodes_of_edit h fun field hfield => ?_
  by_cases hkey : field.1 = .commit ∨ field.1 = .artifacts
  · right
    rcases hkey with hkey | hkey
    · rw [hkey, hcommit]
      cases metadata.commit with
      | none => exact .inl rfl
      | some commit =>
        refine .inr ⟨_, rfl, ?_⟩
        revert hkey field
        simp [restFields, Value.asString]
    · rw [hkey, hartifacts]
      split
      · exact .inl rfl
      · refine .inr ⟨_, rfl, ?_⟩
        revert hkey field
        simp [restFields, Value.asVec, mapM_asString]
  · left
    refine metadataMutator_apply _ _ ?_
    simp only [not_or] at hkey
    revert hkey field
    simp [restFields]

/-- Writing the metadata touches neither the claim nor the status. -/
theorem editsClaim_metadata (metadata : WorkflowRecord) :
    EditsClaim (metadataMutator metadata) id id := by
  intro file task htask
  have hreads := Task.parse_eq_some_iff.mp htask
  have hsame : ∀ {key : Key}, key ∉ [Key.branch, .worktreePath, .commit, .changedPaths, .testsRun,
      .testsPassed, .testResults, .artifacts, .outcome, .reviewBlockers] →
      metadataMutator metadata file.mapping key = file.mapping key := fun hkey =>
    metadataMutator_apply _ _ hkey
  have hblock : (metadataMutator metadata file.mapping).BlockDecodes := by
    refine blockDecodes_of_agree hreads.blockDecodes ?_
    rintro _ (rfl | rfl | rfl) <;> exact hsame (by simp)
  obtain ⟨blocked, blockedOn, hread⟩ := hblock.exists_block
  have hworktreePath :=
    Mapping.optional_setOptionalString_self file.mapping .worktreePath metadata.worktreePath
  have hbranch := Mapping.optional_setOptionalString_self file.mapping .branch metadata.branch
  have hedited : Task.Reads file.name (metadataMutator metadata file.mapping) file.body { task with
      worktreePath := metadata.worktreePath, branch := metadata.branch, blocked, blockedOn } := {
    id := (Mapping.required_congr (hsame (by decide))).trans hreads.id
    title := (Mapping.required_congr (hsame (by decide))).trans hreads.title
    status := (Mapping.orDefault_congr (hsame (by decide))).trans hreads.status
    priority := (Mapping.orDefault_congr (hsame (by decide))).trans hreads.priority
    assignee := (Mapping.optional_congr (hsame (by decide))).trans hreads.assignee
    claimedBy := (Mapping.optional_congr (hsame (by decide))).trans hreads.claimedBy
    claimedAt := (Mapping.optional_congr (hsame (by decide))).trans hreads.claimedAt
    block := hread
    tags := (Mapping.orDefault_congr (hsame (by decide))).trans hreads.tags
    dependsOn := (Mapping.orDefault_congr (hsame (by decide))).trans hreads.dependsOn
    reviewOwner := (Mapping.optional_congr (hsame (by decide))).trans hreads.reviewOwner
    worktreePath := (Mapping.optional_congr (by simp [metadataMutator])).trans hworktreePath
    branch := (Mapping.optional_congr (by simp [metadataMutator])).trans hbranch
    scheduledFor := (Mapping.optional_congr (hsame (by decide))).trans hreads.scheduledFor
    rest := restDecodes_metadataMutator hreads.rest metadata
    description := hreads.description
    sourcePath := hreads.sourcePath }
  obtain ⟨_, _, htask'⟩ := TaskFile.exists_task_update hedited
  exact ⟨_, htask', rfl, rfl, rfl⟩

/-- How it stands with the task: its id leads to the file at `path`, as it did on `board`, and the
file shows this claim and this status. -/
structure Stands (board : Board) (taskId : Nat) (path : String) (claimedBy : Option String)
    (status : String) (board' : Board) : Prop where
  shows : board'.ShowsClaim path claimedBy status
  findPath : board'.findPath taskId = some path
  accesses : findAccesses board' taskId = findAccesses board taskId

section

variable {board board' : Board} {taskId : Nat} {path : String} {claimedBy : Option String}
  {status : String}

theorem Stands.update (h : Stands board taskId path claimedBy status board')
    {mutator : Mapping → Mapping} {onClaim : Option String → Option String}
    {onStatus : String → String} (hedits : EditsClaim mutator onClaim onStatus) :
    Stands board taskId path (onClaim claimedBy) (onStatus status)
      (board'.update path mutator) := by
  have hids : KeepsIds mutator := by
    intro file task htask
    obtain ⟨task', htask', hid, -⟩ := hedits file task htask
    exact ⟨task', htask', hid⟩
  obtain ⟨task, htask, hclaim, hstatus⟩ := h.shows
  obtain ⟨file, hfind, hread⟩ := Option.bind_eq_some_iff.mp htask
  obtain ⟨task', htask', -, hclaim', hstatus'⟩ := hedits file task hread
  refine ⟨⟨task', (Board.taskAt_update hfind _).trans htask', ?_, ?_⟩, ?_, ?_⟩
  · rw [hclaim', hclaim]
  · rw [hstatus', hstatus]
  · rw [findPath_update htask hids, h.findPath]
  · rw [findAccesses, findPathByName_update htask hids]
    exact h.accesses

/-- A file shows one claim and one status. -/
theorem Stands.shows_iff (h : Stands board taskId path claimedBy status board')
    {claimedBy' : Option String} {status' : String} :
    board'.ShowsClaim path claimedBy' status' ↔ claimedBy = claimedBy' ∧ status = status' := by
  obtain ⟨task, htask, hclaim, hstatus⟩ := h.shows
  constructor
  · rintro ⟨task', htask', hclaim', hstatus'⟩
    obtain rfl := Option.some.inj (htask.symm.trans htask')
    exact ⟨hclaim.symm.trans hclaim', hstatus.symm.trans hstatus'⟩
  · rintro ⟨rfl, rfl⟩
    exact ⟨task, htask, hclaim, hstatus⟩

end

/-! ### What each step takes -/

/-- The disk after `count` accesses that leave the board as it is. -/
def Disk.skip (disk : Disk) (count : Nat) : Disk := { disk with accesses := disk.accesses + count }

@[simp] theorem Disk.skip_board (disk : Disk) (count : Nat) : (disk.skip count).board = disk.board :=
  rfl

theorem Disk.Spends.trips_iff {disk disk' : Disk} {board : Board} {count count' : Nat}
    (h : disk.Spends count board disk') : disk'.Trips count' ↔ (disk.skip count).Trips count' := by
  simp only [Disk.Trips, Disk.skip, h.faults, h.accesses]

/-- The tasks a reader finds that takes an error for an empty board. -/
def Disk.tasksRead (disk : Disk) : List Task :=
  if disk.faults disk.accesses then [] else disk.board.tasks

theorem after_attempt_loadTasks {disk : Disk} {Q : Except String (List Task) → Disk → Prop}
    {E : String → Disk → Prop} : After (attempt loadTasks) disk Q E ↔
      Q (if disk.faults disk.accesses then .error s!"failed to read tasks directory: {disk.tasksDir}"
        else .ok disk.board.tasks) (disk.skip 1) := by
  simp only [loadTasks, access, after_attempt, after_bind, after_get, after_set]
  split <;> rfl

theorem after_loadTasksOrDefault {disk : Disk} {Q : List Task → Disk → Prop}
    {E : String → Disk → Prop} :
    After loadTasksOrDefault disk Q E ↔ Q disk.tasksRead (disk.skip 1) := by
  rw [loadTasksOrDefault, after_bind, after_attempt_loadTasks, Disk.tasksRead]
  by_cases hfault : disk.faults disk.accesses = true
  · simp only [if_pos hfault, after_pure]
  · simp only [if_neg hfault, after_pure]

/-- The accesses that the check for an assignment out of date makes. -/
def staleAccesses (body : String) : Nat := if (extractTaskIdFromBody body).isSome then 1 else 0

theorem after_assignStaleTerminalStatus {disk : Disk} {body : String}
    {Q : Option (Nat × String) → Disk → Prop} {E : String → Disk → Prop} :
    After (assignStaleTerminalStatus body) disk Q E ↔
      Q ((extractTaskIdFromBody body).bind fun taskId => terminalStatus taskId disk.tasksRead)
        (disk.skip (staleAccesses body)) := by
  unfold assignStaleTerminalStatus staleAccesses
  cases extractTaskIdFromBody body with
  | none => rfl
  | some taskId =>
    rw [after_bind, after_attempt_loadTasks, Disk.tasksRead, Option.bind_some]
    by_cases hfault : disk.faults disk.accesses = true
    · simp only [if_pos hfault, after_pure]
      rfl
    · simp only [if_neg hfault, after_pure]
      rfl

/-- The metadata that the file at `path` is read to have. -/
def Board.recordAt (board : Board) (path : String) : Option WorkflowRecord :=
  (board.find? path).bind fun file => WorkflowRecord.parse file.mapping

/-- The status is one that work may start from. -/
def MayStart (status : String) : Prop :=
  ∃ current, parseTaskState status = .ok current ∧ canTransition current .inProgress = .ok ()

section

variable {board : Board} {taskId : Nat} {path : String} {claimedBy : Option String}
  {status : String} {disk : Disk} (h : Stands board taskId path claimedBy status disk.board)
include h

theorem after_assignTaskOwners (engineer : String) :
    After (assignTaskOwners taskId (some engineer) none) disk
      (fun _ disk' => ¬ disk.Trips (findAccesses board taskId + 2) ∧
        Stands board taskId path (normalizeOptional engineer) status disk'.board)
      (fun _ disk' => disk.Trips (findAccesses board taskId + 2) ∧
        Stands board taskId path claimedBy status disk'.board) := by
  simp only [assignTaskOwners, Option.isNone_some, Bool.false_and, Bool.false_eq_true, if_false,
    after_bind, after_get]
  rw [← h.accesses]
  refine (spends_editTask h.findPath _).mono (fun _ disk' h' => ⟨h'.not_trips, ?_⟩)
    fun _ disk' h' => ⟨h'.1, ?_⟩
  · rw [h'.board]
    exact h.update (editsClaim_assignOwners disk.stamp engineer)
  · rw [h'.2]
    exact h

theorem after_setTaskAssignmentContext (branch worktreePath : Option String) :
    After (setTaskAssignmentContext taskId branch worktreePath) disk
      (fun _ disk' => (disk.board.recordAt path).isSome ∧ ∃ board',
        disk.Spends (findAccesses board taskId + 3) board' disk' ∧
          Stands board taskId path claimedBy status board')
      (fun _ disk' =>
        (disk.board.recordAt path = none ∨ disk.Trips (findAccesses board taskId + 3)) ∧
          Stands board taskId path claimedBy status disk'.board) := by
  simp only [setTaskAssignmentContext, after_bind]
  rw [← h.accesses]
  refine (spends_findTaskPath h.findPath).mono ?_ fun _ _ h' => ⟨.inr (h'.1.mono (by omega)), ?_⟩
  · rintro _ disk₁ ⟨rfl, h₁⟩
    simp only [readWorkflowMetadata, after_bind, after_get]
    refine (spends_access _ disk₁).mono (fun _ disk₂ h₂ => ?_) fun _ _ h₂ => ⟨.inr ?_, ?_⟩
    · have hread := h₁.trans h₂
      have hboard : disk₂.board = disk.board := by rw [h₂.board, h₁.board]
      rw [hboard]
      cases hrecord : disk.board.recordAt _ with
      | none =>
        rw [Board.recordAt] at hrecord
        rw [hrecord]
        refine ⟨.inl rfl, ?_⟩
        rw [hboard]
        exact h
      | some metadata =>
        rw [Board.recordAt] at hrecord
        rw [hrecord, after_pure]
        refine (spends_updateTaskFrontmatter _ _).mono
          (fun _ disk₃ h₃ => ⟨rfl, _, hread.trans h₃, ?_⟩)
          fun _ _ h₃ => ⟨.inr (hread.trips h₃.1), ?_⟩
        · rw [hboard]
          exact h.update (editsClaim_metadata _)
        · rw [h₃.2, hboard]
          exact h
    · exact (h₁.trips h₂.1).mono (by omega)
    · rw [h₂.2, h₁.board]
      exact h
  · rw [h'.2]
    exact h

/-- A task that may start does so unless an access fails before the write. -/
theorem after_transitionTask_inProgress :
    let starts := MayStart status ∧ ¬ disk.Trips (findAccesses board taskId + 3)
    After (transitionTask taskId "in-progress") disk
      (fun _ disk' => starts ∧ Stands board taskId path claimedBy "in-progress" disk'.board)
      (fun _ disk' =>
        (starts ∧ Stands board taskId path claimedBy "in-progress" disk'.board) ∨
          (¬ starts ∧ Stands board taskId path claimedBy status disk'.board)) := by
  intro starts
  obtain ⟨task, htask, -, rfl⟩ := h.shows
  have hmoves : disk.TransitionMoves taskId task.status .inProgress ↔ starts := by
    rw [Disk.TransitionMoves, h.accesses]
    exact Iff.rfl
  have hstands : ∀ {board' : Board},
      board' = disk.board.update path (transitionMutator .inProgress) →
        Stands board taskId path claimedBy "in-progress" board' := by
    rintro _ rfl
    exact h.update (editsClaim_transition .inProgress)
  refine (spends_transition h.findPath htask .inProgress).mono ?_ ?_
  · rintro _ disk' ⟨hmay, hspends⟩
    refine ⟨hmoves.mp ⟨hmay, fun htrips => ?_⟩, hstands hspends.board⟩
    exact hspends.not_trips (htrips.mono (Nat.le_add_right _ _))
  · rintro _ disk' (⟨hmade, -, hboard⟩ | ⟨hnot, hboard⟩)
    · exact .inl ⟨hmoves.mp hmade, hstands hboard⟩
    · refine .inr ⟨fun hstarts => hnot (hmoves.mpr hstarts), ?_⟩
      rw [hboard]
      exact h

end

/-! ### The launch -/

/-- What it takes to record the worktree's branch and path. -/
def LaunchSite.contextAccesses (site : LaunchSite) (board : Board) (taskId : Nat) : Nat :=
  if site.usesWorktrees then findAccesses board taskId + 3 else 0

/-- Something stands in the way of the launch: an access that fails, a task the engineer is
already at, metadata that cannot be read, or the launch itself. -/
def LaunchSite.Fails (site : LaunchSite) (engineer : String) (taskId : Nat) (path : String)
    (disk : Disk) : Prop :=
  disk.Trips (1 + site.contextAccesses disk.board taskId) ∨
    GuardBlocks (some taskId) (activeBoardTaskIds engineer disk.board.tasks) ∨
      (site.usesWorktrees = true ∧ disk.board.recordAt path = none) ∨ site.launch ≠ .ok ()

theorem spends_loadTasks (disk : Disk) : After loadTasks disk
    (fun tasks disk' => tasks = disk.board.tasks ∧ disk.Spends 1 disk.board disk')
    (fun _ disk' => disk.Trips 1 ∧ disk'.board = disk.board) := by
  simp only [loadTasks, after_bind, after_get, after_pure]
  refine (spends_access _ disk).mono (fun _ disk' h => ?_) fun _ _ h => h
  rw [h.board]
  exact ⟨rfl, h⟩

section

variable {board : Board} {taskId : Nat} {path : String} {claimedBy : Option String}
  {status : String} {disk : Disk} (h : Stands board taskId path claimedBy status disk.board)
include h

theorem after_recordContext (site : LaunchSite) (engineer : String) :
    After (recordContext site engineer (some taskId)) disk
      (fun _ disk' => ¬ (site.usesWorktrees = true ∧ disk.board.recordAt path = none) ∧
        ∃ board', disk.Spends (site.contextAccesses board taskId) board' disk' ∧
          Stands board taskId path claimedBy status board')
      (fun _ disk' => ((site.usesWorktrees = true ∧ disk.board.recordAt path = none) ∨
          disk.Trips (site.contextAccesses board taskId)) ∧
        Stands board taskId path claimedBy status disk'.board) := by
  unfold recordContext LaunchSite.contextAccesses
  by_cases huses : site.usesWorktrees = true
  · simp only [huses, if_true, true_and]
    refine (after_setTaskAssignmentContext h _ _).mono (fun _ _ h' => ⟨?_, h'.2⟩) fun _ _ h' => h'
    rw [Option.eq_none_iff_forall_ne_some]
    obtain ⟨metadata, hmetadata⟩ := Option.isSome_iff_exists.mp h'.1
    exact fun hnone => hnone metadata hmetadata
  · simp only [if_neg huses]
    exact ⟨fun hboth => huses hboth.1, _, .refl disk, h⟩

/-- **The launch** fails exactly when something stands in its way; either way the claim and the
status are as they were. -/
theorem after_assignTaskWithTaskIdAs (site : LaunchSite) (engineer : String) {body : String}
    {extracted : Option Nat} (heffective : effectiveTaskId extracted body = some taskId) :
    After (assignTaskWithTaskIdAs site engineer body extracted) disk
      (fun _ disk' => ¬ site.Fails engineer taskId path disk ∧ ∃ board',
        disk.Spends (1 + site.contextAccesses disk.board taskId) board' disk' ∧
          Stands board taskId path claimedBy status board')
      (fun _ disk' => site.Fails engineer taskId path disk ∧
        Stands board taskId path claimedBy status disk'.board) := by
  have hcontext : site.contextAccesses disk.board taskId = site.contextAccesses board taskId := by
    rw [LaunchSite.contextAccesses, LaunchSite.contextAccesses, h.accesses]
  simp only [assignTaskWithTaskIdAs, heffective, after_bind]
  refine (spends_loadTasks disk).mono ?_ fun _ disk' h₁ => ⟨.inl (h₁.1.mono (by omega)), ?_⟩
  · rintro _ disk₁ ⟨rfl, h₁⟩
    have hstands : Stands board taskId path claimedBy status disk₁.board := by
      rw [h₁.board]
      exact h
    unfold dispatchGuard
    split
    · rename_i hblocks
      exact (after_orFail_error _).mpr ⟨.inr (.inl hblocks), hstands⟩
    rename_i hguard
    rw [after_orFail_ok]
    refine (after_recordContext hstands site engineer).mono ?_ fun _ disk' h₂ => ⟨?_, h₂.2⟩
    · rintro _ disk₂ ⟨hreadable, board', h₂, hstands'⟩
      have hspends := h₁.trans h₂
      rw [h₁.board] at hreadable
      rw [← hcontext] at hspends
      cases hlaunch : site.launch with
      | error error =>
        refine (after_orFail_error _).mpr ⟨.inr (.inr (.inr ?_)), ?_⟩
        · rw [hlaunch]
          simp
        · rw [hspends.board]
          exact hstands'
      | ok _ =>
        refine (after_orFail_ok _).mpr ⟨?_, board', hspends, hstands'⟩
        rintro (htrips | hblocks | hunreadable | hfails)
        · exact hspends.not_trips htrips
        · exact hguard hblocks
        · exact hreadable hunreadable
        · exact hfails hlaunch
    · rw [h₁.board, ← hcontext] at h₂
      rcases h₂.1 with hunreadable | htrips
      · exact .inr (.inr (.inl hunreadable))
      · exact .inl (h₁.trips htrips)
  · rw [h₁.2]
    exact h

end

/-! ### Which deliveries are in order -/

/-- The checks before the claim let the message pass: the task is not finished, and the engineer
has nothing to do; a check that cannot read the board finds nothing. -/
def PassesChecks (engineer body : String) (disk : Disk) : Prop :=
  ((extractTaskIdFromBody body).bind fun taskId => terminalStatus taskId disk.tasksRead) = none ∧
    wipItems engineer (disk.skip (staleAccesses body)).tasksRead = []

/-- The message starts with the id of the task, and no access fails on the way to the claim. -/
def ClaimsTask (body : String) (taskId : Nat) (disk : Disk) : Prop :=
  extractTaskIdFromBody body = some taskId ∧
    ¬ disk.Trips (findAccesses disk.board taskId + 2)

/-- The disk as the launch finds it. -/
def Disk.claimed (disk : Disk) (engineer body : String) : Disk :=
  endState (claimBeforeLaunch engineer (extractTaskIdFromBody body)) disk

/-- The message starts with the id of the task, which may start from its status, and no access
fails on the way there. -/
def StartsTask (body : String) (taskId : Nat) (status : String) (disk : Disk) : Prop :=
  extractTaskIdFromBody body = some taskId ∧ MayStart status ∧
    ¬ disk.Trips (findAccesses disk.board taskId + 3)

/-- What it takes for a message that passes the checks. If the launch fails, no claim was written,
or one that was there already; if it does not, the engineer has the claim and the task is under
way or gets there. -/
structure AssignsInOrder (site : LaunchSite) (engineer body : String) (taskId : Nat)
    (path : String) (task : Task) (disk : Disk) : Prop where
  failed : site.Fails engineer taskId path (disk.claimed engineer body) →
    ClaimsTask body taskId disk → normalizeOptional engineer = task.claimedBy
  launched : ¬ site.Fails engineer taskId path (disk.claimed engineer body) →
    (ClaimsTask body taskId disk ∧ normalizeOptional engineer = some engineer ∨
      ¬ ClaimsTask body taskId disk ∧ task.claimedBy = some engineer) ∧
    (task.status = "in-progress" ∨ StartsTask body taskId task.status
      ((disk.claimed engineer body).skip (1 + site.contextAccesses disk.board taskId)))

theorem after_onTask {command : Nat → DiskAction Unit} {taskId : Option Nat} {disk : Disk}
    {P : Disk → Prop} (hnone : taskId = none → P disk)
    (hsome : ∀ id, taskId = some id → After (command id) disk (fun _ => P) fun _ => P) :
    After (onTask command taskId) disk (fun _ => P) fun _ _ => False := by
  cases taskId with
  | none => exact hnone rfl
  | some id =>
    change After ((fun _ => PUnit.unit) <$> attempt (command id)) disk _ _
    rw [after_map, after_attempt]
    exact hsome id rfl

/-- A judgment of a delivery that has nothing to say of messages the checks stop. -/
theorem after_deliverAssign {site : LaunchSite} {engineer body : String} {disk : Disk}
    {Q : AssignDelivery → Disk → Prop} {E : String → Disk → Prop}
    (hstopped : ∀ disk', disk'.board = disk.board → Q .orchestratorLogged disk') :
    After (deliverAssign site engineer body) disk Q E ↔
      (PassesChecks engineer body disk →
        After (claimAndAssign site engineer body) (disk.skip (staleAccesses body + 1)) Q E) := by
  rw [deliverAssign, after_bind, after_assignStaleTerminalStatus, PassesChecks]
  cases (extractTaskIdFromBody body).bind fun taskId => terminalStatus taskId disk.tasksRead with
  | some stale =>
    simp only [reduceCtorEq, false_and, false_imp_iff, iff_true]
    exact hstopped _ (disk.skip_board _)
  | none =>
    rw [after_bind, after_loadTasksOrDefault]
    simp only [true_and]
    split
    · rename_i hactive
      rw [after_bind, after_loadTasksOrDefault]
      simp only [hactive, false_imp_iff, iff_true]
      exact hstopped _ (by simp only [Disk.skip_board])
    · rename_i hidle
      simp only [ne_eq, not_not] at hidle
      simp only [hidle, true_imp_iff]
      rfl

theorem eq_of_extracted {body : String} {taskId id : Nat}
    (heffective : effectiveTaskId (extractTaskIdFromBody body) body = some taskId)
    (hextracted : extractTaskIdFromBody body = some id) : id = taskId := by
  rw [effectiveTaskId, hextracted, Option.some_or] at heffective
  exact Option.some.inj heffective

section

variable {board : Board} {taskId : Nat} {path : String} {claimedBy : Option String}
  {status : String} {disk : Disk} (h : Stands board taskId path claimedBy status disk.board)
  {site : LaunchSite} {engineer body : String}
  (heffective : effectiveTaskId (extractTaskIdFromBody body) body = some taskId)
include h heffective

/-- The launch of a task that was claimed, if it was, and the move under way. -/
theorem after_launchClaimed : After (launchClaimed site engineer body) disk
    (fun delivery disk' =>
      (site.Fails engineer taskId path disk ∧ (∃ error, delivery = .failed error) ∧
        Stands board taskId path claimedBy status disk'.board) ∨
      (¬ site.Fails engineer taskId path disk ∧ delivery = .livePane ∧ ∃ status',
        Stands board taskId path claimedBy status' disk'.board ∧
          (status' = "in-progress" ↔ status = "in-progress" ∨ StartsTask body taskId status
            (disk.skip (1 + site.contextAccesses disk.board taskId)))))
    (fun _ _ => False) := by
  rw [launchClaimed, after_bind, after_attempt]
  refine (after_assignTaskWithTaskIdAs h site engineer heffective).mono ?_ fun error disk' h₁ =>
    .inl ⟨h₁.1, ⟨error, rfl⟩, h₁.2⟩
  rintro _ disk₁ ⟨hlaunched, board', hspends, hstands⟩
  rw [← hspends.board] at hstands
  set starts := StartsTask body taskId status
    (disk.skip (1 + site.contextAccesses disk.board taskId)) with hstarts
  rw [after_bind]
  suffices hstart : After (startAssigned (extractTaskIdFromBody body)) disk₁
      (fun _ disk' => ∃ status', Stands board taskId path claimedBy status' disk'.board ∧
        (status' = "in-progress" ↔ status = "in-progress" ∨ starts)) (fun _ _ => False) from
    hstart.mono (fun _ disk' h' => .inr ⟨hlaunched, rfl, h'⟩) fun _ _ h' => h'
  refine after_onTask (fun hnone => ⟨status, hstands, ?_⟩) fun id hsome => ?_
  · have hnot : ¬ starts := by
      rintro ⟨hsome, -⟩
      rw [hnone] at hsome
      cases hsome
    simp only [hnot, or_false]
  · obtain rfl := eq_of_extracted heffective hsome
    have hstarts' : (MayStart status ∧ ¬ disk₁.Trips (findAccesses board id + 3)) ↔ starts := by
      rw [hstarts, StartsTask, hspends.trips_iff, Disk.skip_board, h.accesses]
      simp only [hsome, true_and]
    refine (after_transitionTask_inProgress hstands).mono (fun _ _ h₂ => ?_) fun _ _ h₂ => ?_
    all_goals rw [hstarts'] at h₂
    · exact ⟨_, h₂.2, by simp [h₂.1]⟩
    · rcases h₂ with ⟨hyes, hstands'⟩ | ⟨hno, hstands'⟩
      · exact ⟨_, hstands', by simp [hyes]⟩
      · exact ⟨_, hstands', by simp [hno]⟩

/-- The claim that precedes the launch. -/
theorem after_claimBeforeLaunch :
    After (claimBeforeLaunch engineer (extractTaskIdFromBody body)) disk
      (fun _ disk' => ∃ claimedBy', Stands board taskId path claimedBy' status disk'.board ∧
        (ClaimsTask body taskId disk → claimedBy' = normalizeOptional engineer) ∧
        (¬ ClaimsTask body taskId disk → claimedBy' = claimedBy)) (fun _ _ => False) := by
  refine after_onTask (fun hnone => ?_) fun id hsome => ?_
  · refine ⟨claimedBy, h, fun hclaims => ?_, fun _ => rfl⟩
    have hsome := hclaims.1
    rw [hnone] at hsome
    cases hsome
  · obtain rfl := eq_of_extracted heffective hsome
    have hclaims : ClaimsTask body id disk ↔ ¬ disk.Trips (findAccesses board id + 2) := by
      rw [ClaimsTask, h.accesses]
      simp only [hsome, true_and]
    rw [hclaims]
    refine (after_assignTaskOwners h engineer).mono (fun _ _ h₁ => ?_) fun _ _ h₁ => ?_
    · exact ⟨_, h₁.2, fun _ => rfl, fun hnot => absurd h₁.1 hnot⟩
    · exact ⟨_, h₁.2, fun hclaims => absurd h₁.1 hclaims, fun _ => rfl⟩

end

/-- **What a delivery does that passes the checks.** -/
theorem after_claimAndAssign_iff {disk : Disk} {site : LaunchSite} {engineer body : String}
    {taskId : Nat} {path : String} {task : Task}
    (heffective : effectiveTaskId (extractTaskIdFromBody body) body = some taskId)
    (hpath : disk.board.findPath taskId = some path)
    (htask : disk.board.taskAt path = some task) :
    After (claimAndAssign site engineer body) disk
        (fun delivery disk' => LeftInOrder engineer path task disk'.board delivery)
        (fun _ _ => False) ↔
      AssignsInOrder site engineer body taskId path task disk := by
  have hstands : Stands disk.board taskId path task.claimedBy task.status disk.board :=
    ⟨⟨task, htask, rfl, rfl⟩, hpath, rfl⟩
  have hclaim : After (claimBeforeLaunch engineer (extractTaskIdFromBody body)) disk _ _ :=
    after_claimBeforeLaunch hstands heffective
  obtain ⟨_, disk₁, hrun, claimedBy, hstands₁, hyes, hno⟩ := returns_of_after hclaim
  have hclaimed : disk.claimed engineer body = disk₁ := endState_of_returns hrun
  have hcontext : site.contextAccesses disk₁.board taskId = site.contextAccesses disk.board taskId := by
    rw [LaunchSite.contextAccesses, LaunchSite.contextAccesses, hstands₁.accesses]
  rw [claimAndAssign, after_bind, after_of_returns hrun]
  -- What the launch leaves is known from here on, so both directions speak of it.
  refine after_iff_of (after_launchClaimed hstands₁ heffective) ?_ fun _ _ h => h.elim
  rw [hcontext]
  rintro delivery disk₂ (⟨hfails, ⟨error, rfl⟩, hstands₂⟩ |
    ⟨hlaunched, rfl, status', hstands₂, hstatus⟩)
  · rw [LeftInOrder, hstands₂.shows_iff]
    constructor
    · rintro ⟨hclaim, -⟩
      refine ⟨fun _ hclaims => (hyes hclaims).symm.trans hclaim, fun hnot => absurd ?_ hnot⟩
      rw [hclaimed]
      exact hfails
    · intro horder
      refine ⟨?_, rfl⟩
      by_cases hclaims : ClaimsTask body taskId disk
      · rw [hyes hclaims]
        exact horder.failed (hclaimed ▸ hfails) hclaims
      · exact hno hclaims
  · rw [LeftInOrder, hstands₂.shows_iff]
    constructor
    · rintro ⟨hclaim, hactive⟩
      refine ⟨fun hfails => absurd (hclaimed ▸ hfails) hlaunched, fun _ => ⟨?_, ?_⟩⟩
      · by_cases hclaims : ClaimsTask body taskId disk
        · exact .inl ⟨hclaims, (hyes hclaims).symm.trans hclaim⟩
        · exact .inr ⟨hclaims, (hno hclaims).symm.trans hclaim⟩
      · rw [hclaimed]
        exact hstatus.mp hactive
    · intro horder
      have hlaunches := horder.launched (by rwa [hclaimed])
      rw [hclaimed] at hlaunches
      refine ⟨?_, hstatus.mpr hlaunches.2⟩
      rcases hlaunches.1 with ⟨hclaims, hname⟩ | ⟨hclaims, hname⟩
      · exact (hyes hclaims).trans hname
      · exact (hno hclaims).trans hname

/-- **Which deliveries leave the file of their task in order.** -/
theorem settlesBoard_iff (site : LaunchSite) (engineer body : String) (disk : Disk) :
    SettlesBoard site engineer body disk ↔
      ∀ taskId path task, effectiveTaskId (extractTaskIdFromBody body) body = some taskId →
        disk.board.findPath taskId = some path → disk.board.taskAt path = some task →
        PassesChecks engineer body disk →
        AssignsInOrder site engineer body taskId path task
          (disk.skip (staleAccesses body + 1)) := by
  unfold SettlesBoard
  refine forall_congr' fun taskId => forall_congr' fun path => forall_congr' fun task =>
    imp_congr_right fun heffective => imp_congr_right fun hpath => imp_congr_right fun htask => ?_
  rw [after_deliverAssign (fun _ _ => trivial)]
  exact imp_congr_right fun _ => after_claimAndAssign_iff heffective hpath htask

/-! ### A launch that fails -/

/-- A task that waits for somebody to take it. -/
def untakenDisk : Disk where
  board := {
    files := [{
      name := "007-parser.md"
      fenceNewline := true
      frontmatter := .ofList [(.id, .number 7), (.title, .string "parser"),
        (.status, .string "todo")]
      body := "" }]
    nodup := by simp }
  tasksDir := "tasks"
  stamp := ""
  faults _ := false

/-- The worktree of the engineer cannot be prepared. -/
def brokenSite : LaunchSite where
  usesWorktrees := false
  worktreePath := ""
  launch := .error "failed to prepare worktree"

/-- The task keeps the claim of the engineer who never got it, and no dispatch takes it. -/
theorem not_settlesBoard_brokenSite : ¬ ∀ site engineer body disk,
    SettlesBoard site engineer body disk := by
  intro h
  have hwaiting : (untakenDisk.board.taskAt "007-parser.md").map Task.claimedBy = some none := by
    decide
  have hclaimed : After (deliverAssign brokenSite "eng-1" "Task #7: fix the parser") untakenDisk
      (fun delivery disk' => delivery = .failed "failed to prepare worktree" ∧
        (disk'.board.taskAt "007-parser.md").map Task.claimedBy = some (some "eng-1"))
      (fun _ _ => False) := by
    decide
  obtain ⟨task, htask, hnone⟩ := Option.map_eq_some_iff.mp hwaiting
  have hleft := h brokenSite "eng-1" "Task #7: fix the parser" untakenDisk 7 "007-parser.md" task
    (by decide) (by decide) htask
  obtain ⟨delivery, disk', hrun, rfl, hsome⟩ := returns_of_after hclaimed
  rw [after_of_returns hrun] at hleft
  obtain ⟨task', htask', hclaim, -⟩ := hleft
  rw [htask', Option.map_some, hclaim, hnone] at hsome
  cases hsome

end Batty
