import Batty.Delivery.Assign

/-!
# Assignments of finished tasks

A message that assigns a task may be delivered long after the task was done by somebody else.
Then nothing of it should reach the board: the claim, the branch and the worktree on file are
those of the work that was done. A check stands before everything else, but it takes the id from
the start of the message only, and it knows two of the three ways to be finished.

* `SparesFinished`: a message for a finished task leaves its file as it is and starts nobody.
* `sparesFinished_iff`: which deliveries do so. Past the checks it takes a launch that fails, and
  a claim, a branch and a worktree that were on file already or are not written either.
-/

namespace Batty

/-- Nobody is to work on a task with this status any more. -/
def Finished (status : String) : Prop := status = "done" ∨ status = "archived" ∨ status = "review"

/-- The delivery of a message for a finished task writes nothing to the task's file and starts no
engineer on it. -/
def SparesFinished (site : LaunchSite) (engineer body : String) (disk : Disk) : Prop :=
  ∀ taskId path task, effectiveTaskId (extractTaskIdFromBody body) body = some taskId →
    disk.board.findPath taskId = some path → disk.board.taskAt path = some task →
    Finished task.status →
    After (deliverAssign site engineer body) disk
      (fun delivery disk' => delivery ≠ .livePane ∧
        disk'.board.find? path = disk.board.find? path)
      (fun _ _ => False)

/-! ### What is written -/

instance (disk : Disk) (count : Nat) : Decidable (disk.Trips count) :=
  inferInstanceAs (Decidable (∃ n < count, disk.faults (disk.accesses + n) = true))

instance (body : String) (taskId : Nat) (disk : Disk) : Decidable (ClaimsTask body taskId disk) :=
  inferInstanceAs (Decidable (_ ∧ _))

/-- The file once the claim is written, if it is. -/
def claimedFile (engineer body : String) (taskId : Nat) (disk : Disk) (file : TaskFile) :
    TaskFile :=
  if ClaimsTask body taskId disk then
    file.update (assignOwnersMutator disk.stamp (some engineer) none)
  else file

namespace LaunchSite

/-- The launch gets as far as the branch and the worktree. -/
def Records (site : LaunchSite) (engineer : String) (taskId : Nat) (disk : Disk) : Prop :=
  site.usesWorktrees = true ∧ ¬ disk.Trips (1 + site.contextAccesses disk.board taskId) ∧
    ¬ GuardBlocks (some taskId) (activeBoardTaskIds engineer disk.board.tasks)

instance (site : LaunchSite) (engineer : String) (taskId : Nat) (disk : Disk) :
    Decidable (site.Records engineer taskId disk) :=
  inferInstanceAs (Decidable (_ ∧ _ ∧ _))

/-- The metadata with the branch and the worktree that the engineer gets for the task. -/
def context (site : LaunchSite) (engineer : String) (taskId : Nat) (metadata : WorkflowRecord) :
    WorkflowRecord :=
  { metadata with
    branch := normalizeOptional (engineer ++ "/" ++ toString taskId)
    worktreePath := normalizeOptional site.worktreePath }

/-- The file once the branch and the worktree are written, if they are. -/
def recordedFile (site : LaunchSite) (engineer : String) (taskId : Nat) (disk : Disk)
    (file : TaskFile) : TaskFile :=
  match WorkflowRecord.parse file.mapping with
  | some metadata =>
    if site.Records engineer taskId disk then
      file.update (metadataMutator (site.context engineer taskId metadata))
    else file
  | none => file

end LaunchSite

/-- What it takes for a message that passes the checks: the launch fails, and what was written
before it did is what the file says anyway. -/
structure LeavesFinished (site : LaunchSite) (engineer body : String) (taskId : Nat)
    (path : String) (file : TaskFile) (disk : Disk) : Prop where
  fails : site.Fails engineer taskId path (disk.claimed engineer body)
  file : site.recordedFile engineer taskId (disk.claimed engineer body)
    (claimedFile engineer body taskId disk file) = file

/-! ### The steps and the file -/

section

variable {disk : Disk} {taskId : Nat} {path : String} {file : TaskFile} {site : LaunchSite}
  {engineer body : String}

theorem Board.find?_update_self {board : Board} (hfile : board.find? path = some file)
    (mutator : Mapping → Mapping) :
    (board.update path mutator).find? path = some (file.update mutator) := by
  rw [Board.find?_update, hfile, Option.map_some, if_pos rfl]

section

variable (hpath : disk.board.findPath taskId = some path)
  (hfile : disk.board.find? path = some file)
include hpath hfile

variable (engineer) in
theorem after_claimBeforeLaunch_file
    (heffective : effectiveTaskId (extractTaskIdFromBody body) body = some taskId) :
    After (claimBeforeLaunch engineer (extractTaskIdFromBody body)) disk
      (fun _ disk' => disk'.board.find? path =
        some (claimedFile engineer body taskId disk file))
      (fun _ _ => False) := by
  refine after_onTask (fun hnone => ?_) fun id hsome => ?_
  · have hnot : ¬ ClaimsTask body taskId disk := by
      rintro ⟨hsome, -⟩
      rw [hnone] at hsome
      cases hsome
    rw [claimedFile, if_neg hnot]
    exact hfile
  · obtain rfl := eq_of_extracted heffective hsome
    simp only [assignTaskOwners, Option.isNone_some, Bool.false_and, Bool.false_eq_true, if_false,
      after_bind, after_get]
    refine (spends_editTask hpath _).mono (fun _ disk' h => ?_) fun _ disk' h => ?_
    · rw [claimedFile, if_pos ⟨hsome, h.not_trips⟩, h.board]
      exact Board.find?_update_self hfile _
    · rw [claimedFile, if_neg fun hclaims => hclaims.2 h.1, h.2]
      exact hfile

theorem after_setTaskAssignmentContext_file (branch worktreePath : Option String) :
    After (setTaskAssignmentContext taskId branch worktreePath) disk
      (fun _ disk' => ∃ metadata, WorkflowRecord.parse file.mapping = some metadata ∧
        disk.Spends (findAccesses disk.board taskId + 3)
          (disk.board.update path (metadataMutator { metadata with
            branch := branch.bind normalizeOptional
            worktreePath := worktreePath.bind normalizeOptional })) disk')
      (fun _ disk' => (WorkflowRecord.parse file.mapping = none ∨
        disk.Trips (findAccesses disk.board taskId + 3)) ∧ disk'.board = disk.board) := by
  simp only [setTaskAssignmentContext, after_bind]
  refine (spends_findTaskPath hpath).mono ?_ fun _ _ h => ⟨.inr (h.1.mono (by omega)), h.2⟩
  rintro _ disk₁ ⟨rfl, h₁⟩
  simp only [readWorkflowMetadata, after_bind, after_get]
  refine (spends_access _ disk₁).mono (fun _ disk₂ h₂ => ?_) fun _ _ h₂ =>
    ⟨.inr ((h₁.trips h₂.1).mono (by omega)), h₂.2.trans h₁.board⟩
  have hread := h₁.trans h₂
  have hboard : disk₂.board = disk.board := by rw [h₂.board, h₁.board]
  rw [hboard, hfile, Option.bind_some]
  cases hrecord : WorkflowRecord.parse file.mapping with
  | none => exact ⟨.inl rfl, hboard⟩
  | some metadata =>
    rw [after_pure]
    refine (spends_updateTaskFrontmatter _ _).mono (fun _ disk₃ h₃ => ⟨metadata, rfl, ?_⟩)
      fun _ _ h₃ => ⟨.inr (hread.trips h₃.1), h₃.2.trans hboard⟩
    rw [hboard] at h₃
    exact hread.trans h₃

/-- What a launch that fails leaves in the file. -/
theorem after_assignTaskWithTaskIdAs_file
    (heffective : effectiveTaskId (extractTaskIdFromBody body) body = some taskId) :
    After (assignTaskWithTaskIdAs site engineer body (extractTaskIdFromBody body)) disk
      (fun _ _ => True)
      (fun _ disk' => disk'.board.find? path =
        some (site.recordedFile engineer taskId disk file)) := by
  have hunwritten : ∀ {board : Board}, ¬ site.Records engineer taskId disk ∨
      WorkflowRecord.parse file.mapping = none → board = disk.board →
        board.find? path = some (site.recordedFile engineer taskId disk file) := by
    rintro _ hnot rfl
    rw [hfile, LaunchSite.recordedFile]
    rcases hnot with hnot | hnone
    · cases WorkflowRecord.parse file.mapping with
      | none => rfl
      | some metadata => simp only [if_neg hnot]
    · rw [hnone]
  simp only [assignTaskWithTaskIdAs, heffective, after_bind]
  refine (spends_loadTasks disk).mono ?_ fun _ disk' h₁ =>
    hunwritten (.inl fun hrecords => hrecords.2.1 (h₁.1.mono (by omega))) h₁.2
  rintro _ disk₁ ⟨rfl, h₁⟩
  unfold dispatchGuard
  split
  · rename_i hblocks
    exact (after_orFail_error _).mpr
      (hunwritten (.inl fun hrecords => hrecords.2.2 hblocks) h₁.board)
  rename_i hguard
  rw [after_orFail_ok]
  have hlaunch : ∀ {disk₂ : Disk},
      disk₂.board.find? path = some (site.recordedFile engineer taskId disk file) →
        After (orFail site.launch) disk₂ (fun _ _ => True) (fun _ disk' =>
          disk'.board.find? path = some (site.recordedFile engineer taskId disk file)) := by
    intro disk₂ h₂
    cases site.launch with
    | error error => exact (after_orFail_error _).mpr h₂
    | ok _ => exact (after_orFail_ok _).mpr trivial
  unfold recordContext
  by_cases huses : site.usesWorktrees = true
  · simp only [if_pos huses]
    rw [← h₁.board] at hpath hfile
    refine (after_setTaskAssignmentContext_file hpath hfile _ _).mono
      (fun _ disk₂ h₂ => hlaunch ?_) fun _ disk₂ h₂ => ?_
    · obtain ⟨metadata, hmetadata, h₂⟩ := h₂
      have hspends := h₁.trans h₂
      rw [h₁.board] at hspends
      have hrecords : site.Records engineer taskId disk := by
        refine ⟨huses, ?_, hguard⟩
        rw [LaunchSite.contextAccesses, if_pos huses]
        exact hspends.not_trips
      rw [h₂.board, LaunchSite.recordedFile, hmetadata]
      simp only [if_pos hrecords]
      exact Board.find?_update_self hfile _
    · refine hunwritten ?_ (h₂.2.trans h₁.board)
      rcases h₂.1 with hnone | htrips
      · exact .inr hnone
      · refine .inl fun hrecords => hrecords.2.1 ?_
        rw [LaunchSite.contextAccesses, if_pos huses]
        rw [h₁.board] at htrips
        exact h₁.trips htrips
  · simp only [if_neg huses, after_pure]
    exact hlaunch (hunwritten (.inl fun hrecords => huses hrecords.1) h₁.board)

end

end

/-! ### Which deliveries spare finished tasks -/

/-- **What a delivery does to the file** that passes the checks. -/
theorem after_claimAndAssign_file_iff {disk : Disk} {site : LaunchSite} {engineer body : String}
    {taskId : Nat} {path : String} {file : TaskFile} {task : Task}
    (heffective : effectiveTaskId (extractTaskIdFromBody body) body = some taskId)
    (hpath : disk.board.findPath taskId = some path)
    (hfile : disk.board.find? path = some file) (htask : file.task = some task) :
    After (claimAndAssign site engineer body) disk
        (fun delivery disk' => delivery ≠ .livePane ∧ disk'.board.find? path = some file)
        (fun _ _ => False) ↔
      LeavesFinished site engineer body taskId path file disk := by
  have hstands : Stands disk.board taskId path task.claimedBy task.status disk.board :=
    ⟨⟨task, by rw [Board.taskAt, hfile, Option.bind_some, htask], rfl, rfl⟩, hpath, rfl⟩
  obtain ⟨_, disk₁, hrun, ⟨claimedBy, hstands₁, -⟩, hfile₁⟩ := returns_of_after <|
    ((after_claimBeforeLaunch hstands heffective).and
      (after_claimBeforeLaunch_file engineer hpath hfile heffective)).mono
        (fun _ _ h => h) fun _ _ h => h.1
  have hclaimed : disk.claimed engineer body = disk₁ := endState_of_returns hrun
  rw [claimAndAssign, after_bind, after_of_returns hrun, launchClaimed, after_bind, after_attempt]
  have hlaunch := (after_assignTaskWithTaskIdAs hstands₁ site engineer heffective).and
    (after_assignTaskWithTaskIdAs_file hstands₁.findPath hfile₁ heffective)
  refine after_iff_of hlaunch (fun _ disk₂ h₂ => ?_) fun error disk₂ h₂ => ?_
  · -- An engineer that is started was not spared.
    refine iff_of_false (fun hspares => ?_) fun hleaves => h₂.1.1 (hclaimed ▸ hleaves.fails)
    rw [after_bind] at hspares
    obtain ⟨_, _, -, hpane, -⟩ := returns_of_after hspares
    exact hpane rfl
  · rw [after_pure, h₂.2, Option.some_inj, ← hclaimed]
    exact ⟨fun h => ⟨hclaimed ▸ h₂.1.1, h.2⟩, fun h => ⟨by simp, h.file⟩⟩

/-- **Which deliveries** spare a finished task. -/
theorem sparesFinished_iff (site : LaunchSite) (engineer body : String) (disk : Disk) :
    SparesFinished site engineer body disk ↔
      ∀ taskId path file task, effectiveTaskId (extractTaskIdFromBody body) body = some taskId →
        disk.board.findPath taskId = some path → disk.board.find? path = some file →
        file.task = some task → Finished task.status → PassesChecks engineer body disk →
        LeavesFinished site engineer body taskId path file
          (disk.skip (staleAccesses body + 1)) := by
  have hspares : ∀ {taskId path file task},
      effectiveTaskId (extractTaskIdFromBody body) body = some taskId →
      disk.board.findPath taskId = some path → disk.board.find? path = some file →
      file.task = some task →
      (After (deliverAssign site engineer body) disk
          (fun delivery disk' => delivery ≠ .livePane ∧
            disk'.board.find? path = disk.board.find? path) (fun _ _ => False) ↔
        (PassesChecks engineer body disk → LeavesFinished site engineer body taskId path file
          (disk.skip (staleAccesses body + 1)))) := by
    intro taskId path file task heffective hpath hfile htask
    rw [after_deliverAssign fun disk' hboard => ⟨by simp, by rw [hboard]⟩, hfile]
    exact imp_congr_right fun _ => after_claimAndAssign_file_iff heffective hpath hfile htask
  constructor
  · intro h taskId path file task heffective hpath hfile htask hfinished
    refine (hspares heffective hpath hfile htask).mp (h taskId path task heffective hpath ?_ hfinished)
    rw [Board.taskAt, hfile, Option.bind_some, htask]
  · intro h taskId path task heffective hpath htask hfinished
    obtain ⟨file, hfile, hread⟩ := Option.bind_eq_some_iff.mp htask
    exact (hspares heffective hpath hfile hread).mpr
      (h taskId path file task heffective hpath hfile hread hfinished)

/-! ### A message that does not start with the id -/

/-- A task that was done. -/
def doneDisk : Disk where
  board := {
    files := [{
      name := "007-parser.md"
      fenceNewline := true
      frontmatter := .ofList [(.id, .number 7), (.title, .string "parser"),
        (.status, .string "done")]
      body := "" }]
    nodup := by simp }
  tasksDir := "tasks"
  stamp := ""
  faults _ := false

/-- A site where every launch goes through. -/
def workingSite : LaunchSite where
  usesWorktrees := true
  worktreePath := "worktrees/eng-1"
  launch := .ok ()

/-- The check does not see which task is meant, and the launch does. -/
theorem not_sparesFinished_doneDisk : ¬ ∀ site engineer body disk,
    SparesFinished site engineer body disk := by
  intro h
  have hdone : (doneDisk.board.taskAt "007-parser.md").map Task.status = some "done" := by decide
  have hstarted : After (deliverAssign workingSite "eng-1" "Please redo task #7") doneDisk
      (fun delivery _ => delivery = .livePane) (fun _ _ => False) := by
    decide
  obtain ⟨task, htask, hstatus⟩ := Option.map_eq_some_iff.mp hdone
  have hspared := h workingSite "eng-1" "Please redo task #7" doneDisk 7 "007-parser.md" task
    (by decide) (by decide) htask (.inl hstatus)
  obtain ⟨delivery, disk', hrun, rfl⟩ := returns_of_after hstarted
  rw [after_of_returns hrun] at hspared
  exact hspared.1 rfl

end Batty
