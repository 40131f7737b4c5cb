import Batty.Board.TaskCmd
import Batty.Foundation.Loops
import Batty.Resolver

/-!
# The archive

Finished tasks are moved out of the directory that is read. What the rest of the board shows must
not change by that, and it does for tasks that depend on one that was moved: an id that is not on
the board satisfies a dependency of the frontmatter for the dispatcher, and for nobody else, nor
for anybody a dependency that the body names.

* `Archives`: what the two archiving commands do to the files.
* `unchanged_iff_unreferenced`: the dispatcher and the resolver list the same tasks as before
  exactly when no task they listed depends in one of those ways on a task that was moved.
-/

namespace Batty

/-- The directory without one of its files. -/
def Board.remove (board : Board) (path : String) : Board where
  files := board.files.filter fun file => file.name ≠ path
  nodup := board.nodup.sublist (List.filter_sublist.map _)

/-- Move the file to the archive, which nothing reads. -/
def moveToArchive (path : String) : DiskAction Unit := do
  access s!"failed to move {path}"
  match (← get).board.find? path with
  | none => throw s!"failed to move {path}"
  | some _ => modify fun disk => { disk with board := disk.board.remove path }

/-- How many tasks were moved to the archive, and how many were left. -/
structure ArchiveSummary where
  archivedCount : Nat
  skippedCount : Nat

/-- A dry run only counts. -/
def unlessDry (dryRun : Bool) (action : DiskAction Unit) : DiskAction Unit :=
  if dryRun then pure () else action

def archiveTasks (tasks : List Task) (dryRun : Bool) : DiskAction ArchiveSummary :=
  if tasks.isEmpty then pure { archivedCount := 0, skippedCount := 0 }
  else do
    unlessDry dryRun (access "failed to create archive dir")
    let archived ← tasks.foldlM (fun archived task => do
      unlessDry dryRun (moveToArchive task.sourcePath)
      return archived + 1) 0
    return { archivedCount := archived, skippedCount := 0 }

/-- How dates are read. -/
structure ArchiveDates where
  parseCutoffDate : String → Except String Int
  parseCompletedDate : String → Option Int

/-- When the task in the file was completed, as the file says it. -/
def Board.completed (board : Board) (path : String) : Option String :=
  (board.find? path).bind fun file => (file.mapping.optional .completed Value.asString).getD none

/-- With a cutoff only what is known to be older is archived. -/
def isToArchive (dates : ArchiveDates) (cutoff : Option Int) (board : Board) (task : Task) : Bool :=
  task.status = "done" &&
    match cutoff, board.completed task.sourcePath with
    | some cutoff, some completed => (dates.parseCompletedDate completed).any (· < cutoff)
    | some _, none => false
    | none, _ => true

def parseCutoff (dates : ArchiveDates) : Option String → Except String (Option Int)
  | none => .ok none
  | some olderThan => (dates.parseCutoffDate olderThan).map some

def archiveDoneTasks (dates : ArchiveDates) (olderThan : Option String) : DiskAction Nat := do
  let cutoff ← orFail (parseCutoff dates olderThan)
  let tasks ← loadTasks
  let board := (← get).board
  let selected := tasks.filter (isToArchive dates cutoff board)
  if selected.isEmpty then pure 0
  else do
    access "failed to create archive dir"
    selected.foldlM (fun count task => do
      updateTaskFrontmatter task.sourcePath (setStatus .archived)
      moveToArchive task.sourcePath
      return count + 1) 0

/-! ### What archiving does to the files -/

/-- The file holds a finished task. -/
def TaskFile.IsFinished (file : TaskFile) : Prop :=
  ∃ task, file.task = some task ∧ depStatusSatisfied task.status = true

/-- A file stays as it is, or holds a finished task and goes, or holds it still, finished. -/
def TaskFile.MayBecome (file : TaskFile) (left : Option TaskFile) : Prop :=
  left = some file ∨ file.IsFinished ∧ ∀ file' ∈ left, file'.name = file.name ∧
    file'.IsFinished ∧ file'.task.map Task.id = file.task.map Task.id

/-- `board'` is `board` with nothing but finished tasks moved away or renamed in their status. -/
def Archives (board board' : Board) : Prop :=
  ∃ left : TaskFile → Option TaskFile, board'.files = board.files.filterMap left ∧
    ∀ file ∈ board.files, file.MayBecome (left file)

theorem Archives.refl (board : Board) : Archives board board :=
  ⟨some, by simp, fun _ _ => .inl rfl⟩

theorem TaskFile.MayBecome.trans {file file' : TaskFile} {left : Option TaskFile}
    (h : file.MayBecome (some file')) (h' : file'.MayBecome left) : file.MayBecome left := by
  rcases h with h | ⟨hfinished, h⟩
  · obtain rfl := Option.some.inj h
    exact h'
  · obtain ⟨hname, hfinished', hid⟩ := h file' rfl
    refine .inr ⟨hfinished, fun file'' hleft => ?_⟩
    rcases h' with rfl | ⟨-, h'⟩
    · obtain rfl := Option.some.inj hleft
      exact ⟨hname, hfinished', hid⟩
    · obtain ⟨hname', hfinished'', hid'⟩ := h' file'' hleft
      exact ⟨hname'.trans hname, hfinished'', hid'.trans hid⟩

theorem Archives.trans {board board' board'' : Board} (h : Archives board board')
    (h' : Archives board' board'') : Archives board board'' := by
  obtain ⟨left, hfiles, hleft⟩ := h
  obtain ⟨left', hfiles', hleft'⟩ := h'
  refine ⟨fun file => (left file).bind left', ?_, fun file hmem => ?_⟩
  · rw [hfiles', hfiles, List.filterMap_filterMap]
  · have hbecomes := hleft file hmem
    show file.MayBecome ((left file).bind left')
    cases hfile : left file with
    | none => rwa [hfile] at hbecomes
    | some file' =>
      rw [hfile] at hbecomes
      have hmem' : file' ∈ board'.files := hfiles ▸ List.mem_filterMap.mpr ⟨file, hmem, hfile⟩
      exact hbecomes.trans (hleft' file' hmem')

/-- A finished task is moved away. -/
theorem archives_remove {board : Board} {path : String}
    (h : ∀ file, board.find? path = some file → file.IsFinished) :
    Archives board (board.remove path) := by
  refine ⟨Option.guard fun file => file.name ≠ path, ?_, fun file hmem => ?_⟩
  · exact (congrFun List.filterMap_eq_filter _).symm
  · by_cases hname : file.name = path
    · exact .inr ⟨h file (Board.find?_eq_some_iff.mpr ⟨hmem, hname⟩), by simp [Option.guard, hname]⟩
    · exact .inl (by simp [Option.guard, hname])

/-- A finished task is marked as archived. -/
theorem archives_update {board : Board} {path : String}
    (h : ∀ file, board.find? path = some file → file.IsFinished) :
    Archives board (board.update path (setStatus .archived)) := by
  refine ⟨fun file => some (if file.name = path then file.update (setStatus .archived) else file),
    by rw [Board.update, List.filterMap_eq_map'], fun file hmem => ?_⟩
  by_cases hname : file.name = path
  · have hfinished := h file (Board.find?_eq_some_iff.mpr ⟨hmem, hname⟩)
    obtain ⟨task, htask, -⟩ := hfinished
    obtain ⟨task', htask', hedit⟩ := task_update_setStatus htask .archived
    refine .inr ⟨h file (Board.find?_eq_some_iff.mpr ⟨hmem, hname⟩), fun file' hleft => ?_⟩
    dsimp only at hleft
    rw [if_pos hname] at hleft
    obtain rfl := Option.some.inj hleft
    refine ⟨TaskFile.name_update .., ⟨task', htask', ?_⟩, ?_⟩
    · rw [hedit.status]
      rfl
    · rw [htask', htask, Option.map_some, Option.map_some, hedit.id]
  · exact .inl (by dsimp only; rw [if_neg hname])

/-! ### What readers see -/

section

variable {board board' : Board}

/-- A task that is left, or one that is not finished, is where it was. -/
theorem filter_tasks_of_archives (h : Archives board board') {p : Task → Bool}
    (hp : ∀ file ∈ board.files, ∀ task, file.boardTask = some task → file.IsFinished → p task = false)
    (hp' : ∀ file ∈ board'.files, ∀ task, file.boardTask = some task → file.IsFinished → p task = false) :
    board'.tasks.filter p = board.tasks.filter p := by
  obtain ⟨left, hfiles, hleft⟩ := h
  rw [Board.tasks, Board.tasks, filter_insertionSort, filter_insertionSort, List.filter_filterMap,
    List.filter_filterMap, hfiles, List.filterMap_filterMap]
  congr 1
  refine List.filterMap_congr fun file hmem => ?_
  have hgone : file.IsFinished → file.boardTask.filter p = none := by
    intro hfinished
    cases htask : file.boardTask with
    | none => rfl
    | some task => simp [Option.filter, hp file hmem task htask hfinished]
  cases hfile : left file with
  | none =>
    rcases hleft file hmem with hsame | ⟨hfinished, -⟩
    · rw [hfile] at hsame
      cases hsame
    · exact (hgone hfinished).symm
  | some file' =>
    rcases hleft file hmem with hsame | ⟨hfinished, hedit⟩
    · rw [hfile] at hsame
      obtain rfl := Option.some.inj hsame
      rfl
    · have hmem' : file' ∈ board'.files := hfiles ▸ List.mem_filterMap.mpr ⟨file, hmem, hfile⟩
      rw [hgone hfinished]
      cases htask : file'.boardTask with
      | none => simp [htask]
      | some task =>
        simp [htask, Option.filter, hp' file' hmem' task htask (hedit file' hfile).2.1]

/-- Where a file is left, it is the one there was, or both are finished. -/
theorem exists_of_archives (h : Archives board board') {file' : TaskFile}
    (hmem : file' ∈ board'.files) : ∃ file ∈ board.files, file.MayBecome (some file') := by
  obtain ⟨left, hfiles, hleft⟩ := h
  rw [hfiles] at hmem
  obtain ⟨file, hfile, hkept⟩ := List.mem_filterMap.mp hmem
  exact ⟨file, hfile, hkept ▸ hleft file hfile⟩

/-- A reader's task is one there was, or has the id of one, and both are finished. -/
theorem task_of_archives (h : Archives board board') {task' : Task} (hmem : task' ∈ board'.tasks) :
    ∃ task ∈ board.tasks, task.id = task'.id ∧
      depStatusSatisfied task.status = depStatusSatisfied task'.status := by
  obtain ⟨file', hfile', htask'⟩ := Board.mem_tasks_iff.mp hmem
  obtain ⟨file, hfile, hbecomes⟩ := exists_of_archives h hfile'
  rcases hbecomes with hsame | ⟨⟨task, htask, hdone⟩, hedit⟩
  · obtain rfl := Option.some.inj hsame
    exact ⟨task', Board.mem_tasks_iff.mpr ⟨file', hfile, htask'⟩, rfl, rfl⟩
  · obtain ⟨hname, ⟨edited, hedited, hdone'⟩, hid⟩ := hedit file' rfl
    obtain rfl := Option.some.inj (hedited.symm.trans (TaskFile.task_of_boardTask htask'))
    refine ⟨task, Board.mem_tasks_iff.mpr ⟨file, hfile, ?_⟩, ?_, hdone.trans hdone'.symm⟩
    · unfold TaskFile.boardTask at htask' ⊢
      rw [hname] at htask'
      split at htask'
      · rename_i hextension
        rwa [if_pos hextension]
      · cases htask'
    · rw [hedited, htask, Option.map_some, Option.map_some] at hid
      exact (Option.some.inj hid).symm

/-- What is not finished is left as it was. -/
theorem mem_of_archives (h : Archives board board') {file : TaskFile} (hmem : file ∈ board.files)
    (hopen : ¬ file.IsFinished) : file ∈ board'.files := by
  obtain ⟨left, hfiles, hleft⟩ := h
  have hsame := (hleft file hmem).resolve_right fun hfinished => hopen hfinished.1
  rw [hfiles]
  exact List.mem_filterMap.mpr ⟨file, hmem, hsame⟩

theorem not_isFinished {file : TaskFile} {task : Task} (htask : file.boardTask = some task)
    (hopen : depStatusSatisfied task.status = false) : ¬ file.IsFinished := by
  rintro ⟨task', htask', hdone⟩
  obtain rfl := Option.some.inj (htask'.symm.trans (TaskFile.task_of_boardTask htask))
  rw [hopen] at hdone
  cases hdone

/-- The id was on the board and is not any more. -/
def Departed (board board' : Board) (taskId : Nat) : Prop :=
  taskId ∈ board.tasks.map Task.id ∧ taskId ∉ board'.tasks.map Task.id

/-- What departs was finished. -/
theorem done_of_departed (h : Archives board board') {taskId : Nat}
    (hdeparted : Departed board board' taskId) : taskId ∈ doneTaskIds board.tasks := by
  obtain ⟨hmem, hgone⟩ := hdeparted
  obtain ⟨task, htask, rfl⟩ := List.mem_map.mp hmem
  refine List.mem_map_of_mem (List.mem_filter.mpr ⟨htask, ?_⟩)
  by_contra hopen
  obtain ⟨file, hfile, hread⟩ := Board.mem_tasks_iff.mp htask
  have hleft := mem_of_archives h hfile (not_isFinished hread (by simpa using hopen))
  exact hgone (List.mem_map_of_mem (Board.mem_tasks_iff.mpr ⟨file, hleft, hread⟩))

/-- What is done afterwards is what was done and is left. -/
theorem mem_doneTaskIds_of_archives (h : Archives board board')
    (hunique : (board.tasks.map Task.id).Nodup) {taskId : Nat} :
    taskId ∈ doneTaskIds board'.tasks ↔
      taskId ∈ doneTaskIds board.tasks ∧ ¬ Departed board board' taskId := by
  simp only [doneTaskIds, List.mem_map, List.mem_filter, Departed]
  constructor
  · rintro ⟨task', ⟨hmem', hdone'⟩, rfl⟩
    obtain ⟨task, hmem, hid, hstatus⟩ := task_of_archives h hmem'
    exact ⟨⟨task, ⟨hmem, hstatus.trans hdone'⟩, hid⟩, fun hgone => hgone.2 ⟨task', hmem', rfl⟩⟩
  · rintro ⟨⟨task, ⟨hmem, hdone⟩, rfl⟩, hleft⟩
    obtain ⟨task', hmem', hid'⟩ : ∃ task' ∈ board'.tasks, task'.id = task.id := by
      by_contra hgone
      exact hleft ⟨⟨task, hmem, rfl⟩, hgone⟩
    obtain ⟨original, horiginal, hid, hstatus⟩ := task_of_archives h hmem'
    obtain rfl : original = task :=
      List.inj_on_of_nodup_map hunique horiginal hmem (hid.trans hid')
    exact ⟨task', ⟨hmem', hstatus ▸ hdone⟩, hid'⟩

/-- Ids stay unique. -/
theorem nodup_of_archives (h : Archives board board')
    (hunique : (board.tasks.map Task.id).Nodup) : (board'.tasks.map Task.id).Nodup := by
  obtain ⟨left, hfiles, hleft⟩ := h
  have hsublist : ((board'.files.filterMap TaskFile.boardTask).map Task.id).Sublist
      ((board.files.filterMap TaskFile.boardTask).map Task.id) := by
    rw [List.map_filterMap, List.map_filterMap, hfiles, List.filterMap_filterMap]
    refine sublist_filterMap fun file hmem => ?_
    rcases hleft file hmem with hsame | ⟨⟨task, htask, -⟩, hedit⟩
    · exact .inr (by rw [hsame, Option.bind_some])
    · cases hfile : left file with
      | none => exact .inl rfl
      | some file' =>
        obtain ⟨hname, -, hid⟩ := hedit file' hfile
        refine .inr ?_
        simp only [Option.bind_some, TaskFile.boardTask, hname]
        split
        · exact hid
        · rfl
  have hids : ∀ board : Board, (board.tasks.map Task.id).Perm
      ((board.files.filterMap TaskFile.boardTask).map Task.id) := fun board =>
    (List.perm_insertionSort _ _).map _
  exact (hids board').nodup_iff.mpr (hsublist.nodup ((hids board).nodup_iff.mp hunique))

/-! ### What the two lists show -/

/-- The ids that the body of the task names as dependencies. -/
def Task.bodyDependencyIds (task : Task) : List Nat :=
  (parseBodyDependencyIds task.description).getD []

/-- The dispatcher and the resolver list the same tasks as before, in the same order. -/
structure Unchanged (board board' : Board) (calendar : Calendar) (filter : DispatchFilter) :
    Prop where
  available : availableDispatchTasks board'.tasks calendar filter =
    availableDispatchTasks board.tasks calendar filter
  dispatchable : dispatchableTasks board' calendar = dispatchableTasks board calendar

/-- No task that could be dispatched depends on one that departed: for the dispatcher in its body,
for the resolver in its body or its frontmatter. -/
structure Unreferenced (board board' : Board) (calendar : Calendar) (filter : DispatchFilter) :
    Prop where
  available : ∀ task ∈ availableDispatchTasks board.tasks calendar filter,
    ∀ depId ∈ task.bodyDependencyIds, ¬ Departed board board' depId
  dispatchable : ∀ task ∈ dispatchableTasks board calendar,
    ∀ depId ∈ task.dependsOn ++ task.bodyDependencyIds, ¬ Departed board board' depId

theorem dependenciesSatisfied_iff_allSatisfied (hunique : (board.tasks.map Task.id).Nodup)
    {task : Task} :
    dependenciesSatisfied board.tasks task = true ↔ ∀ depId ∈ task.dependsOn,
      depId ∈ board.tasks.map Task.id → depId ∈ doneTaskIds board.tasks := by
  rw [dependenciesSatisfied, List.all_eq_true]
  refine forall₂_congr fun depId _ => ?_
  rw [mem_doneTaskIds_iff hunique]
  cases hstatus : taskStatusById board.tasks depId with
  | none => simp [taskStatusById_eq_none_iff.mp hstatus]
  | some status =>
    obtain ⟨task', hmem, rfl, -⟩ := exists_of_taskStatusById hstatus
    simp [List.mem_map_of_mem hmem]

/-- A frontmatter dependency that departed holds nothing up for the dispatcher. -/
theorem dependenciesSatisfied_of_archives (h : Archives board board')
    (hunique : (board.tasks.map Task.id).Nodup) (task : Task) :
    dependenciesSatisfied board'.tasks task = dependenciesSatisfied board.tasks task := by
  rw [Bool.eq_iff_iff, dependenciesSatisfied_iff_allSatisfied (nodup_of_archives h hunique),
    dependenciesSatisfied_iff_allSatisfied hunique]
  refine forall₂_congr fun depId _ => ?_
  rw [mem_doneTaskIds_of_archives h hunique]
  constructor
  · intro hleft hmem
    by_cases hgone : depId ∈ board'.tasks.map Task.id
    · exact (hleft hgone).1
    · exact done_of_departed h ⟨hmem, hgone⟩
  · intro hdone hmem
    obtain ⟨task', hmem', rfl⟩ := List.mem_map.mp hmem
    obtain ⟨task, htask, hid, -⟩ := task_of_archives h hmem'
    exact ⟨hdone (hid ▸ List.mem_map_of_mem htask), fun hgone => hgone.2 hmem⟩

theorem bodyDependencies_of_archives (h : Archives board board')
    (hunique : (board.tasks.map Task.id).Nodup) (task : Task) :
    (∀ ids, parseBodyDependencyIds task.description = some ids →
        ids ≠ [] ∧ ∀ depId ∈ ids, depId ∈ doneTaskIds board'.tasks) ↔
      (∀ ids, parseBodyDependencyIds task.description = some ids →
        ids ≠ [] ∧ ∀ depId ∈ ids, depId ∈ doneTaskIds board.tasks) ∧
      ∀ depId ∈ task.bodyDependencyIds, ¬ Departed board board' depId := by
  unfold Task.bodyDependencyIds
  cases parseBodyDependencyIds task.description with
  | none => simp
  | some ids =>
    simp only [Option.some.injEq, forall_eq', mem_doneTaskIds_of_archives h hunique,
      Option.getD_some, forall_and, and_assoc]

theorem bodyDependenciesSatisfied_of_archives (h : Archives board board')
    (hunique : (board.tasks.map Task.id).Nodup) (task : Task) :
    bodyDependenciesSatisfied board'.tasks task = true ↔
      bodyDependenciesSatisfied board.tasks task = true ∧
        ∀ depId ∈ task.bodyDependencyIds, ¬ Departed board board' depId := by
  rw [← bodyDependencies_subset_done_iff (nodup_of_archives h hunique),
    ← bodyDependencies_subset_done_iff hunique]
  exact bodyDependencies_of_archives h hunique task

variable {calendar : Calendar} {filter : DispatchFilter}

theorem isAvailable_of_archives (h : Archives board board')
    (hunique : (board.tasks.map Task.id).Nodup) (task : Task) :
    isAvailable board'.tasks calendar filter task = true ↔
      isAvailable board.tasks calendar filter task = true ∧
        ∀ depId ∈ task.bodyDependencyIds, ¬ Departed board board' depId := by
  simp only [isAvailable, Bool.and_eq_true, bodyDependenciesSatisfied_of_archives h hunique,
    dependenciesSatisfied_of_archives h hunique, and_assoc]

/-- Finished tasks are offered to nobody, unless they are due for a verification retry. -/
theorem not_isAvailable_of_done {tasks : List Task} {task : Task}
    (hdone : depStatusSatisfied task.status = true)
    (hretry : task.id ∉ filter.verificationRetryTaskIds) :
    isAvailable tasks calendar filter task = false := by
  have hstatus : task.status = "done" ∨ task.status = "archived" := by
    simpa [depStatusSatisfied] using hdone
  rcases hstatus with hstatus | hstatus <;> simp [isAvailable, hstatus, hretry]

theorem loadWorkflowMetadata_of_archives (h : Archives board board') {task : Task}
    (hmem : task ∈ board.tasks) (hopen : depStatusSatisfied task.status = false) :
    loadWorkflowMetadata board' task = loadWorkflowMetadata board task := by
  obtain ⟨file, hfile, htask⟩ := Board.mem_tasks_iff.mp hmem
  have hname : file.name = task.sourcePath :=
    (TaskFile.sourcePath_eq_name (TaskFile.task_of_boardTask htask)).symm
  have hleft := mem_of_archives h hfile (not_isFinished htask hopen)
  rw [loadWorkflowMetadata, loadWorkflowMetadata, Board.find?_eq_some_iff.mpr ⟨hfile, hname⟩,
    Board.find?_eq_some_iff.mpr ⟨hleft, hname⟩]

theorem isDispatchableTask_of_archives (h : Archives board board')
    (hunique : (board.tasks.map Task.id).Nodup) {task : Task} (hmem : task ∈ board.tasks) :
    isDispatchableTask board' calendar task = true ↔
      isDispatchableTask board calendar task = true ∧
        ∀ depId ∈ task.dependsOn ++ task.bodyDependencyIds, ¬ Departed board board' depId := by
  by_cases hdone : depStatusSatisfied task.status = true
  · simp [isDispatchableTask, hdone]
  · have hmetadata := loadWorkflowMetadata_of_archives h hmem (by simpa using hdone)
    simp only [isDispatchableTask, hmetadata, Bool.and_eq_true, Option.isNone_iff_eq_none,
      blockingReason_eq_none_iff, bodyDependencies_of_archives h hunique, and_assoc]
    simp only [List.forall_mem_append, mem_doneTaskIds_of_archives h hunique, forall_and]
    tauto

/-- **Archiving, seen from the board.** -/
theorem unchanged_of_archives (h : Archives board board')
    (hunique : (board.tasks.map Task.id).Nodup)
    (hretry : ∀ taskId ∈ doneTaskIds board.tasks, taskId ∉ filter.verificationRetryTaskIds) :
    Unchanged board board' calendar filter ↔ Unreferenced board board' calendar filter := by
  have hfinished : ∀ {file : TaskFile} {task : Task}, file.boardTask = some task →
      file.IsFinished → depStatusSatisfied task.status = true := by
    intro file task htask hfinished
    by_contra hopen
    exact not_isFinished htask (by simpa using hopen) hfinished
  have hid : ∀ {file : TaskFile} {task : Task}, file ∈ board'.files →
      file.boardTask = some task → file.IsFinished → task.id ∈ doneTaskIds board.tasks := by
    intro file task hmem htask hdone
    obtain ⟨original, horiginal, hid, hstatus⟩ :=
      task_of_archives h (Board.mem_tasks_iff.mpr ⟨file, hmem, htask⟩)
    rw [← hid]
    refine List.mem_map_of_mem (List.mem_filter.mpr ⟨horiginal, ?_⟩)
    rw [hstatus]
    exact hfinished htask hdone
  -- What is moved away is finished, so the filters see none of it on either board.
  have havailable : board'.tasks.filter (isAvailable board'.tasks calendar filter) =
      board.tasks.filter (isAvailable board'.tasks calendar filter) := by
    refine filter_tasks_of_archives h (fun file hmem task htask hdone => ?_)
      fun file hmem task htask hdone => ?_
    · have hdone' := hfinished htask hdone
      refine not_isAvailable_of_done hdone' (hretry _ ?_)
      exact List.mem_map_of_mem (List.mem_filter.mpr
        ⟨Board.mem_tasks_iff.mpr ⟨file, hmem, htask⟩, hdone'⟩)
    · exact not_isAvailable_of_done (hfinished htask hdone)
        (hretry _ (hid hmem htask hdone))
  have hdispatchable : board'.tasks.filter (isDispatchableTask board' calendar) =
      board.tasks.filter (isDispatchableTask board' calendar) := by
    refine filter_tasks_of_archives h (fun file _ task htask hdone => ?_)
      fun file _ task htask hdone => ?_ <;>
      simp [isDispatchableTask, hfinished htask hdone]
  -- With one list of tasks, it is left to compare the two tests task by task.
  have hsame : Unchanged board board' calendar filter ↔
      (∀ task ∈ board.tasks, isAvailable board'.tasks calendar filter task =
        isAvailable board.tasks calendar filter task) ∧
      ∀ task ∈ board.tasks, isDispatchableTask board' calendar task =
        isDispatchableTask board calendar task := by
    constructor
    · rintro ⟨hone, htwo⟩
      rw [availableDispatchTasks, availableDispatchTasks, havailable,
        insertionSort_filter_eq_iff] at hone
      rw [dispatchableTasks, dispatchableTasks, hdispatchable, filter_eq_filter_iff] at htwo
      exact ⟨hone, htwo⟩
    · rintro ⟨hone, htwo⟩
      refine ⟨?_, ?_⟩
      · rwa [availableDispatchTasks, availableDispatchTasks, havailable,
          insertionSort_filter_eq_iff]
      · rwa [dispatchableTasks, dispatchableTasks, hdispatchable, filter_eq_filter_iff]
  have hone : (∀ task ∈ board.tasks, isAvailable board'.tasks calendar filter task =
        isAvailable board.tasks calendar filter task) ↔
      ∀ task ∈ availableDispatchTasks board.tasks calendar filter,
        ∀ depId ∈ task.bodyDependencyIds, ¬ Departed board board' depId := by
    simp only [mem_availableDispatchTasks, and_imp]
    refine forall₂_congr fun task hmem => ?_
    rw [Bool.eq_iff_iff, isAvailable_of_archives h hunique, and_iff_left_iff_imp]
  have htwo : (∀ task ∈ board.tasks, isDispatchableTask board' calendar task =
        isDispatchableTask board calendar task) ↔
      ∀ task ∈ dispatchableTasks board calendar,
        ∀ depId ∈ task.dependsOn ++ task.bodyDependencyIds, ¬ Departed board board' depId := by
    simp only [dispatchableTasks, List.mem_filter, and_imp]
    refine forall₂_congr fun task hmem => ?_
    rw [Bool.eq_iff_iff, isDispatchableTask_of_archives h hunique hmem, and_iff_left_iff_imp]
  rw [hsame, hone, htwo]
  exact ⟨fun h => ⟨h.1, h.2⟩, fun h => ⟨h.1, h.2⟩⟩

end

/-! ### The commands -/

/-- The two ways of moving finished tasks away. -/
inductive ArchiveCommand where
  | archive (tasks : List Task) (dryRun : Bool)
  | archiveDone (olderThan : Option String)

def ArchiveCommand.run (dates : ArchiveDates) : ArchiveCommand → DiskAction Unit
  | archive tasks dryRun => discard (archiveTasks tasks dryRun)
  | archiveDone olderThan => discard (archiveDoneTasks dates olderThan)

/-- The tasks that are handed over for archiving are done tasks of the board. -/
def ArchiveCommand.IsFor (board : Board) : ArchiveCommand → Prop
  | archive tasks _ => ∀ task ∈ tasks, task ∈ board.tasks ∧ task.status = "done"
  | archiveDone _ => True

section

variable {board : Board} {disk : Disk}

/-- Where a task of the board is finished, so is all that archiving leaves at its path. -/
theorem isFinished_of_archives (h : Archives board disk.board) {task : Task}
    (hmem : task ∈ board.tasks) (hdone : depStatusSatisfied task.status = true) {file : TaskFile}
    (hfind : disk.board.find? task.sourcePath = some file) : file.IsFinished := by
  obtain ⟨hfile, hname⟩ := Board.find?_eq_some_iff.mp hfind
  obtain ⟨original, horiginal, hbecomes⟩ := exists_of_archives h hfile
  rcases hbecomes with hsame | ⟨-, hedit⟩
  · obtain rfl := Option.some.inj hsame
    obtain ⟨found, hfound, htask⟩ := Board.exists_find?_of_mem hmem
    rw [Board.find?_eq_some_iff.mpr ⟨horiginal, hname⟩] at hfound
    obtain rfl := Option.some.inj hfound
    exact ⟨task, htask, hdone⟩
  · exact (hedit file rfl).2.1

theorem after_moveToArchive (h : Archives board disk.board) {task : Task}
    (hmem : task ∈ board.tasks) (hdone : depStatusSatisfied task.status = true) :
    After (moveToArchive task.sourcePath) disk (fun _ disk' => Archives board disk'.board)
      (fun _ disk' => Archives board disk'.board) := by
  simp only [moveToArchive, after_bind, after_get]
  refine (after_access _ disk).mono (fun _ disk' hleads => ?_) fun _ disk' hleads => ?_
  · have h' : Archives board disk'.board := hleads.board ▸ h
    cases hfind : disk'.board.find? task.sourcePath with
    | none => exact h'
    | some file =>
      refine h'.trans (archives_remove fun file hfile => ?_)
      exact isFinished_of_archives h' hmem hdone hfile
  · exact hleads.board ▸ h

theorem after_unlessDry {dryRun : Bool} {action : DiskAction Unit}
    (h : Archives board disk.board)
    (haction : After action disk (fun _ disk' => Archives board disk'.board)
      (fun _ disk' => Archives board disk'.board)) :
    After (unlessDry dryRun action) disk (fun _ disk' => Archives board disk'.board)
      (fun _ disk' => Archives board disk'.board) := by
  unfold unlessDry
  split
  · exact h
  · exact haction

/-- A loop over finished tasks of the board, each of which may be moved away. -/
theorem after_archiveLoop {tasks : List Task} {body : Nat → Task → DiskAction Nat}
    (h : Archives board disk.board)
    (htasks : ∀ task ∈ tasks, task ∈ board.tasks ∧ task.status = "done")
    (hbody : ∀ {count task disk}, Archives board disk.board → task ∈ board.tasks →
      depStatusSatisfied task.status = true → After (body count task) disk
        (fun _ disk' => Archives board disk'.board) (fun _ disk' => Archives board disk'.board)) :
    After (tasks.foldlM body 0) disk (fun _ disk' => Archives board disk'.board)
      (fun _ disk' => Archives board disk'.board) := by
  have hloop := @after_foldlM _ _ _ _ body tasks 0 disk
    (fun rest _ disk' => rest ⊆ tasks ∧ Archives board disk'.board)
    (fun _ disk' => Archives board disk'.board) ⟨List.Subset.refl _, h⟩ <| by
      rintro task rest count disk' ⟨hsubset, h⟩
      obtain ⟨hmem, hstatus⟩ := htasks task (hsubset List.mem_cons_self)
      exact (hbody h hmem (by simp [depStatusSatisfied, hstatus])).mono
        (fun _ _ h => ⟨fun _ h => hsubset (List.mem_cons_of_mem _ h), h⟩) fun _ _ h => h
  exact hloop.mono (fun _ _ h => h.2) fun _ _ h => h

theorem after_access_of_archives {failure : String} (h : Archives board disk.board) :
    After (access failure) disk (fun _ disk' => Archives board disk'.board)
      (fun _ disk' => Archives board disk'.board) :=
  (after_access failure disk).mono (fun _ _ hleads => hleads.board ▸ h) fun _ _ hleads =>
    hleads.board ▸ h

theorem after_archiveTasks {tasks : List Task} {dryRun : Bool}
    (htasks : ∀ task ∈ tasks, task ∈ disk.board.tasks ∧ task.status = "done") :
    After (archiveTasks tasks dryRun) disk (fun _ disk' => Archives disk.board disk'.board)
      (fun _ disk' => Archives disk.board disk'.board) := by
  unfold archiveTasks
  split
  · exact .refl _
  · simp only [after_bind, after_pure]
    refine (after_unlessDry (.refl _) (after_access_of_archives (.refl _))).mono
      (fun _ disk' h => ?_) fun _ _ h => h
    refine after_archiveLoop h htasks fun h hmem hdone => ?_
    simp only [after_bind, after_pure]
    exact after_unlessDry h (after_moveToArchive h hmem hdone)

theorem after_archiveDoneTasks (dates : ArchiveDates) (olderThan : Option String) :
    After (archiveDoneTasks dates olderThan) disk
      (fun _ disk' => Archives disk.board disk'.board)
      (fun _ disk' => Archives disk.board disk'.board) := by
  rw [archiveDoneTasks, after_bind]
  cases parseCutoff dates olderThan with
  | error failure => exact .refl _
  | ok cutoff =>
    rw [after_orFail_ok, after_bind]
    refine (@after_loadTasks disk).mono ?_ fun _ _ hleads => hleads.board ▸ .refl _
    rintro tasks disk' ⟨hleads, rfl⟩
    rw [after_bind, after_get]
    dsimp only
    split
    · exact hleads.board ▸ Archives.refl disk.board
    · rw [after_bind]
      have h : Archives disk.board disk'.board := hleads.board ▸ .refl _
      refine (after_access_of_archives h).mono (fun _ disk'' h => ?_) fun _ _ h => h
      refine after_archiveLoop h (fun task hmem => ?_) fun {count task disk} h hmem hdone => ?_
      · obtain ⟨hmem, hselected⟩ := List.mem_filter.mp hmem
        exact ⟨hmem, of_decide_eq_true (Bool.and_eq_true_iff.mp hselected).1⟩
      · rw [after_bind]
        refine (after_updateTaskFrontmatter _ _).mono (fun _ disk' hleads => ?_)
          fun _ _ hleads => hleads.board ▸ h
        have hmarked : Archives _ disk'.board := hleads.board ▸ archives_update fun file hfind =>
          isFinished_of_archives h hmem hdone hfind
        rw [after_bind]
        exact after_moveToArchive (h.trans hmarked) hmem hdone

/-- **Archiving is invisible** to the dispatcher and the resolver exactly when nothing that they
list depends on what is moved. -/
theorem unchanged_iff_unreferenced (dates : ArchiveDates) (command : ArchiveCommand)
    (calendar : Calendar) {filter : DispatchFilter}
    (hunique : (disk.board.tasks.map Task.id).Nodup) (hcommand : command.IsFor disk.board)
    (hretry : ∀ taskId ∈ doneTaskIds disk.board.tasks, taskId ∉ filter.verificationRetryTaskIds) :
    Unchanged disk.board (endState (command.run dates) disk).board calendar filter ↔
      Unreferenced disk.board (endState (command.run dates) disk).board calendar filter := by
  have hafter : After (command.run dates) disk (fun _ disk' => Archives disk.board disk'.board)
      (fun _ disk' => Archives disk.board disk'.board) := by
    cases command with
    | archive tasks dryRun => exact after_map.mpr (after_archiveTasks hcommand)
    | archiveDone olderThan => exact after_map.mpr (after_archiveDoneTasks dates olderThan)
  exact unchanged_of_archives (after_iff_endState.mp hafter) hunique hretry

end

/-! ### A finished task that is referenced, and one that is not -/

def undatedArchive : ArchiveDates :=
  { parseCutoffDate := fun text => .error text, parseCompletedDate := fun _ => none }

/-- The board `waitingBoard` on a disk that does not fail. -/
def waitingDisk (depId : Nat) : Disk :=
  { board := waitingBoard depId, tasksDir := "tasks", stamp := "", faults := fun _ => false }

/-- Nothing depends on what is archived here. -/
theorem unchanged_iff_unreferenced_waiting :
    Unchanged (waitingBoard 99)
      (endState (ArchiveCommand.run undatedArchive (.archiveDone none)) (waitingDisk 99)).board
      undated openFilter := by
  refine (@unchanged_iff_unreferenced (waitingDisk 99) undatedArchive (.archiveDone none) undated
    openFilter (by decide) trivial (by decide)).mpr ⟨?_, ?_⟩
  · unfold Departed
    decide
  · unfold Departed
    decide

/-- The resolver no longer offers a task once the task it depends on, which is done, is archived. -/
theorem not_unchanged_waiting :
    ¬ ∀ (disk : Disk) (command : ArchiveCommand) (calendar : Calendar) (filter : DispatchFilter),
      (disk.board.tasks.map Task.id).Nodup → command.IsFor disk.board →
      (∀ taskId ∈ doneTaskIds disk.board.tasks, taskId ∉ filter.verificationRetryTaskIds) →
      Unchanged disk.board (endState (command.run undatedArchive) disk).board calendar filter := by
  intro h
  have hunchanged := h (waitingDisk 2) (.archiveDone none) undated openFilter (by decide) trivial
    (by decide)
  have hbefore : (dispatchableTasks (waitingBoard 2) undated).length = 1 := by decide
  have hafter : (dispatchableTasks
      (endState (ArchiveCommand.run undatedArchive (.archiveDone none)) (waitingDisk 2)).board
      undated).length = 0 := by decide
  rw [hunchanged.dispatchable] at hafter
  have hsame : (dispatchableTasks (waitingBoard 2) undated).length = 0 := hafter
  rw [hbefore] at hsame
  cases hsame

end Batty
