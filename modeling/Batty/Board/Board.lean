import Batty.Foundation.Lists
import Batty.Board.Task

/-!
# The board

The board is a directory of task files. File names are distinct, and that is all that is
promised: two files may carry the same task id, and a file's name may disagree with the id
inside it. `Board.tasks` is the directory read into tasks, in the order every reader sees;
`Board.findPath` is where an edit of a task goes. With duplicate ids the file an edit goes to
need not be the one a reader took the task from, so both directions are stated at the level of
files: an edit changes one file (`find?_update`) and every reader sees the result
(`mem_tasks_iff`).
-/

namespace Batty

/-- A directory of task files, in directory order. -/
structure Board where
  files : List TaskFile
  nodup : (files.map TaskFile.name).Nodup

/-- The file name has the extension of a task file. -/
def hasTaskExtension (name : String) : Bool :=
  ".md".toList.isSuffixOf name.toList && name != ".md"

/-- The task id a file name starts with, as in `007-title.md`. -/
def taskIdFromFilename (name : String) : Option Nat :=
  if ".md".toList.isSuffixOf name.toList then
    (name.toList.splitOn '-').head?.bind Text.parseU32
  else none

/-- The task of a file that counts as a task file. -/
def TaskFile.boardTask (file : TaskFile) : Option Task :=
  if hasTaskExtension file.name then file.task else none

theorem TaskFile.sourcePath_eq_name {file : TaskFile} {task : Task} (h : file.task = some task) :
    task.sourcePath = file.name :=
  (Task.parse_eq_some_iff.mp h).sourcePath

theorem TaskFile.task_of_boardTask {file : TaskFile} {task : Task}
    (h : file.boardTask = some task) : file.task = some task := by
  unfold boardTask at h
  split at h
  · exact h
  · cases h

namespace Board

/-- The tasks on the board, by id; equal ids stay in directory order. -/
def tasks (board : Board) : List Task :=
  (board.files.filterMap TaskFile.boardTask).insertionSort fun task task' => task.id ≤ task'.id

theorem mem_tasks_iff {board : Board} {task : Task} :
    task ∈ board.tasks ↔ ∃ file ∈ board.files, file.boardTask = some task := by
  rw [tasks, List.mem_insertionSort, List.mem_filterMap]

def find? (board : Board) (path : String) : Option TaskFile :=
  board.files.find? fun file => file.name = path

theorem find?_eq_some_iff {board : Board} {path : String} {file : TaskFile} :
    board.find? path = some file ↔ file ∈ board.files ∧ file.name = path := by
  refine ⟨fun h => ⟨List.mem_of_find?_eq_some h, by simpa using List.find?_some h⟩, ?_⟩
  rintro ⟨hmem, rfl⟩
  exact find?_of_nodup_map board.nodup hmem

/-- The task in the file at `path`. -/
def taskAt (board : Board) (path : String) : Option Task := (board.find? path).bind TaskFile.task

/-- The evidence recorded in the file at `path`. -/
def workflowMetadata (board : Board) (path : String) : Option WorkflowMetadata :=
  (board.find? path).bind TaskFile.workflowMetadata

/-- The file whose name and content agree on the task id. -/
def findPathByName (board : Board) (taskId : Nat) : Option String :=
  (board.files.find? fun file =>
    decide (taskIdFromFilename file.name = some taskId) &&
      decide (file.task.map Task.id = some taskId)).map TaskFile.name

/-- Where an edit of the task goes: the file that names it, else the first that holds it. -/
def findPath (board : Board) (taskId : Nat) : Option String :=
  (board.findPathByName taskId).or
    ((board.tasks.find? fun task => task.id = taskId).map Task.sourcePath)

/-- The board with the frontmatter of one file edited. -/
def update (board : Board) (path : String) (mutator : Mapping → Mapping) : Board where
  files := board.files.map fun file => if file.name = path then file.update mutator else file
  nodup := by
    have hnames : (board.files.map fun file =>
        if file.name = path then file.update mutator else file).map TaskFile.name =
        board.files.map TaskFile.name := by
      rw [List.map_map]
      exact List.map_congr_left fun file _ => by
        simp only [Function.comp_apply]
        split <;> simp
    rw [hnames]
    exact board.nodup

theorem find?_update (board : Board) (path path' : String) (mutator : Mapping → Mapping) :
    (board.update path mutator).find? path' =
      (board.find? path').map fun file =>
        if path' = path then file.update mutator else file := by
  ext file
  simp only [Option.map_eq_some_iff, find?_eq_some_iff, update, List.mem_map]
  constructor
  · rintro ⟨⟨original, hmem, rfl⟩, hname⟩
    have hpath : original.name = path' := by
      rw [← hname]
      split <;> simp
    exact ⟨original, ⟨hmem, hpath⟩, by simp only [hpath]⟩
  · rintro ⟨original, ⟨hmem, rfl⟩, rfl⟩
    refine ⟨⟨original, hmem, rfl⟩, ?_⟩
    split <;> simp

theorem mem_files_update_iff {board : Board} {path : String} {mutator : Mapping → Mapping}
    {file : TaskFile} :
    file ∈ (board.update path mutator).files ↔
      ∃ original ∈ board.files,
        (if original.name = path then original.update mutator else original) = file := by
  simp only [update, List.mem_map]

/-- A reader's task comes from the file it names. -/
theorem exists_find?_of_mem {board : Board} {task : Task} (h : task ∈ board.tasks) :
    ∃ file, board.find? task.sourcePath = some file ∧ file.task = some task := by
  obtain ⟨file, hmem, htask⟩ := mem_tasks_iff.mp h
  have htask := file.task_of_boardTask htask
  exact ⟨file, find?_eq_some_iff.mpr ⟨hmem, (file.sourcePath_eq_name htask).symm⟩, htask⟩

theorem taskAt_sourcePath {board : Board} {task : Task} (h : task ∈ board.tasks) :
    board.taskAt task.sourcePath = some task := by
  obtain ⟨file, hfind, htask⟩ := exists_find?_of_mem h
  rw [taskAt, hfind, Option.bind_some, htask]

/-- **An edit goes to a file that holds the task.** -/
theorem exists_of_findPath {board : Board} {taskId : Nat} {path : String}
    (h : board.findPath taskId = some path) :
    ∃ file ∈ board.files, file.name = path ∧ ∃ task, file.task = some task ∧ task.id = taskId := by
  rw [findPath, Option.or_eq_some_iff] at h
  rcases h with h | ⟨-, h⟩
  · obtain ⟨file, hfind, rfl⟩ := Option.map_eq_some_iff.mp h
    have hfile := List.find?_some hfind
    simp only [Bool.and_eq_true, decide_eq_true_eq, Option.map_eq_some_iff] at hfile
    exact ⟨file, List.mem_of_find?_eq_some hfind, rfl, hfile.2⟩
  · obtain ⟨task, hfind, rfl⟩ := Option.map_eq_some_iff.mp h
    obtain ⟨file, hmem, htask⟩ := mem_tasks_iff.mp (List.mem_of_find?_eq_some hfind)
    have htask := file.task_of_boardTask htask
    exact ⟨file, hmem, (file.sourcePath_eq_name htask).symm, task, htask,
      by simpa using List.find?_some hfind⟩

/-- There is a file for every task a reader sees. -/
theorem findPath_isSome {board : Board} {task : Task} (h : task ∈ board.tasks) :
    (board.findPath task.id).isSome := by
  rw [findPath, Option.isSome_or, Bool.or_eq_true]
  right
  rw [Option.isSome_map, List.find?_isSome]
  exact ⟨task, h, by simp⟩

/-- Every task on the later board asks for what a task on the earlier one asks for. -/
def Onward (board board' : Board) : Prop :=
  ∀ task' ∈ board'.tasks, ∃ task ∈ board.tasks, task.SameBrief task'

theorem Onward.refl (board : Board) : board.Onward board := fun task h => ⟨task, h, .refl task⟩

theorem Onward.trans {board board' board'' : Board} (h : board.Onward board')
    (h' : board'.Onward board'') : board.Onward board'' := by
  intro task'' hmem
  obtain ⟨task', hmem', hsame'⟩ := h' task'' hmem
  obtain ⟨task, hmem, hsame⟩ := h task' hmem'
  exact ⟨task, hmem, hsame.trans hsame'⟩

end Board

/-- The mutator turns the file of a task into the file of the same task. -/
def EditsTasks (mutator : Mapping → Mapping) : Prop :=
  ∀ {file : TaskFile} {task : Task}, file.task = some task →
    ∃ task', (file.update mutator).task = some task' ∧ task.SameBrief task'

/-- **An edit of a task goes on.** -/
theorem Board.onward_update {board : Board} {taskId : Nat} {path : String}
    {mutator : Mapping → Mapping} (hpath : board.findPath taskId = some path)
    (hmutator : EditsTasks mutator) : board.Onward (board.update path mutator) := by
  intro task' hmem
  obtain ⟨file', hfile', htask'⟩ := mem_tasks_iff.mp hmem
  obtain ⟨file, hfile, rfl⟩ := mem_files_update_iff.mp hfile'
  split at htask'
  · rename_i hname
    obtain ⟨edited, hedited, rfl, task, htask, -⟩ := exists_of_findPath hpath
    obtain rfl : file = edited := by
      have hfind := find?_eq_some_iff.mpr ⟨hfile, hname⟩
      rw [find?_eq_some_iff.mpr ⟨hedited, rfl⟩] at hfind
      exact (Option.some.inj hfind).symm
    obtain ⟨edit, hedit, hsame⟩ := hmutator htask
    rw [TaskFile.boardTask, TaskFile.name_update] at htask'
    split at htask'
    · rename_i hextension
      obtain rfl : edit = task' := Option.some.inj (hedit.symm.trans htask')
      exact ⟨task, mem_tasks_iff.mpr ⟨file, hfile, by rw [TaskFile.boardTask, if_pos hextension, htask]⟩,
        hsame⟩
    · cases htask'
  · exact ⟨task', mem_tasks_iff.mpr ⟨file, hfile, htask'⟩, .refl task'⟩

/-- The task on the board that an edit of one file leaves in the place of `other`. -/
def Task.replacedBy (task : Task) (path : String) (other : Task) : Task :=
  if other.sourcePath = path then task else other

/-- **What readers see after an edit**: the tasks in the same order, with that of the file
replaced. -/
theorem Board.tasks_update {board : Board} {path : String} {mutator : Mapping → Mapping}
    {file : TaskFile} {task task' : Task} (hfile : board.find? path = some file)
    (htask : file.task = some task) (htask' : (file.update mutator).task = some task')
    (hid : task'.id = task.id) :
    (board.update path mutator).tasks = board.tasks.map (task'.replacedBy path) := by
  obtain ⟨hmem, rfl⟩ := find?_eq_some_iff.mp hfile
  have hfiles : (board.update file.name mutator).files.filterMap TaskFile.boardTask =
      (board.files.filterMap TaskFile.boardTask).map (task'.replacedBy file.name) := by
    rw [update, List.filterMap_map, List.map_filterMap]
    refine List.filterMap_congr fun other hother => ?_
    simp only [Function.comp_apply]
    split
    · rename_i hname
      obtain rfl : other = file := by
        have hfind := find?_eq_some_iff.mpr ⟨hother, hname⟩
        rw [hfile] at hfind
        exact (Option.some.inj hfind).symm
      simp only [TaskFile.boardTask, TaskFile.name_update, htask, htask']
      split
      · simp [Task.replacedBy, TaskFile.sourcePath_eq_name htask]
      · rfl
    · rename_i hname
      cases hother' : other.boardTask with
      | none => rfl
      | some otherTask =>
        have hpath := TaskFile.sourcePath_eq_name (TaskFile.task_of_boardTask hother')
        simp [Task.replacedBy, hpath, hname]
  rw [tasks, tasks, hfiles]
  refine (List.map_insertionSort _ _ _ _ fun one hone two htwo => ?_).symm
  have hsameId : ∀ other ∈ board.files.filterMap TaskFile.boardTask,
      (task'.replacedBy file.name other).id = other.id := by
    intro other hother
    unfold Task.replacedBy
    split
    · rename_i hpath
      obtain ⟨otherFile, hotherFile, hotherTask⟩ := List.mem_filterMap.mp hother
      have hotherTask := TaskFile.task_of_boardTask hotherTask
      have hname := (TaskFile.sourcePath_eq_name hotherTask).symm.trans hpath
      have hfind := find?_eq_some_iff.mpr ⟨hotherFile, hname⟩
      rw [hfile] at hfind
      obtain rfl := Option.some.inj hfind
      obtain rfl := Option.some.inj (htask.symm.trans hotherTask)
      exact hid
    · rfl
  rw [hsameId one hone, hsameId two htwo]

/-- The only task a reader sees at a path is the one in that file. -/
theorem Board.eq_of_sourcePath {board : Board} {path : String} {file : TaskFile} {task other : Task}
    (hfile : board.find? path = some file) (htask : file.task = some task)
    (hother : other ∈ board.tasks) (hpath : other.sourcePath = path) : other = task := by
  obtain ⟨otherFile, hfind, hotherTask⟩ := exists_find?_of_mem hother
  rw [hpath, hfile] at hfind
  obtain rfl := Option.some.inj hfind
  exact Option.some.inj (hotherTask.symm.trans htask)

end Batty
