import Batty.Board.TaskCmd
import Batty.Foundation.Loops

/-!
# A member is removed

A member that leaves the team gives its tasks back: what it had under way or in review goes to
`todo`, and every claim of it is taken off. The tasks are gone through one after the other, and
the first error ends the loop.

* `Frees`: what a removal is to leave behind.
* `frees_iff_releasable`: it does so exactly when each claimed task is in the file that its id
  leads to, none of them is in review, and none of the accesses fails that it takes to release
  them.
-/

namespace Batty

def requeueIfActive (task : Task) : DiskAction Unit :=
  if task.status = "in-progress" ∨ task.status = "review" then transitionTask task.id "todo"
  else pure ()

def releaseRemoved (name : String) (task : Task) : DiskAction Unit :=
  if task.claimedBy ≠ some name then pure ()
  else do
    requeueIfActive task
    unclaimTask task.id

def requeueRemovedMemberTasks (name : String) : DiskAction Unit := do
  let tasks ← loadTasks
  tasks.foldlM (fun _ task => releaseRemoved name task) ()

/-- The board's part in a removal, whose error is only logged. -/
def removeMember (name : String) : DiskAction (Except String Unit) :=
  attempt (requeueRemovedMemberTasks name)

/-- The board is free of the member, and what the member had under way waits again. -/
structure Frees (name : String) (board board' : Board) : Prop where
  unclaimed : ∀ task ∈ board'.tasks, task.claimedBy ≠ some name
  requeued : ∀ task ∈ board.tasks, task.claimedBy = some name →
    task.status = "in-progress" ∨ task.status = "review" →
      ∃ task', board'.taskAt task.sourcePath = some task' ∧ task'.status = "todo"

/-! ### Counting accesses -/

/-- `disk'` is `disk` after `count` accesses, all of which succeeded, with `board` on it. -/
structure Disk.Spends (disk : Disk) (count : Nat) (board : Board) (disk' : Disk) : Prop where
  board : disk'.board = board
  accesses : disk'.accesses = disk.accesses + count
  faults : disk'.faults = disk.faults
  works : ∀ n < count, disk.faults (disk.accesses + n) = false

/-- One of the next `count` accesses fails. -/
def Disk.Trips (disk : Disk) (count : Nat) : Prop :=
  ∃ n < count, disk.faults (disk.accesses + n) = true

section

variable {disk disk' disk'' : Disk} {board board' : Board} {count count' : Nat}

theorem Disk.Spends.refl (disk : Disk) : disk.Spends 0 disk.board disk :=
  ⟨rfl, rfl, rfl, by simp⟩

theorem Disk.Spends.trans (h : disk.Spends count board disk')
    (h' : disk'.Spends count' board' disk'') : disk.Spends (count + count') board' disk'' := by
  refine ⟨h'.board, ?_, h'.faults.trans h.faults, fun n hn => ?_⟩
  · rw [h'.accesses, h.accesses, Nat.add_assoc]
  · by_cases hlt : n < count
    · exact h.works n hlt
    · have hworks := h'.works (n - count) (by omega)
      rw [h.faults, h.accesses] at hworks
      rwa [show disk.accesses + n = disk.accesses + count + (n - count) by omega]

theorem Disk.Spends.trips (h : disk.Spends count board disk') (h' : disk'.Trips count') :
    disk.Trips (count + count') := by
  obtain ⟨n, hn, hfault⟩ := h'
  refine ⟨count + n, by omega, ?_⟩
  rw [h.faults, h.accesses] at hfault
  rwa [← Nat.add_assoc]

theorem Disk.Trips.mono (h : disk.Trips count) (hle : count ≤ count') : disk.Trips count' := by
  obtain ⟨n, hn, hfault⟩ := h
  exact ⟨n, by omega, hfault⟩

/-- Accesses that succeeded are none that failed. -/
theorem Disk.Spends.not_trips (h : disk.Spends count board disk') : ¬ disk.Trips count := by
  rintro ⟨n, hn, hfault⟩
  rw [h.works n hn] at hfault
  cases hfault

theorem spends_access (failure : String) (disk : Disk) : After (access failure) disk
    (fun _ disk' => disk.Spends 1 disk.board disk')
    (fun _ disk' => disk.Trips 1 ∧ disk'.board = disk.board) := by
  simp only [access, after_bind, after_get, after_set]
  split
  · rename_i hfault
    exact ⟨⟨0, Nat.one_pos, hfault⟩, rfl⟩
  · rename_i hworks
    refine ⟨rfl, rfl, rfl, fun n hn => ?_⟩
    obtain rfl : n = 0 := by omega
    simpa using hworks

/-- What it takes to find the file of a task. -/
def findAccesses (board : Board) (taskId : Nat) : Nat :=
  if (board.findPathByName taskId).isSome then 1 else 2

theorem spends_findTaskPath {taskId : Nat} {path : String}
    (hpath : disk.board.findPath taskId = some path) : After (findTaskPath taskId) disk
      (fun path' disk' => path' = path ∧
        disk.Spends (findAccesses disk.board taskId) disk.board disk')
      (fun _ disk' => disk.Trips (findAccesses disk.board taskId) ∧ disk'.board = disk.board) := by
  simp only [findTaskPath, after_bind, after_get]
  have hpos : 1 ≤ findAccesses disk.board taskId := by unfold findAccesses; split <;> omega
  refine (spends_access _ disk).mono (fun _ disk' h => ?_) fun _ _ h => ⟨h.1.mono hpos, h.2⟩
  simp only [h.board]
  cases hname : disk.board.findPathByName taskId with
  | some found =>
    rw [Board.findPath, hname, Option.some_or, Option.some.injEq] at hpath
    exact ⟨hpath, by simpa [findAccesses, hname] using h⟩
  | none =>
    have htwo : findAccesses disk.board taskId = 2 := by simp [findAccesses, hname]
    rw [Board.findPath, hname, Option.none_or, Option.map_eq_some_iff] at hpath
    obtain ⟨task, hfind, hsource⟩ := hpath
    simp only [loadTasks, after_bind, after_get, after_pure]
    refine (spends_access _ disk').mono (fun _ disk'' h' => ?_) fun _ _ h' => ?_
    · rw [h'.board, h.board, hfind]
      rw [h.board] at h'
      exact ⟨hsource, htwo ▸ h.trans h'⟩
    · exact ⟨htwo ▸ h.trips h'.1, h'.2.trans h.board⟩

theorem spends_updateTaskFrontmatter (path : String) (mutator : Mapping → Mapping) :
    After (updateTaskFrontmatter path mutator) disk
      (fun _ disk' => disk.Spends 2 (disk.board.update path mutator) disk')
      (fun _ disk' => disk.Trips 2 ∧ disk'.board = disk.board) := by
  simp only [updateTaskFrontmatter, after_bind, after_modify]
  refine (spends_access _ disk).mono (fun _ disk' h => ?_)
    fun _ _ h => ⟨h.1.mono (by omega), h.2⟩
  refine (spends_access _ disk').mono (fun _ disk'' h' => ?_) fun _ _ h' => ?_
  · have hboth := h.trans h'
    exact ⟨by simp only [h'.board, h.board], hboth.accesses, hboth.faults, hboth.works⟩
  · exact ⟨h.trips h'.1, h'.2.trans h.board⟩

theorem spends_recordStatusTransitionActivity (fromStatus toStatus : String) :
    After (recordStatusTransitionActivity fromStatus toStatus) disk
      (fun _ disk' => disk.Spends (if fromStatus = toStatus then 0 else 1) disk.board disk')
      (fun _ disk' => disk.Trips (if fromStatus = toStatus then 0 else 1) ∧
        disk'.board = disk.board) := by
  unfold recordStatusTransitionActivity
  split
  · exact Disk.Spends.refl disk
  · exact spends_access _ disk

variable {taskId : Nat} {path : String} (hpath : disk.board.findPath taskId = some path)
include hpath

theorem spends_editTask (mutator : Mapping → Mapping) : After (editTask taskId mutator) disk
    (fun _ disk' => disk.Spends (findAccesses disk.board taskId + 2)
      (disk.board.update path mutator) disk')
    (fun _ disk' => disk.Trips (findAccesses disk.board taskId + 2) ∧
      disk'.board = disk.board) := by
  simp only [editTask, after_bind]
  refine (spends_findTaskPath hpath).mono ?_ fun _ _ h => ⟨h.1.mono (by omega), h.2⟩
  rintro path' disk' ⟨rfl, h⟩
  refine (spends_updateTaskFrontmatter path' mutator).mono (fun _ disk'' h' => ?_) fun _ _ h' => ?_
  · rw [h.board] at h'
    exact h.trans h'
  · exact ⟨h.trips h'.1, h'.2.trans h.board⟩

/-- A transition is made if it is allowed and no access fails before the write. -/
def Disk.TransitionMoves (disk : Disk) (taskId : Nat) (status : String) (state : TaskState) : Prop :=
  MayMove status state ∧ ¬ disk.Trips (findAccesses disk.board taskId + 3)

/-- The accesses of a transition that returns: a status that changes is logged after the write. -/
def transitionAccesses (board : Board) (taskId : Nat) (status : String) (state : TaskState) : Nat :=
  findAccesses board taskId + 3 + if status = stateName state then 0 else 1

/-- **A transition** is made if it is allowed and no access fails before the write, and then it
returns unless the activity log fails. -/
theorem spends_transition {task : Task} (htask : disk.board.taskAt path = some task)
    (state : TaskState) : After (transitionTask taskId (stateName state)) disk
      (fun _ disk' => MayMove task.status state ∧
        disk.Spends (transitionAccesses disk.board taskId task.status state)
          (disk.board.update path (transitionMutator state)) disk')
      (fun _ disk' =>
        (disk.TransitionMoves taskId task.status state ∧
          disk.Trips (transitionAccesses disk.board taskId task.status state) ∧
            disk'.board = disk.board.update path (transitionMutator state)) ∨
        (¬ disk.TransitionMoves taskId task.status state ∧ disk'.board = disk.board)) := by
  -- an access that fails before the write
  have hfails : ∀ {count : Nat} {board : Board}, disk.Trips count →
      count ≤ findAccesses disk.board taskId + 3 → board = disk.board →
      ¬ disk.TransitionMoves taskId task.status state ∧ board = disk.board :=
    fun htrips hle hboard => ⟨fun hmoves => hmoves.2 (htrips.mono hle), hboard⟩
  simp only [transitionTask, transitionWith, after_bind]
  refine (spends_findTaskPath hpath).mono ?_ fun _ _ h₁ => .inr (hfails h₁.1 (by omega) h₁.2)
  rintro path' disk₁ ⟨rfl, h₁⟩
  simp only [taskFromFile, after_bind, after_get]
  refine (spends_access _ disk₁).mono (fun _ disk₂ h₂ => ?_) fun _ disk₂ h₂ =>
    .inr (hfails (h₁.trips h₂.1) (by omega) (h₂.2.trans h₁.board))
  have hread := h₁.trans h₂
  have hboard : disk₂.board = disk.board := h₂.board.trans h₁.board
  rw [hboard, htask]
  simp only [after_pure]
  cases hcurrent : parseTaskState task.status with
  | error error =>
    refine (after_orFail_error _).mpr (.inr ⟨?_, hboard⟩)
    rintro ⟨⟨current, hparse, -⟩, -⟩
    rw [hcurrent] at hparse
    cases hparse
  | ok current =>
    rw [after_orFail_ok, parseTaskState_stateName, after_orFail_ok]
    cases hallowed : canTransition current state with
    | error error =>
      refine (after_orFail_error _).mpr (.inr ⟨?_, hboard⟩)
      rintro ⟨⟨current', hparse, hallowed'⟩, -⟩
      rw [hcurrent, Except.ok.injEq] at hparse
      rw [← hparse, hallowed] at hallowed'
      cases hallowed'
    | ok _ =>
      have hmay : MayMove task.status state := ⟨current, hcurrent, hallowed⟩
      rw [after_orFail_ok]
      refine (spends_updateTaskFrontmatter _ _).mono (fun _ disk₃ h₃ => ?_) fun _ _ h₃ =>
        .inr (hfails (hread.trips h₃.1) (by omega) (h₃.2.trans hboard))
      have hwritten := hread.trans h₃
      rw [hboard] at hwritten
      -- the activity log comes after the write
      refine (spends_recordStatusTransitionActivity _ _).mono (fun _ disk₄ h₄ => ?_)
        fun _ disk₄ h₄ => ?_
      · rw [hwritten.board] at h₄
        exact ⟨hmay, hwritten.trans h₄⟩
      · exact .inl ⟨⟨hmay, hwritten.not_trips⟩, hwritten.trips h₄.1, h₄.2.trans hwritten.board⟩

/-- A task under way goes back to `todo`; a failure in the activity log comes after the write. -/
theorem spends_transitionTask {task : Task} (htask : disk.board.taskAt path = some task)
    (hstatus : task.status = "in-progress") : After (transitionTask taskId "todo") disk
      (fun _ disk' => disk.Spends (findAccesses disk.board taskId + 4)
        (disk.board.update path (transitionMutator .todo)) disk')
      (fun _ disk' => disk.Trips (findAccesses disk.board taskId + 4) ∧
        (disk'.board = disk.board ∨
          disk'.board = disk.board.update path (transitionMutator .todo))) := by
  have hmay : MayMove "in-progress" .todo := by decide
  have hlogged : transitionAccesses disk.board taskId "in-progress" .todo =
      findAccesses disk.board taskId + 4 := rfl
  have htransition := spends_transition hpath htask .todo
  rw [hstatus, hlogged] at htransition
  refine htransition.mono (fun _ disk' h => h.2) ?_
  rintro _ disk' (⟨-, htrips, hboard⟩ | ⟨hmoves, hboard⟩)
  · exact ⟨htrips, .inr hboard⟩
  · have htrips := Classical.byContradiction fun h => hmoves ⟨hmay, h⟩
    exact ⟨htrips.mono (by omega), .inl hboard⟩

/-- A task in review cannot go back to `todo`. -/
theorem after_transitionTask_review {task : Task} (htask : disk.board.taskAt path = some task)
    (hstatus : task.status = "review") : After (transitionTask taskId "todo") disk
      (fun _ _ => False) (fun _ disk' => disk'.board = disk.board) := by
  have hmay : ¬ MayMove task.status .todo := by
    rw [hstatus]
    decide
  refine (spends_transition hpath htask .todo).mono (fun _ _ h => hmay h.1) ?_
  rintro _ disk' (⟨hmoves, -⟩ | ⟨-, hboard⟩)
  · exact absurd hmoves.1 hmay
  · exact hboard

end

/-! ### Edits leave files where they are -/

/-- The mutator turns the file of a task into the file of a task with the same id. -/
def KeepsIds (mutator : Mapping → Mapping) : Prop :=
  ∀ {file : TaskFile} {task : Task}, file.task = some task →
    ∃ task', (file.update mutator).task = some task' ∧ task'.id = task.id

theorem EditsTasks.keepsIds {mutator : Mapping → Mapping} (h : EditsTasks mutator) :
    KeepsIds mutator := by
  intro file task htask
  obtain ⟨task', htask', hsame⟩ := h htask
  exact ⟨task', htask', hsame.id⟩

theorem Board.taskAt_update {board : Board} {path : String} {file : TaskFile}
    (hfind : board.find? path = some file) (mutator : Mapping → Mapping) :
    (board.update path mutator).taskAt path = (file.update mutator).task := by
  rw [Board.taskAt, Board.find?_update, hfind, Option.map_some, if_pos rfl, Option.bind_some]

section

variable {board : Board} {path : String} {task : Task} {mutator : Mapping → Mapping}
  (htask : board.taskAt path = some task)
include htask

theorem taskAt_update_self (hmutator : EditsTasks mutator) : ∃ file task',
    board.find? path = some file ∧ file.task = some task ∧
      (file.update mutator).task = some task' ∧ task.SameBrief task' ∧
        (board.update path mutator).taskAt path = some task' := by
  obtain ⟨file, hfind, hread⟩ := Option.bind_eq_some_iff.mp htask
  obtain ⟨task', htask', hsame⟩ := hmutator hread
  exact ⟨file, task', hfind, hread, htask', hsame, (Board.taskAt_update hfind _).trans htask'⟩

variable (hmutator : KeepsIds mutator)
include hmutator

theorem findPathByName_update (taskId : Nat) :
    (board.update path mutator).findPathByName taskId = board.findPathByName taskId := by
  obtain ⟨edited, hfind, hread⟩ := Option.bind_eq_some_iff.mp htask
  obtain ⟨task', htask', hsameId⟩ := hmutator hread
  rw [Board.findPathByName, Board.findPathByName, Board.update, List.find?_map, Option.map_map]
  have hid : ∀ file ∈ board.files,
      (if file.name = path then file.update mutator else file).name = file.name ∧
      (if file.name = path then file.update mutator else file).task.map Task.id =
        file.task.map Task.id := by
    intro file hmem
    split
    · rename_i hname
      have hfile := Board.find?_eq_some_iff.mpr ⟨hmem, hname⟩
      rw [hfind] at hfile
      obtain rfl := Option.some.inj hfile
      exact ⟨TaskFile.name_update .., by
        rw [htask', hread, Option.map_some, Option.map_some, hsameId]⟩
    · exact ⟨rfl, rfl⟩
  rw [find?_congr (q := fun file => decide (taskIdFromFilename file.name = some taskId) &&
    decide (file.task.map Task.id = some taskId)) fun file hmem => by
      simp only [Function.comp_apply, hid file hmem]]
  refine Option.map_congr fun file hfound => ?_
  exact (hid file (List.mem_of_find?_eq_some hfound)).1

theorem findPath_update (taskId : Nat) :
    (board.update path mutator).findPath taskId = board.findPath taskId := by
  obtain ⟨file, hfind, hread⟩ := Option.bind_eq_some_iff.mp htask
  obtain ⟨task', htask', hsameId⟩ := hmutator hread
  have hsource : task'.sourcePath = task.sourcePath :=
    (TaskFile.sourcePath_eq_name htask').trans (TaskFile.sourcePath_eq_name hread).symm
  rw [Board.findPath, Board.findPath, findPathByName_update htask hmutator,
    Board.tasks_update hfind hread htask' hsameId, List.find?_map, Option.map_map]
  have hkept : ∀ other ∈ board.tasks, (task'.replacedBy path other).id = other.id ∧
      (task'.replacedBy path other).sourcePath = other.sourcePath := by
    intro other hmem
    unfold Task.replacedBy
    split
    · rename_i hpath
      obtain rfl := Board.eq_of_sourcePath hfind hread hmem hpath
      exact ⟨hsameId, hsource⟩
    · exact ⟨rfl, rfl⟩
  rw [find?_congr (q := fun task => task.id = taskId) fun other hmem => by
    simp only [Function.comp_apply, hkept other hmem]]
  congr 1
  exact Option.map_congr fun other hfound => (hkept other (List.mem_of_find?_eq_some hfound)).2

end

theorem find?_update_of_ne {board : Board} {path path' : String} (mutator : Mapping → Mapping)
    (h : path' ≠ path) : (board.update path mutator).find? path' = board.find? path' := by
  rw [Board.find?_update]
  simp only [if_neg h, Option.map_id']

/-! ### One task -/

/-- What it takes to release a task. -/
def releaseAccesses (board : Board) (task : Task) : Nat :=
  (if task.status = "in-progress" then findAccesses board task.id + 4 else 0) +
    (findAccesses board task.id + 2)

/-- `board'` is `board` up to the file at `path`: every task is found where it was. -/
structure SameBut (path : String) (board board' : Board) : Prop where
  find? : ∀ path', path' ≠ path → board'.find? path' = board.find? path'
  findPath : ∀ taskId, board'.findPath taskId = board.findPath taskId
  findPathByName : ∀ taskId, board'.findPathByName taskId = board.findPathByName taskId

theorem SameBut.refl (path : String) (board : Board) : SameBut path board board :=
  ⟨fun _ _ => rfl, fun _ => rfl, fun _ => rfl⟩

theorem SameBut.trans {path : String} {board board' board'' : Board} (h : SameBut path board board')
    (h' : SameBut path board' board'') : SameBut path board board'' :=
  ⟨fun path' hne => (h'.find? path' hne).trans (h.find? path' hne),
    fun taskId => (h'.findPath taskId).trans (h.findPath taskId),
    fun taskId => (h'.findPathByName taskId).trans (h.findPathByName taskId)⟩

theorem sameBut_update {board : Board} {path : String} {task : Task} {mutator : Mapping → Mapping}
    (htask : board.taskAt path = some task) (hmutator : EditsTasks mutator) :
    SameBut path board (board.update path mutator) :=
  ⟨fun _ hne => find?_update_of_ne mutator hne, findPath_update htask hmutator.keepsIds,
    findPathByName_update htask hmutator.keepsIds⟩

/-- The file at `path` holds the task, claimed by the member. -/
def Holds (name : String) (board : Board) (path : String) : Prop :=
  ∃ task, board.taskAt path = some task ∧ task.claimedBy = some name

/-- The task was released: nobody claims it, and if it was under way it waits again. -/
def Released (task : Task) (board : Board) : Prop :=
  ∃ task', board.taskAt task.sourcePath = some task' ∧ task'.claimedBy = none ∧
    (task.status = "in-progress" → task'.status = "todo")

section

variable {name : String} {disk : Disk} {task : Task}

/-- **Releasing a task** that its id leads to. -/
theorem after_releaseRemoved (hclaimed : task.claimedBy = some name)
    (htask : disk.board.taskAt task.sourcePath = some task)
    (hpath : disk.board.findPath task.id = some task.sourcePath) :
    After (releaseRemoved name task) disk
      (fun _ disk' => task.status ≠ "review" ∧ Released task disk'.board ∧
        SameBut task.sourcePath disk.board disk'.board ∧
        ∃ board, disk.Spends (releaseAccesses disk.board task) board disk')
      (fun _ disk' => (task.status = "review" ∨ disk.Trips (releaseAccesses disk.board task)) ∧
        Holds name disk'.board task.sourcePath ∧
        SameBut task.sourcePath disk.board disk'.board) := by
  have hholds : Holds name disk.board task.sourcePath := ⟨task, htask, hclaimed⟩
  rw [releaseRemoved, if_neg (by simpa using hclaimed), after_bind]
  by_cases hreview : task.status = "review"
  · rw [requeueIfActive, if_pos (.inr hreview)]
    refine (after_transitionTask_review hpath htask hreview).mono (fun _ _ h => h.elim) ?_
    intro _ disk' h
    rw [h]
    exact ⟨.inl hreview, hholds, .refl _ _⟩
  -- the file that is left when the task is about to be unclaimed
  have hunclaim : ∀ {disk' : Disk} {current : Task} {count : Nat},
      (∃ board, disk.Spends count board disk') → SameBut task.sourcePath disk.board disk'.board →
      disk'.board.taskAt task.sourcePath = some current → current.claimedBy = some name →
      (task.status = "in-progress" → current.status = "todo") →
      count + (findAccesses disk.board task.id + 2) = releaseAccesses disk.board task →
      After (unclaimTask task.id) disk'
        (fun _ disk'' => task.status ≠ "review" ∧ Released task disk''.board ∧
          SameBut task.sourcePath disk.board disk''.board ∧
          ∃ board, disk.Spends (releaseAccesses disk.board task) board disk'')
        (fun _ disk'' => (task.status = "review" ∨
            disk.Trips (releaseAccesses disk.board task)) ∧
          Holds name disk''.board task.sourcePath ∧
          SameBut task.sourcePath disk.board disk''.board) := by
    rintro disk' current count ⟨board, hspends⟩ hsame hcurrent hcurrentClaimed hstatus hcount
    have hfind : findAccesses disk'.board task.id = findAccesses disk.board task.id := by
      rw [findAccesses, findAccesses, hsame.findPathByName]
    have hpath' : disk'.board.findPath task.id = some task.sourcePath :=
      (hsame.findPath task.id).trans hpath
    refine (spends_editTask hpath' unclaimMutator).mono (fun _ disk'' h => ?_) fun _ disk'' h => ?_
    · obtain ⟨file, released, -, hread, hreleased, -, hreleasedAt⟩ :=
        taskAt_update_self hcurrent editsTasks_unclaim
      obtain ⟨task', htask', hedit⟩ := task_update_unclaim hread
      obtain rfl := Option.some.inj (hreleased.symm.trans htask')
      refine ⟨hreview, ⟨released, ?_, hedit.claimedBy, fun hactive => ?_⟩, ?_,
        disk'.board.update task.sourcePath unclaimMutator, ?_⟩
      · rw [h.board]
        exact hreleasedAt
      · rw [hedit.status, hstatus hactive]
      · rw [h.board]
        exact hsame.trans (sameBut_update hcurrent editsTasks_unclaim)
      · rw [← hcount, ← hfind]
        exact hspends.trans h
    · refine ⟨.inr ?_, ?_, ?_⟩
      · rw [← hcount, ← hfind]
        exact hspends.trips h.1
      · rw [h.2]
        exact ⟨current, hcurrent, hcurrentClaimed⟩
      · rw [h.2]
        exact hsame
  by_cases hactive : task.status = "in-progress"
  · rw [requeueIfActive, if_pos (.inl hactive)]
    obtain ⟨file, moved, -, hread, hmoved, -, hmovedAt⟩ :=
      taskAt_update_self htask (editsTasks_transition .todo)
    obtain ⟨task', htask', hedit⟩ := task_update_transition hread .todo
    obtain rfl := Option.some.inj (hmoved.symm.trans htask')
    have hsame := sameBut_update htask (editsTasks_transition .todo)
    refine (spends_transitionTask hpath htask hactive).mono (fun _ disk' h => ?_)
      fun _ disk' h => ?_
    · refine @hunclaim disk' moved _ ⟨_, h⟩ ?_ ?_ (hedit.claimedBy.trans hclaimed) ?_ ?_
      · rw [h.board]
        exact hsame
      · rw [h.board]
        exact hmovedAt
      · exact fun _ => hedit.status
      · rw [releaseAccesses, if_pos hactive]
    · have htrips : disk.Trips (releaseAccesses disk.board task) := by
        refine h.1.mono ?_
        rw [releaseAccesses, if_pos hactive]
        omega
      rcases h.2 with hboard | hboard <;> rw [hboard]
      · exact ⟨.inr htrips, hholds, .refl _ _⟩
      · exact ⟨.inr htrips, ⟨moved, hmovedAt, hedit.claimedBy.trans hclaimed⟩, hsame⟩
  · rw [requeueIfActive, if_neg (by simp [hactive, hreview])]
    refine hunclaim ⟨_, .refl disk⟩ (.refl _ _) htask hclaimed (fun h => absurd h hactive) ?_
    rw [releaseAccesses, if_neg hactive]

/-- Only the file that its id leads to changes when a task is released. -/
structure SparesOthers (taskIds : List Nat) (board board' : Board) : Prop where
  find? : ∀ path, (∀ taskId ∈ taskIds, board.findPath taskId ≠ some path) →
    board'.find? path = board.find? path
  findPath : ∀ taskId, board'.findPath taskId = board.findPath taskId

theorem SparesOthers.refl (taskIds : List Nat) (board : Board) : SparesOthers taskIds board board :=
  ⟨fun _ _ => rfl, fun _ => rfl⟩

theorem SparesOthers.trans {taskIds : List Nat} {board board' board'' : Board}
    (h : SparesOthers taskIds board board') (h' : SparesOthers taskIds board' board'') :
    SparesOthers taskIds board board'' := by
  refine ⟨fun path hpath => ?_, fun taskId => (h'.findPath taskId).trans (h.findPath taskId)⟩
  rw [h'.find? path fun taskId hmem => h.findPath taskId ▸ hpath taskId hmem, h.find? path hpath]

theorem sparesOthers_of_edits {disk disk' : Disk} {taskId : Nat} {mutator : Mapping → Mapping}
    (h : disk.Leads disk.board disk' ∨ disk.Edits taskId mutator disk')
    (hmutator : EditsTasks mutator) : SparesOthers [taskId] disk.board disk'.board := by
  rcases h with h | ⟨path, hpath, h⟩ <;> rw [h.board]
  · exact .refl _ _
  · obtain ⟨file, hmem, rfl, task, htask, -⟩ := Board.exists_of_findPath hpath
    have hat : disk.board.taskAt file.name = some task := by
      rw [Board.taskAt, Board.find?_eq_some_iff.mpr ⟨hmem, rfl⟩, Option.bind_some, htask]
    have hsame := sameBut_update hat hmutator
    refine ⟨fun path' hne => hsame.find? path' ?_, hsame.findPath⟩
    rintro rfl
    exact hne taskId (by simp) hpath

theorem sparesOthers_releaseRemoved : After (releaseRemoved name task) disk
    (fun _ disk' => SparesOthers [task.id] disk.board disk'.board)
    (fun _ disk' => SparesOthers [task.id] disk.board disk'.board) := by
  unfold releaseRemoved
  split
  · exact .refl _ _
  · rw [after_bind]
    have hunclaim : ∀ {disk' : Disk}, SparesOthers [task.id] disk.board disk'.board →
        After (unclaimTask task.id) disk'
          (fun _ disk'' => SparesOthers [task.id] disk.board disk''.board)
          (fun _ disk'' => SparesOthers [task.id] disk.board disk''.board) := fun h =>
      (after_editTask task.id unclaimMutator).mono
        (fun _ _ h' => h.trans (sparesOthers_of_edits (.inr h') editsTasks_unclaim))
        fun _ _ h' => h.trans (sparesOthers_of_edits (.inl h') editsTasks_unclaim)
    unfold requeueIfActive
    split
    · refine (after_transitionTask task.id rfl).mono (fun _ disk' h => ?_) fun _ disk' h => ?_
      · exact hunclaim (sparesOthers_of_edits h (editsTasks_transition .todo))
      · exact sparesOthers_of_edits h (editsTasks_transition .todo)
    · exact hunclaim (.refl _ _)

end

/-! ### All of them -/

/-- The tasks that the member has claimed. -/
def claimedTasks (name : String) (board : Board) : List Task :=
  board.tasks.filter fun task => task.claimedBy = some name

def removalAccesses (name : String) (board : Board) : Nat :=
  1 + ((claimedTasks name board).map (releaseAccesses board)).sum

/-- The claimed tasks are where their ids lead to, none of them is in review, and no access fails
that it takes to release them. -/
def Releasable (name : String) (disk : Disk) : Prop :=
  claimedTasks name disk.board = [] ∨
    (∀ task ∈ claimedTasks name disk.board, task.status ≠ "review" ∧
      disk.board.findPath task.id = some task.sourcePath) ∧
    ¬ disk.Trips (removalAccesses name disk.board)

section

variable {name : String} {disk : Disk}

/-- Tasks of others are passed over. -/
theorem foldlM_releaseRemoved (tasks : List Task) :
    tasks.foldlM (fun _ task => releaseRemoved name task) () =
      (tasks.filter fun task => task.claimedBy = some name).foldlM
        (fun _ task => releaseRemoved name task) () := by
  induction tasks with
  | nil => rfl
  | cons task tasks ih =>
    by_cases hclaimed : task.claimedBy = some name
    · rw [List.filter_cons_of_pos (by simpa using hclaimed), List.foldlM_cons, List.foldlM_cons]
      exact congrArg _ (funext fun _ => ih)
    · rw [List.filter_cons_of_neg (by simpa using hclaimed), List.foldlM_cons, ← ih,
        releaseRemoved, if_pos hclaimed]
      rfl

/-- **The loop.** It releases every task, or ends at the first that cannot be released, which is
then still claimed. -/
theorem after_releaseLoop {tasks : List Task} (hnodup : (tasks.map Task.sourcePath).Nodup)
    (htasks : ∀ task ∈ tasks, task.claimedBy = some name ∧
      disk.board.taskAt task.sourcePath = some task ∧
      disk.board.findPath task.id = some task.sourcePath) :
    After (tasks.foldlM (fun _ task => releaseRemoved name task) ()) disk
      (fun _ disk' => (∀ task ∈ tasks, task.status ≠ "review" ∧ Released task disk'.board) ∧
        (∃ board, disk.Spends (tasks.map (releaseAccesses disk.board)).sum board disk') ∧
        ∀ path ∉ tasks.map Task.sourcePath, disk'.board.find? path = disk.board.find? path)
      (fun _ disk' => ((∃ task ∈ tasks, task.status = "review") ∨
          disk.Trips (tasks.map (releaseAccesses disk.board)).sum) ∧
        ∃ task ∈ tasks, Holds name disk'.board task.sourcePath) := by
  induction tasks generalizing disk with
  | nil => exact ⟨by simp, ⟨_, .refl disk⟩, fun _ _ => rfl⟩
  | cons task tasks ih =>
    obtain ⟨⟨hclaimed, hat, hpath⟩, hrest⟩ := List.forall_mem_cons.mp htasks
    rw [List.map_cons, List.nodup_cons] at hnodup
    rw [List.foldlM_cons, after_bind, List.map_cons, List.sum_cons]
    refine (after_releaseRemoved hclaimed hat hpath).mono ?_ ?_
    · rintro _ disk' ⟨hreview, ⟨task', hat', hreleased⟩, hsame, board, hspends⟩
      -- The names on the board are the same, so the rest needs as many accesses as before.
      have haccesses : tasks.map (releaseAccesses disk'.board) =
          tasks.map (releaseAccesses disk.board) := by
        refine List.map_congr_left fun other _ => ?_
        simp only [releaseAccesses, findAccesses, hsame.findPathByName]
      refine (@ih disk' hnodup.2 fun other hmem => ?_).mono ?_ ?_
      · obtain ⟨hclaimed', hat', hpath'⟩ := hrest other hmem
        refine ⟨hclaimed', ?_, (hsame.findPath _).trans hpath'⟩
        have hne : other.sourcePath ≠ task.sourcePath := fun heq =>
          hnodup.1 (heq ▸ List.mem_map_of_mem hmem)
        rw [Board.taskAt, hsame.find? _ hne]
        exact hat'
      · rintro _ disk'' ⟨hall, ⟨board', hspends'⟩, hframe⟩
        rw [haccesses] at hspends'
        refine ⟨List.forall_mem_cons.mpr ⟨⟨hreview, task', ?_, hreleased⟩, hall⟩,
          ⟨board', hspends.trans hspends'⟩, fun path hnot => ?_⟩
        · rw [Board.taskAt, hframe _ hnodup.1]
          exact hat'
        · simp only [List.map_cons, List.mem_cons, not_or] at hnot
          rw [hframe path hnot.2, hsame.find? path hnot.1]
      · rintro _ disk'' ⟨hwhy, other, hmem, hholds⟩
        rw [haccesses] at hwhy
        refine ⟨?_, other, List.mem_cons_of_mem _ hmem, hholds⟩
        rcases hwhy with ⟨other, hmem, hreview⟩ | htrips
        · exact .inl ⟨other, List.mem_cons_of_mem _ hmem, hreview⟩
        · exact .inr (hspends.trips htrips)
    · rintro _ disk' ⟨hwhy, hholds, -⟩
      refine ⟨?_, task, List.mem_cons_self, hholds⟩
      rcases hwhy with hreview | htrips
      · exact .inl ⟨task, List.mem_cons_self, hreview⟩
      · exact .inr (htrips.mono (Nat.le_add_right _ _))

theorem nodup_sourcePath (board : Board) : (board.tasks.map Task.sourcePath).Nodup := by
  have hsublist : ((board.files.filterMap TaskFile.boardTask).map Task.sourcePath).Sublist
      (board.files.map TaskFile.name) := by
    rw [List.map_filterMap, ← List.filterMap_eq_map]
    refine sublist_filterMap fun file _ => ?_
    cases htask : file.boardTask with
    | none => exact .inl rfl
    | some task =>
      have hname := TaskFile.sourcePath_eq_name (TaskFile.task_of_boardTask htask)
      exact .inr (congrArg some hname)
  have hperm : (board.tasks.map Task.sourcePath).Perm
      ((board.files.filterMap TaskFile.boardTask).map Task.sourcePath) :=
    (List.perm_insertionSort _ _).map _
  exact hperm.nodup_iff.mpr (hsublist.nodup board.nodup)

/-- A claim that stands in a file of the board is seen by every reader. -/
theorem not_frees_of_holds {board board' : Board} {task : Task} (hmem : task ∈ board.tasks)
    (h : Holds name board' task.sourcePath) : ¬ Frees name board board' := by
  rintro ⟨hunclaimed, -⟩
  obtain ⟨held, hat, hclaimed⟩ := h
  obtain ⟨file', hfind', hread'⟩ := Option.bind_eq_some_iff.mp hat
  obtain ⟨hfile', hname'⟩ := Board.find?_eq_some_iff.mp hfind'
  obtain ⟨file, -, htask⟩ := Board.mem_tasks_iff.mp hmem
  have hname := TaskFile.sourcePath_eq_name (TaskFile.task_of_boardTask htask)
  refine hunclaimed held (Board.mem_tasks_iff.mpr ⟨file', hfile', ?_⟩) hclaimed
  unfold TaskFile.boardTask at htask ⊢
  rw [hname', hname]
  split at htask
  · rename_i hextension
    rwa [if_pos hextension]
  · cases htask

/-- A board whose claimed tasks were all released is free of the member. -/
theorem frees_of_released {board board' : Board}
    (hreleased : ∀ task ∈ claimedTasks name board, task.status ≠ "review" ∧ Released task board')
    (hframe : ∀ path ∉ (claimedTasks name board).map Task.sourcePath,
      board'.find? path = board.find? path) : Frees name board board' := by
  constructor
  · intro task' hmem' hclaimed
    by_cases hpath : task'.sourcePath ∈ (claimedTasks name board).map Task.sourcePath
    · obtain ⟨task, hmem, hsource⟩ := List.mem_map.mp hpath
      obtain ⟨-, released, hat, hnone, -⟩ := hreleased task hmem
      rw [hsource, Board.taskAt_sourcePath hmem'] at hat
      obtain rfl := Option.some.inj hat
      rw [hnone] at hclaimed
      cases hclaimed
    · obtain ⟨file', hfile', htask'⟩ := Board.mem_tasks_iff.mp hmem'
      have hname := TaskFile.sourcePath_eq_name (TaskFile.task_of_boardTask htask')
      have hfind := Board.find?_eq_some_iff.mpr ⟨hfile', hname.symm⟩
      rw [hframe _ hpath] at hfind
      have hmem : task' ∈ board.tasks :=
        Board.mem_tasks_iff.mpr ⟨file', (Board.find?_eq_some_iff.mp hfind).1, htask'⟩
      exact hpath (List.mem_map_of_mem (List.mem_filter.mpr ⟨hmem, by simpa using hclaimed⟩))
  · intro task hmem hclaimed hactive
    obtain ⟨hreview, released, hat, -, htodo⟩ :=
      hreleased task (List.mem_filter.mpr ⟨hmem, by simpa using hclaimed⟩)
    exact ⟨released, hat, htodo (hactive.resolve_right hreview)⟩

theorem after_requeueRemovedMemberTasks
    (hpaths : ∀ task ∈ claimedTasks name disk.board,
      disk.board.findPath task.id = some task.sourcePath) :
    After (requeueRemovedMemberTasks name) disk
      (fun _ disk' => Frees name disk.board disk'.board ∧
        (∀ task ∈ claimedTasks name disk.board, task.status ≠ "review") ∧
        ¬ disk.Trips (removalAccesses name disk.board))
      (fun _ disk' => ((∃ task ∈ claimedTasks name disk.board, task.status = "review") ∨
          disk.Trips (removalAccesses name disk.board)) ∧
        (claimedTasks name disk.board ≠ [] → ¬ Frees name disk.board disk'.board)) := by
  have hclaim : ∀ task ∈ claimedTasks name disk.board,
      task ∈ disk.board.tasks ∧ task.claimedBy = some name := fun task hmem =>
    ⟨(List.mem_filter.mp hmem).1, by simpa using (List.mem_filter.mp hmem).2⟩
  simp only [requeueRemovedMemberTasks, loadTasks, after_bind, after_get, after_pure]
  refine (spends_access _ disk).mono (fun _ disk' h => ?_) fun _ disk' h => ?_
  · rw [h.board, foldlM_releaseRemoved]
    have hloop := @after_releaseLoop name disk' (claimedTasks name disk.board)
      ((nodup_sourcePath disk.board).sublist (List.filter_sublist.map _)) fun task hmem => by
        obtain ⟨hmem', hclaimed⟩ := hclaim task hmem
        rw [h.board]
        exact ⟨hclaimed, Board.taskAt_sourcePath hmem', hpaths task hmem⟩
    rw [h.board] at hloop
    refine hloop.mono ?_ ?_
    · rintro _ disk'' ⟨hall, ⟨board, hspends⟩, hframe⟩
      refine ⟨frees_of_released hall hframe, fun task hmem => (hall task hmem).1, ?_⟩
      exact (h.trans hspends).not_trips
    · rintro _ disk'' ⟨hwhy, task, hmem, hholds⟩
      refine ⟨hwhy.imp id h.trips, fun _ => not_frees_of_holds (hclaim task hmem).1 hholds⟩
  · refine ⟨.inr (h.1.mono (Nat.le_add_right _ _)), fun hsome => ?_⟩
    obtain ⟨task, hmem⟩ := List.exists_mem_of_ne_nil _ hsome
    obtain ⟨hmem', hclaimed⟩ := hclaim task hmem
    exact not_frees_of_holds hmem' ⟨task, h.2 ▸ Board.taskAt_sourcePath hmem', hclaimed⟩

/-- Files that no claimed id leads to stay as they are, however the loop ends. -/
theorem sparesOthers_requeueRemovedMemberTasks : After (requeueRemovedMemberTasks name) disk
    (fun _ disk' => SparesOthers ((claimedTasks name disk.board).map Task.id) disk.board disk'.board)
    (fun _ disk' => SparesOthers ((claimedTasks name disk.board).map Task.id) disk.board
      disk'.board) := by
  simp only [requeueRemovedMemberTasks, loadTasks, after_bind, after_get, after_pure]
  refine (spends_access _ disk).mono (fun _ disk' h => ?_) fun _ disk' h => h.2 ▸ .refl _ _
  rw [h.board, foldlM_releaseRemoved]
  refine (@after_foldlM _ _ _ _ _ (claimedTasks name disk.board) () disk'
    (fun rest _ disk'' => rest ⊆ claimedTasks name disk.board ∧
      SparesOthers ((claimedTasks name disk.board).map Task.id) disk.board disk''.board) _
    ⟨List.Subset.refl _, h.board ▸ .refl _ _⟩ ?_).mono (fun _ _ h => h.2) fun _ _ h => h
  rintro task rest _ disk'' ⟨hsubset, hkeeps⟩
  have hmem := hsubset List.mem_cons_self
  have hwider : ∀ {board}, SparesOthers [task.id] disk''.board board →
      SparesOthers ((claimedTasks name disk.board).map Task.id) disk.board board := fun hone =>
    hkeeps.trans ⟨fun path hpath => hone.find? path fun taskId hid => by
      obtain rfl := List.mem_singleton.mp hid
      exact hpath _ (List.mem_map_of_mem hmem), hone.findPath⟩
  exact sparesOthers_releaseRemoved.mono
    (fun _ _ hone => ⟨fun _ hmem => hsubset (List.mem_cons_of_mem _ hmem), hwider hone⟩)
    fun _ _ hone => hwider hone

theorem endState_removeMember : endState (removeMember name) disk =
    endState (requeueRemovedMemberTasks name) disk := by
  unfold removeMember endState attempt
  cases requeueRemovedMemberTasks name disk <;> rfl

/-- A claim in a file that its own id does not lead to is never taken off. -/
theorem holds_of_misplaced {board' : Board} {task : Task}
    (hmem : task ∈ claimedTasks name disk.board)
    (hpath : disk.board.findPath task.id ≠ some task.sourcePath)
    (h : SparesOthers ((claimedTasks name disk.board).map Task.id) disk.board board') :
    Holds name board' task.sourcePath := by
  obtain ⟨hmem', hclaimed⟩ := List.mem_filter.mp hmem
  refine ⟨task, ?_, by simpa using hclaimed⟩
  rw [Board.taskAt, h.find?]
  · exact Board.taskAt_sourcePath hmem'
  · rintro taskId - hlead
    obtain ⟨file, hfile, hname, found, hfound, rfl⟩ := Board.exists_of_findPath hlead
    have hsame := Board.taskAt_sourcePath hmem'
    rw [Board.taskAt, Board.find?_eq_some_iff.mpr ⟨hfile, hname⟩, Option.bind_some, hfound] at hsame
    obtain rfl := Option.some.inj hsame
    exact hpath hlead

/-- **A removal frees the board** exactly when it can release every task of the member. -/
theorem frees_iff_releasable (name : String) (disk : Disk) :
    Frees name disk.board (endState (removeMember name) disk).board ↔ Releasable name disk := by
  rw [endState_removeMember]
  have hkeeps := after_iff_endState.mp (@sparesOthers_requeueRemovedMemberTasks name disk)
  by_cases hnone : claimedTasks name disk.board = []
  · refine iff_of_true (frees_of_released ?_ fun path _ => ?_) (.inl hnone)
    · simp [hnone]
    · exact hkeeps.find? path (by simp [hnone])
  by_cases hpaths : ∀ task ∈ claimedTasks name disk.board,
      disk.board.findPath task.id = some task.sourcePath
  · have hafter := after_requeueRemovedMemberTasks hpaths
    unfold After at hafter
    unfold endState
    cases hrun : requeueRemovedMemberTasks name disk with
    | ok _ disk' =>
      obtain ⟨hfrees, hreview, hworks⟩ := by simpa only [hrun] using hafter
      exact iff_of_true hfrees (.inr ⟨fun task hmem => ⟨hreview task hmem, hpaths task hmem⟩, hworks⟩)
    | error _ disk' =>
      obtain ⟨hwhy, hnot⟩ := by simpa only [hrun] using hafter
      refine iff_of_false (hnot hnone) ?_
      rintro (hnil | ⟨hall, hworks⟩)
      · exact hnone hnil
      · rcases hwhy with ⟨task, hmem, hreview⟩ | htrips
        · exact (hall task hmem).1 hreview
        · exact hworks htrips
  · obtain ⟨task, hmem, hpath⟩ : ∃ task ∈ claimedTasks name disk.board,
        disk.board.findPath task.id ≠ some task.sourcePath := by
      by_contra hall
      exact hpaths fun task hmem => by_contra fun hpath => hall ⟨task, hmem, hpath⟩
    refine iff_of_false ?_ ?_
    · exact not_frees_of_holds (List.mem_filter.mp hmem).1 (holds_of_misplaced hmem hpath hkeeps)
    · rintro (hnil | ⟨hall, -⟩)
      · exact hnone hnil
      · exact hpath (hall task hmem).2

end

/-! ### A task in review -/

/-- A member with a task in review, and one under way. -/
def leavingBoard : Board where
  files := [{
      name := "001-review.md"
      fenceNewline := true
      frontmatter := .ofList [(.id, .number 1), (.title, .string "review"),
        (.status, .string "review"), (.claimedBy, .string "eng-1")]
      body := "" },
    { name := "002-work.md"
      fenceNewline := true
      frontmatter := .ofList [(.id, .number 2), (.title, .string "work"),
        (.status, .string "in-progress"), (.claimedBy, .string "eng-1")]
      body := "" }]
  nodup := by simp

def leavingDisk : Disk :=
  { board := leavingBoard, tasksDir := "tasks", stamp := "", faults := fun _ => false }

/-- Neither task is released, as the one in review ends the loop. -/
theorem not_frees_leaving : ¬ ∀ (name : String) (disk : Disk),
    Frees name disk.board (endState (removeMember name) disk).board := by
  intro h
  have hclaimed : ((endState (removeMember "eng-1") leavingDisk).board.tasks.map
      Task.claimedBy) = [some "eng-1", some "eng-1"] := by decide
  have hfirst : some "eng-1" ∈ (endState (removeMember "eng-1") leavingDisk).board.tasks.map
      Task.claimedBy := hclaimed ▸ List.mem_cons_self
  obtain ⟨task, hmem, hname⟩ := List.mem_map.mp hfirst
  exact (h "eng-1" leavingDisk).unclaimed task hmem hname

end Batty
