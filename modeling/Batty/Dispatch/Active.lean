import Batty.Dispatch.Claims
import Batty.Dispatch.Examined

/-!
# Active items

How the items that are active for an engineer change with the board. An edit makes a task active
for the engineer only by moving one that the engineer has claimed already, or by handing it over;
either is harmless if the task was active for the engineer before, or nothing was
(`Board.Replaced.length_activeItems_le`). `Board.Goes` collects what a sequence of such edits does
to the board.
-/

namespace Batty

/-! ### Counting -/

section

variable {board board' : Board} {path engineer : String} {held task' : Task}
  (h : board.Replaced path task' board') (hheld : board.taskAt path = some held)
include h hheld

theorem Board.Replaced.length_activeItems_le_of_active
    (hactive : task'.isActiveFor engineer = true → held.isActiveFor engineer = true) :
    (board'.activeItems engineer).length ≤ (board.activeItems engineer).length := by
  obtain ⟨file, hfind, hread⟩ := Option.bind_eq_some_iff.mp hheld
  rw [activeItems, activeItems, h.tasks, List.filter_map, List.length_map,
    ← List.countP_eq_length_filter, ← List.countP_eq_length_filter]
  refine List.countP_mono_left fun other hmem hother => ?_
  simp only [Function.comp_apply, Task.replacedBy] at hother
  split at hother
  · rename_i hpath
    rw [Board.eq_of_sourcePath hfind hread hmem hpath]
    exact hactive hother
  · exact hother

omit hheld in
/-- One edit makes at most one task active. -/
theorem Board.Replaced.length_activeItems_le_one (hnone : board.activeItems engineer = []) :
    (board'.activeItems engineer).length ≤ 1 := by
  rw [activeItems, h.tasks, List.filter_map, List.length_map]
  have hpaths : ∀ other ∈ board.tasks.filter ((fun task => task.isActiveFor engineer) ∘
      task'.replacedBy path), other.sourcePath = path := by
    intro other hmem
    obtain ⟨hother, hactive⟩ := List.mem_filter.mp hmem
    by_contra hpath
    have hsame : task'.replacedBy path other = other := if_neg hpath
    rw [Function.comp_apply, hsame] at hactive
    have hnot : other ∉ board.activeItems engineer := by simp [hnone]
    exact hnot (List.mem_filter.mpr ⟨hother, hactive⟩)
  have hnodup : ((board.tasks.filter ((fun task => task.isActiveFor engineer) ∘
      task'.replacedBy path)).map Task.sourcePath).Nodup :=
    (nodup_sourcePath board).sublist (List.filter_sublist.map _)
  have hall := List.eq_replicate_of_mem fun other hother => by
    obtain ⟨task, htask, rfl⟩ := List.mem_map.mp hother
    exact hpaths task htask
  rwa [hall, List.nodup_replicate, List.length_map] at hnodup

/-- **An edit is harmless** if the task was active for the engineer, or nothing was. -/
theorem Board.Replaced.length_activeItems_le (hsafe : task'.isActiveFor engineer = true →
    held.isActiveFor engineer = true ∨ board.activeItems engineer = []) :
    (board'.activeItems engineer).length ≤ max 1 (board.activeItems engineer).length := by
  by_cases hnone : board.activeItems engineer = []
  · exact (h.length_activeItems_le_one hnone).trans (le_max_left _ _)
  · exact (h.length_activeItems_le_of_active hheld fun hactive =>
      (hsafe hactive).resolve_right hnone).trans (le_max_right _ _)

end

/-! ### How boards go on -/

/-- The later task is the earlier one, with its claim or without. -/
structure Task.Unclaims (task task' : Task) : Prop where
  id : task'.id = task.id
  sourcePath : task'.sourcePath = task.sourcePath
  claimedBy : task'.claimedBy = task.claimedBy ∨ task'.claimedBy = none

/-- The same, and the status is what it was or `todo`, unless the task was finished. -/
structure Task.Recedes (task task' : Task) : Prop extends task.Unclaims task' where
  status : task'.status = task.status ∨ task'.status = "todo" ∨
    depStatusSatisfied task.status = true

/-- The same, and the status is what it was, unless the id is one of `ids`. -/
structure Task.Cleared (ids : List Nat) (task task' : Task) : Prop extends task.Unclaims task' where
  status : task'.status = task.status ∨ task.id ∈ ids

/-- The tasks go on as they will. -/
def Task.Any (_ _ : Task) : Prop := True

instance : IsPreorder Task Task.Any where
  refl _ := trivial
  trans _ _ _ _ _ := trivial

instance : IsPreorder Task Task.Unclaims where
  refl _ := ⟨rfl, rfl, .inl rfl⟩
  trans _ _ _ h h' := ⟨h'.id.trans h.id, h'.sourcePath.trans h.sourcePath, by
    rcases h'.claimedBy with hsame | hnone
    · rw [hsame]
      exact h.claimedBy
    · exact .inr hnone⟩

instance : IsPreorder Task Task.Recedes where
  refl task := ⟨refl_of Task.Unclaims task, .inl rfl⟩
  trans _ _ _ h h' := ⟨trans_of Task.Unclaims h.toUnclaims h'.toUnclaims, by
    rcases h'.status with hsame | htodo | hfinished
    · rw [hsame]
      exact h.status
    · exact .inr (.inl htodo)
    · rcases h.status with hsame | htodo | hfinished'
      · rw [hsame] at hfinished
        exact .inr (.inr hfinished)
      · rw [htodo] at hfinished
        cases hfinished
      · exact .inr (.inr hfinished')⟩

instance (ids : List Nat) : IsPreorder Task (Task.Cleared ids) where
  refl task := ⟨refl_of Task.Unclaims task, .inl rfl⟩
  trans _ _ _ h h' := ⟨trans_of Task.Unclaims h.toUnclaims h'.toUnclaims, by
    rcases h'.status with hsame | hid
    · rw [hsame]
      exact h.status
    · exact .inr (h.id ▸ hid)⟩

/-- No two files share an id, so that the edits of a task go to its file. -/
def Board.Distinct (board : Board) : Prop :=
  ∀ task ∈ board.tasks, board.findPath task.id = some task.sourcePath

/-- The board goes on to `board'`: the files stay where they are, each task goes on as `T` says,
and the engineer gets a second active item only if it had one. -/
structure Board.Goes (T : Task → Task → Prop) (engineer : String) (board board' : Board) :
    Prop where
  findPath : ∀ taskId, board'.findPath taskId = board.findPath taskId
  tasks : ∀ task' ∈ board'.tasks, ∃ task ∈ board.tasks,
    task'.id = task.id ∧ task'.sourcePath = task.sourcePath
  task : ∀ task ∈ board.tasks, ∃ task' ∈ board'.tasks, T task task'
  length : (board'.activeItems engineer).length ≤ max 1 (board.activeItems engineer).length

section

variable {T T' : Task → Task → Prop} {engineer : String} {board board' : Board}

instance [IsPreorder Task T] : IsPreorder Board (Board.Goes T engineer) where
  refl board := ⟨fun _ => rfl, fun task hmem => ⟨task, hmem, rfl, rfl⟩,
    fun task hmem => ⟨task, hmem, refl_of T task⟩, le_max_right _ _⟩
  trans _ _ _ h h' := by
    refine ⟨fun taskId => (h'.findPath taskId).trans (h.findPath taskId), ?_, ?_, ?_⟩
    · intro task'' hmem
      obtain ⟨task', hmem', hid', hpath'⟩ := h'.tasks task'' hmem
      obtain ⟨task, hmem, hid, hpath⟩ := h.tasks task' hmem'
      exact ⟨task, hmem, hid'.trans hid, hpath'.trans hpath⟩
    · intro task hmem
      obtain ⟨task', hmem', ht⟩ := h.task task hmem
      obtain ⟨task'', hmem'', ht'⟩ := h'.task task' hmem'
      exact ⟨task'', hmem'', trans_of T ht ht'⟩
    · have hlength := h.length
      have hlength' := h'.length
      omega

theorem Board.Goes.mono (h : board.Goes T engineer board')
    (hT : ∀ task ∈ board.tasks, ∀ task', T task task' → T' task task') :
    board.Goes T' engineer board' := by
  refine ⟨h.findPath, h.tasks, fun task hmem => ?_, h.length⟩
  obtain ⟨task', hmem', ht⟩ := h.task task hmem
  exact ⟨task', hmem', hT _ hmem _ ht⟩

theorem Board.Goes.distinct (h : board.Goes T engineer board') (hdistinct : board.Distinct) :
    board'.Distinct := by
  intro task' hmem
  obtain ⟨task, hmem, hid, hpath⟩ := h.tasks task' hmem
  rw [h.findPath, hid, hpath]
  exact hdistinct task hmem

/-- A harmless edit of one file. -/
theorem Board.Replaced.goes [IsPreorder Task T] {path : String} {held task' : Task}
    (h : board.Replaced path task' board') (hheld : board.taskAt path = some held)
    (hbrief : held.SameBrief task') (hT : T held task')
    (hsafe : task'.isActiveFor engineer = true →
      held.isActiveFor engineer = true ∨ board.activeItems engineer = []) :
    board.Goes T engineer board' := by
  obtain ⟨file, hfind, hread⟩ := Option.bind_eq_some_iff.mp hheld
  have hmoved : ∀ other ∈ board.tasks, task'.replacedBy path other ∈ board'.tasks ∧
      (task'.replacedBy path other).id = other.id ∧
        (task'.replacedBy path other).sourcePath = other.sourcePath ∧
          T other (task'.replacedBy path other) := by
    intro other hmem
    refine ⟨h.tasks ▸ List.mem_map_of_mem hmem, ?_⟩
    unfold Task.replacedBy
    split
    · rename_i hpath
      obtain rfl := Board.eq_of_sourcePath hfind hread hmem hpath
      exact ⟨hbrief.id, hbrief.sourcePath, hT⟩
    · exact ⟨rfl, rfl, refl_of T other⟩
  refine ⟨h.findPath, ?_, fun task hmem => ⟨_, (hmoved task hmem).1, (hmoved task hmem).2.2.2⟩,
    h.length_activeItems_le hheld hsafe⟩
  intro moved hmem
  rw [h.tasks] at hmem
  obtain ⟨other, hother, rfl⟩ := List.mem_map.mp hmem
  exact ⟨other, hother, (hmoved other hother).2.1, (hmoved other hother).2.2.1⟩

end

/-! ### Harmless edits -/

/-- A task with this id goes on as `T` says and is made active for nobody by the edit, which edits
tasks. -/
structure Harmless (T : Task → Task → Prop) (taskId : Nat) (mutator : Mapping → Mapping) :
    Prop where
  editsTasks : EditsTasks mutator
  keeps : ∀ {file : TaskFile} {held task' : Task}, file.task = some held → held.id = taskId →
    (file.update mutator).task = some task' → T held task' ∧
      ∀ engineer, task'.isActiveFor engineer = true → held.isActiveFor engineer = true

theorem Harmless.mono {T T' : Task → Task → Prop} {taskId : Nat} {mutator : Mapping → Mapping}
    (h : Harmless T taskId mutator)
    (hT : ∀ held task', held.id = taskId → T held task' → T' held task') :
    Harmless T' taskId mutator :=
  ⟨h.editsTasks, fun hread hid htask' =>
    ⟨hT _ _ hid (h.keeps hread hid htask').1, (h.keeps hread hid htask').2⟩⟩

theorem Task.SameBrief.unclaims {held task' : Task} (h : held.SameBrief task')
    (hclaim : task'.claimedBy = held.claimedBy ∨ task'.claimedBy = none) : held.Unclaims task' :=
  ⟨h.id, h.sourcePath, hclaim⟩

theorem harmless_releaseClaim (taskId : Nat) :
    Harmless (Task.Cleared []) taskId releaseClaimMutator := by
  refine ⟨editsTasks_releaseClaim, fun {file held task'} hread _ htask' => ?_⟩
  obtain ⟨edited, hedited, hedit⟩ := task_update_releaseClaim hread
  obtain rfl := Option.some.inj (hedited.symm.trans htask')
  refine ⟨⟨hedit.toSameBrief.unclaims (.inr hedit.claimedBy), .inl hedit.status⟩,
    fun engineer => ?_⟩
  simp only [Task.isActiveFor, hedit.status, hedit.claimedBy, hedit.reviewOwner, reduceCtorEq,
    decide_false, Bool.and_false, Bool.false_or, Bool.or_eq_true]
  exact .inr

theorem harmless_unclaim (taskId : Nat) : Harmless (Task.Cleared []) taskId unclaimMutator := by
  refine ⟨editsTasks_unclaim, fun {file held task'} hread _ htask' => ?_⟩
  obtain ⟨edited, hedited, hedit⟩ := task_update_unclaim hread
  obtain rfl := Option.some.inj (hedited.symm.trans htask')
  refine ⟨⟨hedit.toSameBrief.unclaims (.inr hedit.claimedBy), .inl hedit.status⟩,
    fun engineer => ?_⟩
  simp [Task.isActiveFor, hedit.claimedBy, hedit.reviewOwner]

theorem harmless_reclaim (taskId : Nat) (nextAction : String) :
    Harmless Task.Recedes taskId (reclaimMutator nextAction) := by
  refine ⟨editsTasks_reclaim nextAction, fun {file held task'} hread _ htask' => ?_⟩
  obtain ⟨edited, hedited, hedit⟩ := task_update_reclaim hread nextAction
  obtain rfl := Option.some.inj (hedited.symm.trans htask')
  refine ⟨⟨hedit.toSameBrief.unclaims (.inr hedit.claimedBy), .inr (.inl hedit.status)⟩,
    fun engineer => ?_⟩
  simp [Task.isActiveFor, hedit.status, hedit.claimedBy]

theorem harmless_block (taskId : Nat) (reason : String) :
    Harmless (Task.Cleared [taskId]) taskId (blockMutator reason) := by
  refine ⟨editsTasks_block reason, fun {file held task'} hread hid htask' => ?_⟩
  obtain ⟨edited, hedited, hedit⟩ := task_update_block hread reason
  obtain rfl := Option.some.inj (hedited.symm.trans htask')
  refine ⟨⟨hedit.toSameBrief.unclaims (.inl hedit.claimedBy), .inr (by simp [hid])⟩,
    fun engineer => ?_⟩
  simp [Task.isActiveFor, hedit.status]

theorem harmless_transition_blocked (taskId : Nat) :
    Harmless (Task.Cleared [taskId]) taskId (transitionMutator .blocked) := by
  refine ⟨editsTasks_transition .blocked, fun {file held task'} hread hid htask' => ?_⟩
  obtain ⟨edited, hedited, hedit⟩ := task_update_transition hread .blocked
  obtain rfl := Option.some.inj (hedited.symm.trans htask')
  refine ⟨⟨hedit.toSameBrief.unclaims (.inl hedit.claimedBy), .inr (by simp [hid])⟩,
    fun engineer => ?_⟩
  simp [Task.isActiveFor, hedit.status, stateName]

theorem Task.Cleared.mono {ids ids' : List Nat} {task task' : Task}
    (h : Task.Cleared ids task task') (hids : ids ⊆ ids') : Task.Cleared ids' task task' :=
  ⟨h.toUnclaims, h.status.imp_right fun hmem => hids hmem⟩

theorem Task.Cleared.recedes {task task' : Task} (h : Task.Cleared [] task task') :
    task.Recedes task' :=
  ⟨h.toUnclaims, .inl (h.status.resolve_right List.not_mem_nil)⟩

section

variable {T : Task → Task → Prop} {engineer : String} {disk disk' : Disk} {taskId : Nat}
  {mutator : Mapping → Mapping}

theorem Disk.Edits.goes [IsPreorder Task T] (h : disk.Edits taskId mutator disk')
    (hharmless : Harmless T taskId mutator) : disk.board.Goes T engineer disk'.board := by
  have hedits := h
  obtain ⟨path, hpath, -⟩ := h
  obtain ⟨held, hheld, hid⟩ := Board.exists_taskAt hpath
  obtain ⟨file, task', -, hread, htask', -, hreplaced⟩ :=
    (Board.replaced_refl hheld).edits hpath hedits hharmless.editsTasks
  obtain ⟨edited, hedited, hbrief⟩ := hharmless.editsTasks hread
  obtain rfl := Option.some.inj (hedited.symm.trans htask')
  obtain ⟨hT, hactive⟩ := hharmless.keeps hread hid htask'
  exact hreplaced.goes hheld hbrief hT fun h => .inl (hactive engineer h)

end

/-- The daemon's board goes on. -/
def Disk.Goes (T : Task → Task → Prop) (engineer : String) (disk disk' : Disk) : Prop :=
  disk.board.Goes T engineer disk'.board

def Daemon.Goes (T : Task → Task → Prop) (engineer : String) (daemon daemon' : Daemon) : Prop :=
  daemon.disk.board.Goes T engineer daemon'.disk.board

section

variable {T T' : Task → Task → Prop} [IsPreorder Task T] {engineer : String} {α : Type}

instance : IsPreorder Disk (Disk.Goes T engineer) where
  refl disk := refl_of (Board.Goes T engineer) disk.board
  trans _ _ _ h h' := trans_of (Board.Goes T engineer) h h'

instance : IsPreorder Daemon (Daemon.Goes T engineer) where
  refl daemon := refl_of (Board.Goes T engineer) daemon.disk.board
  trans _ _ _ h h' := trans_of (Board.Goes T engineer) h h'

theorem Daemon.goes_of_board_eq {daemon daemon' : Daemon}
    (h : daemon'.disk.board = daemon.disk.board) : daemon.Goes T engineer daemon' := by
  rw [Daemon.Goes, h]
  exact refl_of (Board.Goes T engineer) _

theorem Moves.goes {m : Action α} (h : Moves Daemon.Quiet m) :
    Moves (Daemon.Goes T engineer) m := fun daemon =>
  (h daemon).mono (fun _ _ h => Daemon.goes_of_board_eq h.board)
    fun _ _ h => Daemon.goes_of_board_eq h.board

omit [IsPreorder Task T] in
theorem Moves.goes_mono {m : Action α} (h : Moves (Daemon.Goes T engineer) m)
    (hT : ∀ task task', T task task' → T' task task') : Moves (Daemon.Goes T' engineer) m :=
  h.mono fun _ _ h => Board.Goes.mono h fun task _ => hT task

omit [IsPreorder Task T] in
theorem goes_onDisk {m : DiskAction α} (h : Moves (Disk.Goes T engineer) m) :
    Moves (Daemon.Goes T engineer) (onDisk m) := fun daemon =>
  after_onDisk.mpr ((h daemon.disk).mono (fun _ _ h => h) fun _ _ h => h)

theorem Disk.goes_of_leads {disk disk' : Disk} (h : disk.Leads disk.board disk') :
    disk.Goes T engineer disk' := by
  rw [Disk.Goes, h.board]
  exact refl_of (Board.Goes T engineer) _

theorem goes_editTask {taskId : Nat} {mutator : Mapping → Mapping} (h : Harmless T taskId mutator) :
    Moves (Disk.Goes T engineer) (editTask taskId mutator) := fun _ =>
  (after_editTask taskId mutator).mono (fun _ _ hedits => hedits.goes h)
    fun _ _ hleads => Disk.goes_of_leads hleads

theorem goes_rewriteTask {taskId : Nat} {mutator : Mapping → Mapping} (toStatus : String)
    (h : Harmless T taskId mutator) :
    Moves (Disk.Goes T engineer) (rewriteTask taskId mutator toStatus) := fun _ =>
  (after_rewriteTask taskId mutator toStatus).mono (fun _ _ hedits => hedits.goes h)
    fun _ _ hend => hend.elim Disk.goes_of_leads fun hedits => hedits.goes h

end

/-! ### Accesses made -/

/-- `disk'` is `disk` after at most `count` accesses. -/
structure Disk.Within (disk : Disk) (count : Nat) (disk' : Disk) : Prop where
  accesses : disk'.accesses ≤ disk.accesses + count
  ge : disk.accesses ≤ disk'.accesses
  faults : disk'.faults = disk.faults

theorem Disk.Within.trans {disk disk' disk'' : Disk} {count count' : Nat}
    (h : disk.Within count disk') (h' : disk'.Within count' disk'') :
    disk.Within (count + count') disk'' := by
  have haccesses := h.accesses
  have haccesses' := h'.accesses
  exact ⟨by omega, h.ge.trans h'.ge, h'.faults.trans h.faults⟩

/-- The program makes at most `count` accesses, whether it returns or fails. -/
def Uses {α : Type} (count : Nat) (m : DiskAction α) : Prop :=
  ∀ disk, After m disk (fun _ disk' => disk.Within count disk')
    (fun _ disk' => disk.Within count disk')

section

variable {α β : Type} {count count' : Nat}

theorem uses_pure (a : α) : Uses 0 (pure a : DiskAction α) := fun _ => ⟨le_rfl, le_rfl, rfl⟩

theorem uses_throw (error : String) : Uses 0 (throw error : DiskAction α) := fun _ =>
  ⟨le_rfl, le_rfl, rfl⟩

theorem uses_get : Uses 0 (get : DiskAction Disk) := fun _ => ⟨le_rfl, le_rfl, rfl⟩

theorem uses_orFail (result : Except String α) : Uses 0 (orFail result : DiskAction α) := by
  cases result with
  | ok a => exact uses_pure a
  | error error => exact uses_throw error

theorem Uses.mono {m : DiskAction α} (h : Uses count m) (hle : count ≤ count') : Uses count' m :=
  fun disk => (h disk).mono
    (fun _ _ h => ⟨h.accesses.trans (Nat.add_le_add_left hle _), h.ge, h.faults⟩)
    fun _ _ h => ⟨h.accesses.trans (Nat.add_le_add_left hle _), h.ge, h.faults⟩

theorem Uses.bind {m : DiskAction α} {k : α → DiskAction β} (hm : Uses count m)
    (hk : ∀ a, Uses count' (k a)) : Uses (count + count') (m >>= k) := by
  intro disk
  rw [after_bind]
  refine (hm disk).mono (fun a middle h => ?_) fun _ _ h =>
    ⟨h.accesses.trans (by omega), h.ge, h.faults⟩
  exact (hk a middle).mono (fun _ _ h' => h.trans h') fun _ _ h' => h.trans h'

theorem uses_access (failure : String) : Uses 1 (access failure) := by
  intro disk
  simp only [access, after_bind, after_get, after_set]
  split <;> exact ⟨le_rfl, Nat.le_succ _, rfl⟩

theorem uses_loadTasks : Uses 1 loadTasks :=
  (uses_get.bind fun _ => (uses_access _).bind fun _ => uses_get.bind fun _ => uses_pure _)

theorem uses_findTaskPath (taskId : Nat) : Uses 2 (findTaskPath taskId) := by
  refine (uses_get.bind fun _ => (uses_access _).bind fun _ => uses_get.bind fun disk => ?_ :
    Uses (0 + (1 + (0 + 1))) _)
  split
  · exact (uses_pure _).mono (Nat.zero_le _)
  · refine (uses_loadTasks.bind fun tasks => ?_ : Uses (1 + 0) _)
    split
    · exact uses_pure _
    · exact uses_get.bind fun _ => uses_throw _

theorem uses_taskFromFile (path : String) : Uses 1 (taskFromFile path) := by
  refine ((uses_access _).bind fun _ => uses_get.bind fun disk => ?_ : Uses (1 + (0 + 0)) _)
  split
  · exact uses_pure _
  · exact uses_throw _

theorem uses_updateTaskFrontmatter (path : String) (mutator : Mapping → Mapping) :
    Uses 2 (updateTaskFrontmatter path mutator) := by
  have hwrite : Uses 0 (modify fun disk => { disk with board := disk.board.update path mutator } :
      DiskAction Unit) := fun _ => ⟨le_rfl, le_rfl, rfl⟩
  exact ((uses_access _).bind fun _ => (uses_access _).bind fun _ => hwrite : Uses (1 + (1 + 0)) _)

theorem uses_recordStatusTransitionActivity (fromStatus toStatus : String) :
    Uses 1 (recordStatusTransitionActivity fromStatus toStatus) := by
  unfold recordStatusTransitionActivity
  split
  · exact (uses_pure _).mono (Nat.zero_le _)
  · exact uses_access _

theorem uses_transitionWith (mutator : TaskState → Mapping → Mapping) (taskId : Nat)
    (target : String) : Uses 6 (transitionWith mutator taskId target) :=
  ((uses_findTaskPath _).bind fun _ => (uses_taskFromFile _).bind fun _ =>
    (uses_orFail _).bind fun _ => (uses_orFail _).bind fun _ => (uses_orFail _).bind fun _ =>
      (uses_updateTaskFrontmatter _ _).bind fun _ => uses_recordStatusTransitionActivity _ _ :
    Uses (2 + (1 + (0 + (0 + (0 + (2 + 1)))))) _)

theorem uses_transitionRescued (task : Task) (target : String) :
    Uses 6 (transitionRescued task target) := by
  unfold transitionRescued
  split
  · exact uses_transitionWith _ _ _
  · exact uses_transitionWith _ _ _

theorem Disk.Within.trips {disk disk' : Disk} (h : disk.Within count disk')
    (htrips : disk'.Trips count') : disk.Trips (count + count') := by
  obtain ⟨n, hn, hfault⟩ := htrips
  have haccesses := h.accesses
  have hge := h.ge
  refine ⟨disk'.accesses - disk.accesses + n, by omega, ?_⟩
  rw [← h.faults]
  convert hfault using 2
  omega

end

/-! ### Moves of claimed tasks -/

/-- The file at `path` holds `held`, the claim included, except that its status may be one of `S`
now. -/
def Board.Shifted (S : List String) (board : Board) (path : String) (held : Task)
    (board' : Board) : Prop :=
  ∃ task' status, board.Replaced path task' board' ∧
    held.EditOf task' status held.claimedBy held.reviewOwner held.dependsOn ∧
      (status = held.status ∨ status ∈ S)

/-- The edit sets the status and leaves the owners alone. -/
def MovesStatus (mutator : TaskState → Mapping → Mapping) : Prop :=
  ∀ (state : TaskState) {file : TaskFile} {held : Task}, file.task = some held → ∃ task',
    (file.update (mutator state)).task = some task' ∧
      held.EditOf task' (stateName state) held.claimedBy held.reviewOwner held.dependsOn

theorem movesStatus_transition : MovesStatus transitionMutator := fun state _ _ h =>
  task_update_transition h state

theorem movesStatus_setStatus : MovesStatus setStatus := fun state _ _ h =>
  task_update_setStatus h state

/-- A claimed task that is moved stays with its owner, who has it among the active items already,
or has none. -/
def Board.SafeFor (board : Board) (held : Task) (engineer : String) : Prop :=
  held.claimedBy = some engineer →
    held.isActiveFor engineer = true ∨ board.activeItems engineer = []

section

variable {S : List String} {T : Task → Task → Prop} {board board' : Board} {path engineer : String}
  {held task : Task} {disk disk' : Disk} {taskId : Nat}

theorem Board.shifted_refl (h : board.taskAt path = some held) :
    board.Shifted S path held board :=
  ⟨held, held.status, board.replaced_refl h, ⟨.refl held, rfl, rfl, rfl, rfl⟩, .inl rfl⟩

theorem Board.Shifted.goes [IsPreorder Task T] (h : board.Shifted S path held board')
    (hheld : board.taskAt path = some held) (hS : S ⊆ ["todo", "in-progress"])
    (hT : ∀ {task' status}, held.EditOf task' status held.claimedBy held.reviewOwner
      held.dependsOn → status = held.status ∨ status ∈ S → T held task')
    (hsafe : board.SafeFor held engineer) : board.Goes T engineer board' := by
  obtain ⟨task', status, hreplaced, hedit, hstatus⟩ := h
  refine hreplaced.goes hheld hedit.toSameBrief (hT hedit hstatus) fun hactive => ?_
  rcases hstatus with rfl | hmem
  · left
    simpa [Task.isActiveFor, hedit.status, hedit.claimedBy, hedit.reviewOwner] using hactive
  · refine hsafe ?_
    have hnew := hS hmem
    simp only [List.mem_cons, List.not_mem_nil, or_false] at hnew
    rcases hnew with rfl | rfl <;>
      simpa [Task.isActiveFor, hedit.status, hedit.claimedBy, hedit.reviewOwner] using hactive

theorem Board.Shifted.edits (h : board.Shifted S path held disk.board)
    (hpath : board.findPath taskId = some path) {mutator : TaskState → Mapping → Mapping}
    (hmutator : MovesStatus mutator) {state : TaskState} (hstate : stateName state ∈ S)
    (hedits : disk.Edits taskId (mutator state) disk') :
    board.Shifted S path held disk'.board := by
  obtain ⟨task', status, hreplaced, hedit, -⟩ := h
  have heditsTasks : EditsTasks (mutator state) := fun hread =>
    (hmutator state hread).imp fun _ h => ⟨h.1, h.2.toSameBrief⟩
  obtain ⟨file, task'', -, hread, htask'', -, hreplaced'⟩ :=
    hreplaced.edits hpath hedits heditsTasks
  obtain ⟨edited, hedited, hedit'⟩ := hmutator state hread
  obtain rfl := Option.some.inj (hedited.symm.trans htask'')
  exact ⟨edited, _, hreplaced', ⟨hedit.toSameBrief.trans hedit'.toSameBrief, hedit'.status,
    hedit'.claimedBy.trans hedit.claimedBy, hedit'.reviewOwner.trans hedit.reviewOwner,
    hedit'.dependsOn.trans hedit.dependsOn⟩, .inr hstate⟩

theorem after_transitionWith_shifted (h : board.Shifted S path held disk.board)
    (hpath : board.findPath taskId = some path) {mutator : TaskState → Mapping → Mapping}
    (hmutator : MovesStatus mutator) {target : String} {state : TaskState}
    (htarget : parseTaskState target = .ok state) (hstate : stateName state ∈ S) :
    After (transitionWith mutator taskId target) disk
      (fun _ disk' => board.Shifted S path held disk'.board)
      (fun _ disk' => board.Shifted S path held disk'.board) :=
  (after_transitionWith mutator taskId htarget).mono
    (fun _ _ hend => h.edits hpath hmutator hstate hend.2) fun _ _ hend =>
      hend.elim (fun hleads => hleads.board ▸ h)
        fun hedits => h.edits hpath hmutator hstate hedits.2

theorem after_transitionRescued_shifted (h : board.Shifted S path held disk.board)
    (hpath : board.findPath task.id = some path) {target : String} {state : TaskState}
    (htarget : parseTaskState target = .ok state) (hstate : stateName state ∈ S) :
    After (transitionRescued task target) disk
      (fun _ disk' => board.Shifted S path held disk'.board)
      (fun _ disk' => board.Shifted S path held disk'.board) := by
  unfold transitionRescued
  split
  · exact after_transitionWith_shifted h hpath movesStatus_setStatus htarget hstate
  · exact after_transitionWith_shifted h hpath movesStatus_transition htarget hstate

variable (hpath : disk.board.findPath task.id = some path)
  (hheld : disk.board.taskAt path = some held) (hsafe : disk.board.SafeFor held engineer)
include hpath hheld hsafe

/-- A task that is its engineer's is given back without harm, whatever fails. -/
theorem after_giveBackTask_goes : After (giveBackTask task) disk
    (fun _ disk' => disk.Goes Task.Recedes engineer disk')
    (fun _ disk' => disk.Goes Task.Recedes engineer disk') := by
  simp only [giveBackTask, after_bind, after_attempt]
  have hgoes : ∀ middle : Disk, disk.board.Shifted ["todo"] path held middle.board →
      disk.Goes Task.Recedes engineer middle := by
    intro middle h
    refine h.goes hheld (by simp) (fun hedit hstatus => ?_) hsafe
    refine ⟨hedit.toSameBrief.unclaims (.inl hedit.claimedBy), ?_⟩
    rw [hedit.status]
    exact hstatus.imp_right fun hmem => .inl (by simpa using hmem)
  have hunclaim : ∀ middle : Disk, disk.board.Shifted ["todo"] path held middle.board →
      After (unclaimTask task.id) middle
        (fun _ disk' => disk.Goes Task.Recedes engineer disk')
        (fun _ disk' => disk.Goes Task.Recedes engineer disk') := fun middle h =>
    (goes_editTask ((harmless_unclaim task.id).mono fun _ _ _ => Task.Cleared.recedes) middle).mono
      (fun _ _ h' => trans_of (Disk.Goes Task.Recedes engineer) (hgoes middle h) h')
      fun _ _ h' => trans_of (Disk.Goes Task.Recedes engineer) (hgoes middle h) h'
  have hmem : stateName .todo ∈ ["todo"] := by simp [stateName]
  exact (after_transitionWith_shifted (Board.shifted_refl hheld) hpath movesStatus_transition
    parseTaskState_todo hmem).mono (fun _ => hunclaim) fun _ => hunclaim

end

section

variable {board : Board} {path engineer : String} {held task : Task} {disk : Disk}

/-- An edit that takes the claim off goes through unless one of its accesses fails. -/
theorem after_unclaimTask_shifted {S : List String} {task : Task}
    (h : board.Shifted S path held disk.board) (hpath : board.findPath task.id = some path)
    (hheld : board.taskAt path = some held) : After (unclaimTask task.id) disk
      (fun _ disk' => board.Goes Task.Unclaims engineer disk'.board)
      (fun _ _ => disk.Trips 4) := by
  obtain ⟨task', status, hreplaced, hedit, -⟩ := h
  have hpath' : disk.board.findPath task.id = some path := (hreplaced.findPath _).trans hpath
  have hfind : findAccesses disk.board task.id + 2 ≤ 4 := by unfold findAccesses; split <;> omega
  have hedits := @after_editTask disk task.id unclaimMutator
  have hspends := spends_editTask hpath' unclaimMutator
  unfold unclaimTask
  refine (hspends.mono (fun _ disk' hend => ?_) fun _ _ hend => hend.1.mono hfind)
  obtain ⟨file, task'', hfile, hread, htask'', hreplaced'⟩ := hreplaced.update editsTasks_unclaim
  obtain ⟨edited, hedited, hedit'⟩ := task_update_unclaim hread
  obtain rfl := Option.some.inj (hedited.symm.trans htask'')
  rw [hend.board]
  have hbrief := hedit.toSameBrief.trans hedit'.toSameBrief
  refine hreplaced'.goes hheld hbrief (hbrief.unclaims (.inr hedit'.claimedBy)) fun hactive => ?_
  simp [Task.isActiveFor, hedit'.claimedBy, hedit'.reviewOwner] at hactive

/-- **A review is rescued** without harm if its owner has it among the active items or has none,
or if no access fails. -/
theorem after_returnReviewToTodo_goes (hpath : disk.board.findPath task.id = some path)
    (hheld : disk.board.taskAt path = some held)
    (hsafe : disk.board.SafeFor held engineer ∨ ¬ disk.Trips 16) :
    After (returnReviewToTodo task) disk
      (fun _ disk' => disk.Goes Task.Unclaims engineer disk')
      (fun _ disk' => disk.Goes Task.Unclaims engineer disk') := by
  simp only [returnReviewToTodo, after_bind, after_attempt]
  -- The statuses on the way, from each of which the claim can still be taken off.
  let S := ["todo", "in-progress"]
  have htodo : stateName .todo ∈ S := by simp [S, stateName]
  have hunderWay : stateName .inProgress ∈ S := by simp [S, stateName]
  have hend : ∀ middle : Disk, disk.board.Shifted S path held middle.board → disk.Within 12 middle →
      After (unclaimTask task.id) middle
        (fun _ disk' => disk.Goes Task.Unclaims engineer disk')
        (fun _ disk' => disk.Goes Task.Unclaims engineer disk') := by
    intro middle h hwithin
    rcases hsafe with hsafe | hsound
    · have hgoes : disk.Goes Task.Unclaims engineer middle :=
        h.goes hheld (List.Subset.refl _) (fun hedit _ =>
          hedit.toSameBrief.unclaims (.inl hedit.claimedBy)) hsafe
      have hunclaims : Harmless Task.Unclaims task.id unclaimMutator :=
        (harmless_unclaim task.id).mono fun _ _ _ h => h.toUnclaims
      exact (goes_editTask hunclaims middle).mono
        (fun _ _ h' => trans_of (Disk.Goes Task.Unclaims engineer) hgoes h')
        fun _ _ h' => trans_of (Disk.Goes Task.Unclaims engineer) hgoes h'
    · exact (after_unclaimTask_shifted h hpath hheld).mono (fun _ _ h => h)
        fun _ _ htrips => absurd (hwithin.trips htrips) hsound
  have hshift : ∀ (middle : Disk) (count : Nat) {target : String} {state : TaskState},
      parseTaskState target = .ok state → stateName state ∈ S →
      disk.board.Shifted S path held middle.board → disk.Within count middle →
      After (transitionRescued task target) middle
        (fun _ last => disk.board.Shifted S path held last.board ∧ disk.Within (count + 6) last)
        (fun _ last => disk.board.Shifted S path held last.board ∧
          disk.Within (count + 6) last) := by
    intro middle count target state htarget hstate h hwithin
    exact ((after_transitionRescued_shifted h hpath htarget hstate).and
      (uses_transitionRescued task target middle)).mono
        (fun _ _ h => ⟨h.1, hwithin.trans h.2⟩) fun _ _ h => ⟨h.1, hwithin.trans h.2⟩
  -- The second transition and the release follow whatever the first one came to.
  have hlast : ∀ middle : Disk, disk.board.Shifted S path held middle.board ∧ disk.Within 6 middle →
      After (transitionRescued task "todo") middle
        (fun _ last => After (unclaimTask task.id) last
          (fun _ disk' => disk.Goes Task.Unclaims engineer disk')
          (fun _ disk' => disk.Goes Task.Unclaims engineer disk'))
        (fun _ last => After (unclaimTask task.id) last
          (fun _ disk' => disk.Goes Task.Unclaims engineer disk')
          (fun _ disk' => disk.Goes Task.Unclaims engineer disk')) := fun middle h =>
    (hshift middle 6 parseTaskState_todo htodo h.1 h.2).mono
      (fun _ last h => hend last h.1 h.2) fun _ last h => hend last h.1 h.2
  exact (hshift disk 0 parseTaskState_inProgress hunderWay (Board.shifted_refl hheld)
    ⟨le_rfl, le_rfl, rfl⟩).mono (fun _ => hlast) fun _ => hlast

end

/-! ### Claims -/

/-- The status can be read and leads to the target. -/
def LeadsTo (status : String) (target : TaskState) : Prop :=
  ∃ current, parseTaskState status = .ok current ∧ canTransition current target = .ok ()

section

variable {board : Board} {path status engineer name : String} {claimedBy : Option String}
  {held task : Task} {disk : Disk} {taskId : Nat}

/-- A transition fails for an access that fails, or changes nothing because it is not allowed. -/
theorem after_transitionTask_trips (h : board.Turned path held status claimedBy disk.board)
    (hpath : board.findPath taskId = some path) {target : String} {state : TaskState}
    (htarget : parseTaskState target = .ok state) : After (transitionTask taskId target) disk
      (fun _ _ => True)
      (fun _ disk' => disk.Trips 6 ∨ (¬ LeadsTo status state ∧ disk'.board = disk.board)) := by
  obtain ⟨task', hreplaced, hedit⟩ := h.replaced
  have hpath' : disk.board.findPath taskId = some path := (hreplaced.findPath _).trans hpath
  have hfind : findAccesses disk.board taskId ≤ 2 := by unfold findAccesses; split <;> omega
  simp only [transitionTask, transitionWith, after_bind, htarget]
  refine (spends_findTaskPath hpath').mono ?_ fun _ _ h => .inl (h.1.mono (by omega))
  rintro _ first ⟨rfl, hfirst⟩
  simp only [taskFromFile, after_bind, after_get]
  refine (spends_access _ first).mono (fun _ second hsecond => ?_) fun _ _ h =>
    .inl ((hfirst.trips h.1).mono (by omega))
  have hread := hfirst.trans hsecond
  have hboard : second.board = disk.board := hsecond.board.trans hfirst.board
  rw [hboard, hreplaced.taskAt]
  simp only [after_pure, hedit.status]
  cases hcurrent : parseTaskState status with
  | error error =>
    refine (after_orFail_error _).mpr (.inr ⟨?_, hboard⟩)
    rintro ⟨current, hparse, -⟩
    rw [hcurrent] at hparse
    cases hparse
  | ok current =>
    simp only [after_orFail_ok]
    cases hallowed : canTransition current state with
    | error error =>
      refine (after_orFail_error _).mpr (.inr ⟨?_, hboard⟩)
      rintro ⟨current', hparse, hallowed'⟩
      rw [hcurrent, Except.ok.injEq] at hparse
      rw [← hparse, hallowed] at hallowed'
      cases hallowed'
    | ok _ =>
      simp only [after_orFail_ok]
      refine (spends_updateTaskFrontmatter _ _).mono (fun _ third hthird => ?_) fun _ _ h =>
        .inl ((hread.trips h.1).mono (by omega))
      have hwritten := hread.trans hthird
      unfold recordStatusTransitionActivity
      split
      · trivial
      · exact (spends_access _ third).mono (fun _ _ _ => trivial) fun _ _ h =>
          .inl ((hwritten.trips h.1).mono (by omega))

theorem after_assignTaskOwners_trips (hpath : disk.board.findPath taskId = some path)
    (execOwner : String) : After (assignTaskOwners taskId (some execOwner) none) disk
      (fun _ _ => True) (fun _ _ => disk.Trips 4) := by
  have hfind : findAccesses disk.board taskId ≤ 2 := by unfold findAccesses; split <;> omega
  simp only [assignTaskOwners, Option.isNone_some, Bool.false_and, Bool.false_eq_true, if_false,
    after_bind, after_get]
  exact (spends_editTask hpath _).mono (fun _ _ _ => trivial) fun _ _ h => h.1.mono (by omega)

variable (hpath : disk.board.findPath task.id = some path)
include hpath

/-- The second and third steps of a claim, from a status that the first may have changed. -/
theorem after_claimTask_rest {middle : Disk} {status : String} (hsound : ¬ disk.Trips 16)
    (hturned : disk.board.Turned path held status held.claimedBy middle.board)
    (hwithin : disk.Within 6 middle) (hleads : status = held.status ∨ LeadsTo status .inProgress) :
    After (do
        match ← attempt (transitionTask task.id "in-progress") with
        | .error error => return .error error
        | .ok () =>
          assignTaskOwners task.id (some name) none
          return .ok () : DiskAction (Except String Unit)) middle
      (fun _ disk' => disk.board.Claimed path held name disk'.board ∨
        disk.board.Turned path held held.status held.claimedBy disk'.board)
      (fun _ _ => False) := by
  rw [after_bind, after_attempt]
  refine (((after_transition_turned hturned hpath parseTaskState_inProgress (.inr rfl)).and
    (after_transitionTask_trips hturned hpath parseTaskState_inProgress)).and
      (uses_transitionWith transitionMutator task.id "in-progress" middle)).mono ?_ ?_
  · rintro _ second ⟨⟨⟨hunfinished, hturned', hblock⟩, -⟩, hsecond⟩
    have hsecond := hwithin.trans hsecond
    obtain ⟨task', hreplaced, -⟩ := hturned'.replaced
    rw [after_bind]
    refine ((after_assignTaskOwners_turned hturned' hpath hblock).and
      (after_assignTaskOwners_trips ((hreplaced.findPath _).trans hpath) name)).mono ?_ ?_
    · exact fun _ _ h => .inl ⟨h.1.1, hunfinished, h.1.2⟩
    · exact fun _ _ h => hsound (hsecond.trips h.2)
  · rintro error second ⟨⟨-, htrips | ⟨hrefused, hsame⟩⟩, -⟩
    · exact absurd ((hwithin.trips htrips).mono (by omega)) hsound
    · right
      obtain rfl := hleads.resolve_right hrefused
      rw [hsame]
      exact hturned

variable (hheld : disk.board.taskAt path = some held)
include hheld

/-- When no access fails, a claim goes through or changes nothing. -/
theorem after_claimTask_sound (hstatus : task.status = held.status) (hsound : ¬ disk.Trips 16) :
    After (claimTask name task) disk
      (fun _ disk' => disk.board.Claimed path held name disk'.board ∨
        disk.board.Turned path held held.status held.claimedBy disk'.board)
      (fun _ _ => False) := by
  have hrefl := Board.turned_refl hheld
  simp only [claimTask, promoteBacklog]
  split
  · rename_i hbacklog
    rw [hbacklog] at hstatus
    rw [after_bind]
    refine after_map.mpr (after_attempt.mpr ?_)
    refine (((after_transition_turned hrefl hpath parseTaskState_todo (.inl rfl)).and
      (after_transitionTask_trips hrefl hpath parseTaskState_todo)).and
        (uses_transitionWith transitionMutator task.id "todo" disk)).mono ?_ ?_
    · rintro _ first ⟨⟨⟨-, hturned, -⟩, -⟩, hwithin⟩
      exact after_claimTask_rest hpath hsound hturned hwithin (.inr ⟨.todo, rfl, rfl⟩)
    · rintro error first ⟨⟨-, htrips | ⟨hrefused, -⟩⟩, -⟩
      · exact absurd (htrips.mono (by omega)) hsound
      · exact absurd ⟨.backlog, hstatus ▸ rfl, rfl⟩ hrefused
  · exact after_claimTask_rest hpath hsound hrefl ⟨by omega, le_rfl, rfl⟩ (.inl rfl)

/-- **A claim is harmless** for an engineer if the task was the engineer's already or nothing was,
should the engineer get it, and if the engineer had it on the list, had nothing there, or no access
fails, should the engineer lose it. -/
theorem after_claimTask_goes (hstatus : task.status = held.status)
    (htakes : normalizeOptional name = some engineer →
      held.isActiveFor engineer = true ∨ disk.board.activeItems engineer = [])
    (hsafe : disk.board.SafeFor held engineer ∨ ¬ disk.Trips 16) :
    After (claimTask name task) disk (fun _ disk' => disk.Goes Task.Any engineer disk')
      (fun _ disk' => disk.Goes Task.Any engineer disk') := by
  have hclaimed : ∀ disk' : Disk, disk.board.Claimed path held name disk'.board →
      disk.Goes Task.Any engineer disk' := by
    intro disk' h
    obtain ⟨task', hreplaced, hedit⟩ := h.turned.replaced
    refine hreplaced.goes hheld hedit.toSameBrief trivial fun hactive => htakes ?_
    simpa [Task.isActiveFor, hedit.status, hedit.claimedBy] using hactive
  have hturned : ∀ (disk' : Disk) (status : String),
      disk.board.Turned path held status held.claimedBy disk'.board →
      (status = held.status ∨ (status = "todo" ∨ status = "in-progress") ∧
        disk.board.SafeFor held engineer) → disk.Goes Task.Any engineer disk' := by
    intro disk' status h hchange
    obtain ⟨task', hreplaced, hedit⟩ := h.replaced
    refine hreplaced.goes hheld hedit.toSameBrief trivial fun hactive => ?_
    rcases hchange with rfl | ⟨rfl | rfl, hsafe⟩
    · left
      simpa [Task.isActiveFor, hedit.status, hedit.claimedBy, hedit.reviewOwner] using hactive
    · exact hsafe (by simpa [Task.isActiveFor, hedit.status, hedit.claimedBy] using hactive)
    · exact hsafe (by simpa [Task.isActiveFor, hedit.status, hedit.claimedBy] using hactive)
  rcases hsafe with hsafe | hsound
  · have hhalf : ∀ disk' : Disk, disk.board.HalfClaimed path held disk'.board →
        disk.Goes Task.Any engineer disk' := by
      rintro disk' ⟨status, h, hchange⟩
      exact hturned disk' status h (hchange.imp_right fun hnew => ⟨hnew, hsafe⟩)
    refine (after_claimTask hpath hheld).mono (fun _ disk' h => ?_) fun _ disk' h => hhalf disk' h
    exact h.elim (fun h => hclaimed disk' h.2) fun h => hhalf disk' h.2
  · refine (after_claimTask_sound hpath hheld hstatus hsound).mono (fun _ disk' h => ?_)
      fun _ _ h => h.elim
    exact h.elim (hclaimed disk') fun h => hturned disk' _ h (.inl rfl)

end

end Batty
