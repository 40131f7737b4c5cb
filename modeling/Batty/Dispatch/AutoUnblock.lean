import Batty.Board.Lifecycle
import Batty.Dispatch.Claims
import Batty.Foundation.Loops
import Batty.Foundation.Runs
import Batty.Resolver

/-!
# Blocked tasks whose dependencies are done

Each tick looks for tasks that are held back although everything they depend on is finished, and
puts them up for dispatch again: `blocked` goes back to `todo`, block fields and claim go.

The tick looks at the dependencies as they are now, not at why the task was blocked. A block made
when the dependencies were finished already must have another reason, and the tick lifts it all the
same. Ticks lift no such block, and release every task that did wait, in every run in which they
come upon no such block that they could lift, and upon no waiting task that they cannot see to be
ready (`always_fair_of_spares`).
-/

namespace Batty

/-! ### The tick -/

def clearBlockedFields (taskId : Nat) : DiskAction Unit := editTask taskId clearBlocked

def loadTaskById (taskId : Nat) : DiskAction Task := do
  let path ← findTaskPath taskId
  taskFromFile path

/-- The task is held back in a column in which a tick releases tasks. -/
def Task.isHeldBack (task : Task) : Bool :=
  match task.status with
  | "blocked" => true
  | "todo" | "backlog" | "runnable" =>
    task.blocked.isSome || task.blockedOn.isSome || task.claimedBy.isSome
  | _ => false

def isToUnblock (tasks : List Task) (task : Task) : Bool :=
  !task.dependsOn.isEmpty && task.dependsOn.all (doneTaskIds tasks).contains && task.isHeldBack

def unblockedTasks (tasks : List Task) : List Task := tasks.filter (isToUnblock tasks)

/-- What the owner of the task is told, or a manager if nobody owns it. -/
structure UnblockNotice where
  recipient : Option String
  taskId : Nat
  body : String

def autoUnblockNotificationRecipient (members : List MemberInstance) (task : Task) :
    Option String :=
  (task.claimedBy.filter fun owner => members.any fun member => member.name = owner).or
    ((members.find? fun member => member.roleType = .manager).map MemberInstance.name)

def unblockNotice (members : List MemberInstance) (task : Task) : UnblockNotice :=
  let dependencies := ", ".intercalate (task.dependsOn.map toString)
  { recipient := autoUnblockNotificationRecipient members task
    taskId := task.id
    body :=
      if task.status = "blocked" then
        "Task #" ++ toString task.id ++ " (" ++ task.title ++ ") was automatically moved from " ++
          "`blocked` to `todo` because dependencies [" ++ dependencies ++ "] are done."
      else
        "Task #" ++ toString task.id ++ " (" ++ task.title ++ ") was automatically released for " ++
          "dispatch because dependencies [" ++ dependencies ++ "] are done." }

/-- The body of the loop, up to the notice. -/
def releaseTask (taskId : Nat) : DiskAction Unit := do
  let current ← loadTaskById taskId
  if current.status = "blocked" then transitionTask taskId "todo" else clearBlockedFields taskId
  let current ← loadTaskById taskId
  if current.status ≠ "in-progress" then unclaimTask taskId else pure ()

def maybeAutoUnblockBlockedTasks (members : List MemberInstance) :
    DiskAction (List UnblockNotice) := do
  let tasks ← loadTasks
  (unblockedTasks tasks).foldlM (fun notices task => do
    releaseTask task.id
    return notices ++ [unblockNotice members task]) []

/-! ### What a release does to the files -/

/-- Nothing holds the task in the file back. -/
structure TaskFile.Free (file : TaskFile) : Prop where
  unblocked : file.mapping.Unblocked
  status : file.status ≠ some "blocked"

def Board.FreeAt (board : Board) (path : String) : Prop :=
  ∀ file, board.find? path = some file → file.Free

/-- The later disk differs from the earlier one in the files of these tasks only, and nothing is
held back on it that was not. -/
structure Disk.Releases (ids : List Nat) (disk disk' : Disk) : Prop where
  findPath : ∀ id, disk'.board.findPath id = disk.board.findPath id
  find? : ∀ path, (∀ id ∈ ids, disk.board.findPath id ≠ some path) →
    disk'.board.find? path = disk.board.find? path
  free : ∀ path, disk.board.FreeAt path → disk'.board.FreeAt path

section

variable {ids : List Nat} {taskId : Nat} {disk disk' : Disk} {path : String}

instance (ids : List Nat) : IsPreorder Disk (Disk.Releases ids) where
  refl _ := ⟨fun _ => rfl, fun _ _ => rfl, fun _ h => h⟩
  trans first second third h h' := by
    refine ⟨fun id => (h'.findPath id).trans (h.findPath id), fun path hpath => ?_,
      fun path hfree => h'.free path (h.free path hfree)⟩
    rw [h'.find? path fun id hid => h.findPath id ▸ hpath id hid, h.find? path hpath]

theorem releases_of_board_eq (h : disk'.board = disk.board) : disk.Releases ids disk' :=
  ⟨fun _ => by rw [h], fun _ _ => by rw [h], fun _ hfree => by rwa [h]⟩

theorem Disk.Leads.releases (h : disk.Leads disk.board disk') : disk.Releases ids disk' :=
  releases_of_board_eq h.board

/-- An edit that frees nothing that was held back, and holds nothing back. -/
def KeepsFree (mutator : Mapping → Mapping) : Prop :=
  ∀ file : TaskFile, file.Free → (file.update mutator).Free

theorem Disk.Edits.releases {mutator : Mapping → Mapping} (h : disk.Edits taskId mutator disk')
    (hid : taskId ∈ ids) (hedits : EditsTasks mutator) (hfree : KeepsFree mutator) :
    disk.Releases ids disk' := by
  obtain ⟨path, hpath, hleads⟩ := h
  obtain ⟨task, htask, -⟩ := Board.exists_taskAt hpath
  constructor
  · intro id
    rw [hleads.board]
    exact findPath_update htask hedits.keepsIds id
  · intro path' hpath'
    have hne : path' ≠ path := fun heq => hpath' taskId hid (heq ▸ hpath)
    rw [hleads.board]
    exact find?_update_of_ne mutator hne
  · intro path' hbefore file' hfile'
    rw [hleads.board, Board.find?_update, Option.map_eq_some_iff] at hfile'
    obtain ⟨file, hfile, rfl⟩ := hfile'
    split
    · exact hfree file (hbefore file hfile)
    · exact hbefore file hfile

/-! #### The three edits -/

theorem editsTasks_clearBlocked : EditsTasks clearBlocked :=
  editsTasks_of_block (fun mapping _ hkey => clearBlocked_apply mapping hkey)
    fun _ => blockDecodes_clearBlocked _

/-- A file that the edit unblocks, and that it does not block by its status, is free. -/
theorem free_update {file : TaskFile} {mutator : Mapping → Mapping}
    (hunblocked : (mutator file.mapping).Unblocked)
    (hstatus : (file.update mutator).status ≠ some "blocked") : (file.update mutator).Free :=
  ⟨by rwa [TaskFile.mapping_update hunblocked], hstatus⟩

theorem free_update_todo (file : TaskFile) : (file.update (transitionMutator .todo)).Free := by
  refine free_update (unblocked_transitionMutator (by decide) _) ?_
  rw [file.status_update_of_sets (setsStatus_transition .todo)]
  decide

theorem free_update_clearBlocked {file : TaskFile} (h : file.status ≠ some "blocked") :
    (file.update clearBlocked).Free := by
  refine free_update (unblocked_clearBlocked _) ?_
  rwa [file.status_update_of_keeps keepsStatus_clearBlocked]

theorem keepsFree_unclaim : KeepsFree unclaimMutator := by
  intro file h
  refine free_update ?_ ?_
  · constructor <;> simp [unclaimMutator, releaseClaimMutator_apply, h.unblocked.blocked,
      h.unblocked.blockReason, h.unblocked.blockedOn]
  · rw [file.status_update_of_keeps keepsStatus_unclaim]
    exact h.status

/-! #### The commands -/

/-- Loading a task changes nothing, and the task is that of its file. -/
theorem after_loadTaskById (taskId : Nat) : After (loadTaskById taskId) disk
    (fun task disk' => disk.Leads disk.board disk' ∧ ∃ path,
      disk.board.findPath taskId = some path ∧ disk.board.taskAt path = some task)
    (fun _ disk' => disk.Leads disk.board disk') := by
  simp only [loadTaskById, after_bind]
  refine (after_findTaskPath taskId).mono ?_ (fun _ _ h => h)
  rintro path disk' ⟨hleads, hpath⟩
  refine (after_taskFromFile path).mono ?_ (fun _ disk'' h => ?_)
  · rintro task disk'' ⟨hleads', htask⟩
    rw [hleads.board] at hleads' htask
    exact ⟨hleads.trans hleads', path, hpath, htask⟩
  · rw [hleads.board] at h
    exact hleads.trans h

theorem releases_loadTaskById (taskId : Nat) :
    Moves (Disk.Releases ids) (loadTaskById taskId) := fun _ =>
  (after_loadTaskById taskId).mono (fun _ _ h => h.1.releases) fun _ _ h => h.releases

theorem releases_editTask (hid : taskId ∈ ids) {mutator : Mapping → Mapping}
    (hedits : EditsTasks mutator) (hfree : KeepsFree mutator) :
    Moves (Disk.Releases ids) (editTask taskId mutator) := fun _ =>
  (after_editTask taskId mutator).mono (fun _ _ h => h.releases hid hedits hfree)
    fun _ _ h => h.releases

theorem releases_transition_todo (hid : taskId ∈ ids) :
    Moves (Disk.Releases ids) (transitionTask taskId "todo") := fun disk =>
  have hedits : ∀ disk', disk.Edits taskId (transitionMutator .todo) disk' →
      disk.Releases ids disk' := fun _ h =>
    h.releases hid (editsTasks_transition .todo) fun file _ => free_update_todo file
  (after_transitionTask taskId rfl).mono
    (fun _ disk' h => h.elim Disk.Leads.releases (hedits disk'))
    fun _ disk' h => h.elim Disk.Leads.releases (hedits disk')

theorem releases_releaseTask (hid : taskId ∈ ids) :
    Moves (Disk.Releases ids) (releaseTask taskId) := by
  refine (releases_loadTaskById taskId).bind fun current => ?_
  have hsecond : Moves (Disk.Releases ids) (do
      let current ← loadTaskById taskId
      if current.status ≠ "in-progress" then unclaimTask taskId else pure ()) := by
    refine (releases_loadTaskById taskId).bind fun current => ?_
    split
    · exact releases_editTask hid editsTasks_unclaim keepsFree_unclaim
    · exact moves_pure _
  split
  · exact (releases_transition_todo hid).bind fun _ => hsecond
  · exact (releases_editTask hid editsTasks_clearBlocked fun file h =>
      free_update_clearBlocked h.status).bind fun _ => hsecond

/-- **A release that returns leaves nothing that holds the task back.** -/
theorem free_releaseTask (hpath : disk.board.findPath taskId = some path) :
    After (releaseTask taskId) disk (fun _ disk' => disk'.board.FreeAt path)
      (fun _ _ => True) := by
  -- What comes after the edit can only free the task again.
  have hrest : ∀ disk', disk'.board.FreeAt path → After (do
      let current ← loadTaskById taskId
      if current.status ≠ "in-progress" then unclaimTask taskId else pure ()) disk'
      (fun _ disk'' => disk''.board.FreeAt path) (fun _ _ => True) := by
    intro disk' hfree
    rw [after_bind]
    have hload := @releases_loadTaskById [taskId] taskId disk'
    refine hload.mono (fun current disk'' h => ?_) fun _ _ _ => trivial
    have hfree' := h.free path hfree
    split
    · have hunclaim := releases_editTask (List.mem_singleton_self taskId) editsTasks_unclaim
        keepsFree_unclaim disk''
      exact hunclaim.mono (fun _ _ h' => h'.free path hfree') fun _ _ _ => trivial
    · exact hfree'
  simp only [releaseTask, after_bind]
  refine (after_loadTaskById taskId).mono ?_ fun _ _ _ => trivial
  rintro current disk' ⟨hleads, found, hfound, htask⟩
  obtain rfl := Option.some.inj (hpath.symm.trans hfound)
  -- Whichever edit is made, it is made to the file at the path, and frees it.
  have hedited : ∀ {mutator : Mapping → Mapping} {disk'' : Disk},
      (∀ file, disk.board.find? path = some file → (file.update mutator).Free) →
        disk'.Edits taskId mutator disk'' → disk''.board.FreeAt path := by
    rintro mutator disk'' hfrees ⟨found, hfound, hleads'⟩ file' hfile'
    rw [hleads.board] at hfound hleads'
    obtain rfl := Option.some.inj (hpath.symm.trans hfound)
    rw [hleads'.board, Board.find?_update, Option.map_eq_some_iff] at hfile'
    obtain ⟨file, hfile, rfl⟩ := hfile'
    rw [if_pos rfl]
    exact hfrees file hfile
  split
  · rw [after_bind]
    refine (after_transitionWith transitionMutator taskId parseTaskState_todo).mono
      (fun _ disk'' h => hrest disk'' ?_) fun _ _ _ => trivial
    exact hedited (fun file _ => free_update_todo file) h.2
  · rename_i hstatus
    rw [after_bind]
    refine (after_editTask taskId clearBlocked).mono (fun _ disk'' h => hrest disk'' ?_)
      fun _ _ _ => trivial
    refine hedited (fun file hfile => free_update_clearBlocked ?_) h
    obtain ⟨found, hfound, hread⟩ := Option.bind_eq_some_iff.mp htask
    obtain rfl := Option.some.inj (hfile.symm.trans hfound)
    rw [TaskFile.status_of_task hread]
    exact fun heq => hstatus (Option.some.inj heq)

/-! ### What a tick does -/

/-- Ticks write the files of the tasks they select, and no others. -/
theorem releases_tick (members : List MemberInstance) (disk : Disk) :
    After (maybeAutoUnblockBlockedTasks members) disk
      (fun _ disk' => disk.Releases ((unblockedTasks disk.board.tasks).map Task.id) disk')
      (fun _ disk' => disk.Releases ((unblockedTasks disk.board.tasks).map Task.id) disk') := by
  simp only [maybeAutoUnblockBlockedTasks, after_bind]
  refine after_loadTasks.mono ?_ fun _ _ h => h.releases
  rintro tasks disk' ⟨hleads, rfl⟩
  have hloop : Moves (Disk.Releases ((unblockedTasks disk.board.tasks).map Task.id))
      ((unblockedTasks disk.board.tasks).foldlM (fun notices task => do
        releaseTask task.id
        return notices ++ [unblockNotice members task]) []) :=
    moves_foldlM_of_mem (fun task htask notices => (releases_releaseTask
      (List.mem_map_of_mem htask)).bind fun _ => moves_pure _) []
  refine (hloop disk').mono (fun _ _ h => ?_) fun _ _ h => ?_
  · exact trans_of (Disk.Releases _) hleads.releases h
  · exact trans_of (Disk.Releases _) hleads.releases h

/-- **A tick that returns has released every task it selected.** -/
theorem free_tick (members : List MemberInstance) (disk : Disk) :
    After (maybeAutoUnblockBlockedTasks members) disk
      (fun _ disk' => ∀ task ∈ unblockedTasks disk.board.tasks, ∀ path,
        disk.board.findPath task.id = some path → disk'.board.FreeAt path)
      (fun _ _ => True) := by
  simp only [maybeAutoUnblockBlockedTasks, after_bind]
  refine after_loadTasks.mono ?_ fun _ _ _ => trivial
  rintro tasks disk' ⟨hleads, rfl⟩
  have hstart : disk'.board = disk.board := hleads.board
  generalize unblockedTasks disk.board.tasks = selected
  -- All that is not left to do is released, and the paths are as they were.
  have hloop := @after_foldlM String Disk Task (List UnblockNotice) (fun notices task => do
      releaseTask task.id
      return notices ++ [unblockNotice members task]) selected [] disk'
    (fun left _ disk'' => (∀ id, disk''.board.findPath id = disk.board.findPath id) ∧
      ∀ task ∈ selected, task ∈ left ∨ ∀ path, disk.board.findPath task.id = some path →
        disk''.board.FreeAt path)
    (fun _ _ => True) ⟨fun _ => by rw [hstart], fun _ h => .inl h⟩ ?_
  · refine hloop.mono (fun _ disk'' h task htask => ?_) fun _ _ _ => trivial
    exact (h.2 task htask).resolve_left List.not_mem_nil
  · rintro task left notices disk'' ⟨hpaths, hfree⟩
    rw [after_bind]
    have hmoves := releases_releaseTask (List.mem_singleton_self task.id) disk''
    cases hpath : disk.board.findPath task.id with
    | none =>
      refine hmoves.mono (fun _ disk₃ h => ⟨fun id => (h.findPath id).trans (hpaths id),
        fun other hother => ?_⟩) fun _ _ _ => trivial
      rcases hfree other hother with hleft | hfreed
      · rcases List.mem_cons.mp hleft with rfl | hleft
        · -- Without a path there is nothing to free.
          exact .inr fun path hother => by rw [hpath] at hother; cases hother
        · exact .inl hleft
      · exact .inr fun path hother => h.free path (hfreed path hother)
    | some path =>
      have hfreed := free_releaseTask ((hpaths task.id).trans hpath)
      refine (hmoves.and hfreed).mono (fun _ disk₃ h => ⟨fun id =>
        (h.1.findPath id).trans (hpaths id), fun other hother => ?_⟩) fun _ _ _ => trivial
      rcases hfree other hother with hleft | hdone
      · rcases List.mem_cons.mp hleft with rfl | hleft
        · refine .inr fun found hfound => ?_
          obtain rfl := Option.some.inj (hpath.symm.trans hfound)
          exact h.2
        · exact .inl hleft
      · exact .inr fun found hfound => h.1.free found (hdone found hfound)

end

/-! ### Grounds of a block -/

/-- The task is blocked, by its status or by its block fields. -/
def Task.isBlocked (task : Task) : Bool :=
  task.status = "blocked" || task.blocked.isSome || task.blockedOn.isSome

/-- What a block rests on: something else than the dependencies, for they were finished when it was
made, or a dependency that was not. -/
inductive BlockGround where
  | ruling | dependency
deriving DecidableEq

/-- The dependency is finished, on the board or in the archive. -/
def Board.finishes (board : Board) (archived : List Nat) (id : Nat) : Bool :=
  (doneTaskIds board.tasks).contains id || archived.contains id

/-- The block that the later task shows was there before. A move to `blocked` is a new one. -/
def Task.keepsBlock (before after : Task) : Bool :=
  before.isBlocked && before.blocked = after.blocked && before.blockedOn = after.blockedOn &&
    (after.status ≠ "blocked" || before.status = "blocked")

/-- The grounds of the blocks after something happened. -/
def noteGrounds (before after : Board) (archived : List Nat) (grounds : String → Option BlockGround)
    (path : String) : Option BlockGround :=
  match after.taskAt path with
  | none => none
  | some task =>
    if !task.isBlocked then none
    else if (before.taskAt path).any fun task' => task'.keepsBlock task then grounds path
    else if task.dependsOn.all (after.finishes archived) then some .ruling
    else some .dependency

/-! ### Runs -/

/-- A tick that has been made. -/
structure UnblockTick where
  before : Board
  archived : List Nat
  grounds : String → Option BlockGround
  returned : Bool
  after : Board

/-- The disk, the ids of the tasks in the archive, what the blocks rest on, and the ticks so far. -/
structure BlockWatch where
  disk : Disk
  archived : List Nat := []
  grounds : String → Option BlockGround := fun _ => none
  ticks : List UnblockTick := []

/-- What happens to a board with blocked tasks. -/
inductive BlockEvent where
  | tick
  /-- Anything else that is done to the board: by an engineer who completes or stalls, by the
  rest of the daemon, or by hand. -/
  | command (action : DiskAction Unit) (archived : List Nat)

def returns {α : Type} (action : DiskAction α) (disk : Disk) : Bool :=
  match action disk with
  | .ok _ _ => true
  | .error _ _ => false

def BlockWatch.step (members : List MemberInstance) (watch : BlockWatch) : BlockEvent → BlockWatch
  | .tick =>
    let disk := endState (maybeAutoUnblockBlockedTasks members) watch.disk
    { disk
      archived := watch.archived
      grounds := noteGrounds watch.disk.board disk.board watch.archived watch.grounds
      ticks := {
        before := watch.disk.board
        archived := watch.archived
        grounds := watch.grounds
        returned := returns (maybeAutoUnblockBlockedTasks members) watch.disk
        after := disk.board } :: watch.ticks }
  | .command action archived =>
    let disk := endState action watch.disk
    { disk, archived
      grounds := noteGrounds watch.disk.board disk.board archived watch.grounds
      ticks := watch.ticks }

/-- The status and the block fields. -/
def blockKeys : List Key := [.status, .blocked, .blockReason, .blockedOn]

/-- What is asked of a tick. -/
structure UnblockTick.Fair (tick : UnblockTick) : Prop where
  /-- A block that rests on a ruling is as before. -/
  spares : ∀ path file, tick.grounds path = some .ruling → tick.before.find? path = some file →
    ∃ file', tick.after.find? path = some file' ∧
      ∀ key ∈ blockKeys, file'.mapping key = file.mapping key
  /-- A task that waits for nothing any more is released. -/
  releases : tick.returned = true → ∀ path task, tick.grounds path = some .dependency →
    tick.before.taskAt path = some task → task.dependsOn.all (tick.before.finishes tick.archived) →
      ∀ task', tick.after.taskAt path = some task' → task'.isBlocked = false

def BlockWatch.Fair (watch : BlockWatch) : Prop := ∀ tick ∈ watch.ticks, tick.Fair

/-- When a tick comes, no block that rests on a ruling is one it selects, and a task that waits for
nothing any more is seen to be ready. -/
def BlockWatch.Spares (watch : BlockWatch) : BlockEvent → Prop
  | .command _ _ => True
  | .tick =>
    (∀ task ∈ watch.disk.board.tasks, ∀ path, watch.disk.board.findPath task.id = some path →
      watch.grounds path = some .ruling → isToUnblock watch.disk.board.tasks task = false) ∧
    ∀ path task, watch.grounds path = some .dependency →
      watch.disk.board.taskAt path = some task →
      task.dependsOn.all (watch.disk.board.finishes watch.archived) →
        task ∈ watch.disk.board.tasks ∧ watch.disk.board.findPath task.id = some path ∧
          task.dependsOn ≠ [] ∧
          (∀ id ∈ task.dependsOn, (doneTaskIds watch.disk.board.tasks).contains id) ∧
          task.isHeldBack = true

/-- A task whose file is free is not blocked. -/
theorem isBlocked_of_freeAt {board : Board} {path : String} {task : Task} (h : board.FreeAt path)
    (htask : board.taskAt path = some task) : task.isBlocked = false := by
  obtain ⟨file, hfile, hread⟩ := Option.bind_eq_some_iff.mp htask
  obtain ⟨hunblocked, hstatus⟩ := h file hfile
  obtain ⟨hblocked, hblockedOn⟩ := (Task.parse_eq_some_iff.mp hread).unblocked hunblocked
  rw [TaskFile.status_of_task hread] at hstatus
  have hnot : task.status ≠ "blocked" := fun heq => hstatus (congrArg some heq)
  simp [Task.isBlocked, hnot, hblocked, hblockedOn]

/-- **A tick that comes upon no ruling it could lift is fair.** -/
theorem BlockWatch.fair_step {members : List MemberInstance} {watch : BlockWatch}
    {event : BlockEvent} (hfair : watch.Fair) (hspares : watch.Spares event) :
    (watch.step members event).Fair := by
  cases event with
  | command action archived => exact hfair
  | tick =>
    refine List.forall_mem_cons.mpr ⟨⟨fun path file hground hfile => ?_,
      fun hreturned path task hground htask hdone task' htask' => ?_⟩, hfair⟩
    · have hmoved := after_iff_endState.mp (releases_tick members watch.disk)
      -- The tick writes files of selected tasks only, and this is none of them.
      have huntouched : ∀ id ∈ (unblockedTasks watch.disk.board.tasks).map Task.id,
          watch.disk.board.findPath id ≠ some path := by
        intro id hid hpath
        obtain ⟨task, htask, rfl⟩ := List.mem_map.mp hid
        obtain ⟨hmem, hselected⟩ := List.mem_filter.mp htask
        rw [hspares.1 task hmem path hpath hground] at hselected
        cases hselected
      exact ⟨file, (hmoved.find? path huntouched).trans hfile, fun _ _ => rfl⟩
    · obtain ⟨hmem, hpath, hne, hfinished, hheld⟩ := hspares.2 path task hground htask hdone
      -- A task that is seen to be ready is selected.
      have hselected : task ∈ unblockedTasks watch.disk.board.tasks := by
        refine List.mem_filter.mpr ⟨hmem, ?_⟩
        simp only [isToUnblock, Bool.and_eq_true, List.all_eq_true]
        exact ⟨⟨by simpa using hne, hfinished⟩, hheld⟩
      have hfree := free_tick members watch.disk
      unfold returns at hreturned
      unfold endState at htask'
      cases hrun : maybeAutoUnblockBlockedTasks members watch.disk with
      | error error disk' => rw [hrun] at hreturned; cases hreturned
      | ok notices disk' =>
        rw [after_of_returns hrun] at hfree
        rw [hrun] at htask'
        exact isBlocked_of_freeAt (hfree task hselected path hpath) htask'

/-- **Ticks lift no ruling and leave nobody waiting**, in every run in which each tick comes upon
no ruling that it could lift and sees of every task that waits for nothing any more that it is
ready. -/
theorem always_fair_of_spares (members : List MemberInstance) (disk : Disk) (archived : List Nat)
    (grounds : String → Option BlockGround) (events : List BlockEvent)
    (h : EachStep (BlockWatch.step members) BlockWatch.Spares { disk, archived, grounds } events) :
    Always (BlockWatch.step members) BlockWatch.Fair { disk, archived, grounds } events :=
  always_of_eachStep (fun _ _ => BlockWatch.fair_step)
    (fun _ htick => absurd htick List.not_mem_nil) h

/-- Grounds are noted for files only. -/
theorem mem_names_of_noteGrounds {before after : Board} {archived : List Nat}
    {grounds : String → Option BlockGround} {path : String} {ground : BlockGround}
    (h : noteGrounds before after archived grounds path = some ground) :
    path ∈ after.files.map TaskFile.name := by
  cases htask : after.taskAt path with
  | none => rw [noteGrounds, htask] at h; cases h
  | some task =>
    obtain ⟨file, hfile, -⟩ := Option.bind_eq_some_iff.mp htask
    obtain ⟨hmem, rfl⟩ := Board.find?_eq_some_iff.mp hfile
    exact List.mem_map_of_mem hmem

/-! ### A stalled task -/

/-- A finished task and one under way, which depends on the ids. -/
def stalledDisk (dependsOn : List Value) : Disk where
  board := {
    files := [{
      name := "001-login.md"
      fenceNewline := true
      frontmatter :=
        .ofList [(.id, .number 1), (.title, .string "Login"), (.status, .string "done")]
      body := "" }, {
      name := "002-logout.md"
      fenceNewline := true
      frontmatter := .ofList [(.id, .number 2), (.title, .string "Logout"),
        (.status, .string "in-progress"), (.dependsOn, .sequence dependsOn)]
      body := "" }]
    nodup := by simp }
  tasksDir := "tasks"
  stamp := ""
  faults := fun _ => false

/-- What is done about the second task after too many stalls. -/
def capStalls : DiskAction Unit :=
  blockTaskWithReason 2 "stall-retry cap: needs human triage"

abbrev cappedDisk (dependsOn : List Value) : Disk := endState capStalls (stalledDisk dependsOn)

/-- A task that depends on nothing stays blocked. -/
theorem always_fair_of_spares_stalled :
    Always (BlockWatch.step []) BlockWatch.Fair { disk := stalledDisk [] }
      [.command capStalls [], .tick] := by
  refine always_fair_of_spares [] (stalledDisk []) [] (fun _ => none) _
    ⟨trivial, ⟨fun task htask _ _ _ => ?_, fun path task hground _ _ => ?_⟩, trivial⟩
  · have hall : ∀ task ∈ (cappedDisk []).board.tasks,
        isToUnblock (cappedDisk []).board.tasks task = false := by
      decide +kernel
    exact hall task htask
  · have hmem := mem_names_of_noteGrounds hground
    have hnames : (cappedDisk []).board.files.map TaskFile.name =
        ["001-login.md", "002-logout.md"] := by
      decide +kernel
    have hnone : ∀ path ∈ ["001-login.md", "002-logout.md"], noteGrounds (stalledDisk []).board
        (cappedDisk []).board [] (fun _ => none) path ≠ some .dependency := by
      decide +kernel
    rw [hnames] at hmem
    exact absurd hground (hnone path hmem)

/-- A task whose only dependency was finished when it was blocked is put up for dispatch again. -/
theorem not_always_fair_stalled :
    ¬ ∀ members disk archived grounds events,
      Always (BlockWatch.step members) BlockWatch.Fair { disk, archived, grounds } events := by
  intro h
  have hfair := h [] (stalledDisk [.number 1]) [] (fun _ => none)
    [.command capStalls [], .tick] [.command capStalls [], .tick] List.prefix_rfl _
    List.mem_cons_self
  have hground : noteGrounds (stalledDisk [.number 1]).board (cappedDisk [.number 1]).board []
      (fun _ => none) "002-logout.md" = some .ruling := by
    decide +kernel
  have hbefore : (cappedDisk [.number 1]).board.statusAt "002-logout.md" = some "blocked" := by
    decide +kernel
  obtain ⟨file, hfile, hstatus⟩ := Option.bind_eq_some_iff.mp hbefore
  obtain ⟨file', hfile', hkeys⟩ := hfair.spares "002-logout.md" file hground hfile
  have hsame : file'.status = file.status :=
    Mapping.orDefault_congr (hkeys .status (by simp [blockKeys]))
  have hkept := Option.bind_eq_some_iff.mpr ⟨file', hfile', hsame.trans hstatus⟩
  -- The file shows the status `todo` after the tick.
  exact absurd hkept (by decide +kernel)

end Batty
