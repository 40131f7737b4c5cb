import Mathlib.Algebra.Order.Ring.Int
import Batty.Dispatch.Available
import Batty.Dispatch.Claims
import Mathlib.Data.List.Chain
import Mathlib.Order.Bounds.Basic

/-!
# Tasks that recur

A task with a cron schedule that is done is opened again when an occurrence of its schedule has come
since it was last opened: it goes back to `todo`, and is scheduled for the next occurrence that is
still to come. So it does not run at the occurrence for which it was opened, but at the one after
it, unless it had been opened before.

* `recycleCronTasks`: what one tick does to the board.
* `CronRun`: ticks that return, and what happens to the task in between.
* `recycleCronTasks_opens`: what the first tick at or after an occurrence finds, and that no
  occurrence opens a task twice.
-/

namespace Batty

/-! ### Instants and schedules -/

/-- The libraries for schedules and time stamps; an instant is a number of nanoseconds. -/
structure CronLibrary where
  /-- The occurrences of a schedule, if the text is one: the next after an instant. -/
  schedule : String → Option (Int → Option Int)
  /-- The instant that a time stamp stands for, in any of the forms that a task file has. -/
  parse : String → Option Int
  format : Int → String

def dayNanos : Int := 24 * 60 * 60 * 10 ^ 9

/-- The fields of a task that only its recurrence is read from. -/
structure CronFields where
  cronSchedule : Option String := none
  cronLastRun : Option String := none

def TaskFile.cronFields (file : TaskFile) : CronFields where
  cronSchedule := (file.mapping .cronSchedule).bind Value.asString
  cronLastRun := (file.mapping .cronLastRun).bind Value.asString

/-- The calendar at an instant. -/
def CronLibrary.calendar (library : CronLibrary) (now : Int) : Calendar where
  instantOf := library.parse
  now := now

/-! ### One tick -/

/-- The tasks with all that their recurrence is read from. -/
def loadCronTasks : DiskAction (List (Task × CronFields)) := do
  let tasks ← loadTasks
  let board := (← get).board
  return tasks.map fun task =>
    (task, ((board.find? task.sourcePath).map TaskFile.cronFields).getD {})

/-- The schedule of a task that is due, and the occurrence it is to be scheduled for. -/
def dueOccurrence (library : CronLibrary) (now : Int) (task : Task) (fields : CronFields) :
    Option (String × Option String) :=
  if task.status ≠ "done" then none
  else
    match fields.cronSchedule with
    | none => none
    | some expr =>
      if "archived" ∈ task.tags then none
      else
        match library.schedule expr with
        | none => none
        | some schedule =>
          let reference := (fields.cronLastRun.bind library.parse).getD (now - dayNanos)
          match schedule reference with
          | none => none
          | some next =>
            if next > now then none else some (expr, (schedule now).map library.format)

def recycleMutator (nextFuture : Option String) (now : String) (mapping : Mapping) : Mapping :=
  let mapping := mapping.insert .status (.string "todo")
  let mapping := mapping.setOptionalString .scheduledFor nextFuture
  let mapping := mapping.setOptionalString .cronLastRun (some now)
  let mapping := mapping.remove .claimedBy
  let mapping := mapping.remove .branch
  let mapping := mapping.remove .commit
  let mapping := mapping.remove .artifacts
  let mapping := mapping.remove .nextAction
  let mapping := mapping.remove .reviewOwner
  let mapping := mapping.remove .blockedOn
  mapping.remove .worktreePath

def recycleCronTask (library : CronLibrary) (now : Int) (task : Task) (fields : CronFields) :
    DiskAction (List (Nat × String)) :=
  match dueOccurrence library now task fields with
  | none => return []
  | some (expr, nextFuture) => do
    editTask task.id (recycleMutator nextFuture (library.format now))
    recordStatusTransitionActivity task.status "todo"
    return [(task.id, expr)]

/-- Open the tasks again that are due, and say which these are. -/
def recycleCronTasks (library : CronLibrary) (now : Int) : DiskAction (List (Nat × String)) := do
  let tasks ← loadCronTasks
  tasks.foldlM (fun recycled (task, fields) => do
    return recycled ++ (← recycleCronTask library now task fields)) []

/-! ### The edit -/

theorem recycleMutator_apply (nextFuture : Option String) (now : String) (mapping : Mapping)
    {key : Key} (h : key ∉ [Key.status, .scheduledFor, .cronLastRun, .claimedBy, .branch, .commit,
      .artifacts, .nextAction, .reviewOwner, .blockedOn, .worktreePath]) :
    recycleMutator nextFuture now mapping key = mapping key := by
  simp only [List.mem_cons, List.not_mem_nil, or_false, not_or] at h
  simp [recycleMutator, h]

/-- The task is open again: nobody has it, and it is not blocked if it was not before. -/
structure Reopened (file : TaskFile) (task : Task) : Prop where
  status : task.status = "todo"
  claimedBy : task.claimedBy = none
  unblocked : file.mapping .blocked = none → file.mapping .blockReason = none →
    task.blocked = none ∧ task.blockedOn = none

theorem restDecodes_recycle {mapping : Mapping} (h : mapping.restDecodes = true)
    (nextFuture : Option String) (now : String) :
    (recycleMutator nextFuture now mapping).restDecodes = true := by
  refine restDecodes_of_edit h ?_
  have hlastRun : recycleMutator nextFuture now mapping .cronLastRun = some (.string now) := by
    simp [recycleMutator]
  have hremoved : ∀ key ∈ [Key.commit, .artifacts, .nextAction],
      recycleMutator nextFuture now mapping key = none := by
    simp [recycleMutator]
  intro field hfield
  -- A field is the tick of the schedule, or is cleared, or stays.
  by_cases hrun : field.1 = .cronLastRun
  · refine .inr (.inr ⟨_, hrun ▸ hlastRun, ?_⟩)
    revert hrun field
    simp [restFields, Value.asString]
  · by_cases hcleared : field.1 ∈ [Key.commit, .artifacts, .nextAction]
    · exact .inr (.inl (hremoved _ hcleared))
    · refine .inl (recycleMutator_apply nextFuture now mapping ?_)
      revert hrun hcleared field
      simp [restFields]

/-- **Opening a task again.** The file is still that of the task, which is open. -/
theorem task_update_recycle {file : TaskFile} {task : Task} (h : file.task = some task)
    (nextFuture : Option String) (now : String) :
    ∃ task', (file.update (recycleMutator nextFuture now)).task = some task' ∧
      task'.id = task.id ∧ task'.scheduledFor = nextFuture ∧ Reopened file task' := by
  have hreads := Task.parse_eq_some_iff.mp h
  have hsame : ∀ {key : Key}, key ∉ [Key.status, .scheduledFor, .cronLastRun, .claimedBy, .branch,
      .commit, .artifacts, .nextAction, .reviewOwner, .blockedOn, .worktreePath] →
      recycleMutator nextFuture now file.mapping key = file.mapping key := fun hkey =>
    recycleMutator_apply nextFuture now file.mapping hkey
  have hblock : (recycleMutator nextFuture now file.mapping).BlockDecodes := by
    obtain ⟨hb, hr, -⟩ := hreads.blockDecodes
    refine ⟨?_, ?_, ?_⟩
    · rw [Mapping.orDefault_congr (hsame (by decide))]
      exact hb
    · rw [Mapping.optional_congr (hsame (by decide))]
      exact hr
    · simp [recycleMutator, Mapping.optional]
  obtain ⟨blocked, blockedOn, hread⟩ := hblock.exists_block
  have hedited : Task.Reads file.name (recycleMutator nextFuture now file.mapping) file.body
      { task with
        status := "todo", claimedBy := none, reviewOwner := none, worktreePath := none
        branch := none, scheduledFor := nextFuture, blocked, blockedOn } := {
    id := (Mapping.required_congr (hsame (by decide))).trans hreads.id
    title := (Mapping.required_congr (hsame (by decide))).trans hreads.title
    status := by simp [recycleMutator, Mapping.orDefault, Value.asString]
    priority := (Mapping.orDefault_congr (hsame (by decide))).trans hreads.priority
    assignee := (Mapping.optional_congr (hsame (by decide))).trans hreads.assignee
    claimedBy := by simp [recycleMutator, Mapping.optional]
    claimedAt := (Mapping.optional_congr (hsame (by decide))).trans hreads.claimedAt
    block := hread
    tags := (Mapping.orDefault_congr (hsame (by decide))).trans hreads.tags
    dependsOn := (Mapping.orDefault_congr (hsame (by decide))).trans hreads.dependsOn
    reviewOwner := by simp [recycleMutator, Mapping.optional]
    worktreePath := by simp [recycleMutator, Mapping.optional]
    branch := by simp [recycleMutator, Mapping.optional]
    scheduledFor := by
      cases nextFuture <;> simp [recycleMutator, Mapping.optional, Value.asString]
    rest := restDecodes_recycle hreads.rest nextFuture now
    description := hreads.description
    sourcePath := hreads.sourcePath }
  obtain ⟨_, _, htask⟩ := TaskFile.exists_task_update hedited
  refine ⟨_, htask, rfl, rfl, rfl, rfl, fun hnone hnoReason => ?_⟩
  have hunblocked : (recycleMutator nextFuture now file.mapping).Unblocked :=
    ⟨(hsame (by decide)).trans hnone, (hsame (by decide)).trans hnoReason, by simp [recycleMutator]⟩
  have hreads' := Task.parse_eq_some_iff.mp htask
  rw [TaskFile.mapping_update hunblocked] at hreads'
  exact hreads'.unblocked hunblocked

theorem keepsIds_recycle (nextFuture : Option String) (now : String) :
    KeepsIds (recycleMutator nextFuture now) := by
  intro file task htask
  obtain ⟨task', htask', hid, -⟩ := task_update_recycle htask nextFuture now
  exact ⟨task', htask', hid⟩

/-- The schedule stays, and the tick is on record. -/
theorem cronFields_recycle (file : TaskFile) (nextFuture : Option String) (now : String) :
    (file.update (recycleMutator nextFuture now)).cronFields =
      { cronSchedule := file.cronFields.cronSchedule, cronLastRun := some now } := by
  have hkeep : ∀ {key : Key}, ¬ key.IsBlockKey →
      (file.update (recycleMutator nextFuture now)).mapping key =
        recycleMutator nextFuture now file.mapping key := fun hkey => normalizeBlocked_apply _ hkey
  simp only [TaskFile.cronFields]
  rw [hkeep (by simp [Key.IsBlockKey]), hkeep (by simp [Key.IsBlockKey]),
    recycleMutator_apply _ _ _ (by simp)]
  simp [recycleMutator, Value.asString]

/-! ### What a tick leaves -/

/-- The file at `path` is the only one of the task, and every reader sees it. -/
structure Board.Sole (board : Board) (taskId : Nat) (path : String) : Prop where
  findPath : board.findPath taskId = some path
  only : ∀ task ∈ board.tasks, task.id = taskId → task.sourcePath = path
  listed : ∃ task ∈ board.tasks, task.id = taskId

section

variable {board : Board} {taskId : Nat} {path : String} {disk : Disk} {library : CronLibrary}
  {now : Int} {file : TaskFile} {task : Task}

theorem Board.Sole.update (h : board.Sole taskId path) {path' : String} {held : Task}
    (hheld : board.taskAt path' = some held) {mutator : Mapping → Mapping}
    (hmutator : KeepsIds mutator) : (board.update path' mutator).Sole taskId path := by
  obtain ⟨edited, hfind, hread⟩ := Option.bind_eq_some_iff.mp hheld
  obtain ⟨held', hheld', hid⟩ := hmutator hread
  have htasks := Board.tasks_update hfind hread hheld' hid
  have hpath' : held'.sourcePath = held.sourcePath :=
    (TaskFile.sourcePath_eq_name hheld').trans (TaskFile.sourcePath_eq_name hread).symm
  have hkept : ∀ other ∈ board.tasks, (held'.replacedBy path' other).id = other.id ∧
      (held'.replacedBy path' other).sourcePath = other.sourcePath := by
    intro other hmem
    unfold Task.replacedBy
    split
    · rename_i hpath
      obtain rfl := Board.eq_of_sourcePath hfind hread hmem hpath
      exact ⟨hid, hpath'⟩
    · exact ⟨rfl, rfl⟩
  refine ⟨(findPath_update hheld hmutator taskId).trans h.findPath, ?_, ?_⟩
  · intro moved hmem hmoved
    rw [htasks] at hmem
    obtain ⟨other, hother, rfl⟩ := List.mem_map.mp hmem
    obtain ⟨hotherId, hotherPath⟩ := hkept other hother
    exact hotherPath.trans (h.only other hother (hotherId.symm.trans hmoved))
  · obtain ⟨other, hother, hotherId⟩ := h.listed
    exact ⟨_, htasks ▸ List.mem_map_of_mem hother, (hkept other hother).1.trans hotherId⟩

/-- What comes of a task that the tick looks at: it is due and its file edited, or nothing is. -/
theorem after_recycleCronTask (task : Task) (fields : CronFields) :
    After (recycleCronTask library now task fields) disk
      (fun recycled disk' => match dueOccurrence library now task fields with
        | none => recycled = [] ∧ disk' = disk
        | some (expr, nextFuture) => recycled = [(task.id, expr)] ∧
            disk.Edits task.id (recycleMutator nextFuture (library.format now)) disk')
      (fun _ _ => True) := by
  unfold recycleCronTask
  cases dueOccurrence library now task fields with
  | none => exact ⟨rfl, rfl⟩
  | some due =>
    simp only [after_bind, after_pure]
    refine (after_editTask task.id _).mono (fun _ disk' h => ?_) fun _ _ _ => trivial
    refine (after_recordStatusTransitionActivity _ _).mono (fun _ disk'' h' => ⟨trivial, ?_⟩)
      fun _ _ _ => trivial
    obtain ⟨path, hpath, hleads⟩ := h
    rw [hleads.board] at h'
    exact ⟨path, hpath, hleads.trans h'⟩

/-- The file of the task is this one, and no other file is of it. -/
structure Disk.Shows (disk : Disk) (taskId : Nat) (path : String) (file : TaskFile) : Prop where
  sole : disk.board.Sole taskId path
  find? : disk.board.find? path = some file

theorem Disk.Shows.exists_task (h : disk.Shows taskId path file) :
    ∃ task ∈ disk.board.tasks, file.task = some task ∧ task.id = taskId ∧
      task.sourcePath = path := by
  obtain ⟨task, hmem, hid⟩ := h.sole.listed
  have hpath := h.sole.only task hmem hid
  obtain ⟨held, hfind, hread⟩ := Board.exists_find?_of_mem hmem
  rw [hpath, h.find?] at hfind
  obtain rfl := Option.some.inj hfind
  exact ⟨task, hmem, hread, hid, hpath⟩

/-- A tick that comes to another task leaves the file alone. -/
theorem shows_recycleCronTask_of_ne (h : disk.Shows taskId path file) {other : Task}
    (hother : other.id ≠ taskId) (fields : CronFields) :
    After (recycleCronTask library now other fields) disk
      (fun recycled disk' => taskId ∉ recycled.map Prod.fst ∧ disk'.Shows taskId path file)
      (fun _ _ => True) := by
  refine (after_recycleCronTask other fields).mono (fun recycled disk' hrecycled => ?_)
    fun _ _ _ => trivial
  split at hrecycled
  · obtain ⟨rfl, rfl⟩ := hrecycled
    exact ⟨List.not_mem_nil, h⟩
  · obtain ⟨rfl, path', hpath', hleads⟩ := hrecycled
    refine ⟨by simpa using Ne.symm hother, ?_⟩
    obtain ⟨held, hheld, hid⟩ := Board.exists_taskAt hpath'
    have hne : path ≠ path' := by
      rintro rfl
      obtain ⟨task, -, htask, htaskId, -⟩ := h.exists_task
      rw [Board.taskAt, h.find?, Option.bind_some, htask] at hheld
      obtain rfl := Option.some.inj hheld
      exact hother (hid.symm.trans htaskId)
    refine ⟨?_, ?_⟩
    · rw [hleads.board]
      exact h.sole.update hheld (keepsIds_recycle _ _)
    · rw [hleads.board, find?_update_of_ne _ hne, h.find?]

/-- What a tick makes of the file of the task. -/
def recycledFile (library : CronLibrary) (now : Int) (task : Task) (file : TaskFile) : TaskFile :=
  match dueOccurrence library now task file.cronFields with
  | none => file
  | some (_, nextFuture) => file.update (recycleMutator nextFuture (library.format now))

theorem shows_recycleCronTask (h : disk.Shows taskId path file) (htask : file.task = some task)
    (hid : task.id = taskId) :
    After (recycleCronTask library now task file.cronFields) disk
      (fun recycled disk' => (taskId ∈ recycled.map Prod.fst ↔
          (dueOccurrence library now task file.cronFields).isSome) ∧
        disk'.Shows taskId path (recycledFile library now task file)) (fun _ _ => True) := by
  refine (after_recycleCronTask task _).mono (fun recycled disk' hrecycled => ?_)
    fun _ _ _ => trivial
  unfold recycledFile
  split at hrecycled
  · obtain ⟨rfl, rfl⟩ := hrecycled
    rename_i hdue
    rw [hdue]
    exact ⟨by simp, h⟩
  · obtain ⟨rfl, path', hpath', hleads⟩ := hrecycled
    rename_i hdue
    rw [hdue]
    rw [hid, h.sole.findPath] at hpath'
    obtain rfl := Option.some.inj hpath'
    have hheld : disk.board.taskAt path = some task := by
      rw [Board.taskAt, h.find?, Option.bind_some, htask]
    refine ⟨by simp [hid], ?_, ?_⟩
    · rw [hleads.board]
      exact h.sole.update hheld (keepsIds_recycle _ _)
    · rw [hleads.board, Board.find?_update, h.find?, Option.map_some, if_pos rfl]

/-- The tasks after the one that is looked at. -/
theorem shows_recycleOthers {others : List (Task × CronFields)}
    (hothers : ∀ entry ∈ others, entry.1.id ≠ taskId) (h : disk.Shows taskId path file)
    (recycled : List (Nat × String)) :
    After (others.foldlM (fun recycled (task, fields) => do
        return recycled ++ (← recycleCronTask library now task fields)) recycled) disk
      (fun recycled' disk' => (taskId ∈ recycled'.map Prod.fst ↔ taskId ∈ recycled.map Prod.fst) ∧
        disk'.Shows taskId path file) (fun _ _ => True) := by
  induction others generalizing recycled disk with
  | nil => exact ⟨Iff.rfl, h⟩
  | cons other others ih =>
    obtain ⟨hother, hothers⟩ := List.forall_mem_cons.mp hothers
    simp only [List.foldlM_cons, after_bind, after_pure]
    refine (shows_recycleCronTask_of_ne h hother other.2).mono ?_ fun _ _ _ => trivial
    rintro entries disk₁ ⟨hnot, h₁⟩
    refine (ih hothers h₁ _).mono ?_ fun _ _ _ => trivial
    rintro recycled' disk₂ ⟨hiff, h₂⟩
    refine ⟨hiff.trans ?_, h₂⟩
    rw [List.map_append, List.mem_append]
    exact ⟨fun hmem => hmem.resolve_right hnot, .inl⟩

/-- **One tick** opens the task again exactly if it is due. -/
theorem shows_recycleCronTasks (h : disk.Shows taskId path file) (htask : file.task = some task) :
    After (recycleCronTasks library now) disk
      (fun recycled disk' => (taskId ∈ recycled.map Prod.fst ↔
          (dueOccurrence library now task file.cronFields).isSome) ∧
        disk'.Shows taskId path (recycledFile library now task file)) (fun _ _ => True) := by
  obtain ⟨task', hmem, htask', hid, hpath⟩ := h.exists_task
  obtain rfl := Option.some.inj (htask.symm.trans htask')
  simp only [recycleCronTasks, loadCronTasks, after_bind, after_get, after_pure]
  refine (@after_loadTasks disk).mono ?_ fun _ _ _ => trivial
  rintro _ disk₁ ⟨hleads, rfl⟩
  have h₁ : disk₁.Shows taskId path file := ⟨hleads.board ▸ h.sole, hleads.board ▸ h.find?⟩
  obtain ⟨before, after, hsplit⟩ := List.append_of_mem hmem
  have hothers : ∀ other ∈ before ++ after, other.id ≠ taskId := by
    intro other hother hotherId
    have hnodup := nodup_sourcePath disk.board
    rw [hsplit, List.map_append, List.map_cons] at hnodup
    have hnot := (List.nodup_middle.mp hnodup).notMem
    refine hnot ?_
    rw [← List.map_append, hpath, ← h.sole.only other ?_ hotherId]
    · exact List.mem_map_of_mem hother
    · rw [hsplit]
      simp only [List.mem_append, List.mem_cons] at hother ⊢
      tauto
  have hfields : ((disk₁.board.find? task.sourcePath).map TaskFile.cronFields).getD {} =
      file.cronFields := by
    rw [hpath, h₁.find?, Option.map_some, Option.getD_some]
  rw [hsplit, List.map_append, List.map_cons, hfields, List.foldlM_append, after_bind]
  refine (shows_recycleOthers ?_ h₁ []).mono ?_ fun _ _ _ => trivial
  · intro entry hentry
    obtain ⟨other, hother, rfl⟩ := List.mem_map.mp hentry
    exact hothers other (List.mem_append_left _ hother)
  · rintro recycled disk₂ ⟨hbefore, h₂⟩
    simp only [List.foldlM_cons, after_bind, after_pure]
    refine (shows_recycleCronTask h₂ htask hid).mono ?_ fun _ _ _ => trivial
    rintro entries disk₃ ⟨hentries, h₃⟩
    refine (shows_recycleOthers ?_ h₃ _).mono ?_ fun _ _ _ => trivial
    · intro entry hentry
      obtain ⟨other, hother, rfl⟩ := List.mem_map.mp hentry
      exact hothers other (List.mem_append_right _ hother)
    · rintro recycled' disk₄ ⟨hafter, h₄⟩
      refine ⟨hafter.trans ?_, h₄⟩
      rw [List.map_append, List.mem_append, ← hentries]
      exact ⟨fun hmem => hmem.resolve_left fun hleft => by simpa using hbefore.mp hleft, .inr⟩

end

/-! ### Occurrences -/

/-- The schedule goes through the occurrences: it gives the least after an instant. -/
structure Enumerates (schedule : Int → Option Int) (occurs : Int → Prop) : Prop where
  isLeast : ∀ {instant next : Int}, schedule instant = some next →
    IsLeast {occurrence | occurs occurrence ∧ instant < occurrence} next
  eq_none : ∀ {instant : Int}, schedule instant = none →
    ∀ occurrence, occurs occurrence → occurrence ≤ instant

/-- An occurrence has come since the last run, or within a day if there is none on record. -/
def DueAt (library : CronLibrary) (occurs : Int → Prop) (fields : CronFields) (now : Int) : Prop :=
  ∃ occurrence, occurs occurrence ∧
    (fields.cronLastRun.bind library.parse).getD (now - dayNanos) < occurrence ∧ occurrence ≤ now

section

variable {library : CronLibrary} {expr : String} {schedule : Int → Option Int}
  {occurs : Int → Prop} {now : Int} {task : Task} {fields : CronFields}

theorem done_of_dueOccurrence (h : (dueOccurrence library now task fields).isSome) :
    task.status = "done" := by
  by_contra hstatus
  rw [dueOccurrence, if_pos hstatus] at h
  cases h

/-- What is due according to the libraries is. -/
theorem dueAt_of_dueOccurrence (hexpr : library.schedule expr = some schedule)
    (henum : Enumerates schedule occurs) (hschedule : fields.cronSchedule = some expr)
    (h : (dueOccurrence library now task fields).isSome) : DueAt library occurs fields now := by
  simp only [dueOccurrence, hschedule, hexpr] at h
  split at h
  · cases h
  split at h
  · cases h
  cases hnext : schedule ((fields.cronLastRun.bind library.parse).getD (now - dayNanos)) with
  | none =>
    simp only [hnext] at h
    cases h
  | some next =>
    simp only [hnext] at h
    split at h
    · cases h
    · rename_i hcome
      obtain ⟨hoccurs, hlater⟩ := (henum.isLeast hnext).1
      exact ⟨next, hoccurs, hlater, not_lt.mp hcome⟩

theorem dueOccurrence_of_dueAt (hexpr : library.schedule expr = some schedule)
    (henum : Enumerates schedule occurs) (hschedule : fields.cronSchedule = some expr)
    (hstatus : task.status = "done") (hkept : "archived" ∉ task.tags)
    (h : DueAt library occurs fields now) :
    dueOccurrence library now task fields = some (expr, (schedule now).map library.format) := by
  obtain ⟨occurrence, hoccurs, hlater, hcome⟩ := h
  simp only [dueOccurrence, hschedule, hexpr, hstatus, if_neg hkept, ne_eq, not_true_eq_false,
    if_false]
  cases hnext : schedule ((fields.cronLastRun.bind library.parse).getD (now - dayNanos)) with
  | none => exact absurd (henum.eq_none hnext occurrence hoccurs) (not_le.mpr hlater)
  | some next =>
    have hle : next ≤ occurrence := (henum.isLeast hnext).2 ⟨hoccurs, hlater⟩
    exact if_neg (not_lt.mpr (hle.trans hcome))

end

/-! ### Runs -/

/-- A tick that returns, and the disk before and after it. -/
structure CronTick where
  now : Int
  before : Disk
  recycled : List (Nat × String)
  after : Disk

def CronTick.Runs (library : CronLibrary) (tick : CronTick) : Prop :=
  recycleCronTasks library tick.now tick.before = .ok tick.recycled tick.after

/-- Ticks one after another, each after something that `R` allows. -/
def CronRun (library : CronLibrary) (R : Disk → Disk → Prop) : Disk → List CronTick → Prop
  | _, [] => True
  | disk, tick :: ticks => R disk tick.before ∧ tick.Runs library ∧
      (∀ later ∈ ticks, tick.now ≤ later.now) ∧ CronRun library R tick.after ticks

/-- Nothing happens to the task. -/
def LeavesAlone (taskId : Nat) (path : String) (disk disk' : Disk) : Prop :=
  ∀ file, disk.Shows taskId path file → disk'.Shows taskId path file

/-- Whatever happens to the task, its schedule and its last run stay what they are. -/
def KeepsCron (taskId : Nat) (path : String) (disk disk' : Disk) : Prop :=
  ∀ file, disk.Shows taskId path file →
    ∃ file', disk'.Shows taskId path file' ∧ file'.cronFields = file.cronFields

/-- The time stamps that are written at an instant are read as they were meant. -/
def CronLibrary.Keeps (library : CronLibrary) (schedule : Int → Option Int) (now : Int) : Prop :=
  library.parse (library.format now) = some now ∧
    ∀ next ∈ schedule now, library.parse (library.format next) = some next

instance (library : CronLibrary) (schedule : Int → Option Int) (now : Int) :
    Decidable (library.Keeps schedule now) := by
  unfold CronLibrary.Keeps
  infer_instance

/-- A done task with the schedule, in the only file of its id. -/
structure DoneCron (expr : String) (taskId : Nat) (path : String) (disk : Disk) (file : TaskFile)
    (task : Task) : Prop where
  shows : disk.Shows taskId path file
  reads : file.task = some task
  status : task.status = "done"
  kept : "archived" ∉ task.tags
  schedule : file.cronFields.cronSchedule = some expr

/-- What the first tick at or after an occurrence finds: if the task was or is due, it is open, and
has to wait exactly if it was not due before and there is an occurrence to wait for. -/
def OpensForOccurrences (library : CronLibrary) (expr : String) (schedule : Int → Option Int)
    (occurs : Int → Prop) (taskId : Nat) (path : String) : Prop :=
  ∀ start file task earlier last, DoneCron expr taskId path start file task →
    CronRun library (LeavesAlone taskId path) start (earlier ++ [last]) →
    (∀ tick ∈ earlier ++ [last], library.Keeps schedule tick.now) →
    ∀ occurrence, occurs occurrence → (∀ tick ∈ earlier, tick.now < occurrence) →
      occurrence ≤ last.now →
    (∃ tick ∈ earlier ++ [last], DueAt library occurs file.cronFields tick.now) →
    ∃ task', last.after.board.taskAt path = some task' ∧ Reopened file task' ∧
      (task'.isScheduleBlocked (library.calendar last.now) = true ↔
        (∀ tick ∈ earlier, ¬ DueAt library occurs file.cronFields tick.now) ∧
          ∃ later, occurs later ∧ last.now < later)

/-- Between any two ticks that open the task there is an occurrence. -/
def OpensOnce (library : CronLibrary) (expr : String) (schedule : Int → Option Int)
    (occurs : Int → Prop) (taskId : Nat) (path : String) : Prop :=
  ∀ start file ticks, start.Shows taskId path file → file.cronFields.cronSchedule = some expr →
    CronRun library (KeepsCron taskId path) start ticks →
    (∀ tick ∈ ticks, library.Keeps schedule tick.now) →
    ((ticks.filter fun tick => taskId ∈ tick.recycled.map Prod.fst).map CronTick.now).IsChain
      fun now now' => ∃ occurrence, occurs occurrence ∧ now < occurrence ∧ occurrence ≤ now'

section

variable {library : CronLibrary} {expr : String} {schedule : Int → Option Int}
  {occurs : Int → Prop} {taskId : Nat} {path : String} {start : Disk} {file : TaskFile}
  {task : Task} {tick : CronTick}

theorem CronTick.Runs.shows (h : tick.Runs library) (hshows : tick.before.Shows taskId path file)
    (htask : file.task = some task) :
    (taskId ∈ tick.recycled.map Prod.fst ↔
        (dueOccurrence library tick.now task file.cronFields).isSome) ∧
      tick.after.Shows taskId path (recycledFile library tick.now task file) :=
  (after_of_returns h).mp (shows_recycleCronTasks hshows htask)

/-- A task that is not done is left alone by the ticks. -/
theorem shows_of_not_done {ticks : List CronTick} (hshows : start.Shows taskId path file)
    (htask : file.task = some task) (hstatus : task.status ≠ "done")
    (hrun : CronRun library (LeavesAlone taskId path) start ticks) :
    ∀ tick ∈ ticks, tick.after.Shows taskId path file := by
  induction ticks generalizing start with
  | nil => nofun
  | cons tick ticks ih =>
    obtain ⟨hbefore, hruns, -, hrest⟩ := hrun
    have hafter := (hruns.shows (hbefore file hshows) htask).2
    have hnone : dueOccurrence library tick.now task file.cronFields = none :=
      Option.not_isSome_iff_eq_none.mp fun hdue => hstatus (done_of_dueOccurrence hdue)
    rw [recycledFile, hnone] at hafter
    exact List.forall_mem_cons.mpr ⟨hafter, ih hafter hrest⟩

theorem isScheduleBlocked_of_parse {now instant : Int} {scheduled : String}
    (hscheduled : task.scheduledFor = some scheduled)
    (hparse : library.parse scheduled = some instant) :
    task.isScheduleBlocked (library.calendar now) = true ↔ now < instant := by
  simp only [Task.isScheduleBlocked, CronLibrary.calendar, hscheduled, Option.bind_some, hparse]
  exact decide_eq_true_iff

/-- A tick at which the task is due opens it, and schedules it for the next occurrence. -/
theorem DoneCron.opened (h : DoneCron expr taskId path start file task)
    (hexpr : library.schedule expr = some schedule) (henum : Enumerates schedule occurs)
    (hbefore : LeavesAlone taskId path start tick.before) (hruns : tick.Runs library)
    (hdue : DueAt library occurs file.cronFields tick.now) :
    ∃ file' task', tick.after.Shows taskId path file' ∧ file'.task = some task' ∧
      Reopened file task' ∧ task'.scheduledFor = (schedule tick.now).map library.format := by
  have hafter := (hruns.shows (hbefore file h.shows) h.reads).2
  rw [recycledFile, dueOccurrence_of_dueAt hexpr henum h.schedule h.status h.kept hdue] at hafter
  obtain ⟨task', htask', -, hscheduled, hreopened⟩ := task_update_recycle h.reads
    ((schedule tick.now).map library.format) (library.format tick.now)
  exact ⟨_, task', hafter, htask', hreopened, hscheduled⟩

/-- A tick at which the task is not due leaves it alone. -/
theorem DoneCron.kept_of_not_due (h : DoneCron expr taskId path start file task)
    (hexpr : library.schedule expr = some schedule) (henum : Enumerates schedule occurs)
    (hbefore : LeavesAlone taskId path start tick.before) (hruns : tick.Runs library)
    (hdue : ¬ DueAt library occurs file.cronFields tick.now) :
    DoneCron expr taskId path tick.after file task := by
  have hafter := (hruns.shows (hbefore file h.shows) h.reads).2
  have hnone : dueOccurrence library tick.now task file.cronFields = none :=
    Option.not_isSome_iff_eq_none.mp fun hsome =>
      hdue (dueAt_of_dueOccurrence hexpr henum h.schedule hsome)
  rw [recycledFile, hnone] at hafter
  exact ⟨hafter, h.reads, h.status, h.kept, h.schedule⟩

theorem Disk.Shows.taskAt {disk : Disk} (h : disk.Shows taskId path file) :
    disk.board.taskAt path = file.task := by
  rw [Board.taskAt, h.find?, Option.bind_some]

theorem opensForOccurrences (hexpr : library.schedule expr = some schedule)
    (henum : Enumerates schedule occurs) :
    OpensForOccurrences library expr schedule occurs taskId path := by
  intro start file task earlier last hdone hrun hkeeps occurrence hoccurs hearlier hlast hdue
  induction earlier generalizing start with
  | nil =>
    obtain ⟨hbefore, hruns, -⟩ := hrun
    obtain ⟨tick, hmem, hdue⟩ := hdue
    obtain rfl := List.mem_singleton.mp hmem
    obtain ⟨file', task', hshows, htask', hreopened, hscheduled⟩ :=
      hdone.opened hexpr henum hbefore hruns hdue
    refine ⟨task', hshows.taskAt.trans htask', hreopened, ?_⟩
    cases hnext : schedule tick.now with
    | none =>
      rw [hnext, Option.map_none] at hscheduled
      have hfree : task'.isScheduleBlocked (library.calendar tick.now) = false := by
        rw [Task.isScheduleBlocked, hscheduled, Option.bind_none]
      rw [hfree]
      refine iff_of_false (by decide) ?_
      rintro ⟨-, later, hlater, hlt⟩
      exact absurd (henum.eq_none hnext later hlater) (not_le.mpr hlt)
    | some next =>
      obtain ⟨hnextOccurs, hlater⟩ := (henum.isLeast hnext).1
      rw [hnext, Option.map_some] at hscheduled
      rw [isScheduleBlocked_of_parse hscheduled ((hkeeps tick hmem).2 next hnext)]
      exact iff_of_true hlater ⟨nofun, next, hnextOccurs, hlater⟩
  | cons tick earlier ih =>
    obtain ⟨hbefore, hruns, -, hrest⟩ := hrun
    obtain ⟨hbeforeOccurrence, hearlier⟩ := List.forall_mem_cons.mp hearlier
    by_cases hdueNow : DueAt library occurs file.cronFields tick.now
    · obtain ⟨file', task', hshows, htask', hreopened, hscheduled⟩ :=
        hdone.opened hexpr henum hbefore hruns hdueNow
      have hstays := shows_of_not_done hshows htask' (by rw [hreopened.status]; decide) hrest last
        (List.mem_append_right _ (List.mem_singleton_self _))
      refine ⟨task', hstays.taskAt.trans htask', hreopened, ?_⟩
      refine iff_of_false ?_ fun hnone => hnone.1 tick List.mem_cons_self hdueNow
      cases hnext : schedule tick.now with
      | none => exact absurd (henum.eq_none hnext occurrence hoccurs) (not_le.mpr hbeforeOccurrence)
      | some next =>
        have hle : next ≤ occurrence := (henum.isLeast hnext).2 ⟨hoccurs, hbeforeOccurrence⟩
        rw [hnext, Option.map_some] at hscheduled
        rw [isScheduleBlocked_of_parse hscheduled
          ((hkeeps tick List.mem_cons_self).2 next hnext)]
        exact not_lt.mpr (hle.trans hlast)
    · have hstill := hdone.kept_of_not_due hexpr henum hbefore hruns hdueNow
      have hdueLater :
          ∃ tick ∈ earlier ++ [last], DueAt library occurs file.cronFields tick.now := by
        obtain ⟨due, hmem, hdue⟩ := hdue
        rcases List.mem_cons.mp hmem with rfl | hmem
        · exact absurd hdue hdueNow
        · exact ⟨due, hmem, hdue⟩
      obtain ⟨task', htask', hreopened, hiff⟩ := ih tick.after hstill hrest
        (fun later hmem => hkeeps later (List.mem_cons_of_mem _ hmem)) hearlier hdueLater
      refine ⟨task', htask', hreopened, hiff.trans (and_congr_left fun _ => ?_)⟩
      rw [List.forall_mem_cons]
      exact ⟨fun h => ⟨hdueNow, h⟩, And.right⟩

/-- After a last run at `lastRun`, the ticks that open the task are apart, and so are it and the
first of them. -/
theorem isChain_recycled (hexpr : library.schedule expr = some schedule)
    (henum : Enumerates schedule occurs) (hshows : start.Shows taskId path file)
    (hschedule : file.cronFields.cronSchedule = some expr) {ticks : List CronTick}
    (hrun : CronRun library (KeepsCron taskId path) start ticks)
    (hkeeps : ∀ tick ∈ ticks, library.Keeps schedule tick.now) :
    ((file.cronFields.cronLastRun.bind library.parse).toList ++
      (ticks.filter fun tick => taskId ∈ tick.recycled.map Prod.fst).map CronTick.now).IsChain
      fun now now' => ∃ occurrence, occurs occurrence ∧ now < occurrence ∧ occurrence ≤ now' := by
  induction ticks generalizing start file with
  | nil => cases file.cronFields.cronLastRun.bind library.parse <;> simp
  | cons tick ticks ih =>
    obtain ⟨hbefore, hruns, -, hrest⟩ := hrun
    obtain ⟨hkeepsNow, hkeeps⟩ := List.forall_mem_cons.mp hkeeps
    obtain ⟨file', hshows', hfields⟩ := hbefore file hshows
    obtain ⟨task', -, htask', -⟩ := hshows'.exists_task
    obtain ⟨hrecycled, hafter⟩ := hruns.shows hshows' htask'
    rw [← hfields] at hschedule ⊢
    cases hdue : dueOccurrence library tick.now task' file'.cronFields with
    | none =>
      rw [hdue] at hrecycled
      rw [recycledFile, hdue] at hafter
      rw [List.filter_cons_of_neg (by simpa using hrecycled)]
      exact ih hafter hschedule hrest hkeeps
    | some due =>
      have hdueAt := dueAt_of_dueOccurrence hexpr henum hschedule (by rw [hdue]; rfl)
      rw [hdue] at hrecycled
      rw [recycledFile, hdue] at hafter
      rw [List.filter_cons_of_pos (by simpa using hrecycled), List.map_cons]
      have htail := ih hafter (by rw [cronFields_recycle]; exact hschedule) hrest hkeeps
      rw [cronFields_recycle] at htail
      simp only [Option.bind_some, hkeepsNow.1, Option.toList_some, List.singleton_append] at htail
      unfold DueAt at hdueAt
      cases hlastRun : file'.cronFields.cronLastRun.bind library.parse with
      | none => exact htail
      | some lastRun =>
        rw [hlastRun, Option.getD_some] at hdueAt
        exact List.isChain_cons_cons.mpr ⟨hdueAt, htail⟩

theorem opensOnce (hexpr : library.schedule expr = some schedule)
    (henum : Enumerates schedule occurs) :
    OpensOnce library expr schedule occurs taskId path := by
  intro start file ticks hshows hschedule hrun hkeeps
  exact (List.isChain_append.mp (isChain_recycled hexpr henum hshows hschedule hrun hkeeps)).2.1

end

/-- **Recurrence.** A done task that is due is opened for the next occurrence, by the first tick
after the occurrence that makes it due, and no occurrence opens it twice. -/
theorem recycleCronTasks_opens (library : CronLibrary) (expr : String)
    (schedule : Int → Option Int) (occurs : Int → Prop) (taskId : Nat) (path : String)
    (hexpr : library.schedule expr = some schedule) (henum : Enumerates schedule occurs) :
    OpensForOccurrences library expr schedule occurs taskId path ∧
      OpensOnce library expr schedule occurs taskId path :=
  ⟨opensForOccurrences hexpr henum, opensOnce hexpr henum⟩

/-! ### Every hour -/

def hourNanos : Int := 60 * 60 * 10 ^ 9

/-- The next full hour. -/
def nextHour (instant : Int) : Option Int := some ((instant / hourNanos + 1) * hourNanos)

theorem enumerates_nextHour : Enumerates nextHour fun occurrence => hourNanos ∣ occurrence where
  isLeast := by
    rintro instant next hnext
    obtain rfl := Option.some.inj hnext
    refine ⟨⟨⟨_, Int.mul_comm _ _⟩, Int.lt_ediv_add_one_mul_self instant (by decide)⟩,
      ?_⟩
    rintro _ ⟨⟨hours, rfl⟩, hlater⟩
    have hlt : instant / hourNanos < hours := Int.ediv_lt_of_lt_mul (by decide)
      (by rw [Int.mul_comm]; exact hlater)
    rw [Int.mul_comm hourNanos hours]
    exact Int.mul_le_mul_of_nonneg_right hlt (by decide)
  eq_none := nofun

/-- A few instants of one morning, and their time stamps. -/
def morning : List (Int × String) :=
  [ (1774339220 * 10 ^ 9, "2026-03-24T08:00:20+00:00"),
    (1774342770 * 10 ^ 9, "2026-03-24T08:59:30+00:00"),
    (1774342800 * 10 ^ 9, "2026-03-24T09:00:00+00:00"),
    (1774342820 * 10 ^ 9, "2026-03-24T09:00:20+00:00"),
    (1774346400 * 10 ^ 9, "2026-03-24T10:00:00+00:00"),
    (1774346420 * 10 ^ 9, "2026-03-24T10:00:20+00:00"),
    (1774350000 * 10 ^ 9, "2026-03-24T11:00:00+00:00") ]

def hourlyLibrary : CronLibrary where
  schedule expr := if expr = "0 0 * * * *" then some nextHour else none
  parse value := (morning.find? fun entry => entry.2 = value).map Prod.fst
  format instant := ((morning.find? fun entry => entry.1 = instant).map Prod.snd).getD ""

/-- A task that was opened at eight, and is done. -/
def reportFile : TaskFile where
  name := "001-report.md"
  fenceNewline := true
  frontmatter := .ofList [(.id, .number 1), (.title, .string "Report"), (.status, .string "done"),
    (.cronSchedule, .string "0 0 * * * *"), (.cronLastRun, .string "2026-03-24T08:00:20+00:00")]
  body := ""

def reportDisk : Disk where
  board := { files := [reportFile], nodup := by simp }
  tasksDir := "tasks"
  stamp := ""
  faults := fun _ => false

/-- The tick at this instant. -/
def CronTick.on (library : CronLibrary) (disk : Disk) (now : Int) : CronTick :=
  match recycleCronTasks library now disk with
  | .ok recycled after => { now, before := disk, recycled, after }
  | .error _ after => { now, before := disk, recycled := [], after }

theorem CronTick.before_on (library : CronLibrary) (disk : Disk) (now : Int) :
    (CronTick.on library disk now).before = disk := by
  unfold CronTick.on
  split <;> rfl

theorem CronTick.runs_on {library : CronLibrary} {disk : Disk} {now : Int}
    (h : After (recycleCronTasks library now) disk (fun _ _ => True) (fun _ _ => False)) :
    (CronTick.on library disk now).Runs library := by
  obtain ⟨recycled, after, hrun, -⟩ := returns_of_after h
  simp only [CronTick.on, CronTick.Runs, hrun]

/-- The task of the file. -/
def reportTask : Task := reportFile.task.get (by decide +kernel)

theorem doneCron_report :
    DoneCron "0 0 * * * *" 1 "001-report.md" reportDisk reportFile reportTask where
  shows :=
    { sole :=
        { findPath := by decide +kernel
          only := by decide +kernel
          listed := by decide +kernel }
      find? := rfl }
  reads := (Option.some_get _).symm
  status := by decide +kernel
  kept := by decide +kernel
  schedule := by decide +kernel

/-- The ticks before and after nine, and that after ten. -/
def beforeNine : CronTick := .on hourlyLibrary reportDisk (1774342770 * 10 ^ 9)

def afterNine : CronTick := .on hourlyLibrary beforeNine.after (1774342820 * 10 ^ 9)

def afterTen : CronTick := .on hourlyLibrary afterNine.after (1774346420 * 10 ^ 9)

theorem leavesAlone_on (taskId : Nat) (path : String) (disk : Disk) (now : Int) :
    LeavesAlone taskId path disk (CronTick.on hourlyLibrary disk now).before := by
  rw [CronTick.before_on]
  exact fun _ => id

/-- Nothing happens to the task but these ticks. -/
theorem cronRun_morning : CronRun hourlyLibrary (LeavesAlone 1 "001-report.md") reportDisk
    [beforeNine, afterNine, afterTen] :=
  ⟨leavesAlone_on _ _ _ _, CronTick.runs_on (by decide +kernel), by decide +kernel,
    leavesAlone_on _ _ _ _, CronTick.runs_on (by decide +kernel), by decide +kernel,
    leavesAlone_on _ _ _ _, CronTick.runs_on (by decide +kernel), by decide +kernel, trivial⟩

theorem cronRun_nine : CronRun hourlyLibrary (LeavesAlone 1 "001-report.md") reportDisk
    [beforeNine, afterNine] :=
  ⟨leavesAlone_on _ _ _ _, CronTick.runs_on (by decide +kernel), by decide +kernel,
    leavesAlone_on _ _ _ _, CronTick.runs_on (by decide +kernel), by decide +kernel, trivial⟩

/-- What it would be for a task to be ready at the first tick after each occurrence. -/
def ReadyAtOccurrences (library : CronLibrary) (expr : String) (schedule : Int → Option Int)
    (occurs : Int → Prop) (taskId : Nat) (path : String) : Prop :=
  ∀ start file task earlier last, DoneCron expr taskId path start file task →
    CronRun library (LeavesAlone taskId path) start (earlier ++ [last]) →
    (∀ tick ∈ earlier ++ [last], library.Keeps schedule tick.now) →
    ∀ occurrence, occurs occurrence → (∀ tick ∈ earlier, tick.now < occurrence) →
      occurrence ≤ last.now →
    ∃ task', last.after.board.taskAt path = some task' ∧ task'.status = "todo" ∧
      task'.claimedBy = none ∧ task'.blocked = none ∧
        task'.isScheduleBlocked (library.calendar last.now) = false

/-- The tick after ten finds the task open and ready, since the one after nine has opened it. -/
theorem opens_report : ∃ task', afterTen.after.board.taskAt "001-report.md" = some task' ∧
    Reopened reportFile task' ∧
      (task'.isScheduleBlocked (hourlyLibrary.calendar afterTen.now) = true ↔
        (∀ tick ∈ [beforeNine, afterNine],
          ¬ DueAt hourlyLibrary (hourNanos ∣ ·) reportFile.cronFields tick.now) ∧
            ∃ later, hourNanos ∣ later ∧ afterTen.now < later) :=
  (recycleCronTasks_opens hourlyLibrary "0 0 * * * *" nextHour (hourNanos ∣ ·) 1 "001-report.md" rfl
    enumerates_nextHour).1 reportDisk reportFile reportTask [beforeNine, afterNine] afterTen
    doneCron_report cronRun_morning (by decide +kernel) (1774346400 * 10 ^ 9) (by decide +kernel)
    (by decide +kernel) (by decide +kernel)
    ⟨afterNine, by simp, 1774342800 * 10 ^ 9, by decide +kernel, by decide +kernel,
      by decide +kernel⟩

/-- The tick after nine opens the task for ten. -/
theorem not_readyAtOccurrences_nine : ¬ ∀ library expr schedule occurs taskId path,
    library.schedule expr = some schedule → Enumerates schedule occurs →
      ReadyAtOccurrences library expr schedule occurs taskId path := by
  intro h
  obtain ⟨task', htask', -, -, -, hfree⟩ := h hourlyLibrary "0 0 * * * *" nextHour (hourNanos ∣ ·) 1
    "001-report.md" rfl enumerates_nextHour reportDisk reportFile reportTask [beforeNine] afterNine
    doneCron_report cronRun_nine (by decide +kernel) (1774342800 * 10 ^ 9) (by decide +kernel)
    (by decide +kernel) (by decide +kernel)
  have hwaits : (afterNine.after.board.taskAt "001-report.md").map
      (fun task => task.isScheduleBlocked (hourlyLibrary.calendar afterNine.now)) = some true := by
    decide +kernel
  rw [htask', Option.map_some, hfree] at hwaits
  cases hwaits

end Batty
