import Batty.Board.Board
import Batty.Dispatch.Cues

/-!
# What can be dispatched

`availableDispatchTasks` is the dispatcher's filter chain over the board: which tasks could go
to an engineer now, in the order they would go. It is the list that candidates are chosen from.
-/

namespace Batty

/-- What the schedule of a task is compared with: the reading of time stamps and the time. -/
structure Calendar where
  instantOf : String → Option Int
  now : Int

def Task.isScheduleBlocked (task : Task) (calendar : Calendar) : Bool :=
  match task.scheduledFor.bind calendar.instantOf with
  | some instant => calendar.now < instant
  | none => false

/-- What a member of the team is. -/
inductive RoleType where
  | user
  | architect
  | manager
  | engineer
deriving DecidableEq

/-- A member of the team. -/
structure MemberInstance where
  name : String
  roleName : String
  roleType : RoleType
  reportsTo : Option String
  useWorktrees : Bool

/-- The members whose role is not that of an engineer. -/
def nonEngineerMemberNames (members : List MemberInstance) : List String :=
  (members.filter fun member => member.roleType ≠ .engineer).map MemberInstance.name

def dispatchPriorityRank : String → Nat
  | "critical" => 0
  | "high" => 1
  | "medium" => 2
  | "low" => 3
  | _ => 4

/-- Dispatch order: by priority, then by id. -/
def dispatchesBefore (task task' : Task) : Prop :=
  dispatchPriorityRank task.priority < dispatchPriorityRank task'.priority ∨
    dispatchPriorityRank task.priority = dispatchPriorityRank task'.priority ∧ task.id ≤ task'.id

instance : DecidableRel dispatchesBefore := fun _ _ =>
  inferInstanceAs (Decidable (_ ∨ _ ∧ _))

/-- The status of a task by its id; of two tasks with one id the later one counts. -/
def taskStatusById (tasks : List Task) (taskId : Nat) : Option String :=
  (tasks.reverse.find? fun task => task.id = taskId).map Task.status

theorem taskStatusById_of_mem {tasks : List Task} (hunique : (tasks.map Task.id).Nodup)
    {task : Task} (hmem : task ∈ tasks) : taskStatusById tasks task.id = some task.status := by
  have hreverse : (tasks.reverse.map Task.id).Nodup := by
    rw [List.map_reverse]
    exact List.nodup_reverse.mpr hunique
  rw [taskStatusById, find?_of_nodup_map hreverse (List.mem_reverse.mpr hmem), Option.map_some]

theorem exists_of_taskStatusById {tasks : List Task} {taskId : Nat} {status : String}
    (h : taskStatusById tasks taskId = some status) :
    ∃ task ∈ tasks, task.id = taskId ∧ task.status = status := by
  obtain ⟨task, hfind, rfl⟩ := Option.map_eq_some_iff.mp h
  exact ⟨task, List.mem_reverse.mp (List.mem_of_find?_eq_some hfind),
    by simpa using List.find?_some hfind, rfl⟩

theorem taskStatusById_eq_none_iff {tasks : List Task} {taskId : Nat} :
    taskStatusById tasks taskId = none ↔ taskId ∉ tasks.map Task.id := by
  simp [taskStatusById]

/-- An edit that keeps the ids leaves every task where it is looked up. -/
theorem taskStatusById_map_of_ids {tasks : List Task} {g : Task → Task}
    (h : ∀ task ∈ tasks, (g task).id = task.id) (taskId : Nat) :
    taskStatusById (tasks.map g) taskId =
      (tasks.reverse.find? fun task => task.id = taskId).map fun task => (g task).status := by
  rw [taskStatusById, ← List.map_reverse, List.find?_map, Option.map_map]
  have hfind : tasks.reverse.find? ((fun task => decide (task.id = taskId)) ∘ g) =
      tasks.reverse.find? fun task => task.id = taskId := by
    refine find?_congr fun task hmem => ?_
    rw [Function.comp_apply, h task (List.mem_reverse.mp hmem)]
  rw [hfind]
  rfl

/-- Statuses are looked up by id, so that edits which keep both do not show. -/
theorem taskStatusById_map {tasks : List Task} {g : Task → Task}
    (h : ∀ task ∈ tasks, (g task).id = task.id ∧ (g task).status = task.status) (taskId : Nat) :
    taskStatusById (tasks.map g) taskId = taskStatusById tasks taskId := by
  rw [taskStatusById_map_of_ids (fun task hmem => (h task hmem).1), taskStatusById]
  refine Option.map_congr fun task hmem => ?_
  exact (h task (List.mem_reverse.mp (List.mem_of_find?_eq_some hmem))).2

/-- What an edit does to unfinished tasks does not show in a finished one. -/
theorem map_depStatusSatisfied_map {tasks : List Task} {g : Task → Task}
    (hid : ∀ task ∈ tasks, (g task).id = task.id)
    (hfinished : ∀ task ∈ tasks, depStatusSatisfied task.status = true →
      (g task).status = task.status) {taskId : Nat}
    (h : (taskStatusById tasks taskId).map depStatusSatisfied ≠ some false) :
    (taskStatusById (tasks.map g) taskId).map depStatusSatisfied =
      (taskStatusById tasks taskId).map depStatusSatisfied := by
  rw [taskStatusById_map_of_ids hid]
  rw [taskStatusById] at h ⊢
  cases hfind : tasks.reverse.find? fun task => task.id = taskId with
  | none => rfl
  | some task =>
    have hmem := List.mem_reverse.mp (List.mem_of_find?_eq_some hfind)
    rw [hfind] at h
    have hsatisfied : depStatusSatisfied task.status = true := by simpa using h
    simp [hfinished task hmem hsatisfied]

/-- The frontmatter dependencies hold nothing up: each is finished, or not on the board. -/
def dependenciesSatisfied (tasks : List Task) (task : Task) : Bool :=
  task.dependsOn.all fun depId => ((taskStatusById tasks depId).map depStatusSatisfied).getD true

/-- The body names no dependency, or it names some and each is on the board and finished. -/
def bodyDependenciesSatisfied (tasks : List Task) (task : Task) : Bool :=
  match parseBodyDependencyIds task.description with
  | none => true
  | some blockedIds =>
    !blockedIds.isEmpty && blockedIds.all fun depId =>
      ((taskStatusById tasks depId).map depStatusSatisfied).getD false

def eqIgnoreAsciiCase (text text' : String) : Bool :=
  Text.toAsciiLowercase text.toList = Text.toAsciiLowercase text'.toList

def taskHasExcludedTag (task : Task) (excludedTags : List String) : Bool :=
  task.tags.any fun tag => excludedTags.any fun excluded => eqIgnoreAsciiCase excluded tag

/-- The task is meant for a member who is no engineer: by its assignee, or without one by the
owner its body names. -/
def belongsToNonEngineer (nonEngineers : List String) (task : Task) : Bool :=
  match task.assignee with
  | some name => nonEngineers.contains name
  | none => ((parseBodyOwnerRole task.description).map nonEngineers.contains).getD false

/-- The ids and names that the chain filters by. -/
structure DispatchFilter where
  unavailableTaskIds : List Nat
  excludedTags : List String
  nonEngineers : List String
  rescuedTaskIds : List Nat
  verificationRetryTaskIds : List Nat

/-- Whether a task may be given to someone. -/
def isAvailable (tasks : List Task) (calendar : Calendar) (filter : DispatchFilter)
    (task : Task) : Bool :=
  (task.status = "backlog" || task.status = "todo" ||
    filter.verificationRetryTaskIds.contains task.id) &&
  (task.claimedBy.isNone || filter.verificationRetryTaskIds.contains task.id) &&
  task.blocked.isNone &&
  task.blockedOn.isNone &&
  !task.isScheduleBlocked calendar &&
  !filter.unavailableTaskIds.contains task.id &&
  !taskHasExcludedTag task filter.excludedTags &&
  !filter.rescuedTaskIds.contains task.id &&
  !belongsToNonEngineer filter.nonEngineers task &&
  dependenciesSatisfied tasks task &&
  bodyDependenciesSatisfied tasks task

/-- The tasks that could be dispatched now, in dispatch order. -/
def availableDispatchTasks (tasks : List Task) (calendar : Calendar) (filter : DispatchFilter) :
    List Task :=
  (tasks.filter (isAvailable tasks calendar filter)).insertionSort dispatchesBefore

theorem mem_availableDispatchTasks {tasks : List Task} {calendar : Calendar}
    {filter : DispatchFilter} {task : Task} :
    task ∈ availableDispatchTasks tasks calendar filter ↔
      task ∈ tasks ∧ isAvailable tasks calendar filter task = true := by
  rw [availableDispatchTasks, List.mem_insertionSort, List.mem_filter]

end Batty
