import Batty.Dispatch.Available

/-!
# The resolver

The resolver answers, apart from the dispatcher, which tasks could be worked on: interventions
ask it whether idle engineers have work waiting. `engineerDispatchableTasks` is meant to mirror
the dispatcher's own filters.

**Where it does not.** The two chains treat two inputs differently, and no others
(`available_eq_engineerDispatchable_iff`): a frontmatter dependency that is not on the board
holds a task up for the resolver and not for the dispatcher, and the status `runnable` is
known to the resolver alone.
-/

namespace Batty

/-- The resolver's own view of the frontmatter. -/
structure ResolverMetadata where
  blockedOn : Option String := none
  testsPassed : Option Bool := none
  outcome : Option String := none
  artifacts : List String := []

def ResolverMetadata.parse (mapping : Mapping) : Option ResolverMetadata := do
  let _ ← mapping.optional .executionOwner Value.asString
  let blockedOn ← mapping.optional .blockedOn Value.asString
  let _ ← mapping.optional .reviewOwner Value.asString
  let testsPassed ← mapping.optional .testsPassed Value.asBool
  let outcome ← mapping.optional .outcome Value.asString
  let artifacts ← mapping.orDefault .artifacts (Value.asVec Value.asString) []
  pure { blockedOn, testsPassed, outcome, artifacts }

/-- The metadata of a task. A file that is gone or whose opening fence does not end its line has
none, and metadata that does not decode counts as empty. -/
def loadWorkflowMetadata (board : Board) (task : Task) : ResolverMetadata :=
  match board.find? task.sourcePath with
  | none => {}
  | some file =>
    if file.fence then (ResolverMetadata.parse file.mapping).getD {} else {}

def ResolverMetadata.verificationRetryRequired (metadata : ResolverMetadata) : Bool :=
  metadata.testsPassed = some false && metadata.outcome = some "verification_retry_required" &&
    !metadata.artifacts.isEmpty

/-- The ids of the finished tasks. -/
def doneTaskIds (tasks : List Task) : List Nat :=
  (tasks.filter fun task => depStatusSatisfied task.status).map Task.id

/-- Why a task cannot be worked on now, if it cannot. -/
def blockingReason (calendar : Calendar) (done : List Nat) (metadata : ResolverMetadata)
    (task : Task) : Option String :=
  let time := task.scheduledFor.getD "unknown"
  let scheduled := if task.isScheduleBlocked calendar then some s!"scheduled for {time}" else none
  let bodyDependency := match parseBodyDependencyIds task.description with
    | none => none
    | some [] => some "body dependency reference"
    | some ids => (ids.find? fun depId => !done.contains depId).map fun depId =>
        s!"unmet body dependency #{depId}"
  let dependency := (task.dependsOn.find? fun depId => !done.contains depId).map fun depId =>
    s!"unmet dependency #{depId}"
  (((task.blocked.or metadata.blockedOn).or scheduled).or bodyDependency).or dependency

/-- Whether the resolver lets the task be given out. -/
def isDispatchableTask (board : Board) (calendar : Calendar) (task : Task) : Bool :=
  let metadata := loadWorkflowMetadata board task
  let retryRequired := metadata.verificationRetryRequired
  !depStatusSatisfied task.status &&
  (task.status = "todo" || task.status = "backlog" || task.status = "runnable" ||
    retryRequired) &&
  (task.claimedBy.isNone || retryRequired) &&
  (blockingReason calendar (doneTaskIds board.tasks) metadata task).isNone

def dispatchableTasks (board : Board) (calendar : Calendar) : List Task :=
  board.tasks.filter (isDispatchableTask board calendar)

def isEngineerDispatchable (nonEngineers : List String) (task : Task) : Bool :=
  match task.assignee with
  | some assignee => !nonEngineers.contains assignee
  | none =>
    match parseBodyOwnerRole task.description with
    | some owner => !nonEngineers.contains owner
    | none => true

/-- The tasks an engineer could take, in dispatch order. -/
def engineerDispatchableTasks (board : Board) (calendar : Calendar)
    (members : List MemberInstance) : List Task :=
  ((dispatchableTasks board calendar).filter
    (isEngineerDispatchable (nonEngineerMemberNames members))).insertionSort dispatchesBefore

/-! ### The two chains compared -/

/-- A board on which none of the dispatcher's further reasons to hold a task back applies: ids
are unique, and no task is queued, rescued, excluded by a tag, or due for a verification
retry. -/
structure PlainBoard (board : Board) (members : List MemberInstance) (filter : DispatchFilter) :
    Prop where
  uniqueIds : (board.tasks.map Task.id).Nodup
  nonEngineers : filter.nonEngineers = nonEngineerMemberNames members
  notQueued : ∀ task ∈ board.tasks, task.id ∉ filter.unavailableTaskIds
  notExcluded : ∀ task ∈ board.tasks, taskHasExcludedTag task filter.excludedTags = false
  notRescued : ∀ task ∈ board.tasks, task.id ∉ filter.rescuedTaskIds
  notRetryId : ∀ task ∈ board.tasks, task.id ∉ filter.verificationRetryTaskIds
  notRetry : ∀ task ∈ board.tasks,
    (loadWorkflowMetadata board task).verificationRetryRequired = false

/-- The filters the two chains share: nobody has the task, nothing blocks it, it is due, it is
an engineer's, and every dependency that is on the board is finished. -/
structure Takeable (tasks : List Task) (calendar : Calendar) (nonEngineers : List String)
    (task : Task) : Prop where
  claimedBy : task.claimedBy = none
  blocked : task.blocked = none
  blockedOn : task.blockedOn = none
  due : task.isScheduleBlocked calendar = false
  engineers : belongsToNonEngineer nonEngineers task = false
  dependencies : dependenciesSatisfied tasks task = true
  bodyDependencies : bodyDependenciesSatisfied tasks task = true

/-- Every frontmatter dependency of the task is on the board. -/
def DependenciesPresent (tasks : List Task) (task : Task) : Prop :=
  ∀ depId ∈ task.dependsOn, depId ∈ tasks.map Task.id

section

variable {board : Board} {members : List MemberInstance} {filter : DispatchFilter}
  {calendar : Calendar} {task : Task}

theorem isAvailable_iff (h : PlainBoard board members filter) (hmem : task ∈ board.tasks) :
    isAvailable board.tasks calendar filter task = true ↔
      (task.status = "backlog" ∨ task.status = "todo") ∧
        Takeable board.tasks calendar (nonEngineerMemberNames members) task := by
  have hqueued := h.notQueued task hmem
  have hexcluded := h.notExcluded task hmem
  have hrescued := h.notRescued task hmem
  have hretry := h.notRetryId task hmem
  simp only [isAvailable, h.nonEngineers, List.contains_eq_mem, hqueued, hexcluded, hrescued,
    hretry, Bool.and_eq_true, Bool.or_eq_true, decide_eq_true_eq, Option.isNone_iff_eq_none,
    Bool.not_eq_true', decide_false, Bool.or_false, Bool.not_false, and_true]
  constructor
  · rintro ⟨⟨⟨⟨⟨⟨⟨hstatus, hclaimed⟩, hblocked⟩, hblockedOn⟩, hdue⟩, howner⟩, hdeps⟩, hbody⟩
    exact ⟨hstatus, hclaimed, hblocked, hblockedOn, hdue, howner, hdeps, hbody⟩
  · rintro ⟨hstatus, htakeable⟩
    exact ⟨⟨⟨⟨⟨⟨⟨hstatus, htakeable.claimedBy⟩, htakeable.blocked⟩, htakeable.blockedOn⟩,
      htakeable.due⟩, htakeable.engineers⟩, htakeable.dependencies⟩, htakeable.bodyDependencies⟩

theorem blockingReason_eq_none_iff {done : List Nat} {metadata : ResolverMetadata} :
    blockingReason calendar done metadata task = none ↔
      task.blocked = none ∧ metadata.blockedOn = none ∧ task.isScheduleBlocked calendar = false ∧
        (∀ ids, parseBodyDependencyIds task.description = some ids →
          ids ≠ [] ∧ ∀ depId ∈ ids, depId ∈ done) ∧
        ∀ depId ∈ task.dependsOn, depId ∈ done := by
  have hbody : (match parseBodyDependencyIds task.description with
      | none => none
      | some [] => some "body dependency reference"
      | some ids => (ids.find? fun depId => !done.contains depId).map fun depId =>
          s!"unmet body dependency #{depId}") = none ↔
      ∀ ids, parseBodyDependencyIds task.description = some ids →
        ids ≠ [] ∧ ∀ depId ∈ ids, depId ∈ done := by
    rcases parseBodyDependencyIds task.description with _ | (_ | ⟨id, ids⟩) <;> simp
  simp only [blockingReason, Option.or_eq_none_iff, hbody]
  simp [and_assoc]

theorem ResolverMetadata.blockedOn_of_parse {mapping : Mapping} {metadata : ResolverMetadata}
    (h : ResolverMetadata.parse mapping = some metadata) :
    mapping.optional .blockedOn Value.asString = some metadata.blockedOn := by
  simp only [parse, Option.bind_eq_bind, Option.bind_eq_some_iff, Option.pure_def,
    Option.some.injEq] at h
  obtain ⟨-, -, blockedOn, hblockedOn, -, -, -, -, -, -, -, -, rfl⟩ := h
  exact hblockedOn

/-- A task without a blocker in its frontmatter has none in its metadata. -/
theorem blockedOn_loadWorkflowMetadata (hmem : task ∈ board.tasks) (h : task.blockedOn = none) :
    (loadWorkflowMetadata board task).blockedOn = none := by
  obtain ⟨file, hfind, htask⟩ := Board.exists_find?_of_mem hmem
  obtain ⟨-, -, -, -, hblockedOn, -⟩ := (Task.parse_eq_some_iff.mp htask).block
  simp only [loadWorkflowMetadata, hfind]
  split
  · cases hparse : ResolverMetadata.parse file.mapping with
    | none => rfl
    | some metadata =>
      have hmetadata := ResolverMetadata.blockedOn_of_parse hparse
      rw [hblockedOn, h, Option.some.injEq] at hmetadata
      exact hmetadata.symm
  · rfl

/-- With unique ids, being done is being found done. -/
theorem mem_doneTaskIds_iff (hunique : (board.tasks.map Task.id).Nodup) {taskId : Nat} :
    taskId ∈ doneTaskIds board.tasks ↔
      (taskStatusById board.tasks taskId).map depStatusSatisfied = some true := by
  simp only [doneTaskIds, List.mem_map, List.mem_filter]
  constructor
  · rintro ⟨task, ⟨hmem, hdone⟩, rfl⟩
    rw [taskStatusById_of_mem hunique hmem, Option.map_some, hdone]
  · intro h
    obtain ⟨status, hstatus, hdone⟩ := Option.map_eq_some_iff.mp h
    obtain ⟨task, hmem, rfl, rfl⟩ := exists_of_taskStatusById hstatus
    exact ⟨task, ⟨hmem, hdone⟩, rfl⟩

/-- The dispatcher's reading of the frontmatter dependencies is the resolver's, up to those that
are not on the board. -/
theorem dependencies_subset_done_iff (hunique : (board.tasks.map Task.id).Nodup) :
    (∀ depId ∈ task.dependsOn, depId ∈ doneTaskIds board.tasks) ↔
      dependenciesSatisfied board.tasks task = true ∧ DependenciesPresent board.tasks task := by
  rw [dependenciesSatisfied, List.all_eq_true, DependenciesPresent, ← forall₂_and]
  refine forall₂_congr fun depId _ => ?_
  rw [mem_doneTaskIds_iff hunique]
  cases hstatus : taskStatusById board.tasks depId with
  | none => simp [taskStatusById_eq_none_iff.mp hstatus]
  | some status =>
    obtain ⟨dependency, hmem, rfl, -⟩ := exists_of_taskStatusById hstatus
    simp [List.mem_map_of_mem hmem]

/-- For the dependencies in the body the two readings are the same. -/
theorem bodyDependencies_subset_done_iff (hunique : (board.tasks.map Task.id).Nodup) :
    (∀ ids, parseBodyDependencyIds task.description = some ids →
        ids ≠ [] ∧ ∀ depId ∈ ids, depId ∈ doneTaskIds board.tasks) ↔
      bodyDependenciesSatisfied board.tasks task = true := by
  unfold bodyDependenciesSatisfied
  cases parseBodyDependencyIds task.description with
  | none => simp
  | some ids =>
    simp only [Option.some.injEq, forall_eq', Bool.and_eq_true, List.all_eq_true,
      mem_doneTaskIds_iff hunique, Bool.not_eq_true', List.isEmpty_eq_false_iff, Option.map_eq_some_iff,
      Option.getD_eq_iff]
    simp

theorem isEngineerDispatchable_eq (nonEngineers : List String) :
    isEngineerDispatchable nonEngineers task = !belongsToNonEngineer nonEngineers task := by
  unfold isEngineerDispatchable belongsToNonEngineer
  cases task.assignee with
  | some assignee => rfl
  | none => cases parseBodyOwnerRole task.description <;> rfl

theorem isEngineerDispatchableTask_iff (h : PlainBoard board members filter)
    (hmem : task ∈ board.tasks) :
    (isDispatchableTask board calendar task &&
        isEngineerDispatchable (nonEngineerMemberNames members) task) = true ↔
      (task.status = "todo" ∨ task.status = "backlog" ∨ task.status = "runnable") ∧
        Takeable board.tasks calendar (nonEngineerMemberNames members) task ∧
        DependenciesPresent board.tasks task := by
  have hreason : blockingReason calendar (doneTaskIds board.tasks)
      (loadWorkflowMetadata board task) task = none ↔
      task.blocked = none ∧ (loadWorkflowMetadata board task).blockedOn = none ∧
        task.isScheduleBlocked calendar = false ∧
        bodyDependenciesSatisfied board.tasks task = true ∧
        dependenciesSatisfied board.tasks task = true ∧ DependenciesPresent board.tasks task := by
    rw [blockingReason_eq_none_iff, bodyDependencies_subset_done_iff h.uniqueIds,
      dependencies_subset_done_iff h.uniqueIds]
  simp only [isDispatchableTask, h.notRetry task hmem, isEngineerDispatchable_eq, Bool.or_false,
    Bool.and_eq_true, Bool.or_eq_true, Bool.not_eq_true', decide_eq_true_eq,
    Option.isNone_iff_eq_none, hreason]
  constructor
  · rintro ⟨⟨⟨⟨-, hstatus⟩, hclaimed⟩, hblocked, -, hdue, hbody, hdeps, hpresent⟩, howner⟩
    have hblockedOn : task.blockedOn = none := by
      obtain ⟨file, -, htask⟩ := Board.exists_find?_of_mem hmem
      obtain ⟨_, _, -, -, -, hmirrored⟩ := (Task.parse_eq_some_iff.mp htask).block
      rw [hblocked] at hmirrored
      exact (Option.or_eq_none_iff.mp hmirrored.symm).2
    exact ⟨or_assoc.mp hstatus,
      ⟨hclaimed, hblocked, hblockedOn, hdue, howner, hdeps, hbody⟩, hpresent⟩
  · rintro ⟨hstatus, htakeable, hpresent⟩
    refine ⟨⟨⟨⟨?_, or_assoc.mpr hstatus⟩, htakeable.claimedBy⟩, htakeable.blocked,
      blockedOn_loadWorkflowMetadata hmem htakeable.blockedOn, htakeable.due,
      htakeable.bodyDependencies, htakeable.dependencies, hpresent⟩, htakeable.engineers⟩
    rcases hstatus with hstatus | hstatus | hstatus <;> simp [hstatus, depStatusSatisfied]

/-- **The two lists.** On a plain board the dispatcher and the resolver list the same tasks in the
same order exactly when, among the tasks that pass the shared filters, those in `todo` and
`backlog` have all their dependencies on the board and those that are `runnable` miss one. -/
theorem available_eq_engineerDispatchable_iff (calendar : Calendar)
    (h : PlainBoard board members filter) :
    availableDispatchTasks board.tasks calendar filter =
        engineerDispatchableTasks board calendar members ↔
      ∀ task ∈ board.tasks,
        Takeable board.tasks calendar (nonEngineerMemberNames members) task →
        (task.status = "todo" ∨ task.status = "backlog" →
          DependenciesPresent board.tasks task) ∧
        (task.status = "runnable" → ¬ DependenciesPresent board.tasks task) := by
  have hresolver : engineerDispatchableTasks board calendar members =
      (board.tasks.filter fun task => isDispatchableTask board calendar task &&
        isEngineerDispatchable (nonEngineerMemberNames members) task).insertionSort
          dispatchesBefore := by
    rw [engineerDispatchableTasks, dispatchableTasks, List.filter_filter]
    simp only [Bool.and_comm]
  rw [hresolver, availableDispatchTasks, insertionSort_filter_eq_iff]
  refine forall₂_congr fun task hmem => ?_
  rw [Bool.eq_iff_iff, isAvailable_iff h hmem, isEngineerDispatchableTask_iff h hmem]
  constructor
  · intro heq htakeable
    refine ⟨fun hstatus => (heq.mp ⟨hstatus.symm, htakeable⟩).2.2, fun hstatus hpresent => ?_⟩
    obtain ⟨hopen, -⟩ := heq.mpr ⟨.inr (.inr hstatus), htakeable, hpresent⟩
    simp [hstatus] at hopen
  · intro hexact
    constructor
    · rintro ⟨hstatus, htakeable⟩
      exact ⟨hstatus.elim (fun h => .inr (.inl h)) .inl, htakeable,
        (hexact htakeable).1 hstatus.symm⟩
    · rintro ⟨hstatus | hstatus | hstatus, htakeable, hpresent⟩
      · exact ⟨.inr hstatus, htakeable⟩
      · exact ⟨.inl hstatus, htakeable⟩
      · exact absurd hpresent ((hexact htakeable).2 hstatus)

end

/-! ### A dependency that is on the board, and one that is not -/

/-- A board with one open task, which depends on the task `depId`, and a finished task `2`. -/
def waitingBoard (depId : Nat) : Board where
  files := [{
      name := "001-wait.md"
      fenceNewline := true
      frontmatter := .ofList [(.id, .number 1), (.title, .string "wait"),
        (.status, .string "todo"), (.dependsOn, .sequence [.number depId])]
      body := "Wait." },
    { name := "002-base.md"
      fenceNewline := true
      frontmatter := .ofList [(.id, .number 2), (.title, .string "base"),
        (.status, .string "done")]
      body := "Base." }]
  nodup := by simp

def undated : Calendar := { instantOf := fun _ => none, now := 0 }

def openFilter : DispatchFilter := ⟨[], [], [], [], []⟩

/-- The dispatcher offers a task whose dependency is not on the board, the resolver does not. -/
theorem available_ne_engineerDispatchable_dangling :
    PlainBoard (waitingBoard 99) [] openFilter ∧
      availableDispatchTasks (waitingBoard 99).tasks undated openFilter ≠
        engineerDispatchableTasks (waitingBoard 99) undated [] := by
  refine ⟨⟨by decide, rfl, by decide, by decide, by decide, by decide, by decide⟩, fun h => ?_⟩
  have hids : (availableDispatchTasks (waitingBoard 99).tasks undated openFilter).map Task.id =
      [1] := by decide
  have hnone : engineerDispatchableTasks (waitingBoard 99) undated [] = [] := by rfl
  rw [h, hnone] at hids
  cases hids

/-- Every dependency of the board is on it. -/
theorem available_eq_engineerDispatchable_waiting :
    availableDispatchTasks (waitingBoard 2).tasks undated openFilter =
      engineerDispatchableTasks (waitingBoard 2) undated [] := by
  have hplain : PlainBoard (waitingBoard 2) [] openFilter :=
    ⟨by decide, rfl, by decide, by decide, by decide, by decide, by decide⟩
  have hpresent : ∀ task ∈ (waitingBoard 2).tasks,
      (∀ depId ∈ task.dependsOn, depId ∈ (waitingBoard 2).tasks.map Task.id) ∧
        task.status ≠ "runnable" := by decide
  refine (available_eq_engineerDispatchable_iff undated hplain).mpr fun task hmem _ => ?_
  obtain ⟨hdeps, hstatus⟩ := hpresent task hmem
  exact ⟨fun _ => hdeps, fun h => absurd h hstatus⟩

end Batty
