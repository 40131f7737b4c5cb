import Batty.Resolver

/-!
# Explaining dispatch

Two functions explain what the resolver decides. `dispatchBlockingReason` says why a task cannot be
dispatched, and goes by the statuses of the tasks where the resolver goes by the ids of the finished
ones; `selectDispatchTask` picks the task whose routing is shown.

* `isDispatchableTask_iff_blockingReason`: there is no reason exactly for the tasks that the resolver
  lets through.
* `explainsDispatch_iff`: the task that is picked is the one the resolver would come to first,
  except for the tasks that the two read differently. The pick looks at no dependency in a body and
  lets missing ones pass; it knows neither `runnable` tasks nor those due for another verification.
-/

namespace Batty

/-! ### Why a task is not dispatched -/

/-- The status of a dependency, as it is shown. -/
def dependencyStatus (tasks : List Task) (depId : Nat) : String :=
  (taskStatusById tasks depId).getD "missing"

/-- What holds up a task that nobody has, if anything does. -/
def heldUpReason (board : Board) (calendar : Calendar) (metadata : ResolverMetadata) (task : Task) :
    Option String :=
  let time := task.scheduledFor.getD "unknown"
  let scheduled := if task.isScheduleBlocked calendar then some s!"scheduled for {time}" else none
  let bodyDependency := match parseBodyDependencyIds task.description with
    | none => none
    | some [] => some "body dependency reference"
    | some ids => (ids.find? fun depId =>
        !((taskStatusById board.tasks depId).map depStatusSatisfied).getD false).map fun depId =>
          let status := dependencyStatus board.tasks depId
          s!"unmet body dependency #{depId} ({status})"
  let dependency := task.dependsOn.findSome? fun depId =>
    let status := dependencyStatus board.tasks depId
    if depStatusSatisfied status then none else some s!"unmet dependency #{depId} ({status})"
  (((task.blocked.or metadata.blockedOn).or scheduled).or bodyDependency).or dependency

/-- The first reason that holds the task back. -/
def dispatchBlockingReason (board : Board) (calendar : Calendar) (task : Task) : Option String :=
  let metadata := loadWorkflowMetadata board task
  let retryRequired := metadata.verificationRetryRequired
  if depStatusSatisfied task.status then some s!"status {task.status} is not dispatchable"
  else if !(task.status = "todo" || task.status = "backlog" || task.status = "runnable") &&
      !retryRequired then
    some s!"status {task.status} is not dispatchable"
  else
    match task.claimedBy, retryRequired with
    | some owner, false => some (s!"claimed by {owner}; next: release stale claim or normalize " ++
        "matching active work to in-progress")
    | _, _ => heldUpReason board calendar metadata task

section

variable {board : Board} {calendar : Calendar} {task : Task}

theorem depStatusSatisfied_dependencyStatus (tasks : List Task) (depId : Nat) :
    depStatusSatisfied (dependencyStatus tasks depId) =
      ((taskStatusById tasks depId).map depStatusSatisfied).getD false := by
  unfold dependencyStatus
  cases taskStatusById tasks depId <;> rfl

/-- By their statuses the same dependencies are finished as by their ids. -/
theorem satisfied_eq_contains (hunique : (board.tasks.map Task.id).Nodup) (depId : Nat) :
    ((taskStatusById board.tasks depId).map depStatusSatisfied).getD false =
      (doneTaskIds board.tasks).contains depId := by
  rw [Bool.eq_iff_iff, List.contains_iff_mem, mem_doneTaskIds_iff hunique]
  cases (taskStatusById board.tasks depId).map depStatusSatisfied <;> simp

/-- The texts differ, but both chains find something or neither does. -/
theorem heldUpReason_eq_none_iff (hunique : (board.tasks.map Task.id).Nodup)
    {metadata : ResolverMetadata} : heldUpReason board calendar metadata task = none ↔
      blockingReason calendar (doneTaskIds board.tasks) metadata task = none := by
  have hbody : (match parseBodyDependencyIds task.description with
      | none => none
      | some [] => some "body dependency reference"
      | some ids => (ids.find? fun depId => !(doneTaskIds board.tasks).contains depId).map
          fun depId =>
            let status := dependencyStatus board.tasks depId
            s!"unmet body dependency #{depId} ({status})") = none ↔
      ∀ ids, parseBodyDependencyIds task.description = some ids →
        ids ≠ [] ∧ ∀ depId ∈ ids, depId ∈ doneTaskIds board.tasks := by
    rcases parseBodyDependencyIds task.description with _ | (_ | ⟨id, ids⟩) <;> simp
  rw [blockingReason_eq_none_iff]
  simp only [heldUpReason, depStatusSatisfied_dependencyStatus, satisfied_eq_contains hunique,
    Option.or_eq_none_iff, hbody]
  simp [and_assoc]

/-- **No reason is given exactly for the tasks that can be dispatched.** -/
theorem isDispatchableTask_iff_blockingReason (board : Board) (calendar : Calendar)
    (hunique : (board.tasks.map Task.id).Nodup) :
    ∀ task ∈ board.tasks, isDispatchableTask board calendar task = true ↔
      dispatchBlockingReason board calendar task = none := by
  intro task _
  simp only [isDispatchableTask, dispatchBlockingReason, Bool.and_eq_true, Option.isNone_iff_eq_none]
  rw [← heldUpReason_eq_none_iff hunique]
  generalize loadWorkflowMetadata board task = metadata
  -- A task that is finished, has another status or is claimed has a reason of its own.
  cases hdone : depStatusSatisfied task.status with
  | true => simp
  | false =>
    cases hretry : metadata.verificationRetryRequired with
    | true => cases task.claimedBy <;> simp
    | false =>
      cases hopen : (task.status = "todo" || task.status = "backlog" || task.status = "runnable" :
          Bool) with
      | false => simp
      | true => cases task.claimedBy <;> simp

end

/-- A task that waits for one that is not done. -/
theorem isDispatchableTask_iff_blockingReason_waiting :
    ∃ task, (waitingBoard 2).tasks.head? = some task ∧
      (isDispatchableTask (waitingBoard 2) undated task = true ↔
        dispatchBlockingReason (waitingBoard 2) undated task = none) := by
  obtain ⟨task, htask⟩ : ∃ task, (waitingBoard 2).tasks.head? = some task := ⟨_, rfl⟩
  exact ⟨task, htask, isDispatchableTask_iff_blockingReason (waitingBoard 2) undated (by decide)
    task (List.mem_of_mem_head? htask)⟩

/-! ### The task that is picked -/

instance : Std.Total dispatchesBefore where
  total task task' := by
    unfold dispatchesBefore
    omega

instance : IsTrans Task dispatchesBefore where
  trans task task' task'' h h' := by
    unfold dispatchesBefore at *
    omega

/-- What a task must pass to be picked; a dependency that is not on the board does not count. -/
def isSelectable (tasks : List Task) (calendar : Calendar) (task : Task) : Bool :=
  (task.status = "backlog" || task.status = "todo") &&
  task.claimedBy.isNone &&
  task.blocked.isNone &&
  task.blockedOn.isNone &&
  !task.isScheduleBlocked calendar &&
  dependenciesSatisfied tasks task

/-- A task that is asked for is picked as it is. -/
def selectDispatchTask (tasks : List Task) (calendar : Calendar) : Option Nat → Option Task
  | some taskId => tasks.find? fun task => task.id = taskId
  | none => ((tasks.filter (isSelectable tasks calendar)).insertionSort dispatchesBefore).head?

/-- **Explaining the dispatcher**: what is picked is dispatchable and comes before all that is and
that nobody has, and where nothing is picked nothing is dispatchable. -/
structure ExplainsDispatch (board : Board) (calendar : Calendar) : Prop where
  dispatchable : ∀ task, selectDispatchTask board.tasks calendar none = some task →
    isDispatchableTask board calendar task = true
  first : ∀ task, selectDispatchTask board.tasks calendar none = some task →
    ∀ other ∈ board.tasks, isDispatchableTask board calendar other = true →
      other.claimedBy = none → dispatchesBefore task other
  nothing : selectDispatchTask board.tasks calendar none = none →
    ∀ task ∈ board.tasks, isDispatchableTask board calendar task = false

/-- The task comes first among those that can be picked. -/
def Leads (tasks : List Task) (calendar : Calendar) (task : Task) : Prop :=
  ∃ before after, tasks = before ++ task :: after ∧ isSelectable tasks calendar task = true ∧
    (∀ other ∈ before, isSelectable tasks calendar other = true → ¬ dispatchesBefore other task) ∧
    ∀ other ∈ after, isSelectable tasks calendar other = true → dispatchesBefore task other

/-- All that the task depends on, in its frontmatter and its body, is finished. -/
structure DependenciesDone (board : Board) (task : Task) : Prop where
  frontmatter : ∀ depId ∈ task.dependsOn, depId ∈ doneTaskIds board.tasks
  body : ∀ ids, parseBodyDependencyIds task.description = some ids →
    ids ≠ [] ∧ ∀ depId ∈ ids, depId ∈ doneTaskIds board.tasks

/-- The task is held up by nothing, but is not among those that can be picked: it is `runnable`, or
due for another verification, or an id that it depends on is that of two tasks. -/
structure Overlooked (board : Board) (calendar : Calendar) (task : Task) : Prop where
  unheld : blockingReason calendar (doneTaskIds board.tasks) (loadWorkflowMetadata board task) task =
    none
  kind : task.status = "runnable" ∧ task.claimedBy = none ∨
    (loadWorkflowMetadata board task).verificationRetryRequired = true ∧
      depStatusSatisfied task.status = false ∧
      ¬ ((task.status = "backlog" ∨ task.status = "todo") ∧ task.claimedBy = none) ∨
    (task.status = "backlog" ∨ task.status = "todo") ∧ task.claimedBy = none ∧
      dependenciesSatisfied board.tasks task = false

/-- The two readings agree on the task that is picked, and the tasks that are overlooked come after
it. -/
structure ReadAlike (board : Board) (calendar : Calendar) : Prop where
  done : ∀ task, Leads board.tasks calendar task → DependenciesDone board task
  after : ∀ task, Leads board.tasks calendar task → ∀ other ∈ board.tasks,
    Overlooked board calendar other → other.claimedBy = none → dispatchesBefore task other
  nothing : (∀ task ∈ board.tasks, isSelectable board.tasks calendar task = false) →
    ∀ task ∈ board.tasks, ¬ Overlooked board calendar task

section

variable {board : Board} {calendar : Calendar} {task : Task}

theorem selectDispatchTask_eq_some_iff {tasks : List Task} :
    selectDispatchTask tasks calendar none = some task ↔ Leads tasks calendar task := by
  rw [selectDispatchTask, head?_insertionSort_iff, Leads]
  constructor
  · rintro ⟨before, after, hfilter, hbefore, hafter⟩
    obtain ⟨first, rest, rfl, rfl, hrest⟩ := List.filter_eq_append_iff.mp hfilter
    obtain ⟨skipped, last, rfl, hskipped, htask, rfl⟩ := List.filter_eq_cons_iff.mp hrest
    refine ⟨first ++ skipped, last, by simp, htask, fun other hother hselectable => ?_,
      fun other hother hselectable => hafter other (List.mem_filter.mpr ⟨hother, hselectable⟩)⟩
    rcases List.mem_append.mp hother with hother | hother
    · exact hbefore other (List.mem_filter.mpr ⟨hother, hselectable⟩)
    · exact absurd hselectable (hskipped other hother)
  · rintro ⟨before, after, rfl, htask, hbefore, hafter⟩
    refine ⟨_, _, by rw [List.filter_append, List.filter_cons_of_pos htask], ?_, ?_⟩
    · exact fun other hother => hbefore other (List.mem_of_mem_filter hother) (List.of_mem_filter hother)
    · exact fun other hother => hafter other (List.mem_of_mem_filter hother) (List.of_mem_filter hother)

theorem selectDispatchTask_eq_none_iff {tasks : List Task} :
    selectDispatchTask tasks calendar none = none ↔
      ∀ task ∈ tasks, isSelectable tasks calendar task = false := by
  have hnil : ((tasks.filter (isSelectable tasks calendar)).insertionSort dispatchesBefore) = [] ↔
      tasks.filter (isSelectable tasks calendar) = [] := by
    rw [← List.length_eq_zero_iff, List.length_insertionSort, List.length_eq_zero_iff]
  rw [selectDispatchTask, List.head?_eq_none_iff, hnil]
  simp

/-- A task that leads comes before every other that can be picked. -/
theorem Leads.dispatchesBefore {tasks : List Task} (h : Leads tasks calendar task) {other : Task}
    (hmem : other ∈ tasks) (hselectable : isSelectable tasks calendar other = true) :
    dispatchesBefore task other := by
  obtain ⟨before, after, rfl, -, hbefore, hafter⟩ := h
  rcases List.mem_append.mp hmem with hmem | hmem
  · exact (Std.Total.total task other).resolve_right (hbefore other hmem hselectable)
  · rcases List.mem_cons.mp hmem with rfl | hmem
    · exact (Std.Total.total (r := Batty.dispatchesBefore) other other).elim id id
    · exact hafter other hmem hselectable

theorem Leads.mem {tasks : List Task} (h : Leads tasks calendar task) : task ∈ tasks := by
  obtain ⟨before, after, rfl, -⟩ := h
  simp

theorem Leads.isSelectable {tasks : List Task} (h : Leads tasks calendar task) :
    isSelectable tasks calendar task = true := by
  obtain ⟨-, -, -, hselectable, -⟩ := h
  exact hselectable

/-- On the board, a task's metadata name the blocker that its frontmatter names. -/
theorem blockingReason_loadWorkflowMetadata_eq_none_iff (hmem : task ∈ board.tasks) {done : List Nat} :
    blockingReason calendar done (loadWorkflowMetadata board task) task = none ↔
      task.blocked = none ∧ task.blockedOn = none ∧ task.isScheduleBlocked calendar = false ∧
        (∀ ids, parseBodyDependencyIds task.description = some ids →
          ids ≠ [] ∧ ∀ depId ∈ ids, depId ∈ done) ∧
        ∀ depId ∈ task.dependsOn, depId ∈ done := by
  have hblockedOn : task.blocked = none → task.blockedOn = none := by
    intro hblocked
    obtain ⟨file, -, htask⟩ := Board.exists_find?_of_mem hmem
    obtain ⟨blocked, blockReason, -, -, -, hreason⟩ := (Task.parse_eq_some_iff.mp htask).block
    rw [hblocked] at hreason
    exact (Option.or_eq_none_iff.mp hreason.symm).2
  rw [blockingReason_eq_none_iff]
  constructor
  · rintro ⟨hblocked, -, hrest⟩
    exact ⟨hblocked, hblockedOn hblocked, hrest⟩
  · rintro ⟨hblocked, hnone, hrest⟩
    exact ⟨hblocked, blockedOn_loadWorkflowMetadata hmem hnone, hrest⟩

theorem isSelectable_eq_true_iff {tasks : List Task} : isSelectable tasks calendar task = true ↔
    (task.status = "backlog" ∨ task.status = "todo") ∧ task.claimedBy = none ∧
      task.blocked = none ∧ task.blockedOn = none ∧ task.isScheduleBlocked calendar = false ∧
      dependenciesSatisfied tasks task = true := by
  simp [isSelectable, and_assoc]

theorem isDispatchableTask_eq_true_iff : isDispatchableTask board calendar task = true ↔
    depStatusSatisfied task.status = false ∧
      (((task.status = "backlog" ∨ task.status = "todo") ∨ task.status = "runnable") ∨
        (loadWorkflowMetadata board task).verificationRetryRequired = true) ∧
      (task.claimedBy = none ∨
        (loadWorkflowMetadata board task).verificationRetryRequired = true) ∧
      blockingReason calendar (doneTaskIds board.tasks) (loadWorkflowMetadata board task) task =
        none := by
  simp [isDispatchableTask, and_assoc, or_comm (a := task.status = "todo")]

theorem dependenciesDone_of_isDispatchableTask (hmem : task ∈ board.tasks)
    (h : isDispatchableTask board calendar task = true) : DependenciesDone board task := by
  obtain ⟨-, -, -, hunheld⟩ := isDispatchableTask_eq_true_iff.mp h
  obtain ⟨-, -, -, hbody, hfrontmatter⟩ :=
    (blockingReason_loadWorkflowMetadata_eq_none_iff hmem).mp hunheld
  exact ⟨hfrontmatter, hbody⟩

theorem Overlooked.isDispatchableTask (h : Overlooked board calendar task) :
    isDispatchableTask board calendar task = true := by
  have hopen : task.status = "backlog" ∨ task.status = "todo" ∨ task.status = "runnable" →
      depStatusSatisfied task.status = false := by
    rintro (hstatus | hstatus | hstatus) <;> rw [hstatus] <;> rfl
  rw [isDispatchableTask_eq_true_iff]
  rcases h.kind with ⟨hstatus, hclaimed⟩ | ⟨hretry, hdone, -⟩ | ⟨hstatus, hclaimed, -⟩
  · exact ⟨hopen (.inr (.inr hstatus)), .inl (.inr hstatus), .inl hclaimed, h.unheld⟩
  · exact ⟨hdone, .inr hretry, .inr hretry, h.unheld⟩
  · exact ⟨hopen (hstatus.imp_right .inl), .inl (.inl hstatus), .inl hclaimed, h.unheld⟩

/-- The tasks that the resolver lets through are the overlooked ones, and those that can be picked
and depend on nothing unfinished. -/
theorem isDispatchableTask_iff_overlooked (hmem : task ∈ board.tasks) :
    isDispatchableTask board calendar task = true ↔ Overlooked board calendar task ∨
      isSelectable board.tasks calendar task = true ∧ DependenciesDone board task := by
  constructor
  · intro h
    obtain ⟨hdone, hstatus, hclaimed, hunheld⟩ := isDispatchableTask_eq_true_iff.mp h
    obtain ⟨hblocked, hblockedOn, hscheduled, -⟩ :=
      (blockingReason_loadWorkflowMetadata_eq_none_iff hmem).mp hunheld
    by_cases hopen : (task.status = "backlog" ∨ task.status = "todo") ∧ task.claimedBy = none
    · cases hsatisfied : dependenciesSatisfied board.tasks task with
      | false => exact .inl ⟨hunheld, .inr (.inr ⟨hopen.1, hopen.2, hsatisfied⟩)⟩
      | true =>
        exact .inr ⟨isSelectable_eq_true_iff.mpr
          ⟨hopen.1, hopen.2, hblocked, hblockedOn, hscheduled, hsatisfied⟩,
          dependenciesDone_of_isDispatchableTask hmem h⟩
    · refine .inl ⟨hunheld, ?_⟩
      by_cases hretry : (loadWorkflowMetadata board task).verificationRetryRequired = true
      · exact .inr (.inl ⟨hretry, hdone, hopen⟩)
      · have hclaimed := hclaimed.resolve_right hretry
        have hstatus := hstatus.resolve_right hretry
        exact .inl ⟨hstatus.resolve_left fun hstatus => hopen ⟨hstatus, hclaimed⟩, hclaimed⟩
  · rintro (h | ⟨hselectable, hdone⟩)
    · exact h.isDispatchableTask
    · obtain ⟨hstatus, hclaimed, hblocked, hblockedOn, hscheduled, -⟩ :=
        isSelectable_eq_true_iff.mp hselectable
      refine isDispatchableTask_eq_true_iff.mpr ⟨?_, .inl (.inl hstatus), .inl hclaimed,
        (blockingReason_loadWorkflowMetadata_eq_none_iff hmem).mpr
          ⟨hblocked, hblockedOn, hscheduled, hdone.body, hdone.frontmatter⟩⟩
      rcases hstatus with hstatus | hstatus <;> rw [hstatus] <;> rfl

/-- **The pick explains the resolver exactly where the two read the tasks alike.** -/
theorem explainsDispatch_iff (board : Board) (calendar : Calendar) :
    ExplainsDispatch board calendar ↔ ReadAlike board calendar := by
  constructor
  · intro h
    refine ⟨fun task hleads => ?_, fun task hleads other hmem hother hunclaimed => ?_,
      fun hnone task hmem hoverlooked => ?_⟩
    · exact dependenciesDone_of_isDispatchableTask hleads.mem
        (h.dispatchable task (selectDispatchTask_eq_some_iff.mpr hleads))
    · exact h.first task (selectDispatchTask_eq_some_iff.mpr hleads) other hmem
        hother.isDispatchableTask hunclaimed
    · have hidle := h.nothing (selectDispatchTask_eq_none_iff.mpr hnone) task hmem
      rw [hoverlooked.isDispatchableTask] at hidle
      cases hidle
  · intro h
    refine ⟨fun task hselect => ?_, fun task hselect other hmem hother hunclaimed => ?_,
      fun hselect task hmem => ?_⟩
    · have hleads := selectDispatchTask_eq_some_iff.mp hselect
      exact (isDispatchableTask_iff_overlooked hleads.mem).mpr
        (.inr ⟨hleads.isSelectable, h.done task hleads⟩)
    -- What the resolver dispatches can be picked, or is overlooked by the pick.
    · have hleads := selectDispatchTask_eq_some_iff.mp hselect
      rcases (isDispatchableTask_iff_overlooked hmem).mp hother with hoverlooked | ⟨hselectable, -⟩
      · exact h.after task hleads other hmem hoverlooked hunclaimed
      · exact hleads.dispatchesBefore hmem hselectable
    · have hnone := selectDispatchTask_eq_none_iff.mp hselect
      rw [← Bool.not_eq_true, isDispatchableTask_iff_overlooked hmem]
      rintro (hoverlooked | ⟨hselectable, -⟩)
      · exact h.nothing hnone task hmem hoverlooked
      · rw [hnone task hmem] at hselectable
        cases hselectable

end

/-- A board whose first task waits for the second by a line of its body. -/
def notedBoard : Board where
  files := [{
      name := "001-wait.md"
      fenceNewline := true
      frontmatter := .ofList [(.id, .number 1), (.title, .string "wait"),
        (.status, .string "todo")]
      body := "Blocked on: #2" },
    { name := "002-base.md"
      fenceNewline := true
      frontmatter := .ofList [(.id, .number 2), (.title, .string "base"),
        (.status, .string "in-progress")]
      body := "Base." }]
  nodup := by simp

/-- The waiting task is picked, and the resolver holds it back. -/
theorem not_explainsDispatch : ¬ ∀ board calendar, ExplainsDispatch board calendar := by
  intro h
  have hpick : ∃ task, selectDispatchTask notedBoard.tasks undated none = some task ∧
      isDispatchableTask notedBoard undated task = false := ⟨_, by rfl, by decide⟩
  obtain ⟨task, hselect, hheld⟩ := hpick
  rw [(h notedBoard undated).dispatchable task hselect] at hheld
  cases hheld

end Batty
