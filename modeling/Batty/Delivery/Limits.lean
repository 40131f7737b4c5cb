import Batty.Dispatch.Claims
import Batty.Delivery.Stale

/-!
# The limit at both ends of an assignment

An engineer is given one piece of work at a time. The command line refuses an assignment that the
daemon would turn down later, so that nobody waits for an answer that was known when the message
was written. Both ends count the engineer's claimed tasks in progress and in review; but the
launch counts once more, and there a task that waits to be started counts too, as does one that
the engineer is to review, unless it is the task of the message. By then the message's task is
claimed, so it counts itself if it can be started.

* `AgreesOnLimit`: the command line accepts an assignment exactly if the daemon gets to the launch.
* `agreesOnLimit_iff`: when that is so.
-/

namespace Batty

/-! ### Both ends -/

def wipItemText (task : Task) : String :=
  "#" ++ toString task.id ++ " (" ++ task.status ++ ": " ++ task.title ++ ")"

def wipLimitError (recipient : String) (active : List Task) : String :=
  "Assignment to " ++ recipient ++ " rejected (WIP limit): engineer already has " ++
    toString active.length ++ " active item(s): " ++
    ", ".intercalate (active.map wipItemText) ++
    ". Merge or complete the current work first, then re-assign."

/-- The check of the command line. -/
def assignTaskWipCheck (recipient : String) : DiskAction Unit := do
  let active := wipItems recipient (← loadTasksOrDefault)
  if active ≠ [] then throw (wipLimitError recipient active)

/-- A site where nothing stands in the way of a launch once it is reached. -/
def openSite : LaunchSite where
  usesWorktrees := false
  worktreePath := ""
  launch := .ok ()

/-- The board on a disk where every access works. -/
def Board.onDisk (board : Board) (stamp : String) : Disk where
  board := board
  tasksDir := "tasks"
  stamp := stamp
  faults _ := false

def AcceptsAssign (engineer : String) (disk : Disk) : Prop :=
  After (assignTaskWipCheck engineer) disk (fun _ _ => True) fun _ _ => False

/-- The daemon turns the message down neither for the limit nor at the launch. -/
def ReachesLaunch (engineer body : String) (disk : Disk) : Prop :=
  wipItems engineer disk.tasksRead = [] ∧
    After (claimAndAssign openSite engineer body) (disk.skip 1)
      (fun delivery _ => delivery = .livePane) fun _ _ => False

/-- The command line accepts what gets to the launch, and only that. -/
def AgreesOnLimit (board : Board) (stamp engineer body : String) : Prop :=
  AcceptsAssign engineer (board.onDisk stamp) ↔ ReachesLaunch engineer body (board.onDisk stamp)

/-! ### What counts -/

/-- The task counts for the engineer, where the one in the claimed file is the engineer's. -/
def Task.CountsFor (task : Task) (engineer : String) (claimed : Option String) : Prop :=
  ((task.status = "todo" ∨ task.status = "in-progress") ∧
    (if claimed = some task.sourcePath then normalizeOptional engineer else task.claimedBy) =
      some engineer) ∨
  (task.status = "review" ∧ task.reviewOwner = some engineer)

theorem Task.isActiveFor_iff {task : Task} {engineer : String} :
    task.isActiveFor engineer = true ↔ task.CountsFor engineer none := by
  simp [isActiveFor, CountsFor]

/-- The board once the file is claimed for the engineer. -/
def Board.claimedFor (board : Board) (stamp engineer : String) : Option String → Board
  | some path => board.update path (assignOwnersMutator stamp (some engineer) none)
  | none => board

/-- Which tasks count after a claim can be told before it. -/
theorem Board.exists_isActiveFor_claimedFor {board : Board} (stamp engineer : String)
    {claimed : Option String} (hclaimed : ∀ path ∈ claimed, (board.taskAt path).isSome)
    (P : Nat → Prop) :
    (∃ task ∈ (board.claimedFor stamp engineer claimed).tasks,
        task.isActiveFor engineer = true ∧ P task.id) ↔
      ∃ task ∈ board.tasks, task.CountsFor engineer claimed ∧ P task.id := by
  cases claimed with
  | none => simp only [claimedFor, Task.isActiveFor_iff]
  | some path =>
    obtain ⟨held, hheld⟩ := Option.isSome_iff_exists.mp (hclaimed path rfl)
    obtain ⟨file, hfile, hread⟩ := Option.bind_eq_some_iff.mp hheld
    obtain ⟨task', htask', hedit⟩ := task_update_assignOwners hread stamp (some engineer) none
    have hsource : task'.sourcePath = path := by
      rw [TaskFile.sourcePath_eq_name htask', TaskFile.name_update]
      exact (find?_eq_some_iff.mp hfile).2
    rw [claimedFor, Board.tasks_update hfile hread htask' hedit.id]
    simp only [List.mem_map, exists_exists_and_eq_and]
    refine exists_congr fun task => and_congr_right fun hmem => ?_
    unfold Task.replacedBy
    split
    · rename_i hpath
      obtain rfl := Board.eq_of_sourcePath hfile hread hmem hpath
      rw [Task.isActiveFor_iff, hedit.id, Task.CountsFor, Task.CountsFor, hedit.status,
        hedit.claimedBy, hedit.reviewOwner, hpath]
      simp [assignedOwner]
    · rename_i hpath
      rw [Task.isActiveFor_iff, Task.CountsFor, Task.CountsFor,
        if_neg fun h => hpath (Option.some.inj h).symm]
      simp

/-! ### The way to the launch -/

theorem loadTasks_onDisk {disk : Disk} (hworks : ∀ n, disk.faults n = false)
    {Q : List Task → Disk → Prop} {E : String → Disk → Prop} :
    After loadTasks disk Q E ↔ Q disk.board.tasks (disk.skip 1) := by
  simp [loadTasks, access, hworks, Disk.skip]

theorem not_trips {disk : Disk} (hworks : ∀ n, disk.faults n = false) (count : Nat) :
    ¬ disk.Trips count := by
  rintro ⟨n, -, hfault⟩
  rw [hworks] at hfault
  cases hfault

/-- The claim ahead of the launch, where every access works. -/
theorem after_claimBeforeLaunch_onDisk {disk : Disk} (hworks : ∀ n, disk.faults n = false)
    (engineer : String) (taskId : Option Nat) :
    After (claimBeforeLaunch engineer taskId) disk
      (fun _ disk' => (∀ n, disk'.faults n = false) ∧
        disk'.board = disk.board.claimedFor disk.stamp engineer
          (taskId.bind disk.board.findPath))
      (fun _ _ => False) := by
  refine after_onTask (fun hnone => ?_) fun id hsome => ?_
  · rw [hnone]
    exact ⟨hworks, rfl⟩
  · rw [hsome, Option.bind_some]
    simp only [assignTaskOwners, Option.isNone_some, Bool.false_and, Bool.false_eq_true, if_false,
      after_bind, after_get]
    cases hpath : disk.board.findPath id with
    | none =>
      refine (after_editTask id _).mono (fun _ disk' h => ?_) fun _ disk' h => ?_
      · obtain ⟨path, hsome, -⟩ := h
        rw [hpath] at hsome
        cases hsome
      · exact ⟨fun n => h.faults ▸ hworks n, h.board⟩
    | some path =>
      refine (spends_editTask hpath _).mono (fun _ disk' h => ?_) fun _ _ h =>
        absurd h.1 (not_trips hworks _)
      exact ⟨fun n => h.faults ▸ hworks n, h.board⟩

/-- Nothing but the guard keeps a message from being launched. -/
theorem after_launchClaimed_openSite {disk : Disk} (hworks : ∀ n, disk.faults n = false)
    (engineer body : String) :
    After (launchClaimed openSite engineer body) disk (fun delivery _ => delivery = .livePane)
        (fun _ _ => False) ↔
      ¬ GuardBlocks (effectiveTaskId (extractTaskIdFromBody body) body)
        (activeBoardTaskIds engineer disk.board.tasks) := by
  rw [launchClaimed, after_bind, after_attempt, assignTaskWithTaskIdAs, after_bind,
    loadTasks_onDisk hworks, after_bind, dispatchGuard]
  split
  · rename_i hblocks
    rw [after_orFail_error, after_pure]
    exact iff_of_false (by simp) fun hguard => hguard hblocks
  · rename_i hguard
    have hcontext : ∀ taskId, recordContext openSite engineer taskId = pure () := by
      rintro (_ | taskId) <;> rfl
    refine iff_of_true ?_ hguard
    rw [after_orFail_ok, after_bind, hcontext, after_pure]
    refine (after_orFail_ok ()).mpr ?_
    simp only [after_bind, after_pure]
    refine after_onTask (fun _ => trivial) fun id _ => ?_
    unfold After
    split <;> trivial

/-! ### Where the ends agree -/

theorem mem_activeBoardTaskIds {engineer : String} {tasks : List Task} {id : Nat} :
    id ∈ activeBoardTaskIds engineer tasks ↔
      ∃ task ∈ tasks, task.isActiveFor engineer = true ∧ task.id = id := by
  simp only [activeBoardTaskIds, List.mem_insertionSort, List.mem_map, List.mem_filter, and_assoc]

/-- The guard after the claim, told from the board before it. -/
theorem not_guardBlocks_claimedFor_iff (board : Board) (stamp engineer : String)
    (extracted taskId : Option Nat) :
    ¬ GuardBlocks taskId (activeBoardTaskIds engineer
        (board.claimedFor stamp engineer (extracted.bind board.findPath)).tasks) ↔
      (∀ task ∈ board.tasks, ¬ task.CountsFor engineer (extracted.bind board.findPath)) ∨
        ∃ task ∈ board.tasks, task.CountsFor engineer (extracted.bind board.findPath) ∧
          taskId = some task.id := by
  set claimed := extracted.bind board.findPath with hclaimed
  have hread : ∀ path ∈ claimed, (board.taskAt path).isSome := by
    intro path hmem
    obtain ⟨id, -, hpath⟩ := Option.bind_eq_some_iff.mp (hclaimed ▸ hmem)
    obtain ⟨held, hheld, -⟩ := Board.exists_taskAt hpath
    rw [hheld, Option.isSome_some]
  have hcounts := Board.exists_isActiveFor_claimedFor stamp engineer hread
  rw [GuardBlocks, not_and_or, not_not]
  refine or_congr ?_ ?_
  · rw [List.eq_nil_iff_forall_not_mem]
    simp only [mem_activeBoardTaskIds]
    have hsome := hcounts fun _ => True
    simp only [and_true] at hsome
    constructor
    · intro hnone task hmem hcount
      obtain ⟨task', hmem', hactive⟩ := hsome.mpr ⟨task, hmem, hcount⟩
      exact hnone task'.id ⟨task', hmem', hactive, rfl⟩
    · rintro hnone _ ⟨task', hmem', hactive, -⟩
      obtain ⟨task, hmem, hcount⟩ := hsome.mp ⟨task', hmem', hactive⟩
      exact hnone task hmem hcount
  · rw [← hcounts fun id => taskId = some id]
    simp only [mem_activeBoardTaskIds, Option.mem_def, not_forall, not_not, exists_prop]
    constructor
    · rintro ⟨id, rfl, task, hmem, hactive, rfl⟩
      exact ⟨task, hmem, hactive, rfl⟩
    · rintro ⟨task, hmem, hactive, rfl⟩
      exact ⟨task.id, rfl, task, hmem, hactive, rfl⟩

theorem acceptsAssign_iff (board : Board) (stamp engineer : String) :
    AcceptsAssign engineer (board.onDisk stamp) ↔ wipItems engineer board.tasks = [] := by
  rw [AcceptsAssign, assignTaskWipCheck, after_bind, after_loadTasksOrDefault]
  change After (if wipItems engineer board.tasks ≠ [] then _ else _) _ _ _ ↔ _
  split
  · rename_i hactive
    exact iff_of_false id hactive
  · rename_i hidle
    exact iff_of_true trivial (not_not.mp hidle)

theorem reachesLaunch_iff (board : Board) (stamp engineer body : String) :
    ReachesLaunch engineer body (board.onDisk stamp) ↔ wipItems engineer board.tasks = [] ∧
      ¬ GuardBlocks (effectiveTaskId (extractTaskIdFromBody body) body)
        (activeBoardTaskIds engineer (board.claimedFor stamp engineer
          ((extractTaskIdFromBody body).bind board.findPath)).tasks) := by
  refine and_congr_right fun _ => ?_
  obtain ⟨_, disk, hrun, hworks, hboard⟩ := returns_of_after <|
    @after_claimBeforeLaunch_onDisk ((board.onDisk stamp).skip 1) (fun _ => rfl) engineer
      (extractTaskIdFromBody body)
  rw [claimAndAssign, after_bind, after_of_returns hrun, after_launchClaimed_openSite hworks,
    hboard]
  rfl

/-- **Where both ends agree.** -/
theorem agreesOnLimit_iff (board : Board) (stamp engineer body : String) :
    AgreesOnLimit board stamp engineer body ↔
      (∃ task ∈ board.tasks, task.claimedBy = some engineer ∧
        (task.status = "in-progress" ∨ task.status = "review")) ∨
      (∀ task ∈ board.tasks,
        ¬ task.CountsFor engineer ((extractTaskIdFromBody body).bind board.findPath)) ∨
      ∃ task ∈ board.tasks,
        task.CountsFor engineer ((extractTaskIdFromBody body).bind board.findPath) ∧
          effectiveTaskId (extractTaskIdFromBody body) body = some task.id := by
  have hactive : wipItems engineer board.tasks ≠ [] ↔
      ∃ task ∈ board.tasks, task.claimedBy = some engineer ∧
        (task.status = "in-progress" ∨ task.status = "review") := by
    rw [wipItems, Ne, List.filter_eq_nil_iff]
    simp [or_iff_not_imp_left]
  rw [AgreesOnLimit, acceptsAssign_iff, reachesLaunch_iff, not_guardBlocks_claimedFor_iff,
    ← hactive]
  by_cases hidle : wipItems engineer board.tasks = [] <;> simp [hidle]

/-! ### An engineer with a task that waits -/

/-- One task waits for the engineer who claimed it, another for anybody. -/
def reservedBoard : Board where
  files := [
    { name := "003-lexer.md"
      fenceNewline := true
      frontmatter := .ofList [(.id, .number 3), (.title, .string "lexer"),
        (.status, .string "todo"), (.claimedBy, .string "eng-1")]
      body := "" },
    { name := "007-parser.md"
      fenceNewline := true
      frontmatter := .ofList [(.id, .number 7), (.title, .string "parser"),
        (.status, .string "todo")]
      body := "" }]
  nodup := by simp

/-- The message is accepted, and the guard turns it down. -/
theorem not_agreesOnLimit : ¬ ∀ board stamp engineer body,
    AgreesOnLimit board stamp engineer body := by
  intro h
  have hagree := h reservedBoard "" "eng-1" "Please take task #7"
  have hblocked : ¬ After (claimAndAssign openSite "eng-1" "Please take task #7")
      ((reservedBoard.onDisk "").skip 1) (fun delivery _ => delivery = .livePane)
      (fun _ _ => False) := by
    decide
  rw [AgreesOnLimit, acceptsAssign_iff] at hagree
  exact hblocked (hagree.mp (by decide)).2

end Batty
