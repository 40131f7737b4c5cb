import Mathlib.Algebra.Order.Ring.Int
import Mathlib.Data.List.AList
import Mathlib.Order.Hom.Basic
import Batty.Board.TaskCmd
import Batty.Dispatch.Allocation
import Batty.Dispatch.Available

/-!
# The dispatching daemon

The part of the daemon's state that dispatch reads and writes, and the programs over it. A
program is an `Action`: it may fail, and what it wrote before it failed stays written.

**The outside.** Clocks, git, inboxes and launches are not computed by the daemon. Each question
put to them is counted (`Daemon.asked`), and `Outside` holds the answer to question number `n`;
nothing ties the answers to each other, except that the clock of elapsed times does not run
backwards.

**Frames.** Most programs leave most of the state alone. `Onward` is what every program keeps,
`Stays` what the handling of a queue entry keeps, and `Quiet` what a program keeps that does not
edit the board; `Reads`, of a later file, is for those that do not change who works on what
either.

Event logs, metrics and the daemon's record of its own actions are left out: no decision reads
them.
-/

namespace Batty

/-! ### Configuration -/

/-- How an engineer is chosen for a task. -/
inductive AllocationStrategy where
  | scored
  | roundRobin
deriving DecidableEq

/-- The settings that dispatch reads. -/
structure TeamConfig where
  members : List MemberInstance
  isGitRepo : Bool
  isMultiRepo : Bool
  /-- The roles of the team: their type, and whether their members work in worktrees. -/
  roles : List (RoleType × Bool)
  dispatchExcludedTags : List String := []
  fileLevelLocks : Bool := false
  allocationStrategy : AllocationStrategy := .scored
  allocation : AllocationPolicy := {}
  wipLimitPerEngineer : Option Nat := none
  stateReconciliationIntervalSecs : Nat := 30
  dispatchStabilizationDelaySecs : Nat := 30
  dispatchDedupWindowSecs : Nat := 900
  dispatchManualCooldownSecs : Nat := 30
  orphanRescueCooldownSecs : Nat := 300
  dispatchReleaseExclusionSecs : Nat := 3600
  interventionCooldownSecs : Nat := 120
  orphanBranchMismatchMaxAttempts : Nat := 3

/-- A span of time in nanoseconds, from seconds. -/
def fromSecs (secs : Nat) : Nat := secs * 1000000000

/-- The longest span of time there is. -/
def durationMax : Nat := 2 ^ 64 * 1000000000 - 1

/-! ### Records -/

/-- What the daemon takes a member to be doing. -/
inductive MemberState where
  | idle
  | working
deriving DecidableEq

/-- What the probe of a backend answers. -/
inductive BackendHealth where
  | healthy | degraded | unreachable | quotaExhausted | authRequired
deriving DecidableEq

/-- A task that waits for its engineer, and how often its launch has failed. -/
structure DispatchQueueEntry where
  engineer : String
  taskId : Nat
  taskTitle : String
  validationFailures : Nat := 0
  lastFailure : Option String := none
deriving DecidableEq

/-- When something last happened, and how often in a row. Rescues of a task and releases of a task
by an engineer are recorded alike. -/
structure BackoffRecord where
  lastAt : Nat
  count : Nat

namespace BackoffRecord

/-- The base time, doubled with every further occurrence up to sixteen times the base. -/
def effectiveWindow (record : BackoffRecord) (base : Nat) : Nat :=
  min durationMax (base * 2 ^ min (record.count - 1) 4)

def cascadeWindow (record : BackoffRecord) (base : Nat) : Nat :=
  min durationMax (record.effectiveWindow base * 2)

def dispatchBlocked (record : BackoffRecord) (base now : Nat) : Bool :=
  now - record.lastAt < record.effectiveWindow base

def inCascadeWindow (record : BackoffRecord) (base now : Nat) : Bool :=
  now - record.lastAt < record.cascadeWindow base

/-- The record after a further occurrence. -/
def again (previous : Option BackoffRecord) (base now : Nat) : BackoffRecord :=
  match previous with
  | none => { lastAt := now, count := 1 }
  | some record =>
    { lastAt := now
      count := if record.inCascadeWindow base now then min (record.count + 1) (2 ^ 32 - 1) else 1 }

/-- A block that is over stays over. -/
theorem dispatchBlocked_eq_false_of_le {record : BackoffRecord} {base now later : Nat}
    (h : record.dispatchBlocked base now = false) (hle : now ≤ later) :
    record.dispatchBlocked base later = false := by
  simp only [dispatchBlocked, decide_eq_false_iff_not, not_lt] at h ⊢
  omega

end BackoffRecord

/-- A claimed task whose engineer's worktree is on another branch. -/
structure ClaimedTaskBranchMismatch where
  taskId : Nat
  expectedBranch : String
  currentBranch : String

/-! ### The outside -/

/-- The answers to the daemon's questions, by the number of the question. -/
structure Outside where
  clock : ℕ →o ℕ
  calendar : Nat → Calendar
  unixTime : Nat → Nat
  tasksDirExists : Nat → Bool
  benchedEngineers : Nat → Except String (List String)
  /-- Delivering a message to the member. -/
  deliver : Nat → String → Except String Unit
  /-- Preparing the engineer's worktree for the task and launching the agent. -/
  launch : Nat → String → Nat → Except String Unit
  taskFileAgeSecs : Nat → String → Option Nat
  /-- What telemetry, history and board say of the engineers, with the tags of their roles. -/
  loadEngineerProfiles : Nat → Except String (String → Option EngineerProfile)
  /-- The files that a task's frontmatter declares, where they can be read. -/
  declaredFiles : Task → Option (List String)
  predictedFiles : Board → Task → List String
  digest : String → Nat
  worktreeDir : String → String
  -- what git says about the worktree of an engineer
  worktreeExists : Nat → String → Bool
  currentBranch : Nat → String → Except String String
  quarantine : Nat → String → Nat → Except String Unit
  hasUserChanges : Nat → String → Except String Bool
  autoSave : Nat → String → Except String Bool
  branchExists : Nat → String → Except String Bool
  checkout : Nat → String → String → Except String Unit
  readyForDispatch : Nat → String → Except String Unit
  hasWork : Nat → String → Bool
  rebase : Nat → String → Bool
  resetIfClean : Nat → String → Except String (Bool × String)

/-! ### State -/

/-- Which task each engineer is tracked on. -/
abbrev ActiveTasks := AList fun _ : String => Nat

/-- The part of the daemon that dispatches; `asked` counts the questions to the outside. -/
structure Daemon where
  config : TeamConfig
  disk : Disk
  outside : Outside
  asked : Nat := 0
  dispatchQueue : List DispatchQueueEntry := []
  activeTasks : ActiveTasks := ∅
  states : String → Option MemberState := fun _ => none
  idleStartedAt : String → Option Nat := fun _ => none
  recentDispatches : Nat × String → Option Nat := fun _ => none
  recentlyRescuedTasks : AList (fun _ : Nat => BackoffRecord) := ∅
  recentlyReleasedBy : Nat × String → Option BackoffRecord := fun _ => none
  recentEscalations : String → Option Nat := fun _ => none
  manualAssignCooldowns : String → Option Nat := fun _ => none
  interventionCooldowns : String → Option Nat := fun _ => none
  backendHealth : String → Option BackendHealth := fun _ => none
  backendQuotaRetryAt : String → Option Nat := fun _ => none
  retryCounts : String → Option Nat := fun _ => none
  shimHandles : String → Bool := fun _ => false
  /-- The messages delivered, with their recipients. -/
  inbox : List (String × String) := []
  /-- The assignments launched: engineer, task and message. -/
  launched : List (String × Nat × String) := []

abbrev Action := EStateM String Daemon

/-- Put a question to the outside. -/
def ask {α : Type} (question : Outside → Nat → α) : Action α := do
  let daemon ← get
  set { daemon with asked := daemon.asked + 1 }
  return question daemon.outside daemon.asked

def now : Action Nat := ask fun outside => outside.clock

/-- Run a program on the daemon's disk. -/
def onDisk {α : Type} (m : DiskAction α) : Action α := fun daemon =>
  match m daemon.disk with
  | .ok a disk => .ok a { daemon with disk }
  | .error error disk => .error error { daemon with disk }

/-! ### Frames -/

/-- What every program keeps. -/
structure Daemon.Onward (daemon daemon' : Daemon) : Prop where
  config : daemon'.config = daemon.config
  outside : daemon'.outside = daemon.outside
  dispatchQueue : daemon'.dispatchQueue = daemon.dispatchQueue
  asked : daemon.asked ≤ daemon'.asked
  disk : daemon.disk.Onward daemon'.disk

/-- What the handling of a queue entry keeps. -/
structure Daemon.Stays (daemon daemon' : Daemon) : Prop extends daemon.Onward daemon' where
  recentlyRescuedTasks : daemon'.recentlyRescuedTasks = daemon.recentlyRescuedTasks
  recentlyReleasedBy : daemon'.recentlyReleasedBy = daemon.recentlyReleasedBy

/-- What a program keeps that does not edit the board. -/
structure Daemon.Quiet (daemon daemon' : Daemon) : Prop extends daemon.Stays daemon' where
  board : daemon'.disk.board = daemon.disk.board

section

variable {daemon daemon' : Daemon} {α : Type}

instance : IsPreorder Daemon Daemon.Onward where
  refl _ := ⟨rfl, rfl, rfl, le_rfl, refl_of Disk.Onward _⟩
  trans _ _ _ h h' := ⟨h'.config.trans h.config, h'.outside.trans h.outside,
    h'.dispatchQueue.trans h.dispatchQueue, h.asked.trans h'.asked, trans_of Disk.Onward h.disk h'.disk⟩

instance : IsPreorder Daemon Daemon.Stays where
  refl daemon := ⟨refl_of Daemon.Onward daemon, rfl, rfl⟩
  trans _ _ _ h h' := ⟨trans_of Daemon.Onward h.toOnward h'.toOnward,
    h'.recentlyRescuedTasks.trans h.recentlyRescuedTasks,
    h'.recentlyReleasedBy.trans h.recentlyReleasedBy⟩

instance : IsPreorder Daemon Daemon.Quiet where
  refl daemon := ⟨refl_of Daemon.Stays daemon, rfl⟩
  trans _ _ _ h h' := ⟨trans_of Daemon.Stays h.toStays h'.toStays, h'.board.trans h.board⟩

variable {m : Action α}

theorem Moves.toOnward (h : Moves Daemon.Stays m) : Moves Daemon.Onward m := fun daemon =>
  (h daemon).mono (fun _ _ h => h.toOnward) (fun _ _ h => h.toOnward)

theorem Moves.toStays (h : Moves Daemon.Quiet m) : Moves Daemon.Stays m := fun daemon =>
  (h daemon).mono (fun _ _ h => h.toStays) (fun _ _ h => h.toStays)

@[simp] theorem after_onDisk {m : DiskAction α} {Q : α → Daemon → Prop}
    {E : String → Daemon → Prop} :
    After (onDisk m) daemon Q E ↔ After m daemon.disk (fun a disk => Q a { daemon with disk })
      (fun error disk => E error { daemon with disk }) := by
  simp only [After, onDisk]
  cases m daemon.disk <;> rfl

theorem moves_onDisk {m : DiskAction α} (h : Moves Disk.Onward m) :
    Moves Daemon.Stays (onDisk m) := by
  intro daemon
  rw [after_onDisk]
  exact (h daemon.disk).mono (fun _ _ h => ⟨⟨rfl, rfl, rfl, le_rfl, h⟩, rfl, rfl⟩)
    fun _ _ h => ⟨⟨rfl, rfl, rfl, le_rfl, h⟩, rfl, rfl⟩

end

end Batty
