import Batty.Dispatch.Daemon

/-!
# Members, messages and cooldowns

What the daemon knows about its members: who is idle, what each has on the board, which pairs of
task and engineer are held back for a while; and how it tells them things. None of these programs
edits the board, except that a failure to preserve work blocks the task it concerns.
-/

namespace Batty

/-! ### Members -/

def TeamConfig.member? (config : TeamConfig) (name : String) : Option MemberInstance :=
  config.members.find? fun member => member.name = name

def TeamConfig.engineerNames (config : TeamConfig) : List String :=
  (config.members.filter fun member => member.roleType = .engineer).map MemberInstance.name

def firstManagerName (members : List MemberInstance) : Option String :=
  (members.find? fun member => member.roleType = .manager).map MemberInstance.name

/-- The engineers that could take work: an engineer who is said to work without a task is idle. -/
def Daemon.idleEngineerNames (daemon : Daemon) : List String :=
  daemon.config.engineerNames.filter fun name =>
    match daemon.states name with
    | some .idle => true
    | some .working => (daemon.activeTasks.lookup name).isNone
    | none => false

def Daemon.memberUsesWorktrees (daemon : Daemon) (engineer : String) : Bool :=
  (daemon.config.isGitRepo || daemon.config.isMultiRepo) &&
    ((daemon.config.member? engineer).map MemberInstance.useWorktrees).getD false

def Daemon.memberBackendParked (daemon : Daemon) (unixNow : Nat) (name : String) : Bool :=
  daemon.backendHealth name = some .quotaExhausted ||
    daemon.backendHealth name = some .authRequired ||
    (daemon.backendQuotaRetryAt name).any fun retryAt => unixNow < retryAt

def Daemon.assignmentSender (daemon : Daemon) (engineer : String) : String :=
  ((daemon.config.member? engineer).bind MemberInstance.reportsTo).getD "human"

/-- The limit on an engineer's active items, if there is one, is not reached. -/
def TeamConfig.checkWipLimit (config : TeamConfig) (activeCount : Nat) : Bool :=
  config.wipLimitPerEngineer.all fun limit => activeCount < limit

/-- The task counts as one of the engineer's active items. -/
def Task.isActiveFor (task : Task) (engineer : String) : Bool :=
  ((task.status = "todo" || task.status = "in-progress") && task.claimedBy = some engineer) ||
    (task.status = "review" && task.reviewOwner = some engineer)

def engineerActiveBoardTaskIds (engineer : String) : Action (List Nat) := do
  let tasks ← onDisk loadTasks
  return ((tasks.filter fun task => task.isActiveFor engineer).map Task.id).insertionSort (· ≤ ·)

def engineerActiveBoardItemCount (engineer : String) : Action Nat := do
  let ids ← engineerActiveBoardTaskIds engineer
  return ids.length

/-! ### Verification retries -/

def verificationRetryRequired (evidence : Evidence) (task : Task) : Bool :=
  (evidence task.sourcePath).any WorkflowMetadata.retryRequired

/-- The task failed verification and could be handed out again although it is claimed or under
way. -/
def Daemon.verificationRetryDispatchableTask (daemon : Daemon) (evidence : Evidence) (task : Task)
    (allowPeerPickup : Bool) : Bool :=
  !depStatusSatisfied task.status &&
  verificationRetryRequired evidence task &&
  match task.claimedBy with
  | none => true
  | some owner =>
    !(daemon.activeTasks.lookup owner = some task.id && daemon.states owner = some .working) &&
      (daemon.idleEngineerNames.contains owner || allowPeerPickup)

/-! ### Cooldowns -/

def Daemon.rescueBase (daemon : Daemon) : Nat := fromSecs daemon.config.orphanRescueCooldownSecs

def Daemon.releaseExclusionWindow (daemon : Daemon) : Nat :=
  fromSecs daemon.config.dispatchReleaseExclusionSecs

def rescuedTaskIds : Action (List Nat) := do
  let time ← now
  let daemon ← get
  return (daemon.recentlyRescuedTasks.entries.filter fun entry =>
    entry.2.dispatchBlocked daemon.rescueBase time).map Sigma.fst

def recordTaskRescue (taskId : Nat) : Action Unit := do
  let time ← now
  modify fun daemon => { daemon with
    recentlyRescuedTasks := daemon.recentlyRescuedTasks.insert taskId
      (.again (daemon.recentlyRescuedTasks.lookup taskId) daemon.rescueBase time) }

def recordTaskReleaseBy (taskId : Nat) (engineer : String) : Action Unit := do
  let time ← now
  modify fun daemon => { daemon with
    recentlyReleasedBy := Function.update daemon.recentlyReleasedBy (taskId, engineer)
      (some (.again (daemon.recentlyReleasedBy (taskId, engineer))
        daemon.releaseExclusionWindow time)) }

def Daemon.releaseExcludedAt (daemon : Daemon) (time : Nat) (taskId : Nat) (engineer : String) :
    Bool :=
  (daemon.recentlyReleasedBy (taskId, engineer)).any fun record =>
    record.dispatchBlocked daemon.releaseExclusionWindow time

def isReleaseExcluded (taskId : Nat) (engineer : String) : Action Bool := do
  let time ← now
  return (← get).releaseExcludedAt time taskId engineer

def shouldHoldDispatchForStabilization (engineer : String) : Action Bool := do
  let time ← now
  let daemon ← get
  return (daemon.idleStartedAt engineer).all fun started =>
    time - started < fromSecs daemon.config.dispatchStabilizationDelaySecs

/-! ### Member states -/

def updateAutomationTimersForState (name : String) : MemberState → Action Unit
  | .idle => do
    let time ← now
    modify fun daemon => { daemon with
      idleStartedAt := Function.update daemon.idleStartedAt name (some time) }
  | .working => modify fun daemon => { daemon with
      idleStartedAt := Function.update daemon.idleStartedAt name none }

def setMemberState (name : String) (state : MemberState) : Action Unit := do
  modify fun daemon => { daemon with states := Function.update daemon.states name (some state) }
  updateAutomationTimersForState name state

/-- A member with a shim is left alone: the shim says what state it is in. -/
def markMemberWorking (name : String) : Action Unit := do
  if (← get).shimHandles name then pure () else setMemberState name .working

def clearActiveTask (engineer : String) : Action Unit :=
  modify fun daemon => { daemon with
    activeTasks := daemon.activeTasks.erase engineer
    retryCounts := Function.update daemon.retryCounts engineer none }

/-! ### Messages -/

def queueDaemonMessage (recipient body : String) : Action Unit := do
  let delivered ← ask fun outside question => outside.deliver question recipient
  orFail delivered
  modify fun daemon => { daemon with inbox := daemon.inbox ++ [(recipient, body)] }

/-- Whether an escalation under this key is recent; if not, this one is noted. -/
def suppressRecentEscalation (key : String) (window : Nat) : Action Bool := do
  let time ← now
  modify fun daemon => { daemon with
    recentEscalations := fun key => (daemon.recentEscalations key).filter (time - · < window) }
  if ((← get).recentEscalations key).isSome then return true
  else
    modify fun daemon => { daemon with
      recentEscalations := Function.update daemon.recentEscalations key (some time) }
    return false

def dispatchQueueFailureLimit : Nat := 3

def Daemon.dispatchFailureRecipient (daemon : Daemon) (engineer : String) : Option String :=
  ((daemon.config.member? engineer).bind MemberInstance.reportsTo).or
    (firstManagerName daemon.config.members)

def noteRecentDispatch (taskId : Nat) (engineer : String) : Action Unit := do
  let time ← now
  modify fun daemon => { daemon with
    recentDispatches := Function.update daemon.recentDispatches (taskId, engineer) (some time) }

/-- Tell the manager of an entry that failed too often. -/
def escalateDispatchQueueEntry (entry : DispatchQueueEntry) (detail : String) : Action Unit := do
  match (← get).dispatchFailureRecipient entry.engineer with
  | none => pure ()
  | some manager =>
    if ← suppressRecentEscalation s!"dispatch-fail:{entry.taskId}:{entry.engineer}"
        (fromSecs 900) then
      noteRecentDispatch entry.taskId entry.engineer
    else
      queueDaemonMessage manager <|
        s!"Dispatch queue entry failed validation too many times.\nEngineer: {entry.engineer}\n" ++
        s!"Task #{entry.taskId}: {entry.taskTitle}\nFailures: {entry.validationFailures}\n" ++
        s!"Last failure: {detail}"
      noteRecentDispatch entry.taskId entry.engineer

def preserveFailureReason (name : String) (taskId : Option Nat) (context detail : String) :
    String :=
  match taskId with
  | some taskId =>
    s!"Task #{taskId} is blocked because Batty could not safely auto-save " ++ name ++
      s!"'s dirty worktree before {context}. {detail}"
  | none =>
    "Batty could not safely auto-save " ++ name ++
      s!"'s dirty worktree before {context}. {detail}"

def blockUnpreserved (taskId : Option Nat) (reason : String) : Action Unit :=
  match taskId with
  | some taskId => discard (attempt (onDisk (blockTaskWithReason taskId reason)))
  | none => pure ()

def notifyPreserveFailure (name reason : String) : Action Unit := do
  let manager := (← get).assignmentSender name
  let _ ← attempt (queueDaemonMessage name reason)
  let _ ← attempt (queueDaemonMessage manager reason)

/-- Tell the member and its manager, once in a while, that work could not be saved; a task that
is concerned is blocked. Nothing here fails. -/
def reportPreserveFailure (name : String) (taskId : Option Nat) (context detail : String) :
    Action Unit := do
  let reason := preserveFailureReason name taskId context detail
  let taskKey := (taskId.map fun taskId => s!"{taskId}").getD "-"
  let digest := (← get).outside.digest detail
  if ← suppressRecentEscalation s!"preserve:{name}:{taskKey}:{context}:{digest}"
      (fromSecs 600) then pure ()
  else
    blockUnpreserved taskId reason
    notifyPreserveFailure name reason

/-! ### What they leave alone -/

/-- What a program keeps that neither edits the board nor changes who works on what. -/
structure Daemon.Reads (daemon daemon' : Daemon) : Prop extends daemon.Quiet daemon' where
  idle : daemon'.idleEngineerNames = daemon.idleEngineerNames
  retry : ∀ evidence task, daemon'.verificationRetryDispatchableTask evidence task true =
    daemon.verificationRetryDispatchableTask evidence task true

instance : IsPreorder Daemon Daemon.Reads where
  refl daemon := ⟨refl_of Daemon.Quiet daemon, rfl, fun _ _ => rfl⟩
  trans _ _ _ h h' := ⟨trans_of Daemon.Quiet h.toQuiet h'.toQuiet, h'.idle.trans h.idle,
    fun evidence task => (h'.retry evidence task).trans (h.retry evidence task)⟩

section

variable {α : Type}

theorem Moves.toQuiet {m : Action α} (h : Moves Daemon.Reads m) : Moves Daemon.Quiet m :=
  h.mono fun _ _ => Daemon.Reads.toQuiet

/-- The roster is read off the configuration, the tracked tasks and the states. -/
theorem Daemon.Quiet.reads {daemon daemon' : Daemon} (h : daemon.Quiet daemon')
    (hactive : daemon'.activeTasks = daemon.activeTasks) (hstates : daemon'.states = daemon.states) :
    daemon.Reads daemon' := by
  have hidle : daemon'.idleEngineerNames = daemon.idleEngineerNames := by
    simp only [idleEngineerNames, h.config, hactive, hstates]
  refine ⟨h, hidle, fun evidence task => ?_⟩
  simp only [verificationRetryDispatchableTask, hactive, hstates, hidle]

/-- An answer is the outside's, to a question whose number is not yet past. -/
theorem after_ask (question : Outside → Nat → α) (daemon : Daemon) : After (ask question) daemon
    (fun answer daemon' => daemon.Reads daemon' ∧ daemon.asked < daemon'.asked ∧
      answer = question daemon.outside daemon.asked)
    (fun _ daemon' => daemon.Reads daemon') := by
  refine ⟨Daemon.Quiet.reads ?_ rfl rfl, Nat.lt_succ_self _, rfl⟩
  exact ⟨⟨⟨rfl, rfl, rfl, Nat.le_succ _, refl_of Disk.Onward _⟩, rfl, rfl⟩, rfl⟩

theorem moves_ask (question : Outside → Nat → α) : Moves Daemon.Reads (ask question) :=
  fun daemon => (after_ask question daemon).mono (fun _ _ h => h.1) fun _ _ h => h

theorem moves_now : Moves Daemon.Reads now := moves_ask _

theorem Daemon.reads_of_leads {daemon : Daemon} {disk : Disk}
    (h : daemon.disk.Leads daemon.disk.board disk) : daemon.Reads { daemon with disk } :=
  Daemon.Quiet.reads ⟨⟨⟨rfl, rfl, rfl, le_rfl, h.onward⟩, rfl, rfl⟩, h.board⟩ rfl rfl

theorem moves_loadTasks : Moves Daemon.Reads (onDisk loadTasks) := fun _ =>
  after_onDisk.mpr <| after_loadTasks.mono (fun _ _ h => Daemon.reads_of_leads h.1)
    fun _ _ h => Daemon.reads_of_leads h

theorem moves_readEvidence : Moves Daemon.Reads (onDisk readEvidence) := fun _ =>
  after_onDisk.mpr <| after_readEvidence.mono (fun _ _ h => Daemon.reads_of_leads h.1)
    fun _ _ h => Daemon.reads_of_leads h

/-- An update of the daemon's own records is quiet. -/
theorem moves_modify_quiet {g : Daemon → Daemon} (h : ∀ daemon, (g daemon).config = daemon.config ∧
    (g daemon).outside = daemon.outside ∧ (g daemon).dispatchQueue = daemon.dispatchQueue ∧
    (g daemon).asked = daemon.asked ∧ (g daemon).disk = daemon.disk ∧
    (g daemon).recentlyRescuedTasks = daemon.recentlyRescuedTasks ∧
    (g daemon).recentlyReleasedBy = daemon.recentlyReleasedBy) :
    Moves Daemon.Quiet (modify g : Action PUnit) := by
  refine moves_modify fun daemon => ?_
  obtain ⟨hconfig, houtside, hqueue, hasked, hdisk, hrescued, hreleased⟩ := h daemon
  exact ⟨⟨⟨hconfig, houtside, hqueue, hasked.ge, hdisk ▸ refl_of Disk.Onward _⟩, hrescued,
    hreleased⟩, congrArg Disk.board hdisk⟩

theorem moves_rescuedTaskIds : Moves Daemon.Reads rescuedTaskIds :=
  moves_now.bind fun _ => moves_get.bind fun _ => moves_pure _

theorem moves_shouldHoldDispatchForStabilization (engineer : String) :
    Moves Daemon.Reads (shouldHoldDispatchForStabilization engineer) :=
  moves_now.bind fun _ => moves_get.bind fun _ => moves_pure _

theorem moves_updateAutomationTimersForState (name : String) (state : MemberState) :
    Moves Daemon.Quiet (updateAutomationTimersForState name state) := by
  cases state with
  | idle => exact moves_now.toQuiet.bind fun _ =>
      moves_modify_quiet fun _ => ⟨rfl, rfl, rfl, rfl, rfl, rfl, rfl⟩
  | working => exact moves_modify_quiet fun _ => ⟨rfl, rfl, rfl, rfl, rfl, rfl, rfl⟩

theorem moves_setMemberState (name : String) (state : MemberState) :
    Moves Daemon.Quiet (setMemberState name state) := by
  refine Moves.bind ?_ fun _ => moves_updateAutomationTimersForState name state
  exact moves_modify_quiet fun _ => ⟨rfl, rfl, rfl, rfl, rfl, rfl, rfl⟩

theorem moves_markMemberWorking (name : String) : Moves Daemon.Quiet (markMemberWorking name) := by
  refine moves_get.bind fun daemon => ?_
  split
  · exact moves_pure _
  · exact moves_setMemberState name .working

theorem moves_clearActiveTask (engineer : String) : Moves Daemon.Quiet (clearActiveTask engineer) :=
  moves_modify_quiet fun _ => ⟨rfl, rfl, rfl, rfl, rfl, rfl, rfl⟩

/-- Keeping a record that is not of the roster is reading. -/
theorem moves_modify_reads {g : Daemon → Daemon} (hquiet : Moves Daemon.Quiet (modify g : Action PUnit))
    (h : ∀ daemon, (g daemon).activeTasks = daemon.activeTasks ∧ (g daemon).states = daemon.states) :
    Moves Daemon.Reads (modify g : Action PUnit) := fun daemon =>
  Daemon.Quiet.reads (hquiet daemon) (h daemon).1 (h daemon).2

theorem moves_queueDaemonMessage (recipient body : String) :
    Moves Daemon.Reads (queueDaemonMessage recipient body) := by
  refine (moves_ask _).bind fun _ => (moves_orFail _).bind fun _ => ?_
  exact moves_modify_reads (moves_modify_quiet fun _ => ⟨rfl, rfl, rfl, rfl, rfl, rfl, rfl⟩)
    fun _ => ⟨rfl, rfl⟩

theorem moves_suppressRecentEscalation (key : String) (window : Nat) :
    Moves Daemon.Reads (suppressRecentEscalation key window) := by
  refine moves_now.bind fun time => Moves.bind ?_ fun _ => moves_get.bind fun daemon => ?_
  · exact moves_modify_reads (moves_modify_quiet fun _ => ⟨rfl, rfl, rfl, rfl, rfl, rfl, rfl⟩)
      fun _ => ⟨rfl, rfl⟩
  · split
    · exact moves_pure _
    · refine Moves.bind ?_ fun _ => moves_pure _
      exact moves_modify_reads (moves_modify_quiet fun _ => ⟨rfl, rfl, rfl, rfl, rfl, rfl, rfl⟩)
        fun _ => ⟨rfl, rfl⟩

theorem moves_noteRecentDispatch (taskId : Nat) (engineer : String) :
    Moves Daemon.Reads (noteRecentDispatch taskId engineer) := by
  refine moves_now.bind fun _ => ?_
  exact moves_modify_reads (moves_modify_quiet fun _ => ⟨rfl, rfl, rfl, rfl, rfl, rfl, rfl⟩)
    fun _ => ⟨rfl, rfl⟩

theorem moves_escalateDispatchQueueEntry (entry : DispatchQueueEntry) (detail : String) :
    Moves Daemon.Reads (escalateDispatchQueueEntry entry detail) := by
  refine moves_get.bind fun daemon => ?_
  split
  · exact moves_pure _
  · refine (moves_suppressRecentEscalation _ _).bind fun suppressed => ?_
    split
    · exact moves_noteRecentDispatch _ _
    · exact (moves_queueDaemonMessage _ _).bind fun _ => moves_noteRecentDispatch _ _

theorem moves_notifyPreserveFailure (name reason : String) :
    Moves Daemon.Reads (notifyPreserveFailure name reason) :=
  moves_get.bind fun _ => (moves_queueDaemonMessage _ _).attempt.bind fun _ =>
    (moves_queueDaemonMessage _ _).attempt.bind fun _ => moves_pure _

theorem moves_reportPreserveFailure (name : String) (taskId : Option Nat) (context detail : String) :
    Moves Daemon.Stays (reportPreserveFailure name taskId context detail) := by
  refine moves_get.bind fun daemon => ?_
  refine (moves_suppressRecentEscalation _ _).toQuiet.toStays.bind fun suppressed => ?_
  split
  · exact moves_pure _
  · refine Moves.bind ?_ fun _ => (moves_notifyPreserveFailure _ _).toQuiet.toStays
    cases taskId with
    | some taskId => exact (moves_onDisk (moves_rewriteTask _ (editsTasks_block _) _)).attempt.map
    | none => exact moves_pure _

/-- Without a task there is nothing to block, and the board stays as it is. -/
theorem moves_reportPreserveFailure_none (name context detail : String) :
    Moves Daemon.Reads (reportPreserveFailure name none context detail) := by
  refine moves_get.bind fun daemon => ?_
  refine (moves_suppressRecentEscalation _ _).bind fun suppressed => ?_
  split
  · exact moves_pure _
  · exact (moves_pure _).bind fun _ => moves_notifyPreserveFailure _ _

theorem moves_recordTaskRescue (taskId : Nat) : Moves Daemon.Onward (recordTaskRescue taskId) :=
  moves_now.toQuiet.toStays.toOnward.bind fun _ =>
    moves_modify fun _ => ⟨rfl, rfl, rfl, le_rfl, refl_of Disk.Onward _⟩

theorem moves_recordTaskReleaseBy (taskId : Nat) (engineer : String) :
    Moves Daemon.Onward (recordTaskReleaseBy taskId engineer) :=
  moves_now.toQuiet.toStays.toOnward.bind fun _ =>
    moves_modify fun _ => ⟨rfl, rfl, rfl, le_rfl, refl_of Disk.Onward _⟩

end

end Batty
