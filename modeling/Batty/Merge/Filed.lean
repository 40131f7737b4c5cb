import Batty.Merge.Budget

/-!
# The task file of a completion

What a completion writes to the file of its task, command by command: where the file is, the status
of the task, and what is on record of the branch, the commit and the tests. Each command may fail at
any of its accesses to the disk, and a transition that has been written may still fail in the
activity log.

* `WorkflowRecord.parse_metadataMutator`: metadata that is written is read back.
* `filed_transitionToReview`: when the task gets to `review`.
* `filed_verifyTask`: where the verification leaves the task.
-/

namespace Batty

/-! ### Metadata that is written is read back -/

/-- The keys that workflow metadata is read from. -/
def Key.workflow : List Key :=
  [.branch, .worktreePath, .commit, .changedPaths, .testsRun, .testsPassed, .testResults,
    .artifacts, .outcome, .reviewBlockers]

theorem WorkflowRecord.parse_congr {mapping mapping' : Mapping}
    (h : ∀ key ∈ Key.workflow, mapping key = mapping' key) :
    WorkflowRecord.parse mapping = WorkflowRecord.parse mapping' := by
  simp only [Key.workflow, List.forall_mem_cons] at h
  simp only [WorkflowRecord.parse, Mapping.optional, Mapping.orDefault, h]

theorem Key.not_isBlockKey_of_workflow {key : Key} (h : key ∈ Key.workflow) : ¬ key.IsBlockKey := by
  rintro (rfl | rfl | rfl) <;> simp [Key.workflow] at h

@[simp] theorem setOptionalBool_self (mapping : Mapping) (key : Key) (value : Option Bool) :
    mapping.setOptionalBool key value key = value.map .bool := by
  cases value <;> simp [Mapping.setOptionalBool]

theorem optional_asBool_setOptionalBool (mapping : Mapping) (key : Key) (value : Option Bool) :
    (mapping.setOptionalBool key value).optional key Value.asBool = some value := by
  cases value <;> simp [Mapping.setOptionalBool, Mapping.optional, Value.asBool]

theorem orDefault_setStringList (mapping : Mapping) (key : Key) (values : List String) :
    (mapping.setStringList key values).orDefault key (Value.asVec Value.asString) [] =
      some values := by
  cases values with
  | nil => simp [Mapping.orDefault]
  | cons value values =>
    simp only [Mapping.orDefault, Mapping.setStringList_self, List.isEmpty_cons, Bool.false_eq_true,
      if_false, Value.asVec, List.mapM_map]
    exact mapM_asString _

theorem WorkflowRecord.parse_metadataMutator (metadata : WorkflowRecord)
    (hresults : metadata.testResults = some (.nested true)) (mapping : Mapping) :
    WorkflowRecord.parse (metadataMutator metadata mapping) = some metadata := by
  have hstring : ∀ (key : Key) (value : Option String),
      metadataMutator metadata mapping key = mapping.setOptionalString key value key →
        (metadataMutator metadata mapping).optional key Value.asString = some value :=
    fun key value h => (Mapping.optional_congr h).trans (Mapping.optional_setOptionalString_self ..)
  have hbool : ∀ (key : Key) (value : Option Bool),
      metadataMutator metadata mapping key = mapping.setOptionalBool key value key →
        (metadataMutator metadata mapping).optional key Value.asBool = some value :=
    fun key value h => (Mapping.optional_congr h).trans (optional_asBool_setOptionalBool ..)
  have hlist : ∀ (key : Key) (values : List String),
      metadataMutator metadata mapping key = mapping.setStringList key values key →
        (metadataMutator metadata mapping).orDefault key (Value.asVec Value.asString) [] =
          some values :=
    fun key values h => (Mapping.orDefault_congr h).trans (orDefault_setStringList ..)
  have htestResults : metadataMutator metadata mapping .testResults = some (.nested true) := by
    simp [metadataMutator, hresults, Mapping.setOptionalValue]
  refine bind_of_eq_some (hstring .branch metadata.branch ?_) <|
    bind_of_eq_some (hstring .worktreePath metadata.worktreePath ?_) <|
    bind_of_eq_some (hstring .commit metadata.commit ?_) <|
    bind_of_eq_some (hlist .changedPaths metadata.changedPaths ?_) <|
    bind_of_eq_some (hbool .testsRun metadata.testsRun ?_) <|
    bind_of_eq_some (hbool .testsPassed metadata.testsPassed ?_) <|
    @bind_of_eq_some _ _ _ metadata.testResults _ _ ?_ <|
    bind_of_eq_some (hlist .artifacts metadata.artifacts ?_) <|
    bind_of_eq_some (hstring .outcome metadata.outcome ?_) <|
    bind_of_eq_some (hlist .reviewBlockers metadata.reviewBlockers ?_) rfl
  case refine_7 => simp only [Mapping.optional, htestResults, hresults, Option.map_some]
  all_goals simp [metadataMutator]

/-! ### The board tool -/

/-- The tool brings the task to `done` if it succeeds; everything else, and everything if it does
not, stays as it was. -/
structure KanbanTool.Works (tool : KanbanTool) : Prop where
  findPath : ∀ taskId board,
    (tool.moveToDone taskId board).findPath taskId = board.findPath taskId
  record : ∀ taskId board path, board.findPath taskId = some path →
    (tool.moveToDone taskId board).recordAt path = board.recordAt path
  task : ∀ taskId board path task, board.findPath taskId = some path →
    board.taskAt path = some task →
    ∃ task', (tool.moveToDone taskId board).taskAt path = some task' ∧
      task'.status = if tool.moved then "done" else task.status

namespace CompletionDaemon

/-! ### How it stands with the task -/

/-- The task's file is where it was on `start`, with this status, and with this branch and commit of
work whose tests have passed. -/
structure Filed (start : Board) (taskId : Nat) (path status : String)
    (branch commit : Option String) (board : Board) : Prop where
  findPath : board.findPath taskId = some path
  accesses : findAccesses board taskId = findAccesses start taskId
  task : ∃ task, board.taskAt path = some task ∧ task.status = status
  record : ∃ record, board.recordAt path = some record ∧ record.branch = branch ∧
    record.commit = commit ∧ record.testsRun = some true ∧ record.testsPassed = some true

section

variable {start board : Board} {taskId : Nat} {path status : String} {branch commit : Option String}
  {mutator : Mapping → Mapping} {onClaim : Option String → Option String}
  {onStatus : String → String}

theorem recordAt_update {file : TaskFile} (hfind : board.find? path = some file) :
    (board.update path mutator).recordAt path = WorkflowRecord.parse (mutator file.mapping) := by
  rw [Board.recordAt, Board.find?_update, hfind, Option.map_some, if_pos rfl, Option.bind_some]
  exact WorkflowRecord.parse_congr fun key hkey =>
    normalizeBlocked_apply _ (Key.not_isBlockKey_of_workflow hkey)

/-- An edit of the status and the claim, with the metadata that it leaves. -/
theorem filed_update {task : Task} (hpath : board.findPath taskId = some path)
    (haccesses : findAccesses board taskId = findAccesses start taskId)
    (htask : board.taskAt path = some task) (hedits : EditsClaim mutator onClaim onStatus)
    (hrecord : ∃ record, (board.update path mutator).recordAt path = some record ∧
      record.branch = branch ∧ record.commit = commit ∧ record.testsRun = some true ∧
        record.testsPassed = some true) :
    Filed start taskId path (onStatus task.status) branch commit (board.update path mutator) := by
  have hids : KeepsIds mutator := by
    intro file task htask
    obtain ⟨task', htask', hid, -⟩ := hedits file task htask
    exact ⟨task', htask', hid⟩
  obtain ⟨file, hfind, hread⟩ := Option.bind_eq_some_iff.mp htask
  obtain ⟨task', htask', -, -, hstatus⟩ := hedits file task hread
  refine ⟨?_, ?_, ⟨task', (Board.taskAt_update hfind _).trans htask', hstatus⟩, hrecord⟩
  · rw [findPath_update htask hids, hpath]
  · rw [findAccesses, findPathByName_update htask hids]
    exact haccesses

/-- An edit that leaves the metadata alone. -/
theorem Filed.update (h : Filed start taskId path status branch commit board)
    (hedits : EditsClaim mutator onClaim onStatus)
    (hagree : ∀ (mapping : Mapping), ∀ key ∈ Key.workflow, mutator mapping key = mapping key) :
    Filed start taskId path (onStatus status) branch commit (board.update path mutator) := by
  obtain ⟨task, htask, rfl⟩ := h.task
  refine filed_update h.findPath h.accesses htask hedits ?_
  obtain ⟨file, hfind, -⟩ := Option.bind_eq_some_iff.mp htask
  obtain ⟨record, hrecord, hfields⟩ := h.record
  refine ⟨record, ?_, hfields⟩
  rw [recordAt_update hfind, WorkflowRecord.parse_congr (hagree file.mapping), ← hrecord,
    Board.recordAt, hfind, Option.bind_some]

/-- Metadata of tests that have passed is written. -/
theorem filed_metadata {task : Task} (hpath : board.findPath taskId = some path)
    (haccesses : findAccesses board taskId = findAccesses start taskId)
    (htask : board.taskAt path = some task) (record : WorkflowRecord)
    (hresults : record.testResults = some (.nested true)) (hrun : record.testsRun = some true)
    (hpassed : record.testsPassed = some true) :
    Filed start taskId path task.status record.branch record.commit
      (board.update path (metadataMutator record)) := by
  obtain ⟨file, hfind, -⟩ := Option.bind_eq_some_iff.mp htask
  refine filed_update hpath haccesses htask (editsClaim_metadata record)
    ⟨record, ?_, rfl, rfl, hrun, hpassed⟩
  rw [recordAt_update hfind, WorkflowRecord.parse_metadataMutator record hresults]

theorem transitionMutator_workflow (state : TaskState) (mapping : Mapping) :
    ∀ key ∈ Key.workflow, transitionMutator state mapping key = mapping key := by
  intro key hkey
  refine transitionMutator_apply _ _ ?_ (Key.not_isBlockKey_of_workflow hkey)
  rintro rfl
  simp [Key.workflow] at hkey

theorem assignOwnersMutator_workflow (now : String) (execOwner reviewOwner : Option String)
    (mapping : Mapping) :
    ∀ key ∈ Key.workflow,
      assignOwnersMutator now execOwner reviewOwner mapping key = mapping key := by
  have hclaim : ∀ key ∈ Key.workflow, key ≠ .claimedBy ∧ key ≠ .claimedAt ∧ key ≠ .lastProgressAt ∧
      key ≠ .claimWarningSentAt ∧ key ≠ .claimExtensions ∧ key ≠ .claimTtlSecs ∧
        key ≠ .claimExpiresAt ∧ key ≠ .lastOutputBytes ∧ key ≠ .reviewOwner := by
    simp [Key.workflow]
  intro key hkey
  have hne := hclaim key hkey
  cases execOwner <;> cases reviewOwner <;> simp [assignOwnersMutator, resetClaimTracking, hne]

theorem editsClaim_assignBoth (now : String) (execOwner reviewOwner : Option String) :
    EditsClaim (assignOwnersMutator now execOwner reviewOwner)
      (fun claimedBy => assignedOwner claimedBy execOwner) id := by
  intro file task htask
  obtain ⟨task', htask', hedit⟩ := task_update_assignOwners htask now execOwner reviewOwner
  exact ⟨task', htask', hedit.id, hedit.claimedBy, hedit.status⟩

/-! ### The commands of a completion -/

variable {settings : CompletionSettings} {completion : Completion} {daemon : CompletionDaemon}

theorem after_onBoard_iff {α : Type} {step : BoardStep} {command : DiskAction α}
    {Q : α → CompletionDaemon → Prop} {E : String → CompletionDaemon → Prop} :
    After (onBoard completion step command) daemon Q E ↔
      After command { daemon.disk with faults := completion.faults step, accesses := 0 }
        (fun a disk => Q a { daemon with disk })
        (fun error disk => E error { daemon with disk }) := by
  unfold After onBoard
  cases command { daemon.disk with faults := completion.faults step, accesses := 0 } <;> rfl

end

/-- No access of the step fails before its write. -/
def Writes (completion : Completion) (step : BoardStep) (accesses : Nat) : Prop :=
  ∀ n < accesses + 3, completion.faults step n = false

instance (completion : Completion) (step : BoardStep) (accesses : Nat) :
    Decidable (Writes completion step accesses) := by
  unfold Writes
  infer_instance

section

variable {settings : CompletionSettings} {completion : Completion} {taskId : Nat}
  {daemon : CompletionDaemon} {start : Board} {path status : String} {branch commit : Option String}

theorem filed_transition (h : Filed start taskId path status branch commit daemon.disk.board)
    (step : BoardStep) (state : TaskState) :
    let moves := MayMove status state ∧ Writes completion step (findAccesses start taskId)
    let logged := status = stateName state ∨
      completion.faults step (findAccesses start taskId + 3) = false
    After (onBoard completion step (transitionTask taskId (stateName state))) daemon
      (fun _ next => moves ∧ logged ∧
        Filed start taskId path (stateName state) branch commit next.disk.board)
      (fun _ next =>
        (moves ∧ ¬ logged ∧
          Filed start taskId path (stateName state) branch commit next.disk.board) ∨
        (¬ moves ∧ Filed start taskId path status branch commit next.disk.board)) := by
  intro moves logged
  obtain ⟨task, htask, rfl⟩ := h.task
  have hmoved : ∀ {board : Board},
      board = daemon.disk.board.update path (transitionMutator state) →
        Filed start taskId path (stateName state) branch commit board := by
    rintro _ rfl
    exact h.update (editsClaim_transition state) (transitionMutator_workflow state)
  rw [after_onBoard_iff]
  have htransition := @spends_transition
    { daemon.disk with faults := completion.faults step, accesses := 0 } taskId path h.findPath
    task htask state
  -- every command counts its accesses from the start
  have hwrites : ¬ Disk.Trips { daemon.disk with faults := completion.faults step, accesses := 0 }
      (findAccesses start taskId + 3) ↔ Writes completion step (findAccesses start taskId) := by
    simp only [Disk.Trips, Writes, Nat.zero_add, not_exists, not_and, Bool.not_eq_true]
  simp only [Disk.TransitionMoves, transitionAccesses, h.accesses, hwrites] at htransition
  refine htransition.mono ?_ ?_
  · rintro _ disk ⟨hmay, hspends⟩
    refine ⟨⟨hmay, fun n hn => ?_⟩, ?_, hmoved hspends.board⟩
    · simpa using hspends.works n (by omega)
    · refine or_iff_not_imp_left.mpr fun hchanged => ?_
      rw [if_neg hchanged] at hspends
      simpa using hspends.works _ (Nat.lt_succ_self _)
  · rintro _ disk (⟨hmoves, htrips, hboard⟩ | ⟨hmoves, hboard⟩)
    · refine .inl ⟨hmoves, ?_, hmoved hboard⟩
      obtain ⟨n, hn, hfault⟩ := htrips
      simp only [Nat.zero_add] at hfault
      have hlog : ¬ n < findAccesses start taskId + 3 := fun hlt => by
        rw [hmoves.2 n hlt] at hfault
        cases hfault
      rintro (hsame | hnone)
      · rw [if_pos hsame] at hn
        exact hlog hn
      · obtain rfl : n = findAccesses start taskId + 3 := by
          split at hn <;> omega
        rw [hnone] at hfault
        cases hfault
    · refine .inr ⟨hmoves, ?_⟩
      rw [hboard]
      exact h

/-- The owners are set or not, and no more. -/
theorem filed_assignReviewOwner
    (h : Filed start taskId path status branch commit daemon.disk.board) :
    After (assignReviewOwner settings completion taskId) daemon
      (fun _ next => Filed start taskId path status branch commit next.disk.board)
      (fun _ _ => False) := by
  unfold assignReviewOwner
  cases settings.managerName with
  | none => exact h
  | some manager =>
    rw [after_discard, after_attempt, after_onBoard_iff]
    simp only [assignTaskOwners, Option.isNone_some, Bool.false_and, Bool.false_eq_true, if_false,
      after_bind, after_get]
    refine (after_editTask taskId _).mono (fun _ disk hedits => ?_) fun _ disk hleads => ?_
    · obtain ⟨path', hpath', hleads⟩ := hedits
      rw [show path' = path from Option.some.inj (hpath'.symm.trans h.findPath)] at hleads
      rw [hleads.board]
      exact h.update (editsClaim_assignBoth _ _ _) (assignOwnersMutator_workflow _ _ _)
    · rw [hleads.board]
      exact h

/-- What gets a task to `review`: the last transition that is made is to it. -/
def GoesToReview (completion : Completion) (accesses : Nat) (status : String) : Prop :=
  if MayMove status .review ∧ Writes completion .review accesses then
    (status = "review" ∨ completion.faults .review (accesses + 3) = false) ∨
      (Writes completion .progress accesses → Writes completion .reviewAgain accesses)
  else if MayMove status .inProgress ∧ Writes completion .progress accesses then
    Writes completion .reviewAgain accesses
  else status = "review" ∨ MayMove status .review ∧ Writes completion .reviewAgain accesses

instance (completion : Completion) (accesses : Nat) (status : String) :
    Decidable (GoesToReview completion accesses status) := by
  unfold GoesToReview
  infer_instance

/-- Whether or not a transition returns, it is made or not. -/
theorem filed_either (h : Filed start taskId path status branch commit daemon.disk.board)
    (step : BoardStep) (state : TaskState) :
    let next := if MayMove status state ∧ Writes completion step (findAccesses start taskId) then
      stateName state else status
    After (onBoard completion step (transitionTask taskId (stateName state))) daemon
      (fun _ daemon' => Filed start taskId path next branch commit daemon'.disk.board)
      (fun _ daemon' => Filed start taskId path next branch commit daemon'.disk.board) := by
  intro next
  refine (filed_transition h step state).mono ?_ ?_
  · rintro _ daemon' ⟨hmoves, -, hfiled⟩
    rwa [show next = stateName state from if_pos hmoves]
  · rintro _ daemon' (⟨hmoves, -, hfiled⟩ | ⟨hmoves, hfiled⟩)
    · rwa [show next = stateName state from if_pos hmoves]
    · rwa [show next = status from if_neg hmoves]

/-- The way to `review` through `in-progress`. -/
theorem filed_throughProgress
    (h : Filed start taskId path status branch commit daemon.disk.board) :
    After (do
        let _ ← (attempt (onBoard completion .progress (transitionTask taskId "in-progress")) :
          CompletionAction (Except String Unit))
        discard (attempt (onBoard completion .reviewAgain (transitionTask taskId "review")) :
          CompletionAction (Except String Unit))) daemon
      (fun _ next => ∃ status', Filed start taskId path status' branch commit next.disk.board ∧
        (status' = "review" ↔
          if MayMove status .inProgress ∧
              Writes completion .progress (findAccesses start taskId) then
            Writes completion .reviewAgain (findAccesses start taskId)
          else status = "review" ∨ MayMove status .review ∧
            Writes completion .reviewAgain (findAccesses start taskId)))
      (fun _ _ => False) := by
  have hreview : MayMove "in-progress" .review := by decide
  have hstatus : ∀ (moves writes : Prop) [Decidable moves] [Decidable writes],
      let status₂ := if moves then "in-progress" else status
      (if MayMove status₂ .review ∧ writes then "review" else status₂) = "review" ↔
        if moves then writes else status = "review" ∨ MayMove status .review ∧ writes := by
    intro moves writes _ _
    by_cases hmoves : moves
    · by_cases hwrites : writes <;> simp [hmoves, hwrites, hreview]
    · by_cases hmay : MayMove status .review ∧ writes <;> simp [hmoves, hmay]
  simp only [after_bind, after_attempt, after_discard]
  refine (filed_either h .progress .inProgress).mono (fun _ second h₂ => ?_) fun _ second h₂ => ?_
  · exact (filed_either h₂ .reviewAgain .review).mono (fun _ third h₃ => ⟨_, h₃, hstatus _ _⟩)
      fun _ third h₃ => ⟨_, h₃, hstatus _ _⟩
  · exact (filed_either h₂ .reviewAgain .review).mono (fun _ third h₃ => ⟨_, h₃, hstatus _ _⟩)
      fun _ third h₃ => ⟨_, h₃, hstatus _ _⟩

theorem filed_transitionToReview
    (h : Filed start taskId path status branch commit daemon.disk.board) :
    After (transitionToReview completion taskId) daemon
      (fun _ next => ∃ status', Filed start taskId path status' branch commit next.disk.board ∧
        (status' = "review" ↔ GoesToReview completion (findAccesses start taskId) status))
      (fun _ _ => False) := by
  have hprogress : MayMove "review" .inProgress := by decide
  unfold GoesToReview
  rw [transitionToReview, after_bind, after_attempt]
  refine (filed_transition h .review .review).mono ?_ ?_
  · rintro _ first ⟨hmoves, hlogged, hfiled⟩
    rw [after_pure]
    refine ⟨"review", hfiled, iff_of_true rfl ?_⟩
    rw [if_pos hmoves]
    exact .inl hlogged
  · rintro _ first (⟨hmoves, hlogged, hfiled⟩ | ⟨hmoves, hfiled⟩)
    · refine (filed_throughProgress hfiled).mono ?_ fun _ _ h => h
      rintro _ next ⟨status', hfiled', hiff⟩
      refine ⟨status', hfiled', hiff.trans ?_⟩
      rw [if_pos hmoves]
      refine Iff.trans ?_ (or_iff_right hlogged).symm
      by_cases hwrites : Writes completion .progress (findAccesses start taskId) <;>
        simp [hwrites, hprogress, stateName]
    · refine (filed_throughProgress hfiled).mono ?_ fun _ _ h => h
      rintro _ next ⟨status', hfiled', hiff⟩
      exact ⟨status', hfiled', hiff.trans (by rw [if_neg hmoves])⟩

/-- Unless there is nothing to review, the task is moved. -/
theorem filed_moveTaskToReview
    (h : Filed start taskId path status branch commit daemon.disk.board) :
    After (moveTaskToReview settings completion taskId) daemon
      (fun moved next => moved = true →
        ∃ status', Filed start taskId path status' branch commit next.disk.board ∧
          (status' = "review" ↔ GoesToReview completion (findAccesses start taskId) status))
      (fun _ _ => True) := by
  unfold moveTaskToReview
  cases completion.reviewCommits with
  | error error => trivial
  | ok commitsAhead =>
    rw [after_bind, after_orFail_ok]
    split
    · cases completion.message settings.engineer with
      | error error => trivial
      | ok _ => exact nofun
    · simp only [after_bind, after_pure]
      refine (filed_transitionToReview h).mono ?_ fun _ _ h => h.elim
      rintro _ first ⟨status', hfiled, hiff⟩
      exact (filed_assignReviewOwner hfiled).mono (fun _ next hnext _ => ⟨status', hnext, hiff⟩)
        fun _ _ h => h.elim

/-- The packet is of the branch and the head commit. -/
theorem filed_recordCompletionPacketMetadata
    (h : Filed start taskId path status branch commit daemon.disk.board) (packetBranch : String) :
    After (recordCompletionPacketMetadata settings completion taskId packetBranch) daemon
      (fun _ next => ∃ head, completion.headCommit = .ok head ∧
        Filed start taskId path status (some packetBranch) (some head) next.disk.board)
      (fun _ _ => True) := by
  obtain ⟨task, htask, rfl⟩ := h.task
  unfold recordCompletionPacketMetadata
  rw [after_onBoard_iff]
  simp only [after_bind]
  refine (after_findTaskPath taskId).mono ?_ fun _ _ _ => trivial
  rintro path' disk₁ ⟨h₁, hpath'⟩
  obtain rfl := Option.some.inj (hpath'.symm.trans h.findPath)
  cases completion.packetTarget with
  | error error => trivial
  | ok _ =>
    rw [after_orFail_ok]
    refine (after_readWorkflowMetadata path' disk₁).mono (fun metadata disk₂ h₂ => ?_)
      fun _ _ _ => trivial
    cases hhead : completion.headCommit with
    | error error => trivial
    | ok head =>
      rw [after_orFail_ok]
      refine (after_updateTaskFrontmatter path' _).mono (fun _ disk₃ h₃ => ?_) fun _ _ _ => trivial
      refine ⟨head, rfl, ?_⟩
      rw [h₃.board, h₂, h₁.board]
      exact filed_metadata h.findPath h.accesses htask
        (packetEdit settings packetBranch head metadata) rfl rfl rfl

/-! ### What passes is on file -/

/-- The task is on file with the status, the branch and the commit it had on `start`. -/
def FiledAsFound (start : Board) (taskId : Nat) (board : Board) : Prop :=
  ∃ path task record, start.findPath taskId = some path ∧ start.taskAt path = some task ∧
    start.recordAt path = some record ∧
    Filed start taskId path task.status record.branch record.commit board

/-- A snapshot of tests that have passed leaves the branch and the commit as they were. -/
theorem filed_persistSnapshot (report : VerificationReport) (hpassed : report.passed = true) :
    After (persistSnapshot completion taskId report (reportEdit report)) daemon
      (fun _ next => FiledAsFound daemon.disk.board taskId next.disk.board)
      (fun _ _ => True) := by
  unfold persistSnapshot
  cases completion.report with
  | error error => trivial
  | ok _ =>
    simp only [after_bind, after_orFail_ok, after_modify]
    rw [after_onBoard_iff]
    simp only [after_bind]
    refine (after_findTaskPath taskId).mono ?_ fun _ _ _ => trivial
    rintro path disk₁ ⟨h₁, hpath⟩
    cases completion.target with
    | error error => trivial
    | ok _ =>
      rw [after_orFail_ok]
      simp only [readWorkflowMetadata, after_bind, after_get]
      refine (after_access _ disk₁).mono (fun _ disk₂ h₂ => ?_) fun _ _ _ => trivial
      have hboard : disk₂.board = daemon.disk.board := h₂.board.trans h₁.board
      rw [hboard]
      cases hrecord : daemon.disk.board.recordAt path with
      | none =>
        rw [Board.recordAt] at hrecord
        rw [hrecord]
        trivial
      | some record =>
        rw [Board.recordAt] at hrecord
        rw [hrecord, after_pure]
        refine (after_updateTaskFrontmatter path _).mono (fun _ disk₃ h₃ => ?_)
          fun _ _ _ => trivial
        obtain ⟨task, htask, -⟩ := Board.exists_taskAt hpath
        refine ⟨path, task, record, hpath, htask, hrecord, ?_⟩
        rw [h₃.board, hboard]
        exact filed_metadata hpath rfl htask (reportEdit report record) rfl rfl
          (congrArg some hpassed)

/-- A completion that is accepted is on file with what it had, and its branch is found. -/
theorem filed_acceptVerification {run : VerificationRunResult} (hpassed : run.passed = true)
    (state : VerificationState) :
    After (acceptVerification settings completion taskId run state) daemon
      (fun accepted next => completion.branch = .ok accepted ∧
        FiledAsFound daemon.disk.board taskId next.disk.board)
      (fun _ _ => True) := by
  simp only [acceptVerification, forgetNarration, after_bind, after_modify]
  refine (filed_persistSnapshot _ hpassed).mono ?_ fun _ _ _ => trivial
  rintro _ snapshot hfiled
  cases completion.branch with
  | error error => trivial
  | ok branch =>
    rw [after_orFail_ok, after_onBoard_iff]
    simp only [after_bind]
    refine (after_findTaskPath taskId).mono ?_ fun _ _ _ => trivial
    rintro path' disk₁ ⟨h₁, -⟩
    rw [after_discard]
    refine (after_readWorkflowMetadata path' disk₁).mono (fun _ disk₂ h₂ => ?_) fun _ _ _ => trivial
    cases completion.telemetry with
    | error error => trivial
    | ok _ =>
      refine ⟨rfl, ?_⟩
      rw [show disk₂.board = snapshot.disk.board from h₂.trans h₁.board]
      exact hfiled

/-- Where the verification of a completion that has passed leaves the task. -/
theorem filed_verifyTask :
    After (verifyTask settings completion taskId) daemon
      (fun accepted next => ∀ branch run, accepted = some (branch, run) → run.passed = true ∧
        completion.branch = .ok branch ∧ FiledAsFound daemon.disk.board taskId next.disk.board)
      (fun _ _ => True) := by
  simp only [verifyTask, inspectWorktree_eq, after_bind]
  cases findingsOf completion with
  | error error => trivial
  | ok findings =>
    simp only [after_orFail_ok, takeVerification, after_bind, after_get, after_set, after_pure]
    cases hfence : completion.scopeFence with
    | error error => trivial
    | ok fence =>
      simp only [after_orFail_ok]
      refine (moves_revertOutOfScope (R := Eq) fence _).mono ?_ fun _ _ _ => trivial
      rintro _ _ rfl
      refine (after_verifyCompletion hfence _).mono ?_ fun _ _ _ => trivial
      rintro ⟨run, state⟩ _ ⟨rfl, -⟩
      unfold judgeRun
      dsimp only
      split
      · rw [after_bind]
        exact (after_run _ _).mono (fun _ _ _ _ _ h => by cases h) fun _ _ _ => trivial
      · split
        · rw [after_bind]
          exact (after_run _ _).mono (fun _ _ _ _ _ h => by cases h) fun _ _ _ => trivial
        · rename_i hjudged
          simp only [Bool.or_eq_true, Bool.not_eq_true', not_or, Bool.not_eq_false] at hjudged
          rw [after_bind]
          refine (filed_acceptVerification hjudged.2 _).mono ?_ fun _ _ _ => trivial
          rintro branch next ⟨hbranch, hfiled⟩ branch' run' heq
          obtain ⟨rfl, rfl⟩ := Prod.mk.inj (Option.some.inj heq)
          exact ⟨hjudged.2, hbranch, hfiled⟩

end

end CompletionDaemon

end Batty
