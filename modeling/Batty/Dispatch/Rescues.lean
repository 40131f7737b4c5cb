import Batty.Dispatch.Active

/-!
# Active items while reconciliation goes on

Reconciliation works on tasks that it read some edits ago. What it writes itself in between takes
claims off, puts tasks back to `todo` or blocks them, so that a claim in the tasks that were read
is still the claim on the board, or there is none any more (`Board.Follows`). Almost all of its
edits are harmless for that reason. The exception is the rescue of a task in review, which moves
the task before its claim is taken off (`Daemon.Rescues`).
-/

namespace Batty

/-! ### Tasks that were read -/

/-- The tasks were read some edits ago: edits of each go to its file, where it has gone on as `T`
says. -/
def Board.Follows (T : Task → Task → Prop) (tasks : List Task) (board : Board) : Prop :=
  ∀ task ∈ tasks, board.findPath task.id = some task.sourcePath ∧ ∃ held ∈ board.tasks, T task held

section

variable {T T' : Task → Task → Prop} {tasks : List Task} {task : Task} {engineer : String}
  {board board' : Board}

theorem Board.Distinct.follows [IsPreorder Task T] (h : board.Distinct)
    (htasks : tasks ⊆ board.tasks) : board.Follows T tasks := fun task hmem =>
  ⟨h task (htasks hmem), task, htasks hmem, refl_of T task⟩

theorem Board.Distinct.eq_of_id {other : Task} (h : board.Distinct) (hmem : task ∈ board.tasks)
    (hother : other ∈ board.tasks) (hid : other.id = task.id) : other = task := by
  have hpath := h other hother
  rw [hid, h task hmem] at hpath
  have htask := Board.taskAt_sourcePath hmem
  rw [Option.some.inj hpath, Board.taskAt_sourcePath hother] at htask
  exact Option.some.inj htask

theorem Board.Follows.goes [IsPreorder Task T] (h : board.Follows T tasks)
    (hgoes : board.Goes T engineer board') : board'.Follows T tasks := by
  intro task hmem
  obtain ⟨hpath, held, hheld, ht⟩ := h task hmem
  obtain ⟨held', hheld', ht'⟩ := hgoes.task held hheld
  exact ⟨(hgoes.findPath _).trans hpath, held', hheld', trans_of T ht ht'⟩

theorem Board.Follows.mono (h : board.Follows T tasks)
    (hT : ∀ task ∈ tasks, ∀ held, T task held → T' task held) : board.Follows T' tasks := by
  intro task hmem
  obtain ⟨hpath, held, hheld, ht⟩ := h task hmem
  exact ⟨hpath, held, hheld, hT task hmem held ht⟩

/-- Where the edits of the task go, there is what has become of it. -/
theorem Board.Follows.exists_held (h : board.Follows T tasks) (hmem : task ∈ tasks)
    (hT : ∀ held, T task held → task.Unclaims held) :
    board.findPath task.id = some task.sourcePath ∧ ∃ held ∈ board.tasks,
      board.taskAt task.sourcePath = some held ∧ T task held := by
  obtain ⟨hpath, held, hheld, ht⟩ := h task hmem
  refine ⟨hpath, held, hheld, ?_, ht⟩
  rw [← (hT held ht).sourcePath]
  exact Board.taskAt_sourcePath hheld

end

theorem after_loadBoardTasks {daemon : Daemon} : After loadBoardTasks daemon
    (fun tasks daemon' => daemon'.disk.board = daemon.disk.board ∧
      tasks ⊆ daemon.disk.board.tasks)
    (fun _ daemon' => daemon'.disk.board = daemon.disk.board) := by
  rw [loadBoardTasks, after_bind]
  refine (after_ask _ daemon).mono (fun found mid hmid => ?_) fun _ _ h => h.board
  split
  · refine after_onDisk_loadTasks.mono ?_ fun _ _ h => h.board.trans hmid.1.board
    rintro tasks daemon' ⟨hreads, rfl⟩
    refine ⟨hreads.board.trans hmid.1.board, ?_⟩
    rw [hmid.1.board]
    exact List.Subset.refl _
  · exact ⟨hmid.1.board, List.nil_subset _⟩

/-! ### Stale entries -/

/-- The ids of the tasks that are finished. -/
def finishedIds (tasks : List Task) : List Nat :=
  (tasks.filter fun task => depStatusSatisfied task.status).map Task.id

theorem staleReason_finished {members : List MemberInstance} {tasks : List Task} {engineer : String}
    {taskId : Nat} {reason : StaleReason}
    (h : staleReason members tasks engineer taskId = some reason)
    (hreason : reason = .done ∨ reason = .archived) : taskId ∈ finishedIds tasks := by
  unfold staleReason at h
  split at h
  · cases Option.some.inj h
    rcases hreason with h | h <;> cases h
  · rename_i task hfind
    have hid : task.id = taskId := by simpa using List.find?_some hfind
    have hmem := List.mem_of_find?_eq_some hfind
    suffices hfinished : depStatusSatisfied task.status = true from
      List.mem_map.mpr ⟨task, List.mem_filter.mpr ⟨hmem, hfinished⟩, hid⟩
    rw [depStatusSatisfied, Bool.or_eq_true, decide_eq_true_eq, decide_eq_true_eq]
    by_cases hdone : task.status = "done"
    · exact .inl hdone
    by_cases harchived : task.status = "archived"
    · exact .inr harchived
    simp only [hdone, harchived, if_false] at h
    split at h
    · cases Option.some.inj h
      rcases hreason with h | h <;> cases h
    split at h
    · cases Option.some.inj h
      rcases hreason with h | h <;> cases h
    split at h
    · cases Option.some.inj h
      rcases hreason with h | h <;> cases h
    · cases h

section

variable {engineer : String} {ids : List Nat}

theorem goes_reportPreserveFailure (name : String) (taskId : Nat) (context detail : String) :
    Moves (Daemon.Goes (Task.Cleared [taskId]) engineer)
      (reportPreserveFailure name (some taskId) context detail) := by
  refine moves_get.bind fun daemon => ?_
  refine (moves_suppressRecentEscalation _ _).toQuiet.goes.bind fun suppressed => ?_
  split
  · exact moves_pure _
  · refine Moves.bind ?_ fun _ => (moves_notifyPreserveFailure _ _).toQuiet.goes
    exact (goes_onDisk (goes_rewriteTask _ (harmless_block _ _))).attempt.map

theorem goes_preserveLane (name : String) {taskId : Nat} {reason : StaleReason}
    (h : reason = .done ∨ reason = .archived → taskId ∈ ids) :
    Moves (Daemon.Goes (Task.Cleared ids) engineer) (preserveLane name taskId reason) := by
  unfold preserveLane
  split
  · rename_i hfinished
    refine (moves_ask _).toQuiet.goes.bind fun found => ?_
    split
    · refine (moves_ask _).toQuiet.goes.bind fun result => ?_
      cases result with
      | ok _ => exact moves_pure _
      | error error =>
        refine ((goes_reportPreserveFailure _ _ _ _).goes_mono fun _ _ hcleared =>
          hcleared.mono ?_).bind fun _ => moves_pure _
        have hmem := h (by simpa using hfinished)
        simpa using hmem
    · exact moves_pure _
  · exact moves_pure _

theorem goes_releaseStaleClaim (taskId : Nat) (reason : StaleReason) :
    Moves (Daemon.Goes (Task.Cleared ids) engineer) (releaseStaleClaim taskId reason) := by
  unfold releaseStaleClaim
  split
  · refine (goes_onDisk (goes_editTask ?_)).bind fun _ => moves_pure _
    exact (harmless_releaseClaim taskId).mono fun _ _ _ hcleared =>
      hcleared.mono (List.nil_subset _)
  · exact moves_pure _

variable {T : Task → Task → Prop} [IsPreorder Task T]

theorem goes_recordTaskRescue (taskId : Nat) :
    Moves (Daemon.Goes T engineer) (recordTaskRescue taskId) :=
  moves_now.toQuiet.goes.bind fun _ => moves_modify fun _ => Daemon.goes_of_board_eq rfl

theorem goes_noteStaleRelease (name : String) (taskId : Nat) (reason : StaleReason) :
    Moves (Daemon.Goes T engineer) (noteStaleRelease name taskId reason) := by
  unfold noteStaleRelease
  split
  · exact moves_now.toQuiet.goes.bind fun _ => moves_modify fun _ => Daemon.goes_of_board_eq rfl
  · exact moves_pure _

theorem goes_clearStale {stale : String × Nat × StaleReason}
    (h : stale.2.2 = .done ∨ stale.2.2 = .archived → stale.2.1 ∈ ids) (released : Bool) :
    Moves (Daemon.Goes (Task.Cleared ids) engineer) (clearStale released stale) := by
  obtain ⟨name, taskId, reason⟩ := stale
  refine (goes_preserveLane _ h).bind fun preserved => ?_
  split
  · refine (goes_releaseStaleClaim _ _).bind fun releases => ?_
    exact (goes_noteStaleRelease _ _ _).bind fun _ =>
      (moves_clearActiveTask _).goes.bind fun _ => moves_pure _
  · exact moves_pure _

end

section

variable {daemon : Daemon} {tasks : List Task} {engineer : String}

/-- **Stale entries** are cleared without harm. What is blocked is finished. -/
theorem after_clearStaleTasks (hdistinct : daemon.disk.board.Distinct)
    (htasks : tasks ⊆ daemon.disk.board.tasks) : After (clearStaleTasks tasks) daemon
      (fun tasks' daemon' => daemon.Goes Task.Any engineer daemon' ∧
        daemon'.disk.board.Follows Task.Recedes tasks')
      (fun _ daemon' => daemon.Goes Task.Any engineer daemon') := by
  simp only [clearStaleTasks, after_bind, after_get]
  have hloop : Moves (Daemon.Goes (Task.Cleared (finishedIds tasks)) engineer)
      ((staleActiveTasks daemon tasks).foldlM clearStale false) := by
    refine moves_foldlM_of_mem (fun stale hmem released => goes_clearStale ?_ released) false
    obtain ⟨entry, -, hstale⟩ := List.mem_filterMap.mp hmem
    obtain ⟨reason, hreason, rfl⟩ := Option.map_eq_some_iff.mp hstale
    exact staleReason_finished hreason
  refine (hloop daemon).mono (fun released mid hmid => ?_)
    fun _ _ h => h.mono fun _ _ _ _ => trivial
  have hany : daemon.Goes Task.Any engineer mid := hmid.mono fun _ _ _ _ => trivial
  split
  · refine after_loadBoardTasks.mono (fun tasks' last hlast => ?_) fun _ last hlast =>
      trans_of (Daemon.Goes Task.Any engineer) hany (Daemon.goes_of_board_eq hlast)
    refine ⟨trans_of (Daemon.Goes Task.Any engineer) hany (Daemon.goes_of_board_eq hlast.1), ?_⟩
    rw [hlast.1]
    exact (hany.distinct hdistinct).follows hlast.2
  · refine ⟨hany, ((hdistinct.follows htasks).goes hmid).mono fun task hmem held hcleared => ?_⟩
    refine ⟨hcleared.toUnclaims, hcleared.status.imp_right fun hid => .inr ?_⟩
    obtain ⟨other, hother, hid⟩ := List.mem_map.mp hid
    obtain ⟨hother, hfinished⟩ := List.mem_filter.mp hother
    rwa [hdistinct.eq_of_id (htasks hmem) (htasks hother) hid] at hfinished

end

/-! ### Ownership -/

/-- A claimed task that could not be aligned is one of these, and under way if it is out of
attempts. -/
def LaneFailure.Concerns (failure : LaneFailure) (tasks : List Task) : Prop :=
  failure.task ∈ tasks ∧ (failure.exhausted = true → failure.task.status = "in-progress")

section

variable {daemon : Daemon} {tasks : List Task} {task : Task} {name engineer : String}

/-- Only attempts at a task under way are counted. -/
theorem after_countBranchMismatch : After (countBranchMismatch name task) daemon
    (fun exhausted _ => exhausted = true → task.status = "in-progress") (fun _ _ => True) := by
  unfold countBranchMismatch
  split
  · exact nofun
  · rename_i hstatus
    simp only [after_bind, after_get, setRetryCount, after_modify, after_pure]
    exact fun _ => not_not.mp hstatus

theorem after_alignLane (currentBranch : String) (hmem : task ∈ tasks) :
    After (alignLane name task currentBranch) daemon
      (fun found _ => ∀ failure ∈ found, failure.Concerns tasks) (fun _ _ => True) := by
  simp only [alignLane, after_bind]
  refine (moves_alignBranch _ _ daemon).mono (fun reason mid _ => ?_) fun _ _ _ => trivial
  cases reason with
  | none => simp
  | some reason =>
    simp only [after_bind, after_pure]
    refine after_countBranchMismatch.mono (fun exhausted _ hstatus => ?_) fun _ _ _ => trivial
    simpa [LaneFailure.Concerns] using ⟨hmem, hstatus⟩

theorem after_auditOwnership {claimed : List Task} (keptId : Nat) (auditDue : Bool) :
    After (auditOwnership name claimed keptId auditDue) daemon
      (fun found _ => ∀ failure ∈ found, failure.Concerns claimed) (fun _ _ => True) := by
  unfold auditOwnership
  split
  · split
    · rename_i task hfind
      have hmem := List.mem_of_find?_eq_some hfind
      simp only [maybeAlignEngineerWorktreeWithTask, after_bind, after_get]
      split
      · rw [after_bind]
        refine (after_ask _ daemon).mono (fun found mid _ => ?_) fun _ _ _ => trivial
        split
        · rw [after_bind]
          refine (after_ask _ mid).mono (fun branch last _ => ?_) fun _ _ _ => trivial
          cases branch with
          | error error => simp
          | ok branch => exact after_alignLane branch hmem
        · simp
      · simp
    · simp
  · simp

theorem goes_reclaimExcess (keptId : Nat) (released : Bool) (task : Task) :
    Moves (Daemon.Goes Task.Recedes engineer) (reclaimExcess name keptId released task) := by
  refine moves_readEvidence.toQuiet.goes.bind fun evidence => ?_
  split
  · exact moves_pure _
  · exact (goes_onDisk (goes_rewriteTask _ (harmless_reclaim _ _))).bind fun _ => moves_pure _

/-- Claims beyond the one that is kept are given up without harm. -/
theorem after_normalizeEngineerActiveTaskOwnership (tasks : List Task) (auditDue : Bool) :
    After (normalizeEngineerActiveTaskOwnership tasks name auditDue) daemon
      (fun result daemon' => daemon.Goes Task.Recedes engineer daemon' ∧
        ∀ failure ∈ result.2, failure.Concerns tasks)
      (fun _ daemon' => daemon.Goes Task.Recedes engineer daemon') := by
  let R := Daemon.Goes Task.Recedes engineer
  unfold normalizeEngineerActiveTaskOwnership
  split
  · exact ⟨refl_of R daemon, by simp⟩
  · rename_i first rest hclaimed
    have hsubset : first :: rest ⊆ tasks := hclaimed ▸ List.filter_subset_self _
    simp only [after_bind, after_get, after_pure]
    refine ((moves_ask _).toQuiet.goes daemon).mono (fun calendar mid hmid => ?_) fun _ _ h => h
    refine ((moves_setActiveTask _ _).goes mid).mono (fun _ next hnext => ?_)
      fun _ _ h => trans_of R hmid h
    have hnext := trans_of R hmid hnext
    refine (moves_foldlM (goes_reclaimExcess _) _ _ next).mono (fun released last hlast => ?_)
      fun _ _ h => trans_of R hnext h
    have hlast := trans_of R hnext hlast
    refine (((moves_auditOwnership _ _ _ _).goes last).and (after_auditOwnership _ _)).mono
      (fun failure daemon' h => ⟨trans_of R hlast h.1, fun found hfound => ?_⟩)
        fun _ _ h => trans_of R hlast h.1
    exact ⟨hsubset (h.2 found hfound).1, (h.2 found hfound).2⟩

/-- A claimed task under way is still there for its engineer to have, or unclaimed. -/
theorem Board.safeFor_of_recedes {board : Board} {held : Task} (h : task.Recedes held)
    (hstatus : task.status = "in-progress") : board.SafeFor held engineer := by
  intro hclaim
  left
  rcases h.status with hsame | htodo | hfinished
  · simp [Task.isActiveFor, hsame, hstatus, hclaim]
  · simp [Task.isActiveFor, htodo, hclaim]
  · rw [hstatus] at hfinished
    cases hfinished

theorem after_settleLane {failure : Option LaneFailure}
    (hfollows : daemon.disk.board.Follows Task.Recedes tasks)
    (hconcerns : ∀ found ∈ failure, found.Concerns tasks) :
    After (settleLane name failure) daemon
      (fun _ daemon' => daemon.Goes Task.Recedes engineer daemon')
      (fun _ daemon' => daemon.Goes Task.Recedes engineer daemon') := by
  let R := Daemon.Goes Task.Recedes engineer
  cases failure with
  | none => exact refl_of R daemon
  | some failure =>
    obtain ⟨hmem, hstatus⟩ := hconcerns failure rfl
    rw [settleLane, settleLaneFailure]
    split
    · rename_i hexhausted
      obtain ⟨hpath, held, -, hheld, hrecedes⟩ :=
        hfollows.exists_held hmem fun _ h => h.toUnclaims
      have hsafe : daemon.disk.board.SafeFor held engineer :=
        Board.safeFor_of_recedes hrecedes (hstatus hexhausted)
      rw [after_bind, after_onDisk]
      refine (after_giveBackTask_goes hpath hheld hsafe).mono (fun _ disk hdisk => ?_)
        fun _ _ h => h
      have hrest : Moves R (do
          clearActiveTask name
          setRetryCount (orphanBranchMismatchKey name failure.task.id) none
          alertClaimedTaskBranchMismatch name failure.mismatch failure.reason) :=
        (moves_clearActiveTask _).goes.bind fun _ => (moves_setRetryCount _ _).goes.bind fun _ =>
          (moves_alertClaimedTaskBranchMismatch _ _ _).goes
      have hdisk : R daemon { daemon with disk } := hdisk
      exact (hrest _).mono (fun _ _ h => trans_of R hdisk h) fun _ _ h => trans_of R hdisk h
    · exact (moves_alertClaimedTaskBranchMismatch _ _ _).goes daemon

/-- **One round over the engineers** does no harm. -/
theorem after_normalizeEngineer (auditDue : Bool) (hdistinct : daemon.disk.board.Distinct)
    (hfollows : daemon.disk.board.Follows Task.Recedes tasks) :
    After (normalizeEngineer auditDue tasks name) daemon
      (fun tasks' daemon' => daemon.Goes Task.Recedes engineer daemon' ∧
        daemon'.disk.board.Follows Task.Recedes tasks')
      (fun _ daemon' => daemon.Goes Task.Recedes engineer daemon') := by
  let R := Daemon.Goes Task.Recedes engineer
  simp only [normalizeEngineer, after_bind]
  refine (after_normalizeEngineerActiveTaskOwnership tasks auditDue).mono ?_ fun _ _ h => h
  rintro ⟨released, failure⟩ mid ⟨hmid, hconcerns⟩
  refine (after_settleLane (hfollows.goes hmid) hconcerns).mono (fun _ last hlast => ?_)
    fun _ _ h => trans_of R hmid h
  have hlast := trans_of R hmid hlast
  dsimp only
  split
  · refine after_loadBoardTasks.mono (fun tasks' daemon' h => ?_)
      fun _ _ h => trans_of R hlast (Daemon.goes_of_board_eq h)
    refine ⟨trans_of R hlast (Daemon.goes_of_board_eq h.1), ?_⟩
    rw [h.1]
    exact (hlast.distinct hdistinct).follows h.2
  · exact ⟨hlast, hfollows.goes hlast⟩

end

/-! ### Rescues -/

/-- Reconciliation up to the rescues: the tasks they go through, and the ids that are tracked. -/
def reconciledTasks : Action (List Task × List Nat) := do
  let tasks ← loadBoardTasks
  let auditDue ← stateReconciliationAuditDue
  let tasks ← clearStaleTasks tasks
  let engineers := (← get).config.engineerNames
  let tasks ← engineers.foldlM (normalizeEngineer auditDue) tasks
  let tracked := (← get).activeTasks.entries.map Sigma.snd
  return (tasks, tracked)

theorem reconcileActiveTasks_eq : reconcileActiveTasks = (do
    let (tasks, tracked) ← reconciledTasks
    tasks.foldlM (fun _ task => rescueReview tracked task) ()
    tasks.foldlM (fun _ task => rescueInProgress tracked task) ()) := by
  simp only [reconcileActiveTasks, reconciledTasks, bind_assoc, pure_bind]

/-- The pass comes to rescue the task, which is in review without a reviewer and not tracked, and
has been there for a while. -/
def Daemon.Rescues (daemon : Daemon) (task : Task) (mid : Daemon) : Prop :=
  ∃ tasks tracked start rest, reconciledTasks daemon = .ok (tasks, tracked) start ∧
    Visits (fun _ task => rescueReview tracked task) tasks () start (task :: rest) () mid ∧
      task.status = "review" ∧ task.reviewOwner = none ∧ task.id ∉ tracked ∧
        (mid.outside.taskFileAgeSecs mid.asked task.sourcePath).any
          (· < reviewRescueGraceSecs) = false

/-- A review that is rescued is not the engineer's, or the engineer's only item, or no access
fails while it is moved. -/
def Daemon.SparesReviews (daemon : Daemon) (engineer : String) : Prop :=
  ∀ task mid, daemon.Rescues task mid → ∀ held ∈ mid.disk.board.tasks, held.id = task.id →
    mid.disk.board.SafeFor held engineer ∨ ¬ mid.disk.Trips 16

section

variable {daemon mid : Daemon} {tasks : List Task} {task : Task} {engineer : String}
  {tracked : List Nat}

theorem after_reconciledTasks (hdistinct : daemon.disk.board.Distinct) :
    After reconciledTasks daemon
      (fun result daemon' => daemon.Goes Task.Any engineer daemon' ∧
        daemon'.disk.board.Follows Task.Recedes result.1)
      (fun _ daemon' => daemon.Goes Task.Any engineer daemon') := by
  let R := Daemon.Goes Task.Any engineer
  simp only [reconciledTasks, after_bind, after_get, after_pure]
  refine after_loadBoardTasks.mono (fun tasks first hfirst => ?_)
    fun _ _ h => Daemon.goes_of_board_eq h
  have hgoes : R daemon first := Daemon.goes_of_board_eq hfirst.1
  refine (moves_stateReconciliationAuditDue first).mono (fun auditDue second hsecond => ?_)
    fun _ _ h => trans_of R hgoes (Daemon.goes_of_board_eq h.board)
  have hboard := hsecond.board.trans hfirst.1
  have hgoes : R daemon second := Daemon.goes_of_board_eq hboard
  have hsubset : tasks ⊆ second.disk.board.tasks := hboard ▸ hfirst.2
  refine (after_clearStaleTasks (hgoes.distinct hdistinct) hsubset).mono
    (fun tasks third hthird => ?_) fun _ _ h => trans_of R hgoes h
  have hgoes := trans_of R hgoes hthird.1
  refine after_foldlM
    (I := fun _ tasks mid => R daemon mid ∧ mid.disk.board.Follows Task.Recedes tasks)
    ⟨hgoes, hthird.2⟩ fun name names tasks mid hmid => ?_
  exact (after_normalizeEngineer auditDue (hmid.1.distinct hdistinct) hmid.2).mono
    (fun _ _ h => ⟨trans_of R hmid.1 (h.1.mono fun _ _ _ _ => trivial), h.2⟩)
      fun _ _ h => trans_of R hmid.1 (h.mono fun _ _ _ _ => trivial)

theorem after_rescueReview (hfollows : mid.disk.board.Follows Task.Unclaims tasks)
    (hmem : task ∈ tasks) (hsafe : task.status = "review" → task.reviewOwner = none →
      task.id ∉ tracked → (mid.outside.taskFileAgeSecs mid.asked task.sourcePath).any
        (· < reviewRescueGraceSecs) = false → ∀ held ∈ mid.disk.board.tasks, held.id = task.id →
          mid.disk.board.SafeFor held engineer ∨ ¬ mid.disk.Trips 16) :
    After (rescueReview tracked task) mid
      (fun _ daemon' => mid.Goes Task.Unclaims engineer daemon')
      (fun _ daemon' => mid.Goes Task.Unclaims engineer daemon') := by
  let R := Daemon.Goes Task.Unclaims engineer
  unfold rescueReview
  split
  · rename_i hreview
    simp only [Bool.and_eq_true, decide_eq_true_eq, Option.isNone_iff_eq_none, Bool.not_eq_true',
      List.contains_eq_mem, decide_eq_false_iff_not] at hreview
    simp only [ask, after_bind, after_get, after_set, after_pure]
    split
    · exact Daemon.goes_of_board_eq rfl
    · rename_i hold
      obtain ⟨hpath, held, hheld, htaskAt, hunclaims⟩ := hfollows.exists_held hmem fun _ h => h
      have hpoint := hsafe hreview.1.1 hreview.1.2 hreview.2 (Bool.eq_false_iff.mpr hold)
        held hheld hunclaims.id
      rw [after_bind, after_onDisk]
      refine (after_returnReviewToTodo_goes hpath htaskAt hpoint).mono (fun _ disk hdisk => ?_)
        fun _ _ h => h
      have hdisk : R mid { mid with asked := mid.asked + 1, disk } := hdisk
      exact (goes_recordTaskRescue task.id _).mono (fun _ _ h => trans_of R hdisk h)
        fun _ _ h => trans_of R hdisk h
  · exact refl_of R mid

/-- What nobody has claimed is active for nobody, whatever its status becomes. -/
theorem after_rescueInProgress (hfollows : mid.disk.board.Follows Task.Unclaims tasks)
    (hmem : task ∈ tasks) : After (rescueInProgress tracked task) mid
      (fun _ daemon' => mid.Goes Task.Unclaims engineer daemon')
      (fun _ daemon' => mid.Goes Task.Unclaims engineer daemon') := by
  let R := Daemon.Goes Task.Unclaims engineer
  unfold rescueInProgress
  split
  · rename_i hunclaimed
    simp only [Bool.and_eq_true, decide_eq_true_eq, Option.isNone_iff_eq_none] at hunclaimed
    rw [after_bind]
    refine ((moves_isRepeatInCascade _).goes mid).mono (fun repeated next hnext => ?_)
      fun _ _ h => h
    split
    · have hblock : Moves R (blockCascading task) := by
        have hwrite : Moves R (onDisk (blockTaskWithReason task.id cascadeBlockReason)) :=
          goes_onDisk (goes_rewriteTask _ ((harmless_block _ _).mono fun _ _ _ h => h.toUnclaims))
        refine hwrite.attempt.bind fun result => ?_
        cases result with
        | ok _ => exact (moves_notifyCascade _).goes
        | error error => exact moves_pure _
      exact ((hblock.bind fun _ => goes_recordTaskRescue task.id) next).mono
        (fun _ _ h => trans_of R hnext h) fun _ _ h => trans_of R hnext h
    · obtain ⟨hpath, held, -, hheld, hunclaims⟩ :=
        (hfollows.goes hnext).exists_held hmem fun _ h => h
      have hsafe : next.disk.board.SafeFor held engineer := by
        intro hclaim
        rcases hunclaims.claimedBy with hsame | hnone
        · cases (hclaim.symm.trans hsame).trans hunclaimed.1.2
        · cases hclaim.symm.trans hnone
      have hshifted : ∀ disk : Disk,
          next.disk.board.Shifted ["todo"] task.sourcePath held disk.board →
          After (recordTaskRescue task.id) { next with disk } (fun _ daemon' => R mid daemon')
            (fun _ daemon' => R mid daemon') := by
        intro disk h
        have hdisk : R next { next with disk } := h.goes hheld (by simp)
          (fun hedit _ => hedit.toSameBrief.unclaims (.inl hedit.claimedBy)) hsafe
        exact (goes_recordTaskRescue task.id _).mono
          (fun _ _ h => trans_of R hnext (trans_of R hdisk h))
          fun _ _ h => trans_of R hnext (trans_of R hdisk h)
      have htodo : stateName .todo ∈ ["todo"] := by simp [stateName]
      rw [after_bind, after_attempt, after_onDisk]
      exact (after_transitionRescued_shifted (Board.shifted_refl hheld) hpath parseTaskState_todo
        htodo).mono (fun _ disk h => hshifted disk h) fun _ disk h => hshifted disk h
  · exact refl_of R mid

/-- **Reconciliation does no harm** to an engineer whose reviews are spared. -/
theorem after_reconcileActiveTasks (hdistinct : daemon.disk.board.Distinct)
    (hspares : daemon.SparesReviews engineer) : After reconcileActiveTasks daemon
      (fun _ daemon' => daemon.Goes Task.Any engineer daemon')
      (fun _ daemon' => daemon.Goes Task.Any engineer daemon') := by
  let R := Daemon.Goes Task.Any engineer
  rw [reconcileActiveTasks_eq, after_bind]
  refine ((after_run _ _).and (after_reconciledTasks hdistinct)).mono ?_ fun _ _ h => h.2
  rintro ⟨tasks, tracked⟩ start ⟨hrun, hstart, hfollows⟩
  have hfollows : start.disk.board.Follows Task.Unclaims tasks :=
    hfollows.mono fun _ _ _ h => h.toUnclaims
  dsimp only
  rw [after_bind]
  -- the tasks are those that were read, however far the rescues have come
  let I : List Task → Unit → Daemon → Prop := fun rest _ mid =>
    rest ⊆ tasks ∧ R daemon mid ∧ mid.disk.board.Follows Task.Unclaims tasks
  have hround : ∀ {rest : List Task} {mid : Daemon} {m : Action Unit}, rest ⊆ tasks →
      I rest () mid →
      After m mid (fun _ daemon' => mid.Goes Task.Unclaims engineer daemon')
        (fun _ daemon' => mid.Goes Task.Unclaims engineer daemon') →
      After m mid (fun _ daemon' => I rest () daemon') (fun _ daemon' => R daemon daemon') := by
    intro rest mid m hrest hpoint h
    have hany : ∀ daemon', mid.Goes Task.Unclaims engineer daemon' → R daemon daemon' :=
      fun daemon' h => trans_of R hpoint.2.1 (h.mono fun _ _ _ _ => trivial)
    exact h.mono (fun _ daemon' h => ⟨hrest, hany daemon' h, hpoint.2.2.goes h⟩)
      fun _ daemon' h => hany daemon' h
  refine (after_foldlM_visits (I := I) ⟨List.Subset.refl _, hstart, hfollows⟩ ?_).mono
    (fun _ middle hmiddle => ?_) fun _ _ h => h
  · intro task rest _ mid hvisits hpoint
    have hmem := hpoint.1 List.mem_cons_self
    refine hround (fun _ h => hpoint.1 (List.mem_cons_of_mem _ h)) ⟨?_, hpoint.2⟩
      (after_rescueReview hpoint.2.2 hmem fun hstatus howner huntracked hage =>
        hspares task mid ⟨_, _, _, _, hrun, hvisits, hstatus, howner, huntracked, hage⟩)
    exact fun _ h => hpoint.1 (List.mem_cons_of_mem _ h)
  · refine (after_foldlM (I := I) ⟨List.Subset.refl _, hmiddle.2⟩ ?_).mono
      (fun _ _ h => h.2.1) fun _ _ h => h
    intro task rest _ mid hpoint
    have hmem := hpoint.1 List.mem_cons_self
    refine hround (fun _ h => hpoint.1 (List.mem_cons_of_mem _ h)) ⟨?_, hpoint.2⟩
      (after_rescueInProgress hpoint.2.2 hmem)
    exact fun _ h => hpoint.1 (List.mem_cons_of_mem _ h)

end

end Batty
