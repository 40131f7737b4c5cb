import Mathlib.Data.List.Chain
import Batty.Board.Review

/-!
# The life cycle of a task

The statuses a task file goes through while commands are run on the board, one after the other,
any of which may fail half way.

**The rule.** `FollowsLifecycle` says of a list of statuses that each leads to the next by
`canTransition`; what is archived stays so, and what is done can only be archived.

**Who keeps it.** Transitions and reviews ask before they write, and the edits of owners,
dependencies, workflow fields and schedules leave the status alone. Two commands write a status
without asking: `blockTaskWithReason` and `reclaimTaskClaim`. The rule is kept by every run in
which these two find the task in a status that allows it (`followsLifecycle_of_findsAllowed`).
-/

namespace Batty

/-! ### Statuses -/

/-- The text of the status field. -/
def TaskFile.status (file : TaskFile) : Option String :=
  file.mapping.orDefault .status Value.asString "backlog"

theorem TaskFile.status_of_task {file : TaskFile} {task : Task} (h : file.task = some task) :
    file.status = some task.status :=
  (Task.parse_eq_some_iff.mp h).status

def Board.statusAt (board : Board) (path : String) : Option String :=
  (board.find? path).bind TaskFile.status

/-- The status stays as it is, or goes where it may go. -/
def StatusStep : Option String → Option String → Prop
  | some before, some after => before = after ∨ ∃ source target,
      parseTaskState before = .ok source ∧ parseTaskState after = .ok target ∧
        canTransition source target = .ok ()
  | none, none => True
  | _, _ => False

theorem StatusStep.refl (status : Option String) : StatusStep status status := by
  cases status with
  | none => trivial
  | some status => exact .inl rfl

def HasState (status : Option String) (state : TaskState) : Prop :=
  ∃ text, status = some text ∧ parseTaskState text = .ok state

/-- The statuses lead from one to the next; what is archived stays archived, and what is done
can only be archived. -/
structure FollowsLifecycle (statuses : List (Option String)) : Prop where
  steps : statuses.IsChain StatusStep
  archived : statuses.Pairwise fun before after =>
    HasState before .archived → HasState after .archived
  done : statuses.Pairwise fun before after =>
    HasState before .done → HasState after .done ∨ HasState after .archived

theorem canTransition_archived {target : TaskState}
    (h : canTransition .archived target = .ok ()) : target = .archived := by
  cases target <;> first | rfl | exact absurd h (by decide)

theorem canTransition_done {target : TaskState} (h : canTransition .done target = .ok ()) :
    target = .done ∨ target = .archived := by
  cases target <;> first | exact .inl rfl | exact .inr rfl | exact absurd h (by decide)

/-- A step out of a state is a step that the state allows. -/
theorem StatusStep.hasState {before after : Option String} {source : TaskState}
    (h : StatusStep before after) (hsource : HasState before source) :
    ∃ target, HasState after target ∧ canTransition source target = .ok () := by
  obtain ⟨text, rfl, hparse⟩ := hsource
  cases after with
  | none => exact h.elim
  | some text' =>
    rcases h with rfl | ⟨source', target, hparse', htarget, hallowed⟩
    · exact ⟨source, ⟨text, rfl, hparse⟩, by simp [canTransition]⟩
    · obtain rfl : source = source' := Except.ok.inj (hparse.symm.trans hparse')
      exact ⟨target, ⟨text', rfl, htarget⟩, hallowed⟩

/-- **The rule from its steps.** -/
theorem followsLifecycle_of_steps {statuses : List (Option String)}
    (h : statuses.IsChain StatusStep) : FollowsLifecycle statuses := by
  -- a relation that is transitive and holds of every step holds of any two statuses of the path
  let Later (before after : Option String) : Prop :=
    (HasState before .archived → HasState after .archived) ∧
      (HasState before .done → HasState after .done ∨ HasState after .archived)
  have hlater : statuses.IsChain Later := by
    refine h.imp fun before after hstep => ⟨fun harchived => ?_, fun hdone => ?_⟩
    · obtain ⟨target, htarget, hallowed⟩ := hstep.hasState harchived
      exact canTransition_archived hallowed ▸ htarget
    · obtain ⟨target, htarget, hallowed⟩ := hstep.hasState hdone
      rcases canTransition_done hallowed with rfl | rfl
      · exact .inl htarget
      · exact .inr htarget
  have : Trans Later Later Later := ⟨fun h h' =>
    ⟨fun harchived => h'.1 (h.1 harchived), fun hdone => (h.2 hdone).elim h'.2 (.inr ∘ h'.1)⟩⟩
  have hpairwise := List.isChain_iff_pairwise.mp hlater
  exact ⟨h, hpairwise.imp And.left, hpairwise.imp And.right⟩

/-! ### Edits and statuses -/

/-- The edit leaves the status alone. -/
def KeepsStatus (mutator : Mapping → Mapping) : Prop :=
  ∀ mapping, mutator mapping .status = mapping .status

/-- The edit sets the status. -/
def SetsStatus (mutator : Mapping → Mapping) (state : TaskState) : Prop :=
  ∀ mapping, mutator mapping .status = some (.string (stateName state))

theorem KeepsStatus.comp {mutator mutator' : Mapping → Mapping} (h : KeepsStatus mutator)
    (h' : KeepsStatus mutator') : KeepsStatus fun mapping => mutator' (mutator mapping) :=
  fun mapping => (h' _).trans (h mapping)

theorem SetsStatus.comp {mutator mutator' : Mapping → Mapping} {state : TaskState}
    (h : SetsStatus mutator state) (h' : KeepsStatus mutator') :
    SetsStatus (fun mapping => mutator' (mutator mapping)) state :=
  fun mapping => (h' _).trans (h mapping)

theorem TaskFile.status_update (file : TaskFile) (mutator : Mapping → Mapping) :
    (file.update mutator).status =
      (mutator file.mapping).orDefault .status Value.asString "backlog" :=
  Mapping.orDefault_congr (normalizeBlocked_apply _ (by simp [Key.IsBlockKey]))

theorem TaskFile.status_update_of_keeps (file : TaskFile) {mutator : Mapping → Mapping}
    (h : KeepsStatus mutator) : (file.update mutator).status = file.status := by
  rw [status_update]
  exact Mapping.orDefault_congr (h file.mapping)

theorem TaskFile.status_update_of_sets (file : TaskFile) {mutator : Mapping → Mapping}
    {state : TaskState} (h : SetsStatus mutator state) :
    (file.update mutator).status = some (stateName state) := by
  rw [status_update]
  simp [Mapping.orDefault, h file.mapping, Value.asString]

namespace Board

variable {board : Board} {path path' : String} {mutator : Mapping → Mapping}

theorem statusAt_update_of_ne (h : path' ≠ path) :
    (board.update path mutator).statusAt path' = board.statusAt path' := by
  simp only [statusAt, find?_update, if_neg h, Option.map_id']

theorem statusAt_update_of_keeps (h : KeepsStatus mutator) :
    (board.update path mutator).statusAt path' = board.statusAt path' := by
  rw [statusAt, statusAt, find?_update, Option.bind_map]
  refine Option.bind_congr fun file _ => ?_
  simp only [Function.comp_apply]
  split
  · exact file.status_update_of_keeps h
  · rfl

theorem statusAt_of_taskAt {task : Task} (h : board.taskAt path = some task) :
    board.statusAt path = some task.status := by
  obtain ⟨file, hfind, htask⟩ := Option.bind_eq_some_iff.mp h
  rw [statusAt, hfind]
  exact TaskFile.status_of_task htask

/-- **An edit that asked first.** Setting a status that the present one may lead to is a step. -/
theorem statusStep_update {taskId : Nat} {state : TaskState}
    (hallows : board.AllowsTransition taskId state) (hpath : board.findPath taskId = some path)
    (hsets : SetsStatus mutator state) :
    StatusStep (board.statusAt path') ((board.update path mutator).statusAt path') := by
  obtain ⟨path₀, task, current, hpath₀, htask, hcurrent, hallowed⟩ := hallows
  obtain rfl : path₀ = path := Option.some.inj (hpath₀.symm.trans hpath)
  by_cases h : path' = path₀
  · subst h
    have hafter : (board.update path' mutator).statusAt path' = some (stateName state) := by
      obtain ⟨file, hfind, -⟩ := Option.bind_eq_some_iff.mp htask
      simp only [statusAt, find?_update, hfind, if_pos, Option.map_some, Option.bind_some]
      exact file.status_update_of_sets hsets
    rw [statusAt_of_taskAt htask, hafter]
    exact .inr ⟨current, state, hcurrent, parseTaskState_stateName state, hallowed⟩
  · rw [statusAt_update_of_ne h]
    exact .refl _

end Board

/-- Every status is as before. -/
def Disk.KeepsStatuses (disk disk' : Disk) : Prop :=
  ∀ path, disk'.board.statusAt path = disk.board.statusAt path

/-- Every status has taken a step. -/
def Disk.StepsStatuses (disk disk' : Disk) : Prop :=
  ∀ path, StatusStep (disk.board.statusAt path) (disk'.board.statusAt path)

instance : IsPreorder Disk Disk.KeepsStatuses where
  refl _ _ := rfl
  trans _ _ _ h h' path := (h' path).trans (h path)

namespace Disk

variable {disk disk' disk'' : Disk}

theorem Leads.keeps (h : disk.Leads disk.board disk') : disk.KeepsStatuses disk' := fun path => by
  rw [h.board]

theorem KeepsStatuses.steps (h : disk.KeepsStatuses disk') : disk.StepsStatuses disk' :=
  fun path => by
    rw [h path]
    exact .refl _

/-- One status may take its step between two stretches in which none changes. -/
theorem StepsStatuses.between {disk₁ : Disk} (h : disk.KeepsStatuses disk₁)
    (hstep : disk₁.StepsStatuses disk') (h' : disk'.KeepsStatuses disk'') :
    disk.StepsStatuses disk'' := fun path => by
  rw [h' path, ← h path]
  exact hstep path

theorem Edits.keeps {taskId : Nat} {mutator : Mapping → Mapping}
    (h : disk.Edits taskId mutator disk') (hkeeps : KeepsStatus mutator) :
    disk.KeepsStatuses disk' := by
  obtain ⟨path, -, hleads⟩ := h
  intro path'
  rw [hleads.board, Board.statusAt_update_of_keeps hkeeps]

theorem Edits.steps {taskId : Nat} {mutator : Mapping → Mapping} {state : TaskState}
    (h : disk.Edits taskId mutator disk') (hallows : disk.board.AllowsTransition taskId state)
    (hsets : SetsStatus mutator state) : disk.StepsStatuses disk' := by
  obtain ⟨path, hpath, hleads⟩ := h
  intro path'
  rw [hleads.board]
  exact Board.statusStep_update hallows hpath hsets

end Disk

/-! ### Which edits touch the status -/

theorem keepsStatus_clearBlocked : KeepsStatus clearBlocked := fun mapping => by
  simp [clearBlocked]

theorem keepsStatus_setBlockedReason (reason blockedOn : Option String) :
    KeepsStatus (setBlockedReason reason blockedOn) := fun _ =>
  setBlockedReason_apply _ _ _ (by simp [Key.IsBlockKey])

theorem keepsStatus_setOptionalString (key : Key) (value : Option String) (h : key ≠ .status) :
    KeepsStatus fun mapping => mapping.setOptionalString key value := fun _ =>
  Mapping.setOptionalString_of_ne _ _ h.symm

theorem keepsStatus_setFeedback (feedback : Option String) : KeepsStatus (setFeedback feedback) := by
  intro mapping
  cases feedback with
  | none => rfl
  | some text => exact keepsStatus_setOptionalString _ (some text) (by simp) mapping

theorem keepsStatus_metadata (metadata : WorkflowRecord) :
    KeepsStatus (metadataMutator metadata) := fun mapping => by
  simp [metadataMutator]

theorem keepsStatus_releaseClaim : KeepsStatus releaseClaimMutator := fun mapping =>
  releaseClaimMutator_apply mapping (by simp)

theorem keepsStatus_unclaim : KeepsStatus unclaimMutator :=
  keepsStatus_releaseClaim.comp (keepsStatus_setOptionalString .reviewOwner none (by simp))

theorem keepsStatus_assignOwners (now : String) (execOwner reviewOwner : Option String) :
    KeepsStatus (assignOwnersMutator now execOwner reviewOwner) := fun mapping => by
  cases execOwner <;> cases reviewOwner <;> simp [assignOwnersMutator, resetClaimTracking]

theorem keepsStatus_appendDependencies (dependencyIds : List Nat) :
    KeepsStatus (appendDependenciesMutator dependencyIds) := fun mapping =>
  appendDependenciesMutator_apply dependencyIds mapping (by simp)

theorem keepsStatus_updateBlock (fields : List (String × String)) :
    KeepsStatus (updateBlockMutator fields) := by
  have hclear : KeepsStatus fun mapping =>
      if (fields.lookup "clear_blocked").isSome then clearBlocked mapping else mapping := by
    intro mapping
    split
    · exact keepsStatus_clearBlocked mapping
    · rfl
  intro mapping
  unfold updateBlockMutator
  split
  · exact (keepsStatus_setBlockedReason _ _ _).trans (hclear mapping)
  · exact hclear mapping

theorem keepsStatus_schedule (at' cronExpr : Option String) (clear : Bool) :
    KeepsStatus (scheduleMutator at' cronExpr clear) := fun mapping => by
  cases clear <;> cases at' <;> cases cronExpr <;> simp [scheduleMutator]

theorem setsStatus_setStatus (state : TaskState) : SetsStatus (setStatus state) state :=
  fun mapping => Mapping.insert_self mapping _ _

theorem setsStatus_transition (state : TaskState) : SetsStatus (transitionMutator state) state :=
  transitionMutator_status state

theorem setsStatus_block (reason : String) : SetsStatus (blockMutator reason) .blocked :=
  (setsStatus_setStatus .blocked).comp (keepsStatus_setBlockedReason _ _)

theorem setsStatus_reclaim (nextAction : String) : SetsStatus (reclaimMutator nextAction) .todo :=
  fun mapping => setsStatus_setStatus .todo
    ((unclaimMutator mapping).setOptionalString .nextAction (some nextAction))

theorem setsStatus_review (state : TaskState) (feedback : Option String) :
    SetsStatus (reviewMutator state feedback) state :=
  ((setsStatus_setStatus state).comp keepsStatus_clearBlocked).comp
    (keepsStatus_setFeedback feedback)

theorem setsStatus_structured (now reviewer outcome : String) (state : TaskState)
    (feedback : Option String) :
    SetsStatus (structuredMutator now reviewer outcome state feedback) state := by
  let fields (mapping : Mapping) : Mapping :=
    ((mapping.setOptionalString (.other "review_disposition") (some outcome)).setOptionalString
      (.other "reviewed_by") (some reviewer)).setOptionalString (.other "reviewed_at") (some now)
  have hfields : KeepsStatus fields := fun mapping => by simp [fields]
  have hset : SetsStatus (fun mapping => setFeedback feedback (fields (setStatus state mapping)))
      state :=
    ((setsStatus_setStatus state).comp hfields).comp (keepsStatus_setFeedback feedback)
  intro mapping
  unfold structuredMutator
  split
  · exact (keepsStatus_setBlockedReason _ _ _).trans (hset mapping)
  · exact (keepsStatus_clearBlocked _).trans (hset mapping)

/-! ### Which commands touch a status -/

theorem keeps_access (failure : String) : Moves Disk.KeepsStatuses (access failure) := fun disk =>
  (after_access failure disk).mono (fun _ _ h => h.keeps) fun _ _ h => h.keeps

theorem keeps_findTaskPath (taskId : Nat) : Moves Disk.KeepsStatuses (findTaskPath taskId) :=
  fun _ => (after_findTaskPath taskId).mono (fun _ _ h => h.1.keeps) fun _ _ h => h.keeps

theorem keeps_taskFromFile (path : String) : Moves Disk.KeepsStatuses (taskFromFile path) :=
  fun _ => (after_taskFromFile path).mono (fun _ _ h => h.1.keeps) fun _ _ h => h.keeps

theorem keeps_updateTaskFrontmatter (path : String) {mutator : Mapping → Mapping}
    (h : KeepsStatus mutator) : Moves Disk.KeepsStatuses (updateTaskFrontmatter path mutator) := by
  intro disk
  refine (after_updateTaskFrontmatter path mutator).mono (fun _ disk' hleads path' => ?_)
    fun _ _ h => h.keeps
  rw [hleads.board, Board.statusAt_update_of_keeps h]

theorem keeps_editTask (taskId : Nat) {mutator : Mapping → Mapping} (h : KeepsStatus mutator) :
    Moves Disk.KeepsStatuses (editTask taskId mutator) := fun _ =>
  (after_editTask taskId mutator).mono (fun _ _ hedits => hedits.keeps h) fun _ _ h => h.keeps

theorem keeps_readWorkflowMetadata (path : String) :
    Moves Disk.KeepsStatuses (readWorkflowMetadata path) := by
  refine (keeps_access _).bind fun _ => moves_get.bind fun disk => ?_
  split
  · exact moves_pure _
  · exact moves_throw _

theorem keeps_recordOutcome (path outcome : String) (approved : Bool) :
    Moves Disk.KeepsStatuses (recordOutcome path outcome approved) :=
  (keeps_readWorkflowMetadata path).bind fun _ =>
    keeps_updateTaskFrontmatter path (keepsStatus_metadata _)

theorem keeps_assignTaskOwners (taskId : Nat) (execOwner reviewOwner : Option String) :
    Moves Disk.KeepsStatuses (assignTaskOwners taskId execOwner reviewOwner) := by
  unfold assignTaskOwners
  split
  · exact (moves_throw _).bind fun _ => moves_get.bind fun _ =>
      keeps_editTask _ (keepsStatus_assignOwners _ _ _)
  · exact moves_get.bind fun _ => keeps_editTask _ (keepsStatus_assignOwners _ _ _)

theorem keeps_cmdUpdate (taskId : Nat) (fields : List (String × String)) :
    Moves Disk.KeepsStatuses (cmdUpdate taskId fields) := by
  refine (moves_orFail _).bind fun _ => (keeps_findTaskPath taskId).bind fun path =>
    (keeps_readWorkflowMetadata path).bind fun metadata => Moves.bind ?_ fun _ => ?_
  · unfold updateMetadata
    dsimp only
    split
    · exact keeps_updateTaskFrontmatter path (keepsStatus_metadata _)
    · exact moves_pure _
  · unfold updateBlock
    split
    · exact keeps_updateTaskFrontmatter path (keepsStatus_updateBlock fields)
    · exact moves_pure _

theorem keeps_cmdSchedule (grammar : ScheduleGrammar) (taskId : Nat) (at' cronExpr : Option String)
    (clear : Bool) : Moves Disk.KeepsStatuses (cmdSchedule grammar taskId at' cronExpr clear) :=
  (moves_orFail _).bind fun _ => keeps_editTask taskId (keepsStatus_schedule at' cronExpr clear)

/-! ### Which commands ask first -/

variable {disk : Disk}

theorem Moves.steps {α : Type} {m : DiskAction α} (h : Moves Disk.KeepsStatuses m) :
    Moves Disk.StepsStatuses m := fun disk =>
  (h disk).mono (fun _ _ hkeeps => hkeeps.steps) fun _ _ hkeeps => hkeeps.steps

/-- The command found the task's file and read its status. -/
structure Board.Finds (board : Board) (taskId : Nat) (path : String) (task : Task)
    (current : TaskState) : Prop where
  found : board.findPath taskId = some path
  read : board.taskAt path = some task
  parsed : parseTaskState task.status = .ok current

theorem after_readTaskState (taskId : Nat) : After (readTaskState taskId) disk
    (fun (path, task, current) disk' => disk.Leads disk.board disk' ∧
      disk.board.Finds taskId path task current)
    (fun _ disk' => disk.Leads disk.board disk') := by
  rw [readTaskState, after_bind]
  refine (after_findTaskPath taskId).mono ?_ fun _ _ h => h
  intro path disk' ⟨h, hpath⟩
  rw [after_bind]
  refine (after_taskFromFile path).mono ?_ fun _ disk'' h' => ?_
  · intro task disk'' ⟨h', htask⟩
    rw [h.board] at h' htask
    rw [after_bind]
    cases hcurrent : parseTaskState task.status with
    | error error => exact (after_orFail_error error).mpr (h.trans h')
    | ok current => exact (after_orFail_ok current).mpr ⟨h.trans h', hpath, htask, hcurrent⟩
  · rw [h.board] at h'
    exact h.trans h'

/-- **Asking first.** A command that has read the status, checks the transition and writes it
takes a step, whatever it does to the other fields afterwards. -/
theorem steps_of_asks {α : Type} {taskId : Nat} {path : String} {task : Task}
    {current target : TaskState} {mutator : Mapping → Mapping} {rest : DiskAction α}
    (hfinds : disk.board.Finds taskId path task current) (hsets : SetsStatus mutator target)
    (hrest : Moves Disk.KeepsStatuses rest) :
    After (do
      orFail (canTransition current target)
      writeStatus path task target mutator
      rest) disk (fun _ => disk.StepsStatuses) (fun _ => disk.StepsStatuses) := by
  have hsame : disk.StepsStatuses disk := fun path => .refl _
  rw [after_bind]
  cases hallowed : canTransition current target with
  | error error => exact (after_orFail_error error).mpr hsame
  | ok _ =>
    have hallows : disk.board.AllowsTransition taskId target :=
      ⟨path, task, current, hfinds.found, hfinds.read, hfinds.parsed, hallowed⟩
    rw [after_orFail_ok, after_bind]
    refine (after_rewrite taskId mutator path _ _ hfinds.found).mono (fun _ disk' h => ?_)
      fun _ disk' h => ?_
    · exact (hrest disk').mono (fun _ _ hkeeps => (h.steps hallows hsets).between (refl disk) hkeeps)
        fun _ _ hkeeps => (h.steps hallows hsets).between (refl disk) hkeeps
    · exact h.elim (fun h => h.keeps.steps) fun h => h.steps hallows hsets

/-- A command that reads a status first is judged by what it does then. -/
theorem steps_of_readTaskState {α : Type} {taskId : Nat}
    {next : String × Task × TaskState → DiskAction α}
    (h : ∀ {disk : Disk} {path task current}, disk.board.Finds taskId path task current →
      After (next (path, task, current)) disk (fun _ => disk.StepsStatuses)
        (fun _ => disk.StepsStatuses)) :
    Moves Disk.StepsStatuses (readTaskState taskId >>= next) := by
  intro disk
  rw [after_bind]
  refine (after_readTaskState taskId).mono ?_ fun _ _ hleads => hleads.keeps.steps
  intro (path, task, current) disk' ⟨hleads, hfinds⟩
  rw [← hleads.board] at hfinds
  exact (h hfinds).mono (fun _ _ hsteps => hsteps.between hleads.keeps (refl _))
    fun _ _ hsteps => hsteps.between hleads.keeps (refl _)

theorem steps_cmdReview (taskId : Nat) (disposition : String) (feedback : Option String) :
    Moves Disk.StepsStatuses (cmdReview taskId disposition feedback) := by
  refine steps_of_readTaskState fun {disk path task current} hfinds => ?_
  dsimp only
  rw [after_bind]
  cases parseReviewDisposition disposition with
  | error error => exact (after_orFail_error error).mpr fun path => .refl _
  | ok disposition =>
    rw [after_orFail_ok]
    exact steps_of_asks hfinds (setsStatus_review _ _)
      ((keeps_recordOutcome _ _ _).bind fun _ => moves_pure _)

theorem steps_cmdReviewStructured (taskId : Nat) (disposition : String) (feedback : Option String)
    (reviewer : String) :
    Moves Disk.StepsStatuses (cmdReviewStructured taskId disposition feedback reviewer) := by
  refine steps_of_readTaskState fun {disk path task current} hfinds => ?_
  dsimp only
  rw [after_bind]
  cases structuredDisposition disposition with
  | error error => exact (after_orFail_error error).mpr fun path => .refl _
  | ok understood =>
    obtain ⟨target, outcome⟩ := understood
    rw [after_orFail_ok, after_bind, after_get]
    exact steps_of_asks hfinds (setsStatus_structured _ _ _ _ _)
      ((keeps_recordOutcome _ _ _).bind fun _ => moves_pure _)

theorem steps_transitionWith {mutator : TaskState → Mapping → Mapping}
    (hsets : ∀ state, SetsStatus (mutator state) state) (taskId : Nat) (target : String) :
    Moves Disk.StepsStatuses (transitionWith mutator taskId target) := by
  cases htarget : parseTaskState target with
  | ok state =>
    exact fun _ => (after_transitionWith mutator taskId htarget).mono
      (fun _ _ h => h.2.steps h.1 (hsets state))
      fun _ _ h => h.elim (fun h => h.keeps.steps) fun h => h.2.steps h.1 (hsets state)
  | error error =>
    refine Moves.steps ((keeps_findTaskPath taskId).bind fun path =>
      (keeps_taskFromFile path).bind fun task => (moves_orFail _).bind fun current => ?_)
    intro disk
    rw [after_bind, htarget]
    exact (after_orFail_error error).mpr (refl disk)

/-! ### Commands in sequence -/

/-- The commands that are run on the board for a task. -/
inductive BoardCommand where
  | transitionTask (taskId : Nat) (target : String)
  | transitionTaskPreservingBlock (taskId : Nat) (target : String)
  | blockTaskWithReason (taskId : Nat) (reason : String)
  | reclaimTaskClaim (taskId : Nat) (nextAction : String)
  | cmdReview (taskId : Nat) (disposition : String) (feedback : Option String)
  | cmdReviewStructured (taskId : Nat) (disposition : String) (feedback : Option String)
      (reviewer : String)
  | assignTaskOwners (taskId : Nat) (execOwner reviewOwner : Option String)
  | unclaimTask (taskId : Nat)
  | releaseEngineerClaim (taskId : Nat)
  | appendTaskDependencies (taskId : Nat) (dependencyIds : List Nat)
  | cmdUpdate (taskId : Nat) (fields : List (String × String))
  | cmdSchedule (taskId : Nat) (at' cronExpr : Option String) (clear : Bool)

/-- What the command does; the note of a review goes to an inbox. -/
def BoardCommand.run (grammar : ScheduleGrammar) : BoardCommand → DiskAction Unit
  | transitionTask taskId target => Batty.transitionTask taskId target
  | transitionTaskPreservingBlock taskId target => Batty.transitionTaskPreservingBlock taskId target
  | blockTaskWithReason taskId reason => Batty.blockTaskWithReason taskId reason
  | reclaimTaskClaim taskId nextAction => Batty.reclaimTaskClaim taskId nextAction
  | cmdReview taskId disposition feedback =>
    discard (Batty.cmdReview taskId disposition feedback)
  | cmdReviewStructured taskId disposition feedback reviewer =>
    discard (Batty.cmdReviewStructured taskId disposition feedback reviewer)
  | assignTaskOwners taskId execOwner reviewOwner =>
    Batty.assignTaskOwners taskId execOwner reviewOwner
  | unclaimTask taskId => Batty.unclaimTask taskId
  | releaseEngineerClaim taskId => Batty.releaseEngineerClaim taskId
  | appendTaskDependencies taskId dependencyIds =>
    Batty.appendTaskDependencies taskId dependencyIds
  | cmdUpdate taskId fields => Batty.cmdUpdate taskId fields
  | cmdSchedule taskId at' cronExpr clear => Batty.cmdSchedule grammar taskId at' cronExpr clear

/-- The disk when the command has ended, returned or failed; it was run at the time `now`. -/
def BoardCommand.end (grammar : ScheduleGrammar) (command : BoardCommand) (now : String) (disk : Disk) :
    Disk :=
  endState (command.run grammar) { disk with stamp := now }

/-- The disks a sequence of commands leads through, each command with the time it is run at. -/
def disksThrough (grammar : ScheduleGrammar) (disk : Disk) : List (String × BoardCommand) → List Disk
  | [] => [disk]
  | (now, command) :: rest => disk :: disksThrough grammar (command.end grammar now disk) rest

/-- The first disk is the one the commands are run on. -/
theorem head?_disksThrough (grammar : ScheduleGrammar) (disk : Disk) (path : String)
    (commands : List (String × BoardCommand)) :
    ((disksThrough grammar disk commands).map fun disk => disk.board.statusAt path).head? =
      some (disk.board.statusAt path) := by
  cases commands <;> rfl

/-- If the task is on the board, its status can be read and may lead to the target. -/
def Board.Admits (board : Board) (taskId : Nat) (target : TaskState) : Prop :=
  (board.findPath taskId).isSome → board.AllowsTransition taskId target

/-- What the two commands that do not ask would have to ask. -/
def BoardCommand.FindsAllowed (board : Board) : BoardCommand → Prop
  | blockTaskWithReason taskId _ => board.Admits taskId .blocked
  | reclaimTaskClaim taskId _ => board.Admits taskId .todo
  | _ => True

/-- Every command of the sequence finds a status that it may change. -/
def FindsAllowed (grammar : ScheduleGrammar) (disk : Disk) : List (String × BoardCommand) → Prop
  | [] => True
  | (now, command) :: rest =>
    command.FindsAllowed disk.board ∧ FindsAllowed grammar (command.end grammar now disk) rest

theorem steps_rewriteTask {taskId : Nat} {mutator : Mapping → Mapping} {state : TaskState}
    (hsets : SetsStatus mutator state) (hadmits : disk.board.Admits taskId state)
    (toStatus : String) :
    After (rewriteTask taskId mutator toStatus) disk (fun _ => disk.StepsStatuses)
      (fun _ => disk.StepsStatuses) := by
  have hedits : ∀ {disk'}, disk.Edits taskId mutator disk' → disk.StepsStatuses disk' := by
    intro disk' h
    obtain ⟨path, hpath, -⟩ := id h
    exact h.steps (hadmits (by rw [hpath]; rfl)) hsets
  exact (after_rewriteTask taskId mutator toStatus).mono (fun _ _ h => hedits h)
    fun _ _ h => h.elim (fun h => h.keeps.steps) hedits

/-- **One command.** Every status takes a step of the life cycle. -/
theorem BoardCommand.steps (grammar : ScheduleGrammar) (command : BoardCommand)
    (h : command.FindsAllowed disk.board) :
    After (command.run grammar) disk (fun _ => disk.StepsStatuses)
      (fun _ => disk.StepsStatuses) := by
  cases command with
  | transitionTask taskId target => exact steps_transitionWith setsStatus_transition taskId target disk
  | transitionTaskPreservingBlock taskId target =>
    exact steps_transitionWith setsStatus_setStatus taskId target disk
  | blockTaskWithReason taskId reason => exact steps_rewriteTask (setsStatus_block reason) h _
  | reclaimTaskClaim taskId nextAction => exact steps_rewriteTask (setsStatus_reclaim nextAction) h _
  | cmdReview taskId disposition feedback => exact (steps_cmdReview _ _ _).map disk
  | cmdReviewStructured taskId disposition feedback reviewer =>
    exact (steps_cmdReviewStructured _ _ _ _).map disk
  | assignTaskOwners taskId execOwner reviewOwner =>
    exact (keeps_assignTaskOwners _ _ _).steps disk
  | unclaimTask taskId => exact (keeps_editTask _ keepsStatus_unclaim).steps disk
  | releaseEngineerClaim taskId => exact (keeps_editTask _ keepsStatus_releaseClaim).steps disk
  | appendTaskDependencies taskId dependencyIds =>
    exact (keeps_editTask _ (keepsStatus_appendDependencies _)).steps disk
  | cmdUpdate taskId fields => exact (keeps_cmdUpdate _ _).steps disk
  | cmdSchedule taskId at' cronExpr clear => exact (keeps_cmdSchedule _ _ _ _ _).steps disk

theorem BoardCommand.steps_end (grammar : ScheduleGrammar) (command : BoardCommand) (now : String)
    (h : command.FindsAllowed disk.board) :
    disk.StepsStatuses (command.end grammar now disk) := by
  have hstamped : command.FindsAllowed { disk with stamp := now }.board := h
  exact after_iff_endState.mp (command.steps grammar hstamped)

theorem isChain_statuses (grammar : ScheduleGrammar) (path : String) :
    ∀ {commands : List (String × BoardCommand)} {disk : Disk},
      FindsAllowed grammar disk commands →
      ((disksThrough grammar disk commands).map fun disk => disk.board.statusAt path).IsChain
        StatusStep := by
  intro commands
  induction commands with
  | nil => simp [disksThrough]
  | cons first rest ih =>
    obtain ⟨now, command⟩ := first
    intro disk ⟨hcommand, hrest⟩
    have hstep := command.steps_end grammar now hcommand path
    have hchain := ih hrest
    rw [disksThrough, List.map_cons]
    refine hchain.cons fun status hstatus => ?_
    rw [head?_disksThrough, Option.mem_def, Option.some.injEq] at hstatus
    exact hstatus ▸ hstep

/-- **The life cycle.** The statuses of every task file follow the life cycle, in every sequence
of commands in which those that write a status without asking find one that allows it. -/
theorem followsLifecycle_of_findsAllowed (grammar : ScheduleGrammar) (disk : Disk)
    (commands : List (String × BoardCommand)) (h : FindsAllowed grammar disk commands)
    (path : String) :
    FollowsLifecycle
      ((disksThrough grammar disk commands).map fun disk => disk.board.statusAt path) :=
  followsLifecycle_of_steps (isChain_statuses grammar path h)

/-! ### Two runs -/

instance (board : Board) (taskId : Nat) (target : TaskState) :
    Decidable (board.AllowsTransition taskId target) :=
  let leads (task : Task) : Bool :=
    match parseTaskState task.status with
    | .ok current => (canTransition current target).toBool
    | .error _ => false
  decidable_of_iff (∃ path ∈ board.findPath taskId, ∃ task ∈ board.taskAt path, leads task) <| by
    constructor
    · intro ⟨path, hpath, task, htask, hleads⟩
      cases hcurrent : parseTaskState task.status with
      | error error => simp [leads, hcurrent] at hleads
      | ok current =>
        refine ⟨path, task, current, hpath, htask, hcurrent, ?_⟩
        cases hallowed : canTransition current target with
        | error error => simp [leads, hcurrent, hallowed, Except.toBool] at hleads
        | ok _ => rfl
    · intro ⟨path, task, current, hpath, htask, hcurrent, hallowed⟩
      exact ⟨path, hpath, task, htask, by simp [leads, hcurrent, hallowed, Except.toBool]⟩

instance (board : Board) (taskId : Nat) (target : TaskState) :
    Decidable (board.Admits taskId target) :=
  inferInstanceAs (Decidable (_ → _))

instance (board : Board) (command : BoardCommand) : Decidable (command.FindsAllowed board) := by
  cases command <;> unfold BoardCommand.FindsAllowed <;> infer_instance

instance decidableFindsAllowed (grammar : ScheduleGrammar) :
    ∀ disk commands, Decidable (FindsAllowed grammar disk commands)
  | _, [] => .isTrue trivial
  | disk, (now, command) :: rest =>
    have := decidableFindsAllowed grammar (command.end grammar now disk) rest
    inferInstanceAs (Decidable (_ ∧ _))

/-- A grammar to which every text is a time stamp and a schedule. -/
def anyText : ScheduleGrammar := { isTimestamp := fun _ => true, scheduleError := fun _ => none }

/-- A disk with one task on it, of the given status. -/
def loginDisk (status : String) : Disk where
  board := {
    files := [{
      name := "001-login.md"
      fenceNewline := true
      frontmatter :=
        .ofList [(.id, .number 1), (.title, .string "Login"), (.status, .string status)]
      body := "" }]
    nodup := by simp }
  tasksDir := "tasks"
  stamp := ""
  faults := fun _ => false

/-- A task that is begun, parked, given back and begun again. -/
theorem followsLifecycle_of_findsAllowed_parked :
    FollowsLifecycle ((disksThrough anyText (loginDisk "todo")
      [("9:00", .transitionTask 1 "in-progress"), ("9:30", .blockTaskWithReason 1 "no access"),
        ("9:40", .reclaimTaskClaim 1 "wait for access"), ("9:50", .transitionTask 1 "in-progress")]
      ).map fun disk => disk.board.statusAt "001-login.md") :=
  followsLifecycle_of_findsAllowed anyText (loginDisk "todo") _
    (by decide +kernel) "001-login.md"

/-- An archived task whose claim is taken back is open again. -/
theorem not_followsLifecycle_reclaimed :
    ¬ ∀ grammar disk commands path, FollowsLifecycle
      ((disksThrough grammar disk commands).map fun disk => disk.board.statusAt path) := by
  intro h
  have hstatuses : (disksThrough anyText (loginDisk "archived") [("9:00", .reclaimTaskClaim 1 "")]
      ).map (fun disk => disk.board.statusAt "001-login.md") = [some "archived", some "todo"] := by
    decide +kernel
  have harchived := (h anyText (loginDisk "archived") [("9:00", .reclaimTaskClaim 1 "")]
    "001-login.md").archived
  rw [hstatuses, List.pairwise_pair] at harchived
  obtain ⟨text, htext, hstate⟩ := harchived ⟨"archived", rfl, rfl⟩
  obtain rfl := Option.some.inj htext
  exact absurd hstate (by decide +kernel)

end Batty
