import Batty.Board.Compat
import Batty.Board.Lifecycle
import Batty.Foundation.Interleavings

/-!
# Two processes at one task file

The daemon and a command line edit the same task files, and nothing keeps one from writing between
a read and the write of the other. The file is read and written as a whole, and a read for the task
writes at once if there is something to repair. The path of the file is found by such a read, too;
a transition checks the status in another one and edits in a third, and the assignment context
writes ten fields from an earlier read. Other files of the board are edited by neither process.

Two operations leave the file that some order of the two leaves, and no transition covers a status
that does not allow it, whenever the accesses are serializable: those of one come before all of the
other that conflict with them (`sequential_of_serializable`). A write conflicts with a read if the
reader would go on otherwise after it: the guard of a transition does not mind a claim, but the edit
does (`afterTask_transition`).
-/

namespace Batty

open Cell

/-! ### Reads and writes of a task file -/

/-- The file with its frontmatter written anew. -/
def TaskFile.rewritten (file : TaskFile) (mapping : Mapping) : TaskFile :=
  { file with fenceNewline := true, frontmatter := mapping }

/-- Any content may be covered. -/
def coversAny (_ : TaskFile) : Bool := true

/-- What follows a read for the task, which repairs the file on the way. -/
def afterTask (chrono : Chrono) (next : Option Task → Program TaskFile) (file : TaskFile) :
    Program TaskFile :=
  match normalizeFrontmatter chrono file.frontmatter with
  | .ok none => next file.task
  | .ok (some (mapping, _)) =>
    .write coversAny (file.rewritten mapping) (next (file.rewritten mapping).task)
  | .error (.error _) => next none
  | .error .panicked => .stop

def fromFile (chrono : Chrono) (next : Option Task → Program TaskFile) : Program TaskFile :=
  .read (afterTask chrono next)

/-- Go on if the file holds the task. -/
def ifHolds (taskId : Nat) (next other : Program TaskFile) (task : Option Task) :
    Program TaskFile :=
  if task.map Task.id = some taskId then next else other

/-- Find the path of the file that is called `name`: it is read if it is named after the task, and
again with all the others if that did not help. -/
def findTaskPathById (chrono : Chrono) (taskId : Nat) (name : String) (next : Program TaskFile) :
    Program TaskFile :=
  let load := if hasTaskExtension name then fromFile chrono (ifHolds taskId next .stop) else .stop
  if taskIdFromFilename name = some taskId then fromFile chrono (ifHolds taskId next load)
  else load

/-- Write an edit of what a read of its own finds. -/
def updateFrontmatter (covers : TaskFile → Bool) (mutator : Mapping → Mapping)
    (next : Program TaskFile := .stop) : Program TaskFile :=
  .read fun file => .write covers (file.rewritten (mutator file.frontmatter)) next

/-- The status of the file allows the transition. -/
def allowsTransition (target : TaskState) (file : TaskFile) : Bool :=
  file.status.any fun status => decide (MayMove status target)

/-- What follows the guard of a transition. -/
def afterGuard (target : Except String TaskState) (mutator : TaskState → Mapping → Mapping)
    (next : Program TaskFile) (task : Option Task) : Program TaskFile :=
  match task, target with
  | some task, .ok target =>
    if MayMove task.status target then
      updateFrontmatter (allowsTransition target) (mutator target) next
    else .stop
  | _, _ => .stop

/-- The body of every transition: the guard is checked on a read that comes before the edit. -/
def transitionFile (chrono : Chrono) (target : Except String TaskState)
    (mutator : TaskState → Mapping → Mapping) (next : Program TaskFile := .stop) :
    Program TaskFile :=
  fromFile chrono (afterGuard target mutator next)

/-- An edit that reads the task first, for the log. -/
def rewriteFile (chrono : Chrono) (mutator : Mapping → Mapping) : Program TaskFile :=
  fromFile chrono fun task =>
    match task with
    | some _ => updateFrontmatter coversAny mutator
    | none => .stop

/-- Read the metadata, go on with it. -/
def withMetadata (next : WorkflowRecord → Program TaskFile) : Program TaskFile :=
  .read fun file =>
    match WorkflowRecord.parse file.frontmatter with
    | some metadata => next metadata
    | none => .stop

/-- Write all the metadata back as it was read, but for an edit. -/
def metadataFile (edit : WorkflowRecord → WorkflowRecord) : Program TaskFile :=
  withMetadata fun metadata => updateFrontmatter coversAny (metadataMutator (edit metadata))

/-! ### Operations -/

/-- The bookkeeping of a claim as it begins. -/
def initializeClaimMutator (now expiresAt : String) (ttlSecs outputBytes : Nat)
    (mapping : Mapping) : Mapping :=
  let mapping := mapping.setOptionalString .claimedAt (some now)
  let mapping := mapping.setOptionalU64 .claimTtlSecs (some ttlSecs)
  let mapping := mapping.setOptionalString .claimExpiresAt (some expiresAt)
  let mapping := mapping.setOptionalString .lastProgressAt (some now)
  let mapping := mapping.setOptionalString .claimWarningSentAt none
  let mapping := mapping.setOptionalU64 .claimExtensions (some 0)
  mapping.setOptionalU64 .lastOutputBytes (some outputBytes)

/-- The same after progress. -/
def refreshClaimMutator (now expiresAt : String) (ttlSecs outputBytes extensions : Nat)
    (mapping : Mapping) : Mapping :=
  let mapping := mapping.setOptionalU64 .claimTtlSecs (some ttlSecs)
  let mapping := mapping.setOptionalString .claimExpiresAt (some expiresAt)
  let mapping := mapping.setOptionalString .lastProgressAt (some now)
  let mapping := mapping.setOptionalString .claimWarningSentAt none
  let mapping := mapping.setOptionalU64 .claimExtensions (some extensions)
  mapping.setOptionalU64 .lastOutputBytes (some outputBytes)

/-- The outcome of a review; an approval settles what was still in its way. -/
def outcomeFile (outcome : String) (approved : Bool) : Program TaskFile :=
  metadataFile fun metadata => { metadata with
    outcome := some outcome
    reviewBlockers := if approved then [] else metadata.reviewBlockers }

def reviewFile (chrono : Chrono) (disposition : String) (feedback : Option String) :
    Program TaskFile :=
  match parseReviewDisposition disposition with
  | .ok disposition =>
    transitionFile chrono (.ok disposition.target) (fun target => reviewMutator target feedback)
      (outcomeFile (reviewDispositionName disposition) (disposition = .approved))
  | .error _ => fromFile chrono fun _ => .stop

def structuredReviewFile (chrono : Chrono) (now disposition : String) (feedback : Option String)
    (reviewer : String) : Program TaskFile :=
  match structuredDisposition disposition with
  | .ok (target, outcome) =>
    transitionFile chrono (.ok target)
      (fun target => structuredMutator now reviewer outcome target feedback)
      (outcomeFile outcome (disposition = "approve"))
  | .error _ => fromFile chrono fun _ => .stop

/-- The block fields of an update. -/
def updateBlockFile (fields : List (String × String)) : Program TaskFile :=
  if (fields.lookup "blocked_on").isSome || (fields.lookup "block_reason").isSome ||
      (fields.lookup "clear_blocked").isSome then
    updateFrontmatter coversAny (updateBlockMutator fields)
  else .stop

/-- The fields of an update; the metadata is read even if nothing of it is to change. -/
def updateFile (fields : List (String × String)) : Program TaskFile :=
  withMetadata fun metadata =>
    let branch := fields.lookup "branch"
    let commit := fields.lookup "commit"
    if branch.isSome || commit.isSome then
      updateFrontmatter coversAny (metadataMutator { metadata with
          branch := (branch.map normalizeOptional).getD metadata.branch
          commit := (commit.map normalizeOptional).getD metadata.commit })
        (updateBlockFile fields)
    else updateBlockFile fields

/-- What a process does to the file. Times come as they are written, and the times of schedules and
their expressions checked. -/
inductive BoardOperation where
  | transitionTask (target : String)
  | transitionTaskPreservingBlock (target : String)
  | clearBlockedFields
  | blockTaskWithReason (reason : String)
  | assignTaskOwners (now : String) (execOwner reviewOwner : Option String)
  | unclaimTask
  | releaseEngineerClaim
  | initializeTaskClaim (now expiresAt : String) (ttlSecs outputBytes : Nat)
  | refreshTaskClaimProgress (now expiresAt : String) (ttlSecs outputBytes extensions : Nat)
  | markTaskClaimWarning (now : String)
  | reclaimTaskClaim (nextAction : String)
  | appendTaskDependencies (dependencyIds : List Nat)
  | cmdReview (disposition : String) (feedback : Option String)
  | cmdReviewStructured (now disposition : String) (feedback : Option String) (reviewer : String)
  | cmdUpdate (fields : List (String × String))
  | cmdSchedule (scheduledFor cronExpr : Option String) (clear : Bool)
  | setTaskAssignmentContext (branch worktreePath : Option String)
  | writeWorkflowMetadata (metadata : WorkflowRecord)

/-- What the operation does to the file it has found. -/
def BoardOperation.edit (chrono : Chrono) : BoardOperation → Program TaskFile
  | transitionTask target => transitionFile chrono (parseTaskState target) transitionMutator
  | transitionTaskPreservingBlock target => transitionFile chrono (parseTaskState target) setStatus
  | clearBlockedFields => updateFrontmatter coversAny clearBlocked
  | blockTaskWithReason reason => rewriteFile chrono (blockMutator reason)
  | assignTaskOwners now execOwner reviewOwner =>
    updateFrontmatter coversAny (assignOwnersMutator now execOwner reviewOwner)
  | unclaimTask => updateFrontmatter coversAny unclaimMutator
  | releaseEngineerClaim => updateFrontmatter coversAny releaseClaimMutator
  | initializeTaskClaim now expiresAt ttlSecs outputBytes =>
    updateFrontmatter coversAny (initializeClaimMutator now expiresAt ttlSecs outputBytes)
  | refreshTaskClaimProgress now expiresAt ttlSecs outputBytes extensions =>
    updateFrontmatter coversAny
      (refreshClaimMutator now expiresAt ttlSecs outputBytes extensions)
  | markTaskClaimWarning now =>
    updateFrontmatter coversAny (·.setOptionalString .claimWarningSentAt (some now))
  | reclaimTaskClaim nextAction => rewriteFile chrono (reclaimMutator nextAction)
  | appendTaskDependencies dependencyIds =>
    updateFrontmatter coversAny (appendDependenciesMutator dependencyIds)
  | cmdReview disposition feedback => reviewFile chrono disposition feedback
  | cmdReviewStructured now disposition feedback reviewer =>
    structuredReviewFile chrono now disposition feedback reviewer
  | cmdUpdate fields => updateFile fields
  | cmdSchedule scheduledFor cronExpr clear =>
    updateFrontmatter coversAny (scheduleMutator scheduledFor cronExpr clear)
  | setTaskAssignmentContext branch worktreePath =>
    metadataFile fun metadata => { metadata with
      branch := branch.bind normalizeOptional
      worktreePath := worktreePath.bind normalizeOptional }
  | writeWorkflowMetadata metadata => updateFrontmatter coversAny (metadataMutator metadata)

/-- The arguments are refused before anything is read. -/
def BoardOperation.refused : BoardOperation → Bool
  | assignTaskOwners _ execOwner reviewOwner => execOwner.isNone && reviewOwner.isNone
  | cmdUpdate fields => fields.isEmpty
  | cmdSchedule scheduledFor cronExpr clear => !clear && scheduledFor.isNone && cronExpr.isNone
  | _ => false

/-- An operation on the task with this id, whose file is called `name`. Metadata are written to a
path that is given. -/
def BoardOperation.program (chrono : Chrono) (taskId : Nat) (name : String)
    (operation : BoardOperation) : Program TaskFile :=
  if operation.refused then .stop
  else
    match operation with
    | writeWorkflowMetadata _ => operation.edit chrono
    | _ => findTaskPathById chrono taskId name (operation.edit chrono)

/-! ### Operations that run alone -/

variable {chrono : Chrono} {file : TaskFile} {mutator : Mapping → Mapping}
  {next : Program TaskFile}

/-- What goes on with the task of the file it stands at covers only what it may, and so it does once
the file is repaired. -/
theorem coversAlone_fromFile {next : Option Task → Program TaskFile}
    (hnext : ∀ file, (next file.task).coversAlone file = true)
    (hnone : ∀ file, (next none).coversAlone file = true) (file : TaskFile) :
    (fromFile chrono next).coversAlone file = true := by
  rw [fromFile, Program.coversAlone, afterTask]
  split
  · exact hnext file
  · rw [Program.coversAlone, hnext]
    rfl
  · exact hnone file
  · rfl

theorem coversAlone_ifHolds {other : Program TaskFile} {taskId : Nat} {task : Option Task}
    (hnext : next.coversAlone file = true) (hother : other.coversAlone file = true) :
    (ifHolds taskId next other task).coversAlone file = true := by
  unfold ifHolds
  split
  · exact hnext
  · exact hother

/-- Finding the path covers nothing that it may not. -/
theorem coversAlone_findTaskPathById (hnext : ∀ file, next.coversAlone file = true) (taskId : Nat)
    (name : String) (file : TaskFile) :
    (findTaskPathById chrono taskId name next).coversAlone file = true := by
  have hread : ∀ {other}, (∀ file, Program.coversAlone other file = true) → ∀ file,
      (fromFile chrono (ifHolds taskId next other)).coversAlone file = true := fun hother =>
    coversAlone_fromFile (fun file => coversAlone_ifHolds (hnext file) (hother file))
      fun file => coversAlone_ifHolds (hnext file) (hother file)
  have hload : ∀ file, Program.coversAlone (if hasTaskExtension name then
      fromFile chrono (ifHolds taskId next .stop) else .stop) file = true := by
    intro file
    split
    · exact hread (fun _ => rfl) file
    · rfl
  simp only [findTaskPathById]
  split
  · exact hread hload file
  · exact hload file

theorem afterTask_of_form (next : Option Task → Program TaskFile)
    (h : normalizeFrontmatter chrono file.frontmatter = .ok none) :
    afterTask chrono next file = next file.task := by
  rw [afterTask, h]

theorem afterGuard_of_allowed {task : Task} {target : TaskState}
    {mutator : TaskState → Mapping → Mapping} (h : MayMove task.status target) :
    afterGuard (.ok target) mutator next (some task) =
      updateFrontmatter (allowsTransition target) (mutator target) next := by
  rw [afterGuard, if_pos h]

/-- The guard goes on alike on files that agree in the status. -/
theorem afterTask_transition {file' : TaskFile} (target : Except String TaskState)
    (mutator : TaskState → Mapping → Mapping) (next : Program TaskFile)
    (hform : normalizeFrontmatter chrono file.frontmatter = .ok none)
    (hform' : normalizeFrontmatter chrono file'.frontmatter = .ok none)
    (hstatus : file.task.map Task.status = file'.task.map Task.status) :
    afterTask chrono (afterGuard target mutator next) file =
      afterTask chrono (afterGuard target mutator next) file' := by
  rw [afterTask_of_form _ hform, afterTask_of_form _ hform']
  cases htask : file.task with
  | none =>
    rw [htask, Option.map_none, eq_comm, Option.map_eq_none_iff] at hstatus
    rw [hstatus]
  | some task =>
    rw [htask, Option.map_some, eq_comm, Option.map_eq_some_iff] at hstatus
    obtain ⟨task', htask', hsame⟩ := hstatus
    rw [htask']
    cases target with
    | error error => rfl
    | ok target => simp only [afterGuard, hsame]

theorem coversAlone_updateFrontmatter (hnext : ∀ file, next.coversAlone file = true)
    (file : TaskFile) : (updateFrontmatter coversAny mutator next).coversAlone file = true := by
  simp only [updateFrontmatter, Program.coversAlone, coversAny, hnext, Bool.and_self]

theorem coversAlone_stop (file : TaskFile) : Program.coversAlone .stop file = true := rfl

theorem coversAlone_withMetadata {next : WorkflowRecord → Program TaskFile}
    (hnext : ∀ metadata file, (next metadata).coversAlone file = true) (file : TaskFile) :
    (withMetadata next).coversAlone file = true := by
  simp only [withMetadata, Program.coversAlone]
  cases WorkflowRecord.parse file.frontmatter with
  | none => rfl
  | some metadata => exact hnext metadata file

theorem coversAlone_metadataFile (edit : WorkflowRecord → WorkflowRecord) (file : TaskFile) :
    (metadataFile edit).coversAlone file = true :=
  coversAlone_withMetadata (fun _ => coversAlone_updateFrontmatter coversAlone_stop) file

/-- Alone, the status that the guard saw is the status that the edit covers. -/
theorem coversAlone_transitionFile (target : Except String TaskState)
    (mutator : TaskState → Mapping → Mapping) (hnext : ∀ file, next.coversAlone file = true)
    (file : TaskFile) : (transitionFile chrono target mutator next).coversAlone file = true := by
  refine coversAlone_fromFile (fun file => ?_) (fun _ => rfl) file
  cases htask : file.task with
  | none => rfl
  | some task =>
    cases target with
    | error error => rfl
    | ok target =>
      rw [afterGuard]
      split
      case isFalse => rfl
      case isTrue hmove =>
        simp [updateFrontmatter, Program.coversAlone, allowsTransition,
          TaskFile.status_of_task htask, hmove, hnext]

theorem coversAlone_rewriteFile (mutator : Mapping → Mapping) (file : TaskFile) :
    (rewriteFile chrono mutator).coversAlone file = true := by
  refine coversAlone_fromFile (fun file => ?_) (fun _ => rfl) file
  cases file.task with
  | none => rfl
  | some task => exact coversAlone_updateFrontmatter coversAlone_stop _

theorem coversAlone_updateBlockFile (fields : List (String × String)) (file : TaskFile) :
    (updateBlockFile fields).coversAlone file = true := by
  unfold updateBlockFile
  split
  · exact coversAlone_updateFrontmatter coversAlone_stop file
  · rfl

theorem coversAlone_edit (operation : BoardOperation) (file : TaskFile) :
    (operation.edit chrono).coversAlone file = true := by
  have hplain (mutator : Mapping → Mapping) :
      (updateFrontmatter coversAny mutator).coversAlone file = true :=
    coversAlone_updateFrontmatter coversAlone_stop file
  have hread : (fromFile chrono fun _ => .stop).coversAlone file = true :=
    coversAlone_fromFile (fun _ => rfl) (fun _ => rfl) file
  cases operation with
  | transitionTask target => exact coversAlone_transitionFile _ _ coversAlone_stop file
  | transitionTaskPreservingBlock target =>
    exact coversAlone_transitionFile _ _ coversAlone_stop file
  | blockTaskWithReason reason => exact coversAlone_rewriteFile _ file
  | reclaimTaskClaim nextAction => exact coversAlone_rewriteFile _ file
  -- Metadata are written without a guard, and cover no status that a guard had read.
  | cmdReview disposition feedback =>
    simp only [BoardOperation.edit, reviewFile]
    split
    · exact coversAlone_transitionFile _ _ (coversAlone_metadataFile _) file
    · exact hread
  | cmdReviewStructured now disposition feedback reviewer =>
    simp only [BoardOperation.edit, structuredReviewFile]
    split
    · exact coversAlone_transitionFile _ _ (coversAlone_metadataFile _) file
    · exact hread
  | cmdUpdate fields =>
    refine coversAlone_withMetadata (fun metadata file => ?_) file
    dsimp only
    split
    · exact coversAlone_updateFrontmatter (coversAlone_updateBlockFile fields) file
    · exact coversAlone_updateBlockFile fields file
  | setTaskAssignmentContext branch worktreePath => exact coversAlone_metadataFile _ file
  | markTaskClaimWarning now =>
    exact hplain fun mapping => mapping.setOptionalString .claimWarningSentAt (some now)
  | _ => exact hplain _

/-- **Alone, every operation keeps to the transitions that are allowed.** -/
theorem coversAlone_program (operation : BoardOperation) (taskId : Nat) (name : String)
    (file : TaskFile) : (operation.program chrono taskId name).coversAlone file = true := by
  unfold BoardOperation.program
  split
  · rfl
  · split
    · exact coversAlone_edit _ file
    · exact coversAlone_findTaskPathById (coversAlone_edit operation) taskId name file

/-! ### Two processes -/

variable (chrono) (taskId : Nat) (left right : BoardOperation)

/-- The two operations before their first step. -/
def BoardOperation.start (file : TaskFile) : Cell.World TaskFile where
  content := file
  left := left.program chrono taskId file.name
  right := right.program chrono taskId file.name

/-- The file is one that an order of the two operations leaves, and no transition covered a status
that forbids it. -/
structure Sequential (file : TaskFile) (final : Cell.World TaskFile) : Prop where
  order : final.content = (right.program chrono taskId file.name).alone
      ((left.program chrono taskId file.name).alone file) ∨
    final.content = (left.program chrono taskId file.name).alone
      ((right.program chrono taskId file.name).alone file)
  allowed : final.fitting = true

/-- **Serializable edits.** If the accesses of one process come before all the accesses of the other
that conflict with them, the file is the one that an order of the two operations leaves. -/
theorem sequential_of_serializable (file : TaskFile) (schedule : List Side)
    (hcomplete : ((BoardOperation.start chrono taskId left right file).run schedule).Complete)
    (hserializable :
      Serializable ((BoardOperation.start chrono taskId left right file).accesses schedule)) :
    Sequential chrono taskId left right file
      ((BoardOperation.start chrono taskId left right file).run schedule) := by
  obtain ⟨side, hprecedes⟩ := hserializable
  obtain ⟨hcontent, hfitting⟩ := Cell.World.run_of_precedes hcomplete hprecedes
  have hallowed :
      ((BoardOperation.start chrono taskId left right file).run schedule).fitting = true := by
    rw [hfitting]
    cases side <;>
      simp [BoardOperation.start, Cell.World.program, Side.other, coversAlone_program]
  cases side with
  | left => exact ⟨.inl hcontent, hallowed⟩
  | right => exact ⟨.inr hcontent, hallowed⟩

/-- A task to do, which nobody holds. -/
def todoFile : TaskFile where
  name := "001-login.md"
  fenceNewline := true
  frontmatter := .ofList [(.id, .number 1), (.title, .string "Login"), (.status, .string "todo")]
  body := ""

/-- It is claimed by an engineer while someone moves it. -/
abbrev claimWhileMoved (schedule : List Side) : Cell.World TaskFile :=
  (BoardOperation.start (knowsDate "2026-03-24T08:00:00+00:00") 1 (.transitionTask "in-progress")
    (.assignTaskOwners "2026-03-24T08:00:00+00:00" (some "eng-1") none) todoFile).run schedule

/-- The file that only the claim has edited. -/
abbrev claimedTodoFile : TaskFile :=
  todoFile.rewritten (assignOwnersMutator "2026-03-24T08:00:00+00:00" (some "eng-1") none
    todoFile.frontmatter)

theorem findTaskPathById_todoFile (next : Program TaskFile) :
    findTaskPathById chrono 1 todoFile.name next =
      fromFile chrono (ifHolds 1 next (fromFile chrono (ifHolds 1 next .stop))) := by
  rw [findTaskPathById, if_pos (by decide +kernel), if_pos (by decide +kernel)]

theorem afterTask_ifHolds {taskId : Nat} {other : Program TaskFile}
    (hform : normalizeFrontmatter chrono file.frontmatter = .ok none)
    (hid : file.task.map Task.id = some taskId) :
    afterTask chrono (ifHolds taskId next other) file = next := by
  rw [afterTask_of_form _ hform, ifHolds, if_pos hid]

/-- A claim between the guard of a transition and its edit. -/
theorem sequential_of_serializable_claimed :
    Sequential (knowsDate "2026-03-24T08:00:00+00:00") 1 (.transitionTask "in-progress")
        (.assignTaskOwners "2026-03-24T08:00:00+00:00" (some "eng-1") none) todoFile
        (claimWhileMoved [.left, .left, .right, .right, .right, .left, .left]) ∧
      (claimWhileMoved [.left, .left, .right, .right, .right, .left, .left]).content.task.map
        Task.claimedBy = some (some "eng-1") := by
  have hform : normalizeFrontmatter (knowsDate "2026-03-24T08:00:00+00:00") todoFile.frontmatter =
      .ok none := by rfl
  have hform' : normalizeFrontmatter (knowsDate "2026-03-24T08:00:00+00:00")
      claimedTodoFile.frontmatter = .ok none := by rfl
  have hfound (next other : Program TaskFile) :
      afterTask (knowsDate "2026-03-24T08:00:00+00:00") (ifHolds 1 next other) todoFile = next :=
    afterTask_ifHolds _ hform (by decide +kernel)
  have hfound' (next other : Program TaskFile) :
      afterTask (knowsDate "2026-03-24T08:00:00+00:00") (ifHolds 1 next other) claimedTodoFile = next :=
    afterTask_ifHolds _ hform' (by decide +kernel)
  have hgoes : afterTask (knowsDate "2026-03-24T08:00:00+00:00")
      (afterGuard (parseTaskState "in-progress") transitionMutator .stop) todoFile =
        updateFrontmatter (allowsTransition .inProgress) (transitionMutator .inProgress) := by
    obtain ⟨task, htask, hstatus⟩ : ∃ task, todoFile.task = some task ∧ task.status = "todo" :=
      Option.map_eq_some_iff.mp (by decide +kernel)
    rw [afterTask_of_form _ hform, htask, parseTaskState_inProgress]
    exact afterGuard_of_allowed (hstatus ▸ by decide)
  have hguard := afterTask_transition (parseTaskState "in-progress") transitionMutator .stop hform
    hform' (by decide +kernel)
  -- What the transition read before the claim it would have gone on with alike after it.
  rw [hgoes] at hguard
  refine ⟨sequential_of_serializable _ _ _ _ _ _ (by decide +kernel) ⟨.right, ?_⟩,
    by decide +kernel⟩
  simpa [Cell.World.accesses, Cell.World.access?, Cell.World.step, Cell.World.program,
    Cell.World.setProgram, Cell.World.put, BoardOperation.start, BoardOperation.program,
    BoardOperation.refused, BoardOperation.edit, findTaskPathById_todoFile, transitionFile,
    fromFile, hfound, hfound', hgoes, updateFrontmatter, Precedes, Access.side, Access.Conflicts] using hguard

/-- A claim between the edit's read and its write, which loses the claim. -/
theorem not_sequential_lostClaim :
    ¬ ∀ (chrono : Chrono) (taskId : Nat) (left right : BoardOperation) (file : TaskFile)
      (schedule : List Side),
      ((BoardOperation.start chrono taskId left right file).run schedule).Complete →
        Sequential chrono taskId left right file
          ((BoardOperation.start chrono taskId left right file).run schedule) := by
  intro h
  have hsequential : Sequential (knowsDate "2026-03-24T08:00:00+00:00") 1
      (.transitionTask "in-progress")
      (.assignTaskOwners "2026-03-24T08:00:00+00:00" (some "eng-1") none) todoFile
      (claimWhileMoved [.left, .left, .left, .right, .right, .right, .left]) :=
    h _ _ _ _ _ _ (by decide +kernel)
  have hlost : (claimWhileMoved
      [.left, .left, .left, .right, .right, .right, .left]).content.task.map Task.claimedBy =
        some none := by
    decide +kernel
  rcases hsequential.order with hcontent | hcontent
  · rw [hcontent] at hlost
    exact absurd hlost (by decide +kernel)
  · rw [hcontent] at hlost
    exact absurd hlost (by decide +kernel)

/-- The task goes back to the backlog between the guard of a transition and its edit. -/
example :
    let final := (BoardOperation.start (knowsDate "") 1 (.transitionTask "in-progress")
      (.transitionTask "backlog") todoFile).run
        [.left, .left, .right, .right, .right, .right, .left, .left]
    final.Complete ∧ final.fitting = false ∧ final.content.status = some "in-progress" := by
  decide +kernel

end Batty
