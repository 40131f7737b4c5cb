import Batty.Board.TaskCmd

/-!
# Review, update and schedule commands

The commands a person gives for one task: the two forms of review, the update of its workflow
fields and the change of its schedule.

A review reads the task, checks that its status may lead to the target, writes the status, and
only then records the outcome among the workflow metadata, by a second read and a second write.
It may therefore fail with the status already written. The note that carries feedback to the
engineer is sent last and nobody waits for it; here it is what the command returns.

Whether a text is a time stamp or a schedule is decided by libraries; `ScheduleGrammar` is what they
say.
-/

namespace Batty

/-! ### Workflow metadata -/

def Mapping.setOptionalBool (mapping : Mapping) (key : Key) : Option Bool → Mapping
  | some value => mapping.insert key (.bool value)
  | none => mapping.remove key

def Mapping.setOptionalValue (mapping : Mapping) (key : Key) : Option Value → Mapping
  | some value => mapping.insert key value
  | none => mapping.remove key

/-- An empty list is not written at all. -/
def Mapping.setStringList (mapping : Mapping) (key : Key) (values : List String) : Mapping :=
  if values.isEmpty then mapping.remove key
  else mapping.insert key (.sequence (values.map .string))

@[simp] theorem Mapping.setOptionalBool_of_ne (mapping : Mapping) {key key' : Key}
    (value : Option Bool) (h : key' ≠ key) :
    mapping.setOptionalBool key value key' = mapping key' := by
  cases value <;> simp [setOptionalBool, h]

@[simp] theorem Mapping.setOptionalValue_of_ne (mapping : Mapping) {key key' : Key}
    (value : Option Value) (h : key' ≠ key) :
    mapping.setOptionalValue key value key' = mapping key' := by
  cases value <;> simp [setOptionalValue, h]

@[simp] theorem Mapping.setStringList_of_ne (mapping : Mapping) {key key' : Key}
    (values : List String) (h : key' ≠ key) :
    mapping.setStringList key values key' = mapping key' := by
  unfold setStringList
  split <;> simp [h]

@[simp] theorem Mapping.setStringList_self (mapping : Mapping) (key : Key) (values : List String) :
    mapping.setStringList key values key =
      if values.isEmpty then none else some (.sequence (values.map .string)) := by
  unfold setStringList
  split <;> simp

/-- All the workflow metadata of a file, as it is read, edited and written back. -/
structure WorkflowRecord extends WorkflowMetadata where
  branch : Option String
  worktreePath : Option String
  commit : Option String
  changedPaths : List String
  testsRun : Option Bool
  testResults : Option Value
  reviewBlockers : List String

def WorkflowRecord.parse (mapping : Mapping) : Option WorkflowRecord := do
  let branch ← mapping.optional .branch Value.asString
  let worktreePath ← mapping.optional .worktreePath Value.asString
  let commit ← mapping.optional .commit Value.asString
  let changedPaths ← mapping.orDefault .changedPaths (Value.asVec Value.asString) []
  let testsRun ← mapping.optional .testsRun Value.asBool
  let testsPassed ← mapping.optional .testsPassed Value.asBool
  let testResults ← mapping.optional .testResults fun value =>
    match value with
    | .nested true => some (Value.nested true)
    | _ => none
  let artifacts ← mapping.orDefault .artifacts (Value.asVec Value.asString) []
  let outcome ← mapping.optional .outcome Value.asString
  let reviewBlockers ← mapping.orDefault .reviewBlockers (Value.asVec Value.asString) []
  pure {
    testsPassed, artifacts, outcome
    branch, worktreePath, commit, changedPaths, testsRun, testResults, reviewBlockers }

def metadataMutator (metadata : WorkflowRecord) (mapping : Mapping) : Mapping :=
  let mapping := mapping.setOptionalString .branch metadata.branch
  let mapping := mapping.setOptionalString .worktreePath metadata.worktreePath
  let mapping := mapping.setOptionalString .commit metadata.commit
  let mapping := mapping.setStringList .changedPaths metadata.changedPaths
  let mapping := mapping.setOptionalBool .testsRun metadata.testsRun
  let mapping := mapping.setOptionalBool .testsPassed metadata.testsPassed
  let mapping := mapping.setOptionalValue .testResults metadata.testResults
  let mapping := mapping.setStringList .artifacts metadata.artifacts
  let mapping := mapping.setOptionalString .outcome metadata.outcome
  mapping.setStringList .reviewBlockers metadata.reviewBlockers

def readWorkflowMetadata (path : String) : DiskAction WorkflowRecord := do
  access s!"failed to read {path}"
  match ((← get).board.find? path).bind fun file => WorkflowRecord.parse file.mapping with
  | some metadata => pure metadata
  | none => throw "failed to parse task frontmatter"

def writeWorkflowMetadata (path : String) (metadata : WorkflowRecord) : DiskAction Unit :=
  updateTaskFrontmatter path (metadataMutator metadata)

/-! ### Reviews -/

/-- What a reviewer decides. -/
inductive ReviewDisposition where
  | approved | changesRequested | rejected
deriving DecidableEq

def parseReviewDisposition (value : String) : Except String ReviewDisposition :=
  match String.ofList ((Text.trim value.toList).map fun c => if c = '-' then '_' else c) with
  | "approved" => .ok .approved
  | "changes_requested" => .ok .changesRequested
  | "rejected" => .ok .rejected
  | other => .error ("unknown review disposition `" ++ other ++ "`")

def reviewDispositionName : ReviewDisposition → String
  | .approved => "approved"
  | .changesRequested => "changes_requested"
  | .rejected => "rejected"

/-- The status a review leads to. -/
def ReviewDisposition.target : ReviewDisposition → TaskState
  | approved => .done
  | changesRequested => .inProgress
  | rejected => .archived

/-- A message for an engineer's inbox. -/
structure ReviewNote where
  engineer : String
  message : String

/-- The note for the engineer who holds the task, if there is feedback to hand on. -/
def reviewFeedback (task : Task) (taskId : Nat) (feedback : Option String) : Option ReviewNote := do
  let text ← feedback
  let engineer ← task.claimedBy
  return { engineer, message := s!"Review feedback for task #{taskId}: {text}" }

def setFeedback (feedback : Option String) (mapping : Mapping) : Mapping :=
  match feedback with
  | some text => mapping.setOptionalString (.other "review_feedback") (some text)
  | none => mapping

/-- Find a task and read how it stands with it. -/
def readTaskState (taskId : Nat) : DiskAction (String × Task × TaskState) := do
  let path ← findTaskPath taskId
  let task ← taskFromFile path
  let current ← orFail (parseTaskState task.status)
  return (path, task, current)

/-- Write a status together with what goes with it, and log the change. -/
def writeStatus (path : String) (task : Task) (target : TaskState) (mutator : Mapping → Mapping) :
    DiskAction Unit := do
  updateTaskFrontmatter path mutator
  recordStatusTransitionActivity task.status (stateName target)

/-- Record the outcome of a review; an approval settles what was still in its way. -/
def recordOutcome (path outcome : String) (approved : Bool) : DiskAction Unit := do
  let metadata ← readWorkflowMetadata path
  writeWorkflowMetadata path { metadata with
    outcome := some outcome
    reviewBlockers := if approved then [] else metadata.reviewBlockers }

def reviewMutator (target : TaskState) (feedback : Option String) (mapping : Mapping) : Mapping :=
  setFeedback feedback (clearBlocked (setStatus target mapping))

def cmdReview (taskId : Nat) (disposition : String) (feedback : Option String) :
    DiskAction (Option ReviewNote) := do
  let (path, task, current) ← readTaskState taskId
  let disposition ← orFail (parseReviewDisposition disposition)
  orFail (canTransition current disposition.target)
  writeStatus path task disposition.target (reviewMutator disposition.target feedback)
  recordOutcome path (reviewDispositionName disposition) (disposition = .approved)
  return if disposition = .changesRequested then reviewFeedback task taskId feedback else none

/-- What the structured form understands: the target, the recorded outcome. -/
def structuredDisposition : String → Except String (TaskState × String)
  | "approve" => .ok (.done, "approved")
  | "request-changes" | "request_changes" => .ok (.inProgress, "changes_requested")
  | "reject" => .ok (.blocked, "rejected")
  | other => .error ("unknown review disposition: " ++ other)

def structuredMutator (now reviewer outcome : String) (target : TaskState)
    (feedback : Option String) (mapping : Mapping) : Mapping :=
  let mapping := setStatus target mapping
  let mapping := mapping.setOptionalString (.other "review_disposition") (some outcome)
  let mapping := mapping.setOptionalString (.other "reviewed_by") (some reviewer)
  let mapping := mapping.setOptionalString (.other "reviewed_at") (some now)
  let mapping := setFeedback feedback mapping
  if target = .blocked then
    let reason := feedback.getD ("rejected by " ++ reviewer)
    setBlockedReason (some reason) (some reason) mapping
  else clearBlocked mapping

def cmdReviewStructured (taskId : Nat) (disposition : String) (feedback : Option String)
    (reviewer : String) : DiskAction (Option ReviewNote) := do
  let (path, task, current) ← readTaskState taskId
  let (target, outcome) ← orFail (structuredDisposition disposition)
  let now := (← get).stamp
  orFail (canTransition current target)
  writeStatus path task target (structuredMutator now reviewer outcome target feedback)
  recordOutcome path outcome (disposition = "approve")
  return if outcome = "changes_requested" then reviewFeedback task taskId feedback else none

/-! ### Updates and schedules -/

/-- The edit of the block fields that an update asks for. -/
def updateBlockMutator (fields : List (String × String)) (mapping : Mapping) : Mapping :=
  let mapping := if (fields.lookup "clear_blocked").isSome then clearBlocked mapping else mapping
  let blockedOn := (fields.lookup "blocked_on").bind normalizeOptional
  let reason := ((fields.lookup "block_reason").bind normalizeOptional).or blockedOn
  if reason.isSome || blockedOn.isSome then setBlockedReason reason blockedOn mapping else mapping

/-- The workflow fields that an update sets. -/
def updateMetadata (path : String) (fields : List (String × String)) (metadata : WorkflowRecord) :
    DiskAction Unit :=
  let branch := fields.lookup "branch"
  let commit := fields.lookup "commit"
  if branch.isSome || commit.isSome then
    writeWorkflowMetadata path { metadata with
      branch := (branch.map normalizeOptional).getD metadata.branch
      commit := (commit.map normalizeOptional).getD metadata.commit }
  else pure ()

def updateBlock (path : String) (fields : List (String × String)) : DiskAction Unit :=
  if (fields.lookup "blocked_on").isSome || (fields.lookup "block_reason").isSome ||
      (fields.lookup "clear_blocked").isSome then
    updateTaskFrontmatter path (updateBlockMutator fields)
  else pure ()

/-- Set the fields that are given, as the entries of a map. -/
def cmdUpdate (taskId : Nat) (fields : List (String × String)) : DiskAction Unit := do
  orFail (if fields.isEmpty then .error "no workflow fields provided" else .ok ())
  let path ← findTaskPath taskId
  let metadata ← readWorkflowMetadata path
  updateMetadata path fields metadata
  updateBlock path fields

/-- What the libraries say of a text: whether it is a time stamp, and what is wrong with it as a
schedule. -/
structure ScheduleGrammar where
  isTimestamp : String → Bool
  scheduleError : String → Option String

/-- The library wants a field for the seconds, which the common form leaves out. -/
def normalizeCron (expr : String) : String :=
  let fields := (expr.toList.splitOnP Text.isWhitespace).filter fun field => !field.isEmpty
  if fields.length = 5 then "0 " ++ expr else expr

def scheduleMutator (at' cronExpr : Option String) (clear : Bool) (mapping : Mapping) : Mapping :=
  if clear then (mapping.remove .scheduledFor).remove .cronSchedule
  else
    let mapping := match at' with
      | some timestamp => mapping.insert .scheduledFor (.string timestamp)
      | none => mapping
    match cronExpr with
    | some expr => mapping.insert .cronSchedule (.string expr)
    | none => mapping

/-- What is wrong with the request, before any file is looked for. -/
def checkSchedule (grammar : ScheduleGrammar) (at' cronExpr : Option String) (clear : Bool) :
    Except String Unit :=
  if !clear && at'.isNone && cronExpr.isNone then
    .error "at least one of --at, --cron, or --clear is required"
  else
    match at'.filter fun timestamp => !grammar.isTimestamp timestamp with
    | some timestamp => .error s!"invalid RFC3339 timestamp: {timestamp}"
    | none =>
      match cronExpr.bind fun expr => grammar.scheduleError (normalizeCron expr) with
      | some error => .error s!"invalid cron expression: {error}"
      | none => .ok ()

def cmdSchedule (grammar : ScheduleGrammar) (taskId : Nat) (at' cronExpr : Option String)
    (clear : Bool) : DiskAction Unit := do
  orFail (checkSchedule grammar at' cronExpr clear)
  editTask taskId (scheduleMutator at' cronExpr clear)

end Batty
