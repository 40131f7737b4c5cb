import Batty.Board.Frontmatter

/-!
# Tasks

A task is what a task file says once it is parsed. `Task.parse` is the typed view of the
frontmatter together with the description cut from the body; `WorkflowMetadata.parse` is a
second view of the same mapping, read on its own, so that a file can be a task and still have
unreadable metadata.

Reading a file first repairs the shape of its block fields (`normalizeBlocked`) and writes the
repaired file back. Every reader goes through that repair, so the model repairs on reading and
leaves the write-back implicit; the repair of timestamp spellings, which no reader can tell
from the original, is left out.

The status of a task is kept as the text in the file: only a transition looks at it through
`parseTaskState`.
-/

namespace Batty

/-! ### Status -/

/-- The states of the workflow, in which `transitionTask` moves a task. -/
inductive TaskState where
  | backlog | todo | inProgress | review | blocked | done | archived
deriving DecidableEq

def stateName : TaskState → String
  | .backlog => "backlog"
  | .todo => "todo"
  | .inProgress => "in-progress"
  | .review => "review"
  | .blocked => "blocked"
  | .done => "done"
  | .archived => "archived"

/-- The name of a state in the source's debug output, which error texts quote. -/
def TaskState.debugName : TaskState → String
  | backlog => "Backlog"
  | todo => "Todo"
  | inProgress => "InProgress"
  | review => "Review"
  | blocked => "Blocked"
  | done => "Done"
  | archived => "Archived"

def parseTaskState (value : String) : Except String TaskState :=
  match String.ofList ((Text.trim value.toList).map fun c => if c = '-' then '_' else c) with
  | "backlog" => .ok .backlog
  | "todo" => .ok .todo
  | "in_progress" => .ok .inProgress
  | "review" => .ok .review
  | "blocked" => .ok .blocked
  | "done" => .ok .done
  | "archived" => .ok .archived
  | other => .error ("unknown task state `" ++ other ++ "`")

/-- The transitions of the workflow. -/
def canTransition (source target : TaskState) : Except String Unit :=
  if source = target then .ok ()
  else
    match source, target with
    | .backlog, .todo | .backlog, .archived
    | .todo, .backlog | .todo, .inProgress | .todo, .blocked | .todo, .archived
    | .inProgress, .todo | .inProgress, .review | .inProgress, .blocked
    | .review, .inProgress | .review, .blocked | .review, .done | .review, .archived
    | .blocked, .todo | .blocked, .inProgress | .blocked, .archived
    | .done, .archived => .ok ()
    | _, _ => .error s!"illegal task state transition: {source.debugName} -> {target.debugName}"

theorem parseTaskState_stateName (state : TaskState) :
    parseTaskState (stateName state) = .ok state := by
  cases state <;> rfl

theorem parseTaskState_todo : parseTaskState "todo" = .ok .todo := parseTaskState_stateName .todo

theorem parseTaskState_inProgress : parseTaskState "in-progress" = .ok .inProgress :=
  parseTaskState_stateName .inProgress

/-- The status allows the transition. -/
def MayMove (status : String) (target : TaskState) : Prop :=
  ∃ current, parseTaskState status = .ok current ∧ canTransition current target = .ok ()

instance (status : String) (target : TaskState) : Decidable (MayMove status target) :=
  match hparse : parseTaskState status with
  | .error _ => isFalse fun ⟨_, h, _⟩ => by
    rw [hparse] at h
    cases h
  | .ok current =>
    match hallowed : canTransition current target with
    | .ok _ => isTrue ⟨current, hparse, hallowed⟩
    | .error _ => isFalse fun ⟨_, h, h'⟩ => by
      rw [hparse, Except.ok.injEq] at h
      rw [← h, hallowed] at h'
      cases h'

/-- A status that satisfies a dependency. -/
def depStatusSatisfied (status : String) : Bool := status = "done" || status = "archived"

/-! ### Editing the frontmatter -/

def setStatus (state : TaskState) (mapping : Mapping) : Mapping :=
  mapping.insert .status (.string (stateName state))

def clearBlocked (mapping : Mapping) : Mapping :=
  ((mapping.remove .blocked).remove .blockReason).remove .blockedOn

def setBlockedReason (reason blockedOn : Option String) (mapping : Mapping) : Mapping :=
  if reason.isNone && blockedOn.isNone then clearBlocked mapping
  else
    ((mapping.insert .blocked (.bool true)).setOptionalString .blockReason reason).setOptionalString
      .blockedOn (blockedOn.or reason)

/-- The reason and the blocker that the block fields should carry, if they do not: a hidden
reason is to be spelled out, and a blocked task says why in both places. -/
def blockRepair (mapping : Mapping) : Option (Option String × Option String) :=
  let blockReason := (mapping .blockReason).bind Value.asString
  let blockedOn := (mapping .blockedOn).bind Value.asString
  let statusIsBlocked := (mapping .status).bind Value.asString == some "blocked"
  let hiddenReason := match mapping .blocked with
    | some (.string reason) => if Text.trim reason.toList = [] then none else some reason
    | _ => none
  let blockedIsTrue := match mapping .blocked with
    | some (.bool true) => true
    | _ => false
  let desiredReason := match mapping .blocked with
    | some (.bool false) => none
    | _ => hiddenReason.or (blockReason.or blockedOn)
  let desiredBlockedOn := blockedOn.or desiredReason
  let incompleteBlockedTask := statusIsBlocked && desiredReason.isSome &&
    (!blockedIsTrue || blockReason != desiredReason || blockedOn != desiredBlockedOn)
  let incompleteBoolShape := blockedIsTrue &&
    (blockReason != desiredReason || blockedOn != desiredBlockedOn)
  if hiddenReason.isSome || incompleteBlockedTask || incompleteBoolShape then
    some (desiredReason, desiredBlockedOn)
  else none

/-- The frontmatter with its block fields repaired. -/
def normalizeBlocked (mapping : Mapping) : Mapping :=
  match blockRepair mapping with
  | some (reason, blockedOn) => setBlockedReason reason blockedOn mapping
  | none => mapping

/-- A key that says something about being blocked. -/
def Key.IsBlockKey (key : Key) : Prop := key = .blocked ∨ key = .blockReason ∨ key = .blockedOn

instance (key : Key) : Decidable key.IsBlockKey := inferInstanceAs (Decidable (_ ∨ _ ∨ _))

theorem clearBlocked_apply (mapping : Mapping) {key : Key} (h : ¬ key.IsBlockKey) :
    clearBlocked mapping key = mapping key := by
  simp only [Key.IsBlockKey, not_or] at h
  simp [clearBlocked, h]

theorem setBlockedReason_apply (reason blockedOn : Option String) (mapping : Mapping) {key : Key}
    (h : ¬ key.IsBlockKey) : setBlockedReason reason blockedOn mapping key = mapping key := by
  simp only [Key.IsBlockKey, not_or] at h
  unfold setBlockedReason clearBlocked
  split <;> simp [h]

/-- The repair touches nothing but the block fields. -/
theorem normalizeBlocked_apply (mapping : Mapping) {key : Key} (h : ¬ key.IsBlockKey) :
    normalizeBlocked mapping key = mapping key := by
  unfold normalizeBlocked
  cases blockRepair mapping with
  | none => rfl
  | some repair => exact setBlockedReason_apply _ _ _ h

/-! ### The typed views -/

/-- A parsed task, with the fields the daemon's decisions read. -/
structure Task where
  id : Nat
  title : String
  status : String
  priority : String
  assignee : Option String
  claimedBy : Option String
  claimedAt : Option String
  blocked : Option String
  tags : List String
  dependsOn : List Nat
  reviewOwner : Option String
  blockedOn : Option String
  worktreePath : Option String
  branch : Option String
  scheduledFor : Option String
  description : String
  sourcePath : String

/-- The body up to the per-task settings, trimmed. -/
def parseBody (body : String) : String :=
  let text := match (Text.occurrences "## Batty Config".toList body.toList).head? with
    | some (before, _) => before
    | none => body.toList
  String.ofList (Text.trim text)

/-- Further fields that must decode although nothing here reads them, with what they accept. -/
def restFields : List (Key × (Value → Bool)) :=
  [ (.claimTtlSecs, fun value => value.asU64.isSome),
    (.claimExpiresAt, fun value => value.asString.isSome),
    (.lastProgressAt, fun value => value.asString.isSome),
    (.claimWarningSentAt, fun value => value.asString.isSome),
    (.claimExtensions, fun value => value.asU32.isSome),
    (.lastOutputBytes, fun value => value.asU64.isSome),
    (.commit, fun value => value.asString.isSome),
    (.artifacts, fun value => (value.asVec Value.asString).isSome),
    (.nextAction, fun value => value.asString.isSome),
    (.cronSchedule, fun value => value.asString.isSome),
    (.cronLastRun, fun value => value.asString.isSome),
    (.completed, fun value => value.asString.isSome) ]

def Mapping.restDecodes (mapping : Mapping) : Bool :=
  restFields.all fun (key, accepts) =>
    match mapping key with
    | none | some .null => true
    | some value => accepts value

def Mapping.rest (mapping : Mapping) : Option Unit := if mapping.restDecodes then some () else none

theorem Mapping.restDecodes_congr {mapping mapping' : Mapping}
    (h : ∀ field ∈ restFields, mapping field.1 = mapping' field.1) :
    mapping.restDecodes = mapping'.restDecodes := by
  rw [Bool.eq_iff_iff]
  simp only [restDecodes, List.all_eq_true]
  exact forall₂_congr fun field hfield => by simp only [h field hfield]

theorem Mapping.rest_eq_some_iff {mapping : Mapping} {u : Unit} :
    mapping.rest = some u ↔ mapping.restDecodes = true := by
  simp [rest]

/-- The field that is either a reason or a flag. -/
def Value.asBlocked : Value → Option (Option String)
  | .string reason => some (some reason)
  | .bool true => some (some "blocked")
  | .bool false => some none
  | .null => some none
  | _ => none

/-- The fields of a frontmatter, with their defaults; one of the wrong type fails the whole. -/
def Task.parse (sourcePath : String) (mapping : Mapping) (body : String) : Option Task := do
  let id ← mapping.required .id Value.asU32
  let title ← mapping.required .title Value.asString
  let status ← mapping.orDefault .status Value.asString "backlog"
  let priority ← mapping.orDefault .priority Value.asString ""
  let assignee ← mapping.optional .assignee Value.asString
  let claimedBy ← mapping.optional .claimedBy Value.asString
  let claimedAt ← mapping.optional .claimedAt Value.asString
  let blocked ← mapping.orDefault .blocked Value.asBlocked none
  let blockReason ← mapping.optional .blockReason Value.asString
  let tags ← mapping.orDefault .tags (Value.asVec Value.asString) []
  let dependsOn ← mapping.orDefault .dependsOn (Value.asVec Value.asU32) []
  let reviewOwner ← mapping.optional .reviewOwner Value.asString
  let blockedOn ← mapping.optional .blockedOn Value.asString
  let worktreePath ← mapping.optional .worktreePath Value.asString
  let branch ← mapping.optional .branch Value.asString
  let scheduledFor ← mapping.optional .scheduledFor Value.asString
  mapping.rest
  pure {
    id, title, status, priority, assignee, claimedBy, claimedAt
    -- the spelled-out reason is preferred to the placeholder of the flag
    blocked := (blockReason.or blocked).or blockedOn
    tags, dependsOn, reviewOwner, blockedOn, worktreePath, branch, scheduledFor
    description := parseBody body
    sourcePath }

/-- What it takes to be the task of a file, one decoder a field. -/
structure Task.Reads (sourcePath : String) (mapping : Mapping) (body : String) (task : Task) :
    Prop where
  id : mapping.required .id Value.asU32 = some task.id
  title : mapping.required .title Value.asString = some task.title
  status : mapping.orDefault .status Value.asString "backlog" = some task.status
  priority : mapping.orDefault .priority Value.asString "" = some task.priority
  assignee : mapping.optional .assignee Value.asString = some task.assignee
  claimedBy : mapping.optional .claimedBy Value.asString = some task.claimedBy
  claimedAt : mapping.optional .claimedAt Value.asString = some task.claimedAt
  block : ∃ blocked blockReason, mapping.orDefault .blocked Value.asBlocked none = some blocked ∧
    mapping.optional .blockReason Value.asString = some blockReason ∧
    mapping.optional .blockedOn Value.asString = some task.blockedOn ∧
    task.blocked = (blockReason.or blocked).or task.blockedOn
  tags : mapping.orDefault .tags (Value.asVec Value.asString) [] = some task.tags
  dependsOn : mapping.orDefault .dependsOn (Value.asVec Value.asU32) [] = some task.dependsOn
  reviewOwner : mapping.optional .reviewOwner Value.asString = some task.reviewOwner
  worktreePath : mapping.optional .worktreePath Value.asString = some task.worktreePath
  branch : mapping.optional .branch Value.asString = some task.branch
  scheduledFor : mapping.optional .scheduledFor Value.asString = some task.scheduledFor
  rest : mapping.restDecodes = true
  description : task.description = parseBody body
  sourcePath : task.sourcePath = sourcePath

theorem bind_of_eq_some {α β : Type} {o : Option α} {a : α} {f : α → Option β} {b : β}
    (h : o = some a) (hf : f a = some b) : (o >>= f) = some b :=
  Option.bind_eq_some_iff.mpr ⟨a, h, hf⟩

theorem Task.parse_eq_some_iff {path body : String} {mapping : Mapping} {task : Task} :
    Task.parse path mapping body = some task ↔ Task.Reads path mapping body task := by
  unfold Task.parse
  constructor
  · intro h
    obtain ⟨id, hid, h⟩ := Option.bind_eq_some_iff.mp h
    obtain ⟨title, htitle, h⟩ := Option.bind_eq_some_iff.mp h
    obtain ⟨status, hstatus, h⟩ := Option.bind_eq_some_iff.mp h
    obtain ⟨priority, hpriority, h⟩ := Option.bind_eq_some_iff.mp h
    obtain ⟨assignee, hassignee, h⟩ := Option.bind_eq_some_iff.mp h
    obtain ⟨claimedBy, hclaimedBy, h⟩ := Option.bind_eq_some_iff.mp h
    obtain ⟨claimedAt, hclaimedAt, h⟩ := Option.bind_eq_some_iff.mp h
    obtain ⟨blocked, hblocked, h⟩ := Option.bind_eq_some_iff.mp h
    obtain ⟨blockReason, hblockReason, h⟩ := Option.bind_eq_some_iff.mp h
    obtain ⟨tags, htags, h⟩ := Option.bind_eq_some_iff.mp h
    obtain ⟨dependsOn, hdependsOn, h⟩ := Option.bind_eq_some_iff.mp h
    obtain ⟨reviewOwner, hreviewOwner, h⟩ := Option.bind_eq_some_iff.mp h
    obtain ⟨blockedOn, hblockedOn, h⟩ := Option.bind_eq_some_iff.mp h
    obtain ⟨worktreePath, hworktreePath, h⟩ := Option.bind_eq_some_iff.mp h
    obtain ⟨branch, hbranch, h⟩ := Option.bind_eq_some_iff.mp h
    obtain ⟨scheduledFor, hscheduledFor, h⟩ := Option.bind_eq_some_iff.mp h
    obtain ⟨_, hrest, h⟩ := Option.bind_eq_some_iff.mp h
    obtain rfl := Option.some.inj h
    exact ⟨hid, htitle, hstatus, hpriority, hassignee, hclaimedBy, hclaimedAt,
      ⟨blocked, blockReason, hblocked, hblockReason, hblockedOn, rfl⟩, htags, hdependsOn,
      hreviewOwner, hworktreePath, hbranch, hscheduledFor, Mapping.rest_eq_some_iff.mp hrest, rfl, rfl⟩
  · intro h
    obtain ⟨blocked, blockReason, hblocked, hblockReason, hblockedOn, hreason⟩ := h.block
    have hrest : mapping.rest = some () := Mapping.rest_eq_some_iff.mpr h.rest
    refine bind_of_eq_some h.id <| bind_of_eq_some h.title <| bind_of_eq_some h.status <|
      bind_of_eq_some h.priority <| bind_of_eq_some h.assignee <| bind_of_eq_some h.claimedBy <|
      bind_of_eq_some h.claimedAt <| bind_of_eq_some hblocked <| bind_of_eq_some hblockReason <|
      bind_of_eq_some h.tags <| bind_of_eq_some h.dependsOn <| bind_of_eq_some h.reviewOwner <|
      bind_of_eq_some hblockedOn <| bind_of_eq_some h.worktreePath <| bind_of_eq_some h.branch <|
      bind_of_eq_some h.scheduledFor <| bind_of_eq_some hrest ?_
    rw [← hreason, ← h.description, ← h.sourcePath]
    rfl

/-- The evidence attached to a task, as `read_workflow_metadata` sees it. -/
structure WorkflowMetadata where
  testsPassed : Option Bool
  artifacts : List String
  outcome : Option String

def WorkflowMetadata.parse (mapping : Mapping) : Option WorkflowMetadata := do
  let _ ← mapping.optional .branch Value.asString
  let _ ← mapping.optional .worktreePath Value.asString
  let _ ← mapping.optional .commit Value.asString
  let _ ← mapping.orDefault .changedPaths (Value.asVec Value.asString) []
  let _ ← mapping.optional .testsRun Value.asBool
  let testsPassed ← mapping.optional .testsPassed Value.asBool
  let _ ← mapping.optional .testResults fun value =>
    match value with
    | .nested true => some ()
    | _ => none
  let artifacts ← mapping.orDefault .artifacts (Value.asVec Value.asString) []
  let outcome ← mapping.optional .outcome Value.asString
  let _ ← mapping.orDefault .reviewBlockers (Value.asVec Value.asString) []
  pure { testsPassed, artifacts, outcome }

/-- The work went through verification and failed it, and there is something to show. -/
def WorkflowMetadata.retryRequired (metadata : WorkflowMetadata) : Bool :=
  metadata.testsPassed = some false && metadata.outcome = some "verification_retry_required" &&
    !metadata.artifacts.isEmpty

/-! ### Task files -/

/-- A file of the tasks directory. `fenceNewline` says that the opening fence is followed by a
line break at once, which one of the readers insists on. -/
structure TaskFile where
  name : String
  fenceNewline : Bool
  frontmatter : Mapping
  body : String

namespace TaskFile

/-- The frontmatter every reader sees. -/
def mapping (file : TaskFile) : Mapping := normalizeBlocked file.frontmatter

/-- The task in the file, if the frontmatter is that of a task. -/
def task (file : TaskFile) : Option Task := Task.parse file.name file.mapping file.body

def workflowMetadata (file : TaskFile) : Option WorkflowMetadata :=
  WorkflowMetadata.parse file.mapping

/-- The opening fence as later readers find it: a repaired file was written anew. -/
def fence (file : TaskFile) : Bool := file.fenceNewline || (blockRepair file.frontmatter).isSome

/-- The file rewritten with an edited frontmatter. -/
def update (file : TaskFile) (mutator : Mapping → Mapping) : TaskFile :=
  { file with fenceNewline := true, frontmatter := mutator file.mapping }

@[simp] theorem name_update (file : TaskFile) (mutator : Mapping → Mapping) :
    (file.update mutator).name = file.name := rfl

end TaskFile

/-! ### What an edit does to the task -/

/-- The keys that no edit modelled here touches. -/
def Key.stable : List Key :=
  [.id, .title, .priority, .assignee, .tags, .worktreePath, .branch, .scheduledFor]

/-- The block fields can be read. -/
structure Mapping.BlockDecodes (mapping : Mapping) : Prop where
  blocked : (mapping.orDefault .blocked Value.asBlocked none).isSome
  blockReason : (mapping.optional .blockReason Value.asString).isSome
  blockedOn : (mapping.optional .blockedOn Value.asString).isSome

theorem Task.Reads.blockDecodes {path body : String} {mapping : Mapping} {task : Task}
    (h : Task.Reads path mapping body task) : mapping.BlockDecodes := by
  obtain ⟨blocked, blockReason, hblocked, hblockReason, hblockedOn, -⟩ := h.block
  exact ⟨by simp [hblocked], by simp [hblockReason], by simp [hblockedOn]⟩

theorem blockDecodes_clearBlocked (mapping : Mapping) : (clearBlocked mapping).BlockDecodes := by
  constructor <;> simp [clearBlocked, Mapping.orDefault, Mapping.optional]

theorem blockDecodes_setBlockedReason (reason blockedOn : Option String) (mapping : Mapping) :
    (setBlockedReason reason blockedOn mapping).BlockDecodes := by
  unfold setBlockedReason
  split
  · exact blockDecodes_clearBlocked mapping
  · constructor
    · simp [Mapping.orDefault, Value.asBlocked]
    · cases reason <;> simp [Mapping.optional, Value.asString]
    · cases blockedOn.or reason <;> simp [Mapping.optional, Value.asString]

/-- The repair leaves readable block fields readable. -/
theorem Mapping.BlockDecodes.normalizeBlocked {mapping : Mapping} (h : mapping.BlockDecodes) :
    (normalizeBlocked mapping).BlockDecodes := by
  unfold Batty.normalizeBlocked
  cases blockRepair mapping with
  | none => exact h
  | some repair => exact blockDecodes_setBlockedReason _ _ _

theorem Mapping.BlockDecodes.exists_block {mapping : Mapping} (h : mapping.BlockDecodes) :
    ∃ blocked blockedOn own reason, mapping.orDefault .blocked Value.asBlocked none = some own ∧
      mapping.optional .blockReason Value.asString = some reason ∧
      mapping.optional .blockedOn Value.asString = some blockedOn ∧
      blocked = (reason.or own).or blockedOn := by
  obtain ⟨own, hown⟩ := Option.isSome_iff_exists.mp h.blocked
  obtain ⟨reason, hreason⟩ := Option.isSome_iff_exists.mp h.blockReason
  obtain ⟨blockedOn, hblockedOn⟩ := Option.isSome_iff_exists.mp h.blockedOn
  exact ⟨_, blockedOn, own, reason, hown, hreason, hblockedOn, rfl⟩

/-- The two tasks ask for the same work, however it stands with it. -/
structure Task.SameBrief (original task : Task) : Prop where
  id : task.id = original.id
  title : task.title = original.title
  priority : task.priority = original.priority
  assignee : task.assignee = original.assignee
  tags : task.tags = original.tags
  worktreePath : task.worktreePath = original.worktreePath
  branch : task.branch = original.branch
  scheduledFor : task.scheduledFor = original.scheduledFor
  description : task.description = original.description
  sourcePath : task.sourcePath = original.sourcePath

/-- `task` is `original` after an edit: what the edit may change is given by the arguments,
blockedness aside, and everything else is as before. -/
structure Task.EditOf (original task : Task) (status : String) (claimedBy reviewOwner : Option String)
    (dependsOn : List Nat) : Prop extends original.SameBrief task where
  status : task.status = status
  claimedBy : task.claimedBy = claimedBy
  reviewOwner : task.reviewOwner = reviewOwner
  dependsOn : task.dependsOn = dependsOn

theorem Task.SameBrief.refl (task : Task) : task.SameBrief task :=
  ⟨rfl, rfl, rfl, rfl, rfl, rfl, rfl, rfl, rfl, rfl⟩

theorem Task.SameBrief.trans {task task' task'' : Task} (h : task.SameBrief task')
    (h' : task'.SameBrief task'') : task.SameBrief task'' :=
  ⟨h'.id.trans h.id, h'.title.trans h.title, h'.priority.trans h.priority,
    h'.assignee.trans h.assignee, h'.tags.trans h.tags, h'.worktreePath.trans h.worktreePath,
    h'.branch.trans h.branch, h'.scheduledFor.trans h.scheduledFor,
    h'.description.trans h.description, h'.sourcePath.trans h.sourcePath⟩

theorem restFields_not_isBlockKey : ∀ field ∈ restFields, ¬ field.1.IsBlockKey := by
  simp [restFields, Key.IsBlockKey]

/-- The repair of an edited file touches the block fields alone. -/
theorem TaskFile.exists_task_update {file : TaskFile} {mutator : Mapping → Mapping} {task : Task}
    (h : Task.Reads file.name (mutator file.mapping) file.body task) :
    ∃ blocked blockedOn, (file.update mutator).task = some { task with blocked, blockedOn } := by
  have hkeep : ∀ {key : Key}, ¬ key.IsBlockKey →
      (file.update mutator).mapping key = mutator file.mapping key := fun hkey =>
    normalizeBlocked_apply _ hkey
  have hdecodes : (file.update mutator).mapping.BlockDecodes := h.blockDecodes.normalizeBlocked
  obtain ⟨blocked, blockedOn, hblock⟩ := hdecodes.exists_block
  refine ⟨blocked, blockedOn, Task.parse_eq_some_iff.mpr ?_⟩
  exact {
    id := (Mapping.required_congr (hkeep (by decide))).trans h.id
    title := (Mapping.required_congr (hkeep (by decide))).trans h.title
    status := (Mapping.orDefault_congr (hkeep (by decide))).trans h.status
    priority := (Mapping.orDefault_congr (hkeep (by decide))).trans h.priority
    assignee := (Mapping.optional_congr (hkeep (by decide))).trans h.assignee
    claimedBy := (Mapping.optional_congr (hkeep (by decide))).trans h.claimedBy
    claimedAt := (Mapping.optional_congr (hkeep (by decide))).trans h.claimedAt
    block := hblock
    tags := (Mapping.orDefault_congr (hkeep (by decide))).trans h.tags
    dependsOn := (Mapping.orDefault_congr (hkeep (by decide))).trans h.dependsOn
    reviewOwner := (Mapping.optional_congr (hkeep (by decide))).trans h.reviewOwner
    worktreePath := (Mapping.optional_congr (hkeep (by decide))).trans h.worktreePath
    branch := (Mapping.optional_congr (hkeep (by decide))).trans h.branch
    scheduledFor := (Mapping.optional_congr (hkeep (by decide))).trans h.scheduledFor
    rest := (Mapping.restDecodes_congr fun field hfield =>
      hkeep (restFields_not_isBlockKey field hfield)).trans h.rest
    description := h.description
    sourcePath := h.sourcePath }

/-- **Editing a task.** If the edit leaves the stable keys alone and the keys it touches still
decode, the file is still a task, and the edit shows exactly where it was made. -/
theorem TaskFile.task_update {file : TaskFile} {task : Task} (h : file.task = some task)
    (claimedAt : Option String) {mutator : Mapping → Mapping} {status : String}
    {claimedBy reviewOwner : Option String} {dependsOn : List Nat}
    (hstable : ∀ key ∈ Key.stable, mutator file.mapping key = file.mapping key)
    (hblock : (mutator file.mapping).BlockDecodes)
    (hrest : (mutator file.mapping).restDecodes = true)
    (hstatus : (mutator file.mapping).orDefault .status Value.asString "backlog" = some status)
    (hclaimedBy : (mutator file.mapping).optional .claimedBy Value.asString = some claimedBy)
    (hclaimedAt : (mutator file.mapping).optional .claimedAt Value.asString = some claimedAt)
    (hreviewOwner : (mutator file.mapping).optional .reviewOwner Value.asString = some reviewOwner)
    (hdependsOn : (mutator file.mapping).orDefault .dependsOn (Value.asVec Value.asU32) [] =
      some dependsOn) :
    ∃ task', (file.update mutator).task = some task' ∧
      task.EditOf task' status claimedBy reviewOwner dependsOn := by
  have hreads := Task.parse_eq_some_iff.mp h
  have hkeep : ∀ {key : Key}, key ∈ Key.stable → mutator file.mapping key = file.mapping key :=
    fun hkey => hstable _ hkey
  obtain ⟨blocked, blockedOn, hread⟩ := hblock.exists_block
  have hedited : Task.Reads file.name (mutator file.mapping) file.body { task with
      status, claimedBy, claimedAt, reviewOwner, dependsOn, blocked, blockedOn } := {
    id := (Mapping.required_congr (hkeep (by decide))).trans hreads.id
    title := (Mapping.required_congr (hkeep (by decide))).trans hreads.title
    status := hstatus
    priority := (Mapping.orDefault_congr (hkeep (by decide))).trans hreads.priority
    assignee := (Mapping.optional_congr (hkeep (by decide))).trans hreads.assignee
    claimedBy := hclaimedBy
    claimedAt := hclaimedAt
    block := hread
    tags := (Mapping.orDefault_congr (hkeep (by decide))).trans hreads.tags
    dependsOn := hdependsOn
    reviewOwner := hreviewOwner
    worktreePath := (Mapping.optional_congr (hkeep (by decide))).trans hreads.worktreePath
    branch := (Mapping.optional_congr (hkeep (by decide))).trans hreads.branch
    scheduledFor := (Mapping.optional_congr (hkeep (by decide))).trans hreads.scheduledFor
    rest := hrest
    description := hreads.description
    sourcePath := hreads.sourcePath }
  obtain ⟨_, _, htask⟩ := TaskFile.exists_task_update hedited
  exact ⟨_, htask, ⟨rfl, rfl, rfl, rfl, rfl, rfl, rfl, rfl, rfl, rfl⟩, rfl, rfl, rfl, rfl⟩

end Batty
