import Batty.Foundation.Substrings
import Batty.Foundation.Text
import Batty.Foundation.Trimming
import Batty.Merge.Budget

/-!
# Completion packets

An engineer ends a report with a packet in a fenced block under a heading. What is read of the
report is the text in its first fenced block, wherever that stands, so a command that is quoted in
front of the packet hides it. `findsPacket_iff` says that apart from such blocks, and from packets
whose own text holds a fence, every packet is found.

A packet that was read is written to the file of its own task or to none
(`after_ingestCompletionMessage`).
-/

namespace Batty

open Text

/-- What an engineer hands over with a task. -/
structure CompletionPacket where
  taskId : Nat
  branch : Option String
  worktreePath : Option String
  commit : Option String
  changedPaths : List String
  testsRun : Bool
  testsPassed : Bool
  artifacts : List String
  outcome : String
deriving DecidableEq

/-- The readers of the two formats, which are those of a library. -/
structure PacketReaders where
  json : List Char → Option CompletionPacket
  yaml : List Char → Option CompletionPacket

/-! ### Reading -/

def packetFence : List Char := "```".toList

def packetHeading : List Char := "## Completion Packet".toList

/-- The text in the first fenced block. -/
def firstBlock (text : List Char) : Option (List Char) :=
  (splitOnce packetFence text).bind fun found =>
    let afterFence := found.2
    let inner := ((splitOnce ['\n'] afterFence).map Prod.snd).getD afterFence
    (splitOnce packetFence inner).map fun block => trim block.1

def extractPacketText (text : List Char) : Option (List Char) :=
  firstBlock text <|>
    ((splitOnce packetHeading text).map fun found => trim found.2).filter (· ≠ [])

def PacketReaders.read (readers : PacketReaders) (content : List Char) : Option CompletionPacket :=
  readers.json content <|> readers.yaml content

def parseCompletion (readers : PacketReaders) (text : List Char) :
    Except String CompletionPacket :=
  match readers.read (trim ((extractPacketText text).getD text)) with
  | some packet => .ok packet
  | none => .error "failed to parse completion packet as JSON or YAML"

/-! ### Ingesting -/

/-- Whether a packet is complete. -/
structure CompletionValidation where
  isComplete : Bool
  missingFields : List String
  warnings : List String

def isBlank (value : Option String) : Bool := value.all (· = "")

def validateCompletion (packet : CompletionPacket) : CompletionValidation :=
  let missingFields :=
    (if packet.taskId = 0 then ["task_id"] else []) ++
    (if isBlank packet.branch then ["branch"] else []) ++
    (if isBlank packet.commit then ["commit"] else []) ++
    (if !packet.testsRun then ["tests_run"] else [])
  let warnings :=
    (if isBlank packet.worktreePath then ["worktree_path missing"] else []) ++
    (if !packet.testsPassed then ["tests_passed is false"] else []) ++
    (if trim packet.outcome.toList = [] then ["outcome missing"] else [])
  { isComplete := missingFields.isEmpty, missingFields, warnings }

def applyCompletionToMetadata (packet : CompletionPacket) (metadata : WorkflowRecord) :
    WorkflowRecord :=
  { metadata with
    branch := packet.branch
    worktreePath := packet.worktreePath
    commit := packet.commit
    changedPaths := packet.changedPaths
    testsRun := some packet.testsRun
    testsPassed := some packet.testsPassed
    artifacts := packet.artifacts
    outcome := some packet.outcome }

/-- What is found outside of the board: the reasons for which the branch and the artifacts belong to
another task, whether a worktree is there, and what the diffs in it are blamed for. -/
structure IngestChecks where
  drift : CompletionPacket → Except String (List String)
  worktreeExists : String → Bool
  outOfScope : String → Except String (List String)
  notReady : String → Except String (List String)

def resolveWorktreePath (packet : CompletionPacket) : Except String String :=
  match packet.worktreePath.filter fun path => trim path.toList ≠ [] with
  | some path => .ok path
  | none => .error "worktree_path missing for commit validation"

def scopeReviewBlockers (checks : IngestChecks) (packet : CompletionPacket) :
    Except String (List String) := do
  let worktree ← resolveWorktreePath packet
  if !checks.worktreeExists worktree then return []
  checks.outOfScope worktree

def reviewReadyBlockers (checks : IngestChecks) (packet : CompletionPacket)
    (blockers : List String) : Except String (List String) :=
  match resolveWorktreePath packet with
  | .ok worktree =>
    if trim packet.outcome.toList = "ready_for_review".toList ∧ blockers.isEmpty ∧
        checks.worktreeExists worktree then checks.notReady worktree
    else .ok []
  | .error _ => .ok []

/-- The file of the first task of that id. -/
def findPacketTask (taskId : Nat) : DiskAction String := do
  let tasks ← loadTasks
  match tasks.find? fun task => task.id = taskId with
  | some task => pure task.sourcePath
  | none => throw s!"task #{taskId} not found in {(← get).tasksDir}"

def validateCompletionMetadataTarget (checks : IngestChecks) (path : String)
    (packet : CompletionPacket) : DiskAction Unit := do
  let task ← taskFromFile path
  let drift ← orFail (checks.drift packet)
  let other := s!"task path {path} has frontmatter id #{task.id} instead of #{packet.taskId}"
  let reasons := (if task.id ≠ packet.taskId then [other] else []) ++ drift
  if !reasons.isEmpty then
    throw (s!"completion metadata target mismatch for task #{packet.taskId}: " ++
      "; ".intercalate reasons)

/-- Take the packet of a message into the metadata of its task. -/
def ingestCompletionMessage (readers : PacketReaders) (checks : IngestChecks)
    (message : List Char) : DiskAction (Option Nat) := do
  if !decide ("Completion Packet".toList <:+: message) then return none
  let packet ← orFail (parseCompletion readers message)
  if !packet.testsPassed then throw "completion packet rejected: tests_passed must be true"
  let validation := validateCompletion packet
  let path ← findPacketTask packet.taskId
  access s!"failed to read {path}"
  validateCompletionMetadataTarget checks path packet
  let metadata := applyCompletionToMetadata packet (← readWorkflowMetadata path)
  let scope ← orFail (scopeReviewBlockers checks packet)
  let blockers := validation.missingFields ++ scope
  let ready ← orFail (reviewReadyBlockers checks packet blockers)
  writeWorkflowMetadata path { metadata with reviewBlockers := blockers ++ ready }
  return some packet.taskId

/-! ### Messages with a packet -/

/-- A message with a packet in a fenced block under the heading. The text in the block is one that
the readers take for the packet. -/
structure PacketMessage (readers : PacketReaders) where
  packet : CompletionPacket
  before : List Char
  gap : List Char
  language : List Char
  rendered : List Char
  after : List Char
  gap_blank : ∀ c ∈ gap, isWhitespace c = true
  language_line : '\n' ∉ language
  reads : readers.read (trim rendered) = some packet

section

variable {readers : PacketReaders}

def PacketMessage.text (message : PacketMessage readers) : List Char :=
  message.before ++ packetHeading ++ message.gap ++ packetFence ++ message.language ++
    '\n' :: message.rendered ++ '\n' :: packetFence ++ message.after

/-- Nothing changes on the board but the metadata in a file of the task. -/
def RecordsOnly (taskId : Nat) (board board' : Board) : Prop :=
  board' = board ∨ ∃ path task metadata, board.taskAt path = some task ∧ task.id = taskId ∧
    board' = board.update path (metadataMutator metadata)

/-- The packet is what is read of the message, and is recorded for its task or not at all. -/
def FindsPacket (message : PacketMessage readers) : Prop :=
  parseCompletion readers message.text = .ok message.packet ∧
    ∀ checks disk, After (ingestCompletionMessage readers checks message.text) disk
      (fun _ disk' => RecordsOnly message.packet.taskId disk.board disk'.board)
      (fun _ disk' => RecordsOnly message.packet.taskId disk.board disk'.board)

/-- There is no fence in front of the block, and none in it. -/
def PacketMessage.Plain (message : PacketMessage readers) : Prop :=
  ¬ packetFence <:+: message.before ∧ ¬ packetFence <:+: message.rendered

/-- The first fenced block of the message reads as the packet all the same. -/
def PacketMessage.ReadsFirst (message : PacketMessage readers) : Prop :=
  ∃ block, firstBlock message.text = some block ∧ readers.read block = some message.packet

/-! ### The first fenced block -/

theorem trim_concat_newline (s : List Char) : trim (s ++ ['\n']) = trim s :=
  trim_append_blanks (List.all_eq_true.mp (by decide)) s

theorem trim_of_firstBlock {text block : List Char} (h : firstBlock text = some block) :
    trim block = block := by
  obtain ⟨found, -, hblock⟩ := Option.bind_eq_some_iff.mp h
  obtain ⟨content, -, rfl⟩ := Option.map_eq_some_iff.mp hblock
  exact trim_trim _

theorem parseCompletion_of_firstBlock {text block : List Char} (h : firstBlock text = some block) :
    parseCompletion readers text = match readers.read block with
      | some packet => .ok packet
      | none => .error "failed to parse completion packet as JSON or YAML" := by
  have hextract : extractPacketText text = some block := by
    rw [extractPacketText, h]
    rfl
  rw [parseCompletion, hextract, Option.getD_some, trim_of_firstBlock h]

/-- The message from its block on: what follows the opening fence. -/
def PacketMessage.tail (message : PacketMessage readers) : List Char :=
  message.language ++ '\n' :: (message.rendered ++ '\n' :: (packetFence ++ message.after))

theorem PacketMessage.text_eq (message : PacketMessage readers) : message.text =
    (message.before ++ packetHeading ++ message.gap) ++ packetFence ++ message.tail := by
  simp [text, tail]

/-- A message has a first fenced block, since the packet is in one. -/
theorem PacketMessage.firstBlock_isSome (message : PacketMessage readers) :
    ∃ block, firstBlock message.text = some block := by
  have htext := message.text_eq
  have hopen : (splitOnce packetFence message.text).isSome := by
    rw [Option.isSome_iff_ne_none, Ne, splitOnce_eq_none_iff, not_not]
    exact ⟨_, _, htext.symm⟩
  obtain ⟨⟨front, behind⟩, hopen⟩ := Option.isSome_iff_exists.mp hopen
  obtain ⟨skipped, hbehind⟩ := suffix_of_splitOnce hopen htext
  -- The line of the first fence ends in front of the packet or with the line of its own fence.
  have hlines : behind = (skipped ++ message.language) ++ ['\n'] ++
      (message.rendered ++ '\n' :: (packetFence ++ message.after)) := by
    rw [← hbehind, tail]
    simp
  have hline : (splitOnce ['\n'] behind).isSome := by
    rw [Option.isSome_iff_ne_none, Ne, splitOnce_eq_none_iff, not_not]
    exact ⟨_, _, hlines.symm⟩
  obtain ⟨⟨line, inner⟩, hline⟩ := Option.isSome_iff_exists.mp hline
  obtain ⟨passed, hinner⟩ := suffix_of_splitOnce hline hlines
  have hclose : (splitOnce packetFence inner).isSome := by
    rw [Option.isSome_iff_ne_none, Ne, splitOnce_eq_none_iff, not_not, ← hinner]
    exact ⟨passed ++ message.rendered ++ ['\n'], message.after, by simp⟩
  obtain ⟨⟨content, rest⟩, hclose⟩ := Option.isSome_iff_exists.mp hclose
  exact ⟨trim content, by simp [firstBlock, hopen, hline, hclose]⟩

theorem parseCompletion_iff (message : PacketMessage readers) :
    parseCompletion readers message.text = .ok message.packet ↔ message.ReadsFirst := by
  obtain ⟨block, hblock⟩ := message.firstBlock_isSome
  rw [parseCompletion_of_firstBlock hblock]
  constructor
  · intro hparse
    refine ⟨block, hblock, ?_⟩
    split at hparse
    · rename_i packet hread
      rw [hread, Except.ok.inj hparse]
    · cases hparse
  · rintro ⟨block', hblock', hread⟩
    obtain rfl := Option.some_inj.mp (hblock.symm.trans hblock')
    rw [hread]

/-- A fence is three signs of one kind. -/
theorem eq_of_mem_fence {c : Char} (h : c ∈ packetFence) : c = Char.ofNat 96 := by
  simpa [packetFence] using h

/-- The heading begins with a sign of its own, and no sign of a fence stands in it. -/
theorem exists_packetHeading_eq :
    ∃ rest, packetHeading = '#' :: rest ∧ Char.ofNat 96 ∉ rest :=
  ⟨"# Completion Packet".toList, by decide, by decide⟩

/-- A plain message is read where its packet stands. -/
theorem PacketMessage.Plain.readsFirst {message : PacketMessage readers} (h : message.Plain) :
    message.ReadsFirst := by
  obtain ⟨hbefore, hrendered⟩ := h
  have hne : packetFence ≠ [] := by decide
  obtain ⟨heading, hheading, hplain⟩ := exists_packetHeading_eq
  have htext : message.text = message.before ++ '#' ::
      ((heading ++ message.gap) ++ (packetFence ++ message.tail)) := by
    rw [message.text_eq, hheading]
    simp
  have hskip : ∀ c ∈ heading ++ message.gap, c ∉ packetFence := by
    intro c hc hfence
    rw [eq_of_mem_fence hfence] at hc
    rcases List.mem_append.mp hc with hc | hc
    · exact hplain hc
    · exact absurd (message.gap_blank _ hc) (by decide)
  have hopen : ∃ front, splitOnce packetFence message.text = some (front, message.tail) := by
    rw [htext, splitOnce_gap hne (by decide) hbefore, splitOnce_skip hne hskip,
      splitOnce_self_append hne]
    exact ⟨_, rfl⟩
  obtain ⟨front, hopen⟩ := hopen
  have hline : splitOnce ['\n'] message.tail =
      some (message.language, message.rendered ++ '\n' :: (packetFence ++ message.after)) := by
    have hskip : ∀ c ∈ message.language, c ∉ ['\n'] := by
      intro c hc hnewline
      rw [List.mem_singleton.mp hnewline] at hc
      exact message.language_line hc
    have hnewline : ['\n'] ≠ [] := List.cons_ne_nil _ _
    have htail : message.tail = message.language ++
        (['\n'] ++ (message.rendered ++ '\n' :: (packetFence ++ message.after))) := rfl
    rw [htail, splitOnce_skip hnewline hskip, splitOnce_self_append hnewline, Option.map_some,
      List.append_nil]
  have hclose : splitOnce packetFence (message.rendered ++ '\n' :: (packetFence ++ message.after)) =
      some (message.rendered ++ ['\n'], message.after) := by
    rw [splitOnce_gap hne (by decide) hrendered, splitOnce_self_append hne]
    rfl
  refine ⟨trim message.rendered, ?_, message.reads⟩
  simp [firstBlock, hopen, hline, hclose, trim_concat_newline]

/-! ### Recording -/

section

variable {checks : IngestChecks} {packet : CompletionPacket} {path : String} {disk : Disk}

theorem after_findPacketTask (taskId : Nat) : After (findPacketTask taskId) disk
    (fun path disk' => disk'.board = disk.board ∧
      ∃ task, disk.board.taskAt path = some task ∧ task.id = taskId)
    (fun _ disk' => disk'.board = disk.board) := by
  simp only [findPacketTask, after_bind]
  refine after_loadTasks.mono (fun tasks disk' h => ?_) fun _ _ h => h.board
  obtain ⟨hleads, rfl⟩ := h
  cases hfind : disk.board.tasks.find? fun task => task.id = taskId with
  | none => simpa only [after_bind, after_get, after_throw] using hleads.board
  | some task =>
    refine ⟨hleads.board, task, Board.taskAt_sourcePath (List.mem_of_find?_eq_some hfind), ?_⟩
    simpa using List.find?_some hfind

theorem after_validateCompletionMetadataTarget :
    After (validateCompletionMetadataTarget checks path packet) disk
      (fun _ disk' => disk'.board = disk.board) (fun _ disk' => disk'.board = disk.board) := by
  simp only [validateCompletionMetadataTarget, after_bind]
  refine (after_taskFromFile path).mono (fun task disk' h => ?_) fun _ _ h => h.board
  cases checks.drift packet with
  | error error => simpa only [after_orFail_error] using h.1.board
  | ok drift =>
    simp only [after_orFail_ok]
    split <;> split <;> exact h.1.board

theorem after_orFail_board {α : Type} (result : Except String α) :
    After (orFail result) disk (fun _ disk' => disk' = disk) (fun _ disk' => disk' = disk) := by
  cases result <;> rfl

/-- **What is ingested** is written to a file of the task in the packet, or not at all. -/
theorem after_ingestCompletionMessage {text : List Char}
    (hparse : parseCompletion readers text = .ok packet) :
    After (ingestCompletionMessage readers checks text) disk
      (fun _ disk' => RecordsOnly packet.taskId disk.board disk'.board)
      (fun _ disk' => RecordsOnly packet.taskId disk.board disk'.board) := by
  unfold ingestCompletionMessage
  split
  · exact .inl rfl
  simp only [hparse, after_bind, after_orFail_ok]
  split
  · exact .inl rfl
  simp only [after_bind]
  refine (after_findPacketTask packet.taskId).mono (fun path disk₁ h₁ => ?_) fun _ _ h => .inl h
  obtain ⟨h₁, task, htask, hid⟩ := h₁
  refine (after_access _ disk₁).mono (fun _ disk₂ h₂ => ?_) fun _ _ h => .inl (h.board.trans h₁)
  have h₂ := h₂.board.trans h₁
  refine after_validateCompletionMetadataTarget.mono (fun _ disk₃ h₃ => ?_)
    fun _ _ h => .inl (h.trans h₂)
  have h₃ := h₃.trans h₂
  refine (CompletionDaemon.after_readWorkflowMetadata path disk₃).mono (fun metadata disk₄ h₄ => ?_)
    fun _ _ h => .inl (h.trans h₃)
  have h₄ := h₄.trans h₃
  refine (after_orFail_board _).mono (fun scope disk₅ h₅ => ?_) fun _ _ h => .inl (h ▸ h₄)
  subst h₅
  refine (after_orFail_board _).mono (fun ready disk₆ h₆ => ?_) fun _ _ h => .inl (h ▸ h₄)
  subst h₆
  refine (after_updateTaskFrontmatter path _).mono (fun _ disk₇ h₇ => ?_)
    fun _ _ h => .inl (h.board.trans h₄)
  have h₇ := h₇.board
  rw [h₄] at h₇
  exact .inr ⟨path, task, _, htask, hid, h₇⟩

end

/-- **A packet is found** if and only if no fence stands in front of its block and none in it, or
the first fenced block happens to read as the packet. -/
theorem findsPacket_iff {readers : PacketReaders} (message : PacketMessage readers) :
    FindsPacket message ↔ message.Plain ∨ message.ReadsFirst := by
  rw [FindsPacket, parseCompletion_iff]
  constructor
  · exact fun h => .inr h.1
  · intro h
    have hreads := h.elim PacketMessage.Plain.readsFirst id
    refine ⟨hreads, fun checks disk => ?_⟩
    exact after_ingestCompletionMessage ((parseCompletion_iff message).mpr hreads)

end

/-! ### A packet behind a quoted command -/

def packetOfTask : CompletionPacket where
  taskId := 27
  branch := some "eng-1/task-27"
  worktreePath := none
  commit := some "abc1234"
  changedPaths := []
  testsRun := true
  testsPassed := true
  artifacts := []
  outcome := "ready_for_review"

def yamlOfTask : List Char :=
  ("task_id: 27\nbranch: eng-1/task-27\ncommit: abc1234\ntests_run: true\n" ++
    "tests_passed: true\noutcome: ready_for_review").toList

/-- The readers on the packet: it is YAML and no JSON. -/
def yamlReaders : PacketReaders where
  json _ := none
  yaml content := if content = yamlOfTask then some packetOfTask else none

def behindCommand : PacketMessage yamlReaders where
  packet := packetOfTask
  before := "Verified with\n```\ncargo test\n```\n".toList
  gap := "\n\n".toList
  language := "yaml".toList
  rendered := yamlOfTask
  after := []
  gap_blank := List.all_eq_true.mp (by decide)
  language_line := by decide
  reads := by decide +kernel

/-- What is read of the message is the command. -/
theorem not_findsPacket : ¬ ∀ (readers : PacketReaders) (message : PacketMessage readers),
    FindsPacket message := by
  intro h
  obtain ⟨block, hblock, hread⟩ := (parseCompletion_iff behindCommand).mp (h _ behindCommand).1
  have hcommand : firstBlock behindCommand.text = some "cargo test".toList := by decide +kernel
  obtain rfl := Option.some_inj.mp (hcommand.symm.trans hblock)
  revert hread
  decide +kernel

end Batty
