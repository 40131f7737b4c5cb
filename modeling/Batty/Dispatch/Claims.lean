import Batty.Board.Removal
import Batty.Dispatch.Available

/-!
# What a claim leaves on the board

A claim writes the file of its task up to three times: out of the backlog, under way, and with the
new owner. Any access in between may fail, and what was written before stays. `Board.Replaced` says
that only one file was edited; a claim that goes through leaves the task under way and claimed
(`Board.Claimed`), one that does not leaves the old claim with a status it may have changed
(`Board.HalfClaimed`).
-/

namespace Batty

/-- There is a task where an edit goes, and it has the id. -/
theorem Board.exists_taskAt {board : Board} {taskId : Nat} {path : String}
    (h : board.findPath taskId = some path) :
    ∃ held, board.taskAt path = some held ∧ held.id = taskId := by
  obtain ⟨file, hfile, hname, held, hread, hid⟩ := Board.exists_of_findPath h
  refine ⟨held, ?_, hid⟩
  rw [Board.taskAt, Board.find?_eq_some_iff.mpr ⟨hfile, hname⟩, Option.bind_some, hread]

/-! ### Boards that differ in one file -/

/-- `board'` is `board` after edits of the file at `path`, which holds `task'` now. -/
structure Board.Replaced (board : Board) (path : String) (task' : Task) (board' : Board) :
    Prop where
  taskAt : board'.taskAt path = some task'
  tasks : board'.tasks = board.tasks.map (task'.replacedBy path)
  findPath : ∀ taskId, board'.findPath taskId = board.findPath taskId

section

variable {board board' : Board} {path : String} {task' : Task} {disk disk' : Disk} {taskId : Nat}
  {mutator : Mapping → Mapping}

theorem Board.replaced_refl {task : Task} (h : board.taskAt path = some task) :
    board.Replaced path task board := by
  refine ⟨h, ?_, fun _ => rfl⟩
  obtain ⟨file, hfind, hread⟩ := Option.bind_eq_some_iff.mp h
  have hsame : ∀ other ∈ board.tasks, task.replacedBy path other = other := by
    intro other hmem
    unfold Task.replacedBy
    split
    · rename_i hpath
      exact (Board.eq_of_sourcePath hfind hread hmem hpath).symm
    · rfl
  exact ((List.map_congr_left hsame).trans (List.map_id _)).symm

/-- A further edit of the same file. -/
theorem Board.Replaced.update (h : board.Replaced path task' board')
    (hmutator : EditsTasks mutator) : ∃ file task'', board'.find? path = some file ∧
      file.task = some task' ∧ (file.update mutator).task = some task'' ∧
        board.Replaced path task'' (board'.update path mutator) := by
  obtain ⟨file, task'', hfind, hread, htask'', hsame, htaskAt⟩ :=
    taskAt_update_self h.taskAt hmutator
  refine ⟨file, task'', hfind, hread, htask'', htaskAt, ?_, fun id =>
    (findPath_update h.taskAt hmutator.keepsIds id).trans (h.findPath id)⟩
  have hsource : task'.sourcePath = path :=
    (file.sourcePath_eq_name hread).trans (Board.find?_eq_some_iff.mp hfind).2
  rw [Board.tasks_update hfind hread htask'' hsame.id, h.tasks, List.map_map]
  refine List.map_congr_left fun other _ => ?_
  by_cases hpath : other.sourcePath = path
  · simp [Task.replacedBy, hpath, hsource]
  · simp [Task.replacedBy, hpath]

/-- A command edits the file its id leads to. -/
theorem Board.Replaced.edits (h : board.Replaced path task' disk.board)
    (hpath : board.findPath taskId = some path) (hedits : disk.Edits taskId mutator disk')
    (hmutator : EditsTasks mutator) : ∃ file task'', disk.board.find? path = some file ∧
      file.task = some task' ∧ (file.update mutator).task = some task'' ∧
        disk'.board.find? path = some (file.update mutator) ∧
          board.Replaced path task'' disk'.board := by
  obtain ⟨found, hfound, hleads⟩ := hedits
  obtain rfl : path = found := Option.some.inj ((hpath.symm.trans (h.findPath _).symm).trans hfound)
  obtain ⟨file, task'', hfind, hread, htask'', hreplaced⟩ := h.update hmutator
  refine ⟨file, task'', hfind, hread, htask'', ?_, hleads.board ▸ hreplaced⟩
  rw [hleads.board, Board.find?_update, hfind, Option.map_some, if_pos rfl]

end

/-! ### Unblocked files -/

/-- Nothing is said about being blocked. -/
structure Mapping.Unblocked (mapping : Mapping) : Prop where
  blocked : mapping .blocked = none
  blockReason : mapping .blockReason = none
  blockedOn : mapping .blockedOn = none

theorem unblocked_clearBlocked (mapping : Mapping) : (clearBlocked mapping).Unblocked := by
  constructor <;> simp [clearBlocked]

/-- A frontmatter without block fields is in shape. -/
theorem Mapping.Unblocked.normalizeBlocked {mapping : Mapping} (h : mapping.Unblocked) :
    normalizeBlocked mapping = mapping := by
  have hrepair : blockRepair mapping = none := by
    simp [blockRepair, h.blocked, h.blockReason, h.blockedOn]
  simp only [Batty.normalizeBlocked, hrepair]

theorem TaskFile.mapping_update {file : TaskFile} {mutator : Mapping → Mapping}
    (h : (mutator file.mapping).Unblocked) : (file.update mutator).mapping = mutator file.mapping :=
  h.normalizeBlocked

theorem Task.Reads.unblocked {path body : String} {mapping : Mapping} {task : Task}
    (h : Task.Reads path mapping body task) (hmapping : mapping.Unblocked) :
    task.blocked = none ∧ task.blockedOn = none := by
  obtain ⟨blocked, blockReason, hblocked, hblockReason, hblockedOn, htask⟩ := h.block
  simp only [Mapping.orDefault, hmapping.blocked, Option.some.injEq] at hblocked
  simp only [Mapping.optional, hmapping.blockReason, Option.some.injEq] at hblockReason
  simp only [Mapping.optional, hmapping.blockedOn, Option.some.injEq] at hblockedOn
  subst hblocked hblockReason
  rw [← hblockedOn] at htask ⊢
  exact ⟨htask, rfl⟩

theorem unblocked_transitionMutator {state : TaskState} (h : state ≠ .blocked) (mapping : Mapping) :
    (transitionMutator state mapping).Unblocked := by
  rw [transitionMutator, if_neg h]
  exact unblocked_clearBlocked _

theorem Mapping.Unblocked.assignOwners {mapping : Mapping} (h : mapping.Unblocked)
    (now engineer : String) :
    (assignOwnersMutator now (some engineer) none mapping).Unblocked := by
  constructor <;> simp [assignOwnersMutator, resetClaimTracking, h.blocked, h.blockReason, h.blockedOn]

/-! ### Transitions -/

/-- Finished work is not taken up again. -/
theorem depStatusSatisfied_eq_false {status : String} {current target : TaskState}
    (hcurrent : parseTaskState status = .ok current) (hallowed : canTransition current target = .ok ())
    (htarget : target = .todo ∨ target = .inProgress) : depStatusSatisfied status = false := by
  refine Bool.eq_false_iff.mpr fun hsatisfied => ?_
  simp only [depStatusSatisfied, Bool.or_eq_true, decide_eq_true_eq] at hsatisfied
  rcases hsatisfied with rfl | rfl <;> obtain rfl := Except.ok.inj hcurrent <;>
    rcases htarget with rfl | rfl <;> cases hallowed

/-- The file at `path`, which held `held`, shows this status and this claim now, and nothing else
was edited. Finished work keeps its status. -/
structure Board.Turned (board : Board) (path : String) (held : Task) (status : String)
    (claimedBy : Option String) (board' : Board) : Prop where
  replaced : ∃ task', board.Replaced path task' board' ∧
    held.EditOf task' status claimedBy held.reviewOwner held.dependsOn
  unfinished : status = held.status ∨ depStatusSatisfied held.status = false

/-- The file at `path` says nothing about being blocked. -/
def Board.UnblockedAt (board : Board) (path : String) : Prop :=
  ∃ file, board.find? path = some file ∧ file.mapping.Unblocked

section

variable {board : Board} {path status : String} {held : Task} {claimedBy : Option String}
  {disk disk' : Disk} {taskId : Nat} {engineer : String}

theorem Board.turned_refl (h : board.taskAt path = some held) :
    board.Turned path held held.status held.claimedBy board :=
  ⟨⟨held, board.replaced_refl h, .refl held, rfl, rfl, rfl, rfl⟩, .inl rfl⟩

variable (h : board.Turned path held status claimedBy disk.board)
  (hpath : board.findPath taskId = some path)
include h hpath

theorem Board.Turned.transition {state : TaskState} (hstate : state = .todo ∨ state = .inProgress)
    (hallows : disk.board.AllowsTransition taskId state)
    (hedits : disk.Edits taskId (transitionMutator state) disk') :
    depStatusSatisfied held.status = false ∧
      board.Turned path held (stateName state) claimedBy disk'.board ∧
        disk'.board.UnblockedAt path := by
  obtain ⟨task', hreplaced, hedit⟩ := h.replaced
  have hunfinished : depStatusSatisfied held.status = false := by
    obtain ⟨found, task, current, hfound, htask, hcurrent, hallowed⟩ := hallows
    obtain rfl : path = found :=
      Option.some.inj ((hpath.symm.trans (hreplaced.findPath _).symm).trans hfound)
    obtain rfl : task' = task := Option.some.inj (hreplaced.taskAt.symm.trans htask)
    have hstatus := depStatusSatisfied_eq_false hcurrent hallowed hstate
    refine h.unfinished.elim (fun hsame => ?_) id
    rwa [hedit.status, hsame] at hstatus
  have hblocked : state ≠ .blocked := by rcases hstate with rfl | rfl <;> nofun
  obtain ⟨file, task'', -, hread, htask'', hfind, hreplaced'⟩ :=
    hreplaced.edits hpath hedits (editsTasks_transition state)
  obtain ⟨edited, hedited, hedit'⟩ := task_update_transition hread state
  obtain rfl : task'' = edited := Option.some.inj (htask''.symm.trans hedited)
  have hmapping := unblocked_transitionMutator hblocked file.mapping
  refine ⟨hunfinished, ⟨⟨task'', hreplaced', hedit.toSameBrief.trans hedit'.toSameBrief,
    hedit'.status, hedit'.claimedBy.trans hedit.claimedBy,
    hedit'.reviewOwner.trans hedit.reviewOwner, hedit'.dependsOn.trans hedit.dependsOn⟩,
    .inr hunfinished⟩, _, hfind, ?_⟩
  rwa [TaskFile.mapping_update hmapping]

/-- **A transition** edits the file of its task or nothing. -/
theorem after_transition_turned {target : String} {state : TaskState}
    (htarget : parseTaskState target = .ok state) (hstate : state = .todo ∨ state = .inProgress) :
    After (transitionTask taskId target) disk
      (fun _ disk' => depStatusSatisfied held.status = false ∧
        board.Turned path held (stateName state) claimedBy disk'.board ∧
          disk'.board.UnblockedAt path)
      (fun _ disk' => board.Turned path held status claimedBy disk'.board ∨
        board.Turned path held (stateName state) claimedBy disk'.board) := by
  refine (after_transitionWith transitionMutator taskId htarget).mono
    (fun _ disk' h' => h.transition hpath hstate h'.1 h'.2) fun _ disk' h' => ?_
  rcases h' with hleads | ⟨hallows, hedits⟩
  · exact .inl (hleads.board ▸ h)
  · exact .inr (h.transition hpath hstate hallows hedits).2.1

theorem after_assignTaskOwners_turned (hblock : disk.board.UnblockedAt path) :
    After (assignTaskOwners taskId (some engineer) none) disk
      (fun _ disk' => board.Turned path held status (normalizeOptional engineer) disk'.board ∧
        disk'.board.UnblockedAt path)
      (fun _ disk' => board.Turned path held status claimedBy disk'.board) := by
  simp only [assignTaskOwners, Option.isNone_some, Bool.false_and, Bool.false_eq_true, if_false,
    after_bind, after_get]
  refine (after_editTask taskId _).mono (fun _ disk' hedits => ?_) fun _ disk' hleads =>
    hleads.board ▸ h
  obtain ⟨task', hreplaced, hedit⟩ := h.replaced
  obtain ⟨unblocked, hunblocked, hmapping⟩ := hblock
  obtain ⟨file, task'', hfile, hread, htask'', hfind, hreplaced'⟩ :=
    hreplaced.edits hpath hedits (editsTasks_assignOwners _ _ _)
  obtain rfl : unblocked = file := Option.some.inj (hunblocked.symm.trans hfile)
  obtain ⟨edited, hedited, hedit'⟩ := task_update_assignOwners hread disk.stamp (some engineer) none
  obtain rfl : task'' = edited := Option.some.inj (htask''.symm.trans hedited)
  refine ⟨⟨⟨task'', hreplaced', hedit.toSameBrief.trans hedit'.toSameBrief,
    hedit'.status.trans hedit.status, hedit'.claimedBy,
    hedit'.reviewOwner.trans hedit.reviewOwner, hedit'.dependsOn.trans hedit.dependsOn⟩,
    h.unfinished⟩, _, hfind, ?_⟩
  have hassigned := hmapping.assignOwners disk.stamp engineer
  rwa [TaskFile.mapping_update hassigned]

end

/-! ### Claims -/

/-- The claim went through. -/
structure Board.Claimed (board : Board) (path : String) (held : Task) (engineer : String)
    (board' : Board) : Prop where
  turned : board.Turned path held "in-progress" (normalizeOptional engineer) board'
  unfinished : depStatusSatisfied held.status = false
  unblocked : board'.UnblockedAt path

/-- The claim did not go through: the claim is the old one, the status may be a new one. -/
def Board.HalfClaimed (board : Board) (path : String) (held : Task) (board' : Board) : Prop :=
  ∃ status, board.Turned path held status held.claimedBy board' ∧
    (status = held.status ∨ status = "todo" ∨ status = "in-progress")

theorem Board.Claimed.exists_task {board board' : Board} {path engineer : String} {held : Task}
    (h : board.Claimed path held engineer board') : ∃ task', board.Replaced path task' board' ∧
      held.EditOf task' "in-progress" (normalizeOptional engineer) held.reviewOwner
        held.dependsOn ∧ task'.blocked = none ∧ task'.blockedOn = none := by
  obtain ⟨task', hreplaced, hedit⟩ := h.turned.replaced
  obtain ⟨file, hfind, hmapping⟩ := h.unblocked
  have hread : file.task = some task' := by
    have htaskAt := hreplaced.taskAt
    rwa [Board.taskAt, hfind, Option.bind_some] at htaskAt
  exact ⟨task', hreplaced, hedit, (Task.parse_eq_some_iff.mp hread).unblocked hmapping⟩

section

variable {disk : Disk} {path engineer : String} {task held : Task}
  (hpath : disk.board.findPath task.id = some path) (hheld : disk.board.taskAt path = some held)
include hpath hheld

theorem after_promoteBacklog : After (promoteBacklog task) disk
    (fun _ disk' => disk.board.Turned path held held.status held.claimedBy disk'.board ∨
      disk.board.Turned path held "todo" held.claimedBy disk'.board) (fun _ _ => False) := by
  have hrefl := Board.turned_refl hheld
  unfold promoteBacklog
  split
  · refine after_map.mpr (after_attempt.mpr ?_)
    exact (after_transition_turned hrefl hpath parseTaskState_todo (.inl rfl)).mono
      (fun _ _ h => .inr h.2.1) fun _ _ h => h
  · exact .inl hrefl

/-- **A claim** goes through or leaves the old claim. -/
theorem after_claimTask : After (claimTask engineer task) disk
    (fun result disk' => (result = .ok () ∧ disk.board.Claimed path held engineer disk'.board) ∨
      ((∃ error, result = .error error) ∧ disk.board.HalfClaimed path held disk'.board))
    (fun _ disk' => disk.board.HalfClaimed path held disk'.board) := by
  simp only [claimTask, after_bind]
  refine (after_promoteBacklog hpath hheld).mono (fun _ disk₁ h₁ => ?_) fun _ _ h => h.elim
  obtain ⟨status, hturned, hstatus⟩ : ∃ status,
      disk.board.Turned path held status held.claimedBy disk₁.board ∧
        (status = held.status ∨ status = "todo") :=
    h₁.elim (fun h => ⟨_, h, .inl rfl⟩) fun h => ⟨_, h, .inr rfl⟩
  rw [after_attempt]
  refine (after_transition_turned hturned hpath parseTaskState_inProgress (.inr rfl)).mono
    (fun _ disk₂ h₂ => ?_)
    fun error disk₂ h₂ => .inr ⟨⟨error, rfl⟩, ?_⟩
  · obtain ⟨hunfinished, hturned, hblock⟩ := h₂
    rw [after_bind]
    refine (after_assignTaskOwners_turned hturned hpath hblock).mono (fun _ disk₃ h₃ => ?_)
      fun _ disk₃ h₃ => ⟨_, h₃, .inr (.inr rfl)⟩
    exact .inl ⟨rfl, h₃.1, hunfinished, h₃.2⟩
  · rcases h₂ with hsame | hmoved
    · exact ⟨status, hsame, hstatus.imp_right .inl⟩
    · exact ⟨_, hmoved, .inr (.inr rfl)⟩

end

end Batty
