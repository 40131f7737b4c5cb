import Mathlib.Data.List.Infix
import Batty.Merge.Completion

/-!
# Retries

An engineer whose agent stalls in the middle of a turn is left to go on after a while, or restarted,
and after five such turns its task is blocked; a conflict of its branch with the trunk goes back to
it twice. Both are counted by one counter, which is only reset when the engineer is released from
the task, so that a conflict counts as a stall and a stall as a conflict, and so does a stall that
came before turns that went well.

* `CompletionDaemon.takeTurn`: one turn of the engineer, or one pass of the merge queue.
* `budgetsKept_iff_separate`: what is counted is what should be, exactly if a stall comes after
  nothing that was counted but the stalls right before it, and a conflict after less than two
  failures or after two conflicts.
-/

namespace Batty

def CompletionNote.isConflict : CompletionNote → Bool
  | .rebaseConflict _ => true
  | _ => false

/-- The note is of nothing that is counted. -/
def CompletionNote.isQuiet : CompletionNote → Bool
  | .rebaseConflict _ | .stallBackoff _ _ | .stallRestart _ | .stallBlocked _ => false
  | .escalated _ _ | .completed _ | .rejected _ | .testsFailed _ => true

namespace CompletionDaemon

/-! ### Stalls -/

def stalledMidTurnMarker : String := "stalled mid-turn"

def stalledMidTurnRetryBackoffSecs : List Nat := [30, 60]

def stalledMidTurnMaxAttempts : Nat := 5

def stalledMidTurnBackoffSecs (attempt : Nat) : Option Nat :=
  stalledMidTurnRetryBackoffSecs[attempt - 1]?

def responseIsStalledMidTurn (response : String) : Bool :=
  stalledMidTurnMarker.toList <:+: response.toList.takeWhile (· ≠ '\n')

/-- Block the task and take the engineer's name off it; no error is handed on. -/
def blockStalledTask (settings : CompletionSettings) (completion : Completion) (attempt : Nat) :
    Option Nat → CompletionAction Unit
  | some taskId => do
    let reason := s!"stall-retry cap: SDK stalled mid-turn {attempt}x on {settings.engineer}; " ++
      "needs human triage"
    let _ ← Batty.attempt (onBoard completion .block (blockTaskWithReason taskId reason))
    let _ ← Batty.attempt (onBoard completion .release (assignTaskOwners taskId (some "") none))
    discard (Batty.attempt (messageManager settings completion))
  | none => pure ()

/-- Wait and go on, or start the agent again, or give up. -/
def retryStalled (settings : CompletionSettings) (completion : Completion)
    (restart : Except String Unit) (attempt : Nat) : CompletionAction Unit :=
  if attempt > stalledMidTurnMaxAttempts then do
    note (.stallBlocked attempt)
    blockStalledTask settings completion attempt (← get).activeTask
    clearActiveTask
  else
    match stalledMidTurnBackoffSecs attempt with
    | some backoffSecs => do
      note (.stallBackoff attempt backoffSecs)
      orFail (completion.message settings.engineer)
    | none => do
      note (.stallRestart attempt)
      orFail restart

/-- What is done about a turn that ended in a stall, if it did. -/
def handleStalledMidTurnCompletion (settings : CompletionSettings) (completion : Completion)
    (restart : Except String Unit) (response : String) : CompletionAction Bool :=
  if !responseIsStalledMidTurn response then return false
  else do
    let attempt ← incrementRetry
    retryStalled settings completion restart attempt
    return true

/-! ### Turns -/

/-- A conflict at the head of the merge queue. -/
def handleQueuedConflict (settings : CompletionSettings) (completion : Completion) (taskId : Nat) :
    CompletionAction Unit := do
  let attempt ← incrementRetry
  note (.rebaseConflict attempt)
  if attempt ≤ 2 then orFail (completion.message settings.engineer)
  else
    messageManager settings completion
    reportToManager settings completion
    note (.escalated taskId "merge_conflict")
    runKanban (completion.kanban.block taskId)
    clearActiveTask

def settleQueuedMerge (settings : CompletionSettings) (completion : Completion) (taskId : Nat) :
    MergeOutcome → CompletionAction Unit
  | .success => handleMergeSuccess settings completion taskId
  | .rebaseConflict _ => handleQueuedConflict settings completion taskId
  | .mergeFailure _ => handleMergeFailure settings completion taskId

/-- What happens to an engineer's task: a turn ends with a response, or its branch is merged. -/
inductive EngineerTurn where
  | responded (response : String) (completion : Completion) (restart : Except String Unit)
  | queuedMerge (outcome : MergeOutcome) (completion : Completion)

def takeTurn (settings : CompletionSettings) : EngineerTurn → CompletionAction Unit
  | .responded response completion restart => do
    if ← handleStalledMidTurnCompletion settings completion restart response then return ()
    else handleEngineerCompletion settings completion
  | .queuedMerge outcome completion => do
    match (← get).activeTask with
    | none => return ()
    | some taskId => settleQueuedMerge settings completion taskId outcome

def afterTurn (settings : CompletionSettings) (daemon : CompletionDaemon) (turn : EngineerTurn) :
    CompletionDaemon :=
  endState (takeTurn settings turn) daemon

/-! ### The laws -/

/-- Which counter a turn counts on. -/
inductive TurnKind where
  | stall | conflict | other
deriving DecidableEq

/-- What a turn has to do with the budgets: nothing, if it neither stalls nor ends in a conflict. -/
def turnKind (settings : CompletionSettings) (daemon : CompletionDaemon) (turn : EngineerTurn) :
    TurnKind :=
  let conflicts := (daemon.notedSince (daemon.afterTurn settings turn)).any
    CompletionNote.isConflict
  match turn with
  | .responded response _ _ =>
    if responseIsStalledMidTurn response then .stall else bif conflicts then .conflict else .other
  | .queuedMerge _ _ => bif conflicts then .conflict else .other

/-- The stalls right before. -/
def stallStreak (history : List TurnKind) : Nat := (history.takeWhile (· = .stall)).length

/-- All that has been counted. -/
def counted (history : List TurnKind) : Nat := history.countP (· ≠ .other)

/-- One turn, after those of the history, the latest of them first. -/
structure KeepsBudgets (history : List TurnKind) (kind : TurnKind) (noted : List CompletionNote) :
    Prop where
  stallCap : ∀ attempt, .stallBlocked attempt ∈ noted →
    stalledMidTurnMaxAttempts < stallStreak history + 1
  backoff : ∀ attempt backoffSecs, .stallBackoff attempt backoffSecs ∈ noted →
    stalledMidTurnRetryBackoffSecs[stallStreak history]? = some backoffSecs
  backsOff : kind = .stall → ∀ backoffSecs ∈ stalledMidTurnRetryBackoffSecs[stallStreak history]?,
    ∃ attempt, .stallBackoff attempt backoffSecs ∈ noted
  conflictCap : ∀ attempt, .rebaseConflict attempt ∈ noted → 2 < attempt →
    2 ≤ history.count .conflict

/-- As long as the engineer has the task, every turn keeps to the budgets. -/
def BudgetsKept (settings : CompletionSettings) :
    List TurnKind → CompletionDaemon → List EngineerTurn → Prop
  | _, _, [] => True
  | history, daemon, turn :: turns => daemon.activeTask.isSome →
      KeepsBudgets history (daemon.turnKind settings turn)
        (daemon.notedSince (daemon.afterTurn settings turn)) ∧
      BudgetsKept settings (daemon.turnKind settings turn :: history)
        (daemon.afterTurn settings turn) turns

/-- A stall comes after nothing that was counted but the stalls right before it, and a conflict
after less than two failures or after two conflicts. -/
def SeparateAfter (history : List TurnKind) : TurnKind → Prop
  | .stall => counted history = stallStreak history
  | .conflict => counted history < 2 ∨ 2 ≤ history.count .conflict
  | .other => True

instance (history : List TurnKind) (kind : TurnKind) : Decidable (SeparateAfter history kind) := by
  cases kind <;> unfold SeparateAfter <;> infer_instance

def Separate (settings : CompletionSettings) :
    List TurnKind → CompletionDaemon → List EngineerTurn → Prop
  | _, _, [] => True
  | history, daemon, turn :: turns => daemon.activeTask.isSome →
      SeparateAfter history (daemon.turnKind settings turn) ∧
      Separate settings (daemon.turnKind settings turn :: history)
        (daemon.afterTurn settings turn) turns

/-- What is noted of a stall. -/
def stallNote (attempt : Nat) : CompletionNote :=
  if attempt > stalledMidTurnMaxAttempts then .stallBlocked attempt
  else
    match stalledMidTurnBackoffSecs attempt with
    | some backoffSecs => .stallBackoff attempt backoffSecs
    | none => .stallRestart attempt

/-! ### What a turn counts -/

/-- Nothing is counted, and nothing released. -/
structure Steady (daemon next : CompletionDaemon) : Prop where
  activeTask : next.activeTask = daemon.activeTask
  retryCount : next.retryCount = daemon.retryCount
  notes : ∃ noted, next.notes = daemon.notes ++ noted ∧ ∀ entry ∈ noted, entry.isQuiet = true

/-- Nothing is counted, or the engineer is released. -/
structure Quiet (daemon next : CompletionDaemon) : Prop where
  activeTask : next.activeTask = none ∨
    next.activeTask = daemon.activeTask ∧ next.retryCount = daemon.retryCount
  notes : ∃ noted, next.notes = daemon.notes ++ noted ∧ ∀ entry ∈ noted, entry.isQuiet = true

/-- One failure is counted and noted, and whoever is not released still has the task. -/
structure Counts (entry : CompletionNote) (daemon next : CompletionDaemon) : Prop where
  activeTask : next.activeTask = none ∨
    next.activeTask = daemon.activeTask ∧ next.retryCount = daemon.retryCount + 1
  notes : ∃ before later, next.notes = daemon.notes ++ (before ++ entry :: later) ∧
    (∀ other ∈ before, other.isQuiet = true) ∧ ∀ other ∈ later, other.isQuiet = true

instance : IsPreorder CompletionDaemon Steady where
  refl _ := ⟨rfl, rfl, [], (List.append_nil _).symm, nofun⟩
  trans _ _ _ h h' := ⟨h'.activeTask.trans h.activeTask, h'.retryCount.trans h.retryCount,
    notes_trans h.notes h'.notes⟩

instance : IsPreorder CompletionDaemon Quiet where
  refl _ := ⟨.inr ⟨rfl, rfl⟩, [], (List.append_nil _).symm, nofun⟩
  trans _ _ _ h h' := by
    refine ⟨?_, notes_trans h.notes h'.notes⟩
    rcases h'.activeTask with hnone | ⟨hactive, hretry⟩
    · exact .inl hnone
    · rw [hactive, hretry]
      exact h.activeTask

theorem Steady.quiet {daemon next : CompletionDaemon} (h : daemon.Steady next) :
    daemon.Quiet next :=
  ⟨.inr ⟨h.activeTask, h.retryCount⟩, h.notes⟩

theorem steady_of_eq {daemon next : CompletionDaemon}
    (hactive : next.activeTask = daemon.activeTask)
    (hretry : next.retryCount = daemon.retryCount) (hnotes : next.notes = daemon.notes) :
    daemon.Steady next :=
  ⟨hactive, hretry, [], by rw [hnotes, List.append_nil], nofun⟩

section

variable {settings : CompletionSettings} {completion : Completion} {taskId : Nat} {α : Type}

theorem Still.steady {daemon next : CompletionDaemon} (h : daemon.Still next) :
    daemon.Steady next :=
  steady_of_eq h.activeTask h.retryCount h.notes

theorem steady_of_still {m : CompletionAction α} (h : Moves Still m) : Moves Steady m :=
  h.mono fun _ _ => Still.steady

theorem quiet_of_steady {m : CompletionAction α} (h : Moves Steady m) : Moves Quiet m :=
  h.mono fun _ _ => Steady.quiet

theorem quiet_of_still {m : CompletionAction α} (h : Moves Still m) : Moves Quiet m :=
  quiet_of_steady (steady_of_still h)

theorem steady_modify {f : CompletionDaemon → CompletionDaemon}
    (hactive : ∀ daemon, (f daemon).activeTask = daemon.activeTask)
    (hretry : ∀ daemon, (f daemon).retryCount = daemon.retryCount)
    (hnotes : ∀ daemon, (f daemon).notes = daemon.notes) :
    Moves Steady (modify f : CompletionAction Unit) :=
  moves_modify fun daemon => steady_of_eq (hactive daemon) (hretry daemon) (hnotes daemon)

theorem steady_note {entry : CompletionNote} (h : entry.isQuiet = true) :
    Moves Steady (note entry) :=
  moves_modify fun _ => ⟨rfl, rfl, [entry], rfl, by simpa using h⟩

theorem quiet_clearActiveTask : Moves Quiet clearActiveTask :=
  moves_modify fun _ => ⟨.inl rfl, [], (List.append_nil _).symm, nofun⟩

theorem steady_recoverBranch (recovery : VerificationRecovery) (run : VerificationRunResult)
    (state : VerificationState) :
    Moves Steady (recoverBranch settings completion taskId recovery run state) :=
  moves_recoverBranch (fun _ _ => Still.steady) (fun _ => steady_of_eq rfl rfl rfl) _ _ _

theorem quiet_escalateVerification (reason : String) :
    Moves Quiet (escalateVerification settings completion taskId reason) := by
  refine moves_messageManager.bind fun _ => ?_
  refine (quiet_of_steady (steady_note rfl)).bind fun _ => ?_
  refine (quiet_of_still (still_onBoard _ _)).bind fun _ => ?_
  refine (quiet_of_still (still_onBoard _ _)).bind fun _ => ?_
  exact quiet_clearActiveTask.bind fun _ => quiet_of_still still_forgetNarration

theorem steady_keepVerification (state : VerificationState) :
    Moves Steady (keepVerification taskId state) := by
  refine (steady_note rfl).bind fun _ => ?_
  exact steady_modify (fun _ => rfl) (fun _ => rfl) fun _ => rfl

theorem quiet_rejectCompletion (findings : Findings) (run : VerificationRunResult)
    (state : VerificationState) :
    Moves Quiet (rejectCompletion settings completion taskId findings run state) := by
  refine (moves_orFail _).bind fun _ => (quiet_of_still (still_countNarration _)).bind fun _ => ?_
  split
  · exact (quiet_of_still (still_returnToEngineer _ _)).bind fun _ =>
      quiet_escalateVerification _
  · exact (quiet_of_still (still_returnToEngineer _ _)).bind fun _ =>
      quiet_of_steady (steady_keepVerification _)

theorem quiet_finishTask : Moves Quiet (finishTask taskId) :=
  quiet_clearActiveTask.bind fun _ => quiet_of_steady (steady_note rfl)

theorem Still.quiet {daemon next : CompletionDaemon} (h : daemon.Still next) : daemon.Quiet next :=
  h.steady.quiet

theorem quiet_reviewWithPacket {branch : String} {next : CompletionAction Unit}
    (hnext : Moves Quiet next) :
    Moves Quiet (reviewWithPacket settings completion taskId branch next) :=
  moves_reviewWithPacket (fun _ _ => Still.quiet) (quiet_of_steady (steady_note rfl))
    quiet_clearActiveTask hnext

theorem quiet_handleMergeSuccess : Moves Quiet (handleMergeSuccess settings completion taskId) :=
  moves_handleMergeSuccess (fun _ _ => Still.quiet) quiet_finishTask

theorem quiet_handleMergeFailure : Moves Quiet (handleMergeFailure settings completion taskId) :=
  moves_handleMergeFailure
    ((quiet_of_steady (steady_note rfl)).bind fun _ => quiet_clearActiveTask)

theorem counts_of_quiet {daemon next : CompletionDaemon} {entry : CompletionNote}
    (h : Quiet { daemon with
      retryCount := daemon.retryCount + 1
      notes := daemon.notes ++ [entry] } next) : Counts entry daemon next := by
  obtain ⟨noted, hnotes, hquiet⟩ := h.notes
  refine ⟨h.activeTask, [], noted, ?_, nofun, hquiet⟩
  rw [hnotes, List.append_assoc]
  rfl

theorem Steady.counts {daemon mid next : CompletionDaemon} {entry : Nat → CompletionNote}
    (h : daemon.Steady mid) (h' : Counts (entry (mid.retryCount + 1)) mid next) :
    Counts (entry (daemon.retryCount + 1)) daemon next := by
  rw [h.retryCount] at h'
  obtain ⟨noted, hnotes, hquiet⟩ := h.notes
  obtain ⟨before, later, hnotes', hbefore, hlater⟩ := h'.notes
  refine ⟨?_, noted ++ before, later, ?_, List.forall_mem_append.mpr ⟨hquiet, hbefore⟩, hlater⟩
  · rw [← h.activeTask, ← h.retryCount]
    exact h'.activeTask
  · rw [hnotes', hnotes, List.append_assoc, List.append_assoc]

/-- The turn counts nothing, or a conflict. -/
def CountsConflict (daemon next : CompletionDaemon) : Prop :=
  daemon.Quiet next ∨ Counts (.rebaseConflict (daemon.retryCount + 1)) daemon next

/-- A conflict is counted; what is done about it counts nothing more. -/
theorem after_conflict {escalate : CompletionAction Unit} (hescalate : Moves Quiet escalate)
    (daemon : CompletionDaemon) :
    After (do
        let attempt ← incrementRetry
        note (.rebaseConflict attempt)
        if attempt ≤ 2 then orFail (completion.message settings.engineer) else escalate) daemon
      (fun _ next => daemon.CountsConflict next) (fun _ next => daemon.CountsConflict next) := by
  have hquiet : Moves Quiet (if daemon.retryCount + 1 ≤ 2 then
      orFail (completion.message settings.engineer) else escalate) := by
    split
    · exact moves_orFail _
    · exact hescalate
  simp only [incrementRetry, note, after_bind, after_modify, after_get, after_pure]
  exact (hquiet _).mono (fun _ _ h => .inr (counts_of_quiet h))
    fun _ _ h => .inr (counts_of_quiet h)

theorem after_handleRebaseConflict (daemon : CompletionDaemon) :
    After (handleRebaseConflict settings completion taskId) daemon
      (fun _ next => daemon.CountsConflict next) (fun _ next => daemon.CountsConflict next) := by
  refine after_conflict (moves_messageManager.bind fun _ => ?_) daemon
  refine (quiet_of_steady (steady_note rfl)).bind fun _ => moves_reportToManager.bind fun _ => ?_
  exact (quiet_of_still (still_runKanban _)).bind fun _ => quiet_clearActiveTask

theorem after_handleQueuedConflict (daemon : CompletionDaemon) :
    After (handleQueuedConflict settings completion taskId) daemon
      (fun _ next => daemon.CountsConflict next) (fun _ next => daemon.CountsConflict next) := by
  refine after_conflict (moves_messageManager.bind fun _ => ?_) daemon
  refine moves_reportToManager.bind fun _ => (quiet_of_steady (steady_note rfl)).bind fun _ => ?_
  exact (quiet_of_still (still_runKanban _)).bind fun _ => quiet_clearActiveTask

theorem after_mergeAtOnce (daemon : CompletionDaemon) :
    After (mergeAtOnce settings completion taskId) daemon
      (fun _ next => daemon.CountsConflict next) (fun _ next => daemon.CountsConflict next) := by
  rw [mergeAtOnce, after_bind]
  refine (moves_orFail (R := Eq) _ daemon).mono ?_ ?_
  · rintro _ _ rfl
    rw [after_bind]
    refine (moves_orFail (R := Eq) _ daemon).mono ?_ ?_
    · rintro outcome _ rfl
      cases outcome with
      | success =>
        exact (quiet_handleMergeSuccess daemon).mono (fun _ _ h => .inl h) fun _ _ h => .inl h
      | rebaseConflict info => exact after_handleRebaseConflict daemon
      | mergeFailure info =>
        exact (quiet_handleMergeFailure daemon).mono (fun _ _ h => .inl h) fun _ _ h => .inl h
    · rintro _ _ rfl
      exact .inl (refl_of Quiet _)
  · rintro _ _ rfl
    exact .inl (refl_of Quiet _)

theorem after_takeExit (branch : String) (exit : CompletionExit) (daemon : CompletionDaemon) :
    After (takeExit settings completion taskId branch exit) daemon
      (fun _ next => daemon.CountsConflict next) (fun _ next => daemon.CountsConflict next) := by
  have hquiet : ∀ {action : CompletionAction Unit}, Moves Quiet action →
      After action daemon (fun _ next => daemon.CountsConflict next)
        (fun _ next => daemon.CountsConflict next) := fun h =>
    (h daemon).mono (fun _ _ h => .inl h) fun _ _ h => .inl h
  cases exit with
  | override => exact hquiet (moves_reviewByOverride (fun _ _ => Still.quiet) quiet_finishTask)
  | autoMerge =>
    refine hquiet (quiet_reviewWithPacket (quiet_of_steady ?_))
    exact steady_modify (fun _ => rfl) (fun _ => rfl) fun _ => rfl
  | manualReview =>
    exact hquiet (quiet_reviewWithPacket (moves_messageManager.bind fun _ => quiet_finishTask))
  | mergeAtOnce => exact after_mergeAtOnce daemon

/-- What passes has passed its tests. -/
theorem after_judgeRun (findings : Findings) (run : VerificationRunResult)
    (state : VerificationState) (daemon : CompletionDaemon) :
    After (judgeRun settings completion taskId findings run state) daemon
      (fun passed next => (∀ found ∈ passed, daemon.Steady next ∧ found.2.passed = true) ∧
        daemon.Quiet next)
      (fun _ next => daemon.Quiet next) := by
  rw [judgeRun]
  split
  · rw [after_bind]
    exact (steady_recoverBranch _ _ _ daemon).mono (fun _ _ h => ⟨nofun, h.quiet⟩)
      fun _ _ h => h.quiet
  · split
    · rw [after_bind]
      exact (quiet_rejectCompletion _ _ _ daemon).mono (fun _ _ h => ⟨nofun, h⟩) fun _ _ h => h
    · rename_i hpasses
      have hpassed : run.passed = true := by
        rw [Bool.or_eq_true, not_or] at hpasses
        simpa using hpasses.2
      have hsteady : Moves Steady (acceptVerification settings completion taskId run state) :=
        moves_acceptVerification (fun _ _ => Still.steady) (fun _ => steady_of_eq rfl rfl rfl) _ _
      rw [after_bind]
      refine (hsteady daemon).mono (fun branch next h => ⟨?_, h.quiet⟩) fun _ _ h => h.quiet
      rintro _ ⟨⟩
      exact ⟨h, hpassed⟩

theorem steady_takeVerification : Moves Steady (takeVerification settings) := by
  intro daemon
  simp only [takeVerification, after_bind, after_get, after_set, after_pure]
  exact steady_of_eq rfl rfl rfl

/-- A step that counts nothing in front of one that does not go on before it. -/
theorem after_steady_bind {α β : Type} {m : CompletionAction α} {k : α → CompletionAction β}
    {Q : β → CompletionDaemon → CompletionDaemon → Prop} {daemon : CompletionDaemon}
    (hm : Moves Steady m)
    (hk : ∀ a mid, After (k a) mid (fun b next => Q b mid next) (fun _ next => mid.Quiet next))
    (hQ : ∀ b mid next, daemon.Steady mid → Q b mid next → Q b daemon next) :
    After (m >>= k) daemon (fun b next => Q b daemon next) (fun _ next => daemon.Quiet next) := by
  rw [after_bind]
  refine (hm daemon).mono (fun a mid hmid => ?_) fun _ _ h => h.quiet
  exact (hk a mid).mono (fun b next h => hQ b mid next hmid h)
    fun _ next h => trans_of Quiet hmid.quiet h

theorem after_verifyTask (daemon : CompletionDaemon) :
    After (verifyTask settings completion taskId) daemon
      (fun passed next => (∀ found ∈ passed, daemon.Steady next ∧ found.2.passed = true) ∧
        daemon.Quiet next)
      (fun _ next => daemon.Quiet next) := by
  have hQ : ∀ (daemon : CompletionDaemon) (passed : Option (String × VerificationRunResult))
      (mid next : CompletionDaemon), daemon.Steady mid →
      ((∀ found ∈ passed, mid.Steady next ∧ found.2.passed = true) ∧ mid.Quiet next) →
        (∀ found ∈ passed, daemon.Steady next ∧ found.2.passed = true) ∧ daemon.Quiet next :=
    fun _ _ _ _ hmid h => ⟨fun found hfound =>
      ⟨trans_of Steady hmid (h.1 found hfound).1, (h.1 found hfound).2⟩,
        trans_of Quiet hmid.quiet h.2⟩
  refine after_steady_bind (steady_of_still still_inspectWorktree) (fun findings daemon => ?_)
    (hQ daemon)
  refine after_steady_bind steady_takeVerification (fun state daemon => ?_) (hQ daemon)
  refine after_steady_bind (moves_orFail _) (fun fence daemon => ?_) (hQ daemon)
  refine after_steady_bind (moves_revertOutOfScope _) (fun _ daemon => ?_)
    (hQ daemon)
  exact after_steady_bind (steady_of_still (still_verifyCompletion _ _))
    (fun _ daemon => after_judgeRun _ _ _ daemon) (hQ daemon)

theorem after_handleEngineerCompletion (daemon : CompletionDaemon) :
    After (handleEngineerCompletion settings completion) daemon
      (fun _ next => daemon.CountsConflict next) (fun _ next => daemon.CountsConflict next) := by
  rw [handleEngineerCompletion, after_bind, after_get]
  split
  · exact .inl (refl_of Quiet _)
  · rename_i taskId _
    split
    · exact .inl (refl_of Quiet _)
    · rw [after_bind]
      refine (after_verifyTask daemon).mono (fun passed mid hmid => ?_) fun _ _ h => .inl h
      cases passed with
      | none => exact .inl hmid.2
      | some found =>
        obtain ⟨branch, run⟩ := found
        obtain ⟨hsteady, hpassed⟩ := hmid.1 _ rfl
        have hcounts : ∀ next, mid.CountsConflict next → daemon.CountsConflict next := by
          rintro next (hquiet | hcounts)
          · exact .inl (trans_of Quiet hsteady.quiet hquiet)
          · exact .inr (hsteady.counts hcounts)
        dsimp only
        rw [if_pos hpassed]
        exact (after_takeExit branch _ mid).mono (fun _ _ h => hcounts _ h)
          fun _ _ h => hcounts _ h

theorem after_retryStalled (restart : Except String Unit) (attempt : Nat)
    (daemon : CompletionDaemon) :
    After (retryStalled settings completion restart attempt) daemon
      (fun _ next => Quiet { daemon with notes := daemon.notes ++ [stallNote attempt] } next)
      (fun _ next => Quiet { daemon with notes := daemon.notes ++ [stallNote attempt] } next) := by
  unfold retryStalled stallNote
  split
  · rw [note, after_bind, after_modify]
    refine (?_ : Moves Quiet _) _
    refine moves_get.bind fun _ => Moves.bind ?_ fun _ => quiet_clearActiveTask
    unfold blockStalledTask
    split
    · refine (quiet_of_still (still_onBoard _ _).attempt).bind fun _ => ?_
      refine (quiet_of_still (still_onBoard _ _).attempt).bind fun _ => ?_
      exact moves_messageManager.attempt.map
    · exact moves_pure _
  · split
    · rw [note, after_bind, after_modify]
      exact (moves_orFail _ : Moves Quiet _) _
    · rw [note, after_bind, after_modify]
      exact (moves_orFail _ : Moves Quiet _) _

theorem after_handleStalledMidTurnCompletion {restart : Except String Unit} {response : String}
    (hstalled : responseIsStalledMidTurn response = true) (daemon : CompletionDaemon) :
    After (handleStalledMidTurnCompletion settings completion restart response) daemon
      (fun handled next => handled = true ∧ Counts (stallNote (daemon.retryCount + 1)) daemon next)
      (fun _ next => Counts (stallNote (daemon.retryCount + 1)) daemon next) := by
  simp only [handleStalledMidTurnCompletion, incrementRetry, hstalled, after_bind, after_modify,
    after_get, after_pure, Bool.not_true, Bool.false_eq_true, if_false]
  exact (after_retryStalled restart _ _).mono (fun _ _ h => ⟨trivial, counts_of_quiet h⟩)
    fun _ _ h => counts_of_quiet h

/-- A turn that stalls is counted as one. -/
theorem counts_stall {turn : EngineerTurn} {response : String} {restart : Except String Unit}
    (hturn : turn = .responded response completion restart)
    (hstalled : responseIsStalledMidTurn response = true) (daemon : CompletionDaemon) :
    Counts (stallNote (daemon.retryCount + 1)) daemon (daemon.afterTurn settings turn) := by
  subst hturn
  rw [afterTurn, ← after_iff_endState (P := Counts _ daemon), takeTurn, after_bind]
  refine (after_handleStalledMidTurnCompletion hstalled daemon).mono ?_ fun _ _ h => h
  rintro _ _ ⟨rfl, h⟩
  exact h

theorem countsConflict_responded {response : String} {restart : Except String Unit}
    (hstalled : responseIsStalledMidTurn response = false) (daemon : CompletionDaemon) :
    daemon.CountsConflict
      (daemon.afterTurn settings (.responded response completion restart)) := by
  rw [afterTurn, ← after_iff_endState (P := daemon.CountsConflict), takeTurn, after_bind]
  simp only [handleStalledMidTurnCompletion, hstalled, Bool.not_false, if_true, after_pure]
  exact after_handleEngineerCompletion daemon

theorem countsConflict_queuedMerge (outcome : MergeOutcome) (daemon : CompletionDaemon) :
    daemon.CountsConflict (daemon.afterTurn settings (.queuedMerge outcome completion)) := by
  rw [afterTurn, ← after_iff_endState (P := daemon.CountsConflict), takeTurn, after_bind, after_get]
  split
  · exact .inl (refl_of Quiet _)
  · cases outcome with
    | success =>
      exact (quiet_handleMergeSuccess daemon).mono (fun _ _ h => .inl h) fun _ _ h => .inl h
    | rebaseConflict info => exact after_handleQueuedConflict daemon
    | mergeFailure info =>
      exact (quiet_handleMergeFailure daemon).mono (fun _ _ h => .inl h) fun _ _ h => .inl h

end

/-! ### The laws are kept exactly if the failures are separate -/

section

variable {settings : CompletionSettings} {history : List TurnKind}
  {daemon next : CompletionDaemon} {turn : EngineerTurn} {entry : CompletionNote}

theorem Counts.notedSince (h : Counts entry daemon next) : ∃ before later,
    daemon.notedSince next = before ++ entry :: later ∧
      (∀ other ∈ before, other.isQuiet = true) ∧ ∀ other ∈ later, other.isQuiet = true := by
  obtain ⟨before, later, hnotes, hquiet⟩ := h.notes
  refine ⟨before, later, ?_, hquiet⟩
  rw [CompletionDaemon.notedSince, hnotes, List.drop_left]

/-- Of what is noted only the one entry is about what is counted. -/
theorem Counts.mem_iff (h : Counts entry daemon next) {other : CompletionNote}
    (hother : other.isQuiet = false) : other ∈ daemon.notedSince next ↔ other = entry := by
  obtain ⟨before, later, hnoted, hbefore, hlater⟩ := h.notedSince
  have hnot : ∀ {quiet : List CompletionNote}, (∀ other ∈ quiet, other.isQuiet = true) →
      other ∉ quiet := fun hquiet hmem => by
    have htrue := hquiet _ hmem
    rw [hother] at htrue
    cases htrue
  rw [hnoted, List.mem_append, List.mem_cons]
  simp [hnot hbefore, hnot hlater]

theorem Quiet.quiet_notedSince (h : daemon.Quiet next) :
    ∀ other ∈ daemon.notedSince next, other.isQuiet = true := by
  obtain ⟨noted, hnotes, hquiet⟩ := h.notes
  rw [CompletionDaemon.notedSince, hnotes, List.drop_left]
  exact hquiet

/-- What a turn is, and what it counts. -/
theorem turnKind_cases (settings : CompletionSettings) (daemon : CompletionDaemon)
    (turn : EngineerTurn) :
    daemon.turnKind settings turn = .stall ∧
        Counts (stallNote (daemon.retryCount + 1)) daemon (daemon.afterTurn settings turn) ∨
      daemon.turnKind settings turn = .conflict ∧
        Counts (.rebaseConflict (daemon.retryCount + 1)) daemon (daemon.afterTurn settings turn) ∨
      daemon.turnKind settings turn = .other ∧
        daemon.Quiet (daemon.afterTurn settings turn) := by
  have hany : daemon.CountsConflict (daemon.afterTurn settings turn) →
      (daemon.notedSince (daemon.afterTurn settings turn)).any CompletionNote.isConflict = true ∧
          Counts (.rebaseConflict (daemon.retryCount + 1)) daemon
            (daemon.afterTurn settings turn) ∨
        (daemon.notedSince (daemon.afterTurn settings turn)).any
            CompletionNote.isConflict = false ∧
          daemon.Quiet (daemon.afterTurn settings turn) := by
    rintro (hquiet | hcounts)
    · refine .inr ⟨List.any_eq_false.mpr fun other hmem hconflict => ?_, hquiet⟩
      have := hquiet.quiet_notedSince other hmem
      cases other <;> simp_all [CompletionNote.isQuiet, CompletionNote.isConflict]
    · exact .inl ⟨List.any_eq_true.mpr ⟨_, (hcounts.mem_iff rfl).mpr rfl, rfl⟩, hcounts⟩
  cases turn with
  | responded response completion restart =>
    by_cases hstalled : responseIsStalledMidTurn response = true
    · exact .inl ⟨by simp only [turnKind, if_pos hstalled], counts_stall rfl hstalled daemon⟩
    · rcases hany (countsConflict_responded (by simpa using hstalled) daemon) with
        ⟨hconflict, hcounts⟩ | ⟨hnone, hquiet⟩
      · exact .inr (.inl ⟨by simp only [turnKind, if_neg hstalled, hconflict, cond_true], hcounts⟩)
      · exact .inr (.inr ⟨by simp only [turnKind, if_neg hstalled, hnone, cond_false], hquiet⟩)
  | queuedMerge outcome completion =>
    rcases hany (countsConflict_queuedMerge outcome daemon) with
      ⟨hconflict, hcounts⟩ | ⟨hnone, hquiet⟩
    · exact .inr (.inl ⟨by simp only [turnKind, hconflict, cond_true], hcounts⟩)
    · exact .inr (.inr ⟨by simp only [turnKind, hnone, cond_false], hquiet⟩)

/-- The stalls right before are all that has been counted, if there are any. -/
def StreakAlone (history : List TurnKind) : Prop :=
  0 < stallStreak history → counted history = stallStreak history

theorem stallStreak_cons_stall : stallStreak (.stall :: history) = stallStreak history + 1 := by
  simp [stallStreak]

theorem counted_cons {kind : TurnKind} (h : kind ≠ .other) :
    counted (kind :: history) = counted history + 1 := by
  simp [counted, h]

theorem streakAlone_cons {kind : TurnKind} (h : SeparateAfter history kind) :
    StreakAlone (kind :: history) := by
  cases kind with
  | stall =>
    intro _
    rw [stallStreak_cons_stall, counted_cons (by decide : TurnKind.stall ≠ .other), h]
  | conflict => exact fun hpos => absurd hpos (by simp [stallStreak])
  | other => exact fun hpos => absurd hpos (by simp [stallStreak])

theorem lt_of_stallBlocked_eq {attempt count : Nat} (h : .stallBlocked attempt = stallNote count) :
    stalledMidTurnMaxAttempts < count := by
  unfold stallNote at h
  split at h
  · assumption
  · split at h <;> cases h

theorem stallBackoff_eq_iff {attempt backoffSecs count : Nat} :
    .stallBackoff attempt backoffSecs = stallNote (count + 1) ↔
      attempt = count + 1 ∧ stalledMidTurnRetryBackoffSecs[count]? = some backoffSecs := by
  unfold stallNote
  have hentry : stalledMidTurnBackoffSecs (count + 1) =
    stalledMidTurnRetryBackoffSecs[count]? := rfl
  split
  · rename_i hmax
    have hnone : stalledMidTurnRetryBackoffSecs[count]? = none := by
      rw [List.getElem?_eq_none_iff]
      exact Nat.le_of_lt_succ (Nat.lt_of_le_of_lt (by decide) hmax)
    simp [hnone]
  · rw [hentry]
    split
    · rename_i secs hsecs
      rw [hsecs, CompletionNote.stallBackoff.injEq, Option.some.injEq, eq_comm (a := secs)]
    · rename_i hnone
      simp [hnone]

theorem not_rebaseConflict_eq {attempt count : Nat} :
    CompletionNote.rebaseConflict attempt ≠ stallNote count := by
  unfold stallNote
  split
  · nofun
  · split <;> nofun

/-- Each entry of the schedule is there once. -/
theorem eq_of_backoffSecs {n m backoffSecs : Nat}
    (h : stalledMidTurnRetryBackoffSecs[n]? = some backoffSecs)
    (h' : stalledMidTurnRetryBackoffSecs[m]? = some backoffSecs) : n = m := by
  obtain ⟨hn, hget⟩ := List.getElem?_eq_some_iff.mp h
  exact (List.getElem?_inj hn (by decide)).mp (h.trans h'.symm)

theorem keepsBudgets_stall_iff {noted : List CompletionNote} {count : Nat}
    (halone : 0 < stallStreak history → count = stallStreak history)
    (hnoted : ∀ other : CompletionNote, other.isQuiet = false →
      (other ∈ noted ↔ other = stallNote (count + 1))) :
    KeepsBudgets history .stall noted ↔ count = stallStreak history := by
  constructor
  · intro h
    by_cases hpos : 0 < stallStreak history
    · exact halone hpos
    · -- the first stall in a row has an entry in the schedule, which no other number has
      have hzero : stallStreak history = 0 := Nat.eq_zero_of_not_pos hpos
      obtain ⟨attempt, hmem⟩ := h.backsOff rfl 30 (by rw [hzero]; rfl)
      have hcount := (stallBackoff_eq_iff.mp ((hnoted _ rfl).mp hmem)).2
      rw [hzero]
      exact eq_of_backoffSecs hcount rfl
  · rintro rfl
    refine ⟨fun attempt hmem => ?_, fun attempt backoffSecs hmem => ?_, ?_, ?_⟩
    · exact lt_of_stallBlocked_eq ((hnoted _ rfl).mp hmem)
    · exact (stallBackoff_eq_iff.mp ((hnoted _ rfl).mp hmem)).2
    · intro _ backoffSecs hentry
      exact ⟨_, (hnoted _ rfl).mpr (stallBackoff_eq_iff.mpr ⟨rfl, hentry⟩)⟩
    · exact fun attempt hmem => absurd ((hnoted _ rfl).mp hmem) not_rebaseConflict_eq

theorem keepsBudgets_conflict_iff {noted : List CompletionNote} {count : Nat}
    (hnoted : ∀ other : CompletionNote, other.isQuiet = false →
      (other ∈ noted ↔ other = .rebaseConflict (count + 1))) :
    KeepsBudgets history .conflict noted ↔ count < 2 ∨ 2 ≤ history.count .conflict := by
  have hstall : ∀ {entry : CompletionNote}, entry.isQuiet = false → entry.isConflict = false →
      entry ∉ noted := by
    intro entry hquiet hconflict hmem
    rw [(hnoted _ hquiet).mp hmem] at hconflict
    cases hconflict
  constructor
  · intro h
    have := h.conflictCap _ ((hnoted _ rfl).mpr rfl)
    omega
  · intro h
    refine ⟨fun _ hmem => absurd hmem (hstall rfl rfl),
      fun _ _ hmem => absurd hmem (hstall rfl rfl), nofun, fun attempt hmem hlt => ?_⟩
    have hattempt := CompletionNote.rebaseConflict.inj ((hnoted _ rfl).mp hmem)
    omega

theorem keepsBudgets_other {noted : List CompletionNote}
    (hquiet : ∀ other ∈ noted, other.isQuiet = true) : KeepsBudgets history .other noted := by
  have hnot : ∀ {entry : CompletionNote}, entry.isQuiet = false → entry ∉ noted := by
    intro entry hentry hmem
    rw [hquiet _ hmem] at hentry
    cases hentry
  exact ⟨fun _ hmem => absurd hmem (hnot rfl), fun _ _ hmem => absurd hmem (hnot rfl), nofun,
    fun _ hmem => absurd hmem (hnot rfl)⟩

/-- One turn keeps to the budgets if and only if it is separate from what was counted before, and
then what is counted is still known. -/
theorem keepsBudgets_iff (halone : StreakAlone history)
    (hcounted : daemon.retryCount = counted history) :
    (KeepsBudgets history (daemon.turnKind settings turn)
        (daemon.notedSince (daemon.afterTurn settings turn)) ↔
      SeparateAfter history (daemon.turnKind settings turn)) ∧
    ((daemon.afterTurn settings turn).activeTask.isSome →
      (daemon.afterTurn settings turn).retryCount =
        counted (daemon.turnKind settings turn :: history)) := by
  have hretry : ∀ {entry : CompletionNote}, Counts entry daemon (daemon.afterTurn settings turn) →
      (daemon.afterTurn settings turn).activeTask.isSome →
        (daemon.afterTurn settings turn).retryCount = counted history + 1 := by
    intro entry hcounts hactive
    rcases hcounts.activeTask with hnone | ⟨-, hretry⟩
    · rw [hnone] at hactive
      cases hactive
    · rw [hretry, hcounted]
  rcases turnKind_cases settings daemon turn with
    ⟨hkind, hcounts⟩ | ⟨hkind, hcounts⟩ | ⟨hkind, hquiet⟩
  · rw [hkind, counted_cons (by decide : TurnKind.stall ≠ .other)]
    refine ⟨?_, hretry hcounts⟩
    rw [hcounted] at hcounts
    exact keepsBudgets_stall_iff halone fun other => hcounts.mem_iff
  · rw [hkind, counted_cons (by decide : TurnKind.conflict ≠ .other)]
    refine ⟨?_, hretry hcounts⟩
    rw [hcounted] at hcounts
    exact keepsBudgets_conflict_iff fun other => hcounts.mem_iff
  · rw [hkind]
    refine ⟨iff_of_true (keepsBudgets_other hquiet.quiet_notedSince) trivial, fun hactive => ?_⟩
    rcases hquiet.activeTask with hnone | ⟨-, hretry⟩
    · rw [hnone] at hactive
      cases hactive
    · rw [hretry, hcounted]
      simp [counted]

theorem budgetsKept_iff_of_counted (turns : List EngineerTurn) (halone : StreakAlone history)
    (hcounted : daemon.activeTask.isSome → daemon.retryCount = counted history) :
    BudgetsKept settings history daemon turns ↔ Separate settings history daemon turns := by
  induction turns generalizing history daemon with
  | nil => exact Iff.rfl
  | cons turn turns ih =>
    rw [BudgetsKept, Separate]
    refine imp_congr_right fun hactive => ?_
    have hturn := @keepsBudgets_iff settings history daemon turn halone (hcounted hactive)
    rw [hturn.1]
    exact and_congr_right fun hseparate => ih (streakAlone_cons hseparate) hturn.2

end

/-- **The budgets of an engineer's task are kept** in a run if and only if each stall comes after
nothing that was counted but the stalls right before it, and each conflict after less than two
failures or after two conflicts. -/
theorem budgetsKept_iff_separate (settings : CompletionSettings) (daemon : CompletionDaemon)
    (turns : List EngineerTurn) (hcount : daemon.retryCount = 0) :
    BudgetsKept settings [] daemon turns ↔ Separate settings [] daemon turns :=
  budgetsKept_iff_of_counted turns (fun hpos => absurd hpos (by decide)) fun _ => hcount

def stalledTurn : EngineerTurn :=
  .responded "stalled mid-turn: no stdout for 120s" plainCompletion (.ok ())

def conflictTurn : EngineerTurn := .queuedMerge (.rebaseConflict "src/main.rs") plainCompletion

/-- Two stalls, and nothing else. -/
theorem budgetsKept_stalls : BudgetsKept plainSettings [] taskDaemon [stalledTurn, stalledTurn] :=
  (budgetsKept_iff_separate plainSettings taskDaemon _ rfl).mpr fun _ =>
    ⟨by decide +kernel, fun _ => ⟨by decide +kernel, trivial⟩⟩

/-- After two stalls the first conflict is handed to the manager at once. -/
theorem not_budgetsKept_conflict : ¬ ∀ settings daemon turns, daemon.retryCount = 0 →
    BudgetsKept settings [] daemon turns := by
  intro h
  have hseparate := (budgetsKept_iff_of_counted _ (fun hpos => absurd hpos (by decide))
    fun _ => rfl).mp (h plainSettings taskDaemon [stalledTurn, stalledTurn, conflictTurn] rfl)
  have hconflict := ((hseparate rfl).2 (by decide +kernel)).2 (by decide +kernel)
  exact absurd hconflict.1 (by decide +kernel)

end CompletionDaemon

end Batty
