import Batty.Merge.Filed

/-!
# Where a completion ends

A completion that has passed its verification is put up for review, put in the merge queue or merged
at once, and the engineer is done with it. What comes after reads the task file: the task is to be
in `review`, with the branch and the commit of the work on record and the tests noted as passed.

Two things are not seen to. That neither of the transitions to `review` got through is only logged,
and the completion goes on as if they had; and the branch and the commit are only written on two of
the four ways on, so that a task that is kept from merging by its own setting comes to its review
without them (`not_handedOver_override`).

* `Finishes`, `HandedOver`: the end of a completion, and what it is to leave.
* `handedOver_iff_handsOver`: when it does.
-/

namespace Batty

namespace CompletionDaemon

/-! ### What does not finish -/

/-- The completion is at an end: the request to merge is queued, the engineer is released or the
task noted as completed, and nothing is escalated. -/
def Finishes (daemon next : CompletionDaemon) : Prop :=
  (next.mergeQueue ≠ daemon.mergeQueue ∨ next.activeTask = none ∨
      ∃ taskId, .completed taskId ∈ daemon.notedSince next) ∧
    ∀ taskId reason, .escalated taskId reason ∉ daemon.notedSince next

/-- Something has been escalated, or the completion is not at an end. -/
def Waits (daemon next : CompletionDaemon) : Prop :=
  ∃ noted, next.notes = daemon.notes ++ noted ∧
    ((∃ taskId reason, .escalated taskId reason ∈ noted) ∨
      next.mergeQueue = daemon.mergeQueue ∧ next.activeTask = daemon.activeTask ∧
        ∀ taskId, .completed taskId ∉ noted)

/-- Notes have been added. -/
def Adds (daemon next : CompletionDaemon) : Prop := ∃ noted, next.notes = daemon.notes ++ noted

instance : IsPreorder CompletionDaemon Waits where
  refl _ := ⟨[], (List.append_nil _).symm, .inr ⟨rfl, rfl, nofun⟩⟩
  trans first second third h h' := by
    obtain ⟨noted, hnotes, hwaits⟩ := h
    obtain ⟨noted', hnotes', hwaits'⟩ := h'
    refine ⟨noted ++ noted', by rw [hnotes', hnotes, List.append_assoc], ?_⟩
    rcases hwaits with ⟨taskId, reason, hmem⟩ | ⟨hqueue, hactive, hnone⟩
    · exact .inl ⟨taskId, reason, List.mem_append_left _ hmem⟩
    · rcases hwaits' with ⟨taskId, reason, hmem⟩ | ⟨hqueue', hactive', hnone'⟩
      · exact .inl ⟨taskId, reason, List.mem_append_right _ hmem⟩
      · refine .inr ⟨hqueue'.trans hqueue, hactive'.trans hactive, fun taskId hmem => ?_⟩
        exact (List.mem_append.mp hmem).elim (hnone taskId) (hnone' taskId)

instance : IsPreorder CompletionDaemon Adds where
  refl _ := ⟨[], (List.append_nil _).symm⟩
  trans _ _ _ := by
    rintro ⟨noted, hnotes⟩ ⟨noted', hnotes'⟩
    exact ⟨noted ++ noted', by rw [hnotes', hnotes, List.append_assoc]⟩

section

variable {settings : CompletionSettings} {completion : Completion} {taskId : Nat}
  {daemon : CompletionDaemon} {α : Type}

theorem Waits.not_finishes {next : CompletionDaemon} (hactive : daemon.activeTask = some taskId)
    (h : daemon.Waits next) : ¬ daemon.Finishes next := by
  obtain ⟨noted, hnotes, hwaits⟩ := h
  rintro ⟨hfinished, hquiet⟩
  simp only [notedSince, hnotes, List.drop_left] at hfinished hquiet
  rcases hwaits with ⟨taskId', reason, hmem⟩ | ⟨hqueue, hsame, hnone⟩
  · exact hquiet taskId' reason hmem
  · rcases hfinished with hchanged | hreleased | ⟨taskId', hmem⟩
    · exact hchanged hqueue
    · rw [hsame, hactive] at hreleased
      cases hreleased
    · exact hnone taskId' hmem

theorem waits_of_eq {next : CompletionDaemon} (hnotes : next.notes = daemon.notes)
    (hqueue : next.mergeQueue = daemon.mergeQueue) (hactive : next.activeTask = daemon.activeTask) :
    daemon.Waits next :=
  ⟨[], by rw [hnotes, List.append_nil], .inr ⟨hqueue, hactive, nofun⟩⟩

theorem Still.waits {next : CompletionDaemon} (h : daemon.Still next) : daemon.Waits next :=
  waits_of_eq h.notes h.mergeQueue h.activeTask

theorem waits_of_still {m : CompletionAction α} (h : Moves Still m) : Moves Waits m :=
  h.mono fun _ _ => Still.waits

theorem waits_note {entry : CompletionNote} (h : ∀ taskId, entry ≠ .completed taskId) :
    Moves Waits (note entry) :=
  moves_modify fun _ => ⟨[entry], rfl, .inr ⟨rfl, rfl, fun taskId hmem =>
    h taskId (List.mem_singleton.mp hmem).symm⟩⟩

theorem adds_of_still {m : CompletionAction α} (h : Moves Still m) : Moves Adds m :=
  h.mono fun _ _ hstill => ⟨[], by rw [hstill.notes, List.append_nil]⟩

theorem adds_clearActiveTask : Moves Adds clearActiveTask :=
  moves_modify fun _ => ⟨[], (List.append_nil _).symm⟩

/-- Whatever comes after an escalation. -/
theorem waits_escalate (reason : String) {m : CompletionAction α} (h : Moves Adds m) :
    Moves Waits (note (.escalated taskId reason) >>= fun _ => m) := by
  intro daemon
  have hwaits : ∀ {next : CompletionDaemon},
      Adds { daemon with notes := daemon.notes ++ [.escalated taskId reason] } next →
        daemon.Waits next := by
    rintro next ⟨noted, hnotes⟩
    refine ⟨.escalated taskId reason :: noted, ?_, .inl ⟨taskId, reason, List.mem_cons_self⟩⟩
    rw [hnotes, List.append_assoc, List.singleton_append]
  rw [after_bind, note, after_modify]
  exact (h _).mono (fun _ _ => hwaits) fun _ _ => hwaits

theorem waits_rejectCompletion (findings : Findings) (run : VerificationRunResult)
    (state : VerificationState) :
    Moves Waits (rejectCompletion settings completion taskId findings run state) := by
  refine (moves_orFail _).bind fun _ => (waits_of_still (still_countNarration _)).bind fun _ => ?_
  split
  · refine (waits_of_still (still_returnToEngineer _ _)).bind fun _ => ?_
    refine moves_messageManager.bind fun _ => waits_escalate _ ?_
    refine (adds_of_still (still_onBoard _ _)).bind fun _ => ?_
    refine (adds_of_still (still_onBoard _ _)).bind fun _ => ?_
    exact adds_clearActiveTask.bind fun _ => adds_of_still still_forgetNarration
  · refine (waits_of_still (still_returnToEngineer _ _)).bind fun _ => ?_
    refine (waits_note (by simp)).bind fun _ => ?_
    exact moves_modify fun _ => waits_of_eq rfl rfl rfl

theorem waits_dropped (daemon : CompletionDaemon) :
    daemon.Waits { daemon with verification := none } :=
  waits_of_eq rfl rfl rfl

/-- The verification alone is no end. -/
theorem waits_verifyTask : Moves Waits (verifyTask settings completion taskId) := by
  refine (waits_of_still still_inspectWorktree).bind fun findings => Moves.bind ?_ fun state => ?_
  · intro daemon
    simp only [takeVerification, after_bind, after_get, after_set, after_pure]
    exact waits_of_eq rfl rfl rfl
  · refine (moves_orFail _).bind fun fence => (moves_revertOutOfScope _).bind fun _ => ?_
    refine (waits_of_still (still_verifyCompletion _ _)).bind ?_
    rintro ⟨run, state⟩
    show Moves Waits (judgeRun settings completion taskId findings run state)
    unfold judgeRun
    split
    · exact (moves_recoverBranch (fun _ _ => Still.waits) waits_dropped _ _ _).bind fun _ =>
        moves_pure _
    · split
      · exact (waits_rejectCompletion _ _ _).bind fun _ => moves_pure _
      · exact (moves_acceptVerification (fun _ _ => Still.waits) waits_dropped _ _).bind fun _ =>
          moves_pure _

end

/-! ### Where a completion ends -/

/-- The task is where the completion takes it, on record with the branch that was verified and its
head. -/
def HandedOver (settings : CompletionSettings) (completion : Completion) (taskId : Nat)
    (board : Board) : Prop :=
  ∃ branch head path task record, completion.branch = .ok branch ∧
    completion.headCommit = .ok head ∧ board.findPath taskId = some path ∧
    board.taskAt path = some task ∧
    (task.status = "review" ∨
      completionExit settings completion = .mergeAtOnce ∧ task.status = "done") ∧
    board.recordAt path = some record ∧ record.branch = some branch ∧ record.commit = some head ∧
    record.testsRun = some true ∧ record.testsPassed = some true

/-- The task has the branch and the head on record. -/
def OnRecord (completion : Completion) (record : WorkflowRecord) : Prop :=
  ∃ branch head, completion.branch = .ok branch ∧ completion.headCommit = .ok head ∧
    record.branch = some branch ∧ record.commit = some head

/-- The task gets where the completion takes it: to `review`, or to `done` at once; and where no
packet is written, it has the branch and the head on record before. -/
def HandsOver (settings : CompletionSettings) (completion : Completion) (taskId : Nat)
    (board : Board) : Prop :=
  ∃ path task record, board.findPath taskId = some path ∧ board.taskAt path = some task ∧
    board.recordAt path = some record ∧
    match completionExit settings completion with
    | .override => GoesToReview completion (findAccesses board taskId) task.status ∧
        OnRecord completion record
    | .autoMerge | .manualReview =>
        GoesToReview completion (findAccesses board taskId) task.status
    | .mergeAtOnce => (completion.kanban.moved = true ∨ task.status = "review" ∨
        task.status = "done") ∧ OnRecord completion record

section

variable {settings : CompletionSettings} {completion : Completion} {taskId : Nat}
  {daemon : CompletionDaemon} {start : Board} {path status branch : String}
  {recorded commit : Option String}

theorem Filed.handedOver_iff {board : Board}
    (h : Filed start taskId path status recorded commit board) :
    HandedOver settings completion taskId board ↔
      (status = "review" ∨ completionExit settings completion = .mergeAtOnce ∧ status = "done") ∧
        ∃ branch head, completion.branch = .ok branch ∧ completion.headCommit = .ok head ∧
          recorded = some branch ∧ commit = some head := by
  obtain ⟨task, htask, rfl⟩ := h.task
  obtain ⟨record, hrecord, rfl, rfl, hrun, hpassed⟩ := h.record
  constructor
  · rintro ⟨branch, head, path', task', record', hbranch, hhead, hpath', htask', hstatus, hrecord',
      hrecorded, hcommit, -, -⟩
    obtain rfl := Option.some.inj (hpath'.symm.trans h.findPath)
    obtain rfl := Option.some.inj (htask'.symm.trans htask)
    obtain rfl := Option.some.inj (hrecord'.symm.trans hrecord)
    exact ⟨hstatus, branch, head, hbranch, hhead, hrecorded, hcommit⟩
  · rintro ⟨hstatus, branch, head, hbranch, hhead, hrecorded, hcommit⟩
    exact ⟨branch, head, path, task, record, hbranch, hhead, h.findPath, htask, hstatus, hrecord,
      hrecorded, hcommit, hrun, hpassed⟩

/-- The engineer is released, after the manager has been told. -/
theorem after_finishForManualReview :
    After (finishForManualReview settings completion taskId) daemon
      (fun _ next => next.disk = daemon.disk) (fun _ next => daemon.Waits next) := by
  simp only [finishForManualReview, messageManager, after_bind]
  cases settings.managerName with
  | none => exact rfl
  | some manager =>
    dsimp only
    cases completion.message manager with
    | error error => exact refl_of Waits daemon
    | ok _ => exact rfl

/-- Up for review without a packet. -/
theorem handedOver_reviewByOverride
    (h : Filed start taskId path status recorded commit daemon.disk.board)
    (hexit : completionExit settings completion = .override) :
    After (reviewByOverride settings completion taskId) daemon
      (fun _ next => daemon.Waits next ∨
        (HandedOver settings completion taskId next.disk.board ↔
          GoesToReview completion (findAccesses start taskId) status ∧
            ∃ branch head, completion.branch = .ok branch ∧ completion.headCommit = .ok head ∧
              recorded = some branch ∧ commit = some head))
      (fun _ next => daemon.Waits next) := by
  rw [reviewByOverride, after_bind]
  refine ((filed_moveTaskToReview h).and
    (waits_of_still still_moveTaskToReview daemon)).mono ?_ fun _ _ h => h.2
  rintro moved reviewed ⟨hfiled, hwaits⟩
  cases moved with
  | false => exact .inl hwaits
  | true =>
    obtain ⟨status', hfiled, hreview⟩ := hfiled rfl
    refine after_finishForManualReview.mono (fun _ next hdisk => .inr ?_)
      fun _ _ h => trans_of Waits hwaits h
    rw [hdisk, hfiled.handedOver_iff, hexit]
    simp [hreview]

/-- Up for review with a packet. -/
theorem handedOver_reviewWithPacket
    (h : Filed start taskId path status recorded commit daemon.disk.board)
    (hbranch : completion.branch = .ok branch)
    (hexit : completionExit settings completion ≠ .mergeAtOnce) {next : CompletionAction Unit}
    (hnext : ∀ daemon, After next daemon (fun _ daemon' => daemon'.disk = daemon.disk)
      (fun _ daemon' => daemon.Waits daemon')) :
    After (reviewWithPacket settings completion taskId branch next) daemon
      (fun _ next => daemon.Waits next ∨
        (HandedOver settings completion taskId next.disk.board ↔
          GoesToReview completion (findAccesses start taskId) status))
      (fun _ next => daemon.Waits next) := by
  rw [reviewWithPacket, after_bind]
  refine ((filed_moveTaskToReview h).and
    (waits_of_still still_moveTaskToReview daemon)).mono ?_ fun _ _ h => h.2
  rintro moved reviewed ⟨hfiled, hwaits⟩
  cases moved with
  | false => exact .inl hwaits
  | true =>
    obtain ⟨status', hfiled, hreview⟩ := hfiled rfl
    show After (attempt _ >>= _) reviewed _ _
    rw [after_bind, after_attempt]
    refine ((filed_recordCompletionPacketMetadata hfiled branch).and
      (waits_of_still (still_onBoard _ _) reviewed)).mono ?_ ?_
    · rintro _ packed ⟨⟨head, hhead, hpacked⟩, hwaits'⟩
      refine (hnext packed).mono (fun _ last hdisk => .inr ?_)
        fun _ _ h => trans_of Waits hwaits (trans_of Waits hwaits' h)
      rw [hdisk, hpacked.handedOver_iff]
      simp [hreview, hbranch, hhead, hexit]
    · rintro _ packed ⟨-, hwaits'⟩
      have hescalates :
          Moves Waits (escalateCompletionMetadataRejection settings completion taskId) :=
        waits_escalate _ (moves_messageManager.bind fun _ => adds_clearActiveTask)
      exact (hescalates packed).mono
        (fun _ _ h => .inl (trans_of Waits hwaits (trans_of Waits hwaits' h)))
        fun _ _ h => trans_of Waits hwaits (trans_of Waits hwaits' h)

/-- The tool leaves the metadata. -/
theorem Filed.moveToDone {board : Board} (h : Filed start taskId path status recorded commit board)
    (hkanban : completion.kanban.Works) :
    Filed (completion.kanban.moveToDone taskId board) taskId path
      (if completion.kanban.moved then "done" else status) recorded commit
        (completion.kanban.moveToDone taskId board) := by
  obtain ⟨task, htask, rfl⟩ := h.task
  refine ⟨(hkanban.findPath taskId board).trans h.findPath, rfl,
    hkanban.task taskId board path task h.findPath htask, ?_⟩
  rw [hkanban.record taskId board path h.findPath]
  exact h.record

/-- Merged at once, and at an end only if the merge has succeeded. -/
theorem handedOver_mergeAtOnce
    (h : Filed start taskId path status recorded commit daemon.disk.board)
    (hkanban : completion.kanban.Works)
    (hexit : completionExit settings completion = .mergeAtOnce) :
    After (mergeAtOnce settings completion taskId) daemon
      (fun _ next => daemon.Waits next ∨
        (HandedOver settings completion taskId next.disk.board ↔
          (completion.kanban.moved = true ∨ status = "review" ∨ status = "done") ∧
            ∃ branch head, completion.branch = .ok branch ∧ completion.headCommit = .ok head ∧
              recorded = some branch ∧ commit = some head))
      (fun _ next => daemon.Waits next) := by
  unfold mergeAtOnce
  cases completion.lock with
  | error error => exact refl_of Waits daemon
  | ok _ =>
    rw [after_bind, after_orFail_ok]
    cases completion.merge with
    | error error => exact refl_of Waits daemon
    | ok outcome =>
      rw [after_bind, after_orFail_ok]
      cases outcome with
      | success =>
        rw [handleMergeSuccess, after_bind, runKanban, after_modify, after_bind]
        refine (moves_messageManager (R := Eq) _).mono ?_ fun _ _ h => ?_
        · rintro _ _ rfl
          rw [after_bind]
          refine (moves_reportToManager (R := Eq) _).mono ?_ fun _ _ h => ?_
          · rintro _ _ rfl
            refine .inr ((h.moveToDone hkanban).handedOver_iff.trans ?_)
            rw [hexit]
            cases completion.kanban.moved <;> simp
          · rw [← h]
            exact waits_of_eq rfl rfl rfl
        · rw [← h]
          exact waits_of_eq rfl rfl rfl
      | rebaseConflict info =>
        have hcounted : Moves Waits incrementRetry := by
          refine Moves.bind ?_ fun _ => moves_get.bind fun _ => moves_pure _
          exact moves_modify fun _ => waits_of_eq rfl rfl rfl
        have hconflict : Moves Waits (handleRebaseConflict settings completion taskId) := by
          refine moves_handleRebaseConflict hcounted (fun _ => waits_note (by simp)) ?_
          refine waits_escalate _ (moves_reportToManager.bind fun _ => ?_)
          exact (adds_of_still (still_runKanban _)).bind fun _ => adds_clearActiveTask
        exact (hconflict daemon).mono (fun _ _ h => .inl h) fun _ _ h => h
      | mergeFailure info =>
        have hfailure : Moves Waits (handleMergeFailure settings completion taskId) :=
          moves_handleMergeFailure (waits_escalate _ adds_clearActiveTask)
        exact (hfailure daemon).mono (fun _ _ h => .inl h) fun _ _ h => h

theorem handedOver_takeExit
    (h : Filed start taskId path status recorded commit daemon.disk.board)
    (hkanban : completion.kanban.Works) (hbranch : completion.branch = .ok branch) :
    After (takeExit settings completion taskId branch (completionExit settings completion)) daemon
      (fun _ next => daemon.Waits next ∨
        (HandedOver settings completion taskId next.disk.board ↔
          match completionExit settings completion with
          | .override => GoesToReview completion (findAccesses start taskId) status ∧
              ∃ branch head, completion.branch = .ok branch ∧ completion.headCommit = .ok head ∧
                recorded = some branch ∧ commit = some head
          | .autoMerge | .manualReview =>
              GoesToReview completion (findAccesses start taskId) status
          | .mergeAtOnce => (completion.kanban.moved = true ∨ status = "review" ∨
              status = "done") ∧ ∃ branch head, completion.branch = .ok branch ∧
                completion.headCommit = .ok head ∧ recorded = some branch ∧ commit = some head))
      (fun _ next => daemon.Waits next) := by
  cases hexit : completionExit settings completion with
  | override => exact handedOver_reviewByOverride h hexit
  | autoMerge =>
    refine handedOver_reviewWithPacket h hbranch (by rw [hexit]; decide) fun daemon => ?_
    exact rfl
  | manualReview =>
    exact handedOver_reviewWithPacket h hbranch (by rw [hexit]; decide) fun daemon =>
      after_finishForManualReview
  | mergeAtOnce => exact handedOver_mergeAtOnce h hkanban hexit

/-- A completion that is at an end has taken the task where it goes, exactly if the board lets
it. -/
theorem handedOver_completed (hactive : daemon.activeTask = some taskId)
    (hkanban : completion.kanban.Works)
    (hfinishes : daemon.Finishes (daemon.completed settings completion)) :
    HandedOver settings completion taskId (daemon.completed settings completion).disk.board ↔
      HandsOver settings completion taskId daemon.disk.board := by
  have hend : daemon.Waits (daemon.completed settings completion) ∨
      (HandedOver settings completion taskId (daemon.completed settings completion).disk.board ↔
        HandsOver settings completion taskId daemon.disk.board) := by
    refine (after_iff_endState (P := fun next => daemon.Waits next ∨
      (HandedOver settings completion taskId next.disk.board ↔
        HandsOver settings completion taskId daemon.disk.board))).mp ?_
    cases hworktrees : settings.usesWorktrees with
    | false =>
      simp only [handleEngineerCompletion, after_bind, after_get, hactive, hworktrees,
        Bool.not_false, if_true, after_pure]
      exact .inl (refl_of Waits daemon)
    | true =>
      simp only [handleEngineerCompletion, after_bind, after_get, hactive, hworktrees,
        Bool.not_true, Bool.false_eq_true, if_false]
      refine (filed_verifyTask.and (waits_verifyTask daemon)).mono ?_ fun _ _ h => .inl h.2
      rintro accepted verified ⟨hfiled, hwaits⟩
      cases accepted with
      | none => exact .inl hwaits
      | some accepted =>
        obtain ⟨hpassed, hbranch, path, task, record, hpath, htask, hrecord, hfiled⟩ :=
          hfiled accepted.1 accepted.2 rfl
        simp only [hpassed, if_true]
        refine (handedOver_takeExit hfiled hkanban hbranch).mono ?_
          fun _ _ h => .inl (trans_of Waits hwaits h)
        rintro _ next (hlast | hiff)
        · exact .inl (trans_of Waits hwaits hlast)
        · refine .inr (hiff.trans ⟨fun h => ⟨path, task, record, hpath, htask, hrecord, h⟩, ?_⟩)
          rintro ⟨path', task', record', hpath', htask', hrecord', h⟩
          obtain rfl := Option.some.inj (hpath'.symm.trans hpath)
          obtain rfl := Option.some.inj (htask'.symm.trans htask)
          obtain rfl := Option.some.inj (hrecord'.symm.trans hrecord)
          exact h
  exact hend.resolve_left fun hwaits => hwaits.not_finishes hactive hfinishes

end

/-- **Handing over.** A completion that comes to an end leaves the task where it takes it, with what
was verified on record, exactly if the transitions to `review` get through, or the tool brings it to
`done`, and where no packet is written it has the branch and the head on record before. -/
theorem handedOver_iff_handsOver (settings : CompletionSettings) (completion : Completion)
    (taskId : Nat) (daemon : CompletionDaemon) (hactive : daemon.activeTask = some taskId)
    (hkanban : completion.kanban.Works) :
    (daemon.Finishes (daemon.completed settings completion) →
        HandedOver settings completion taskId (daemon.completed settings completion).disk.board) ↔
      (daemon.Finishes (daemon.completed settings completion) →
        HandsOver settings completion taskId daemon.disk.board) :=
  forall_congr' fun hfinishes => handedOver_completed hactive hkanban hfinishes

theorem works_plainCompletion : plainCompletion.kanban.Works where
  findPath _ _ := rfl
  record _ _ _ _ := rfl
  task _ _ _ task _ htask := ⟨task, htask, rfl⟩

/-- Everything goes well, and the request to merge is queued. -/
theorem handedOver_plainCompletion :
    taskDaemon.Finishes (taskDaemon.completed plainSettings plainCompletion) ∧
      HandedOver plainSettings plainCompletion 1
        (taskDaemon.completed plainSettings plainCompletion).disk.board := by
  have hnotes :
      taskDaemon.notedSince (taskDaemon.completed plainSettings plainCompletion) = [] := by
    decide +kernel
  have hfinishes : taskDaemon.Finishes (taskDaemon.completed plainSettings plainCompletion) := by
    refine ⟨.inl fun hqueue => ?_, fun taskId reason => ?_⟩
    · exact absurd (congrArg (fun mergeQueue => mergeQueue.queue.length) hqueue) (by decide +kernel)
    · rw [hnotes]
      exact List.not_mem_nil
  refine ⟨hfinishes, (handedOver_iff_handsOver plainSettings plainCompletion 1 taskDaemon rfl
    works_plainCompletion).mpr (fun _ => ?_) hfinishes⟩
  refine ⟨"001-login.md", (taskDaemon.disk.board.taskAt "001-login.md").get (by decide +kernel),
    (taskDaemon.disk.board.recordAt "001-login.md").get (by decide +kernel), by decide +kernel,
    (Option.some_get _).symm, (Option.some_get _).symm, ?_⟩
  show GoesToReview _ _ _
  decide +kernel

/-- The task is not to be merged without a review. -/
def reviewSettings : CompletionSettings := { plainSettings with autoMergeOverride := some false }

/-- Everything goes well, and the task comes to its review without a commit. -/
theorem not_handedOver_override :
    ¬ ∀ settings (completion : Completion) taskId (daemon : CompletionDaemon),
      daemon.activeTask = some taskId → completion.kanban.Works →
      daemon.Finishes (daemon.completed settings completion) →
        HandedOver settings completion taskId
          (daemon.completed settings completion).disk.board := by
  intro h
  have hnotes : taskDaemon.notedSince (taskDaemon.completed reviewSettings plainCompletion) =
      [.completed 1] := by
    decide +kernel
  have hfinishes : taskDaemon.Finishes (taskDaemon.completed reviewSettings plainCompletion) := by
    refine ⟨.inr (.inl (by decide +kernel)), fun taskId reason => ?_⟩
    rw [hnotes]
    simp
  obtain ⟨branch, head, path, task, record, -, -, hpath, -, -, hrecord, -, hcommit, -⟩ :=
    h reviewSettings plainCompletion 1 taskDaemon rfl works_plainCompletion hfinishes
  have hfound : (taskDaemon.completed reviewSettings plainCompletion).disk.board.findPath 1 =
      some "001-login.md" := by
    decide +kernel
  obtain rfl := Option.some.inj (hpath.symm.trans hfound)
  have hnone : ((taskDaemon.completed reviewSettings plainCompletion).disk.board.recordAt
      "001-login.md").map WorkflowRecord.commit = some none := by
    decide +kernel
  rw [hrecord, Option.map_some, hcommit] at hnone
  cases hnone

end CompletionDaemon

end Batty
