import Mathlib.Data.Set.Card
import Mathlib.Order.CompletePartialOrder
import Batty.Dispatch.Rounds

/-!
# The end of an enqueue pass

A round that does not end the pass is meant to rule a task out: it is queued, it waits for another
pass, it waits for a lock, or it is made to depend on work under way. `Daemon.Selectable` is what
is not ruled out yet, as files of the board, and as long as every round shrinks it the pass comes
to an end (`finishes_of_shrinks`).

One kind of round need not shrink it. A candidate that overlaps with work under way is not made to
depend on a task that depends on it, for that would close a cycle; if all its conflicts do, nothing
is written, and the next round finds the same candidate again. `Daemon.CanWait` is exactly what it
takes for the candidate to be ruled out (`selectable_ssubset_iff_canWait`).
-/

namespace Batty

/-! ### What is not ruled out -/

/-- The files of tasks that this pass can still choose. -/
def Daemon.Selectable (daemon : Daemon) (enqueued : Enqueued) : Set String :=
  {path | ∃ task, daemon.Offers enqueued task ∧ task.sourcePath = path}

/-- The task can be made to wait: one of the dependencies that close no cycle is unfinished on the
board, and the file they are written to is that of a task which can still be chosen. -/
structure Daemon.CanWait (daemon : Daemon) (enqueued : Enqueued) (task : Task) : Prop where
  blocking : ∃ id ∈ daemon.safeBlockingIds task,
    ((taskStatusById daemon.disk.board.tasks id).map depStatusSatisfied).getD true = false
  file : ∃ path ∈ daemon.Selectable enqueued, daemon.disk.board.findPath task.id = some path

section

variable {daemon daemon' mid : Daemon} {task : Task} {enqueued enqueued' : Enqueued}
  {pass : EnqueuePass}

theorem Daemon.finite_selectable (daemon : Daemon) (enqueued : Enqueued) :
    (daemon.Selectable enqueued).Finite := by
  refine ((daemon.disk.board.tasks.map Task.sourcePath).finite_toSet).subset ?_
  rintro path ⟨task, hoffers, rfl⟩
  exact List.mem_map_of_mem hoffers.mem

theorem Daemon.Reads.selectable_eq (h : daemon.Reads mid) (enqueued : Enqueued) :
    mid.Selectable enqueued = daemon.Selectable enqueued := by
  simp only [Selectable, h.offers_iff]

/-- A board that stays as it is and an id that is ruled out. -/
theorem selectable_ssubset_of_ruledOut (hboard : daemon'.disk.board = daemon.disk.board)
    (hoffers : daemon.Offers enqueued task)
    (hsub : enqueued.unavailableTaskIds ⊆ enqueued'.unavailableTaskIds)
    (hruledOut : task.id ∈ enqueued'.unavailableTaskIds) :
    daemon'.Selectable enqueued' ⊂ daemon.Selectable enqueued := by
  constructor
  · rintro path ⟨other, hother, rfl⟩
    refine ⟨other, ⟨hboard ▸ hother.mem, fun hmem => hother.available (hsub hmem), ?_⟩, rfl⟩
    have hdependencies := hother.dependencies
    rwa [hboard] at hdependencies
  · intro hsuperset
    obtain ⟨other, hother, hpath⟩ := hsuperset ⟨task, hoffers, rfl⟩
    have hmem := hother.mem
    rw [hboard] at hmem
    obtain ⟨file, hfile, htask⟩ := Board.exists_find?_of_mem hoffers.mem
    obtain rfl := Board.eq_of_sourcePath hfile htask hmem hpath
    exact hother.available hruledOut

/-! ### Waiting for dependencies -/

/-- A dependency holds up a task when it is on the board and not finished. -/
theorem dependenciesSatisfied_iff {tasks : List Task} {task : Task} :
    dependenciesSatisfied tasks task = true ↔ ∀ id ∈ task.dependsOn,
      ((taskStatusById tasks id).map depStatusSatisfied).getD true = true := by
  rw [dependenciesSatisfied, List.all_eq_true]

/-- What writing dependencies does to the tasks on the board. -/
structure Board.Postpones (board board' : Board) (path : String) (ids : List Nat) : Prop where
  here : ∃ task task', task.sourcePath = path ∧ task'.sourcePath = path ∧ task'.id = task.id ∧
    (∀ id, id ∈ task'.dependsOn ↔ id ∈ task.dependsOn ∨ id ∈ ids) ∧
    (∀ other ∈ board.tasks, other.sourcePath = path → other = task) ∧
    ∀ other, other ∈ board'.tasks ↔ (∃ original ∈ board.tasks, original.sourcePath ≠ path ∧
      other = original) ∨ task ∈ board.tasks ∧ other = task'
  status : ∀ id, taskStatusById board'.tasks id = taskStatusById board.tasks id

theorem Board.postpones_of_update {board : Board} {taskId : Nat} {path : String} {ids : List Nat}
    (hpath : board.findPath taskId = some path) (hids : ∀ id ∈ ids, id < 2 ^ 32) :
    board.Postpones (board.update path (appendDependenciesMutator ids)) path ids := by
  obtain ⟨file, hmem, hname, task, htask, -⟩ := exists_of_findPath hpath
  have hfile := find?_eq_some_iff.mpr ⟨hmem, hname⟩
  obtain ⟨task', htask', hedit⟩ := task_update_appendDependencies htask hids
  have hsource : task.sourcePath = path := (TaskFile.sourcePath_eq_name htask).trans hname
  have hsource' : task'.sourcePath = path := hedit.sourcePath.trans hsource
  have htasks := tasks_update hfile htask htask' hedit.id
  have hunique : ∀ other ∈ board.tasks, other.sourcePath = path → other = task := fun other =>
    eq_of_sourcePath hfile htask
  refine ⟨⟨task, task', hsource, hsource', hedit.id, fun id => ?_, hunique, fun other => ?_⟩,
    fun id => ?_⟩
  · rw [hedit.dependsOn, mem_sortedIds, List.mem_append]
  · rw [htasks, List.mem_map]
    constructor
    · rintro ⟨original, horiginal, rfl⟩
      by_cases horiginalPath : original.sourcePath = path
      · obtain rfl := hunique original horiginal horiginalPath
        exact .inr ⟨horiginal, if_pos horiginalPath⟩
      · exact .inl ⟨original, horiginal, horiginalPath, if_neg horiginalPath⟩
    · rintro (⟨original, horiginal, horiginalPath, rfl⟩ | ⟨htaskMem, rfl⟩)
      · exact ⟨other, horiginal, if_neg horiginalPath⟩
      · exact ⟨task, htaskMem, if_pos hsource⟩
  · rw [htasks]
    refine taskStatusById_map (fun other hother => ?_) id
    unfold Task.replacedBy
    split
    · rename_i hotherPath
      obtain rfl := hunique other hother hotherPath
      exact ⟨hedit.id, hedit.status⟩
    · exact ⟨rfl, rfl⟩

/-- **Exactly what rules the candidate out**, when its dependencies have been written. -/
theorem selectable_ssubset_iff_of_edits
    (hedits : daemon.disk.Edits task.id (appendDependenciesMutator (daemon.safeBlockingIds task))
      daemon'.disk) :
    daemon'.Selectable enqueued ⊂ daemon.Selectable enqueued ↔ daemon.CanWait enqueued task := by
  obtain ⟨path, hpath, hleads⟩ := hedits
  have hpostpones := Board.postpones_of_update hpath
    (fun id (h : id ∈ daemon.safeBlockingIds task) => Daemon.lt_of_mem_safeBlockingIds h)
  rw [← hleads.board] at hpostpones
  obtain ⟨⟨old, new, hold, hnew, hid, hdependsOn, hunique, hmem⟩, hstatus⟩ := hpostpones
  -- a task elsewhere is on offer as before, and the edited one only if it was
  have hsubset : daemon'.Selectable enqueued ⊆ daemon.Selectable enqueued := by
    rintro _ ⟨other, ⟨hother, havailable, hdependencies⟩, rfl⟩
    simp only [dependenciesSatisfied_iff, hstatus] at hdependencies
    rcases (hmem other).mp hother with ⟨original, horiginal, -, rfl⟩ | ⟨holdMem, rfl⟩
    · exact ⟨other, ⟨horiginal, havailable, dependenciesSatisfied_iff.mpr hdependencies⟩, rfl⟩
    · refine ⟨old, ⟨holdMem, hid ▸ havailable, dependenciesSatisfied_iff.mpr fun id hidMem => ?_⟩,
        hold.trans hnew.symm⟩
      exact hdependencies id ((hdependsOn id).mpr (.inl hidMem))
  constructor
  · rintro ⟨-, hstrict⟩
    obtain ⟨lost, ⟨other, hoffers, rfl⟩, hnot⟩ := Set.not_subset.mp hstrict
    have hotherPath : other.sourcePath = path := by
      by_contra hne
      refine hnot ⟨other, ⟨(hmem other).mpr (.inl ⟨other, hoffers.mem, hne, rfl⟩),
        hoffers.available, ?_⟩, rfl⟩
      have hdependencies := hoffers.dependencies
      rw [dependenciesSatisfied_iff] at hdependencies ⊢
      simpa only [hstatus] using hdependencies
    obtain rfl := hunique other hoffers.mem hotherPath
    refine ⟨?_, path, ⟨other, hoffers, hotherPath⟩, hpath⟩
    by_contra hfinished
    refine hnot ⟨new, ⟨(hmem new).mpr (.inr ⟨hoffers.mem, rfl⟩), hid.symm ▸ hoffers.available, ?_⟩,
      hnew.trans hotherPath.symm⟩
    have hdependencies := dependenciesSatisfied_iff.mp hoffers.dependencies
    rw [dependenciesSatisfied_iff]
    intro id hidMem
    rw [hstatus]
    rcases (hdependsOn id).mp hidMem with hidMem | hidMem
    · exact hdependencies id hidMem
    · by_contra hunfinished
      exact hfinished ⟨id, hidMem, by simpa using hunfinished⟩
  · rintro ⟨⟨id, hidMem, hunfinished⟩, path', ⟨other, hoffers, hotherPath⟩, hpath'⟩
    obtain rfl := Option.some.inj (hpath.symm.trans hpath')
    refine ⟨hsubset, fun hsuperset => ?_⟩
    obtain ⟨edited, ⟨heditedMem, -, hdependencies⟩, heditedPath⟩ :=
      hsuperset ⟨other, hoffers, hotherPath⟩
    rcases (hmem edited).mp heditedMem with ⟨original, -, hne, rfl⟩ | ⟨-, rfl⟩
    · exact hne heditedPath
    · have hfinished := dependenciesSatisfied_iff.mp hdependencies id ((hdependsOn id).mpr (.inr hidMem))
      rw [hstatus, hunfinished] at hfinished
      cases hfinished

end

/-! ### Rounds -/

/-- A round that goes on makes the task wait. -/
def Daemon.MakesWait (daemon : Daemon) (pass : EnqueuePass) (enqueued : Enqueued) (task : Task) :
    Prop :=
  ∃ survey conflicts mid enqueued' daemon', surveyRound pass enqueued daemon = .ok (some survey) mid ∧
    survey.selected = none ∧ survey.leastConflicted = some (task, conflicts) ∧
    enqueueRound pass enqueued daemon = .ok (some enqueued') daemon'

/-- The round shrinks what can be chosen, if it goes on. -/
def Daemon.Shrinks (daemon : Daemon) (pass : EnqueuePass) (enqueued : Enqueued) : Prop :=
  ∀ enqueued' daemon', enqueueRound pass enqueued daemon = .ok (some enqueued') daemon' →
    daemon'.Selectable enqueued' ⊂ daemon.Selectable enqueued

section

variable {daemon daemon' mid : Daemon} {task : Task} {enqueued enqueued' : Enqueued}
  {pass : EnqueuePass}

/-- A task that was chosen is ruled out, whether it was queued or left. -/
theorem after_enqueueTask_ruledOut {locked : List Nat} (hlocked : enqueued.fileLockedTaskIds ⊆ locked) :
    After (enqueueTask pass { enqueued with fileLockedTaskIds := locked } task) daemon
      (fun enqueued' daemon' => daemon'.disk.board = daemon.disk.board ∧
        enqueued.unavailableTaskIds ⊆ enqueued'.unavailableTaskIds ∧
          task.id ∈ enqueued'.unavailableTaskIds)
      (fun _ _ => True) := by
  simp only [enqueueTask, after_bind]
  refine (after_rankForTask _ _ _).mono ?_ fun _ _ _ => trivial
  rintro ranked mid ⟨hmid, -⟩
  refine (after_findEligible _ _).mono ?_ fun _ _ _ => trivial
  rintro found last ⟨hlast, -⟩
  have hboard := (trans_of Daemon.Reads hmid hlast).board
  have hsub : ∀ {queuedIds excludedIds : List Nat}, enqueued.queuedTaskIds ⊆ queuedIds →
      enqueued.eligibilityExcludedTaskIds ⊆ excludedIds →
        enqueued.unavailableTaskIds ⊆ queuedIds ++ locked ++ excludedIds := by
    intro queuedIds excludedIds hqueued hexcluded id hmem
    simp only [Enqueued.unavailableTaskIds, List.mem_append] at hmem ⊢
    exact hmem.imp (Or.imp (fun h => hqueued h) fun h => hlocked h) fun h => hexcluded h
  cases found with
  | none =>
    refine ⟨hboard, hsub (List.Subset.refl _) (List.subset_cons_self _ _), ?_⟩
    simp [Enqueued.unavailableTaskIds]
  | some name =>
    refine ⟨hboard, hsub (List.subset_cons_self _ _) (List.Subset.refl _), ?_⟩
    simp [Enqueued.unavailableTaskIds]

theorem enqueueRound_some_iff : enqueueRound pass enqueued daemon = .ok (some enqueued') daemon' ↔
    ∃ survey mid, surveyRound pass enqueued daemon = .ok (some survey) mid ∧
      actOnSurvey pass enqueued survey mid = .ok (some enqueued') daemon' := by
  rw [enqueueRound, returns_bind_iff]
  constructor
  · rintro ⟨_ | survey, mid, hsurvey, hact⟩
    · cases hact
    · exact ⟨survey, mid, hsurvey, hact⟩
  · rintro ⟨survey, mid, hsurvey, hact⟩
    exact ⟨some survey, mid, hsurvey, hact⟩

/-- A candidate without a dependency that closes no cycle cannot wait. -/
theorem Daemon.not_canWait_of_safeBlockingIds_eq_nil (h : daemon.safeBlockingIds task = []) :
    ¬ daemon.CanWait enqueued task := by
  rintro ⟨⟨id, hmem, -⟩, -⟩
  rw [h] at hmem
  cases hmem

/-- A round that makes a task wait shrinks what can be chosen exactly if the task can wait. -/
theorem selectable_ssubset_iff_canWait {survey : Survey} {conflicts : List OverlapConflict}
    (hsurvey : surveyRound pass enqueued daemon = .ok (some survey) mid)
    (hselected : survey.selected = none) (hleast : survey.leastConflicted = some (task, conflicts))
    (hact : actOnSurvey pass enqueued survey mid = .ok (some enqueued') daemon') :
    daemon'.Selectable enqueued' ⊂ daemon.Selectable enqueued ↔ daemon.CanWait enqueued task := by
  obtain ⟨hmid, hfound⟩ := (after_of_returns hsurvey).mp (after_surveyRound pass enqueued)
  obtain ⟨available, hoffers, hfrom⟩ := hfound survey rfl
  obtain ⟨selected, locked, least⟩ := survey
  obtain rfl : selected = none := hselected
  obtain rfl : least = some (task, conflicts) := hleast
  obtain rfl : conflicts = daemon.conflictsOf task := (hfrom.leastConflicted _ rfl).2.1
  obtain rfl : locked = enqueued.fileLockedTaskIds := by
    refine hfrom.unlocked (Bool.eq_false_iff.mpr fun hlocks => ?_)
    cases hfrom.waiting hlocks
  simp only [actOnSurvey, returns_bind_iff] at hact
  obtain ⟨_, last, hserialize, ⟨⟩⟩ := hact
  rw [← hmid.conflictsOf_eq] at hserialize
  obtain ⟨-, hnone, hsome⟩ :=
    (after_of_returns hserialize).mp (after_serializeOverlappingCandidate task)
  rw [hmid.safeBlockingIds_eq] at hnone hsome
  by_cases hsafe : daemon.safeBlockingIds task = []
  · have hreads := trans_of Daemon.Reads hmid (hnone hsafe)
    rw [hreads.selectable_eq]
    exact iff_of_false (fun h => h.2 subset_rfl)
      (Daemon.not_canWait_of_safeBlockingIds_eq_nil hsafe)
  · have hleads := hmid.disk.leads
    rw [hmid.board] at hleads
    exact selectable_ssubset_iff_of_edits (hleads.edits (hsome hsafe))

/-- **A round shrinks what can be chosen exactly if the task it makes wait can wait.** -/
theorem shrinks_iff : daemon.Shrinks pass enqueued ↔
    ∀ task, daemon.MakesWait pass enqueued task → daemon.CanWait enqueued task := by
  constructor
  · rintro hshrinks task ⟨survey, conflicts, mid, enqueued', daemon', hsurvey, hselected, hleast, hround⟩
    obtain ⟨survey', mid', hsurvey', hact⟩ := enqueueRound_some_iff.mp hround
    obtain ⟨⟨⟩, rfl⟩ := EStateM.Result.ok.inj (hsurvey.symm.trans hsurvey')
    exact (selectable_ssubset_iff_canWait hsurvey hselected hleast hact).mp
      (hshrinks enqueued' daemon' hround)
  · intro hwait enqueued' daemon' hround
    obtain ⟨survey, mid, hsurvey, hact⟩ := enqueueRound_some_iff.mp hround
    cases hselected : survey.selected with
    | some task =>
      obtain ⟨hmid, hfound⟩ := (after_of_returns hsurvey).mp (after_surveyRound pass enqueued)
      obtain ⟨available, hoffers, hfrom⟩ := hfound survey rfl
      have hruledOut : After (actOnSurvey pass enqueued survey) mid (fun next daemon' =>
          ∀ enqueued' ∈ next, daemon'.disk.board = mid.disk.board ∧
            enqueued.unavailableTaskIds ⊆ enqueued'.unavailableTaskIds ∧
              task.id ∈ enqueued'.unavailableTaskIds) (fun _ _ => True) := by
        simp only [actOnSurvey, hselected, after_map, Option.mem_some_iff, forall_eq']
        exact after_enqueueTask_ruledOut hfrom.fileLocked
      obtain ⟨hboard, hsub, hruled⟩ := (after_of_returns hact).mp hruledOut enqueued' rfl
      exact selectable_ssubset_of_ruledOut (hboard.trans hmid.board)
        (hoffers task (hfrom.selected task hselected)) hsub hruled
    | none =>
      cases hleast : survey.leastConflicted with
      | none =>
        rw [actOnSurvey, hselected, hleast] at hact
        cases hact
      | some least =>
        obtain ⟨task, conflicts⟩ := least
        refine (selectable_ssubset_iff_canWait hsurvey hselected hleast hact).mpr (hwait task ?_)
        exact ⟨survey, conflicts, mid, enqueued', daemon', hsurvey, hselected, hleast, hround⟩

end

/-! ### The pass -/

/-- The pass from `daemon` comes to a round. -/
inductive Daemon.EnqueueReaches (daemon : Daemon) (pass : EnqueuePass) : Enqueued → Daemon → Prop where
  | start {enqueued mid} : prepareEnqueue daemon = .ok (pass, enqueued) mid →
      daemon.EnqueueReaches pass enqueued mid
  | round {enqueued mid enqueued' mid'} : daemon.EnqueueReaches pass enqueued mid →
      enqueueRound pass enqueued mid = .ok (some enqueued') mid' →
      daemon.EnqueueReaches pass enqueued' mid'

/-- After some number of rounds the pass comes to an end or fails. -/
def Daemon.EnqueueFinishes (daemon : Daemon) : Prop :=
  ∃ rounds, After (enqueueDispatchCandidates rounds) daemon (fun ended _ => ended = true)
    (fun _ _ => True)

/-- **The pass comes to an end, for every round that goes on shrinks what can be chosen.** -/
structure Daemon.FinishesByShrinking (daemon : Daemon) : Prop where
  finishes : daemon.EnqueueFinishes
  shrinks : ∀ pass enqueued mid, daemon.EnqueueReaches pass enqueued mid → mid.Shrinks pass enqueued

/-- Every task that the pass makes wait can wait. -/
def Daemon.WaitsEffectively (daemon : Daemon) : Prop :=
  ∀ pass enqueued mid task, daemon.EnqueueReaches pass enqueued mid →
    mid.MakesWait pass enqueued task → mid.CanWait enqueued task

section

variable {daemon mid : Daemon} {enqueued : Enqueued} {pass : EnqueuePass}

/-- From a round on, the loop ends within as many rounds as there are tasks to choose, and one. -/
theorem exists_enqueueLoop_ends
    (hshrinks : ∀ enqueued mid, daemon.EnqueueReaches pass enqueued mid → mid.Shrinks pass enqueued)
    (hreaches : daemon.EnqueueReaches pass enqueued mid) :
    ∃ rounds, After (enqueueLoop pass rounds enqueued) mid (fun ended _ => ended = true)
      (fun _ _ => True) := by
  induction hcard : (mid.Selectable enqueued).ncard using Nat.strong_induction_on
    generalizing enqueued mid with
  | _ card ih =>
    rcases hround : enqueueRound pass enqueued mid with ⟨_ | enqueued', mid'⟩ | ⟨error, mid'⟩
    · refine ⟨1, ?_⟩
      rw [enqueueLoop, after_bind, after_of_returns hround]
      exact rfl
    · have hssubset := hshrinks enqueued mid hreaches enqueued' mid' hround
      have hlt := Set.ncard_lt_ncard hssubset (mid.finite_selectable enqueued)
      rw [hcard] at hlt
      obtain ⟨rounds, hends⟩ := ih _ hlt (hreaches.round hround) rfl
      refine ⟨rounds + 1, ?_⟩
      rw [enqueueLoop, after_bind, after_of_returns hround]
      exact hends
    · refine ⟨1, ?_⟩
      rw [enqueueLoop, after_bind, after_of_fails hround]
      trivial

/-- **Shrinking rounds come to an end.** -/
theorem finishes_of_shrinks
    (hshrinks : ∀ pass enqueued mid, daemon.EnqueueReaches pass enqueued mid →
      mid.Shrinks pass enqueued) : daemon.EnqueueFinishes := by
  rcases hprepare : prepareEnqueue daemon with ⟨⟨pass, enqueued⟩, mid⟩ | ⟨error, mid⟩
  · obtain ⟨rounds, hends⟩ := exists_enqueueLoop_ends (hshrinks pass) (.start hprepare)
    refine ⟨rounds, ?_⟩
    rw [enqueueDispatchCandidates, after_bind, after_of_returns hprepare]
    exact hends
  · refine ⟨0, ?_⟩
    rw [enqueueDispatchCandidates, after_bind, after_of_fails hprepare]
    trivial

/-- **The end of a pass.** A pass comes to an end by shrinking exactly if every task that it makes
wait can wait. -/
theorem finishesByShrinking_iff_waitsEffectively (daemon : Daemon) :
    daemon.FinishesByShrinking ↔ daemon.WaitsEffectively := by
  have hiff : (∀ pass enqueued mid, daemon.EnqueueReaches pass enqueued mid →
      mid.Shrinks pass enqueued) ↔ daemon.WaitsEffectively := by
    simp only [shrinks_iff, Daemon.WaitsEffectively]
    exact ⟨fun h pass enqueued mid task hreaches => h pass enqueued mid hreaches task,
      fun h pass enqueued mid hreaches task => h pass enqueued mid task hreaches⟩
  rw [← hiff]
  exact ⟨Daemon.FinishesByShrinking.shrinks, fun h => ⟨finishes_of_shrinks h, h⟩⟩

end

/-! ### A task that the work under way depends on -/

/-- A task under way depends on one that is open, and both are predicted to touch the same file.
The questions and accesses made so far are left open. -/
def cyclicDaemon (asked accesses : Nat) : Daemon :=
  { openDaemon [{ plainFile "001-base.md" 1 "in-progress" none with
        frontmatter := .ofList [(.id, .number 1), (.title, .string "base"),
          (.status, .string "in-progress"), (.dependsOn, .sequence [.number 2])] },
      plainFile "002-part.md" 2 "todo" none] (by decide) with
    outside := { calmOutside 0 with predictedFiles := fun _ _ => ["src/lib.rs"] }
    asked
    disk.accesses := accesses }

def cyclicPass : EnqueuePass where
  benched := []
  rescuedTaskIds := []
  profiles := fun _ => none
  allowPeerPickup := false

def nothingQueued : Enqueued := { queuedTaskIds := [], queuedEngineers := [] }

/-- What every round finds. -/
def cyclicSurvey : Survey :=
  match surveyRound cyclicPass nothingQueued (cyclicDaemon 0 0) with
  | .ok (some survey) _ => survey
  | _ => { fileLocked := [] }

theorem surveyRound_cyclic (asked accesses : Nat) :
    surveyRound cyclicPass nothingQueued (cyclicDaemon asked accesses) =
      .ok (some cyclicSurvey) (cyclicDaemon (asked + 1) (accesses + 4)) := rfl

/-- The open task is to wait for the one under way. -/
theorem cyclicSurvey_waits : cyclicSurvey.selected = none ∧ ∃ task conflicts,
    cyclicSurvey.leastConflicted = some (task, conflicts) ∧
      task.id = 2 ∧ blockingTaskIds conflicts = [1] := by
  have hselected : cyclicSurvey.selected.isNone := by decide +kernel
  have hwaits : ∃ least ∈ cyclicSurvey.leastConflicted,
      least.1.id = 2 ∧ blockingTaskIds least.2 = [1] := by decide +kernel
  obtain ⟨⟨task, conflicts⟩, hleast, hid, hblocking⟩ := hwaits
  exact ⟨Option.isNone_iff_eq_none.mp hselected, task, conflicts, hleast, hid, hblocking⟩

/-- The task under way depends on the open one, so nothing is written. -/
theorem splitAcyclicBlockingIds_cyclic :
    (splitAcyclicBlockingIds (cyclicDaemon 0 0).disk.board.tasks 2 [1]).1 = [] := by
  have hdepends : DependsOn (cyclicDaemon 0 0).disk.board.tasks 1 2 :=
    Relation.ReflTransGen.single ⟨[2], by decide +kernel, by decide⟩
  rw [List.eq_nil_iff_forall_not_mem]
  intro id hmem
  rw [mem_splitAcyclicBlockingIds, List.mem_singleton] at hmem
  obtain ⟨rfl, hnot⟩ := hmem
  exact hnot hdepends

theorem serializeOverlappingCandidate_cyclic {task : Task} {conflicts : List OverlapConflict}
    (hid : task.id = 2) (hblocking : blockingTaskIds conflicts = [1]) (asked accesses : Nat) :
    serializeOverlappingCandidate task conflicts (cyclicDaemon asked accesses) =
      .ok () (cyclicDaemon asked (accesses + 1)) := by
  have hstep : serializeOverlappingCandidate task conflicts (cyclicDaemon asked accesses) =
      (if (splitAcyclicBlockingIds (cyclicDaemon 0 0).disk.board.tasks task.id
        (blockingTaskIds conflicts)).1 = [] then pure ()
      else onDisk (appendTaskDependencies task.id (splitAcyclicBlockingIds
        (cyclicDaemon 0 0).disk.board.tasks task.id (blockingTaskIds conflicts)).1))
        (cyclicDaemon asked (accesses + 1)) := rfl
  rw [hstep, hid, hblocking, if_pos splitAcyclicBlockingIds_cyclic]
  rfl

/-- A round leaves everything as it was. -/
theorem enqueueRound_cyclic (asked accesses : Nat) :
    enqueueRound cyclicPass nothingQueued (cyclicDaemon asked accesses) =
      .ok (some nothingQueued) (cyclicDaemon (asked + 1) (accesses + 5)) := by
  obtain ⟨hselected, task, conflicts, hleast, hid, hblocking⟩ := cyclicSurvey_waits
  have hserialize := serializeOverlappingCandidate_cyclic hid hblocking (asked + 1) (accesses + 4)
  have hfileLocked : cyclicSurvey.fileLocked = [] := rfl
  rw [enqueueRound, returns_bind_iff]
  refine ⟨_, _, surveyRound_cyclic asked accesses, ?_⟩
  simp only [actOnSurvey, hselected, hleast, hfileLocked]
  rw [returns_bind_iff]
  exact ⟨(), _, hserialize, rfl⟩

theorem enqueueLoop_cyclic (rounds asked accesses : Nat) :
    ∃ daemon, enqueueLoop cyclicPass rounds nothingQueued (cyclicDaemon asked accesses) =
      .ok false daemon := by
  induction rounds generalizing asked accesses with
  | zero => exact ⟨_, rfl⟩
  | succ rounds ih =>
    obtain ⟨daemon, hrest⟩ := ih (asked + 1) (accesses + 5)
    refine ⟨daemon, ?_⟩
    rw [enqueueLoop, returns_bind_iff]
    exact ⟨_, _, enqueueRound_cyclic asked accesses, hrest⟩

/-- Before the first round nothing is queued. -/
theorem prepareEnqueue_cyclic : ∃ asked accesses, prepareEnqueue (cyclicDaemon 0 0) =
    .ok (cyclicPass, nothingQueued) (cyclicDaemon asked accesses) :=
  ⟨_, _, rfl⟩

/-- No number of rounds brings the pass to an end, for a round that goes on shrinks nothing. -/
theorem not_finishesByShrinking_cyclicDaemon :
    ¬ (cyclicDaemon 0 0).FinishesByShrinking ∧ ∀ rounds, ∃ daemon,
      enqueueDispatchCandidates rounds (cyclicDaemon 0 0) = .ok false daemon := by
  have hendless : ∀ rounds, ∃ daemon,
      enqueueDispatchCandidates rounds (cyclicDaemon 0 0) = .ok false daemon := by
    intro rounds
    obtain ⟨asked, accesses, hprepare⟩ := prepareEnqueue_cyclic
    obtain ⟨daemon, hloop⟩ := enqueueLoop_cyclic rounds asked accesses
    refine ⟨daemon, ?_⟩
    rw [enqueueDispatchCandidates, returns_bind_iff]
    exact ⟨_, _, hprepare, hloop⟩
  refine ⟨fun hfinishes => ?_, hendless⟩
  obtain ⟨rounds, hends⟩ := hfinishes.finishes
  obtain ⟨daemon, hrun⟩ := hendless rounds
  rw [after_of_returns hrun] at hends
  cases hends

end Batty
