import Batty.Dispatch.Enqueue

/-!
# What a round can do

`RoundTaken` says once what a round of the enqueue loop can do: it ends the loop, queues a task
that is on offer for an engineer who is eligible, leaves a task for another pass, or makes an
overlapping task wait. A round that fails has only looked.
-/

namespace Batty

/-! ### Candidates -/

/-- The task is on the board, nothing in this pass has ruled it out so far, and its
dependencies hold nothing up. -/
structure Daemon.Offers (daemon : Daemon) (enqueued : Enqueued) (task : Task) : Prop where
  mem : task ∈ daemon.disk.board.tasks
  available : task.id ∉ enqueued.unavailableTaskIds
  dependencies : dependenciesSatisfied daemon.disk.board.tasks task = true

/-- The tasks under way that the task overlaps with. -/
def Daemon.conflictsOf (daemon : Daemon) (task : Task) : List OverlapConflict :=
  findOverlappingTasks (daemon.outside.predictedFiles daemon.disk.board) task
    (daemon.disk.board.tasks.filter fun task => task.status = "in-progress")

/-- The dependencies that would be written to make the task wait. -/
def Daemon.safeBlockingIds (daemon : Daemon) (task : Task) : List Nat :=
  (splitAcyclicBlockingIds daemon.disk.board.tasks task.id
    (blockingTaskIds (daemon.conflictsOf task))).1

theorem Daemon.lt_of_mem_safeBlockingIds {daemon : Daemon} {task : Task} {id : Nat}
    (h : id ∈ daemon.safeBlockingIds task) : id < 2 ^ 32 :=
  lt_of_mem_blockingTaskIds (mem_splitAcyclicBlockingIds.mp h).1

/-- The engineer may be given the task: it is the assignee, if that is an engineer, and it carries
the owner role that the body names, if any engineer does. -/
structure TeamConfig.Allows (config : TeamConfig) (task : Task) (engineer : String) : Prop where
  assignee : ∀ name ∈ task.assignee, name ∈ config.engineerNames → engineer = name
  ownerRole : ∀ role ∈ parseBodyOwnerRole task.description,
    config.engineersWithRole role ≠ [] → engineer ∈ config.engineersWithRole role

section

variable {daemon mid : Daemon} {task : Task} {enqueued : Enqueued}

theorem Daemon.Reads.offers_iff (h : daemon.Reads mid) :
    mid.Offers enqueued task ↔ daemon.Offers enqueued task := by
  constructor <;> rintro ⟨hmem, havailable, hdependencies⟩
  · rw [h.board] at hmem hdependencies
    exact ⟨hmem, havailable, hdependencies⟩
  · refine ⟨?_, havailable, ?_⟩ <;> rwa [h.board]

theorem Daemon.Reads.conflictsOf_eq (h : daemon.Reads mid) (task : Task) :
    mid.conflictsOf task = daemon.conflictsOf task := by
  rw [conflictsOf, conflictsOf, h.board, h.outside]

theorem Daemon.Reads.safeBlockingIds_eq (h : daemon.Reads mid) (task : Task) :
    mid.safeBlockingIds task = daemon.safeBlockingIds task := by
  rw [safeBlockingIds, safeBlockingIds, h.conflictsOf_eq, h.board]

theorem after_availableTasks (unavailable rescued retries : List Nat) :
    After (availableTasks unavailable rescued retries) daemon
      (fun available daemon' => daemon.Reads daemon' ∧ ∀ task ∈ available,
        task ∈ daemon.disk.board.tasks ∧ task.id ∉ unavailable ∧
          dependenciesSatisfied daemon.disk.board.tasks task = true)
      (fun _ daemon' => daemon.Reads daemon') := by
  simp only [availableTasks, after_bind, after_get, after_pure]
  refine after_onDisk_loadTasks.mono ?_ fun _ _ h => h
  rintro tasks mid ⟨hmid, rfl⟩
  refine (after_ask _ mid).mono ?_ fun _ _ h => trans_of Daemon.Reads hmid h
  rintro calendar daemon' ⟨hlast, -, -⟩
  refine ⟨trans_of Daemon.Reads hmid hlast, fun task hmem => ?_⟩
  obtain ⟨hboard, havailable⟩ := mem_availableDispatchTasks.mp hmem
  simp only [isAvailable, Bool.and_eq_true, Bool.not_eq_true', List.contains_eq_mem,
    decide_eq_false_iff_not] at havailable
  exact ⟨hboard, havailable.1.1.1.1.1.2, havailable.1.2⟩

theorem moves_verificationRetryDispatchableTaskIds (allowPeerPickup : Bool) :
    Moves Daemon.Reads (verificationRetryDispatchableTaskIds allowPeerPickup) :=
  moves_loadTasks.bind fun _ => moves_readEvidence.bind fun _ => moves_get.bind fun _ => moves_pure _

/-! ### Who is considered -/

theorem TeamConfig.mem_withOwnerRole {config : TeamConfig} {eligible : List String} {name : String}
    (h : name ∈ config.withOwnerRole task eligible) : name ∈ eligible ∧
      ∀ role ∈ parseBodyOwnerRole task.description,
        config.engineersWithRole role ≠ [] → name ∈ config.engineersWithRole role := by
  unfold withOwnerRole at h
  cases hrole : parseBodyOwnerRole task.description with
  | none =>
    rw [hrole] at h
    exact ⟨h, by simp⟩
  | some role =>
    simp only [hrole, Option.map_some, List.isEmpty_iff] at h
    simp only [Option.mem_some_iff, forall_eq']
    split at h
    · rename_i hnone
      exact ⟨h, fun hsome => absurd hnone hsome⟩
    · obtain ⟨hmem, hcarries⟩ := List.mem_filter.mp h
      exact ⟨hmem, fun _ => by simpa using hcarries⟩

/-- An engineer who is considered is idle and free, and may be given the task. -/
structure Daemon.Considers (daemon : Daemon) (queued benched : List String) (task : Task)
    (name : String) : Prop where
  idle : name ∈ daemon.idleEngineerNames
  unqueued : name ∉ queued
  unbenched : name ∉ benched
  allows : daemon.config.Allows task name

theorem Daemon.considers_of_mem {queued benched : List String} {unixNow time : Nat} {name : String}
    (h : name ∈ daemon.eligibleEngineers task queued benched unixNow time) :
    daemon.Considers queued benched task name := by
  obtain ⟨hmem, hrole⟩ := TeamConfig.mem_withOwnerRole h
  rw [List.mem_insertionSort, List.mem_filter] at hmem
  simp only [Bool.and_eq_true, Bool.not_eq_true', List.contains_eq_mem, decide_eq_false_iff_not,
    Option.all_eq_true, decide_eq_true_eq] at hmem
  obtain ⟨hidle, ⟨⟨⟨hqueued, hbenched⟩, hassignee⟩, -⟩, -⟩ := hmem
  exact ⟨hidle, hqueued, hbenched, fun name hname _ => (hassignee name hname).symm, hrole⟩

theorem after_rankDispatchEngineers (pass : EnqueuePass) (task : Task) (queued : List String) :
    After (rankDispatchEngineers pass task queued) daemon
      (fun ranked daemon' => daemon.Reads daemon' ∧
        ∀ name ∈ ranked, daemon.Considers queued pass.benched task name)
      (fun _ daemon' => daemon.Reads daemon') := by
  simp only [rankDispatchEngineers, now, after_bind, after_get]
  refine (after_ask _ daemon).mono ?_ fun _ _ h => h
  rintro unixNow first ⟨hfirst, -, -⟩
  refine (after_ask _ first).mono ?_ fun _ _ h => trans_of Daemon.Reads hfirst h
  rintro time mid ⟨hmid, -, -⟩
  have hreads := trans_of Daemon.Reads hfirst hmid
  have hconsiders : ∀ name ∈ mid.eligibleEngineers task queued pass.benched unixNow time,
      daemon.Considers queued pass.benched task name := by
    intro name hmem
    obtain ⟨hidle, hqueued, hbenched, hallows⟩ := Daemon.considers_of_mem hmem
    rw [hreads.idle] at hidle
    rw [hreads.config] at hallows
    exact ⟨hidle, hqueued, hbenched, hallows⟩
  cases mid.config.allocationStrategy with
  | roundRobin => exact ⟨hreads, hconsiders⟩
  | scored => exact ⟨hreads, fun name hmem => hconsiders name (rankEngineersForTask_perm.mem_iff.mp hmem)⟩

theorem mem_of_mem_ownerFirst {allowPeerPickup : Bool} {owner name : String} {ranked : List String}
    (h : name ∈ ownerFirst allowPeerPickup owner ranked) : name ∈ ranked := by
  simp only [ownerFirst] at h
  split at h
  · rename_i howner
    have howner : owner ∈ ranked.filter fun name => name = owner || allowPeerPickup := by
      simpa using howner
    rcases List.mem_cons.mp h with rfl | hmem
    · exact (List.mem_filter.mp howner).1
    · exact (List.mem_filter.mp (List.mem_of_mem_erase hmem)).1
  · exact (List.mem_filter.mp h).1

theorem after_rankForTask (pass : EnqueuePass) (task : Task) (queued : List String) :
    After (rankForTask pass task queued) daemon
      (fun ranked daemon' => daemon.Reads daemon' ∧
        ∀ name ∈ ranked, daemon.Considers queued pass.benched task name)
      (fun _ daemon' => daemon.Reads daemon') := by
  simp only [rankForTask, after_bind, after_get]
  refine (after_rankDispatchEngineers _ _ _).mono ?_ fun _ _ h => h
  rintro ranked mid ⟨hmid, hranked⟩
  refine after_onDisk_readEvidence.mono ?_ fun _ _ h => trans_of Daemon.Reads hmid h
  rintro evidence last ⟨hlast, -⟩
  have hreads := trans_of Daemon.Reads hmid hlast
  split
  · refine ⟨hreads, fun name hmem => hranked name ?_⟩
    cases hclaimed : task.claimedBy with
    | none => simpa [hclaimed] using hmem
    | some owner =>
      rw [hclaimed] at hmem
      exact mem_of_mem_ownerFirst hmem
  · exact ⟨hreads, hranked⟩

theorem after_findEligible (taskId : Nat) (names : List String) :
    After (findEligible taskId names) daemon
      (fun found daemon' => daemon.Reads daemon' ∧ ∀ name ∈ found, name ∈ names)
      (fun _ daemon' => daemon.Reads daemon') := by
  induction names generalizing daemon with
  | nil => exact ⟨refl_of Daemon.Reads daemon, by simp⟩
  | cons name names ih =>
    have hrest : ∀ mid, daemon.Reads mid → After (findEligible taskId names) mid
        (fun found daemon' => daemon.Reads daemon' ∧ ∀ name' ∈ found, name' ∈ name :: names)
        (fun _ daemon' => daemon.Reads daemon') := fun mid hmid =>
      ih.mono (fun _ _ h => ⟨trans_of Daemon.Reads hmid h.1, fun name' hmem =>
        List.mem_cons_of_mem _ (h.2 name' hmem)⟩) fun _ _ h => trans_of Daemon.Reads hmid h
    simp only [findEligible, after_bind, after_get]
    split
    · exact hrest daemon (refl_of Daemon.Reads daemon)
    · rw [after_bind]
      refine (after_isReleaseExcluded _ _).mono ?_ fun _ _ h => h
      rintro excluded mid ⟨hmid, -⟩
      split
      · exact hrest mid hmid
      · exact ⟨hmid, by simp⟩

/-! ### The survey -/

/-- What a survey holds is from the tasks looked through: a task that is to wait has conflicts.
Either tasks are locked or one is to wait. -/
structure Survey.From (survey : Survey) (locks : Bool) (conflictsOf : Task → List OverlapConflict)
    (tasks : List Task) (locked : List Nat) : Prop where
  selected : ∀ task ∈ survey.selected, task ∈ tasks
  leastConflicted : ∀ least ∈ survey.leastConflicted,
    least.1 ∈ tasks ∧ least.2 = conflictsOf least.1 ∧ least.2 ≠ []
  fileLocked : locked ⊆ survey.fileLocked
  unlocked : locks = false → survey.fileLocked = locked
  waiting : locks = true → survey.leastConflicted = none

theorem surveyTasks_from (skip : Bool) {locks : Bool} {conflictsOf : Task → List OverlapConflict}
    {available : List Task} {locked : List Nat} {survey : Survey}
    (h : survey.From locks conflictsOf available locked) {tasks : List Task}
    (hsub : tasks ⊆ available) :
    (surveyTasks skip locks conflictsOf survey tasks).From locks conflictsOf available locked := by
  induction tasks generalizing survey with
  | nil => exact h
  | cons task tasks ih =>
    obtain ⟨htask, htasks⟩ := List.cons_subset.mp hsub
    have hselected :
        Survey.From { survey with selected := some task } locks conflictsOf available locked :=
      ⟨by simpa using htask, h.leastConflicted, h.fileLocked, h.unlocked, h.waiting⟩
    unfold surveyTasks
    split
    · exact hselected
    · split
      · exact hselected
      · rename_i hconflicts
        refine ih ?_ htasks
        split
        · rename_i hlocks
          refine ⟨h.selected, h.leastConflicted, List.subset_cons_of_subset _ h.fileLocked,
            fun hunlocked => ?_, h.waiting⟩
          rw [hlocks] at hunlocked
          cases hunlocked
        · rename_i hlocks
          split
          · refine ⟨h.selected, ?_, h.fileLocked, h.unlocked, fun hlocks' => absurd hlocks' hlocks⟩
            rintro _ ⟨⟩
            exact ⟨htask, rfl, hconflicts⟩
          · exact h

end

/-! ### The exits -/

/-- What a round can do. -/
inductive RoundTaken (pass : EnqueuePass) (enqueued : Enqueued) (daemon : Daemon) :
    Option Enqueued → Daemon → Prop where
  | ended {daemon'} : daemon.Reads daemon' → RoundTaken pass enqueued daemon none daemon'
  | left {task locked daemon'} : daemon.Reads daemon' → daemon.Offers enqueued task →
      enqueued.fileLockedTaskIds ⊆ locked →
      RoundTaken pass enqueued daemon (some { enqueued with
        fileLockedTaskIds := locked
        eligibilityExcludedTaskIds := task.id :: enqueued.eligibilityExcludedTaskIds }) daemon'
  | queued {task locked name mid} : daemon.Reads mid → daemon.Offers enqueued task →
      enqueued.fileLockedTaskIds ⊆ locked →
      daemon.Considers enqueued.queuedEngineers pass.benched task name →
      RoundTaken pass enqueued daemon (some { enqueued with
        fileLockedTaskIds := locked
        queuedTaskIds := task.id :: enqueued.queuedTaskIds
        queuedEngineers := name :: enqueued.queuedEngineers })
        { mid with dispatchQueue := mid.dispatchQueue ++ [.new name task] }
  | serialized {task daemon'} : daemon.Stays daemon' → daemon.Offers enqueued task →
      daemon.conflictsOf task ≠ [] →
      (daemon.safeBlockingIds task = [] → daemon.Reads daemon') →
      (daemon.safeBlockingIds task ≠ [] → daemon.disk.Edits task.id
        (appendDependenciesMutator (daemon.safeBlockingIds task)) daemon'.disk) →
      RoundTaken pass enqueued daemon (some enqueued) daemon'

section

variable {daemon daemon' mid : Daemon} {task : Task} {enqueued : Enqueued} {pass : EnqueuePass}

/-- What was looked at before changes nothing about the round. -/
theorem RoundTaken.of_reads {next : Option Enqueued} (h : daemon.Reads mid)
    (htaken : RoundTaken pass enqueued mid next daemon') :
    RoundTaken pass enqueued daemon next daemon' := by
  cases htaken with
  | ended hreads => exact .ended (trans_of Daemon.Reads h hreads)
  | left hreads hoffers hlocked =>
    exact .left (trans_of Daemon.Reads h hreads) (h.offers_iff.mp hoffers) hlocked
  | queued hreads hoffers hlocked hconsiders =>
    obtain ⟨hidle, hunqueued, hunbenched, hallows⟩ := hconsiders
    rw [h.idle] at hidle
    rw [h.config] at hallows
    exact .queued (trans_of Daemon.Reads h hreads) (h.offers_iff.mp hoffers) hlocked
      ⟨hidle, hunqueued, hunbenched, hallows⟩
  | serialized hstays hoffers hconflicts hnone hsome =>
    rw [h.conflictsOf_eq] at hconflicts
    rw [h.safeBlockingIds_eq] at hnone hsome
    refine .serialized (trans_of Daemon.Stays h.toStays hstays) (h.offers_iff.mp hoffers)
      hconflicts (fun hsafe => trans_of Daemon.Reads h (hnone hsafe)) fun hsafe => ?_
    have hleads := h.disk.leads
    rw [h.board] at hleads
    exact hleads.edits (hsome hsafe)

theorem after_enqueueTask {locked : List Nat} (hoffers : daemon.Offers enqueued task)
    (hlocked : enqueued.fileLockedTaskIds ⊆ locked) :
    After (enqueueTask pass { enqueued with fileLockedTaskIds := locked } task) daemon
      (fun enqueued' daemon' => RoundTaken pass enqueued daemon (some enqueued') daemon')
      (fun _ daemon' => daemon.Reads daemon') := by
  simp only [enqueueTask, after_bind]
  refine (after_rankForTask _ _ _).mono ?_ fun _ _ h => h
  rintro ranked mid ⟨hmid, hranked⟩
  refine (after_findEligible _ _).mono ?_ fun _ _ h => trans_of Daemon.Reads hmid h
  rintro found last ⟨hlast, hfound⟩
  have hreads := trans_of Daemon.Reads hmid hlast
  cases found with
  | none => exact .left hreads hoffers hlocked
  | some name => exact .queued hreads hoffers hlocked (hranked name (hfound name rfl))

/-- A candidate is made to wait for what it overlaps with, as far as that closes no cycle. -/
theorem after_serializeOverlappingCandidate (task : Task) :
    After (serializeOverlappingCandidate task (daemon.conflictsOf task)) daemon
      (fun _ daemon' => daemon.Stays daemon' ∧
        (daemon.safeBlockingIds task = [] → daemon.Reads daemon') ∧
        (daemon.safeBlockingIds task ≠ [] → daemon.disk.Edits task.id
          (appendDependenciesMutator (daemon.safeBlockingIds task)) daemon'.disk))
      (fun _ daemon' => daemon.Reads daemon') := by
  simp only [serializeOverlappingCandidate, after_bind]
  refine after_onDisk_loadTasks.mono ?_ fun _ _ h => h
  rintro tasks mid ⟨hmid, rfl⟩
  change After (if daemon.safeBlockingIds task = [] then pure () else _) mid _ _
  split
  · rename_i hnone
    exact ⟨hmid.toStays, fun _ => hmid, fun hsome => absurd hnone hsome⟩
  · rename_i hsome
    rw [after_onDisk]
    refine (after_editTask _ _).mono (fun _ disk hedits => ?_) fun _ disk hleads => ?_
    · have hstays : mid.Stays { mid with disk } :=
        ⟨⟨rfl, rfl, rfl, le_rfl, hedits.onward <| editsTasks_appendDependencies fun _ h =>
          Daemon.lt_of_mem_safeBlockingIds h⟩, rfl, rfl⟩
      have hleads := hmid.disk.leads
      rw [hmid.board] at hleads
      exact ⟨trans_of Daemon.Stays hmid.toStays hstays, fun hnone => absurd hnone hsome,
        fun _ => hleads.edits hedits⟩
    · exact trans_of Daemon.Reads hmid (Daemon.reads_of_leads hleads)

/-- What is surveyed is on offer. -/
theorem after_surveyRound (pass : EnqueuePass) (enqueued : Enqueued) :
    After (surveyRound pass enqueued) daemon
      (fun found daemon' => daemon.Reads daemon' ∧ ∀ survey ∈ found, ∃ available,
        (∀ task ∈ available, daemon.Offers enqueued task) ∧
          survey.From daemon.config.fileLevelLocks daemon.conflictsOf available
            enqueued.fileLockedTaskIds)
      (fun _ daemon' => daemon.Reads daemon') := by
  simp only [surveyRound, after_bind]
  refine (moves_verificationRetryDispatchableTaskIds _ daemon).mono ?_ fun _ _ h => h
  intro retries first hfirst
  refine (after_availableTasks _ _ _).mono ?_ fun _ _ h => trans_of Daemon.Reads hfirst h
  rintro available second ⟨hsecond, havailable⟩
  have hreads := trans_of Daemon.Reads hfirst hsecond
  split
  · exact ⟨hreads, by simp⟩
  · simp only [after_bind, after_get]
    refine after_onDisk_loadTasks.mono ?_ fun _ _ h => trans_of Daemon.Reads hreads h
    rintro tasks mid ⟨hmid, rfl⟩
    have hall := trans_of Daemon.Reads hreads hmid
    refine ⟨hall, ?_⟩
    have hconflicts : (fun task => findOverlappingTasks (mid.outside.predictedFiles mid.disk.board)
        task (second.disk.board.tasks.filter fun task => task.status = "in-progress")) =
        daemon.conflictsOf := by
      funext task
      rw [← hall.conflictsOf_eq, Daemon.conflictsOf, hmid.board]
    rw [hconflicts, hall.config]
    rintro _ ⟨⟩
    refine ⟨available, fun task hmem => ?_, surveyTasks_from _ ?_ (List.Subset.refl _)⟩
    · obtain ⟨hboard, hid, hdependencies⟩ := havailable task hmem
      exact hfirst.offers_iff.mp ⟨hboard, hid, hdependencies⟩
    · exact ⟨by simp, by simp, List.Subset.refl _, fun _ => rfl, fun _ => rfl⟩

/-- What is done about a survey is one of the exits. -/
theorem after_actOnSurvey {survey : Survey} {available : List Task}
    (hoffers : ∀ task ∈ available, daemon.Offers enqueued task)
    (hfrom : survey.From daemon.config.fileLevelLocks daemon.conflictsOf available
      enqueued.fileLockedTaskIds) :
    After (actOnSurvey pass enqueued survey) daemon
      (fun next daemon' => RoundTaken pass enqueued daemon next daemon')
      (fun _ daemon' => daemon.Reads daemon') := by
  obtain ⟨hselected, hleast, hlocked, hunlocked, hwaiting⟩ := hfrom
  obtain ⟨selected, locked, leastConflicted⟩ := survey
  cases selected with
  | some task =>
    simp only [actOnSurvey, after_map]
    exact after_enqueueTask (hoffers task (hselected task rfl)) hlocked
  | none =>
    cases leastConflicted with
    | none => exact .ended (refl_of Daemon.Reads daemon)
    | some least =>
      obtain ⟨task, conflicts⟩ := least
      obtain ⟨hmem, hconflictsOf, hne⟩ := hleast _ rfl
      obtain rfl : conflicts = daemon.conflictsOf task := hconflictsOf
      obtain rfl : locked = enqueued.fileLockedTaskIds := by
        refine hunlocked (Bool.eq_false_iff.mpr fun hlocks => ?_)
        cases hwaiting hlocks
      simp only [actOnSurvey, after_bind, after_pure]
      refine (after_serializeOverlappingCandidate task).mono ?_ fun _ _ h => h
      rintro _ daemon' ⟨hstays, hnone, hsome⟩
      exact .serialized hstays (hoffers task hmem) hne hnone hsome

/-- **Every round takes one of its exits**; one that fails has only looked. -/
theorem after_enqueueRound (pass : EnqueuePass) (enqueued : Enqueued) :
    After (enqueueRound pass enqueued) daemon
      (fun next daemon' => RoundTaken pass enqueued daemon next daemon')
      (fun _ daemon' => daemon.Reads daemon') := by
  rw [enqueueRound, after_bind]
  refine (after_surveyRound pass enqueued).mono ?_ fun _ _ h => h
  rintro found mid ⟨hmid, hfound⟩
  cases found with
  | none => exact .ended hmid
  | some survey =>
    obtain ⟨available, hoffers, hfrom⟩ := hfound survey rfl
    have hconflicts : mid.conflictsOf = daemon.conflictsOf := funext hmid.conflictsOf_eq
    rw [← hconflicts, ← hmid.config] at hfrom
    refine (after_actOnSurvey (fun task hmem => hmid.offers_iff.mpr (hoffers task hmem)) hfrom).mono
      (fun _ _ h => h.of_reads hmid) fun _ _ h => trans_of Daemon.Reads hmid h

/-! ### The pass -/

/-- **Invariants of the loop.** What looking does not change and every round preserves holds
after any number of rounds, whether or not the loop ended or failed. -/
theorem after_enqueueLoop {I : Enqueued → Daemon → Prop}
    (hreads : ∀ {enqueued daemon daemon'}, daemon.Reads daemon' → I enqueued daemon →
      I enqueued daemon')
    (hround : ∀ {enqueued enqueued' daemon daemon'}, I enqueued daemon →
      RoundTaken pass enqueued daemon (some enqueued') daemon' → I enqueued' daemon')
    (rounds : Nat) (hstart : I enqueued daemon) :
    After (enqueueLoop pass rounds enqueued) daemon (fun _ daemon' => ∃ enqueued', I enqueued' daemon')
      (fun _ daemon' => ∃ enqueued', I enqueued' daemon') := by
  induction rounds generalizing enqueued daemon with
  | zero => exact ⟨enqueued, hstart⟩
  | succ rounds ih =>
    rw [enqueueLoop, after_bind]
    refine (after_enqueueRound pass enqueued).mono (fun next mid htaken => ?_)
      fun _ _ h => ⟨enqueued, hreads h hstart⟩
    cases next with
    | none =>
      obtain ⟨hended⟩ := htaken
      exact ⟨enqueued, hreads ‹_› hstart⟩
    | some enqueued' => exact ih (hround hstart htaken)

/-- Nothing has changed but the daemon's own records. -/
structure Daemon.Unedited (daemon daemon' : Daemon) : Prop extends daemon.Onward daemon' where
  board : daemon'.disk.board = daemon.disk.board

instance : IsPreorder Daemon Daemon.Unedited where
  refl daemon := ⟨refl_of Daemon.Onward daemon, rfl⟩
  trans _ _ _ h h' :=
    ⟨trans_of Daemon.Onward h.toOnward h'.toOnward, h'.board.trans h.board⟩

theorem Daemon.Reads.unedited (h : daemon.Reads mid) : daemon.Unedited mid := ⟨h.toOnward, h.board⟩

theorem Moves.toUnedited {α : Type} {m : Action α} (h : Moves Daemon.Reads m) :
    Moves Daemon.Unedited m := fun daemon =>
  (h daemon).mono (fun _ _ h => h.unedited) fun _ _ h => h.unedited

theorem moves_expireRecords : Moves Daemon.Unedited expireRecords :=
  moves_now.toUnedited.bind fun _ =>
    moves_modify fun _ => ⟨⟨rfl, rfl, rfl, le_rfl, refl_of Disk.Onward _⟩, rfl⟩

theorem moves_refreshRecords : Moves Daemon.Unedited refreshRecords :=
  moves_loadTasks.toUnedited.bind fun _ => moves_benchedEngineerNames.toUnedited.bind fun _ =>
    moves_expireRecords.bind fun _ => moves_rescuedTaskIds.toUnedited.bind fun _ =>
      (moves_ask _).toUnedited.bind fun _ => (moves_orFail _).bind fun _ => moves_pure _

/-- A pass begins with the ids and the engineers that are queued. -/
structure Daemon.Prepares (daemon : Daemon) (enqueued : Enqueued) (daemon' : Daemon) : Prop
    extends daemon.Unedited daemon' where
  queuedTaskIds : enqueued.queuedTaskIds = daemon.dispatchQueue.map DispatchQueueEntry.taskId
  queuedEngineers : enqueued.queuedEngineers = daemon.dispatchQueue.map DispatchQueueEntry.engineer

theorem after_prepareEnqueue : After prepareEnqueue daemon
    (fun prepared daemon' => daemon.Prepares prepared.2 daemon')
    (fun _ daemon' => daemon.Unedited daemon') := by
  rw [prepareEnqueue, after_bind]
  refine (moves_refreshRecords daemon).mono ?_ fun _ _ h => h
  rintro ⟨benched, rescued, profiles⟩ mid hmid
  simp only [after_bind, after_get]
  refine (after_availableTasks _ _ _).mono ?_ fun _ _ h => trans_of Daemon.Unedited hmid h.unedited
  rintro unqueued last ⟨hlast, -⟩
  refine ⟨trans_of Daemon.Unedited hmid hlast.unedited, ?_, ?_⟩ <;> rw [hmid.dispatchQueue]

/-- **Invariants of an enqueue pass**, for its end and for every point at which it stops to look
at what is left. -/
theorem endState_enqueueDispatchCandidates {I : EnqueuePass → Enqueued → Daemon → Prop}
    {P : Daemon → Prop}
    (hreads : ∀ {pass enqueued daemon daemon'}, daemon.Reads daemon' → I pass enqueued daemon →
      I pass enqueued daemon')
    (hround : ∀ {pass enqueued enqueued' daemon daemon'}, I pass enqueued daemon →
      RoundTaken pass enqueued daemon (some enqueued') daemon' → I pass enqueued' daemon')
    (hstart : ∀ pass enqueued mid, daemon.Prepares enqueued mid → I pass enqueued mid)
    (hinvariant : ∀ {pass enqueued mid}, I pass enqueued mid → P mid)
    (hunedited : ∀ mid, daemon.Unedited mid → P mid) (rounds : Nat) :
    P (endState (enqueueDispatchCandidates rounds) daemon) := by
  refine after_iff_endState.mp ?_
  rw [enqueueDispatchCandidates, after_bind]
  refine after_prepareEnqueue.mono ?_ fun _ mid h => hunedited mid h
  rintro ⟨pass, enqueued⟩ mid hprepares
  refine (after_enqueueLoop (I := I pass) hreads hround rounds
    (hstart pass enqueued mid hprepares)).mono ?_ ?_
  · rintro _ _ ⟨enqueued', h⟩
    exact hinvariant h
  · rintro _ _ ⟨enqueued', h⟩
    exact hinvariant h

end

end Batty
