import Batty.Dispatch.Drain

/-!
# What an examination can say

The examination of a queue entry runs through a dozen exits. `Examined` says once, exit by exit,
what is known when it is taken, in terms of the daemon the examination began with: nothing that
an examination looks at changes while it looks (`Daemon.Reads`). `EntryExamined` adds the exits
for entries that are out of date. Everything proved about queue entries goes through these two.

An examination writes to the board in one case only, to block a task whose body names
dependencies that are not met.
-/

namespace Batty

/-! ### What is looked at -/

/-- The evidence is what the files say, as far as they could be read at some moment. -/
def Disk.Evident (disk : Disk) (evidence : Evidence) : Prop :=
  ∃ access, evidence = fun path =>
    if disk.unreadable access path then none else disk.board.workflowMetadata path

/-- `found` is an answer to the question which task the entry is to dispatch. -/
def Daemon.Checks (daemon : Daemon) (entry : DispatchQueueEntry) (found : Option Task) : Prop :=
  ∃ evidence calendar, daemon.disk.Evident evidence ∧
    found = daemon.disk.board.tasks.find?
      (daemon.dispatchableFor evidence daemon.disk.board.tasks calendar entry)

def Board.activeItems (board : Board) (engineer : String) : List Task :=
  board.tasks.filter fun task => task.isActiveFor engineer

/-- The number of the engineer's active items that count against the entry. -/
def Daemon.CountsAgainst (daemon : Daemon) (entry : DispatchQueueEntry) (task : Task)
    (count : Nat) : Prop :=
  ∃ evidence, daemon.disk.Evident evidence ∧
    count = effectiveActiveCount (daemon.verificationRetryDispatchableTask evidence task true)
      entry task (daemon.disk.board.activeItems entry.engineer).length

/-- Some access to the disk is still to fail. -/
def Disk.MayFail (disk : Disk) : Prop := ∃ access ≥ disk.accesses, disk.faults access = true

/-- The engineer is idle, if it is one of the team. -/
def Daemon.Idles (daemon : Daemon) (engineer : String) : Prop :=
  engineer ∈ daemon.config.engineerNames → engineer ∈ daemon.idleEngineerNames

/-- The first of the names who has nothing active, but for some who cannot be looked at. -/
def Disk.FirstFree (disk : Disk) (names : List String) (name : String) : Prop :=
  disk.board.activeItems name = [] ∧ ∃ before after, names = before ++ name :: after ∧
    ∀ other ∈ before, disk.board.activeItems other ≠ [] ∨ disk.MayFail

/-- The entry has its task still and its engineer, who is said to be idle, is busy; and of the idle
engineers for whom nothing is retained this is the first that is free. -/
structure Daemon.Alternative (daemon : Daemon) (retained : List DispatchQueueEntry)
    (entry : DispatchQueueEntry) (name : String) : Prop where
  idle : daemon.Idles entry.engineer
  busy : ∃ task count, daemon.Checks entry (some task) ∧ daemon.CountsAgainst entry task count ∧
    0 < count
  first : daemon.disk.FirstFree (daemon.idleEngineerNames.filter fun name =>
    name ≠ entry.engineer && !(retained.map DispatchQueueEntry.engineer).contains name) name

/-- The entry names the same task and engineer. -/
def DispatchQueueEntry.Same (entry entry' : DispatchQueueEntry) : Prop :=
  entry'.engineer = entry.engineer ∧ entry'.taskId = entry.taskId ∧
    entry'.taskTitle = entry.taskTitle

section

variable {daemon daemon' mid : Daemon} {entry : DispatchQueueEntry} {evidence : Evidence}

theorem Daemon.Quiet.evident_iff (h : daemon.Quiet mid) :
    mid.disk.Evident evidence ↔ daemon.disk.Evident evidence := by
  simp only [Disk.Evident, h.disk.leads.unreadable, h.board]

theorem Daemon.Reads.checks_iff (h : daemon.Reads mid) {found : Option Task} :
    mid.Checks entry found ↔ daemon.Checks entry found := by
  have hsame : ∀ evidence calendar, mid.dispatchableFor evidence mid.disk.board.tasks calendar entry =
      daemon.dispatchableFor evidence daemon.disk.board.tasks calendar entry := by
    intro evidence calendar
    funext task
    simp only [dispatchableFor, h.retry, h.board]
  simp only [Checks, h.toQuiet.evident_iff, hsame]
  rw [h.board]

theorem Daemon.Reads.countsAgainst_iff (h : daemon.Reads mid) {task : Task} {count : Nat} :
    mid.CountsAgainst entry task count ↔ daemon.CountsAgainst entry task count := by
  simp only [CountsAgainst, h.toQuiet.evident_iff, h.retry]
  rw [h.board]

/-- The task an entry is to dispatch is on the board under the entry's id. -/
theorem Daemon.Checks.mem {task : Task} (h : daemon.Checks entry (some task)) :
    task ∈ daemon.disk.board.tasks ∧ task.id = entry.taskId := by
  obtain ⟨evidence, calendar, -, hfind⟩ := h
  refine ⟨List.mem_of_find?_eq_some hfind.symm, ?_⟩
  have hdispatchable := List.find?_some hfind.symm
  simp only [dispatchableFor, Bool.and_eq_true, decide_eq_true_eq] at hdispatchable
  exact hdispatchable.1.1.1.1.1.1.1

theorem after_onDisk_readEvidence : After (onDisk readEvidence) daemon
    (fun evidence daemon' => daemon.Reads daemon' ∧ daemon.disk.Evident evidence)
    (fun _ daemon' => daemon.Reads daemon') := by
  refine after_onDisk.mpr ?_
  simp only [readEvidence, after_bind, after_get, after_set, after_pure]
  exact ⟨Daemon.reads_of_leads ⟨rfl, rfl, rfl, rfl, rfl, Nat.le_succ _⟩, _, rfl⟩

theorem after_onDisk_loadTasks : After (onDisk loadTasks) daemon
    (fun tasks daemon' => daemon.Reads daemon' ∧ tasks = daemon.disk.board.tasks)
    (fun _ daemon' => daemon.Reads daemon') :=
  after_onDisk.mpr <| after_loadTasks.mono (fun _ _ h => ⟨Daemon.reads_of_leads h.1, h.2⟩)
    fun _ _ h => Daemon.reads_of_leads h

theorem after_taskForDispatchEntry : After (taskForDispatchEntry entry) daemon
    (fun found daemon' => daemon.Reads daemon' ∧ daemon.Checks entry found)
    (fun _ daemon' => daemon.Reads daemon') := by
  unfold taskForDispatchEntry
  simp only [after_bind, after_get, after_pure]
  refine after_onDisk_loadTasks.mono ?_ fun _ _ h => h
  rintro tasks first ⟨hfirst, rfl⟩
  refine after_onDisk_readEvidence.mono ?_ fun _ _ h => trans_of Daemon.Reads hfirst h
  rintro evidence second ⟨hsecond, hevident⟩
  have hreads := trans_of Daemon.Reads hfirst hsecond
  refine (after_ask _ _).mono ?_ fun _ _ h => trans_of Daemon.Reads hreads h
  rintro calendar last ⟨hlast, -, -⟩
  have hreads := trans_of Daemon.Reads hreads hlast
  refine ⟨hreads, hreads.checks_iff.mp ⟨evidence, calendar, ?_, ?_⟩⟩
  · rw [hreads.toQuiet.evident_iff, ← hfirst.toQuiet.evident_iff]
    exact hevident
  · rw [hreads.board]

theorem Daemon.Reads.firstFree (h : daemon.Reads mid) {names : List String} {name : String}
    (hfirst : mid.disk.FirstFree names name) : daemon.disk.FirstFree names name := by
  obtain ⟨hfree, before, after, hnames, hbefore⟩ := hfirst
  rw [h.board] at hfree
  refine ⟨hfree, before, after, hnames, fun other hother => ?_⟩
  rcases hbefore other hother with hbusy | ⟨access, hle, hfault⟩
  · rw [h.board] at hbusy
    exact .inl hbusy
  · rw [h.disk.leads.faults] at hfault
    exact .inr ⟨access, h.disk.leads.accesses.trans hle, hfault⟩

theorem Daemon.Reads.idles_iff (h : daemon.Reads mid) {engineer : String} :
    mid.Idles engineer ↔ daemon.Idles engineer := by
  rw [Daemon.Idles, Daemon.Idles, h.idle, h.config]

theorem Daemon.idles_of_state {engineer : String} (h : daemon.states engineer = some .idle) :
    daemon.Idles engineer := fun hmem => List.mem_filter.mpr ⟨hmem, by rw [h]⟩

theorem Daemon.Reads.alternative (h : daemon.Reads mid) {retained : List DispatchQueueEntry}
    {name : String} (halternative : mid.Alternative retained entry name) :
    daemon.Alternative retained entry name := by
  obtain ⟨hidle, ⟨task, count, hchecks, hcount, hbusy⟩, hfirst⟩ := halternative
  rw [h.idle] at hfirst
  exact ⟨h.idles_iff.mp hidle, ⟨task, count, h.checks_iff.mp hchecks, h.countsAgainst_iff.mp hcount, hbusy⟩,
    h.firstFree hfirst⟩

theorem after_onDisk_loadTasks_of_readable
    (h : daemon.disk.faults daemon.disk.accesses = false) : After (onDisk loadTasks) daemon
      (fun tasks daemon' => daemon.Reads daemon' ∧ tasks = daemon.disk.board.tasks)
      (fun _ _ => False) := by
  refine after_onDisk.mpr ?_
  simp only [loadTasks, access, after_bind, after_get, after_set, h, Bool.false_eq_true, if_false,
    after_pure, and_true]
  exact Daemon.reads_of_leads ⟨rfl, rfl, rfl, rfl, rfl, Nat.le_succ _⟩

theorem after_engineerActiveBoardItemCount (engineer : String) :
    After (engineerActiveBoardItemCount engineer) daemon
      (fun count daemon' => daemon.Reads daemon' ∧
        count = (daemon.disk.board.activeItems engineer).length)
      (fun _ daemon' => daemon.Reads daemon') := by
  unfold engineerActiveBoardItemCount engineerActiveBoardTaskIds
  simp only [after_bind, after_pure]
  refine after_onDisk_loadTasks.mono ?_ fun _ _ h => h
  rintro tasks daemon' ⟨hreads, rfl⟩
  exact ⟨hreads, by simp [Board.activeItems]⟩

theorem after_isReleaseExcluded (taskId : Nat) (engineer : String) :
    After (isReleaseExcluded taskId engineer) daemon
      (fun excluded daemon' => daemon.Reads daemon' ∧ ∃ question < daemon'.asked,
        excluded = daemon.releaseExcludedAt (daemon.outside.clock question) taskId engineer)
      (fun _ daemon' => daemon.Reads daemon') := by
  unfold isReleaseExcluded now
  simp only [after_bind, after_get, after_pure]
  refine (after_ask _ _).mono ?_ fun _ _ h => h
  rintro time daemon' ⟨hreads, hasked, rfl⟩
  refine ⟨hreads, daemon.asked, hasked, ?_⟩
  simp only [Daemon.releaseExcludedAt, Daemon.releaseExclusionWindow, hreads.config,
    hreads.recentlyReleasedBy]

/-- An engineer without a task is idle whether it is said to be idle or working. -/
theorem Daemon.Quiet.reads_of_idle (h : daemon.Quiet mid) {engineer : String}
    (hactive : mid.activeTasks = daemon.activeTasks)
    (hstates : mid.states = Function.update daemon.states engineer (some .idle))
    (hworking : daemon.states engineer = some .working)
    (huntracked : daemon.activeTasks.lookup engineer = none) : daemon.Reads mid := by
  have hidle : mid.idleEngineerNames = daemon.idleEngineerNames := by
    simp only [idleEngineerNames, h.config, hactive, hstates]
    congr 1
    funext name
    by_cases hname : name = engineer
    · subst hname
      simp [hworking, huntracked]
    · rw [Function.update_of_ne hname]
  refine ⟨h, hidle, fun evidence task => ?_⟩
  have howner : ∀ owner, (decide (mid.activeTasks.lookup owner = some task.id) &&
      decide (mid.states owner = some .working)) =
      (decide (daemon.activeTasks.lookup owner = some task.id) &&
        decide (daemon.states owner = some .working)) := by
    intro owner
    rw [hactive, hstates]
    by_cases hname : owner = engineer
    · subst hname
      simp [huntracked]
    · rw [Function.update_of_ne hname]
  simp only [verificationRetryDispatchableTask, hidle, howner]

theorem moves_recoverStuckMember (engineer : String) :
    Moves Daemon.Reads (recoverStuckMember engineer) := by
  intro daemon
  simp only [recoverStuckMember, after_bind, after_get]
  split
  · rename_i hstuck
    simp only [Bool.and_eq_true, decide_eq_true_eq, Option.isNone_iff_eq_none] at hstuck
    simp only [setMemberState, updateAutomationTimersForState, now, ask, after_bind, after_modify,
      after_get, after_set, after_pure]
    refine Daemon.Quiet.reads_of_idle ?_ rfl rfl hstuck.1 hstuck.2
    exact ⟨⟨⟨rfl, rfl, rfl, Nat.le_succ _, refl_of Disk.Onward _⟩, rfl, rfl⟩, rfl⟩
  · exact refl_of Daemon.Reads daemon

/-- The count of an engineer's items fails only where the disk does. -/
theorem after_engineerActiveBoardItemCount_error (engineer : String) :
    After (engineerActiveBoardItemCount engineer) daemon
      (fun count daemon' => daemon.Reads daemon' ∧
        count = (daemon.disk.board.activeItems engineer).length)
      (fun _ daemon' => daemon.Reads daemon' ∧ daemon.disk.MayFail) := by
  by_cases hfault : daemon.disk.faults daemon.disk.accesses = true
  · exact (after_engineerActiveBoardItemCount engineer).mono (fun _ _ h => h)
      fun _ _ h => ⟨h, _, le_rfl, hfault⟩
  · unfold engineerActiveBoardItemCount engineerActiveBoardTaskIds
    simp only [after_bind, after_pure]
    refine (after_onDisk_loadTasks_of_readable (by simpa using hfault)).mono ?_
      fun _ _ h => h.elim
    rintro tasks daemon' ⟨hreads, rfl⟩
    exact ⟨hreads, by simp [Board.activeItems]⟩

/-- An engineer that is found free is the first of those looked at. -/
theorem after_findFree (names : List String) : After (findFree names) daemon
    (fun found daemon' => daemon.Reads daemon' ∧
      ∀ name, found = some name → daemon.disk.FirstFree names name)
    (fun _ daemon' => daemon.Reads daemon') := by
  induction names generalizing daemon with
  | nil => exact ⟨refl_of Daemon.Reads daemon, by simp⟩
  | cons name names ih =>
    have hrest : ∀ mid, daemon.Reads mid →
        daemon.disk.board.activeItems name ≠ [] ∨ daemon.disk.MayFail → After (findFree names) mid
        (fun found daemon' => daemon.Reads daemon' ∧ ∀ name', found = some name' →
          daemon.disk.FirstFree (name :: names) name')
        (fun _ daemon' => daemon.Reads daemon') := by
      intro mid hmid hname
      refine ih.mono ?_ fun _ _ h => trans_of Daemon.Reads hmid h
      rintro found daemon' ⟨hreads, hfree⟩
      refine ⟨trans_of Daemon.Reads hmid hreads, fun name' h => ?_⟩
      obtain ⟨hnone, before, after, rfl, hbefore⟩ := hmid.firstFree (hfree name' h)
      exact ⟨hnone, name :: before, after, rfl, List.forall_mem_cons.mpr ⟨hname, hbefore⟩⟩
    simp only [findFree, after_bind, after_attempt]
    refine (after_engineerActiveBoardItemCount_error name).mono ?_
      fun _ mid h => hrest mid h.1 (.inr h.2)
    rintro count mid ⟨hmid, rfl⟩
    split
    · rename_i hcount
      refine ⟨hmid, ?_⟩
      rintro _ ⟨⟩
      have hlength := Except.ok.inj hcount
      exact ⟨List.length_eq_zero_iff.mp hlength, [], names, rfl, List.forall_mem_nil _⟩
    · rename_i hcount
      refine hrest mid hmid (.inl fun hnone => hcount ?_)
      rw [hnone]
      rfl

end

/-! ### The exits -/

/-- The exits of `examineCurrent`, with what is known at each. -/
inductive Examined (retained : List DispatchQueueEntry) (entry : DispatchQueueEntry)
    (daemon : Daemon) : Verdict → Daemon → Prop where
  | stale {daemon'} : daemon.Reads daemon' → daemon.Checks entry none →
      Examined retained entry daemon (.settled (.dropped .stale)) daemon'
  | held {daemon'} : daemon.Reads daemon' →
      Examined retained entry daemon (.settled (.retained entry)) daemon'
  | alreadyInProgress {daemon' task evidence} : daemon.Reads daemon' →
      daemon.Checks entry (some task) → daemon.disk.Evident evidence →
      task.status = "in-progress" →
      daemon.verificationRetryDispatchableTask evidence task true = false →
      Examined retained entry daemon (.settled (.dropped .alreadyInProgress)) daemon'
  | unmetBodyDependencies {daemon' task} : daemon.Stays daemon' →
      daemon.Checks entry (some task) → (parseBodyDependencyIds task.description).isSome →
      (daemon'.disk.board = daemon.disk.board ∨
        daemon.disk.Edits task.id (transitionMutator .blocked) daemon'.disk) →
      Examined retained entry daemon (.settled (.dropped .unmetBodyDependencies)) daemon'
  | passedOn {daemon' name} : daemon.Reads daemon' → daemon.Alternative retained entry name →
      Examined retained entry daemon
        (.settled (.retained { entry.cleared with engineer := name })) daemon'
  | everyoneBusy {daemon' task count} : daemon.Reads daemon' → daemon.Checks entry (some task) →
      daemon.CountsAgainst entry task count → 0 < count →
      dispatchQueueFailureLimit ≤ entry.validationFailures + 1 →
      Examined retained entry daemon (.settled (.dropped .everyoneBusy)) daemon'
  | retained {daemon' entry'} : daemon.Reads daemon' → entry.Same entry' →
      Examined retained entry daemon (.settled (.retained entry')) daemon'
  | escalated {daemon' entry'} : daemon.Reads daemon' → entry.Same entry' →
      dispatchQueueFailureLimit ≤ entry'.validationFailures →
      Examined retained entry daemon (.settled (.escalated entry')) daemon'
  | admitted {daemon' task} : daemon.Reads daemon' → daemon.Checks entry (some task) →
      daemon.CountsAgainst entry task 0 →
      Examined retained entry daemon (.admitted task) daemon'

/-- The exits of `examineEntry`, with what is known at each. -/
inductive EntryExamined (benched : List String) (rescued : List Nat)
    (retained : List DispatchQueueEntry) (entry : DispatchQueueEntry) (daemon : Daemon) :
    Verdict → Daemon → Prop where
  | stale {daemon'} : daemon.Reads daemon' → daemon.Checks entry none →
      EntryExamined benched rescued retained entry daemon (.settled (.dropped .stale)) daemon'
  | rescued {daemon'} : daemon.Reads daemon' → entry.taskId ∈ rescued →
      EntryExamined benched rescued retained entry daemon (.settled (.dropped .rescued)) daemon'
  | releaseExcluded {daemon' question} : daemon.Reads daemon' →
      daemon.releaseExcludedAt (daemon.outside.clock question) entry.taskId entry.engineer = true →
      EntryExamined benched rescued retained entry daemon
        (.settled (.dropped .releaseExcluded)) daemon'
  | benched {daemon'} : daemon.Reads daemon' → entry.engineer ∈ benched →
      EntryExamined benched rescued retained entry daemon (.settled (.dropped .benched)) daemon'
  | current {verdict daemon' question} : entry.taskId ∉ rescued → entry.engineer ∉ benched →
      question < daemon'.asked →
      daemon.releaseExcludedAt (daemon.outside.clock question) entry.taskId entry.engineer = false →
      Examined retained entry daemon verdict daemon' →
      EntryExamined benched rescued retained entry daemon verdict daemon'

section

variable {retained : List DispatchQueueEntry} {entry : DispatchQueueEntry}
  {daemon mid daemon' : Daemon} {task : Task}

/-- Looking before the examination changes nothing about it. -/
theorem Examined.of_reads (h : daemon.Reads mid) {verdict : Verdict}
    (hexamined : Examined retained entry mid verdict daemon') :
    Examined retained entry daemon verdict daemon' := by
  have hreads : ∀ {daemon'}, mid.Reads daemon' → daemon.Reads daemon' := trans_of Daemon.Reads h
  cases hexamined with
  | stale hmid hchecks => exact .stale (hreads hmid) (h.checks_iff.mp hchecks)
  | held hmid => exact .held (hreads hmid)
  | alreadyInProgress hmid hchecks hevident hstatus hretry =>
    refine .alreadyInProgress (hreads hmid) (h.checks_iff.mp hchecks)
      (h.toQuiet.evident_iff.mp hevident) hstatus ?_
    rw [← h.retry]
    exact hretry
  | unmetBodyDependencies hmid hchecks hbody hboard =>
    refine .unmetBodyDependencies (trans_of Daemon.Stays h.toStays hmid) (h.checks_iff.mp hchecks)
      hbody ?_
    refine hboard.imp (fun hboard => hboard.trans h.board) fun hedits => Disk.Leads.edits ?_ hedits
    have hleads := h.disk.leads
    rwa [h.board] at hleads
  | passedOn hmid halternative => exact .passedOn (hreads hmid) (h.alternative halternative)
  | everyoneBusy hmid hchecks hcount hbusy hlimit =>
    exact .everyoneBusy (hreads hmid) (h.checks_iff.mp hchecks) (h.countsAgainst_iff.mp hcount)
      hbusy hlimit
  | retained hmid hsame => exact .retained (hreads hmid) hsame
  | escalated hmid hsame hlimit => exact .escalated (hreads hmid) hsame hlimit
  | admitted hmid hchecks hcount =>
    exact .admitted (hreads hmid) (h.checks_iff.mp hchecks) (h.countsAgainst_iff.mp hcount)

theorem Examined.stays {verdict : Verdict} (h : Examined retained entry daemon verdict daemon') :
    daemon.Stays daemon' := by
  cases h with
  | unmetBodyDependencies h => exact h
  | stale h | held h | alreadyInProgress h | passedOn h | everyoneBusy h | retained h
  | escalated h | admitted h => exact h.toStays

/-! ### The examination takes one of its exits -/

theorem DispatchQueueEntry.Same.failed {entry' : DispatchQueueEntry} (h : entry.Same entry')
    (failure : String) : entry.Same (entry'.failed failure) := h

/-- The entry failed once more: it is retained or, at the limit, escalated. -/
inductive DispatchQueueEntry.Fails (entry : DispatchQueueEntry) : EntryFate → Prop where
  | retained {entry'} : entry.Same entry' → entry.Fails (.retained entry')
  | escalated {entry'} : entry.Same entry' →
      dispatchQueueFailureLimit ≤ entry'.validationFailures → entry.Fails (.escalated entry')

theorem DispatchQueueEntry.Fails.examined {fate : EntryFate} (h : entry.Fails fate)
    (hreads : daemon.Reads daemon') : Examined retained entry daemon (.settled fate) daemon' := by
  cases h with
  | retained hsame => exact .retained hreads hsame
  | escalated hsame hlimit => exact .escalated hreads hsame hlimit

theorem after_retainOrEscalate (entry : DispatchQueueEntry) {entry' : DispatchQueueEntry}
    (hsame : entry.Same entry') (fallback : String) : After (retainOrEscalate entry' fallback) daemon
      (fun fate daemon' => daemon.Reads daemon' ∧ entry.Fails fate)
      (fun _ daemon' => daemon.Reads daemon') := by
  unfold retainOrEscalate
  split
  · rename_i hlimit
    simp only [after_bind, after_pure]
    exact (moves_escalateDispatchQueueEntry _ _ daemon).mono
      (fun _ _ h => ⟨h, .escalated hsame hlimit⟩) fun _ _ h => h
  · exact ⟨refl_of Daemon.Reads daemon, .retained hsame⟩

theorem after_passOn {count : Nat} (hidle : daemon.Idles entry.engineer)
    (hchecks : daemon.Checks entry (some task)) (hcount : daemon.CountsAgainst entry task count)
    (hbusy : 0 < count) :
    After (passOn retained entry count) daemon
      (fun fate daemon' => Examined retained entry daemon (.settled fate) daemon')
      (fun _ daemon' => daemon.Reads daemon') := by
  simp only [passOn, findAlternative, after_bind, after_get]
  refine (after_findFree _).mono ?_ fun _ _ h => h
  rintro found mid ⟨hmid, hfree⟩
  cases found with
  | some name => exact .passedOn hmid ⟨hidle, ⟨task, count, hchecks, hcount, hbusy⟩, hfree name rfl⟩
  | none =>
    dsimp only
    split
    · rename_i hlimit
      exact .everyoneBusy hmid hchecks hcount hbusy hlimit
    · exact .retained hmid ⟨rfl, rfl, rfl⟩

theorem moves_rebasedToReady (engineer : String) : Moves Daemon.Reads (rebasedToReady engineer) := by
  refine (moves_ask _).bind fun work => ?_
  split
  · refine (moves_ask _).bind fun rebased => ?_
    split
    · exact (moves_ask _).bind fun _ => moves_pure _
    · exact moves_pure _
  · exact moves_pure _

/-- The recovery works on an entry that carries the failure already. -/
theorem after_recoverWorktree (entry : DispatchQueueEntry) {entry' : DispatchQueueEntry}
    (hsame : entry.Same entry') :
    After (recoverWorktree entry') daemon
      (fun fate daemon' => daemon.Reads daemon' ∧ entry.Fails fate)
      (fun _ daemon' => daemon.Reads daemon') := by
  simp only [recoverWorktree, after_bind]
  refine (moves_rebasedToReady _ daemon).mono (fun ready mid hmid => ?_) fun _ _ h => h
  split
  · exact ⟨hmid, .retained hsame⟩
  · rw [after_bind]
    refine (after_ask _ mid).mono ?_ fun _ _ h => trans_of Daemon.Reads hmid h
    rintro result last ⟨hlast, -, -⟩
    have hreads := trans_of Daemon.Reads hmid hlast
    rcases result with error | ⟨_ | _, reason⟩
    · dsimp only
      rw [after_bind]
      refine (moves_reportPreserveFailure_none _ _ _ last).mono (fun _ next hnext => ?_)
        fun _ _ h => trans_of Daemon.Reads hreads h
      have hreads := trans_of Daemon.Reads hreads hnext
      refine (after_retainOrEscalate entry (hsame.failed error) _).mono ?_
        fun _ _ h => trans_of Daemon.Reads hreads h
      exact fun _ _ h => ⟨trans_of Daemon.Reads hreads h.1, h.2⟩
    · simp only [after_bind, after_get, after_pure]
      exact (moves_reportPreserveFailure_none _ _ _ last).mono
        (fun _ _ h => ⟨trans_of Daemon.Reads hreads h, .retained hsame⟩)
        fun _ _ h => trans_of Daemon.Reads hreads h
    · exact ⟨hreads, .retained hsame⟩

theorem after_checkWorktree : After (checkWorktree entry) daemon
    (fun fate daemon' => daemon.Reads daemon' ∧ ∀ fate', fate = some fate' → entry.Fails fate')
    (fun _ daemon' => daemon.Reads daemon') := by
  simp only [checkWorktree, after_bind, after_get]
  split
  · rw [after_bind]
    refine (after_ask _ daemon).mono ?_ fun _ _ h => h
    rintro result mid ⟨hmid, -, -⟩
    cases result with
    | ok _ => exact ⟨hmid, by simp⟩
    | error error =>
      dsimp only
      rw [after_map]
      refine (after_recoverWorktree entry ?_).mono ?_
        fun _ _ h => trans_of Daemon.Reads hmid h
      · exact ⟨rfl, rfl, rfl⟩
      rintro fate last ⟨hlast, hfails⟩
      exact ⟨trans_of Daemon.Reads hmid hlast, by rintro _ ⟨⟩; exact hfails⟩
  · exact ⟨refl_of Daemon.Reads daemon, by simp⟩

theorem after_examineEngineer {count : Nat} (hidle : daemon.Idles entry.engineer)
    (hchecks : daemon.Checks entry (some task)) (hcount : daemon.CountsAgainst entry task count) :
    After (examineEngineer retained entry task count) daemon
      (fun verdict daemon' => Examined retained entry daemon verdict daemon')
      (fun _ daemon' => daemon.Reads daemon') := by
  unfold examineEngineer
  split
  · rename_i hbusy
    exact after_map.mpr (after_passOn hidle hchecks hcount hbusy)
  · rename_i hfree
    simp only [after_bind, after_get]
    split
    · refine after_map.mpr ((after_retainOrEscalate entry ?_ _).mono ?_ fun _ _ h => h)
      · exact ⟨rfl, rfl, rfl⟩
      · exact fun _ _ h => h.2.examined h.1
    · rw [after_bind]
      refine after_checkWorktree.mono ?_ fun _ _ h => h
      rintro fate mid ⟨hmid, hfails⟩
      cases fate with
      | some fate => exact (hfails fate rfl).examined hmid
      | none =>
        obtain rfl : count = 0 := by omega
        exact .admitted hmid hchecks hcount

/-- Only a task that names dependencies in its body can be found to have unmet ones, and it is
then blocked. -/
theorem after_unmetBodyDependencies : After (unmetBodyDependencies task) daemon
    (fun unmet daemon' => daemon.Stays daemon' ∧
      (unmet = false → daemon.Reads daemon') ∧
      (unmet = true → (parseBodyDependencyIds task.description).isSome ∧
        (daemon'.disk.board = daemon.disk.board ∨
          daemon.disk.Edits task.id (transitionMutator .blocked) daemon'.disk)))
    (fun _ daemon' => daemon.Reads daemon') := by
  unfold unmetBodyDependencies
  split
  · exact ⟨refl_of Daemon.Stays daemon, fun _ => refl_of Daemon.Reads daemon, by simp⟩
  · rename_i ids hids
    have hloaded : ∀ loaded mid, daemon.Reads mid → After
        (if hasUnmetDependencies loaded ids then blockUnmetTask task else pure false : Action Bool)
        mid (fun unmet daemon' => daemon.Stays daemon' ∧ (unmet = false → daemon.Reads daemon') ∧
          (unmet = true → (parseBodyDependencyIds task.description).isSome ∧
            (daemon'.disk.board = daemon.disk.board ∨
              daemon.disk.Edits task.id (transitionMutator .blocked) daemon'.disk)))
        (fun _ daemon' => daemon.Reads daemon') := by
      intro loaded mid hmid
      split
      · simp only [blockUnmetTask, after_bind, after_attempt, after_onDisk, after_pure]
        have hsome : (parseBodyDependencyIds task.description).isSome := by rw [hids]; rfl
        have hends : ∀ disk, mid.disk.Leads mid.disk.board disk ∨
            mid.disk.Edits task.id (transitionMutator .blocked) disk →
            daemon.Stays { mid with disk } ∧ (disk.board = daemon.disk.board ∨
              daemon.disk.Edits task.id (transitionMutator .blocked) disk) := by
          intro disk hdisk
          have honward : mid.disk.Onward disk := hdisk.elim Disk.Leads.onward
            fun h => h.onward (editsTasks_transition _)
          have hstays : mid.Stays { mid with disk } :=
            ⟨⟨rfl, rfl, rfl, le_rfl, honward⟩, rfl, rfl⟩
          refine ⟨trans_of Daemon.Stays hmid.toStays hstays,
            hdisk.imp (fun h => h.board.trans hmid.board) fun h => Disk.Leads.edits ?_ h⟩
          have hleads := hmid.disk.leads
          rwa [hmid.board] at hleads
        refine (after_transitionTask task.id rfl).mono (fun _ disk h => ?_) fun _ disk h => ?_ <;>
          exact ⟨(hends disk h).1, by simp, fun _ => ⟨hsome, (hends disk h).2⟩⟩
      · exact ⟨hmid.toStays, fun _ => hmid, by simp⟩
    simp only [after_bind, after_attempt]
    exact (moves_loadTasks daemon).mono (fun _ mid hmid => hloaded _ mid hmid)
      fun _ mid hmid => hloaded _ mid hmid

theorem after_examineTask (hidle : daemon.Idles entry.engineer)
    (hchecks : daemon.Checks entry (some task)) :
    After (examineTask retained entry task) daemon
      (fun verdict daemon' => Examined retained entry daemon verdict daemon')
      (fun _ daemon' => daemon.Reads daemon') := by
  simp only [examineTask, after_bind, after_get]
  refine after_onDisk_readEvidence.mono ?_ fun _ _ h => h
  rintro evidence mid ⟨hmid, hevident⟩
  rw [hmid.retry]
  split
  · rename_i hunderWay
    simp only [Bool.and_eq_true, decide_eq_true_eq, Bool.not_eq_true'] at hunderWay
    exact .alreadyInProgress hmid hchecks hevident hunderWay.1 hunderWay.2
  · rw [after_bind]
    refine (@after_unmetBodyDependencies mid task).mono ?_ fun _ _ h => trans_of Daemon.Reads hmid h
    rintro unmet last ⟨hstays, hreads, hblocked⟩
    cases unmet with
    | true =>
      obtain ⟨hbody, hboard⟩ := hblocked rfl
      exact Examined.of_reads hmid
        (.unmetBodyDependencies hstays (hmid.checks_iff.mpr hchecks) hbody hboard)
    | false =>
      have hlast := trans_of Daemon.Reads hmid (hreads rfl)
      simp only [Bool.false_eq_true, if_false, after_bind]
      refine (after_engineerActiveBoardItemCount _).mono ?_ fun _ _ h => trans_of Daemon.Reads hlast h
      rintro count next ⟨hnext, rfl⟩
      have hall := trans_of Daemon.Reads hlast hnext
      have hcount : daemon.CountsAgainst entry task (effectiveActiveCount
          (daemon.verificationRetryDispatchableTask evidence task true) entry task
          (last.disk.board.activeItems entry.engineer).length) :=
        ⟨evidence, hevident, by rw [hlast.board]⟩
      refine (after_examineEngineer (hall.idles_iff.mpr hidle) (hall.checks_iff.mpr hchecks)
        (hall.countsAgainst_iff.mpr hcount)).mono (fun _ _ h => h.of_reads hall)
        fun _ _ h => trans_of Daemon.Reads hall h

theorem after_examineCurrent : After (examineCurrent retained entry) daemon
    (fun verdict daemon' => Examined retained entry daemon verdict daemon')
    (fun _ daemon' => daemon.Reads daemon') := by
  simp only [examineCurrent, after_bind, after_get]
  refine (moves_recoverStuckMember _ daemon).mono (fun _ mid hmid => ?_) fun _ _ h => h
  split
  · exact .held hmid
  · rename_i hstate
    have hidle : daemon.Idles entry.engineer :=
      hmid.idles_iff.mp (mid.idles_of_state (by simpa using hstate))
    rw [after_bind]
    refine (moves_shouldHoldDispatchForStabilization _ mid).mono (fun hold last hlast => ?_)
      fun _ _ h => trans_of Daemon.Reads hmid h
    have hlast := trans_of Daemon.Reads hmid hlast
    split
    · exact .held hlast
    · rw [after_bind]
      refine after_taskForDispatchEntry.mono ?_ fun _ _ h => trans_of Daemon.Reads hlast h
      rintro found next ⟨hnext, hchecks⟩
      have hchecks := hlast.checks_iff.mp hchecks
      have hnext := trans_of Daemon.Reads hlast hnext
      cases found with
      | none => exact .stale hnext hchecks
      | some task =>
        exact (after_examineTask (hnext.idles_iff.mpr hidle) (hnext.checks_iff.mpr hchecks)).mono
          (fun _ _ h => h.of_reads hnext) fun _ _ h => trans_of Daemon.Reads hnext h

/-- **Every examination takes one of its exits**; one that fails has only looked. -/
theorem after_examineEntry (benched : List String) (rescued : List Nat) :
    After (examineEntry benched rescued retained entry) daemon
      (fun verdict daemon' => EntryExamined benched rescued retained entry daemon verdict daemon')
      (fun _ daemon' => daemon.Reads daemon') := by
  simp only [examineEntry, after_bind]
  refine after_taskForDispatchEntry.mono ?_ fun _ _ h => h
  rintro found mid ⟨hmid, hchecks⟩
  split
  · rename_i hnone
    rw [Option.isNone_iff_eq_none] at hnone
    exact .stale hmid (hnone ▸ hchecks)
  split
  · rename_i hrescued
    exact .rescued hmid (by simpa using hrescued)
  · rename_i hrescued
    rw [after_bind]
    refine (after_isReleaseExcluded _ _).mono ?_ fun _ _ h => trans_of Daemon.Reads hmid h
    rintro excluded last ⟨hlast, question, hquestion, hexcluded⟩
    have hrecords : excluded = daemon.releaseExcludedAt (daemon.outside.clock question)
        entry.taskId entry.engineer := by
      rw [hexcluded]
      simp only [Daemon.releaseExcludedAt, Daemon.releaseExclusionWindow, hmid.config,
        hmid.recentlyReleasedBy, hmid.outside]
    have hlast := trans_of Daemon.Reads hmid hlast
    split
    · rename_i htrue
      exact .releaseExcluded hlast (by rw [← hrecords, htrue])
    · rename_i hfalse
      split
      · rename_i hbenched
        exact .benched hlast (by simpa using hbenched)
      · rename_i hbenched
        refine after_examineCurrent.mono (fun _ _ h => ?_) fun _ _ h => trans_of Daemon.Reads hlast h
        refine .current (by simpa using hrescued) (by simpa using hbenched)
          (hquestion.trans_le h.stays.asked) ?_ (h.of_reads hlast)
        rw [← hrecords]
        simpa using hfalse

end

end Batty
