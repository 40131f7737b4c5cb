import Batty.Dispatch.Claims
import Batty.Dispatch.Pass

/-!
# Launches that fail

An entry's task is claimed on the board before the engineer is launched, and the claim stays when
the launch fails. The entry is retained for the next pass, which asks again whether its task could
be dispatched, and the answer now depends on what the failed attempt wrote: a task under way that
somebody has claimed counts as taken, unless it waits for a verification retry.

So an entry whose launch failed is lost in the next pass (`not_retries_strandedDaemon`), with its
task under way for an engineer who never heard of it. A pass that may retry (`MayRetry`) tries the
entry once more, or leaves it as it is while the engineer is not ready. So the entry is in the queue
with one more failure for each of these attempts, until its task is delivered or it is escalated
(`retries_of_mayRetry`).
-/

namespace Batty

/-! ### What a failed attempt leaves -/

/-- Only the status of the task and its claim speak against dispatching it. -/
structure Task.Unhindered (tasks : List Task) (task : Task) : Prop where
  blocked : task.blocked = none
  blockedOn : task.blockedOn = none
  dependencies : dependenciesSatisfied tasks task = true
  bodyDependencies : bodyDependenciesSatisfied tasks task = true

/-- There is a task with this id that only its status and its claim speak against. -/
def HasUnhindered (tasks : List Task) (taskId : Nat) : Prop :=
  ∃ task ∈ tasks, task.id = taskId ∧ task.Unhindered tasks

section

variable {daemon mid : Daemon} {entry : DispatchQueueEntry} {task : Task} {board board' : Board}

theorem Daemon.Checks.unhindered (h : daemon.Checks entry (some task)) :
    task.Unhindered daemon.disk.board.tasks := by
  obtain ⟨evidence, calendar, -, hfind⟩ := h
  have hdispatchable := List.find?_some hfind.symm
  simp only [dispatchableFor, Bool.and_eq_true, Option.isNone_iff_eq_none] at hdispatchable
  obtain ⟨⟨⟨⟨⟨-, hblocked⟩, hblockedOn⟩, -⟩, hdependencies⟩, hbody⟩ := hdispatchable
  exact ⟨hblocked, hblockedOn, hdependencies, hbody⟩

/-- Dependencies stay satisfied when an unfinished task is edited. -/
theorem Task.Unhindered.map (h : task.Unhindered board.tasks) {g : Task → Task}
    (hid : ∀ other ∈ board.tasks, (g other).id = other.id)
    (hfinished : ∀ other ∈ board.tasks, depStatusSatisfied other.status = true →
      (g other).status = other.status) {task' : Task} (hblocked : task'.blocked = none)
    (hblockedOn : task'.blockedOn = none) (hdependsOn : task'.dependsOn = task.dependsOn)
    (hdescription : task'.description = task.description) :
    task'.Unhindered (board.tasks.map g) := by
  refine ⟨hblocked, hblockedOn, ?_, ?_⟩
  · have hall := h.dependencies
    simp only [dependenciesSatisfied, List.all_eq_true, hdependsOn] at hall ⊢
    intro dep hdep
    have hold := hall dep hdep
    rw [map_depStatusSatisfied_map hid hfinished]
    · exact hold
    · intro hfalse
      rw [hfalse] at hold
      cases hold
  · have hall := h.bodyDependencies
    simp only [bodyDependenciesSatisfied, hdescription] at hall ⊢
    cases hids : parseBodyDependencyIds task.description with
    | none => rfl
    | some ids =>
      simp only [hids, Bool.and_eq_true, List.all_eq_true] at hall ⊢
      refine ⟨hall.1, fun dep hdep => ?_⟩
      have hold := hall.2 dep hdep
      rw [map_depStatusSatisfied_map hid hfinished]
      · exact hold
      · intro hfalse
        rw [hfalse] at hold
        cases hold

/-- A claim leaves everything that was looked at but the status and the claim. -/
theorem Board.Claimed.unhindered {path engineer : String} {held : Task}
    (h : board.Claimed path held engineer board') (hheld : board.taskAt path = some held)
    (hmem : task ∈ board.tasks) (hunhindered : task.Unhindered board.tasks) :
    HasUnhindered board'.tasks task.id := by
  obtain ⟨task', hreplaced, hedit, hblocked, hblockedOn⟩ := h.exists_task
  obtain ⟨file, hfind, hread⟩ := Option.bind_eq_some_iff.mp hheld
  have hat : ∀ other ∈ board.tasks, other.sourcePath = path → other = held := fun other hother =>
    Board.eq_of_sourcePath hfind hread hother
  have hid : ∀ other ∈ board.tasks, (task'.replacedBy path other).id = other.id := by
    intro other hother
    unfold Task.replacedBy
    split
    · rename_i hpath
      rw [hat other hother hpath, hedit.id]
    · rfl
  have hfinished : ∀ other ∈ board.tasks, depStatusSatisfied other.status = true →
      (task'.replacedBy path other).status = other.status := by
    intro other hother hsatisfied
    unfold Task.replacedBy
    split
    · rename_i hpath
      rw [hat other hother hpath, h.unfinished] at hsatisfied
      cases hsatisfied
    · rfl
  refine ⟨task'.replacedBy path task, ?_, hid task hmem, ?_⟩
  · rw [hreplaced.tasks]
    exact List.mem_map_of_mem hmem
  · rw [hreplaced.tasks]
    unfold Task.replacedBy
    split
    · rename_i hpath
      obtain rfl := hat task hmem hpath
      exact hunhindered.map hid hfinished hblocked hblockedOn hedit.dependsOn hedit.description
    · exact hunhindered.map hid hfinished hunhindered.blocked hunhindered.blockedOn rfl rfl

/-- The attempt at the entry, at a point of a pass: its task is claimed, the launch fails, and
`entry'` is retained. Readers see `tasks` on the board that the attempt leaves. -/
def Daemon.Attempts (mid : Daemon) (benched : List String) (rescued : List Nat)
    (retained : List DispatchQueueEntry) (entry entry' : DispatchQueueEntry) (tasks : List Task) :
    Prop :=
  ∃ task examined claimed failed,
    examineEntry benched rescued retained entry mid = .ok (.admitted task) examined ∧
      onDisk (claimTask entry.engineer task) examined = .ok (.ok ()) claimed ∧
      launchTask entry task claimed = .ok (.retained entry') failed ∧ tasks = failed.disk.board.tasks

theorem Daemon.Attempts.unhindered {benched : List String} {rescued : List Nat}
    {retained : List DispatchQueueEntry} {entry' : DispatchQueueEntry} {tasks : List Task}
    (h : mid.Attempts benched rescued retained entry entry' tasks) :
    HasUnhindered tasks entry.taskId := by
  obtain ⟨task, examined, claimed, failed, hexamine, hclaim, hlaunch, rfl⟩ := h
  obtain ⟨hreads, hchecks⟩ : mid.Reads examined ∧ mid.Checks entry (some task) := by
    cases (after_of_returns hexamine).mp (after_examineEntry benched rescued) with
    | current _ _ _ _ hexamined =>
      cases hexamined with
      | admitted hreads hchecks _ => exact ⟨hreads, hchecks⟩
  have hchecks := hreads.checks_iff.mpr hchecks
  obtain ⟨hmem, hid⟩ := hchecks.mem
  obtain ⟨path, hpath⟩ := Option.isSome_iff_exists.mp (Board.findPath_isSome hmem)
  obtain ⟨held, hheld, -⟩ := Board.exists_taskAt hpath
  have hclaimed : examined.disk.board.Claimed path held entry.engineer claimed.disk.board := by
    have hafter : After (onDisk (claimTask entry.engineer task)) examined
        (fun result daemon' => result = .ok () →
          examined.disk.board.Claimed path held entry.engineer daemon'.disk.board)
        (fun _ _ => True) := by
      rw [after_onDisk]
      refine (after_claimTask hpath hheld).mono (fun result disk h hok => ?_) fun _ _ _ => trivial
      rcases h with ⟨-, hclaimed⟩ | ⟨⟨error, herror⟩, -⟩
      · exact hclaimed
      · cases hok.symm.trans herror
    exact (after_of_returns hclaim).mp hafter rfl
  have hlaunched := ((after_of_returns hlaunch).mp (moves_launchTask entry task claimed)).board
  rw [hlaunched, ← hid]
  exact hclaimed.unhindered hheld hmem hchecks.unhindered

end

/-! ### A later pass comes to the entry -/

/-- At this point of a pass nothing takes the entry away. Its task waits for a verification retry
and its owner is not at work on it, it is not scheduled for later, not in its rescue cooldown, not
given up by the engineer not long ago, and the engineer is not benched; nothing else the engineer
has counts against the entry, and its worktree is ready; and the board can be read if the body of
the task names dependencies. -/
structure Daemon.MayRetry (mid : Daemon) (benched : List String) (rescued : List Nat)
    (entry : DispatchQueueEntry) : Prop where
  retry : ∀ task ∈ mid.disk.board.tasks, task.id = entry.taskId → ∀ evidence,
    mid.disk.Evident evidence → mid.verificationRetryDispatchableTask evidence task true = true
  scheduled : ∀ task ∈ mid.disk.board.tasks, task.id = entry.taskId → ∀ question,
    mid.asked ≤ question → task.isScheduleBlocked (mid.outside.calendar question) = false
  rescued : entry.taskId ∉ rescued
  released : ∀ question, mid.asked ≤ question →
    mid.releaseExcludedAt (mid.outside.clock question) entry.taskId entry.engineer = false
  benched : entry.engineer ∉ benched
  free : ∀ task ∈ mid.disk.board.tasks, task.id = entry.taskId → ∀ count,
    mid.CountsAgainst entry task count → count = 0
  worktree : mid.memberUsesWorktrees entry.engineer = true → ∀ question, mid.asked ≤ question →
    mid.outside.readyForDispatch question entry.engineer = .ok ()
  readable : ∀ task ∈ mid.disk.board.tasks, task.id = entry.taskId →
    (parseBodyDependencyIds task.description).isSome →
      ∀ access, mid.disk.accesses ≤ access → mid.disk.faults access = false

/-- The engineer is idle, and has been for as long as it is given to settle. -/
structure Daemon.Ready (mid : Daemon) (engineer : String) : Prop where
  idle : mid.states engineer = some .idle
  settled : ∃ started ∈ mid.idleStartedAt engineer,
    fromSecs mid.config.dispatchStabilizationDelaySecs ≤ mid.outside.clock mid.asked - started

/-- What becomes of an entry that is tried once more: its task is delivered, or the entry has one
more failure, and is retained below the limit and escalated at it. -/
inductive DispatchQueueEntry.Tried (entry : DispatchQueueEntry) : EntryFate → Prop where
  | delivered {task} : entry.Tried (.delivered task)
  | retained {entry'} : entry.Same entry' →
      entry'.validationFailures = entry.validationFailures + 1 →
      entry'.validationFailures < dispatchQueueFailureLimit → entry.Tried (.retained entry')
  | escalated {entry'} : entry.Same entry' →
      entry'.validationFailures = entry.validationFailures + 1 →
      dispatchQueueFailureLimit ≤ entry'.validationFailures → entry.Tried (.escalated entry')

/-- The entry is tried once more, or left as it is because its engineer is not ready. -/
def Daemon.Attends (mid : Daemon) (entry : DispatchQueueEntry) (fate : EntryFate) : Prop :=
  entry.Tried fate ∨ (fate = .retained entry ∧ ¬ mid.Ready entry.engineer)

/-- An examination that settles the fate of the entry attends to it. -/
def Daemon.AttendsBy (mid : Daemon) (entry : DispatchQueueEntry) : Verdict → Prop
  | .settled fate => mid.Attends entry fate
  | .admitted _ => True

/-! ### What only looks leaves the states alone -/

/-- The states of the members, and since when they are idle, are as they were. -/
def Daemon.KeepsStates (daemon daemon' : Daemon) : Prop :=
  daemon'.states = daemon.states ∧ daemon'.idleStartedAt = daemon.idleStartedAt

instance : IsPreorder Daemon Daemon.KeepsStates where
  refl _ := ⟨rfl, rfl⟩
  trans _ _ _ h h' := ⟨h'.1.trans h.1, h'.2.trans h.2⟩

theorem moves_onDisk_keepsStates {α : Type} (m : DiskAction α) :
    Moves Daemon.KeepsStates (onDisk m) := fun daemon => by
  refine after_onDisk.mpr ((after_run m daemon.disk).mono ?_ ?_)
  · exact fun _ _ _ => ⟨rfl, rfl⟩
  · exact fun _ _ _ => ⟨rfl, rfl⟩

theorem moves_ask_keepsStates {α : Type} (question : Outside → Nat → α) :
    Moves Daemon.KeepsStates (ask question) := fun _ => ⟨rfl, rfl⟩

theorem moves_taskForDispatchEntry_keepsStates (entry : DispatchQueueEntry) :
    Moves Daemon.KeepsStates (taskForDispatchEntry entry) :=
  (moves_onDisk_keepsStates _).bind fun _ => (moves_onDisk_keepsStates _).bind fun _ =>
    (moves_ask_keepsStates _).bind fun _ => moves_get.bind fun _ => moves_pure _

/-! ### One more attempt -/

section

variable {daemon : Daemon} {entry : DispatchQueueEntry} {task : Task}

theorem after_retainOrEscalate_tried (failure fallback : String) :
    After (retainOrEscalate (entry.failed failure) fallback) daemon (fun fate _ => entry.Tried fate)
      (fun _ _ => True) := by
  unfold retainOrEscalate
  split
  · rename_i hlimit
    simp only [after_bind, after_pure]
    exact (moves_escalateDispatchQueueEntry _ _ daemon).mono
      (fun _ _ _ => .escalated ⟨rfl, rfl, rfl⟩ rfl hlimit) fun _ _ _ => trivial
  · rename_i hlimit
    exact .retained ⟨rfl, rfl, rfl⟩ rfl (Nat.lt_of_not_le hlimit)

/-- A claim or a launch that fails is one more failure. -/
theorem after_claimAndLaunch_tried : After (claimAndLaunch entry task) daemon
    (fun fate _ => entry.Tried fate) (fun _ _ => True) := by
  rw [claimAndLaunch, after_bind]
  refine (after_run _ daemon).mono (fun claimed mid _ => ?_) fun _ _ _ => trivial
  cases claimed with
  | error error => exact after_retainOrEscalate_tried _ _
  | ok _ =>
    simp only [launchTask, after_bind, after_attempt]
    refine (after_run _ mid).mono (fun evidence next _ => ?_) fun _ _ _ => trivial
    refine (after_run _ next).mono (fun _ last _ => ?_) fun error last _ => ?_
    · exact (after_run _ last).mono (fun _ _ _ => .delivered) fun _ _ _ => trivial
    · exact after_retainOrEscalate_tried _ _

end

section

variable {mid daemon : Daemon} {benched : List String} {rescued : List Nat}
  {retained : List DispatchQueueEntry} {entry : DispatchQueueEntry} {task : Task}
  (h : mid.MayRetry benched rescued entry) (hreads : mid.Reads daemon)
include h hreads

/-- The entry has its task still. -/
theorem after_taskForDispatchEntry_retry (hboard : HasUnhindered mid.disk.board.tasks entry.taskId) :
    After (taskForDispatchEntry entry) daemon
      (fun found daemon' => mid.Reads daemon' ∧
        ∃ task, found = some task ∧ mid.Checks entry (some task))
      (fun _ _ => True) := by
  unfold taskForDispatchEntry
  simp only [after_bind, after_get, after_pure]
  refine after_onDisk_loadTasks.mono ?_ fun _ _ _ => trivial
  rintro tasks first ⟨hfirst, rfl⟩
  have hfirst := trans_of Daemon.Reads hreads hfirst
  refine after_onDisk_readEvidence.mono ?_ fun _ _ _ => trivial
  rintro evidence second ⟨hsecond, hevident⟩
  have hsecond := trans_of Daemon.Reads hfirst hsecond
  have hevident := hfirst.toQuiet.evident_iff.mp hevident
  refine (after_ask _ _).mono ?_ fun _ _ _ => trivial
  rintro calendar last ⟨hlast, -, rfl⟩
  have hlast := trans_of Daemon.Reads hsecond hlast
  rw [hreads.board, hsecond.outside]
  obtain ⟨task, hmem, hid, hunhindered⟩ := hboard
  -- the task that is known to be there is one that could be dispatched
  have hdispatchable : last.dispatchableFor evidence mid.disk.board.tasks
      (mid.outside.calendar second.asked) entry task = true := by
    simp [Daemon.dispatchableFor, hid, hlast.retry, h.retry task hmem hid evidence hevident,
      h.scheduled task hmem hid _ hsecond.asked, hunhindered.blocked, hunhindered.blockedOn,
      hunhindered.dependencies, hunhindered.bodyDependencies]
  have hsame : last.dispatchableFor evidence mid.disk.board.tasks
      (mid.outside.calendar second.asked) entry = mid.dispatchableFor evidence
        mid.disk.board.tasks (mid.outside.calendar second.asked) entry := by
    funext other
    simp only [Daemon.dispatchableFor, hlast.retry]
  obtain ⟨found, hfound⟩ := Option.isSome_iff_exists.mp
    (List.find?_isSome.mpr ⟨task, hmem, hdispatchable⟩)
  refine ⟨hlast, found, hfound, evidence, mid.outside.calendar second.asked, hevident, ?_⟩
  rw [← hsame, hfound]

/-- The dependencies that its body names are still met. -/
theorem after_unmetBodyDependencies_retry (hchecks : mid.Checks entry (some task)) :
    After (unmetBodyDependencies task) daemon
      (fun unmet daemon' => unmet = false ∧ mid.Reads daemon') (fun _ _ => True) := by
  obtain ⟨hmem, hid⟩ := hchecks.mem
  have hbody := hchecks.unhindered.bodyDependencies
  unfold unmetBodyDependencies
  split
  · exact ⟨rfl, hreads⟩
  · rename_i ids hids
    have hfaults := h.readable task hmem hid (by rw [hids]; rfl) daemon.disk.accesses
      hreads.disk.leads.accesses
    simp only [bodyDependenciesSatisfied, hids, Bool.and_eq_true, List.all_eq_true,
      Bool.not_eq_true'] at hbody
    have hmet : hasUnmetDependencies mid.disk.board.tasks ids = false := by
      rw [hasUnmetDependencies, hbody.1, Bool.false_or, List.any_eq_false]
      intro dep hdep
      rw [Bool.not_eq_true', Bool.not_eq_false, List.any_eq_true]
      have hfinished := hbody.2 dep hdep
      cases hstatus : taskStatusById mid.disk.board.tasks dep with
      | none => simp [hstatus] at hfinished
      | some status =>
        obtain ⟨other, hother, hotherId, rfl⟩ := exists_of_taskStatusById hstatus
        refine ⟨other, hother, ?_⟩
        simpa [hstatus, hotherId] using hfinished
    rw [← hreads.disk.leads.faults] at hfaults
    simp only [after_bind, after_attempt]
    refine (after_onDisk_loadTasks_of_readable hfaults).mono ?_ fun _ _ h => h.elim
    rintro tasks daemon' ⟨hdaemon', rfl⟩
    simp only [Except.toOption, Option.getD_some, hreads.board, hmet, Bool.false_eq_true, if_false,
      after_pure]
    exact ⟨trivial, trans_of Daemon.Reads hreads hdaemon'⟩

/-- An engineer with nothing else to do is held up by the limit on its items at most. -/
theorem after_examineEngineer_retry : After (examineEngineer retained entry task 0) daemon
    (fun verdict _ => mid.AttendsBy entry verdict) (fun _ _ => True) := by
  simp only [examineEngineer, Nat.lt_irrefl, if_false, after_bind, after_get]
  split
  · exact after_map.mpr ((after_retainOrEscalate_tried _ _).mono (fun _ _ htried => .inl htried)
      fun _ _ _ => trivial)
  · simp only [checkWorktree, after_bind, after_get]
    split
    · rename_i hworktrees
      rw [after_bind]
      refine (after_ask _ daemon).mono ?_ fun _ _ _ => trivial
      rintro ready _ ⟨-, -, rfl⟩
      simp only [Daemon.memberUsesWorktrees, hreads.config] at hworktrees
      rw [hreads.outside, h.worktree hworktrees _ hreads.asked]
      trivial
    · trivial

theorem after_examineTask_retry (hchecks : mid.Checks entry (some task)) :
    After (examineTask retained entry task) daemon (fun verdict _ => mid.AttendsBy entry verdict)
      (fun _ _ => True) := by
  obtain ⟨hmem, hid⟩ := hchecks.mem
  simp only [examineTask, after_bind, after_get]
  refine after_onDisk_readEvidence.mono ?_ fun _ _ _ => trivial
  rintro evidence first ⟨hfirst, hevident⟩
  have hfirst := trans_of Daemon.Reads hreads hfirst
  have hevident := hreads.toQuiet.evident_iff.mp hevident
  have hretry : first.verificationRetryDispatchableTask evidence task true = true := by
    rw [hfirst.retry]
    exact h.retry task hmem hid evidence hevident
  simp only [hretry, Bool.not_true, Bool.and_false, Bool.false_eq_true, if_false, after_bind]
  refine (after_unmetBodyDependencies_retry h hfirst hchecks).mono ?_ fun _ _ _ => trivial
  rintro unmet second ⟨rfl, hsecond⟩
  simp only [Bool.false_eq_true, if_false, after_bind]
  refine (after_engineerActiveBoardItemCount _).mono ?_ fun _ _ _ => trivial
  rintro count last ⟨hlast, rfl⟩
  have hfree := h.free task hmem hid _ ⟨evidence, hevident, rfl⟩
  rw [h.retry task hmem hid evidence hevident, ← hsecond.board] at hfree
  rw [hfree]
  exact after_examineEngineer_retry h (trans_of Daemon.Reads hsecond hlast)

omit h in
/-- An engineer who is ready needs no recovery. -/
theorem after_recoverStuckMember_retry (hkeeps : mid.KeepsStates daemon) :
    After (recoverStuckMember entry.engineer) daemon (fun _ daemon' => mid.Reads daemon' ∧
      (mid.Ready entry.engineer → mid.KeepsStates daemon')) (fun _ _ => True) := by
  by_cases hready : mid.Ready entry.engineer
  · have hidle : daemon.states entry.engineer = some .idle := by rw [hkeeps.1, hready.idle]
    simp only [recoverStuckMember, after_bind, after_get, hidle, Option.some.injEq, reduceCtorEq,
      decide_false, Bool.false_and, Bool.false_eq_true, if_false, after_pure]
    exact ⟨hreads, fun _ => hkeeps⟩
  · exact (moves_recoverStuckMember _ daemon).mono
      (fun _ _ h => ⟨trans_of Daemon.Reads hreads h, fun hnow => absurd hnow hready⟩)
      fun _ _ _ => trivial

omit h in
theorem after_shouldHoldDispatchForStabilization_retry
    (hkeeps : mid.Ready entry.engineer → mid.KeepsStates daemon) :
    After (shouldHoldDispatchForStabilization entry.engineer) daemon
      (fun hold daemon' => mid.Reads daemon' ∧ (hold = true → ¬ mid.Ready entry.engineer))
      (fun _ _ => True) := by
  simp only [shouldHoldDispatchForStabilization, now, after_bind, after_get, after_pure]
  refine ((after_ask _ daemon).and (moves_ask_keepsStates _ daemon)).mono ?_ fun _ _ _ => trivial
  rintro time daemon' ⟨⟨hdaemon', -, rfl⟩, hsame⟩
  have hdaemon' := trans_of Daemon.Reads hreads hdaemon'
  refine ⟨hdaemon', fun hhold hready => ?_⟩
  obtain ⟨started, hstarted, hdelay⟩ := hready.settled
  rw [(trans_of Daemon.KeepsStates (hkeeps hready) hsame).2, Option.mem_def.mp hstarted,
    hdaemon'.config, hreads.outside, Option.all_some, decide_eq_true_eq] at hhold
  have hlater := mid.outside.clock.monotone hreads.asked
  omega

/-- An engineer who is not idle, or not for long enough, was not ready. -/
theorem after_examineCurrent_retry (hboard : HasUnhindered mid.disk.board.tasks entry.taskId)
    (hkeeps : mid.KeepsStates daemon) :
    After (examineCurrent retained entry) daemon (fun verdict _ => mid.AttendsBy entry verdict)
      (fun _ _ => True) := by
  simp only [examineCurrent, after_bind, after_get]
  refine (after_recoverStuckMember_retry hreads hkeeps).mono ?_ fun _ _ _ => trivial
  rintro - first ⟨hfirst, hkeeps⟩
  split
  · rename_i hbusy
    exact .inr ⟨rfl, fun hready => hbusy (by rw [(hkeeps hready).1, hready.idle])⟩
  · rw [after_bind]
    refine (after_shouldHoldDispatchForStabilization_retry hfirst hkeeps).mono ?_
      fun _ _ _ => trivial
    rintro hold second ⟨hsecond, hheld⟩
    split
    · rename_i hhold
      exact .inr ⟨rfl, hheld hhold⟩
    · rw [after_bind]
      refine (after_taskForDispatchEntry_retry h hsecond hboard).mono ?_ fun _ _ _ => trivial
      rintro found last ⟨hlast, task, rfl, hchecks⟩
      exact after_examineTask_retry h hlast hchecks

omit hreads in
/-- **An entry that may be retried** is tried once more, unless its engineer is not ready. -/
theorem after_handleEntry_retry (hboard : HasUnhindered mid.disk.board.tasks entry.taskId) :
    After (handleEntry benched rescued retained entry) mid (fun fate _ => mid.Attends entry fate)
      (fun _ _ => True) := by
  simp only [handleEntry, examineEntry, after_bind]
  refine ((after_taskForDispatchEntry_retry h (refl_of Daemon.Reads mid) hboard).and
    (moves_taskForDispatchEntry_keepsStates entry mid)).mono ?_ fun _ _ _ => trivial
  rintro found first ⟨⟨hfirst, task, rfl, -⟩, hkeeps⟩
  have hrescued : rescued.contains entry.taskId = false := by simpa using h.rescued
  have hbenched : benched.contains entry.engineer = false := by simpa using h.benched
  simp only [Option.isNone_some, Bool.false_eq_true, if_false, hrescued, isReleaseExcluded, now,
    after_bind, after_get, after_pure]
  refine ((after_ask _ first).and (moves_ask_keepsStates _ first)).mono ?_ fun _ _ _ => trivial
  rintro time second ⟨⟨hsecond, -, rfl⟩, hsame⟩
  have hsecond := trans_of Daemon.Reads hfirst hsecond
  have hkeeps := trans_of Daemon.KeepsStates hkeeps hsame
  have hreleased : second.releaseExcludedAt (first.outside.clock first.asked) entry.taskId
      entry.engineer = false := by
    have hnot := h.released first.asked hfirst.asked
    simp only [Daemon.releaseExcludedAt, Daemon.releaseExclusionWindow, hsecond.config,
      hsecond.recentlyReleasedBy, hfirst.outside] at hnot ⊢
    exact hnot
  simp only [hreleased, Bool.false_eq_true, if_false, hbenched]
  refine (after_examineCurrent_retry h hsecond hboard hkeeps).mono (fun verdict last hverdict => ?_)
    fun _ _ _ => trivial
  cases verdict with
  | settled fate => exact hverdict
  | admitted task =>
    exact after_claimAndLaunch_tried.mono (fun _ _ htried => .inl htried) fun _ _ _ => trivial

end

/-! ### Later passes -/

/-- In the pass from `daemon` the attempt at the entry fails: `entry'` is retained, and the board is
left with `tasks`. -/
def Daemon.FailsLaunch (daemon : Daemon) (entry entry' : DispatchQueueEntry) (tasks : List Task) :
    Prop :=
  ∃ benched rescued pending retained mid,
    daemon.Reaches benched rescued (entry :: pending) retained mid ∧
      mid.Attempts benched rescued retained entry entry' tasks

/-- The handling of no entry fails, which would cost every entry its place. -/
def Daemon.Unfailing (daemon : Daemon) : Prop :=
  ∀ pending retained daemon', ¬ daemon.FailsAt pending retained daemon'

/-- The pass from `daemon` comes to the entry at `mid`, on the board as it was left, and `fate` is
what becomes of the entry. -/
def Daemon.ComesTo (daemon : Daemon) (tasks : List Task) (entry : DispatchQueueEntry)
    (mid : Daemon) (fate : EntryFate) : Prop :=
  ∃ benched rescued pending retained daemon',
    daemon.Reaches benched rescued (entry :: pending) retained mid ∧
      handleEntry benched rescued retained entry mid = .ok fate daemon' ∧
        mid.disk.board.tasks = tasks

/-- What follows after `start`, where `entry` was retained: passes that come to the entry, from
where `Passes` holds, and other steps that take nothing out of the queue. Counted are the passes
that come to it with its engineer ready. -/
inductive Afterwards (tasks : List Task) (Passes : Daemon → DispatchQueueEntry → Prop)
    (entry : DispatchQueueEntry) (start : Daemon) : Nat → EntryFate → Daemon → Prop where
  | start : Afterwards tasks Passes entry start 0 (.retained entry) start
  | other {count fate daemon daemon'} : Afterwards tasks Passes entry start count fate daemon →
      daemon.dispatchQueue ⊆ daemon'.dispatchQueue →
      Afterwards tasks Passes entry start count fate daemon'
  | ready {count entry' fate daemon mid} :
      Afterwards tasks Passes entry start count (.retained entry') daemon → Passes daemon entry' →
      daemon.ComesTo tasks entry' mid fate → mid.Ready entry'.engineer →
      Afterwards tasks Passes entry start (count + 1) fate (endState processDispatchQueue daemon)
  | unready {count entry' fate daemon mid} :
      Afterwards tasks Passes entry start count (.retained entry') daemon → Passes daemon entry' →
      daemon.ComesTo tasks entry' mid fate → ¬ mid.Ready entry'.engineer →
      Afterwards tasks Passes entry start count fate (endState processDispatchQueue daemon)

/-- The entry is done with: its task was delivered, or it has failed often enough. -/
def EntryFate.Settles : EntryFate → Prop
  | .delivered _ => True
  | .escalated entry => dispatchQueueFailureLimit ≤ entry.validationFailures
  | .dropped _ | .retained _ => False

/-- The entry is in the queue, below the limit and with a failure for each of the attempts since it
was `first`; a pass that goes through the queue comes to it. -/
structure Daemon.Queues (later : Daemon) (first : DispatchQueueEntry) (attempts : Nat)
    (entry : DispatchQueueEntry) : Prop where
  mem : entry ∈ later.dispatchQueue
  same : first.Same entry
  failures : first.validationFailures + attempts ≤ entry.validationFailures
  limit : entry.validationFailures < dispatchQueueFailureLimit
  comes : ∀ benched rescued kept last, later.Reaches benched rescued [] kept last →
    ∃ pending retained mid, later.Reaches benched rescued (entry :: pending) retained mid

/-- What becomes of an entry that was retained: it is done with, or still in the queue. -/
def Daemon.Retries (later : Daemon) (first : DispatchQueueEntry) (attempts : Nat)
    (fate : EntryFate) : Prop :=
  fate.Settles ∨ ∃ entry, fate = .retained entry ∧ later.Queues first attempts entry

/-- No entry fails in the pass, and this one may be retried when the pass comes to it. -/
structure Daemon.MayRetryEntry (daemon : Daemon) (entry : DispatchQueueEntry) : Prop where
  unfailing : daemon.Unfailing
  mayRetry : ∀ benched rescued pending retained mid,
    daemon.Reaches benched rescued (entry :: pending) retained mid →
      mid.MayRetry benched rescued entry

section

variable {daemon later mid : Daemon} {tasks : List Task} {benched : List String}
  {rescued : List Nat} {pending retained kept : List DispatchQueueEntry}
  {entry entry' first : DispatchQueueEntry} {fate : EntryFate}

/-- A pass that goes through its queue comes to every entry of it. -/
theorem Daemon.Reaches.comes {last : Daemon} (h : daemon.Reaches benched rescued [] kept last)
    (hmem : entry ∈ daemon.dispatchQueue) :
    ∃ pending retained mid, daemon.Reaches benched rescued (entry :: pending) retained mid := by
  refine (h.invariant (I := fun pending _ _ => entry ∈ pending ∨ ∃ pending retained mid,
    daemon.Reaches benched rescued (entry :: pending) retained mid) (fun _ _ => .inl hmem) ?_)
      |>.resolve_left List.not_mem_nil
  intro next pending retained mid fate daemon' hpoint hbefore _
  rcases hbefore with hpending | hcame
  · rcases List.mem_cons.mp hpending with rfl | hlater
    · exact .inr ⟨_, _, _, hpoint⟩
    · exact .inl hlater
  · exact .inr hcame

/-- A pass in which no entry fails goes through its queue, and puts back what it retained. -/
theorem Daemon.Reaches.ends (h : daemon.Reaches benched rescued pending retained mid)
    (hunfailing : daemon.Unfailing) : ∃ kept last, daemon.Reaches benched rescued [] kept last ∧
      endState processDispatchQueue daemon = { last with dispatchQueue := kept } := by
  obtain ⟨start, hprepare, -⟩ := h
  rcases hrun : processDispatchQueue daemon with ⟨⟨⟩, daemon'⟩ | ⟨error, daemon'⟩
  · obtain ⟨benched', rescued', kept, last, hreaches, rfl⟩ :=
      processDispatchQueue_returns_iff.mp hrun
    obtain ⟨start', hprepare', hvisits⟩ := hreaches
    cases hprepare.symm.trans hprepare'
    exact ⟨kept, last, ⟨start, hprepare, hvisits⟩, endState_of_returns hrun⟩
  · rcases processDispatchQueue_fails_iff.mp hrun with hfails | ⟨_, _, _, _, _, _, hreaches, hfails⟩
    · cases hprepare.symm.trans hfails
    · exact absurd ⟨_, _, _, _, _, hreaches, hfails⟩ (hunfailing _ _ _)

/-- A pass leaves it as it is which evidence can be read. -/
theorem Daemon.Reaches.unreadable (h : daemon.Reaches benched rescued pending retained mid)
    (hunfailing : daemon.Unfailing) :
    (endState processDispatchQueue daemon).disk.unreadable = daemon.disk.unreadable := by
  obtain ⟨kept, last, hend, hlast⟩ := h.ends hunfailing
  obtain ⟨start, hprepare, hstays⟩ := hend.stays
  rw [hlast]
  exact hstays.disk.leads.unreadable.trans (preparePass_onward hprepare).disk.leads.unreadable

/-- What is retained of an entry is in the queue when the pass is over. -/
theorem Daemon.Reaches.mem_of_retained {daemon' : Daemon}
    (h : daemon.Reaches benched rescued (entry :: pending) retained mid)
    (hhandled : handleEntry benched rescued retained entry mid = .ok (.retained entry') daemon')
    (hunfailing : daemon.Unfailing) :
    entry' ∈ (endState processDispatchQueue daemon).dispatchQueue := by
  obtain ⟨kept, last, ⟨start, hprepare, hvisits⟩, hend⟩ := h.ends hunfailing
  obtain ⟨start', hprepare', hvisits'⟩ := h
  cases hprepare.symm.trans hprepare'
  -- the rest of the loop, from where the entry was retained
  have hround := hvisits'.round (drainEntry_returns_iff.mpr ⟨_, hhandled, rfl⟩)
  have hrest := foldlM_returns_iff.mp
    (hround.foldlM_eq.symm.trans (foldlM_returns_iff.mpr hvisits))
  rw [hend]
  refine hrest.invariant (I := fun _ kept _ => entry' ∈ kept)
    (List.mem_append_right _ (List.mem_singleton_self _)) ?_
  intro next pending' kept' mid' kept'' last' _ hmem hbody
  obtain ⟨fate', -, rfl⟩ := drainEntry_returns_iff.mp hbody
  exact List.mem_append_left _ hmem

/-- **The pass of the failed attempt** retains the entry with a failure more, below the limit. -/
theorem Daemon.FailsLaunch.queues (h : daemon.FailsLaunch entry entry' tasks)
    (hunfailing : daemon.Unfailing) : entry.Same entry' ∧
      (endState processDispatchQueue daemon).Queues entry' 0 entry' := by
  obtain ⟨benched, rescued, pending, retained, mid, hreaches, hattempts⟩ := h
  obtain ⟨task, examined, claimed, failed, hexamine, hclaim, hlaunch, -⟩ := hattempts
  have hclaimed : claimAndLaunch entry task examined = .ok (.retained entry') failed := by
    simp only [claimAndLaunch, returns_bind_iff]
    exact ⟨_, _, hclaim, hlaunch⟩
  have hhandled : handleEntry benched rescued retained entry mid = .ok (.retained entry') failed := by
    rw [handleEntry, returns_bind_iff]
    exact ⟨_, _, hexamine, hclaimed⟩
  have hmem := hreaches.mem_of_retained hhandled hunfailing
  cases (after_of_returns hclaimed).mp after_claimAndLaunch_tried with
  | retained hsame _ hlimit =>
    exact ⟨hsame, hmem, ⟨rfl, rfl, rfl⟩, le_rfl, hlimit, fun _ _ _ _ hend => hend.comes hmem⟩

/-- **A pass that may retry** tries the entry once more, if its engineer is ready. -/
theorem Daemon.Queues.pass {attempts : Nat} (h : daemon.Queues first attempts entry)
    (htasks : HasUnhindered tasks first.taskId) (hmay : daemon.MayRetryEntry entry)
    (hcomes : daemon.ComesTo tasks entry mid fate) :
    (endState processDispatchQueue daemon).Retries first attempts fate ∧
      (mid.Ready entry.engineer →
        (endState processDispatchQueue daemon).Retries first (attempts + 1) fate) := by
  obtain ⟨benched, rescued, pending, retained, daemon', hreaches, hhandled, rfl⟩ := hcomes
  rw [← h.same.2.1] at htasks
  have hkept : ∀ entry', fate = .retained entry' →
      entry' ∈ (endState processDispatchQueue daemon).dispatchQueue := by
    rintro entry' rfl
    exact hreaches.mem_of_retained hhandled hmay.unfailing
  have hattends := (after_of_returns hhandled).mp
    (after_handleEntry_retry (hmay.mayRetry _ _ _ _ _ hreaches) htasks)
  rcases hattends with htried | ⟨rfl, hunready⟩
  · have hretries : ∀ count ≤ attempts + 1,
        (endState processDispatchQueue daemon).Retries first count fate := by
      intro count hcount
      cases htried with
      | delivered => exact .inl trivial
      | escalated _ _ hlimit => exact .inl hlimit
      | retained hsame hfailures hlimit =>
        have hmem := hkept _ rfl
        refine .inr ⟨_, rfl, hmem, ?_, ?_, hlimit, fun _ _ _ _ hend => hend.comes hmem⟩
        · exact ⟨hsame.1.trans h.same.1, hsame.2.1.trans h.same.2.1, hsame.2.2.trans h.same.2.2⟩
        · have hbefore := h.failures
          omega
    exact ⟨hretries _ (Nat.le_succ _), fun _ => hretries _ le_rfl⟩
  · have hmem := hkept _ rfl
    exact ⟨.inr ⟨_, rfl, hmem, h.same, h.failures, h.limit, fun _ _ _ _ hend => hend.comes hmem⟩,
      fun hready => absurd hready hunready⟩

/-- **A failed launch is tried again** in every pass that comes to it with its engineer ready, until
it is delivered or has failed often enough. -/
theorem retries_of_mayRetry {attempts : Nat} (hfails : daemon.FailsLaunch entry entry' tasks)
    (hunfailing : daemon.Unfailing)
    (hrun : Afterwards tasks Daemon.MayRetryEntry entry' (endState processDispatchQueue daemon)
      attempts fate later) : later.Retries entry' attempts fate := by
  obtain ⟨hsame, hfirst⟩ := hfails.queues hunfailing
  have htasks : HasUnhindered tasks entry'.taskId := by
    obtain ⟨_, _, _, _, _, -, hattempts⟩ := hfails
    rw [hsame.2.1]
    exact hattempts.unhindered
  induction hrun with
  | start => exact .inr ⟨entry', rfl, hfirst⟩
  | other _ hsubset ih =>
    refine ih.imp_right ?_
    rintro ⟨entry, rfl, hqueues⟩
    have hmem := hsubset hqueues.mem
    exact ⟨entry, rfl, hmem, hqueues.same, hqueues.failures, hqueues.limit,
      fun _ _ _ _ hend => hend.comes hmem⟩
  | ready _ hmay hcomes hready ih =>
    obtain ⟨_, ⟨⟩, hqueues⟩ := ih.resolve_left id
    exact (hqueues.pass htasks hmay hcomes).2 hready
  | unready _ hmay hcomes _ ih =>
    obtain ⟨_, ⟨⟩, hqueues⟩ := ih.resolve_left id
    exact (hqueues.pass htasks hmay hcomes).1

end

/-! ### A queue with one entry -/

section

variable {daemon mid start : Daemon} {entry entry' : DispatchQueueEntry} {benched : List String}
  {rescued : List Nat} {pending retained : List DispatchQueueEntry} {tasks : List Task}

/-- What a failed attempt retains, and the tasks that it leaves, if it is made and fails. -/
def Daemon.attempt? (mid : Daemon) (benched : List String) (rescued : List Nat)
    (retained : List DispatchQueueEntry) (entry : DispatchQueueEntry) :
    Option (DispatchQueueEntry × List Task) :=
  match examineEntry benched rescued retained entry mid with
  | .ok (.admitted task) examined =>
    match onDisk (claimTask entry.engineer task) examined with
    | .ok (.ok ()) claimed =>
      match launchTask entry task claimed with
      | .ok (.retained entry') failed => some (entry', failed.disk.board.tasks)
      | _ => none
    | _ => none
  | _ => none

theorem Daemon.attempts_of_attempt?
    (h : mid.attempt? benched rescued retained entry = some (entry', tasks)) :
    mid.Attempts benched rescued retained entry entry' tasks := by
  unfold attempt? at h
  split at h
  · rename_i hexamine
    split at h
    · rename_i hclaim
      split at h
      · rename_i hlaunch
        obtain ⟨rfl, rfl⟩ := Prod.mk.inj (Option.some.inj h)
        exact ⟨_, _, _, _, hexamine, hclaim, hlaunch, rfl⟩
      · cases h
    · cases h
  · cases h

variable (hqueue : daemon.dispatchQueue = [entry])
  (hprepare : preparePass daemon = .ok (benched, rescued) start)
include hqueue hprepare

theorem Daemon.reaches_single :
    daemon.Reaches benched rescued [entry] [] { start with dispatchQueue := [] } :=
  ⟨start, hprepare, hqueue ▸ .start⟩

/-- The pass comes to the entry at once. -/
theorem Daemon.Reaches.single {benched' : List String} {rescued' : List Nat}
    (h : daemon.Reaches benched' rescued' (entry' :: pending) retained mid) :
    benched' = benched ∧ rescued' = rescued ∧ entry' = entry ∧ retained = [] ∧
      mid = { start with dispatchQueue := [] } := by
  obtain ⟨start', hprepare', hvisits⟩ := h
  rw [hprepare] at hprepare'
  cases hprepare'
  rw [hqueue] at hvisits
  obtain ⟨hentries, rfl, rfl⟩ := hvisits.eq_start (by simp)
  cases hentries
  exact ⟨rfl, rfl, rfl, rfl, rfl⟩

theorem Daemon.unfailing_single {fate : EntryFate} {daemon' : Daemon}
    (hhandled : handleEntry benched rescued [] entry { start with dispatchQueue := [] } =
      .ok fate daemon') : daemon.Unfailing := by
  rintro pending retained last ⟨benched', rescued', entry', mid, error, hreaches, hfails⟩
  obtain ⟨rfl, rfl, rfl, rfl, rfl⟩ := hreaches.single hqueue hprepare
  cases hhandled.symm.trans hfails

theorem Daemon.comesTo_single {fate : EntryFate} {daemon' : Daemon}
    (hhandled : handleEntry benched rescued [] entry { start with dispatchQueue := [] } =
      .ok fate daemon') (htasks : start.disk.board.tasks = tasks) :
    daemon.ComesTo tasks entry { start with dispatchQueue := [] } fate :=
  ⟨_, _, _, _, _, reaches_single hqueue hprepare, hhandled, htasks⟩

end

deriving instance DecidableEq for Task

instance (fate : EntryFate) : Decidable fate.Settles :=
  match fate with
  | .delivered _ => isTrue trivial
  | .escalated entry =>
    inferInstanceAs (Decidable (dispatchQueueFailureLimit ≤ entry.validationFailures))
  | .dropped _ | .retained _ => isFalse id

/-! ### A launch that keeps failing -/

def parserEntry : DispatchQueueEntry := { engineer := "eng-1", taskId := 7, taskTitle := "parser" }

/-- One task, and no engineer can be launched on it. -/
def strandedDaemon : Daemon :=
  { openDaemon [plainFile "007-parser.md" 7 "todo" none] (by decide) with
    outside := { calmOutside (fromSecs 100) with launch := fun _ _ _ => .error "no pane" }
    dispatchQueue := [parserEntry] }

/-- The same, with a task that waits for a verification retry. -/
def retriedDaemon : Daemon :=
  { openDaemon [{ plainFile "007-parser.md" 7 "todo" none with
        frontmatter := .ofList [(.id, .number 7), (.title, .string "parser"),
          (.status, .string "todo"), (.testsPassed, .bool false),
          (.outcome, .string "verification_retry_required"),
          (.artifacts, .sequence [.string "tests.log"])] }] (by decide) with
    outside := { calmOutside (fromSecs 100) with launch := fun _ _ _ => .error "no pane" }
    dispatchQueue := [parserEntry] }

/-- The pass from `daemon`, with the entry alone in the queue, comes to it with the engineer ready
and nothing that takes the entry away, and keeps `kept` of it. -/
def Daemon.TriesAlone (daemon : Daemon) (entry : DispatchQueueEntry) (tasks : List Task)
    (kept : List DispatchQueueEntry) : Prop :=
  After preparePass daemon (fun prepared start => prepared = ([], []) ∧
    (∀ task ∈ start.disk.board.tasks, task.scheduledFor = none ∧
      parseBodyDependencyIds task.description = none ∧ task.claimedBy = some entry.engineer ∧
        start.verificationRetryDispatchableTask start.disk.board.workflowMetadata task true = true) ∧
    (start.recentlyReleasedBy (entry.taskId, entry.engineer)).isNone = true ∧
    (start.disk.board.activeItems entry.engineer).length = 1 ∧
    start.memberUsesWorktrees entry.engineer = false ∧ start.states entry.engineer = some .idle ∧
    start.idleStartedAt entry.engineer = some 0 ∧
    fromSecs start.config.dispatchStabilizationDelaySecs ≤ start.outside.clock start.asked ∧
    start.disk.board.tasks = tasks ∧
    After (handleEntry [] [] [] entry) { start with dispatchQueue := [] }
      (fun fate _ => fate.kept = kept) (fun _ _ => False)) (fun _ _ => False)

instance (daemon : Daemon) (entry : DispatchQueueEntry) (tasks : List Task)
    (kept : List DispatchQueueEntry) : Decidable (daemon.TriesAlone entry tasks kept) :=
  inferInstanceAs (Decidable (After _ _ _ _))

theorem Daemon.TriesAlone.passes {daemon : Daemon} {entry : DispatchQueueEntry} {tasks : List Task}
    {kept : List DispatchQueueEntry} (h : daemon.TriesAlone entry tasks kept)
    (hqueue : daemon.dispatchQueue = [entry])
    (hunreadable : daemon.disk.unreadable = fun _ _ => false) : daemon.MayRetryEntry entry ∧
      ∃ mid fate, daemon.ComesTo tasks entry mid fate ∧ mid.Ready entry.engineer ∧
        fate.kept = kept := by
  obtain ⟨_, start, hprepare, rfl, hall, hreleased, hactive, hworktrees, hidle, hstarted, hdelay,
    htasks, hhandle⟩ := returns_of_after h
  obtain ⟨fate, daemon', hhandled, hkept⟩ := returns_of_after hhandle
  -- the evidence is what the files say, since they all can be read
  have hevident : ∀ evidence, start.disk.Evident evidence →
      evidence = start.disk.board.workflowMetadata := by
    rintro _ ⟨access, rfl⟩
    have hsame := (preparePass_onward hprepare).disk.leads.unreadable
    funext path
    simp only [hsame, hunreadable, Bool.false_eq_true, if_false]
  refine ⟨⟨unfailing_single hqueue hprepare hhandled, ?_⟩, _, fate,
    comesTo_single hqueue hprepare hhandled htasks, ⟨hidle, 0, hstarted, hdelay⟩, hkept⟩
  intro benched rescued pending retained mid hpoint
  obtain ⟨rfl, rfl, -, rfl, rfl⟩ := hpoint.single hqueue hprepare
  refine ⟨?_, ?_, List.not_mem_nil, ?_, List.not_mem_nil, ?_, ?_, ?_⟩
  · intro task hmem _ evidence hevidence
    rw [hevident evidence hevidence]
    exact (hall task hmem).2.2.2
  · intro task hmem _ _ _
    simp [Task.isScheduleBlocked, (hall task hmem).1]
  · intro _ _
    have hnone := Option.isNone_iff_eq_none.mp hreleased
    simp [Daemon.releaseExcludedAt, hnone]
  · rintro task hmem _ count ⟨evidence, hevidence, rfl⟩
    rw [hevident evidence hevidence]
    have hcount : effectiveActiveCount true entry task 1 = 0 := by
      simp [effectiveActiveCount, (hall task hmem).2.2.1]
    rw [← hactive, ← (hall task hmem).2.2.2] at hcount
    exact hcount
  · intro huses
    cases hworktrees.symm.trans huses
  · intro task hmem _ hsome
    rw [(hall task hmem).2.1] at hsome
    cases hsome

/-- The launch fails three times, and then the entry is escalated. -/
theorem retries_of_mayRetry_retriedDaemon : ∃ first tasks later fate,
    retriedDaemon.FailsLaunch parserEntry first tasks ∧
      Daemon.Retries later first 2 fate ∧ fate.Settles := by
  obtain ⟨one, hone⟩ : ∃ one, one = endState processDispatchQueue retriedDaemon := ⟨_, rfl⟩
  obtain ⟨two, htwo⟩ : ∃ two, two = endState processDispatchQueue one := ⟨_, rfl⟩
  have hqueueOne : one.dispatchQueue = [parserEntry.failed "no pane"] := by
    rw [hone]
    decide +kernel
  have hqueueTwo : two.dispatchQueue = [(parserEntry.failed "no pane").failed "no pane"] := by
    rw [htwo, hone]
    decide +kernel
  have hfirst : After preparePass retriedDaemon (fun prepared start => prepared = ([], []) ∧
      Daemon.attempt? { start with dispatchQueue := [] } [] [] [] parserEntry =
        some (parserEntry.failed "no pane", one.disk.board.tasks) ∧
      After (handleEntry [] [] [] parserEntry) { start with dispatchQueue := [] }
        (fun _ _ => True) (fun _ _ => False)) (fun _ _ => False) := by
    rw [hone]
    decide +kernel
  have htriesOne : one.TriesAlone (parserEntry.failed "no pane") one.disk.board.tasks
      [(parserEntry.failed "no pane").failed "no pane"] := by
    rw [hone]
    decide +kernel
  have htriesTwo : two.TriesAlone ((parserEntry.failed "no pane").failed "no pane")
      one.disk.board.tasks [] := by
    rw [htwo, hone]
    decide +kernel
  obtain ⟨_, start, hprepare, rfl, hattempt, hhandle⟩ := returns_of_after hfirst
  obtain ⟨_, _, hhandled, -⟩ := returns_of_after hhandle
  have hunfailing := Daemon.unfailing_single rfl hprepare hhandled
  have hreaches := Daemon.reaches_single rfl hprepare
  have hfails : retriedDaemon.FailsLaunch parserEntry _ one.disk.board.tasks :=
    ⟨_, _, _, _, _, hreaches, Daemon.attempts_of_attempt? hattempt⟩
  have hreadableOne : one.disk.unreadable = fun _ _ => false := by
    rw [hone, hreaches.unreadable hunfailing]
    rfl
  obtain ⟨hmayOne, mid, fate, hcomesOne, hreadyOne, hkept⟩ :=
    htriesOne.passes hqueueOne hreadableOne
  obtain rfl : fate = .retained ((parserEntry.failed "no pane").failed "no pane") := by
    cases fate with
    | retained entry => rw [List.head_eq_of_cons_eq hkept]
    | dropped _ | escalated _ | delivered _ => cases hkept
  have hreadableTwo : two.disk.unreadable = fun _ _ => false := by
    obtain ⟨_, _, _, _, _, hreachesOne, -⟩ := hcomesOne
    rw [htwo, hreachesOne.unreadable hmayOne.unfailing, hreadableOne]
  obtain ⟨hmayTwo, _, last, hcomesTwo, hreadyTwo, -⟩ := htriesTwo.passes hqueueTwo hreadableTwo
  have hrun : Afterwards one.disk.board.tasks Daemon.MayRetryEntry (parserEntry.failed "no pane")
      (endState processDispatchQueue retriedDaemon) 0 (.retained (parserEntry.failed "no pane"))
      one := by
    rw [← hone]
    exact .start
  have hrun := hrun.ready hmayOne hcomesOne hreadyOne
  rw [← htwo] at hrun
  have hretries := retries_of_mayRetry hfails hunfailing (hrun.ready hmayTwo hcomesTwo hreadyTwo)
  refine ⟨_, _, _, last, hfails, hretries, hretries.resolve_right ?_⟩
  rintro ⟨entry, -, hqueues⟩
  have hfailures : 1 + 2 ≤ entry.validationFailures := hqueues.failures
  have hlimit : entry.validationFailures < 3 := hqueues.limit
  omega

/-- The entry is pruned in the next pass. -/
theorem not_retries_strandedDaemon : ¬ ∀ daemon later entry first tasks attempts fate,
    Daemon.FailsLaunch daemon entry first tasks →
      Afterwards tasks (fun _ _ => True) first (endState processDispatchQueue daemon) attempts fate
        later → later.Retries first attempts fate := by
  intro h
  obtain ⟨next, hnext⟩ : ∃ next, next = endState processDispatchQueue strandedDaemon := ⟨_, rfl⟩
  have hpass : After preparePass strandedDaemon (fun prepared start => prepared = ([], []) ∧
      Daemon.attempt? { start with dispatchQueue := [] } [] [] [] parserEntry =
        some (parserEntry.failed "no pane", next.disk.board.tasks)) (fun _ _ => False) := by
    rw [hnext]
    decide +kernel
  have hpass' : After preparePass next (fun prepared start => prepared = ([], []) ∧
      start.disk.board.tasks = next.disk.board.tasks ∧
        After (handleEntry [] [] [] (parserEntry.failed "no pane"))
          { start with dispatchQueue := [] } (fun fate _ => fate.kept = [] ∧ ¬ fate.Settles)
          (fun _ _ => False)) (fun _ _ => False) := by
    rw [hnext]
    decide +kernel
  have hqueue : next.dispatchQueue = [parserEntry.failed "no pane"] := by
    rw [hnext]
    decide +kernel
  obtain ⟨_, start, hprepare, rfl, hattempt⟩ := returns_of_after hpass
  obtain ⟨_, start', hprepare', rfl, htasks, hhandle⟩ := returns_of_after hpass'
  obtain ⟨fate, daemon', hhandled, hkept, hopen⟩ := returns_of_after hhandle
  have hfails : strandedDaemon.FailsLaunch parserEntry _ next.disk.board.tasks :=
    ⟨_, _, _, _, _, Daemon.reaches_single rfl hprepare, Daemon.attempts_of_attempt? hattempt⟩
  have hstart : Afterwards next.disk.board.tasks (fun _ _ => True) (parserEntry.failed "no pane")
      (endState processDispatchQueue strandedDaemon) 0 (.retained (parserEntry.failed "no pane"))
      next := by
    rw [← hnext]
    exact .start
  have hcomes := Daemon.comesTo_single hqueue hprepare' hhandled htasks
  have hlost : ∀ attempts, ¬ Afterwards next.disk.board.tasks (fun _ _ => True)
      (parserEntry.failed "no pane") (endState processDispatchQueue strandedDaemon) attempts fate
        (endState processDispatchQueue next) := by
    intro attempts hrun
    rcases h _ _ _ _ _ _ _ hfails hrun with hsettles | ⟨entry, rfl, -⟩
    · exact hopen hsettles
    · cases hkept
  by_cases hready : Daemon.Ready { start' with dispatchQueue := [] } "eng-1"
  · exact hlost _ (hstart.ready trivial hcomes hready)
  · exact hlost _ (hstart.unready trivial hcomes hready)

end Batty
