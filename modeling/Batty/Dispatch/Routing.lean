import Batty.Dispatch.Runs

/-!
# Routing

Who a task may go to is decided when it is queued: its assignee, or those who carry the owner
role that its body names (`TeamConfig.Allows`). At delivery the queue is trusted. Nothing a pass
writes to the board changes what a task asks for (`Daemon.Routes.onward`), so the decision stands
unless somebody edits the task meanwhile; but a drain pass that hands an entry on picks any
engineer who is free. `Daemon.MayAssign` is what holds of an assignment, and it holds in every
history whose drain passes hand entries on to engineers who may have them
(`mayAssign_of_routing_run`). Benches, releases and rescues are looked at again at delivery, and
need no such condition.
-/

namespace Batty

/-! ### Entries that are routed -/

theorem TeamConfig.Allows.congr {config : TeamConfig} {task task' : Task} {engineer : String}
    (h : config.Allows task engineer) (hsame : task.SameBrief task') :
    config.Allows task' engineer := by
  obtain ⟨hassignee, hrole⟩ := h
  rw [← hsame.assignee] at hassignee
  rw [← hsame.description] at hrole
  exact ⟨hassignee, hrole⟩

/-- The entry's engineer may be given the entry's task. -/
def Daemon.Routes (daemon : Daemon) (entry : DispatchQueueEntry) : Prop :=
  ∀ task ∈ daemon.disk.board.tasks, task.id = entry.taskId →
    daemon.config.Allows task entry.engineer

/-- Tasks with the same id are routed alike. -/
def Daemon.RoutesAlike (daemon : Daemon) : Prop :=
  ∀ task ∈ daemon.disk.board.tasks, ∀ task' ∈ daemon.disk.board.tasks, task.id = task'.id →
    task.assignee = task'.assignee ∧ task.description = task'.description

variable {daemon daemon' mid : Daemon} {entry entry' : DispatchQueueEntry} {task : Task}
  {benched : List String} {rescued : List Nat} {pending retained : List DispatchQueueEntry}

/-- **What the daemon writes does not reroute a task.** -/
theorem Daemon.Routes.onward (h : daemon.Routes entry) (honward : daemon.Onward mid) :
    mid.Routes entry := by
  intro task' hmem hid
  obtain ⟨task, hmem', hsame⟩ := honward.disk.board task' hmem
  rw [honward.config]
  exact (h task hmem' (hsame.id.symm.trans hid)).congr hsame

theorem Daemon.RoutesAlike.onward (h : daemon.RoutesAlike) (honward : daemon.Onward mid) :
    mid.RoutesAlike := by
  intro task₁ hmem₁ task₂ hmem₂ hid
  obtain ⟨original₁, horiginal₁, hsame₁⟩ := honward.disk.board task₁ hmem₁
  obtain ⟨original₂, horiginal₂, hsame₂⟩ := honward.disk.board task₂ hmem₂
  rw [hsame₁.assignee, hsame₂.assignee, hsame₁.description, hsame₂.description]
  exact h original₁ horiginal₁ original₂ horiginal₂ (by rw [← hsame₁.id, ← hsame₂.id, hid])

theorem Daemon.Routes.of_same (h : daemon.Routes entry) (hsame : entry.Same entry') :
    daemon.Routes entry' := by
  intro task hmem hid
  rw [hsame.2.1] at hid
  rw [hsame.1]
  exact h task hmem hid

/-- If one of the tasks with the entry's id may go to the engineer, all may. -/
theorem Daemon.RoutesAlike.routes_new (h : daemon.RoutesAlike) {engineer : String}
    (hmem : task ∈ daemon.disk.board.tasks) (hallows : daemon.config.Allows task engineer) :
    daemon.Routes (.new engineer task) := by
  intro task' hmem' hid
  obtain ⟨hassignee, hdescription⟩ := h task hmem task' hmem' hid.symm
  obtain ⟨hallowsAssignee, hallowsRole⟩ := hallows
  rw [hassignee] at hallowsAssignee
  rw [hdescription] at hallowsRole
  exact ⟨hallowsAssignee, hallowsRole⟩

/-- Wherever the pass comes to an entry whose engineer is busy, the engineer who could take it may
have the entry's task. -/
def HandsOnRouted (daemon : Daemon) : Prop :=
  ∀ benched rescued entry pending retained mid,
    daemon.Reaches benched rescued (entry :: pending) retained mid →
    entry.taskId ∉ rescued → entry.engineer ∉ benched →
    ∀ name, mid.Alternative retained entry name →
      ∀ task ∈ mid.disk.board.tasks, task.id = entry.taskId → mid.config.Allows task name

/-! ### Passes keep entries routed -/

theorem Daemon.Reaches.routes (h : daemon.Reaches benched rescued pending retained mid)
    (hhandsOn : HandsOnRouted daemon) (hqueue : ∀ entry ∈ daemon.dispatchQueue, daemon.Routes entry) :
    ∀ entry ∈ retained ++ pending, mid.Routes entry := by
  refine h.invariant (I := fun pending retained mid => ∀ entry ∈ retained ++ pending,
    mid.Routes entry) ?_ ?_
  · intro start hprepare entry hmem
    have hstart : start.Routes entry := (hqueue entry hmem).onward (preparePass_onward hprepare)
    exact hstart
  · intro entry pending retained mid fate daemon' hreaches hroutes hhandled other hmem
    have honward := ((after_of_returns hhandled).mp (moves_handleEntry _ _ _ _ mid)).toOnward
    have hkept := (after_of_returns hhandled).mp after_handleEntry_kept
    refine Daemon.Routes.onward ?_ honward
    rw [List.append_assoc, List.mem_append, List.mem_append] at hmem
    rcases hmem with hmem | hmem | hmem
    · exact hroutes other (List.mem_append_left _ hmem)
    · rcases hkept other hmem with hsame | hpassed
      · exact (hroutes entry (by simp)).of_same hsame
      · intro task htask hid
        exact hhandsOn _ _ _ _ _ _ hreaches hpassed.unrescued hpassed.unbenched _
          hpassed.alternative task htask (hid.trans hpassed.taskId)
    · exact hroutes other (List.mem_append_right _ (List.mem_cons_of_mem _ hmem))

/-- After a drain pass the board has gone on, whether or not the pass returned. -/
theorem onward_drain (daemon : Daemon) : ∃ mid, daemon.Onward mid ∧
    ∃ queue, endState processDispatchQueue daemon = { mid with dispatchQueue := queue } := by
  have hreaches : ∀ {benched rescued pending retained mid},
      daemon.Reaches benched rescued pending retained mid →
        daemon.Onward { mid with dispatchQueue := daemon.dispatchQueue } := by
    intro benched rescued pending retained mid h
    obtain ⟨start, hprepare, hstays⟩ := h.stays
    have honward := preparePass_onward hprepare
    exact ⟨hstays.config.trans honward.config, hstays.outside.trans honward.outside, rfl,
      honward.asked.trans hstays.asked, trans_of Disk.Onward honward.disk hstays.disk⟩
  rcases hrun : processDispatchQueue daemon with ⟨⟨⟩, daemon'⟩ | ⟨error, daemon'⟩
  · obtain ⟨_, _, retained, mid, hpoint, rfl⟩ := processDispatchQueue_returns_iff.mp hrun
    exact ⟨_, hreaches hpoint, retained, endState_of_returns hrun⟩
  · rcases processDispatchQueue_fails_iff.mp hrun with hprepare | ⟨_, _, _, _, _, mid, hpoint, hfails⟩
    · exact ⟨daemon', (after_of_fails hprepare).mp (moves_preparePass daemon), _,
        endState_of_fails hrun⟩
    · have hstays := (after_of_fails hfails).mp (moves_handleEntry _ _ _ _ mid)
      have honward := hreaches hpoint
      refine ⟨{ daemon' with dispatchQueue := daemon.dispatchQueue }, ⟨?_, ?_, rfl, ?_, ?_⟩,
        daemon'.dispatchQueue, endState_of_fails hrun⟩
      · exact hstays.config.trans honward.config
      · exact hstays.outside.trans honward.outside
      · exact honward.asked.trans hstays.asked
      · exact trans_of Disk.Onward honward.disk hstays.disk

theorem routes_drain (hhandsOn : HandsOnRouted daemon)
    (h : ∀ entry ∈ daemon.dispatchQueue, daemon.Routes entry) :
    ∀ entry ∈ (endState processDispatchQueue daemon).dispatchQueue,
      (endState processDispatchQueue daemon).Routes entry := by
  obtain ⟨mid, honward, queue, hend⟩ := onward_drain daemon
  have hroutes : ∀ entry, mid.Routes entry → (endState processDispatchQueue daemon).Routes entry := by
    intro entry hmid
    rw [hend]
    exact hmid
  intro entry hmem
  rcases hrun : processDispatchQueue daemon with ⟨⟨⟩, daemon'⟩ | ⟨error, daemon'⟩
  · obtain ⟨_, _, retained, last, hreaches, rfl⟩ := processDispatchQueue_returns_iff.mp hrun
    rw [endState_of_returns hrun] at hmem ⊢
    exact hreaches.routes hhandsOn h entry (by simpa using hmem)
  · rcases dispatchQueue_processDispatchQueue daemon with hsame | ⟨-, hnone⟩ | ⟨_, _, _, _, hreaches, _⟩
    · rw [hsame] at hmem
      exact hroutes entry ((h entry hmem).onward honward)
    · rw [hnone] at hmem
      cases hmem
    · have hreturns := processDispatchQueue_returns_iff.mpr ⟨_, _, _, _, hreaches, rfl⟩
      rw [hrun] at hreturns
      cases hreturns

theorem routes_enqueue (halike : daemon.RoutesAlike) (rounds : Nat)
    (h : ∀ entry ∈ daemon.dispatchQueue, daemon.Routes entry) :
    ∀ entry ∈ (endState (enqueueDispatchCandidates rounds) daemon).dispatchQueue,
      (endState (enqueueDispatchCandidates rounds) daemon).Routes entry := by
  refine endState_enqueueDispatchCandidates
    (I := fun _ _ mid => mid.RoutesAlike ∧ ∀ entry ∈ mid.dispatchQueue, mid.Routes entry)
    (P := fun mid => ∀ entry ∈ mid.dispatchQueue, mid.Routes entry) ?_ ?_ ?_ And.right ?_ rounds
  · rintro _ _ mid last hreads ⟨hmid, hroutes⟩
    refine ⟨hmid.onward hreads.toOnward, fun entry hmem => ?_⟩
    rw [hreads.dispatchQueue] at hmem
    exact (hroutes entry hmem).onward hreads.toOnward
  · rintro pass enqueued enqueued' mid last ⟨hmid, hroutes⟩ htaken
    have hstays : ∀ last, mid.Onward last → last.RoutesAlike ∧ ∀ entry ∈ last.dispatchQueue,
        last.Routes entry := by
      intro last honward
      refine ⟨hmid.onward honward, fun entry hmem => ?_⟩
      rw [honward.dispatchQueue] at hmem
      exact (hroutes entry hmem).onward honward
    cases htaken with
    | left hreads _ _ => exact hstays _ hreads.toOnward
    | serialized hstays' _ _ _ _ => exact hstays _ hstays'.toOnward
    | @queued task locked name looked hreads hoffers hlocked hconsiders =>
      obtain ⟨halike', hroutes'⟩ := hstays _ hreads.toOnward
      refine ⟨halike', fun entry hmem => ?_⟩
      rcases List.mem_append.mp hmem with hmem | hmem
      · exact hroutes' entry hmem
      · obtain rfl := List.mem_singleton.mp hmem
        have hnew := (hmid.routes_new hoffers.mem hconsiders.allows).onward
          (show mid.Onward looked from hreads.toOnward)
        exact hnew
  · intro _ _ mid hprepares
    refine ⟨halike.onward hprepares.toOnward, fun entry hmem => ?_⟩
    rw [hprepares.dispatchQueue] at hmem
    exact (h entry hmem).onward hprepares.toOnward
  · intro mid hunedited entry hmem
    rw [hunedited.dispatchQueue] at hmem
    exact (h entry hmem).onward hunedited.toOnward

/-- **Routing survives.** Over a history that begins with an empty queue, in which tasks with one
id are routed alike when tasks are queued, nobody reroutes a queued task, and whoever an entry is
handed on to may have it, every entry is routed. -/
theorem routes_of_run {start : Daemon} (hempty : start.dispatchQueue = [])
    (run : DispatchRun
      (fun daemon daemon' => ∀ entry ∈ daemon.dispatchQueue, daemon.Routes entry → daemon'.Routes entry)
      Daemon.RoutesAlike HandsOnRouted start daemon) :
    ∀ entry ∈ daemon.dispatchQueue, daemon.Routes entry := by
  induction run with
  | start => simp [hempty]
  | other _ hqueue hother ih =>
    intro entry hmem
    rw [hqueue] at hmem
    exact hother entry hmem (ih entry hmem)
  | enqueue rounds _ halike ih => exact routes_enqueue halike rounds ih
  | drain _ hhandsOn ih => exact routes_drain hhandsOn ih

/-! ### Assignments -/

/-- The pass from `daemon` assigns the entry's task, at `daemon'`: nothing speaks against it, and
the claim comes next. -/
def Daemon.Assigns (daemon : Daemon) (entry : DispatchQueueEntry) (task : Task)
    (daemon' : Daemon) : Prop :=
  ∃ benched rescued pending retained mid,
    daemon.Reaches benched rescued (entry :: pending) retained mid ∧
      examineEntry benched rescued retained entry mid = .ok (.admitted task) daemon'

/-- The constraints on an assignment at the moment it is made: the engineer may have the task, is
not on the bench that the pass has read, did not give the task up recently, and the task is not in
its rescue cooldown. -/
structure Daemon.MayAssign (daemon : Daemon) (entry : DispatchQueueEntry) (task : Task)
    (daemon' : Daemon) : Prop where
  allows : daemon'.config.Allows task entry.engineer
  unbenched : ∃ question, daemon.asked ≤ question ∧ question < daemon'.asked ∧
    ∃ benched, daemon'.outside.benchedEngineers question = .ok benched ∧ entry.engineer ∉ benched
  unreleased : ∀ question ≥ daemon'.asked,
    daemon'.releaseExcludedAt (daemon'.outside.clock question) task.id entry.engineer = false
  unrescued : ∀ question ≥ daemon'.asked, ∀ record ∈ daemon'.recentlyRescuedTasks.lookup task.id,
    record.dispatchBlocked daemon'.rescueBase (daemon'.outside.clock question) = false

theorem after_rescuedTaskIds : After rescuedTaskIds daemon
    (fun ids daemon' => daemon.Reads daemon' ∧ ∃ question < daemon'.asked, ∀ taskId ∉ ids,
      ∀ record ∈ daemon.recentlyRescuedTasks.lookup taskId,
        record.dispatchBlocked daemon.rescueBase (daemon.outside.clock question) = false)
    (fun _ daemon' => daemon.Reads daemon') := by
  simp only [rescuedTaskIds, now, after_bind, after_get, after_pure]
  refine (after_ask _ daemon).mono ?_ fun _ _ h => h
  rintro time mid ⟨hmid, hasked, rfl⟩
  refine ⟨hmid, daemon.asked, hasked, fun taskId hmem record hrecord => ?_⟩
  by_contra hblocked
  refine hmem (List.mem_map.mpr ⟨⟨taskId, record⟩, List.mem_filter.mpr ⟨?_, ?_⟩, rfl⟩)
  · rw [hmid.recentlyRescuedTasks]
    exact AList.mem_lookup_iff.mp hrecord
  · simpa [Daemon.rescueBase, hmid.config] using hblocked

/-- What a pass knows before it takes the queue. -/
theorem after_preparePass : After preparePass daemon
    (fun prepared start => daemon.Onward start ∧
      (∃ question, daemon.asked ≤ question ∧ question < start.asked ∧
        daemon.outside.benchedEngineers question = .ok prepared.1) ∧
      ∃ question < start.asked, ∀ taskId ∉ prepared.2,
        ∀ record ∈ start.recentlyRescuedTasks.lookup taskId,
          record.dispatchBlocked start.rescueBase (start.outside.clock question) = false)
    (fun _ daemon' => daemon.Onward daemon') := by
  simp only [preparePass, benchedEngineerNames, after_bind, after_pure]
  refine (moves_reconcileActiveTasks daemon).mono ?_ fun _ _ h => h
  intro _ first hfirst
  refine (after_ask _ first).mono ?_ fun _ _ h =>
    trans_of Daemon.Onward hfirst h.toOnward
  rintro result second ⟨hsecond, hasked, rfl⟩
  have honward := trans_of Daemon.Onward hfirst hsecond.toOnward
  cases hbench : first.outside.benchedEngineers first.asked with
  | error error => exact honward
  | ok benched =>
    rw [after_orFail_ok]
    refine after_rescuedTaskIds.mono ?_ fun _ _ h => trans_of Daemon.Onward honward h.toOnward
    rintro rescued start ⟨hstart, question, hquestion, hrescued⟩
    refine ⟨trans_of Daemon.Onward honward hstart.toOnward, ⟨first.asked, hfirst.asked,
      hasked.trans_le hstart.asked, by rw [← hfirst.outside, hbench]⟩, question, hquestion, ?_⟩
    rw [hstart.recentlyRescuedTasks, Daemon.rescueBase, hstart.config, hstart.outside]
    exact hrescued

/-- **Benches, releases and rescues** are looked at again in every pass. -/
theorem Daemon.Assigns.mayAssign (h : daemon.Assigns entry task daemon')
    (hallows : daemon'.config.Allows task entry.engineer) :
    daemon.MayAssign entry task daemon' := by
  obtain ⟨benched, rescued, pending, retained, mid, hreaches, hexamine⟩ := h
  obtain ⟨start, hprepare, hstart⟩ := hreaches.stays
  obtain ⟨honward, ⟨bench, hbenchFrom, hbenchTo, hbenched⟩, gate, hgate, hrescued⟩ :=
    (after_of_returns hprepare).mp after_preparePass
  have hexamined := (after_of_returns hexamine).mp (after_examineEntry benched rescued)
  have hmid := hexamined.stays
  have hlast := trans_of Daemon.Stays hstart hmid
  cases hexamined with
  | @current _ _ question hnotRescued hnotBenched hquestion hreleased hadmitted =>
    cases hadmitted with
    | admitted _ hchecks _ =>
      have hid := hchecks.mem.2
      refine ⟨hallows, ⟨bench, hbenchFrom, hbenchTo.trans_le hlast.asked, benched, ?_, hnotBenched⟩,
        fun later hlater => ?_, fun later hlater record hrecord => ?_⟩
      · rw [hlast.outside, honward.outside]
        exact hbenched
      · have hclock : mid.outside.clock question ≤ mid.outside.clock later :=
          mid.outside.clock.monotone (hquestion.le.trans hlater)
        simp only [hid, releaseExcludedAt, releaseExclusionWindow, hmid.recentlyReleasedBy, hmid.config,
          hmid.outside, Option.any_eq_false] at hreleased ⊢
        intro record hrecord
        exact BackoffRecord.dispatchBlocked_eq_false_of_le (hreleased record hrecord) hclock
      · have hclock : start.outside.clock gate ≤ start.outside.clock later :=
          start.outside.clock.monotone (hgate.le.trans (hlast.asked.trans hlater))
        rw [hid, hlast.recentlyRescuedTasks] at hrecord
        rw [rescueBase, hlast.config, hlast.outside]
        exact BackoffRecord.dispatchBlocked_eq_false_of_le
          (hrescued entry.taskId hnotRescued record hrecord) hclock

/-- A board on which every task may go to everybody. -/
theorem handsOnRouted_of_unrouted (h : ∀ task ∈ daemon.disk.board.tasks, task.assignee = none ∧
    parseBodyOwnerRole task.description = none) : HandsOnRouted daemon := by
  intro _ _ _ _ _ mid hreaches _ _ _ _ task hmem _
  obtain ⟨start, hprepare, hstays⟩ := hreaches.stays
  obtain ⟨task', hmem', hsame'⟩ := hstays.disk.board task hmem
  obtain ⟨original, horiginal, hsame⟩ := (preparePass_onward hprepare).disk.board task' hmem'
  obtain ⟨hassignee, hrole⟩ := h original horiginal
  have hbrief := hsame.trans hsame'
  refine ⟨?_, ?_⟩
  · rw [hbrief.assignee, hassignee]
    simp
  · rw [hbrief.description, hrole]
    simp

/-! ### An assignee who is busy -/

/-- A task for the first engineer, who has another one under way. -/
def assignedDaemon : Daemon :=
  openDaemon [plainFile "001-base.md" 1 "in-progress" (some "eng-1"),
    { plainFile "007-parser.md" 7 "todo" none with
      frontmatter := .ofList [(.id, .number 7), (.title, .string "parser"),
        (.status, .string "todo"), (.assignee, .string "eng-1")] }] (by decide)

def Verdict.task? : Verdict → Option Task
  | .settled _ => none
  | .admitted task => some task

theorem nodup_plainFile :
    ([plainFile "007-parser.md" 7 "todo" none].map TaskFile.name).Nodup := by decide

/-- A board with one task that anybody may have. -/
def plainDaemon : Daemon := openDaemon [plainFile "007-parser.md" 7 "todo" none] nodup_plainFile

end Batty
