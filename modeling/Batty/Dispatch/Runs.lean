import Batty.Dispatch.Rounds

/-!
# Histories of the dispatch queue

The queue is filled by enqueue passes and emptied by drain passes, in any order, and between them
the board, the members and the rest of the daemon change as they will: `DispatchRun`. What a
drain pass leaves is said in terms of the points it comes to.

**No two entries for a task or an engineer.** Enqueue passes look at what is queued, so that they
never add a second entry. A drain pass hands the entry of a busy engineer on to one that no
retained entry is for; the entries that are still to come it does not look at. Two entries for
one engineer are the result (`not_distinct_stolenEngineer`), and in a history whose passes hand
no entry on to an engineer with an entry to come there are never two
(`distinct_of_sparing_run`). No two entries are ever for one task.
-/

namespace Batty

/-- A history from `start`. The steps that are no pass satisfy `Other`, the enqueue passes begin
in `Enqueues` and the drain passes in `Drains`; an enqueue pass may be looked at after any number
of its rounds. -/
inductive DispatchRun (Other : Daemon → Daemon → Prop) (Enqueues Drains : Daemon → Prop)
    (start : Daemon) : Daemon → Prop where
  | start : DispatchRun Other Enqueues Drains start start
  | other {daemon daemon'} : DispatchRun Other Enqueues Drains start daemon →
      daemon'.dispatchQueue = daemon.dispatchQueue → Other daemon daemon' →
      DispatchRun Other Enqueues Drains start daemon'
  | enqueue {daemon} (rounds : Nat) : DispatchRun Other Enqueues Drains start daemon →
      Enqueues daemon →
      DispatchRun Other Enqueues Drains start (endState (enqueueDispatchCandidates rounds) daemon)
  | drain {daemon} : DispatchRun Other Enqueues Drains start daemon → Drains daemon →
      DispatchRun Other Enqueues Drains start (endState processDispatchQueue daemon)

variable {daemon mid : Daemon} {entry : DispatchQueueEntry} {benched : List String}
  {rescued : List Nat} {pending retained : List DispatchQueueEntry}

/-! ### Distinct entries -/

/-- No two entries are for the same task. -/
def TasksDistinct (queue : List DispatchQueueEntry) : Prop :=
  (queue.map DispatchQueueEntry.taskId).Nodup

/-- No two entries are for the same engineer. -/
def EngineersDistinct (queue : List DispatchQueueEntry) : Prop :=
  (queue.map DispatchQueueEntry.engineer).Nodup

/-- Wherever the pass comes to an entry whose engineer is busy, no later entry is pending for the
engineer who could take it. -/
def SparesPending (daemon : Daemon) : Prop :=
  ∀ benched rescued entry pending retained mid,
    daemon.Reaches benched rescued (entry :: pending) retained mid →
    entry.taskId ∉ rescued → entry.engineer ∉ benched →
    ∀ name, mid.Alternative retained entry name →
      name ∉ pending.map DispatchQueueEntry.engineer

/-- What is kept of an entry is for the entry's task. -/
theorem taskId_of_kept {fate : EntryFate} {daemon' : Daemon}
    (h : handleEntry benched rescued retained entry mid = .ok fate daemon') :
    ∀ entry' ∈ fate.kept, entry'.taskId = entry.taskId := fun entry' hmem => by
  rcases (after_of_returns h).mp after_handleEntry_kept entry' hmem with hsame | hpassed
  · exact hsame.2.1
  · exact hpassed.taskId

/-- In the middle of a pass, what is retained and what is pending are for distinct tasks. -/
theorem Daemon.Reaches.tasksDistinct (h : daemon.Reaches benched rescued pending retained mid)
    (hqueue : TasksDistinct daemon.dispatchQueue) : TasksDistinct (retained ++ pending) := by
  refine h.invariant (I := fun pending retained _ => TasksDistinct (retained ++ pending))
    (fun _ _ => hqueue) ?_
  intro entry pending retained mid fate daemon' _ hdistinct hhandled
  have hkept := taskId_of_kept hhandled
  unfold TasksDistinct at hdistinct ⊢
  cases fate with
  | retained entry' =>
    simpa [EntryFate.kept, hkept entry' (by simp [EntryFate.kept])] using hdistinct
  | dropped _ | escalated _ | delivered _ =>
    refine hdistinct.sublist (List.Sublist.map _ ?_)
    simp [EntryFate.kept]

/-- In the middle of a pass that spares the pending, what is retained and what is pending are for
distinct engineers. -/
theorem Daemon.Reaches.engineersDistinct (h : daemon.Reaches benched rescued pending retained mid)
    (hspares : SparesPending daemon) (hqueue : EngineersDistinct daemon.dispatchQueue) :
    EngineersDistinct (retained ++ pending) := by
  refine h.invariant (I := fun pending retained _ => EngineersDistinct (retained ++ pending))
    (fun _ _ => hqueue) ?_
  intro entry pending retained mid fate daemon' hreaches hdistinct hhandled
  have hkept := (after_of_returns hhandled).mp after_handleEntry_kept
  unfold EngineersDistinct at hdistinct ⊢
  cases fate with
  | retained entry' =>
    simp only [EntryFate.kept, List.append_assoc, List.singleton_append] at hkept ⊢
    rcases hkept entry' (by simp) with hsame | hpassed
    · simpa [hsame.1] using hdistinct
    · -- the new engineer is neither retained nor, by assumption, pending
      have hpending := hspares _ _ _ _ _ _ hreaches hpassed.unrescued hpassed.unbenched _
        hpassed.alternative
      have hrest : ((retained ++ pending).map DispatchQueueEntry.engineer).Nodup :=
        hdistinct.sublist (by simp)
      rw [List.map_append, List.map_cons, List.nodup_middle, List.nodup_cons, ← List.map_append]
      refine ⟨?_, hrest⟩
      rw [List.map_append, List.mem_append, not_or]
      exact ⟨hpassed.alternative.unretained, hpending⟩
  | dropped _ | escalated _ | delivered _ =>
    refine hdistinct.sublist (List.Sublist.map _ ?_)
    simp [EntryFate.kept]

theorem tasksDistinct_drain (h : TasksDistinct daemon.dispatchQueue) :
    TasksDistinct (endState processDispatchQueue daemon).dispatchQueue := by
  rcases dispatchQueue_processDispatchQueue daemon with hsame | ⟨-, hnone⟩ | ⟨_, _, _, _, hreaches, hsome⟩
  · rwa [hsame]
  · simp [hnone, TasksDistinct]
  · rw [hsome]
    simpa using hreaches.tasksDistinct h

theorem engineersDistinct_drain (hspares : SparesPending daemon)
    (h : EngineersDistinct daemon.dispatchQueue) :
    EngineersDistinct (endState processDispatchQueue daemon).dispatchQueue := by
  rcases dispatchQueue_processDispatchQueue daemon with hsame | ⟨-, hnone⟩ | ⟨_, _, _, _, hreaches, hsome⟩
  · rwa [hsame]
  · simp [hnone, EngineersDistinct]
  · rw [hsome]
    simpa using hreaches.engineersDistinct hspares h

/-! ### Enqueue passes add no second entry -/

/-- The pass knows what is queued. -/
structure Enqueued.Knows (enqueued : Enqueued) (queue : List DispatchQueueEntry) : Prop where
  taskIds : queue.map DispatchQueueEntry.taskId ⊆ enqueued.queuedTaskIds
  engineers : queue.map DispatchQueueEntry.engineer ⊆ enqueued.queuedEngineers

/-- The queue with an entry for a task and an engineer that are not queued. -/
structure Enqueued.Adds (enqueued : Enqueued) (queue queue' : List DispatchQueueEntry) : Prop where
  taskIds : enqueued.Knows queue → TasksDistinct queue → TasksDistinct queue'
  engineers : enqueued.Knows queue → EngineersDistinct queue → EngineersDistinct queue'

theorem nodup_map_append_singleton {κ : Type} {key : DispatchQueueEntry → κ}
    {queue : List DispatchQueueEntry} {used : List κ} (hused : queue.map key ⊆ used)
    (hnew : key entry ∉ used) (h : (queue.map key).Nodup) : ((queue ++ [entry]).map key).Nodup := by
  rw [List.map_append, List.map_cons, List.map_nil, ← List.concat_eq_append, List.nodup_concat]
  exact ⟨fun hmem => hnew (hused hmem), h⟩

/-- A round adds nothing to the queue, or an entry for a task and an engineer that are new. -/
theorem RoundTaken.adds {pass : EnqueuePass} {enqueued enqueued' : Enqueued} {daemon' : Daemon}
    (h : RoundTaken pass enqueued daemon (some enqueued') daemon')
    (hknows : enqueued.Knows daemon.dispatchQueue) :
    enqueued'.Knows daemon'.dispatchQueue ∧
      enqueued.Adds daemon.dispatchQueue daemon'.dispatchQueue := by
  obtain ⟨hids, hnames⟩ := hknows
  cases h with
  | left hreads _ _ =>
    rw [hreads.dispatchQueue]
    exact ⟨⟨hids, hnames⟩, fun _ h => h, fun _ h => h⟩
  | serialized hstays _ _ _ _ =>
    rw [hstays.dispatchQueue]
    exact ⟨⟨hids, hnames⟩, fun _ h => h, fun _ h => h⟩
  | queued hreads hoffers _ hconsiders =>
    have hid := hoffers.available
    rw [Enqueued.unavailableTaskIds, List.append_assoc, List.mem_append, not_or] at hid
    refine ⟨⟨?_, ?_⟩, fun _ h => ?_, fun _ h => ?_⟩
    · rw [hreads.dispatchQueue, List.map_append]
      exact List.append_subset.mpr ⟨List.subset_cons_of_subset _ hids, by simp [DispatchQueueEntry.new]⟩
    · rw [hreads.dispatchQueue, List.map_append]
      exact List.append_subset.mpr ⟨List.subset_cons_of_subset _ hnames, by simp [DispatchQueueEntry.new]⟩
    · simp only [hreads.dispatchQueue]
      exact nodup_map_append_singleton hids hid.1 h
    · simp only [hreads.dispatchQueue]
      exact nodup_map_append_singleton hnames hconsiders.unqueued h

/-- What adding to the queue preserves, an enqueue pass does. -/
theorem enqueue_preserves {P : List DispatchQueueEntry → Prop}
    (hadds : ∀ {enqueued queue queue'}, Enqueued.Knows enqueued queue →
      enqueued.Adds queue queue' → P queue → P queue')
    (rounds : Nat) (h : P daemon.dispatchQueue) :
    P (endState (enqueueDispatchCandidates rounds) daemon).dispatchQueue := by
  refine endState_enqueueDispatchCandidates
    (I := fun _ enqueued mid => enqueued.Knows mid.dispatchQueue ∧ P mid.dispatchQueue)
    (P := fun mid => P mid.dispatchQueue) ?_ ?_ ?_ And.right ?_ rounds
  · intro _ enqueued mid last hreads hmid
    rwa [hreads.dispatchQueue]
  · rintro pass enqueued enqueued' mid last ⟨hknows, hmid⟩ htaken
    obtain ⟨hknows', hadded⟩ := htaken.adds hknows
    exact ⟨hknows', hadds hknows hadded hmid⟩
  · intro _ enqueued mid hprepares
    rw [hprepares.dispatchQueue]
    refine ⟨⟨?_, ?_⟩, h⟩
    · rw [hprepares.queuedTaskIds]
      exact List.Subset.refl _
    · rw [hprepares.queuedEngineers]
      exact List.Subset.refl _
  · intro mid hunedited
    rwa [hunedited.dispatchQueue]

/-! ### Histories -/

/-- **No two entries are for one task**, whatever the drain passes do. -/
theorem tasksDistinct_of_run {Other : Daemon → Daemon → Prop} {Enqueues Drains : Daemon → Prop}
    {start : Daemon} (hempty : start.dispatchQueue = [])
    (run : DispatchRun Other Enqueues Drains start daemon) : TasksDistinct daemon.dispatchQueue := by
  induction run with
  | start => simp [hempty, TasksDistinct]
  | other _ hqueue _ ih => rwa [hqueue]
  | enqueue rounds _ _ ih =>
    exact enqueue_preserves (fun hknows hadds => hadds.taskIds hknows) rounds ih
  | drain _ _ ih => exact tasksDistinct_drain ih

/-- **Distinct entries.** Over a history that begins with an empty queue and whose drain passes
spare the pending, no two entries are for the same task and none are for the same engineer. -/
theorem distinct_of_sparing_run {start : Daemon} (hempty : start.dispatchQueue = [])
    (run : DispatchRun (fun _ _ => True) (fun _ => True) SparesPending start daemon) :
    TasksDistinct daemon.dispatchQueue ∧ EngineersDistinct daemon.dispatchQueue := by
  refine ⟨tasksDistinct_of_run hempty run, ?_⟩
  induction run with
  | start => simp [hempty, EngineersDistinct]
  | other _ hqueue _ ih => rwa [hqueue]
  | enqueue rounds _ _ ih =>
    exact enqueue_preserves (fun hknows hadds => hadds.engineers hknows) rounds ih
  | drain _ hspares ih => exact engineersDistinct_drain hspares ih

/-- A pass over two entries spares the pending if the second one's engineer is not idle. -/
theorem sparesPending_of_two {first second : String}
    (hqueue : daemon.dispatchQueue.map DispatchQueueEntry.engineer = [first, second])
    (hidle : After preparePass daemon (fun _ start => second ∉ start.idleEngineerNames)
      (fun _ _ => True)) : SparesPending daemon := by
  intro benched rescued entry pending retained mid hreaches _ _ name halternative
  obtain ⟨start, hprepare, hvisits⟩ := hreaches
  have hlength := congrArg List.length hqueue
  rw [List.length_map] at hlength
  cases pending with
  | nil => simp
  | cons next rest =>
    obtain ⟨hentries, -, rfl⟩ := hvisits.eq_start (by simp [hlength])
    rw [← hentries] at hqueue
    obtain ⟨-, rfl, hnone⟩ : _ ∧ next.engineer = second ∧ rest = [] := by simpa using hqueue
    obtain ⟨-, before, after, hnames, -⟩ := halternative.first
    have hmem : name ∈ start.idleEngineerNames :=
      List.mem_of_mem_filter (hnames ▸ List.mem_append_right before List.mem_cons_self)
    have hstopped := (after_of_returns hprepare).mp hidle
    simpa [hnone] using fun hsame : name = next.engineer => hstopped (hsame ▸ hmem)

/-! ### A busy engineer -/

/-- The first engineer has a task under way, of two engineers who are both said to be idle; the
second has been so for a second only. Tasks go to engineers in the order of their names. -/
def busyDaemon : Daemon where
  config := { plainTeam ["eng-1", "eng-2"] with allocationStrategy := .roundRobin }
  disk := { emptyDisk with
    board.files := [plainFile "001-base.md" 1 "in-progress" (some "eng-1"),
      plainFile "007-parser.md" 7 "todo" none, plainFile "008-printer.md" 8 "todo" none]
    board.nodup := by simp [plainFile] }
  outside := calmOutside (fromSecs 100)
  states := fun _ => some .idle
  idleStartedAt := fun name => some (if name = "eng-2" then fromSecs 99 else 0)

/-- The entry for the busy engineer goes to the other one, whose own entry is still to come and is
then retained: two entries are for the same engineer. -/
theorem not_distinct_stolenEngineer :
    ∃ daemon, DispatchRun (fun _ _ => True) (fun _ => True) (fun _ => True) busyDaemon daemon ∧
      busyDaemon.dispatchQueue = [] ∧ ¬ EngineersDistinct daemon.dispatchQueue := by
  refine ⟨_, .drain (.enqueue 3 .start trivial) trivial, rfl, ?_⟩
  have hqueue : (endState processDispatchQueue
      (endState (enqueueDispatchCandidates 3) busyDaemon)).dispatchQueue.map
        DispatchQueueEntry.engineer = ["eng-2", "eng-2"] := by decide +kernel
  rw [EngineersDistinct, hqueue]
  decide

/-- A third engineer, of whom nothing is known yet. -/
def threeEngineers : Daemon := { busyDaemon with
  config := { plainTeam ["eng-1", "eng-2", "eng-3"] with allocationStrategy := .roundRobin }
  states := fun name => if name = "eng-3" then none else some .idle }

/-- Two entries are queued, and then the second engineer has stopped and the third is idle. -/
def queuedDaemon : Daemon := { endState (enqueueDispatchCandidates 3) threeEngineers with
  states := fun name => if name = "eng-2" then none else some .idle }

/-- The entry for the busy engineer goes to the third, and the other one is retained. -/
theorem distinct_of_sparing_run_handedOn :
    (endState processDispatchQueue queuedDaemon).dispatchQueue.map DispatchQueueEntry.engineer =
      ["eng-3", "eng-2"] ∧
    TasksDistinct (endState processDispatchQueue queuedDaemon).dispatchQueue ∧
      EngineersDistinct (endState processDispatchQueue queuedDaemon).dispatchQueue := by
  have hqueue : queuedDaemon.dispatchQueue.map DispatchQueueEntry.engineer = ["eng-1", "eng-2"] := by
    decide +kernel
  have hspares : SparesPending queuedDaemon := sparesPending_of_two hqueue (by decide +kernel)
  have hempty : threeEngineers.dispatchQueue = [] := rfl
  have hsame : queuedDaemon.dispatchQueue =
      (endState (enqueueDispatchCandidates 3) threeEngineers).dispatchQueue := by
    rw [queuedDaemon]
  have hrun : DispatchRun (fun _ _ => True) (fun _ => True) SparesPending threeEngineers
      queuedDaemon := .other (.enqueue 3 .start trivial) hsame trivial
  exact ⟨by decide +kernel, distinct_of_sparing_run hempty (.drain hrun hspares)⟩

end Batty
