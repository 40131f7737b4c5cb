import Batty.Dispatch.Relaunch
import Batty.Dispatch.Rescues

/-!
# One active task for each engineer

A pass dispatches a task to an engineer with nothing active, so that an engineer with one active
item at most should stay one. The count that the pass looks at leaves out the task itself when it
is a retry by its own engineer, on the ground that the task is one of the engineer's active items;
but a task that waits for a retry need not be active. Then the count is one too low, and the
engineer gets a second active item (`not_length_activeItems_le_one_doubledDaemon`).

A pass that spares the engineer (`Daemon.Spares`) keeps one active item at most, and so does every
run of such passes (`length_activeItems_le_one_of_spares`).
-/

namespace Batty

/-! ### Claims of a pass -/

/-- The pass comes to claim the task for the entry. -/
def Daemon.ComesToClaim (daemon : Daemon) (entry : DispatchQueueEntry) (task : Task)
    (mid : Daemon) : Prop :=
  ∃ benched rescued pending retained point,
    daemon.Reaches benched rescued (entry :: pending) retained point ∧
      examineEntry benched rescued retained entry point = .ok (.admitted task) mid

/-- The task may be claimed for the entry as far as the engineer is concerned: a task that is the
engineer's is active or the engineer has no other, unless it is handed to somebody else with no
access failing; and a name that is not the engineer's is not written as the engineer's. -/
structure Daemon.MayClaim (mid : Daemon) (engineer : String) (entry : DispatchQueueEntry)
    (task : Task) : Prop where
  name : normalizeOptional entry.engineer = some engineer → entry.engineer = engineer
  safe : mid.disk.board.SafeFor task engineer ∨
    (entry.engineer ≠ engineer ∧ ¬ mid.disk.Trips 16)

/-- A pass that gives the engineer no second active item. -/
structure Daemon.Spares (daemon : Daemon) (engineer : String) : Prop where
  reviews : daemon.SparesReviews engineer
  claims : ∀ entry task mid, daemon.ComesToClaim entry task mid → mid.MayClaim engineer entry task

section

variable {daemon mid : Daemon} {entry : DispatchQueueEntry} {task : Task} {engineer : String}
  {benched : List String} {rescued : List Nat} {retained : List DispatchQueueEntry}

/-- A task that is admitted for its own engineer is active, or the engineer has none. -/
theorem Daemon.CountsAgainst.takes (h : mid.CountsAgainst entry task 0)
    (hsafe : mid.disk.board.SafeFor task entry.engineer) :
    task.isActiveFor entry.engineer = true ∨ mid.disk.board.activeItems entry.engineer = [] := by
  obtain ⟨evidence, -, hcount⟩ := h
  unfold effectiveActiveCount at hcount
  split at hcount
  · rename_i hretry
    simp only [Bool.and_eq_true, decide_eq_true_eq] at hretry
    exact hsafe hretry.2
  · exact .inr (List.length_eq_zero_iff.mp hcount.symm)

/-- **The handling of an entry** does no harm where its task may be claimed. -/
theorem after_handleEntry_goes (hdistinct : mid.disk.board.Distinct)
    (hclaims : ∀ task examined,
      examineEntry benched rescued retained entry mid = .ok (.admitted task) examined →
        examined.MayClaim engineer entry task) :
    After (handleEntry benched rescued retained entry) mid
      (fun _ daemon' => mid.Goes Task.Any engineer daemon')
      (fun _ daemon' => mid.Goes Task.Any engineer daemon') := by
  let R := Daemon.Goes Task.Any engineer
  rw [handleEntry, after_bind]
  refine ((after_run _ mid).and (after_examineEntry benched rescued)).mono ?_
    fun _ _ h => Daemon.goes_of_board_eq h.2.board
  rintro verdict examined ⟨hexamine, hexamined⟩
  cases hexamined with
  | stale h | rescued h | releaseExcluded h | benched h => exact Daemon.goes_of_board_eq h.board
  | current _ _ _ _ hexamined =>
    cases hexamined with
    | stale h | held h | alreadyInProgress h | passedOn h | everyoneBusy h | retained h
    | escalated h => exact Daemon.goes_of_board_eq h.board
    | unmetBodyDependencies _ _ _ hboard =>
      rcases hboard with hsame | hedits
      · exact Daemon.goes_of_board_eq hsame
      · exact hedits.goes ((harmless_transition_blocked _).mono fun _ _ _ _ => trivial)
    | @admitted _ task hreads hchecks hcount =>
      obtain ⟨hname, hsafe⟩ := hclaims task examined hexamine
      have hcount := hreads.countsAgainst_iff.mpr hcount
      have hmem := (hreads.checks_iff.mpr hchecks).mem.1
      have hgoes : R mid examined := Daemon.goes_of_board_eq hreads.board
      have hpath := hgoes.distinct hdistinct task hmem
      have htakes : normalizeOptional entry.engineer = some engineer →
          task.isActiveFor engineer = true ∨ examined.disk.board.activeItems engineer = [] := by
        intro htrim
        obtain rfl := hname htrim
        exact hcount.takes (hsafe.resolve_right fun h => h.1 rfl)
      have hclaim := after_claimTask_goes hpath (Board.taskAt_sourcePath hmem) rfl htakes
        (hsafe.imp_right And.right)
      have hend := after_iff_endState.mp hclaim
      refine (after_claimAndLaunch entry task).mono (fun _ daemon' h => ?_) fun _ daemon' h => ?_
      · refine trans_of R hgoes ?_
        rw [Disk.Goes, ← h.1] at hend
        exact hend
      · refine trans_of R hgoes ?_
        rw [Disk.Goes, ← h] at hend
        exact hend

theorem after_preparePass_goes (hdistinct : daemon.disk.board.Distinct)
    (hspares : daemon.SparesReviews engineer) : After preparePass daemon
      (fun _ daemon' => daemon.Goes Task.Any engineer daemon')
      (fun _ daemon' => daemon.Goes Task.Any engineer daemon') := by
  let R := Daemon.Goes Task.Any engineer
  have hrest : Moves R (do
      let benched ← benchedEngineerNames
      let rescued ← rescuedTaskIds
      return (benched, rescued)) :=
    moves_benchedEngineerNames.toQuiet.goes.bind fun _ => moves_rescuedTaskIds.toQuiet.goes.bind
      fun _ => moves_pure _
  rw [preparePass, after_bind]
  exact (after_reconcileActiveTasks hdistinct hspares).mono
    (fun _ mid hmid => (hrest mid).mono (fun _ _ h => trans_of R hmid h)
      fun _ _ h => trans_of R hmid h) fun _ _ h => h

/-- **A pass** gives the engineer that it spares no second active item. -/
theorem Daemon.Spares.goes (h : daemon.Spares engineer) (hdistinct : daemon.disk.board.Distinct) :
    daemon.Goes Task.Any engineer (endState processDispatchQueue daemon) := by
  let R := Daemon.Goes Task.Any engineer
  have hprepare := after_preparePass_goes hdistinct h.reviews
  have hhandle : ∀ {benched rescued entry pending retained mid},
      daemon.Reaches benched rescued (entry :: pending) retained mid → R daemon mid →
      After (handleEntry benched rescued retained entry) mid (fun _ daemon' => R daemon daemon')
        (fun _ daemon' => R daemon daemon') := by
    intro benched rescued entry pending retained mid hreaches hmid
    have hafter : After (handleEntry benched rescued retained entry) mid (fun _ => R mid)
        (fun _ => R mid) := after_handleEntry_goes (hmid.distinct hdistinct)
      fun task examined hexamine =>
        h.claims entry task examined ⟨_, _, _, _, mid, hreaches, hexamine⟩
    exact hafter.mono (fun _ _ h => trans_of R hmid h) fun _ _ h => trans_of R hmid h
  have hreaches : ∀ {benched rescued pending retained mid},
      daemon.Reaches benched rescued pending retained mid → R daemon mid := by
    intro benched rescued pending retained mid hreaches
    refine hreaches.invariant (I := fun _ _ mid => R daemon mid) (fun start hstart => ?_)
      fun hpoint hmid hhandled => (after_of_returns hhandled).mp (hhandle hpoint hmid)
    exact (after_of_returns hstart).mp hprepare
  cases hpass : processDispatchQueue daemon with
  | ok _ daemon' =>
    rw [endState_of_returns hpass]
    obtain ⟨benched, rescued, retained, mid, hpoint, rfl⟩ :=
      processDispatchQueue_returns_iff.mp hpass
    have hmid : R daemon mid := hreaches hpoint
    exact hmid
  | error error daemon' =>
    rw [endState_of_fails hpass]
    rcases processDispatchQueue_fails_iff.mp hpass with
      hfails | ⟨_, _, _, _, _, mid, hpoint, hfails⟩
    · exact (after_of_fails hfails).mp hprepare
    · exact (after_of_fails hfails).mp (hhandle hpoint (hreaches hpoint))

end

/-! ### Passes one after another -/

/-- Passes that all satisfy `P`. Between them nobody edits the board, whatever else happens. -/
inductive Passes (P : Daemon → Prop) (start : Daemon) : Daemon → Prop where
  | start : Passes P start start
  | other {daemon daemon'} : Passes P start daemon →
      daemon'.disk.board = daemon.disk.board → Passes P start daemon'
  | pass {daemon} : Passes P start daemon → P daemon →
      Passes P start (endState processDispatchQueue daemon)

/-- **One active task**: an engineer that has one active item at most, and is spared by every
pass, has one at most ever after. -/
theorem length_activeItems_le_one_of_spares {start later : Daemon} {engineer : String}
    (hdistinct : start.disk.board.Distinct)
    (hone : (start.disk.board.activeItems engineer).length ≤ 1)
    (hrun : Passes (fun daemon => daemon.Spares engineer) start later) :
    (later.disk.board.activeItems engineer).length ≤ 1 := by
  suffices hgoes : start.Goes Task.Any engineer later by
    have hlength := hgoes.length
    rwa [max_eq_left hone] at hlength
  induction hrun with
  | start => exact refl_of (Daemon.Goes Task.Any engineer) start
  | other _ hboard ih =>
    exact trans_of (Daemon.Goes Task.Any engineer) ih (Daemon.goes_of_board_eq hboard)
  | pass _ hspares ih =>
    exact trans_of (Daemon.Goes Task.Any engineer) ih (hspares.goes (ih.distinct hdistinct))

/-- A pass over one entry for a task that nobody has claimed, with a launch that fails. -/
theorem length_activeItems_le_one_of_spares_strandedDaemon :
    ((endState processDispatchQueue strandedDaemon).disk.board.activeItems "eng-1").length ≤ 1 := by
  have hreconciled : After reconciledTasks strandedDaemon
      (fun result _ => ∀ task ∈ result.1, task.status ≠ "review") (fun _ _ => False) := by
    decide +kernel
  have hpass : After preparePass strandedDaemon (fun prepared start => prepared = ([], []) ∧
      ∀ task ∈ start.disk.board.tasks, task.claimedBy = none) (fun _ _ => False) := by
    decide +kernel
  have hdistinct : ∀ task ∈ strandedDaemon.disk.board.tasks,
      strandedDaemon.disk.board.findPath task.id = some task.sourcePath := by decide +kernel
  have hone : (strandedDaemon.disk.board.activeItems "eng-1").length ≤ 1 := by decide +kernel
  obtain ⟨_, start, hprepare, rfl, hunclaimed⟩ := returns_of_after hpass
  have hspares : strandedDaemon.Spares "eng-1" := by
    constructor
    · rintro task mid ⟨tasks, tracked, point, rest, hrun, hvisits, hreview, -⟩
      have hmem : task ∈ tasks := hvisits.suffix.subset List.mem_cons_self
      exact absurd hreview ((after_of_returns hrun).mp hreconciled task hmem)
    · rintro entry task mid ⟨benched, rescued, pending, retained, point, hreaches, hexamine⟩
      obtain ⟨rfl, rfl, rfl, rfl, rfl⟩ := hreaches.single rfl hprepare
      refine ⟨fun _ => rfl, .inl fun hclaim => ?_⟩
      cases (after_of_returns hexamine).mp (after_examineEntry [] []) with
      | current _ _ _ _ hexamined =>
        cases hexamined with
        | admitted _ hchecks _ =>
          rw [hunclaimed task hchecks.mem.1] at hclaim
          cases hclaim
  exact length_activeItems_le_one_of_spares hdistinct hone (.pass .start hspares)

/-- The engineer is at work on one task, and another, which was put in review not long ago, waits
for a verification retry. -/
def doubledDaemon : Daemon :=
  { openDaemon [plainFile "001-printer.md" 1 "in-progress" (some "eng-1"),
      { plainFile "007-parser.md" 7 "review" (some "eng-1") with
        frontmatter := .ofList [(.id, .number 7), (.title, .string "parser"),
          (.status, .string "review"), (.claimedBy, .string "eng-1"), (.testsPassed, .bool false),
          (.outcome, .string "verification_retry_required"),
          (.artifacts, .sequence [.string "tests.log"])] }] (by decide) with
    outside := { calmOutside (fromSecs 100) with taskFileAgeSecs := fun _ _ => some 60 }
    dispatchQueue := [parserEntry] }

/-- The retry is dispatched to the engineer, whose other task is not counted. -/
theorem not_length_activeItems_le_one_doubledDaemon : ¬ ∀ (start later : Daemon),
    start.disk.board.Distinct →
      (∀ engineer, (start.disk.board.activeItems engineer).length ≤ 1) →
        Passes (fun _ => True) start later →
          ∀ engineer, (later.disk.board.activeItems engineer).length ≤ 1 := by
  intro h
  have hdistinct : ∀ task ∈ doubledDaemon.disk.board.tasks,
      doubledDaemon.disk.board.findPath task.id = some task.sourcePath := by decide +kernel
  have htwo : ((endState processDispatchQueue doubledDaemon).disk.board.activeItems "eng-1").length
      = 2 := by decide +kernel
  -- only the first task is active for anybody
  have hinactive : ∀ task ∈ doubledDaemon.disk.board.tasks,
      task.id = 1 ∨ task.status = "review" ∧ task.reviewOwner = none := by decide +kernel
  have hfirst : (doubledDaemon.disk.board.tasks.filter (·.id = 1)).length = 1 := by decide +kernel
  have hone : ∀ engineer, (doubledDaemon.disk.board.activeItems engineer).length ≤ 1 := by
    intro engineer
    rw [← hfirst, Board.activeItems, ← List.countP_eq_length_filter, ← List.countP_eq_length_filter]
    refine List.countP_mono_left fun task hmem hactive => ?_
    rcases hinactive task hmem with hid | ⟨hreview, howner⟩
    · exact decide_eq_true hid
    · simp [Task.isActiveFor, hreview, howner] at hactive
  have hle := h doubledDaemon _ hdistinct hone (.pass .start trivial) "eng-1"
  rw [htwo] at hle
  cases hle with
  | step hle => cases hle

end Batty
