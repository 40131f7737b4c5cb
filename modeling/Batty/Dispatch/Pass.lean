import Batty.Dispatch.Examined

/-!
# A pass over the queue

A pass comes to one entry after another, with some entries behind it that are retained and some
before it that are pending. `Daemon.Reaches` names these points; whether a pass returns or fails
is said in terms of them (`processDispatchQueue_returns_iff`, `processDispatchQueue_fails_iff`).

**Errors.** While the entries are gone through the queue of the daemon is empty, and what is
retained is written back only when the pass returns. An error in the handling of one entry
therefore costs all others their place, those that are retained already and those that are still
to be looked at: a pass keeps the others exactly if it fails only where there are none
(`keepsOthers_iff_failsAlone`). An error before the queue is taken leaves it untouched.
-/

namespace Batty

variable {daemon daemon' mid : Daemon} {entry : DispatchQueueEntry}
  {benched : List String} {rescued : List Nat} {pending retained : List DispatchQueueEntry}

/-! ### What the handling of an entry leaves alone -/

theorem EntryExamined.stays {verdict : Verdict}
    (h : EntryExamined benched rescued retained entry daemon verdict daemon') :
    daemon.Stays daemon' := by
  cases h with
  | current _ _ _ _ hexamined => exact hexamined.stays
  | stale h | rescued h | releaseExcluded h | benched h => exact h.toStays

theorem moves_examineEntry (benched : List String) (rescued : List Nat)
    (retained : List DispatchQueueEntry) (entry : DispatchQueueEntry) :
    Moves Daemon.Stays (examineEntry benched rescued retained entry) := fun _ =>
  (after_examineEntry benched rescued).mono (fun _ _ h => h.stays) fun _ _ h => h.toStays

theorem moves_retainOrEscalate (entry : DispatchQueueEntry) (fallback : String) :
    Moves Daemon.Reads (retainOrEscalate entry fallback) := fun _ =>
  (after_retainOrEscalate entry ⟨rfl, rfl, rfl⟩ fallback).mono (fun _ _ h => h.1) fun _ _ h => h

theorem moves_assignTaskWithTaskId (engineer message : String) (taskId : Nat) :
    Moves Daemon.Quiet (assignTaskWithTaskId engineer message taskId) := by
  refine (moves_ask _).toQuiet.bind fun _ => (moves_orFail _).bind fun _ => ?_
  refine Moves.bind ?_ fun _ => moves_markMemberWorking engineer
  exact moves_modify_quiet fun _ => ⟨rfl, rfl, rfl, rfl, rfl, rfl, rfl⟩

theorem moves_noteDispatched (engineer : String) (taskId : Nat) :
    Moves Daemon.Quiet (noteDispatched engineer taskId) := by
  refine Moves.bind ?_ fun _ => (moves_noteRecentDispatch _ _).toQuiet
  exact moves_modify_quiet fun _ => ⟨rfl, rfl, rfl, rfl, rfl, rfl, rfl⟩

/-- A launch does not edit the board. -/
theorem moves_launchTask (entry : DispatchQueueEntry) (task : Task) :
    Moves Daemon.Quiet (launchTask entry task) := by
  refine moves_readEvidence.toQuiet.bind fun evidence => ?_
  refine (moves_assignTaskWithTaskId _ _ _).attempt.bind fun result => ?_
  cases result with
  | ok _ => exact (moves_noteDispatched _ _).bind fun _ => moves_pure _
  | error error => exact (moves_retainOrEscalate _ _).toQuiet

theorem moves_claimAndLaunch (entry : DispatchQueueEntry) (task : Task) :
    Moves Daemon.Stays (claimAndLaunch entry task) := by
  refine (moves_onDisk (moves_claimTask _ _)).bind fun result => ?_
  cases result with
  | ok _ => exact (moves_launchTask _ _).toStays
  | error error => exact (moves_retainOrEscalate _ _).toQuiet.toStays

theorem moves_handleEntry (benched : List String) (rescued : List Nat)
    (retained : List DispatchQueueEntry) (entry : DispatchQueueEntry) :
    Moves Daemon.Stays (handleEntry benched rescued retained entry) := by
  refine (moves_examineEntry _ _ _ _).bind fun verdict => ?_
  cases verdict with
  | settled fate => exact moves_pure _
  | admitted task => exact moves_claimAndLaunch _ _

theorem moves_drainEntry (benched : List String) (rescued : List Nat)
    (retained : List DispatchQueueEntry) (entry : DispatchQueueEntry) :
    Moves Daemon.Stays (drainEntry benched rescued retained entry) :=
  (moves_handleEntry _ _ _ _).bind fun _ => moves_pure _

theorem moves_benchedEngineerNames : Moves Daemon.Reads benchedEngineerNames :=
  (moves_ask _).bind fun _ => moves_orFail _

theorem moves_preparePass : Moves Daemon.Onward preparePass :=
  moves_reconcileActiveTasks.bind fun _ => moves_benchedEngineerNames.toQuiet.toStays.toOnward.bind
    fun _ => moves_rescuedTaskIds.toQuiet.toStays.toOnward.bind fun _ => moves_pure _

/-! ### What the handling of an entry comes to -/

/-- A launch delivers the task, or the entry failed once more. -/
theorem after_launchTask (entry : DispatchQueueEntry) (task : Task) :
    After (launchTask entry task) daemon
      (fun fate daemon' => daemon.Quiet daemon' ∧ (fate = .delivered task ∨ entry.Fails fate))
      (fun _ daemon' => daemon.Quiet daemon') := by
  simp only [launchTask, after_bind]
  refine (moves_readEvidence.toQuiet daemon).mono ?_ fun _ _ h => h
  intro evidence mid hmid
  rw [after_attempt]
  refine (moves_assignTaskWithTaskId _ _ _ mid).mono (fun _ last hlast => ?_) fun error last hlast => ?_
  · have hquiet := trans_of Daemon.Quiet hmid hlast
    simp only [after_bind]
    exact (moves_noteDispatched _ _ last).mono
      (fun _ _ h => ⟨trans_of Daemon.Quiet hquiet h, .inl rfl⟩)
      fun _ _ h => trans_of Daemon.Quiet hquiet h
  · have hquiet := trans_of Daemon.Quiet hmid hlast
    refine (after_retainOrEscalate entry ?_ _).mono
      (fun _ _ h => ⟨trans_of Daemon.Quiet hquiet h.1.toQuiet, .inr h.2⟩)
      fun _ _ h => trans_of Daemon.Quiet hquiet h.toQuiet
    exact ⟨rfl, rfl, rfl⟩

/-- What is on the board after a claim and a launch, the claim put there. -/
theorem after_claimAndLaunch (entry : DispatchQueueEntry) (task : Task) :
    After (claimAndLaunch entry task) daemon
      (fun fate daemon' =>
        daemon'.disk.board = (endState (claimTask entry.engineer task) daemon.disk).board ∧
          (fate = .delivered task ∨ entry.Fails fate))
      (fun _ daemon' =>
        daemon'.disk.board = (endState (claimTask entry.engineer task) daemon.disk).board) := by
  rw [claimAndLaunch, after_bind, after_onDisk]
  refine (after_run _ daemon.disk).mono (fun result disk hclaim => ?_) fun error disk hclaim => ?_
  · rw [endState_of_returns hclaim]
    cases result with
    | error error =>
      refine (after_retainOrEscalate entry ?_ _).mono (fun _ _ h => ⟨h.1.board, .inr h.2⟩)
        fun _ _ h => h.board
      exact ⟨rfl, rfl, rfl⟩
    | ok _ =>
      exact (after_launchTask entry task).mono (fun _ _ h => ⟨h.1.board, h.2⟩) fun _ _ h => h.board
  · rw [endState_of_fails hclaim]

/-- The entry, which is not out of date, was handed on to the engineer who could take it. -/
structure Daemon.PassesOn (daemon : Daemon) (benched : List String) (rescued : List Nat)
    (retained : List DispatchQueueEntry) (entry entry' : DispatchQueueEntry) : Prop where
  taskId : entry'.taskId = entry.taskId
  unrescued : entry.taskId ∉ rescued
  unbenched : entry.engineer ∉ benched
  alternative : daemon.Alternative retained entry entry'.engineer

theorem Daemon.Alternative.unretained {name : String} (h : daemon.Alternative retained entry name) :
    name ∉ retained.map DispatchQueueEntry.engineer := by
  obtain ⟨-, before, after, hnames, -⟩ := h.first
  have hmem : name ∈ before ++ name :: after := by simp
  rw [← hnames, List.mem_filter] at hmem
  simp only [Bool.and_eq_true, Bool.not_eq_true', List.contains_eq_mem,
    decide_eq_false_iff_not] at hmem
  exact hmem.2.2

theorem DispatchQueueEntry.Fails.kept {fate : EntryFate} (h : entry.Fails fate) :
    ∀ entry' ∈ fate.kept, entry.Same entry' := by
  cases h with
  | retained hsame => simpa [EntryFate.kept] using hsame
  | escalated _ _ => simp [EntryFate.kept]

theorem EntryExamined.kept {fate : EntryFate}
    (h : EntryExamined benched rescued retained entry daemon (.settled fate) daemon') :
    ∀ entry' ∈ fate.kept,
      entry.Same entry' ∨ daemon.PassesOn benched rescued retained entry entry' := by
  cases h with
  | stale _ _ | rescued _ _ | releaseExcluded _ _ | benched _ _ => simp [EntryFate.kept]
  | current hrescued hbenched _ _ hexamined =>
    cases hexamined with
    | stale _ _ | alreadyInProgress _ _ _ _ _ | unmetBodyDependencies _ _ _ _
    | everyoneBusy _ _ _ _ _ | escalated _ _ _ => simp [EntryFate.kept]
    | held _ => simp [EntryFate.kept, DispatchQueueEntry.Same]
    | retained _ hsame => simpa [EntryFate.kept] using .inl hsame
    | passedOn _ halternative =>
      simp only [EntryFate.kept, List.mem_singleton, forall_eq]
      exact .inr ⟨rfl, hrescued, hbenched, halternative⟩

/-- **What is kept of an entry** is the entry, or the entry handed on. -/
theorem after_handleEntry_kept : After (handleEntry benched rescued retained entry) daemon
    (fun fate _ => ∀ entry' ∈ fate.kept,
      entry.Same entry' ∨ daemon.PassesOn benched rescued retained entry entry')
    (fun _ _ => True) := by
  rw [handleEntry, after_bind]
  refine (after_examineEntry benched rescued).mono (fun verdict mid hexamined => ?_) fun _ _ _ => trivial
  cases verdict with
  | settled fate => exact hexamined.kept
  | admitted task =>
    refine (after_claimAndLaunch entry task).mono ?_ fun _ _ _ => trivial
    rintro fate daemon' ⟨-, rfl | hfails⟩
    · simp [EntryFate.kept]
    · exact fun entry' hmem => .inl (hfails.kept entry' hmem)

/-- A round that returns keeps what the entry's fate says. -/
theorem drainEntry_returns_iff {kept : List DispatchQueueEntry} :
    drainEntry benched rescued retained entry mid = .ok kept daemon' ↔
      ∃ fate, handleEntry benched rescued retained entry mid = .ok fate daemon' ∧
        kept = retained ++ fate.kept := by
  rw [drainEntry, returns_bind_iff]
  simp only [pure, EStateM.pure, EStateM.Result.ok.injEq]
  constructor
  · rintro ⟨fate, last, hhandled, rfl, rfl⟩
    exact ⟨fate, hhandled, rfl⟩
  · rintro ⟨fate, hhandled, rfl⟩
    exact ⟨fate, daemon', hhandled, rfl, rfl⟩

theorem drainEntry_fails_iff {error : String} :
    drainEntry benched rescued retained entry mid = .error error daemon' ↔
      handleEntry benched rescued retained entry mid = .error error daemon' := by
  rw [drainEntry, fails_bind_iff]
  simp [pure, EStateM.pure]

/-! ### The points of a pass -/

/-- The pass from `daemon` comes to a point where `pending` is left of its queue, `retained` is to
be kept and the daemon is `mid`; it knows which engineers are benched and which tasks are in
their rescue cooldown. -/
def Daemon.Reaches (daemon : Daemon) (benched : List String) (rescued : List Nat)
    (pending retained : List DispatchQueueEntry) (mid : Daemon) : Prop :=
  ∃ start, preparePass daemon = .ok (benched, rescued) start ∧
    Visits (drainEntry benched rescued) daemon.dispatchQueue []
      { start with dispatchQueue := [] } pending retained mid

theorem preparePass_onward {start : Daemon} {prepared : List String × List Nat}
    (h : preparePass daemon = .ok prepared start) : daemon.Onward start :=
  (after_of_returns h).mp (moves_preparePass daemon)

/-- **Invariants of a pass.** -/
theorem Daemon.Reaches.invariant
    {I : List DispatchQueueEntry → List DispatchQueueEntry → Daemon → Prop}
    (h : daemon.Reaches benched rescued pending retained mid)
    (hstart : ∀ start, preparePass daemon = .ok (benched, rescued) start →
      I daemon.dispatchQueue [] { start with dispatchQueue := [] })
    (hround : ∀ {entry pending retained mid fate daemon'},
      daemon.Reaches benched rescued (entry :: pending) retained mid →
      I (entry :: pending) retained mid →
      handleEntry benched rescued retained entry mid = .ok fate daemon' →
      I pending (retained ++ fate.kept) daemon') : I pending retained mid := by
  obtain ⟨start, hprepare, hvisits⟩ := h
  refine hvisits.invariant (hstart start hprepare) fun hvisit hinvariant hbody => ?_
  obtain ⟨fate, hhandled, rfl⟩ := drainEntry_returns_iff.mp hbody
  exact hround ⟨start, hprepare, hvisit⟩ hinvariant hhandled

/-- From the taking of the queue on, only what `Stays` allows has changed. -/
theorem Daemon.Reaches.stays (h : daemon.Reaches benched rescued pending retained mid) :
    ∃ start, preparePass daemon = .ok (benched, rescued) start ∧
      Daemon.Stays { start with dispatchQueue := [] } mid := by
  obtain ⟨start, hprepare, hvisits⟩ := h
  refine ⟨start, hprepare, hvisits.invariant
    (I := fun _ _ mid => Daemon.Stays { start with dispatchQueue := [] } mid)
    (refl_of Daemon.Stays _) fun _ hstays hbody => ?_⟩
  exact trans_of Daemon.Stays hstays ((after_of_returns hbody).mp (moves_drainEntry _ _ _ _ _))

/-- While the entries are gone through, the daemon's queue is empty. -/
theorem Daemon.Reaches.dispatchQueue_eq_nil
    (h : daemon.Reaches benched rescued pending retained mid) : mid.dispatchQueue = [] := by
  refine h.invariant (I := fun _ _ mid => mid.dispatchQueue = []) (fun _ _ => rfl) ?_
  intro entry pending retained mid fate daemon' _ hempty hhandled
  have hstays := (after_of_returns hhandled).mp (moves_handleEntry _ _ _ _ mid)
  rw [hstays.dispatchQueue, hempty]

theorem takeQueue_returns_iff {start : Daemon} {taken : List DispatchQueueEntry} :
    takeQueue start = .ok taken mid ↔
      taken = start.dispatchQueue ∧ mid = { start with dispatchQueue := [] } := by
  simp only [takeQueue, returns_bind_iff]
  constructor
  · rintro ⟨_, _, ⟨⟩, _, _, ⟨⟩, ⟨⟩⟩
    exact ⟨rfl, rfl⟩
  · rintro ⟨rfl, rfl⟩
    exact ⟨_, _, rfl, _, _, rfl, rfl⟩

/-- A pass returns when it comes to the end of the queue, and puts back what it retained. -/
theorem processDispatchQueue_returns_iff : processDispatchQueue daemon = .ok () daemon' ↔
    ∃ benched rescued retained mid, daemon.Reaches benched rescued [] retained mid ∧
      daemon' = { mid with dispatchQueue := retained } := by
  rw [processDispatchQueue, returns_bind_iff]
  constructor
  · rintro ⟨⟨benched, rescued⟩, start, hprepare, h⟩
    obtain ⟨pending, taken, htake, h⟩ := returns_bind_iff.mp h
    obtain ⟨rfl, rfl⟩ := takeQueue_returns_iff.mp htake
    obtain ⟨retained, mid, hloop, hput⟩ := returns_bind_iff.mp h
    rw [(preparePass_onward hprepare).dispatchQueue] at hloop
    refine ⟨benched, rescued, retained, mid, ⟨start, hprepare, foldlM_returns_iff.mp hloop⟩, ?_⟩
    cases hput
    rfl
  · rintro ⟨benched, rescued, retained, mid, ⟨start, hprepare, hvisits⟩, rfl⟩
    refine ⟨(benched, rescued), start, hprepare, ?_⟩
    rw [returns_bind_iff]
    refine ⟨_, _, takeQueue_returns_iff.mpr ⟨rfl, rfl⟩, ?_⟩
    rw [returns_bind_iff, (preparePass_onward hprepare).dispatchQueue]
    exact ⟨retained, mid, foldlM_returns_iff.mpr hvisits, rfl⟩

/-- A pass fails before it takes the queue, or where the handling of an entry fails. -/
theorem processDispatchQueue_fails_iff {error : String} :
    processDispatchQueue daemon = .error error daemon' ↔
      preparePass daemon = .error error daemon' ∨
        ∃ benched rescued entry pending retained mid,
          daemon.Reaches benched rescued (entry :: pending) retained mid ∧
            handleEntry benched rescued retained entry mid = .error error daemon' := by
  rw [processDispatchQueue, fails_bind_iff]
  refine or_congr Iff.rfl ?_
  constructor
  · rintro ⟨⟨benched, rescued⟩, start, hprepare, h⟩
    rcases fails_bind_iff.mp h with htake | ⟨pending, taken, htake, h⟩
    · cases htake
    obtain ⟨rfl, rfl⟩ := takeQueue_returns_iff.mp htake
    rcases fails_bind_iff.mp h with hloop | ⟨retained, mid, -, hput⟩
    · obtain ⟨entry, pending, retained, mid, hvisits, hbody⟩ := foldlM_fails_iff.mp hloop
      rw [(preparePass_onward hprepare).dispatchQueue] at hvisits
      exact ⟨benched, rescued, entry, pending, retained, mid, ⟨start, hprepare, hvisits⟩,
        drainEntry_fails_iff.mp hbody⟩
    · cases hput
  · rintro ⟨benched, rescued, entry, pending, retained, mid, ⟨start, hprepare, hvisits⟩, hbody⟩
    refine ⟨(benched, rescued), start, hprepare, fails_bind_iff.mpr (.inr ?_)⟩
    refine ⟨_, _, takeQueue_returns_iff.mpr ⟨rfl, rfl⟩, fails_bind_iff.mpr (.inl ?_)⟩
    rw [(preparePass_onward hprepare).dispatchQueue]
    exact foldlM_fails_iff.mpr ⟨entry, pending, retained, mid, hvisits,
      drainEntry_fails_iff.mpr hbody⟩

/-! ### Passes that fail -/

/-- The handling of an entry fails at a point of the pass. -/
def Daemon.FailsAt (daemon : Daemon) (pending retained : List DispatchQueueEntry)
    (daemon' : Daemon) : Prop :=
  ∃ benched rescued entry mid error,
    daemon.Reaches benched rescued (entry :: pending) retained mid ∧
      handleEntry benched rescued retained entry mid = .error error daemon'

/-- The pass that fails in the handling of an entry ends there, with an empty queue. -/
theorem Daemon.FailsAt.ends (h : daemon.FailsAt pending retained daemon') :
    endState processDispatchQueue daemon = daemon' ∧ daemon'.dispatchQueue = [] := by
  obtain ⟨benched, rescued, entry, mid, error, hreaches, hfails⟩ := h
  constructor
  · have hpass := processDispatchQueue_fails_iff.mpr
      (.inr ⟨benched, rescued, entry, pending, retained, mid, hreaches, hfails⟩)
    rw [endState, hpass]
  · have hstays := (after_of_fails hfails).mp (moves_handleEntry _ _ _ _ mid)
    rw [hstays.dispatchQueue, hreaches.dispatchQueue_eq_nil]

/-- The queue is empty then, so that the others are kept only if there are none. -/
theorem Daemon.FailsAt.sublist_iff (h : daemon.FailsAt pending retained daemon') :
    (retained ++ pending).Sublist (endState processDispatchQueue daemon).dispatchQueue ↔
      retained = [] ∧ pending = [] := by
  obtain ⟨hend, hqueue⟩ := h.ends
  rw [hend, hqueue, List.sublist_nil, List.append_eq_nil_iff]

/-- A pass that fails in the handling of an entry keeps the others, in order: those it retained
and those it did not come to. -/
def KeepsOthers (daemon : Daemon) : Prop :=
  ∀ pending retained daemon', daemon.FailsAt pending retained daemon' →
    (retained ++ pending).Sublist (endState processDispatchQueue daemon).dispatchQueue

/-- The handling of an entry fails only when nothing is retained and nothing is pending. -/
def FailsAlone (daemon : Daemon) : Prop :=
  ∀ pending retained daemon', daemon.FailsAt pending retained daemon' →
    retained = [] ∧ pending = []

/-- An error in the handling of an entry costs every other entry its place. -/
theorem keepsOthers_iff_failsAlone (daemon : Daemon) : KeepsOthers daemon ↔ FailsAlone daemon :=
  forall_congr' fun _ => forall_congr' fun _ => forall₂_congr fun _ h => h.sublist_iff

/-- An error before the queue is taken leaves it as it is. -/
theorem dispatchQueue_of_preparePass_fails {error : String}
    (h : preparePass daemon = .error error daemon') :
    (endState processDispatchQueue daemon).dispatchQueue = daemon.dispatchQueue := by
  have hpass := processDispatchQueue_fails_iff.mpr (.inl h)
  rw [endState, hpass]
  exact ((after_of_fails h).mp (moves_preparePass daemon)).dispatchQueue

/-- A pass ends with the queue it began with, with none if the handling of an entry failed, or with
what it retained. -/
theorem dispatchQueue_processDispatchQueue (daemon : Daemon) :
    (endState processDispatchQueue daemon).dispatchQueue = daemon.dispatchQueue ∨
      ((∃ pending retained daemon', daemon.FailsAt pending retained daemon') ∧
        (endState processDispatchQueue daemon).dispatchQueue = []) ∨
      ∃ benched rescued retained mid, daemon.Reaches benched rescued [] retained mid ∧
        (endState processDispatchQueue daemon).dispatchQueue = retained := by
  rcases hrun : processDispatchQueue daemon with ⟨⟨⟩, daemon'⟩ | ⟨error, daemon'⟩
  · obtain ⟨benched, rescued, retained, mid, hreaches, rfl⟩ :=
      processDispatchQueue_returns_iff.mp hrun
    rw [endState_of_returns hrun]
    exact .inr (.inr ⟨benched, rescued, retained, mid, hreaches, rfl⟩)
  · rcases processDispatchQueue_fails_iff.mp hrun with hprepare | ⟨_, _, _, _, _, _, hreaches, hfails⟩
    · exact .inl (dispatchQueue_of_preparePass_fails hprepare)
    · have hfailsAt : daemon.FailsAt _ _ daemon' := ⟨_, _, _, _, _, hreaches, hfails⟩
      obtain ⟨hend, hqueue⟩ := hfailsAt.ends
      exact .inr (.inl ⟨⟨_, _, daemon', hfailsAt⟩, hend ▸ hqueue⟩)

/-! ### A board that cannot be read once -/

/-- An outside in which nothing goes wrong: the clock reads `time`, every launch succeeds and the
worktrees are clean. -/
def calmOutside (time : Nat) : Outside where
  clock := OrderHom.const ℕ time
  calendar _ := { instantOf := fun _ => none, now := 0 }
  unixTime _ := 0
  tasksDirExists _ := true
  benchedEngineers _ := .ok []
  deliver _ _ := .ok ()
  launch _ _ _ := .ok ()
  taskFileAgeSecs _ _ := none
  loadEngineerProfiles _ := .ok fun _ => none
  declaredFiles _ := some []
  predictedFiles _ _ := []
  digest _ := 0
  worktreeDir name := name
  worktreeExists _ _ := true
  currentBranch _ _ := .ok "main"
  quarantine _ _ _ := .ok ()
  hasUserChanges _ _ := .ok false
  autoSave _ _ := .ok true
  branchExists _ _ := .ok true
  checkout _ _ _ := .ok ()
  readyForDispatch _ _ := .ok ()
  hasWork _ _ := false
  rebase _ _ := true
  resetIfClean _ _ := .ok (true, "")

/-- A team of engineers without worktrees. -/
def plainTeam (names : List String) : TeamConfig where
  members := names.map fun name =>
    { name, roleName := "engineer", roleType := .engineer, reportsTo := none, useWorktrees := false }
  isGitRepo := false
  isMultiRepo := false
  roles := [(.engineer, false)]

def emptyDisk : Disk where
  board := { files := [], nodup := List.nodup_nil }
  tasksDir := "tasks"
  stamp := ""
  faults := fun _ => false

/-- A file with a task of the given status, claimed or not. -/
def plainFile (name : String) (id : Int) (status : String) (claimedBy : Option String) : TaskFile where
  name := name
  fenceNewline := true
  frontmatter := .ofList <| [(.id, .number id), (.title, .string name), (.status, .string status)] ++
    (claimedBy.map fun engineer => (Key.claimedBy, Value.string engineer)).toList
  body := ""

/-- Two idle engineers, with nothing to hold back a dispatch. -/
def openDaemon (files : List TaskFile) (hfiles : (files.map TaskFile.name).Nodup) : Daemon where
  config := plainTeam ["eng-1", "eng-2"]
  disk := { emptyDisk with board := { files, nodup := hfiles } }
  outside := calmOutside (fromSecs 100)
  states := fun _ => some .idle
  idleStartedAt := fun _ => some 0

/-- Two entries are queued, and the second time the board is read it cannot be. -/
def faultyDaemon : Daemon where
  config := plainTeam ["eng-1", "eng-2"]
  disk := { emptyDisk with faults := (· = 1) }
  outside := calmOutside 0
  dispatchQueue := [
    { engineer := "eng-1", taskId := 7, taskTitle := "parser" },
    { engineer := "eng-2", taskId := 8, taskTitle := "printer" }]

/-- The first entry fails and the second is gone. -/
theorem not_keepsOthers_faultyDaemon : ¬ KeepsOthers faultyDaemon := by
  have hpass : After preparePass faultyDaemon (fun prepared start => prepared = ([], []) ∧
      After (handleEntry [] [] [] { engineer := "eng-1", taskId := 7, taskTitle := "parser" })
        { start with dispatchQueue := [] } (fun _ _ => False) (fun _ _ => True))
      (fun _ _ => False) := by decide +kernel
  obtain ⟨_, start, hprepare, rfl, hhandle⟩ := returns_of_after hpass
  obtain ⟨error, daemon', hfails, -⟩ := fails_of_after hhandle
  have hfailsAt : faultyDaemon.FailsAt
      [{ engineer := "eng-2", taskId := 8, taskTitle := "printer" }] [] daemon' :=
    ⟨[], [], _, _, error, ⟨start, hprepare, .start⟩, hfails⟩
  intro h
  obtain ⟨-, hpending⟩ := hfailsAt.sublist_iff.mp (h _ _ _ hfailsAt)
  cases hpending

end Batty
