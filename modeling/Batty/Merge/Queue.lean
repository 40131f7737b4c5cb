import Batty.Foundation.Fallible

/-!
# The merge queue

Engineers' branches are merged one at a time: finished work is put in a first-in first-out
queue of `MergeRequest`s, and each tick of the daemon hands at most the head to
`executeQueuedMerge`. The queue lives in the daemon, and the execution of a merge has the
whole daemon at hand, so `processMergeQueue` moves the queue out of the daemon
(`mergeQueue := {}`) before the execution and writes it back afterwards.

**What a pass leaves in the queue** is `queue_processMergeQueue`. The write-back stands only
on the success path, behind the `?` on the execution, and it overwrites the daemon's queue
instead of merging with it. So a failed execution drops everything behind the head, and a
successful one drops everything enqueued while it ran (`losesNothing_iff`).
-/

namespace Batty

/-- A finished branch waiting to be merged. Of the source's fields, those the queue reads. -/
structure MergeRequest where
  taskId : Nat
  engineer : String
  branch : String
deriving DecidableEq

/-- What came of a request. -/
inductive MergeQueueOutcome where
  | success
  | conflict
  | reverted
  | skipped
  | failed
deriving DecidableEq

/-- The event of a request that was executed. -/
structure MergeQueueEvent where
  taskId : Nat
  engineer : String
  outcome : MergeQueueOutcome

/-- The last finished merge; `finishedAt` is a reading of the monotonic clock in nanoseconds. -/
structure MergeQueueLastResult where
  taskId : Nat
  outcome : MergeQueueOutcome
  finishedAt : Nat

/-- The requests, and the one that is being executed. -/
structure MergeQueue where
  queue : List MergeRequest := []
  active : Option MergeRequest := none
  lastResult : Option MergeQueueLastResult := none
  lastReportedStatus : Option String := none

/-- The daemon as the merge queue sees it: the queue, the fields read here, and the rest of
its state, which only the execution of a merge touches. -/
structure MergeDaemon (σ : Type) where
  mergeQueue : MergeQueue
  isMultiRepo : Bool
  now : Nat
  orchestratorActions : List String
  rest : σ

variable {σ : Type}

/-- A step of the daemon: it mutates the daemon and may fail with an error text. -/
abbrev MergeAction (σ α : Type) := EStateM String (MergeDaemon σ) α

/-! ### The queue -/

def MergeQueue.enqueue (mergeQueue : MergeQueue) (request : MergeRequest) : MergeQueue :=
  { mergeQueue with queue := mergeQueue.queue ++ [request] }

/-- Hand the head of the queue to the processor, unless a request is still active. The queue
comes back beside the processor's error, as the `&mut self` of the source does. -/
def MergeQueue.processNext (processor : MergeRequest → MergeAction σ MergeQueueOutcome)
    (mergeQueue : MergeQueue) :
    MergeAction σ (MergeQueue × Except String (Option MergeQueueEvent)) :=
  if mergeQueue.active.isSome then
    pure (mergeQueue, .ok none)
  else
    match mergeQueue.queue with
    | [] => pure (mergeQueue, .ok none)
    | request :: queue => do
      let mergeQueue := { mergeQueue with queue, active := some request }
      match ← attempt (processor request) with
      | .error error => pure ({ mergeQueue with active := none }, .error error)
      | .ok outcome =>
        let finishedAt := (← get).now
        let lastResult := some ⟨request.taskId, outcome, finishedAt⟩
        pure ({ mergeQueue with active := none, lastResult },
          .ok (some ⟨request.taskId, request.engineer, outcome⟩))

def MergeQueueOutcome.lastText : MergeQueueOutcome → String
  | success => "merged"
  | conflict => "conflicted"
  | reverted => "reverted"
  | skipped => "skipped"
  | failed => "failed"

/-- The one-line status shown to operators; nothing to say while the queue was never used. -/
def MergeQueue.statusLine (mergeQueue : MergeQueue) (now : Nat) : Option String :=
  if mergeQueue.queue.isEmpty && mergeQueue.active.isNone && mergeQueue.lastResult.isNone then
    none
  else
    let queued := mergeQueue.queue.length
    let merging := match mergeQueue.active with
      | some request => s!"#{request.taskId} ({request.branch})"
      | none => "idle"
    let last := match mergeQueue.lastResult with
      | some result =>
        s!"#{result.taskId} {result.outcome.lastText} {(now - result.finishedAt) / 1000000000}s ago"
      | none => "none"
    some s!"[merge] queued: {queued} | merging: {merging} | last: {last}"

/-- The status line, if it differs from the one reported last. -/
def MergeQueue.takeStatusUpdate (mergeQueue : MergeQueue) (now : Nat) :
    MergeQueue × Option String :=
  match mergeQueue.statusLine now with
  | none => (mergeQueue, none)
  | some status =>
    if mergeQueue.lastReportedStatus = some status then (mergeQueue, none)
    else ({ mergeQueue with lastReportedStatus := some status }, some status)

@[simp] theorem MergeQueue.queue_takeStatusUpdate (mergeQueue : MergeQueue) (now : Nat) :
    (mergeQueue.takeStatusUpdate now).1.queue = mergeQueue.queue := by
  unfold takeStatusUpdate
  split
  · rfl
  · split <;> rfl

/-! ### The daemon's side -/

def recordOrchestratorAction (action : String) : MergeAction σ Unit :=
  modify fun daemon =>
    { daemon with orchestratorActions := daemon.orchestratorActions ++ [action] }

/-- Report a status update, if there is one. -/
def reportStatus : Option String → MergeAction σ Unit
  | some status => recordOrchestratorAction status
  | none => pure ()

@[simp] theorem after_reportStatus (status : Option String) (daemon : MergeDaemon σ)
    {Q : Unit → MergeDaemon σ → Prop} {E : String → MergeDaemon σ → Prop} :
    After (reportStatus status) daemon Q E ↔
      Q () { daemon with orchestratorActions := daemon.orchestratorActions ++ status.toList } := by
  cases status with
  | none => simp [reportStatus]
  | some status => exact Iff.rfl

def enqueueMergeRequest (request : MergeRequest) : MergeAction σ Unit :=
  modify fun daemon => { daemon with mergeQueue := daemon.mergeQueue.enqueue request }

/-- The daemon with its queue moved out, as an execution finds it. -/
def MergeDaemon.taken (daemon : MergeDaemon σ) : MergeDaemon σ :=
  { daemon with mergeQueue := {} }

/-- One tick of the merge queue. -/
def processMergeQueue (executeQueuedMerge : MergeRequest → MergeAction σ MergeQueueOutcome) :
    MergeAction σ Unit := do
  let mergeQueue := (← get).mergeQueue
  modify MergeDaemon.taken
  let (mergeQueue, event) ← mergeQueue.processNext executeQueuedMerge
  -- with an error the moved-out queue is dropped
  let _ ← orFail event
  let (mergeQueue, status) := mergeQueue.takeStatusUpdate (← get).now
  reportStatus status
  modify fun daemon => { daemon with mergeQueue }

/-- What one execution of a merge does: the requests it enqueues, what it makes of the rest of
the daemon, and how it ends. -/
structure Execution (σ : Type) where
  enqueued : List MergeRequest
  now : Nat
  orchestratorActions : List String
  rest : σ
  result : Except String MergeQueueOutcome

/-- Any behaviour an execution can show, given the request and the daemon at its start. -/
abbrev Executor (σ : Type) := MergeRequest → MergeDaemon σ → Execution σ

/-- The daemon after an execution: the merge queue is touched by enqueueing only. -/
def Execution.applyTo (execution : Execution σ) (daemon : MergeDaemon σ) : MergeDaemon σ :=
  { mergeQueue := execution.enqueued.foldl MergeQueue.enqueue daemon.mergeQueue
    isMultiRepo := daemon.isMultiRepo
    now := execution.now
    orchestratorActions := execution.orchestratorActions
    rest := execution.rest }

/-- The execution as a step of the daemon. -/
def Executor.run (executor : Executor σ) (request : MergeRequest) :
    MergeAction σ MergeQueueOutcome := do
  let daemon ← get
  set ((executor request daemon).applyTo daemon)
  orFail (executor request daemon).result

/-- The guard in front of every merge: a multi-repo project has no merge queue execution, and
the request fails before anything else happens. `merge` is the single-repo merge. -/
def executeQueuedMerge (merge : Executor σ) : Executor σ := fun request daemon =>
  if daemon.isMultiRepo then
    { enqueued := []
      now := daemon.now
      orchestratorActions := daemon.orchestratorActions
      rest := daemon.rest
      result :=
        .error "merge queue execution is not yet implemented for multi-repo projects" }
  else merge request daemon

/-! ### What a pass leaves behind -/

/-- The request a pass hands to the executor. -/
def MergeDaemon.handled (daemon : MergeDaemon σ) : Option MergeRequest :=
  if daemon.mergeQueue.active.isSome then none else daemon.mergeQueue.queue.head?

/-- The execution that happens in a pass, if the pass handles a request. -/
def Executor.execution (executor : Executor σ) (daemon : MergeDaemon σ) : Option (Execution σ) :=
  daemon.handled.map fun request => executor request daemon.taken

/-- The requests enqueued while the head was being processed. -/
def Executor.enqueuedDuring (executor : Executor σ) (daemon : MergeDaemon σ) :
    List MergeRequest :=
  ((executor.execution daemon).map Execution.enqueued).getD []

theorem queue_foldl_enqueue (requests : List MergeRequest) (mergeQueue : MergeQueue) :
    (requests.foldl MergeQueue.enqueue mergeQueue).queue = mergeQueue.queue ++ requests := by
  induction requests generalizing mergeQueue with
  | nil => simp
  | cons request requests ih => simp [ih, MergeQueue.enqueue]

/-- **One pass.** Without an execution the queue is written back as it was. With one, success
writes the tail back over whatever was enqueued meanwhile, and failure leaves exactly what was
enqueued meanwhile. -/
theorem queue_processMergeQueue (executor : Executor σ) (daemon : MergeDaemon σ) :
    (endState (processMergeQueue executor.run) daemon).mergeQueue.queue =
      match executor.execution daemon with
      | none => daemon.mergeQueue.queue
      | some execution =>
        match execution.result with
        | .ok _ => daemon.mergeQueue.queue.tail
        | .error _ => execution.enqueued := by
  refine (after_iff_endState (P := fun t : MergeDaemon σ => t.mergeQueue.queue = _)).mp ?_
  simp only [processMergeQueue, after_bind, after_get, after_modify, MergeQueue.processNext,
    Executor.execution, MergeDaemon.handled]
  by_cases hactive : daemon.mergeQueue.active.isSome
  · simp [hactive]
  cases hqueue : daemon.mergeQueue.queue with
  | nil => simp [hactive, hqueue]
  | cons request queue =>
    cases hresult : (executor request daemon.taken).result with
    | ok outcome => simp [hactive, hresult, Executor.run]
    | error error =>
      have htaken : daemon.taken.mergeQueue.queue = [] := rfl
      simp [hactive, hresult, Executor.run, Execution.applyTo, queue_foldl_enqueue, htaken]

/-! ### When nothing is lost -/

/-- **The queue's promise for one pass.** Afterwards the daemon's queue contains, in order,
every request that was queued before except at most the head, and then every request enqueued
while the head was being processed. -/
def LosesNothing (executor : Executor σ) (daemon : MergeDaemon σ) : Prop :=
  (daemon.mergeQueue.queue.tail ++ executor.enqueuedDuring daemon).Sublist
    (endState (processMergeQueue executor.run) daemon).mergeQueue.queue

/-- No request is executed; or the execution succeeds and enqueues nothing; or it fails on the
only request queued. -/
def HarmlessPass (executor : Executor σ) (daemon : MergeDaemon σ) : Prop :=
  ∀ execution ∈ executor.execution daemon,
    match execution.result with
    | .ok _ => execution.enqueued = []
    | .error _ => daemon.mergeQueue.queue.tail = []

theorem losesNothing_iff_harmlessPass (executor : Executor σ) (daemon : MergeDaemon σ) :
    LosesNothing executor daemon ↔ HarmlessPass executor daemon := by
  unfold LosesNothing HarmlessPass Executor.enqueuedDuring
  rw [queue_processMergeQueue]
  cases hexecution : executor.execution daemon with
  | none => simp [List.tail_sublist]
  | some execution =>
    cases hresult : execution.result with
    | ok outcome =>
      -- only the tail is written back, so there is no room for an enqueued request
      simp only [Option.map_some, Option.getD_some, Option.mem_some_iff, forall_eq', hresult]
      refine ⟨fun h => ?_, fun h => by simp [h]⟩
      have hlength := h.length_le
      rw [List.length_append] at hlength
      exact List.eq_nil_of_length_eq_zero (by omega)
    | error error =>
      simp only [Option.map_some, Option.getD_some, Option.mem_some_iff, forall_eq', hresult]
      refine ⟨fun h => ?_, fun h => by simp [h]⟩
      have hlength := h.length_le
      rw [List.length_append] at hlength
      exact List.eq_nil_of_length_eq_zero (by omega)

/-! ### Histories -/

@[simp] theorem queue_enqueueMergeRequest (request : MergeRequest) (daemon : MergeDaemon σ) :
    (endState (enqueueMergeRequest request) daemon).mergeQueue.queue =
      daemon.mergeQueue.queue ++ [request] := rfl

/-- A history of the daemon with the requests executed and the requests enqueued in it, both in
order. Between its steps the rest of the daemon does what it likes; every pass satisfies `P`. -/
inductive MergeRun (P : Executor σ → MergeDaemon σ → Prop) (daemon : MergeDaemon σ) :
    List MergeRequest → List MergeRequest → MergeDaemon σ → Prop where
  | start : MergeRun P daemon [] [] daemon
  | enqueue {handled enqueued daemon'} (request : MergeRequest) :
      MergeRun P daemon handled enqueued daemon' →
      MergeRun P daemon handled (enqueued ++ [request])
        (endState (enqueueMergeRequest request) daemon')
  | other {handled enqueued daemon' daemon''} :
      MergeRun P daemon handled enqueued daemon' →
      daemon''.mergeQueue = daemon'.mergeQueue →
      MergeRun P daemon handled enqueued daemon''
  | pass {handled enqueued daemon'} (executor : Executor σ) :
      MergeRun P daemon handled enqueued daemon' → P executor daemon' →
      MergeRun P daemon (handled ++ daemon'.handled.toList)
        (enqueued ++ executor.enqueuedDuring daemon')
        (endState (processMergeQueue executor.run) daemon')

/-- A pass takes what it executes from the head of the queue. -/
theorem MergeDaemon.queue_eq_of_handled {daemon : MergeDaemon σ} {request : MergeRequest}
    (h : daemon.handled = some request) :
    daemon.mergeQueue.queue = request :: daemon.mergeQueue.queue.tail := by
  unfold handled at h
  split at h
  · cases h
  · exact (List.cons_head?_tail h).symm

/-- **One pass in a history.** What was executed and what is left afterwards are, in order, among
what was queued before and what was enqueued meanwhile. -/
theorem handled_append_queue_sublist (executor : Executor σ) (daemon : MergeDaemon σ) :
    (daemon.handled.toList ++
      (endState (processMergeQueue executor.run) daemon).mergeQueue.queue).Sublist
      (daemon.mergeQueue.queue ++ executor.enqueuedDuring daemon) := by
  rw [queue_processMergeQueue]
  unfold Executor.enqueuedDuring Executor.execution
  cases hhandled : daemon.handled with
  | none => simp
  | some request =>
    rw [daemon.queue_eq_of_handled hhandled]
    cases hresult : (executor request daemon.taken).result <;> simp [hresult]

/-- **No request is executed twice.** Whatever the passes do, the requests executed in a history
are, in order, distinct entries of what was queued at its start and enqueued in it. -/
theorem MergeRun.handled_append_queue_sublist {P : Executor σ → MergeDaemon σ → Prop}
    {daemon daemon' : MergeDaemon σ} {handled enqueued : List MergeRequest}
    (run : MergeRun P daemon handled enqueued daemon') :
    (handled ++ daemon'.mergeQueue.queue).Sublist (daemon.mergeQueue.queue ++ enqueued) := by
  induction run with
  | start => simp
  | enqueue request _ ih =>
    rw [queue_enqueueMergeRequest, ← List.append_assoc, ← List.append_assoc]
    exact ih.append (List.Sublist.refl _)
  | other _ hqueue ih => rwa [hqueue]
  | pass executor _ _ ih =>
    rw [List.append_assoc, ← List.append_assoc daemon.mergeQueue.queue]
    refine ((List.Sublist.refl _).append (Batty.handled_append_queue_sublist executor _)).trans ?_
    rw [← List.append_assoc]
    exact ih.append (List.Sublist.refl _)

/-! ### The promise -/

/-- **What the queue owes its callers:** the pass loses nothing, and in every history that starts
here no request is executed twice. -/
def KeepsRequests (executor : Executor σ) (daemon : MergeDaemon σ) : Prop :=
  LosesNothing executor daemon ∧
    ∀ handled enqueued daemon', MergeRun (fun _ _ => True) daemon handled enqueued daemon' →
      handled.Sublist (daemon.mergeQueue.queue ++ enqueued)

/-- The queue keeps its promise on exactly the harmless passes. -/
theorem keepsRequests_iff_harmlessPass (executor : Executor σ) (daemon : MergeDaemon σ) :
    KeepsRequests executor daemon ↔ HarmlessPass executor daemon := by
  refine ⟨fun h => (losesNothing_iff_harmlessPass executor daemon).mp h.1, fun h => ⟨?_, ?_⟩⟩
  · exact (losesNothing_iff_harmlessPass executor daemon).mpr h
  · intro handled enqueued daemon' run
    exact (List.sublist_append_left _ _).trans run.handled_append_queue_sublist

/-- Two queued requests in a multi-repo project: the guard fails the first and the second is
gone, although no merge was ever tried. -/
theorem not_keepsRequests_multiRepo :
    ¬ KeepsRequests
      (executeQueuedMerge fun _ daemon =>
        { enqueued := [], now := daemon.now, orchestratorActions := [], rest := ()
          result := .ok .success })
      { mergeQueue := { queue := [⟨7, "eng-1", "eng-1/7"⟩, ⟨8, "eng-2", "eng-2/8"⟩] }
        isMultiRepo := true
        now := 0
        orchestratorActions := []
        rest := () } := by
  intro h
  have hharmless := (losesNothing_iff_harmlessPass _ _).mp h.1
  simp [HarmlessPass, Executor.execution, MergeDaemon.handled, executeQueuedMerge,
    MergeDaemon.taken] at hharmless

end Batty
