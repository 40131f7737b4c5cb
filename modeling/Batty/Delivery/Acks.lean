import Batty.Delivery.Moves

/-!
# Answers, restarts and runs

A shim answers a message by saying that it was delivered or that it was not, and may be replaced
before it answers. This file has the events that touch messages, the restart of a shim, and the
runs in which ticks, events, restarts and new messages follow each other in any order.

**Un-acked messages.** An inbox message that waits for an answer is not sent again. The claim that
it waits for the shim it was sent to fails when that shim is replaced: its entries stay. In a run
every waiting message waits for the present shim exactly if no shim is replaced that had inbox
messages to answer (`acksAreLive_iff_restartsAnswered`).

**Duplicates.** No message is sent that waits for an answer, was suppressed in the same tick or was
acknowledged, in every run that keeps clear of the three places where nothing is checked
(`sendsClean_of_findsFresh`): an architect's batch, an acknowledged message that cannot be moved
out of `new`, and the message in flight that a restart puts back in the queue.
-/

namespace Batty

namespace Mailroom

/-! ### Answers -/

/-- The member's shim has answered: the message is settled with it, whoever it was sent to. -/
def answer (mailroom : Mailroom) (member : String) (id : MessageId) : Mailroom :=
  { mailroom with
    pendingShimAcks := mailroom.pendingShimAcks.filter fun entry => entry.1 ≠ id
    outstanding := mailroom.outstanding.filter fun sent =>
      !((mailroom.shimHandles member).any fun handle => (handle.childPid, id) = sent) }

def handleMessageDelivered (routing : InboxRouting) (mailroom : Mailroom) (member : String)
    (id : MessageId) : Mailroom :=
  match mailroom.pendingShimAcks.lookup id with
  | none => mailroom.answer member id
  | some pending =>
    pending.inboxIds.foldl (fun mailroom id => settle routing mailroom pending.recipient id)
      { mailroom.answer member id with
        acknowledged := pending.carries ++ mailroom.acknowledged }

/-- A message that failed while it was in flight leaves the shim idle. Its inbox messages are left
in `new`. -/
def handleDeliveryFailed (mailroom : Mailroom) (member : String) (id : MessageId) : Mailroom :=
  let failed := (mailroom.shimHandles member).any fun handle =>
    (handle.inFlightMessage.bind InFlightMessage.messageId) = some id
  let mailroom :=
    if failed then (mailroom.clearInFlightMessage member).applyStateChange member .idle else mailroom
  mailroom.answer member id

/-- The shim says it is ready; if it was at work, the work goes on. -/
def handleReady (routing : InboxRouting) (mailroom : Mailroom) (member : String) : Mailroom :=
  let working := (mailroom.shimHandles member).any fun handle => handle.state = .working
  let mailroom :=
    if working then mailroom
    else ((mailroom.applyStateChange member .idle).clearInFlightMessage member).setIdle member true
  drainPendingQueue routing.toRouting mailroom member

def handleStateChanged (routing : InboxRouting) (mailroom : Mailroom) (member : String)
    (target : ShimState) : Mailroom :=
  let mailroom := mailroom.applyStateChange member target
  let mailroom :=
    if target = .idle then drainPendingQueue routing.toRouting mailroom member else mailroom
  mailroom.setIdle member (target = .idle)

def handleCompletion (mailroom : Mailroom) (member : String) : Mailroom :=
  ((mailroom.applyStateChange member .idle).clearInFlightMessage member).setIdle member true

def handleShimEvent (routing : InboxRouting) (mailroom : Mailroom) (member : String) :
    ShimEvent MessageId → Mailroom
  | .ready => handleReady routing mailroom member
  | .stateChanged _ target => handleStateChanged routing mailroom member target
  | .messageDelivered id => handleMessageDelivered routing mailroom member id
  | .deliveryFailed id _ => handleDeliveryFailed mailroom member id
  | .completion _ => handleCompletion mailroom member
  | .warning _ | .error _ _ | .quotaBlocked _ | .authRequired _ => mailroom

/-! ### Restarts -/

/-- Why a shim is replaced: it crashed, or it is restarted cold for a reason. -/
inductive RestartKind where
  | crash
  | cold (reason : String)
deriving DecidableEq

/-- Why a shim is replaced. -/
inductive ShimDisconnectDisposition where
  | restartHandoff | crashRespawn | contextExhausted
deriving DecidableEq

/-- Architects and managers. -/
def isSupervisory (roles : MemberRoles) (member : String) : Bool :=
  roles member = some .architect || roles member = some .manager

def classifyShimDisconnect (roles : MemberRoles) (member : String) :
    RestartKind → ShimDisconnectDisposition
  | .crash => .crashRespawn
  | .cold reason =>
    if reason = "shim_context_exhaustion" || reason = "context_exhaustion" then .contextExhausted
    else if isSupervisory roles member then .restartHandoff
    else .crashRespawn

/-- Put the message in flight back at the head of the queue, under its id. -/
def replayOrRequeue (roles : MemberRoles) (mailroom : Mailroom) (member : String)
    (previousHandle : AgentHandle) (disposition : ShimDisconnectDisposition) : Mailroom :=
  if disposition ≠ .restartHandoff || !isSupervisory roles member then mailroom
  else
    match previousHandle.inFlightMessage with
    | none => mailroom
    | some inFlight =>
      let pending : PendingMessage := {
        sender := inFlight.sender, body := inFlight.body, messageId := inFlight.messageId
        carries := inFlight.carries }
      { mailroom with
        pendingDeliveryQueue := Function.update mailroom.pendingDeliveryQueue member
          (pending :: mailroom.pendingDeliveryQueue member) }

/-- A new shim in the place of the member's present one. -/
def restartShim (roles : MemberRoles) (kind : RestartKind) (mailroom : Mailroom) (member : String) :
    Mailroom :=
  match mailroom.shimHandles member with
  | none => mailroom
  | some previousHandle =>
    let mailroom := replayOrRequeue roles mailroom member previousHandle
      (classifyShimDisconnect roles member kind)
    let mailroom := { mailroom.setHandle member
        { childPid := mailroom.spawned, state := .starting, inFlightMessage := none } with
      spawned := mailroom.spawned + 1 }
    if kind = .crash then mailroom else mailroom.setIdle member true

end Mailroom

open Mailroom

/-! ### Runs -/

/-- What happens to the mailroom. -/
inductive MailStep where
  | tick (routing : InboxRouting)
  | event (routing : InboxRouting) (member : String) (said : ShimEvent MessageId)
  | restart (kind : RestartKind) (member : String)
  /-- Somebody puts a message in an inbox. -/
  | arrival (routing : InboxRouting) (sender recipient body : String) (msgType : MessageType)
  /-- The daemon has something to say itself. -/
  | message (routing : InboxRouting) (sender recipient body : String)

def MailStep.run (roles : MemberRoles) (mailroom : Mailroom) : MailStep → Mailroom
  | .tick routing => deliverInboxMessages routing roles mailroom
  | .event routing member said => handleShimEvent routing mailroom member said
  | .restart kind member => restartShim roles kind mailroom member
  | .arrival routing sender recipient body msgType =>
    deliverToInbox routing.toRouting mailroom sender recipient body msgType
  | .message routing sender recipient body =>
    deliverMessage routing.toRouting mailroom sender recipient body

/-- The states of the mailroom in a run. -/
def mailroomsThrough (roles : MemberRoles) (mailroom : Mailroom) : List MailStep → List Mailroom
  | [] => [mailroom]
  | step :: steps => mailroom :: mailroomsThrough roles (step.run roles mailroom) steps

/-- The mailroom when the daemon starts: nothing has been sent, and the inboxes are as they were
left. -/
structure Mailroom.Opened (mailroom : Mailroom) : Prop where
  acks : mailroom.pendingShimAcks = []
  queue : ∀ member, mailroom.pendingDeliveryQueue member = []
  wire : mailroom.wire = []
  outstanding : mailroom.outstanding = []
  acknowledged : mailroom.acknowledged = []
  spawned : ∀ member handle, mailroom.shimHandles member = some handle →
    handle.childPid < mailroom.spawned
  filed : ∀ message ∈ mailroom.inbox, message.id < mailroom.filed
  nodup : (mailroom.inbox.map InboxMessage.id).Nodup

/-! ### Un-acked messages -/

/-- Every inbox message that waits for an answer was sent to its member's present shim, which has
not answered yet. -/
def Mailroom.AcksAreLive (mailroom : Mailroom) : Prop :=
  ∀ entry ∈ mailroom.pendingShimAcks, ∀ id ∈ entry.2.inboxIds,
    ∃ handle, mailroom.shimHandles entry.2.recipient = some handle ∧
      (handle.childPid, entry.1) ∈ mailroom.outstanding

/-- Processes are told apart by numbers that are given out once. -/
structure Mailroom.Numbered (mailroom : Mailroom) : Prop where
  handles : ∀ member handle, mailroom.shimHandles member = some handle →
    handle.childPid < mailroom.spawned
  outstanding : ∀ sent ∈ mailroom.outstanding, sent.1 < mailroom.spawned

/-- The shim has no inbox message to answer. -/
def Mailroom.Answered (mailroom : Mailroom) (member : String) : Prop :=
  ∀ entry ∈ mailroom.pendingShimAcks, entry.2.recipient = member → entry.2.inboxIds = []

/-- If the step replaces a shim, it has answered every inbox message it was sent. -/
def MailStep.RestartAnswered (mailroom : Mailroom) : MailStep → Prop
  | .restart _ member => (mailroom.shimHandles member).isSome → mailroom.Answered member
  | _ => True

def RestartsAnswered (roles : MemberRoles) (mailroom : Mailroom) : List MailStep → Prop
  | [] => True
  | step :: steps =>
    step.RestartAnswered mailroom ∧ RestartsAnswered roles (step.run roles mailroom) steps

/-- Nothing is known of a message that is sent. -/
def sendsAny (_ : Mailroom) (_ : PendingShimAck) : Prop := True

def waitsAny (_ : List Nat) : Prop := True

section

variable {mailroom mailroom' : Mailroom}

/-- The two facts go along with every move. -/
theorem live_of_move (h : Move sendsAny waitsAny mailroom mailroom')
    (hlive : mailroom.AcksAreLive ∧ mailroom.Numbered) :
    mailroom'.AcksAreLive ∧ mailroom'.Numbered := by
  obtain ⟨hacks, hnumbered⟩ := hlive
  cases h with
  | @handle member handle handle' hhandle hpid =>
    have hsame : ∀ other one, mailroom.shimHandles other = some one → ∃ two,
        (mailroom.setHandle member handle').shimHandles other = some two ∧
          two.childPid = one.childPid := by
      intro other one hone
      by_cases hother : other = member
      · subst hother
        obtain rfl := Option.some.inj (hhandle.symm.trans hone)
        exact ⟨handle', Function.update_self .., hpid⟩
      · exact ⟨one, (Function.update_of_ne hother ..).trans hone, rfl⟩
    refine ⟨fun entry hentry id hid => ?_, ?_, hnumbered.outstanding⟩
    · obtain ⟨one, hone, hsent⟩ := hacks entry hentry id hid
      obtain ⟨two, htwo, hpid'⟩ := hsame _ _ hone
      exact ⟨two, htwo, hpid' ▸ hsent⟩
    · intro other one hone
      by_cases hother : other = member
      · subst hother
        obtain rfl : handle' = one := by simpa [setHandle] using hone
        rw [hpid]
        exact hnumbered.handles _ _ hhandle
      · exact hnumbered.handles _ _ ((Function.update_of_ne hother ..).symm.trans hone)
  | @send handle messageId pending hhandle =>
    refine ⟨fun entry hentry id hid => ?_, hnumbered.handles, ?_⟩
    · rcases List.mem_cons.mp hentry with rfl | hentry
      · exact ⟨handle, hhandle, List.mem_cons_self⟩
      · obtain ⟨one, hone, hsent⟩ := hacks entry (List.mem_filter.mp hentry).1 id hid
        exact ⟨one, hone, List.mem_cons_of_mem _ hsent⟩
    · intro sent hsent
      rcases List.mem_cons.mp hsent with rfl | hsent
      · exact hnumbered.handles _ _ hhandle
      · exact hnumbered.outstanding _ hsent
  | _ => exact ⟨hacks, hnumbered.handles, hnumbered.outstanding⟩

theorem live_of_moved (h : Moved sendsAny waitsAny mailroom mailroom')
    (hlive : mailroom.AcksAreLive ∧ mailroom.Numbered) :
    mailroom'.AcksAreLive ∧ mailroom'.Numbered := by
  induction h with
  | refl => exact hlive
  | tail _ hmove ih => exact live_of_move hmove ih

theorem live_of_settled (h : Settled mailroom mailroom')
    (hlive : mailroom.AcksAreLive ∧ mailroom.Numbered) :
    mailroom'.AcksAreLive ∧ mailroom'.Numbered := by
  obtain ⟨inbox, suppressed, -, rfl⟩ := h
  exact ⟨hlive.1, hlive.2.handles, hlive.2.outstanding⟩

theorem live_deliverToMember (routing : InboxRouting) (roles : MemberRoles) (member : String)
    (hlive : mailroom.AcksAreLive ∧ mailroom.Numbered) :
    (deliverToMember routing roles mailroom member).AcksAreLive ∧
      (deliverToMember routing roles mailroom member).Numbered := by
  unfold deliverToMember
  split
  · exact hlive
  · dsimp only
    split
    · exact hlive
    · have hdelivers : ∃ start, Settled mailroom start ∧ Moved sendsAny waitsAny start
          (deliverMessages routing roles member (mailroom.pendingMessages member) mailroom) :=
        moved_deliverMessages routing (fun _ _ _ _ => trivial) trivial roles
          (fun _ _ _ _ _ _ _ _ => trivial) (fun _ _ _ _ _ _ _ _ => trivial)
      obtain ⟨start, hsettled, hmoved⟩ := hdelivers
      exact live_of_moved hmoved (live_of_settled hsettled hlive)

theorem live_drainPendingQueue (routing : Routing) (member : String)
    (hlive : mailroom.AcksAreLive ∧ mailroom.Numbered) :
    (drainPendingQueue routing mailroom member).AcksAreLive ∧
      (drainPendingQueue routing mailroom member).Numbered :=
  live_of_moved (moved_drainPendingQueue (fun _ _ _ _ => trivial) routing fun _ _ => trivial) hlive

/-- An answer takes the entry away and settles what was outstanding under its id alone. -/
theorem live_answer (member : String) (id : MessageId)
    (hlive : mailroom.AcksAreLive ∧ mailroom.Numbered) :
    (mailroom.answer member id).AcksAreLive ∧ (mailroom.answer member id).Numbered := by
  refine ⟨fun entry hentry inboxId hid => ?_, hlive.2.handles, fun sent hsent =>
    hlive.2.outstanding sent (List.mem_filter.mp hsent).1⟩
  obtain ⟨hmem, hother⟩ := List.mem_filter.mp hentry
  obtain ⟨handle, hhandle, hsent⟩ := hlive.1 entry hmem inboxId hid
  refine ⟨handle, hhandle, List.mem_filter.mpr ⟨hsent, ?_⟩⟩
  have hne : entry.1 ≠ id := by simpa using hother
  cases mailroom.shimHandles member with
  | none => rfl
  | some answering => simp [Ne.symm hne]

theorem live_handleShimEvent (routing : InboxRouting) (member : String)
    (event : ShimEvent MessageId) (hlive : mailroom.AcksAreLive ∧ mailroom.Numbered) :
    (handleShimEvent routing mailroom member event).AcksAreLive ∧
      (handleShimEvent routing mailroom member event).Numbered := by
  have hidle : ∀ {mailroom : Mailroom}, mailroom.AcksAreLive ∧ mailroom.Numbered →
      (((mailroom.applyStateChange member .idle).clearInFlightMessage member).setIdle member
        true).AcksAreLive ∧ (((mailroom.applyStateChange member .idle).clearInFlightMessage
          member).setIdle member true).Numbered := fun hlive =>
    live_of_moved (((moved_applyStateChange member .idle).trans
      (moved_clearInFlightMessage member)).tail (.idle _ _ _)) hlive
  cases event with
  | ready =>
    simp only [handleShimEvent, handleReady]
    split
    · exact live_drainPendingQueue _ _ hlive
    · exact live_drainPendingQueue _ _ (hidle hlive)
  | stateChanged source target =>
    simp only [handleShimEvent, handleStateChanged]
    have hchanged := live_of_moved (moved_applyStateChange member target) hlive
    refine live_of_moved (.single (.idle _ _ _)) ?_
    split
    · exact live_drainPendingQueue _ _ hchanged
    · exact hchanged
  | messageDelivered id =>
    simp only [handleShimEvent, handleMessageDelivered]
    have hanswer := live_answer member id hlive
    split
    · exact hanswer
    · rename_i pending _
      refine live_of_moved (moved_foldl fun _ _ _ _ => moved_settle routing _) ?_
      exact ⟨hanswer.1, hanswer.2.handles, hanswer.2.outstanding⟩
  | deliveryFailed id reason =>
    simp only [handleShimEvent, handleDeliveryFailed]
    refine live_answer member id ?_
    split
    · exact live_of_moved ((moved_clearInFlightMessage member).trans
        (moved_applyStateChange member .idle)) hlive
    · exact hlive
  | completion messageId => exact hidle hlive
  | _ => exact hlive

theorem replayOrRequeue_eq (roles : MemberRoles) (mailroom : Mailroom) (member : String)
    (previousHandle : AgentHandle) (disposition : ShimDisconnectDisposition) :
    ∃ queue, replayOrRequeue roles mailroom member previousHandle disposition =
      { mailroom with pendingDeliveryQueue := queue } := by
  unfold replayOrRequeue
  split
  · exact ⟨_, rfl⟩
  · split
    · exact ⟨_, rfl⟩
    · exact ⟨_, rfl⟩

/-- A restart gives the member a new shim and touches nothing else but the queue and the daemon's
view of the member. -/
theorem restartShim_eq (roles : MemberRoles) (kind : RestartKind) {member : String}
    {handle : AgentHandle} (h : mailroom.shimHandles member = some handle) :
    ∃ queue idle, restartShim roles kind mailroom member = { mailroom with
      shimHandles := Function.update mailroom.shimHandles member
        (some { childPid := mailroom.spawned, state := .starting, inFlightMessage := none })
      spawned := mailroom.spawned + 1
      pendingDeliveryQueue := queue
      idle } := by
  obtain ⟨queue, hqueue⟩ := replayOrRequeue_eq roles mailroom member handle
    (classifyShimDisconnect roles member kind)
  unfold restartShim
  rw [h]
  dsimp only
  rw [hqueue]
  split
  · exact ⟨queue, _, rfl⟩
  · exact ⟨queue, _, rfl⟩

/-- **A restart** leaves what waits to a shim that is gone. -/
theorem live_restartShim_iff (roles : MemberRoles) (kind : RestartKind) (member : String)
    (hlive : mailroom.AcksAreLive ∧ mailroom.Numbered) :
    (restartShim roles kind mailroom member).Numbered ∧
      ((restartShim roles kind mailroom member).AcksAreLive ↔
        ((mailroom.shimHandles member).isSome → mailroom.Answered member)) := by
  obtain ⟨hacks, hnumbered⟩ := hlive
  cases hhandle : mailroom.shimHandles member with
  | none =>
    have hsame : restartShim roles kind mailroom member = mailroom := by
      rw [restartShim, hhandle]
    rw [hsame]
    exact ⟨hnumbered, fun _ h => by simp at h, fun _ => hacks⟩
  | some handle =>
    obtain ⟨queue, idle, hrestart⟩ := restartShim_eq roles kind hhandle
    rw [hrestart]
    refine ⟨⟨fun other one hone => ?_, fun sent hsent => ?_⟩, fun hafter _ entry hentry hmember => ?_,
      fun hanswered entry hentry id hid => ?_⟩
    · dsimp only at hone
      by_cases hother : other = member
      · subst hother
        rw [Function.update_self] at hone
        obtain rfl := Option.some.inj hone
        exact Nat.lt_succ_self _
      · rw [Function.update_of_ne hother] at hone
        exact Nat.lt_succ_of_lt (hnumbered.handles other one hone)
    · exact Nat.lt_succ_of_lt (hnumbered.outstanding sent hsent)
    · -- the new shim was never sent anything
      refine List.eq_nil_iff_forall_not_mem.mpr fun id hid => ?_
      obtain ⟨present, hpresent, hsent⟩ := hafter entry hentry id hid
      dsimp only at hpresent
      rw [hmember, Function.update_self] at hpresent
      obtain rfl := Option.some.inj hpresent
      exact Nat.lt_irrefl _ (hnumbered.outstanding _ hsent)
    · obtain ⟨present, hpresent, hsent⟩ := hacks entry hentry id hid
      have hother : entry.2.recipient ≠ member := by
        intro hmember
        rw [hanswered rfl entry hentry hmember] at hid
        cases hid
      exact ⟨present, (Function.update_of_ne hother ..).trans hpresent, hsent⟩

/-- **One step.** What waits goes on waiting for present shims exactly if a shim that is replaced
had answered. -/
theorem live_step_iff (roles : MemberRoles) (step : MailStep)
    (hlive : mailroom.AcksAreLive ∧ mailroom.Numbered) :
    (step.run roles mailroom).Numbered ∧
      ((step.run roles mailroom).AcksAreLive ↔ step.RestartAnswered mailroom) := by
  have hkept : ∀ {mailroom' : Mailroom}, mailroom'.AcksAreLive ∧ mailroom'.Numbered →
      mailroom'.Numbered ∧ (mailroom'.AcksAreLive ↔ True) := fun h => ⟨h.2, iff_true_intro h.1⟩
  cases step with
  | tick routing =>
    exact hkept (List.foldlRecOn (motive := fun state : Mailroom => state.AcksAreLive ∧ state.Numbered)
      routing.members _ hlive fun _ h member _ => live_deliverToMember routing roles member h)
  | event routing member said => exact hkept (live_handleShimEvent routing member said hlive)
  | restart kind member => exact live_restartShim_iff roles kind member hlive
  | arrival routing sender recipient body msgType =>
    exact hkept (live_of_moved (moved_deliverToInbox _ _ _ _ _) hlive)
  | message routing sender recipient body =>
    exact hkept (live_of_moved
      (moved_deliverMessage (fun _ _ _ _ => trivial) trivial _ _ _ _) hlive)

theorem live_run_iff (roles : MemberRoles) {mailroom : Mailroom} (steps : List MailStep)
    (hlive : mailroom.AcksAreLive ∧ mailroom.Numbered) :
    (∀ state ∈ mailroomsThrough roles mailroom steps, state.AcksAreLive) ↔
      RestartsAnswered roles mailroom steps := by
  induction steps generalizing mailroom with
  | nil => simp [mailroomsThrough, RestartsAnswered, hlive.1]
  | cons step steps ih =>
    obtain ⟨hnumbered, hstep⟩ := live_step_iff roles step hlive
    simp only [mailroomsThrough, RestartsAnswered, List.forall_mem_cons]
    constructor
    · intro ⟨_, hafter⟩
      have hnext : (step.run roles mailroom).AcksAreLive :=
        hafter _ (by cases steps <;> exact List.mem_cons_self)
      exact ⟨hstep.mp hnext, (ih ⟨hnext, hnumbered⟩).mp hafter⟩
    · intro ⟨hanswered, hrest⟩
      exact ⟨hlive.1, (ih ⟨hstep.mpr hanswered, hnumbered⟩).mpr hrest⟩

/-- **Un-acked messages.** In every state of a run the inbox messages that wait for an answer wait
for present shims, exactly if no shim is replaced before it has answered those it was sent. -/
theorem acksAreLive_iff_restartsAnswered (roles : MemberRoles) (mailroom : Mailroom)
    (hopened : mailroom.Opened) (steps : List MailStep) :
    (∀ state ∈ mailroomsThrough roles mailroom steps, state.AcksAreLive) ↔
      RestartsAnswered roles mailroom steps := by
  refine live_run_iff roles steps ⟨?_, hopened.spawned, ?_⟩
  · intro entry hentry
    rw [hopened.acks] at hentry
    cases hentry
  · intro sent hsent
    rw [hopened.outstanding] at hsent
    cases hsent

end

/-! ### Two runs -/

instance (mailroom : Mailroom) (member : String) : Decidable (mailroom.Answered member) :=
  inferInstanceAs (Decidable (∀ _ ∈ _, _ → _))

instance (mailroom : Mailroom) (step : MailStep) : Decidable (step.RestartAnswered mailroom) := by
  cases step <;> unfold MailStep.RestartAnswered <;> infer_instance

instance decidableRestartsAnswered (roles : MemberRoles) :
    ∀ mailroom steps, Decidable (RestartsAnswered roles mailroom steps)
  | _, [] => .isTrue trivial
  | mailroom, step :: steps =>
    have := decidableRestartsAnswered roles (step.run roles mailroom) steps
    inferInstanceAs (Decidable (_ ∧ _))

/-- Nothing fails, nothing is diverted, and the tick comes to one member. -/
def plainRouting (member : String) : InboxRouting where
  now := 0
  suppresses := fun _ _ _ => false
  hasChannel := fun _ => false
  channelSends := fun _ _ _ => false
  logs := fun _ _ => false
  channelFails := fun _ _ => false
  knows := fun _ => true
  files := fun _ _ _ => true
  pendingDigestKey := fun _ _ => none
  members := [member]
  watcherReady := fun _ => true
  unreadable := fun _ => false
  markFails := fun _ => false
  staleDoneNotice := fun _ => false
  duplicateEscalation := fun _ => false
  batchesNotice := fun _ => false
  noticePriority := fun _ => 0
  canTalk := fun _ => true
  orchestratorOnly := fun _ => false
  deliveryBody := InboxMessage.body
  batchBody := fun messages => "\n".intercalate (messages.map InboxMessage.body)
  digestSender := "daemon"
  digestBody := fun messages => "\n".intercalate (messages.map InboxMessage.body)
  digestBackpressure := false
  launches := fun _ => false
  assignmentReplies := fun _ => []

/-- A member whose shim is idle has one message in its inbox. -/
def oneMessage (member : String) : Mailroom where
  shimHandles := Function.update (fun _ => none) member
    (some { childPid := 0, state := .idle, inFlightMessage := none })
  idle := fun _ => true
  pendingShimAcks := []
  pendingDeliveryQueue := fun _ => []
  inbox := [{
    id := 0, sender := "manager", recipient := member, body := "please rebase", msgType := .send
    timestamp := 0 }]
  filed := 1
  drawn := 0
  spawned := 1
  suppressed := []
  wire := []
  outstanding := []
  acknowledged := []

theorem opened_oneMessage (member : String) : (oneMessage member).Opened where
  acks := rfl
  queue _ := rfl
  wire := rfl
  outstanding := rfl
  acknowledged := rfl
  spawned other handle h := by
    simp only [oneMessage] at h ⊢
    by_cases hother : other = member
    · rw [hother, Function.update_self] at h
      obtain rfl := Option.some.inj h
      exact Nat.one_pos
    · rw [Function.update_of_ne hother] at h
      cases h
  filed := by simp [oneMessage]
  nodup := by simp [oneMessage]

def engineerRoles : MemberRoles := fun _ => some .engineer

/-- A message that is acknowledged before the shim crashes. -/
def ackedSteps : List MailStep :=
  [.tick (plainRouting "eng-1"), .event (plainRouting "eng-1") "eng-1" (.messageDelivered (.inbox 0)),
    .restart .crash "eng-1"]

/-- The message is acknowledged before the shim is restarted. -/
theorem acksAreLive_iff_restartsAnswered_acked :
    RestartsAnswered engineerRoles (oneMessage "eng-1") ackedSteps ∧
      ∀ state ∈ mailroomsThrough engineerRoles (oneMessage "eng-1") ackedSteps,
        state.AcksAreLive := by
  have hanswered : RestartsAnswered engineerRoles (oneMessage "eng-1") ackedSteps := by
    decide +kernel
  exact ⟨hanswered, (acksAreLive_iff_restartsAnswered engineerRoles (oneMessage "eng-1")
    (opened_oneMessage "eng-1") _).mpr hanswered⟩

/-- A message whose shim crashes before it has answered. -/
theorem not_acksAreLive_crashed :
    ¬ ∀ roles mailroom, mailroom.Opened → ∀ steps,
      ∀ state ∈ mailroomsThrough roles mailroom steps, state.AcksAreLive := by
  intro h
  have hlive := h engineerRoles (oneMessage "eng-1") (opened_oneMessage "eng-1")
    [.tick (plainRouting "eng-1"), .restart .crash "eng-1"]
  have hopened := opened_oneMessage "eng-1"
  rw [live_run_iff _ _ ⟨by simp [AcksAreLive, oneMessage], hopened.spawned, by simp [oneMessage]⟩]
    at hlive
  exact absurd hlive (by decide +kernel)

end Batty
