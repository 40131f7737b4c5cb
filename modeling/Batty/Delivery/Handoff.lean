import Batty.Delivery.Acks

/-!
# The hand-off of a restart

When the shim of an architect or a manager is replaced on purpose, the message in flight goes back
to the head of the member's queue. The daemon keeps one message in flight for each shim, the one it
tried to send last; what it sent before that, and has not been acknowledged, does not come back.
-/

namespace Batty

open Mailroom

/-- What happens to a shim between two resets of its message in flight. -/
inductive LiveEvent where
  | send (routing : Routing) (sender body : String) (messageId : MessageId)
      (inboxMessages : List PendingAckInboxMessage) (carries : List Nat)
  | acknowledged (routing : InboxRouting) (messageId : MessageId)
  | stateIs (state : ShimState)
  /-- Messages for the member are put off, drained or expired. -/
  | queueIs (queue : List PendingMessage)

namespace LiveEvent

def run (member : String) (mailroom : Mailroom) : LiveEvent → Mailroom
  | send routing sender body messageId inboxMessages carries =>
    (sendLiveShimMessage routing mailroom member sender body messageId inboxMessages carries).2
  | acknowledged routing messageId => handleMessageDelivered routing mailroom member messageId
  | stateIs state => mailroom.applyStateChange member state
  | queueIs queue =>
    { mailroom with
      pendingDeliveryQueue := Function.update mailroom.pendingDeliveryQueue member queue }

/-- The message that the daemon tries to send, as it would be queued. -/
def tried? : LiveEvent → Option PendingMessage
  | send _ sender body messageId _ carries =>
    some { sender, body, messageId := some messageId, carries }
  | _ => none

/-- The messages that were sent and not acknowledged, in the order they were sent. A message that
is sent again counts as one. -/
def unsettled (member : String) (messages : List PendingMessage) :
    LiveEvent → List PendingMessage
  | send routing sender body messageId _ carries =>
    if routing.channelFails member (some messageId) then messages
    else
      messages.filter (fun message => message.messageId ≠ some messageId) ++
        [{ sender, body, messageId := some messageId, carries }]
  | acknowledged _ messageId =>
    messages.filter fun message => message.messageId ≠ some messageId
  | _ => messages

end LiveEvent

/-- The message tried last. -/
def lastTried (history : List LiveEvent) : Option PendingMessage :=
  (history.filterMap LiveEvent.tried?).getLast?

def unsettled (member : String) (history : List LiveEvent) : List PendingMessage :=
  history.foldl (LiveEvent.unsettled member) []

def runLive (member : String) (mailroom : Mailroom) (history : List LiveEvent) : Mailroom :=
  history.foldl (LiveEvent.run member) mailroom

/-- The member has a shim, and nothing is in flight to it. -/
def JustReset (mailroom : Mailroom) (member : String) : Prop :=
  ∃ handle ∈ mailroom.shimHandles member, handle.inFlightMessage = none

/-- What is in flight to the member's shim, as it would be queued. -/
def InFlightMessage.pending (inFlight : InFlightMessage) : PendingMessage where
  sender := inFlight.sender
  body := inFlight.body
  messageId := inFlight.messageId
  carries := inFlight.carries

/-- The message in flight to the shim of the member is the one. -/
def HasInFlight (mailroom : Mailroom) (member : String) (message : Option PendingMessage) : Prop :=
  ∃ handle ∈ mailroom.shimHandles member,
    handle.inFlightMessage.map InFlightMessage.pending = message

section

variable {member : String} {mailroom : Mailroom} {message : Option PendingMessage}

theorem hasInFlight_of_justReset (h : JustReset mailroom member) :
    HasInFlight mailroom member none := by
  obtain ⟨handle, hhandle, hnone⟩ := h
  exact ⟨handle, hhandle, by rw [hnone]; rfl⟩

theorem hasInFlight_send (h : HasInFlight mailroom member message) (routing : Routing)
    (sender body : String) (messageId : MessageId) (inboxMessages : List PendingAckInboxMessage)
    (carries : List Nat) :
    HasInFlight
      (sendLiveShimMessage routing mailroom member sender body messageId inboxMessages carries).2
      member (some { sender, body, messageId := some messageId, carries }) := by
  obtain ⟨handle, hhandle, -⟩ := h
  rw [Option.mem_def] at hhandle
  unfold sendLiveShimMessage
  rw [hhandle]
  dsimp only
  split <;> exact ⟨_, Function.update_self .., rfl⟩

theorem shimHandles_settle (routing : InboxRouting) (recipient : String) (id : Nat) :
    (settle routing mailroom recipient id).shimHandles = mailroom.shimHandles := by
  unfold settle
  split <;> rfl

theorem shimHandles_handleMessageDelivered (routing : InboxRouting) (id : MessageId) :
    (handleMessageDelivered routing mailroom member id).shimHandles = mailroom.shimHandles := by
  unfold handleMessageDelivered
  split
  · rfl
  · refine List.foldlRecOn (motive := fun state : Mailroom =>
      state.shimHandles = mailroom.shimHandles) _ _ rfl fun state hstate id _ => ?_
    rw [shimHandles_settle, hstate]

/-- An acknowledgement leaves the message in flight. -/
theorem hasInFlight_run (h : HasInFlight mailroom member message) (event : LiveEvent) :
    HasInFlight (event.run member mailroom) member (event.tried?.or message) := by
  cases event with
  | send routing sender body messageId inboxMessages carries =>
    exact hasInFlight_send h routing sender body messageId inboxMessages carries
  | acknowledged routing messageId =>
    obtain ⟨handle, hhandle, hmessage⟩ := h
    refine ⟨handle, ?_, hmessage⟩
    rw [LiveEvent.run, shimHandles_handleMessageDelivered]
    exact hhandle
  | stateIs state =>
    obtain ⟨handle, hhandle, hmessage⟩ := h
    refine ⟨{ handle with state }, ?_, hmessage⟩
    rw [Option.mem_def] at hhandle
    simp [LiveEvent.run, applyStateChange, mapHandle, hhandle, setHandle]
  | queueIs queue => exact h

theorem lastTried_cons (event : LiveEvent) (history : List LiveEvent) :
    lastTried (event :: history) = (lastTried history).or event.tried? := by
  unfold lastTried
  cases htried : event.tried? with
  | none => simp [htried]
  | some tried => simp [htried, List.getLast?_cons]

theorem hasInFlight_runLive (h : HasInFlight mailroom member message) (history : List LiveEvent) :
    HasInFlight (runLive member mailroom history) member ((lastTried history).or message) := by
  induction history generalizing mailroom message with
  | nil => exact h
  | cons event history ih =>
    rw [lastTried_cons, Option.or_assoc]
    exact ih (hasInFlight_run h event)

/-- The messages in front of the queue that a restart finds. -/
theorem pendingDeliveryQueue_restartShim {roles : MemberRoles} {kind : RestartKind}
    (hhandoff : classifyShimDisconnect roles member kind = .restartHandoff)
    (h : HasInFlight mailroom member message) :
    (restartShim roles kind mailroom member).pendingDeliveryQueue member =
      message.toList ++ mailroom.pendingDeliveryQueue member := by
  obtain ⟨handle, hhandle, hmessage⟩ := h
  have hsupervisory : isSupervisory roles member = true := by
    cases kind with
    | crash => cases hhandoff
    | cold reason =>
      rw [classifyShimDisconnect] at hhandoff
      split at hhandoff
      · cases hhandoff
      · split at hhandoff
        · assumption
        · cases hhandoff
  rw [Option.mem_def] at hhandle
  have hqueue : (replayOrRequeue roles mailroom member handle .restartHandoff).pendingDeliveryQueue
      member = message.toList ++ mailroom.pendingDeliveryQueue member := by
    unfold replayOrRequeue
    rw [if_neg (by simp [hsupervisory]), ← hmessage]
    cases handle.inFlightMessage with
    | none => rfl
    | some inFlight => exact Function.update_self ..
  unfold restartShim
  rw [hhandle, hhandoff]
  dsimp only
  split <;> exact hqueue

end

/-- Each of the messages has been put in front of the queue once, in their order. -/
def Conserves (messages before after : List PendingMessage) : Prop :=
  ∃ requeued, after = requeued ++ before ∧ (requeued.filter fun message =>
    message.messageId ∈ messages.map PendingMessage.messageId) = messages

theorem conserves_iff {messages before : List PendingMessage} {last : Option PendingMessage} :
    Conserves messages before (last.toList ++ before) ↔
      messages = [] ∨ ∃ message, messages = [message] ∧ last = some message := by
  constructor
  · rintro ⟨requeued, happend, hfilter⟩
    obtain rfl := List.append_cancel_right happend
    cases last with
    | none => exact .inl hfilter.symm
    | some message =>
      rw [Option.toList_some, List.filter_cons] at hfilter
      split at hfilter
      · exact .inr ⟨message, hfilter.symm, rfl⟩
      · exact .inl hfilter.symm
  · rintro (rfl | ⟨message, rfl, rfl⟩)
    · exact ⟨_, rfl, by simp⟩
    · exact ⟨_, rfl, by simp⟩

/-- **The hand-off.** The restart puts the message tried last in front of the queue, and nothing
else. So every message that was sent and not acknowledged comes back exactly if there is none, or
one that was tried last. -/
theorem restartHandoff_requeues_lastTried (roles : MemberRoles) (kind : RestartKind)
    (mailroom : Mailroom) (member : String) (history : List LiveEvent)
    (hreset : JustReset mailroom member)
    (hhandoff : classifyShimDisconnect roles member kind = .restartHandoff) :
    let before := (runLive member mailroom history).pendingDeliveryQueue member
    let after := (restartShim roles kind (runLive member mailroom history)
      member).pendingDeliveryQueue member
    after = (lastTried history).toList ++ before ∧
      (Conserves (unsettled member history) before after ↔
        unsettled member history = [] ∨
          ∃ message, unsettled member history = [message] ∧ lastTried history = some message) := by
  have hinFlight := hasInFlight_runLive (hasInFlight_of_justReset hreset) history
  rw [Option.or_none] at hinFlight
  have hqueue := pendingDeliveryQueue_restartShim hhandoff hinFlight
  refine ⟨hqueue, ?_⟩
  rw [hqueue]
  exact conserves_iff

/-! ### Two messages in a row -/

/-- The manager gets two messages, and the first is acknowledged. -/
def answeredOnce : List LiveEvent :=
  [.send (plainRouting "manager").toRouting "architect" "please replan" (.drawn 0) [] [],
    .send (plainRouting "manager").toRouting "daemon" "the board is empty" (.drawn 1) [] [],
    .acknowledged (plainRouting "manager") (.drawn 0)]

theorem justReset_oneMessage (member : String) : JustReset (oneMessage member) member := by
  refine ⟨{ childPid := 0, state := .idle, inFlightMessage := none }, ?_, rfl⟩
  simp [oneMessage]

def managerRoles : MemberRoles := fun _ => some .manager

/-- One of two messages is acknowledged when the shim is replaced. -/
theorem restartHandoff_requeues_lastTried_answeredOnce :
    Conserves (unsettled "manager" answeredOnce) []
      ((restartShim managerRoles (.cold "stalled")
        (runLive "manager" (oneMessage "manager") answeredOnce)
          "manager").pendingDeliveryQueue "manager") := by
  have hqueue : (runLive "manager" (oneMessage "manager") answeredOnce).pendingDeliveryQueue
      "manager" = [] := rfl
  have hboth := restartHandoff_requeues_lastTried managerRoles (.cold "stalled")
    (oneMessage "manager") "manager" answeredOnce (justReset_oneMessage _) (by decide)
  rw [hqueue] at hboth
  exact hboth.2.mpr (.inr ⟨_, rfl, rfl⟩)

/-- Two messages are sent before the first is acknowledged. -/
theorem not_conserves_twoSent :
    ¬ ∀ roles kind mailroom member history, JustReset mailroom member →
      classifyShimDisconnect roles member kind = .restartHandoff →
      Conserves (unsettled member history)
        ((runLive member mailroom history).pendingDeliveryQueue member)
        ((restartShim roles kind (runLive member mailroom history)
          member).pendingDeliveryQueue member) := by
  intro h
  have hconserves := h managerRoles (.cold "stalled") (oneMessage "manager") "manager"
    (answeredOnce.take 2) (justReset_oneMessage _) (by decide)
  obtain ⟨requeued, hqueue, hfilter⟩ := hconserves
  have hlength : (unsettled "manager" (answeredOnce.take 2)).length ≤ requeued.length := by
    rw [← hfilter]
    exact List.length_filter_le _ _
  have hone := congrArg List.length hqueue
  rw [List.length_append] at hone
  have hqueued : ((restartShim managerRoles (.cold "stalled")
      (runLive "manager" (oneMessage "manager") (answeredOnce.take 2))
        "manager").pendingDeliveryQueue "manager").length = 1 := rfl
  have htwo : (unsettled "manager" (answeredOnce.take 2)).length = 2 := rfl
  omega

end Batty
