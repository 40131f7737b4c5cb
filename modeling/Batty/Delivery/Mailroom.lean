import Mathlib.Logic.Function.Basic
import Mathlib.Data.List.Sort
import Batty.Shim.Protocol

/-!
# The mailroom

What the daemon keeps about messages on their way to the shims: the handle of each member's shim,
the inboxes, the messages sent and not yet answered, and the messages that wait for a shim to
become ready.

**Ids.** An inbox message is named by its file, and sent alone it is sent under that name. Every
other message is sent under an id that is drawn for it. Names and draws do not repeat.

**Records.** `Mailroom` also records what the daemon itself keeps nowhere and never looks at: what
was written to the shims, which of it is still to be answered, and which inbox messages have been
acknowledged. Each message says with `carries` which inbox messages its text holds.

What the daemon reads elsewhere (what texts are about, who may talk to whom, whether a write to a
channel or a directory succeeds) is left open in `Routing`.
-/

namespace Batty

/-! ### Messages -/

/-- A message of the inbox asks for something, or assigns a task. -/
inductive MessageType where
  | send | assign
deriving DecidableEq

/-- A file of the inbox. -/
structure InboxMessage where
  id : Nat
  sender : String
  recipient : String
  body : String
  msgType : MessageType
  timestamp : Nat
deriving DecidableEq

/-- The id a message is sent under: the name of the inbox message, or one drawn for it. -/
inductive MessageId where
  | inbox (id : Nat)
  | drawn (n : Nat)
deriving DecidableEq

/-- The message that a shim was given last, with the inbox messages it carries. -/
structure InFlightMessage where
  sender : String
  body : String
  messageId : Option MessageId
  carries : List Nat

/-- The daemon's end of a shim. -/
structure AgentHandle where
  childPid : Nat
  state : ShimState
  inFlightMessage : Option InFlightMessage

def AgentHandle.isReady (handle : AgentHandle) : Bool := handle.state = .idle

def AgentHandle.isTerminal (handle : AgentHandle) : Bool := handle.state.isTerminal

/-- An inbox message that an acknowledgement is awaited for. -/
structure PendingAckInboxMessage where
  id : Nat
  sender : String
  sampleKind : String

/-- A message that was written to a shim and is not acknowledged. -/
structure PendingShimAck where
  recipient : String
  sender : String
  body : String
  inboxMessages : List PendingAckInboxMessage
  carries : List Nat

/-- The inbox messages that an acknowledgement will mark as delivered. -/
def PendingShimAck.inboxIds (pending : PendingShimAck) : List Nat :=
  pending.inboxMessages.map PendingAckInboxMessage.id

/-- A message that waits for its recipient to be ready. -/
structure PendingMessage where
  sender : String
  body : String
  messageId : Option MessageId
  carries : List Nat

/-- A message written to a shim, with what was known when it was written: the inbox messages that
were waiting for an answer, that had been suppressed in the same tick, and that had been
acknowledged. -/
structure Transmission where
  recipient : String
  childPid : Nat
  messageId : MessageId
  inboxIds : List Nat
  carries : List Nat
  held : List Nat
  suppressed : List Nat
  acknowledged : List Nat

/-- The part of the daemon that delivers messages; `wire` is all that was ever written to shims. -/
structure Mailroom where
  shimHandles : String → Option AgentHandle
  /-- The daemon's own view of the member. -/
  idle : String → Bool
  pendingShimAcks : List (MessageId × PendingShimAck)
  pendingDeliveryQueue : String → List PendingMessage
  /-- The messages in all `new` directories, and how many files were ever put there. -/
  inbox : List InboxMessage
  filed : Nat
  drawn : Nat
  spawned : Nat
  /-- The inbox messages suppressed for the member that the present tick is about. -/
  suppressed : List Nat
  wire : List Transmission
  outstanding : List (Nat × MessageId)
  acknowledged : List Nat

/-- What is read or decided outside of the mailroom while messages are handled. -/
structure Routing where
  now : Nat
  /-- The message is a notice about a task that is done, and is dropped. -/
  suppresses : String → String → String → Bool
  /-- Users have channels instead of shims. -/
  hasChannel : String → Bool
  channelSends : String → String → String → Bool
  /-- The message goes to the orchestrator's log alone. -/
  logs : String → String → Bool
  /-- Writing to the shim fails. -/
  channelFails : String → Option MessageId → Bool
  knows : String → Bool
  /-- The message can be put in the inbox of the recipient, after so many others. -/
  files : Nat → String → String → Bool
  pendingDigestKey : String → String → Option String

namespace Mailroom

/-! ### Handles -/

def setHandle (mailroom : Mailroom) (member : String) (handle : AgentHandle) : Mailroom :=
  { mailroom with shimHandles := Function.update mailroom.shimHandles member (some handle) }

def setIdle (mailroom : Mailroom) (member : String) (idle : Bool) : Mailroom :=
  { mailroom with idle := Function.update mailroom.idle member idle }

/-- Change the handle of a member that has one. -/
def mapHandle (mailroom : Mailroom) (member : String) (f : AgentHandle → AgentHandle) : Mailroom :=
  match mailroom.shimHandles member with
  | some handle => mailroom.setHandle member (f handle)
  | none => mailroom

def applyStateChange (mailroom : Mailroom) (member : String) (state : ShimState) : Mailroom :=
  mailroom.mapHandle member fun handle => { handle with state }

def clearInFlightMessage (mailroom : Mailroom) (member : String) : Mailroom :=
  mailroom.mapHandle member fun handle => { handle with inFlightMessage := none }

/-- With a shim the shim decides whether the member works. -/
def markMemberWorking (mailroom : Mailroom) (member : String) : Mailroom :=
  if (mailroom.shimHandles member).isSome then mailroom else mailroom.setIdle member false

/-! ### Acknowledgements to come -/

def pendingAckContainsInboxId (mailroom : Mailroom) (inboxId : Nat) : Bool :=
  mailroom.pendingShimAcks.any fun entry =>
    entry.2.inboxMessages.any fun message => message.id = inboxId

/-- The inbox messages that wait for an answer. -/
def heldIds (mailroom : Mailroom) : List Nat :=
  mailroom.pendingShimAcks.flatMap fun entry => entry.2.inboxIds

theorem pendingAckContainsInboxId_iff {mailroom : Mailroom} {inboxId : Nat} :
    mailroom.pendingAckContainsInboxId inboxId = true ↔ inboxId ∈ mailroom.heldIds := by
  simp [pendingAckContainsInboxId, heldIds, PendingShimAck.inboxIds]

/-- An id has one entry. -/
def enqueuePendingShimAck (mailroom : Mailroom) (messageId : MessageId) (pending : PendingShimAck) :
    Mailroom :=
  { mailroom with
    pendingShimAcks :=
      (messageId, pending) :: mailroom.pendingShimAcks.filter fun entry => entry.1 ≠ messageId }

/-- Write to the shim's channel. -/
def transmit (mailroom : Mailroom) (recipient : String) (childPid : Nat) (messageId : MessageId)
    (inboxIds carries : List Nat) : Mailroom :=
  { mailroom with
    wire := {
      recipient, childPid, messageId, inboxIds, carries
      held := mailroom.heldIds
      suppressed := mailroom.suppressed
      acknowledged := mailroom.acknowledged } :: mailroom.wire
    outstanding := (childPid, messageId) :: mailroom.outstanding }

/-- What came of a write to a shim. -/
inductive SendResult where
  | noHandle | sent | failed
deriving DecidableEq

/-- The message counts as in flight even if writing it fails. -/
def sendLiveShimMessage (routing : Routing) (mailroom : Mailroom) (recipient sender body : String)
    (messageId : MessageId) (inboxMessages : List PendingAckInboxMessage) (carries : List Nat) :
    SendResult × Mailroom :=
  match mailroom.shimHandles recipient with
  | none => (.noHandle, mailroom)
  | some handle =>
    let mailroom := mailroom.setHandle recipient { handle with
      inFlightMessage := some { sender, body, messageId := some messageId, carries } }
    if routing.channelFails recipient (some messageId) then (.failed, mailroom)
    else
      let pending : PendingShimAck := { recipient, sender, body, inboxMessages, carries }
      (.sent, (mailroom.transmit recipient handle.childPid messageId pending.inboxIds carries
        ).enqueuePendingShimAck messageId pending)

/-! ### The daemon's own messages -/

/-- Put a message in the recipient's `new` directory. -/
def store (mailroom : Mailroom) (timestamp : Nat) (sender recipient body : String)
    (msgType : MessageType) : Mailroom :=
  { mailroom with
    inbox := mailroom.inbox ++ [{
      id := mailroom.filed, sender, recipient, body, msgType, timestamp }]
    filed := mailroom.filed + 1 }

def deliverToInbox (routing : Routing) (mailroom : Mailroom) (sender recipient body : String)
    (msgType : MessageType) : Mailroom :=
  if routing.files mailroom.filed recipient body then
    mailroom.store routing.now sender recipient body msgType
  else mailroom

def sameTaskPendingCap : Nat := 2

/-- Messages about one task that say much the same are kept to the last one. -/
def queuePendingMessageCapped (routing : Routing) (mailroom : Mailroom) (recipient : String)
    (pending : PendingMessage) : Mailroom :=
  let queue := mailroom.pendingDeliveryQueue recipient
  let key := routing.pendingDigestKey pending.sender pending.body
  let matching := queue.filter fun message =>
    key.isSome && routing.pendingDigestKey message.sender message.body == key
  let queue :=
    if key.isSome && decide (sameTaskPendingCap ≤ matching.length) then
      (queue.filter fun message => routing.pendingDigestKey message.sender message.body != key) ++
        [{ pending with
          body := s!"[task-current digest] collapsed {matching.length + 1} stale same-task " ++
            s!"pending messages for {recipient}; latest follows:\n{pending.body}" }]
    else queue ++ [pending]
  { mailroom with
    pendingDeliveryQueue := Function.update mailroom.pendingDeliveryQueue recipient queue }

/-- The id a message is given unless it has one. -/
def drawId (mailroom : Mailroom) : Option MessageId → MessageId × Mailroom
  | some messageId => (messageId, mailroom)
  | none => (.drawn mailroom.drawn, { mailroom with drawn := mailroom.drawn + 1 })

/-- A message that no shim takes is put in the inbox, if its recipient is known. -/
def fileMessage (routing : Routing) (mailroom : Mailroom) (recipient : String)
    (message : PendingMessage) : Bool × Mailroom :=
  if routing.knows recipient then
    (routing.files mailroom.filed recipient message.body,
      deliverToInbox routing mailroom message.sender recipient message.body .send)
  else (true, mailroom)

/-- Whether the message was dealt with, and the mailroom afterwards. -/
def deliverMessageWithId (routing : Routing) (mailroom : Mailroom) (recipient : String)
    (message : PendingMessage) : Bool × Mailroom :=
  if routing.suppresses message.sender recipient message.body then (true, mailroom)
  else if routing.hasChannel recipient then
    (routing.channelSends message.sender recipient message.body, mailroom)
  else if routing.logs recipient message.body then (true, mailroom)
  else
    match mailroom.shimHandles recipient with
    | none => fileMessage routing mailroom recipient message
    | some handle =>
      let (messageId, mailroom) := mailroom.drawId message.messageId
      if handle.isReady then
        match sendLiveShimMessage routing mailroom recipient message.sender message.body messageId
          [] message.carries with
        | (.failed, mailroom) => fileMessage routing mailroom recipient message
        | (_, mailroom) => (true, mailroom)
      else if !handle.isTerminal then
        (true, queuePendingMessageCapped routing mailroom recipient
          { message with messageId := some messageId })
      else fileMessage routing mailroom recipient message

/-- A message of the daemon, which holds nothing of any inbox. -/
def deliverMessage (routing : Routing) (mailroom : Mailroom) (sender recipient body : String) :
    Mailroom :=
  (deliverMessageWithId routing mailroom recipient
    { sender, body, messageId := none, carries := [] }).2

/-- Deliver the messages one after the other, up to the first that cannot be dealt with. -/
def deliverAll (routing : Routing) (recipient : String) :
    List PendingMessage → Mailroom → Mailroom
  | [], mailroom => mailroom
  | message :: messages, mailroom =>
    match deliverMessageWithId routing mailroom recipient message with
    | (true, mailroom) => deliverAll routing recipient messages mailroom
    | (false, mailroom) => mailroom

/-- The queue of the recipient is taken out as a whole. -/
def takeQueue (mailroom : Mailroom) (recipient : String) : Mailroom :=
  { mailroom with
    pendingDeliveryQueue := Function.update mailroom.pendingDeliveryQueue recipient [] }

/-- Hand over what waited for the shim to become ready. -/
def drainPendingQueue (routing : Routing) (mailroom : Mailroom) (recipient : String) : Mailroom :=
  deliverAll routing recipient (mailroom.pendingDeliveryQueue recipient)
    (mailroom.takeQueue recipient)

/-! ### Inboxes -/

/-- The messages a member has not got yet, the oldest first. -/
def pendingMessages (mailroom : Mailroom) (member : String) : List InboxMessage :=
  (mailroom.inbox.filter fun message => message.recipient = member).insertionSort
    fun message message' => message.timestamp ≤ message'.timestamp

def markDelivered (mailroom : Mailroom) (member : String) (id : Nat) : Mailroom :=
  { mailroom with
    inbox := mailroom.inbox.filter fun message => !(message.recipient = member && message.id = id) }

theorem mem_pendingMessages {mailroom : Mailroom} {member : String} {message : InboxMessage} :
    message ∈ mailroom.pendingMessages member ↔
      message ∈ mailroom.inbox ∧ message.recipient = member := by
  simp [pendingMessages, List.mem_insertionSort]

end Mailroom

end Batty
