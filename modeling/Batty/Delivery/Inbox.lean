import Batty.Delivery.Mailroom
import Batty.Dispatch.Available

/-!
# Delivery of inbox messages

On every tick the daemon goes through the inboxes of the members that are ready and hands their
messages to the shims. There are three shapes of delivery: a message alone, the digest of a
manager's notices, and an architect's batch. The first two pass over what waits for an answer and
over what was suppressed; the batch takes every message there is.
-/

namespace Batty

/-- The role of each member. -/
abbrev MemberRoles := String → Option RoleType

/-- What a tick reads or decides outside of the mailroom. -/
structure InboxRouting extends Routing where
  /-- The members, in the order the tick comes to them. -/
  members : List String
  watcherReady : String → Bool
  unreadable : String → Bool
  /-- Moving the message out of `new` fails. -/
  markFails : Nat → Bool
  staleDoneNotice : InboxMessage → Bool
  duplicateEscalation : InboxMessage → Bool
  batchesNotice : InboxMessage → Bool
  noticePriority : InboxMessage → Nat
  canTalk : InboxMessage → Bool
  orchestratorOnly : InboxMessage → Bool
  deliveryBody : InboxMessage → String
  batchBody : List InboxMessage → String
  digestSender : String
  digestBody : List InboxMessage → String
  digestBackpressure : Bool
  /-- The assignment is neither stale nor refused, and its worktree is ready. -/
  launches : InboxMessage → Bool
  /-- What the sender of an assignment is told. -/
  assignmentReplies : InboxMessage → List String

namespace Mailroom

variable (routing : InboxRouting)

def memberReadyForDelivery (mailroom : Mailroom) (member : String) : Bool :=
  match mailroom.shimHandles member with
  | some handle => !handle.isTerminal && (handle.isReady || mailroom.idle member)
  | none => routing.watcherReady member

/-- Take the message out of `new`; that this fails is only logged. -/
def settle (mailroom : Mailroom) (member : String) (id : Nat) : Mailroom :=
  if routing.markFails id then mailroom else mailroom.markDelivered member id

/-- Settle the messages that `drops` names instead of delivering them. -/
def suppressWhere (drops : InboxMessage → Bool) (member : String) (messages : List InboxMessage)
    (mailroom : Mailroom) : Mailroom :=
  messages.foldl (fun mailroom message =>
    if message.id ∉ mailroom.suppressed ∧ drops message ∧ !routing.markFails message.id then
      let mailroom := mailroom.markDelivered member message.id
      { mailroom with suppressed := message.id :: mailroom.suppressed }
    else mailroom) mailroom

def staleDoneNotices (message : InboxMessage) : Bool :=
  message.msgType = .send && message.sender != "human" && routing.staleDoneNotice message

def duplicateEscalations (message : InboxMessage) : Bool :=
  message.msgType = .send && routing.duplicateEscalation message

def ackMessages (sampleKind : String) (messages : List InboxMessage) : List PendingAckInboxMessage :=
  messages.map fun message => { id := message.id, sender := message.sender, sampleKind }

/-- Several messages as one, sent under an id of its own. -/
def sendTogether (mailroom : Mailroom) (member sender body sampleKind : String)
    (messages : List InboxMessage) : Bool × Mailroom :=
  let (messageId, mailroom) := mailroom.drawId none
  let (result, mailroom) := sendLiveShimMessage routing.toRouting mailroom member sender body
    messageId (ackMessages sampleKind messages) (messages.map InboxMessage.id)
  (result = .sent, mailroom)

def deliverBatchedManagementMessages (mailroom : Mailroom) (member : String)
    (messages : List InboxMessage) : Bool × Mailroom :=
  if (mailroom.shimHandles member).isNone then (false, mailroom)
  else
    let firstSender := (messages.head?.map InboxMessage.sender).getD "daemon"
    sendTogether routing mailroom member firstSender (routing.batchBody messages) "batched" messages

def flushManagerDigest (mailroom : Mailroom) (member : String) (messages : List InboxMessage) :
    Bool × Mailroom :=
  if !(mailroom.shimHandles member).any AgentHandle.isReady then (false, mailroom)
  else if messages.any fun message => mailroom.pendingAckContainsInboxId message.id then
    (false, mailroom)
  else if routing.digestBackpressure then (false, mailroom)
  else
    sendTogether routing mailroom member routing.digestSender (routing.digestBody messages) "digest"
      messages

/-- Start the assigned task with its engineer: at once, or as soon as the shim is ready. -/
def deliverShimAssignment (mailroom : Mailroom) (member : String) (message : InboxMessage) :
    Bool × Mailroom :=
  match mailroom.shimHandles member with
  | none => (false, mailroom)
  | some handle =>
    let body := routing.deliveryBody message
    if handle.isReady then
      let mailroom := mailroom.setHandle member { handle with
        inFlightMessage := some { sender := message.sender, body, messageId := none, carries := [] } }
      if routing.channelFails member none then (false, mailroom)
      else (true, mailroom.applyStateChange member .working)
    else if !handle.isTerminal then
      let queue := mailroom.pendingDeliveryQueue member ++
        [{ sender := message.sender, body, messageId := none, carries := [] }]
      (true, { mailroom with
        pendingDeliveryQueue := Function.update mailroom.pendingDeliveryQueue member queue })
    else (false, mailroom)

/-- An assignment is settled whatever becomes of it. -/
def deliverAssignment (mailroom : Mailroom) (member : String) (message : InboxMessage) :
    Bool × Mailroom :=
  let (live, mailroom) :=
    if routing.launches message then deliverShimAssignment routing mailroom member message
    else (false, mailroom)
  let mailroom := (routing.assignmentReplies message).foldl (fun mailroom body =>
    deliverMessage routing.toRouting mailroom "daemon" message.sender body) mailroom
  (live, settle routing mailroom member message.id)

/-- One message of the list, alone. `digestIds` are the messages left to the digest. -/
def deliverInboxMessage (member : String) (digestIds : List Nat) (delivered : Bool × Mailroom)
    (message : InboxMessage) : Bool × Mailroom :=
  let (any, mailroom) := delivered
  if message.id ∈ mailroom.suppressed ∨ message.id ∈ digestIds ∨
      mailroom.pendingAckContainsInboxId message.id then
    (any, mailroom)
  else if !routing.canTalk message then (any, settle routing mailroom member message.id)
  else
    match message.msgType with
    | .send =>
      if routing.orchestratorOnly message then (any, settle routing mailroom member message.id)
      else
        match sendLiveShimMessage routing.toRouting mailroom member message.sender
          (routing.deliveryBody message) (.inbox message.id) (ackMessages "inbox" [message])
          [message.id] with
        | (.sent, mailroom) => (true, mailroom.applyStateChange member .working)
        | (_, mailroom) => (any, mailroom)
    | .assign =>
      let (live, mailroom) := deliverAssignment routing mailroom member message
      (any || live, mailroom)

/-- The messages one by one, and the digest if none of them went out. -/
def deliverSingly (member : String) (digest messages : List InboxMessage) (mailroom : Mailroom) :
    Mailroom :=
  let digestIds := digest.map InboxMessage.id
  let (any, mailroom) := messages.foldl (deliverInboxMessage routing member digestIds)
    (false, mailroom)
  let (any, mailroom) :=
    if !any && !digest.isEmpty then flushManagerDigest routing mailroom member digest
    else (any, mailroom)
  if any then mailroom.markMemberWorking member else mailroom

/-- The notices that go into a digest, if there are several. -/
def managerDigest (mailroom : Mailroom) (messages : List InboxMessage) : List InboxMessage :=
  let digestible := messages.filter fun message =>
    message.id ∉ mailroom.suppressed && !mailroom.pendingAckContainsInboxId message.id &&
      message.msgType = .send && routing.batchesNotice message
  if 1 < digestible.length then digestible else []

def orderNotices (messages : List InboxMessage) : List InboxMessage :=
  messages.insertionSort fun message message' =>
    routing.noticePriority message < routing.noticePriority message' ∨
      routing.noticePriority message = routing.noticePriority message' ∧
        message.timestamp ≤ message'.timestamp

/-- What a member has in its inbox, by the member's role. -/
def deliverMessages (roles : MemberRoles) (member : String) (messages : List InboxMessage)
    (mailroom : Mailroom) : Mailroom :=
  let mailroom := suppressWhere routing (staleDoneNotices routing) member messages
    { mailroom with suppressed := [] }
  match roles member with
  | some .manager =>
    let mailroom := suppressWhere routing (duplicateEscalations routing) member messages mailroom
    deliverSingly routing member (managerDigest routing mailroom messages)
      (orderNotices routing messages) mailroom
  | some .architect =>
    let batched := messages.filter fun message => message.msgType = .send
    if 1 < batched.length then
      match deliverBatchedManagementMessages routing mailroom member batched with
      | (true, mailroom) => mailroom.markMemberWorking member
      | (false, mailroom) => deliverSingly routing member [] messages mailroom
    else deliverSingly routing member [] messages mailroom
  | _ => deliverSingly routing member [] messages mailroom

def deliverToMember (roles : MemberRoles) (mailroom : Mailroom) (member : String) : Mailroom :=
  if !memberReadyForDelivery routing mailroom member || routing.unreadable member then mailroom
  else
    let messages := mailroom.pendingMessages member
    if messages.isEmpty then mailroom
    else deliverMessages routing roles member messages mailroom

def deliverInboxMessages (roles : MemberRoles) (mailroom : Mailroom) : Mailroom :=
  routing.members.foldl (deliverToMember routing roles) mailroom

end Mailroom

end Batty
