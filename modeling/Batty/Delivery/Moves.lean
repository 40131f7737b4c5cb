import Mathlib.Logic.Relation
import Batty.Delivery.Inbox

/-!
# What delivery does to the mailroom

Whatever the daemon does with messages short of taking an answer or restarting a shim is made of a
few elementary moves. An invariant of the mailroom is checked on the moves, and the theorems
`moves_…` carry it to the operations.

A guard `Sends` says what is known of a message when it is written to a shim, and `Waits` what is
known of one that is put in the queue.
-/

namespace Batty

namespace Mailroom

/-- The mailroom after a message has been written to a shim. -/
def sent (mailroom : Mailroom) (handle : AgentHandle) (messageId : MessageId)
    (pending : PendingShimAck) : Mailroom :=
  (mailroom.transmit pending.recipient handle.childPid messageId pending.inboxIds pending.carries
    ).enqueuePendingShimAck messageId pending

/-- The elementary moves of delivery. -/
inductive Move (Sends : Mailroom → PendingShimAck → Prop) (Waits : List Nat → Prop) :
    Mailroom → Mailroom → Prop where
  | handle {mailroom member handle handle'} : mailroom.shimHandles member = some handle →
      handle'.childPid = handle.childPid → Move Sends Waits mailroom (mailroom.setHandle member handle')
  | idle (mailroom member idle) : Move Sends Waits mailroom (mailroom.setIdle member idle)
  | markDelivered (mailroom member id) :
      Move Sends Waits mailroom (mailroom.markDelivered member id)
  | draw (mailroom : Mailroom) : Move Sends Waits mailroom { mailroom with drawn := mailroom.drawn + 1 }
  | file {mailroom : Mailroom} {message : InboxMessage} : message.id = mailroom.filed →
      Move Sends Waits mailroom { mailroom with
        inbox := mailroom.inbox ++ [message], filed := mailroom.filed + 1 }
  | queue {mailroom : Mailroom} {queue : String → List PendingMessage} :
      (∀ member, ∀ message ∈ queue member,
        message ∈ mailroom.pendingDeliveryQueue member ∨ Waits message.carries) →
      Move Sends Waits mailroom { mailroom with pendingDeliveryQueue := queue }
  | send {mailroom handle messageId} {pending : PendingShimAck} :
      mailroom.shimHandles pending.recipient = some handle → Sends mailroom pending →
      Move Sends Waits mailroom (mailroom.sent handle messageId pending)

/-- Any number of moves. -/
abbrev Moved (Sends : Mailroom → PendingShimAck → Prop) (Waits : List Nat → Prop) :=
  Relation.ReflTransGen (Move Sends Waits)

variable {Sends : Mailroom → PendingShimAck → Prop} {Waits : List Nat → Prop}
  {mailroom mailroom' : Mailroom}

/-- What is suppressed stays so until the next turn. -/
theorem Moved.suppressed_eq (h : Moved Sends Waits mailroom mailroom') :
    mailroom'.suppressed = mailroom.suppressed := by
  induction h with
  | refl => rfl
  | tail _ hmove ih => cases hmove <;> exact ih

/-! ### Handles and inboxes -/

theorem moved_mapHandle (member : String) {f : AgentHandle → AgentHandle}
    (hf : ∀ handle, (f handle).childPid = handle.childPid) :
    Moved Sends Waits mailroom (mailroom.mapHandle member f) := by
  unfold mapHandle
  split
  · rename_i handle hhandle
    exact .single (.handle hhandle (hf handle))
  · exact .refl

theorem moved_applyStateChange (member : String) (state : ShimState) :
    Moved Sends Waits mailroom (mailroom.applyStateChange member state) :=
  moved_mapHandle member fun _ => rfl

theorem moved_clearInFlightMessage (member : String) :
    Moved Sends Waits mailroom (mailroom.clearInFlightMessage member) :=
  moved_mapHandle member fun _ => rfl

theorem moved_markMemberWorking (member : String) :
    Moved Sends Waits mailroom (mailroom.markMemberWorking member) := by
  unfold markMemberWorking
  split
  · exact .refl
  · exact .single (.idle _ _ _)

theorem moved_deliverToInbox (routing : Routing) (sender recipient body : String)
    (msgType : MessageType) :
    Moved Sends Waits mailroom (deliverToInbox routing mailroom sender recipient body msgType) := by
  unfold deliverToInbox
  split
  · exact .single (.file rfl)
  · exact .refl

theorem moved_queuePendingMessageCapped (routing : Routing) (recipient : String)
    {pending : PendingMessage} (h : Waits pending.carries) :
    Moved Sends Waits mailroom (queuePendingMessageCapped routing mailroom recipient pending) := by
  refine .single (.queue fun member message hmem => ?_)
  by_cases hmember : member = recipient
  · subst hmember
    rw [Function.update_self] at hmem
    split at hmem <;> rcases List.mem_append.mp hmem with hmem | hmem
    · exact .inl (List.mem_filter.mp hmem).1
    · exact .inr (List.mem_singleton.mp hmem ▸ h)
    · exact .inl hmem
    · exact .inr (List.mem_singleton.mp hmem ▸ h)
  · rw [Function.update_of_ne hmember] at hmem
    exact .inl hmem

theorem moved_drawId (messageId : Option MessageId) :
    Moved Sends Waits mailroom (mailroom.drawId messageId).2 := by
  cases messageId with
  | some messageId => exact .refl
  | none => exact .single (.draw _)

/-! ### Sends -/

/-- A send either leaves its mark on the handle alone, or is one of the guarded sends. -/
theorem moved_sendLiveShimMessage (routing : Routing) {recipient sender body : String}
    {messageId : MessageId} {inboxMessages : List PendingAckInboxMessage} {carries : List Nat}
    (h : ∀ mailroom', Moved Sends Waits mailroom mailroom' →
      mailroom'.pendingShimAcks = mailroom.pendingShimAcks →
      Sends mailroom' { recipient, sender, body, inboxMessages, carries }) :
    Moved Sends Waits mailroom (sendLiveShimMessage routing mailroom recipient sender body messageId
      inboxMessages carries).2 := by
  unfold sendLiveShimMessage
  split
  · exact .refl
  · rename_i handle hhandle
    set marked : AgentHandle := { handle with
      inFlightMessage := some { sender, body, messageId := some messageId, carries } }
    have hset : Moved Sends Waits mailroom (mailroom.setHandle recipient marked) :=
      .single (.handle hhandle rfl)
    have hmarked : (mailroom.setHandle recipient marked).shimHandles recipient = some marked :=
      Function.update_self ..
    dsimp only
    split
    · exact hset
    · have hsent : Move Sends Waits (mailroom.setHandle recipient marked)
          ((mailroom.setHandle recipient marked).sent marked messageId
            { recipient, sender, body, inboxMessages, carries }) :=
        .send hmarked (h _ hset rfl)
      exact hset.tail hsent

/-- The messages that hold nothing of any inbox may always be sent. -/
def SendsOwn (Sends : Mailroom → PendingShimAck → Prop) (Waits : List Nat → Prop) : Prop :=
  ∀ mailroom pending, pending.inboxMessages = [] → Waits pending.carries → Sends mailroom pending

theorem moved_fileMessage (routing : Routing) (recipient : String) (message : PendingMessage) :
    Moved Sends Waits mailroom (fileMessage routing mailroom recipient message).2 := by
  unfold fileMessage
  split
  · exact moved_deliverToInbox _ _ _ _ _
  · exact .refl

theorem moved_deliverMessageWithId (hown : SendsOwn Sends Waits) (routing : Routing)
    (recipient : String) {message : PendingMessage} (h : Waits message.carries) :
    Moved Sends Waits mailroom (deliverMessageWithId routing mailroom recipient message).2 := by
  unfold deliverMessageWithId
  split
  · exact .refl
  split
  · exact .refl
  split
  · exact .refl
  split
  · exact moved_fileMessage _ _ _
  · rename_i handle hhandle
    have hdraw := @moved_drawId Sends Waits mailroom message.messageId
    generalize mailroom.drawId message.messageId = drawn at hdraw ⊢
    obtain ⟨messageId, mailroom'⟩ := drawn
    dsimp only at hdraw ⊢
    split
    · have hsend := @moved_sendLiveShimMessage Sends Waits mailroom' routing recipient
        message.sender message.body messageId [] message.carries
        fun _ _ _ => hown _ _ rfl h
      split <;> rename_i hresult <;> rw [hresult] at hsend
      · exact hdraw.trans (hsend.trans (moved_fileMessage _ _ _))
      · exact hdraw.trans hsend
    · split
      · exact hdraw.trans (moved_queuePendingMessageCapped _ _ h)
      · exact hdraw.trans (moved_fileMessage _ _ _)

theorem moved_deliverMessage (hown : SendsOwn Sends Waits) (hwaits : Waits []) (routing : Routing)
    (sender recipient body : String) :
    Moved Sends Waits mailroom (deliverMessage routing mailroom sender recipient body) :=
  moved_deliverMessageWithId hown routing recipient hwaits

/-- A loop of moves. -/
theorem moved_foldl {α : Type} {f : Mailroom → α → Mailroom} {xs : List α}
    (h : ∀ x ∈ xs, ∀ mailroom', Moved Sends Waits mailroom mailroom' →
      Moved Sends Waits mailroom' (f mailroom' x)) :
    Moved Sends Waits mailroom (xs.foldl f mailroom) := by
  refine List.foldlRecOn xs f .refl fun mailroom' hmoved x hx => ?_
  exact hmoved.trans (h x hx mailroom' hmoved)

theorem moved_deliverAll (hown : SendsOwn Sends Waits) (routing : Routing) {recipient : String}
    {messages : List PendingMessage} (h : ∀ message ∈ messages, Waits message.carries) :
    Moved Sends Waits mailroom (deliverAll routing recipient messages mailroom) := by
  induction messages generalizing mailroom with
  | nil => exact .refl
  | cons message messages ih =>
    obtain ⟨hmessage, hmessages⟩ := List.forall_mem_cons.mp h
    have hone := @moved_deliverMessageWithId Sends Waits mailroom hown routing recipient message
      hmessage
    unfold deliverAll
    split <;> rename_i hresult <;> rw [hresult] at hone
    · exact hone.trans (ih hmessages)
    · exact hone

theorem moved_drainPendingQueue (hown : SendsOwn Sends Waits) (routing : Routing)
    {recipient : String}
    (h : ∀ message ∈ mailroom.pendingDeliveryQueue recipient, Waits message.carries) :
    Moved Sends Waits mailroom (drainPendingQueue routing mailroom recipient) := by
  refine .trans (.single (.queue fun member message hmem => .inl ?_))
    (moved_deliverAll hown routing h)
  by_cases hmember : member = recipient
  · subst hmember
    simp at hmem
  · rwa [Function.update_of_ne hmember] at hmem

/-! ### One turn of a tick -/

section Turn

variable (routing : InboxRouting) {member : String}

theorem moved_settle (id : Nat) :
    Moved Sends Waits mailroom (settle routing mailroom member id) := by
  unfold settle
  split
  · exact .refl
  · exact .single (.markDelivered _ _ _)

theorem moved_deliverShimAssignment (hwaits : Waits []) (message : InboxMessage) :
    Moved Sends Waits mailroom (deliverShimAssignment routing mailroom member message).2 := by
  unfold deliverShimAssignment
  split
  · exact .refl
  · rename_i handle hhandle
    have hset : Moved Sends Waits mailroom (mailroom.setHandle member { handle with
        inFlightMessage := some {
          sender := message.sender, body := routing.deliveryBody message, messageId := none
          carries := [] } }) := .single (.handle hhandle rfl)
    dsimp only
    split
    · split
      · exact hset
      · exact hset.trans (moved_applyStateChange member .working)
    · split
      · refine .single (.queue fun other waiting hmem => ?_)
        by_cases hother : other = member
        · subst hother
          rw [Function.update_self] at hmem
          rcases List.mem_append.mp hmem with hmem | hmem
          · exact .inl hmem
          · exact .inr (List.mem_singleton.mp hmem ▸ hwaits)
        · rw [Function.update_of_ne hother] at hmem
          exact .inl hmem
      · exact .refl

theorem moved_deliverAssignment (hown : SendsOwn Sends Waits) (hwaits : Waits [])
    (message : InboxMessage) :
    Moved Sends Waits mailroom (deliverAssignment routing mailroom member message).2 := by
  have hlaunch : Moved Sends Waits mailroom
      (if routing.launches message then deliverShimAssignment routing mailroom member message
        else (false, mailroom)).2 := by
    split
    · exact moved_deliverShimAssignment routing hwaits message
    · exact .refl
  exact hlaunch.trans (.trans (moved_foldl fun _ _ _ _ => moved_deliverMessage hown hwaits _ _ _ _)
    (moved_settle routing _))

/-- What a turn must know of the messages it sends: they are messages of the member's inbox that
neither wait for an answer nor were suppressed. -/
def SendsChecked (Sends : Mailroom → PendingShimAck → Prop) (Waits : List Nat → Prop)
    (start : Mailroom) (member : String) (messages : List InboxMessage) : Prop :=
  ∀ mailroom, Moved Sends Waits start mailroom → ∀ pending : PendingShimAck,
    pending.recipient = member → pending.carries = pending.inboxIds →
    (∀ id ∈ pending.inboxIds, id ∈ messages.map InboxMessage.id ∧ id ∉ mailroom.heldIds ∧
      id ∉ start.suppressed) → Sends mailroom pending

variable {start : Mailroom} {messages : List InboxMessage}

theorem inboxIds_ackMessages (recipient sender body sampleKind : String)
    (messages : List InboxMessage) (carries : List Nat) :
    PendingShimAck.inboxIds { recipient, sender, body, carries
                              inboxMessages := ackMessages sampleKind messages } =
      messages.map InboxMessage.id := by
  simp [PendingShimAck.inboxIds, ackMessages]

/-- Messages of the turn that pass its checks may be sent, together or alone. -/
theorem SendsChecked.sends (h : SendsChecked Sends Waits start member messages)
    (hmoved : Moved Sends Waits start mailroom) {sender body sampleKind : String}
    {chosen : List InboxMessage} (hchosen : chosen ⊆ messages)
    (hfresh : ∀ message ∈ chosen, message.id ∉ mailroom.heldIds ∧ message.id ∉ start.suppressed) :
    ∀ mailroom', Moved Sends Waits mailroom mailroom' →
      mailroom'.pendingShimAcks = mailroom.pendingShimAcks →
      Sends mailroom' { recipient := member, sender, body
                        inboxMessages := ackMessages sampleKind chosen
                        carries := chosen.map InboxMessage.id } := by
  intro mailroom' hmoved' hacks
  refine h mailroom' (hmoved.trans hmoved') _ rfl (inboxIds_ackMessages _ _ _ _ _ _).symm ?_
  rw [inboxIds_ackMessages]
  intro id hid
  obtain ⟨message, hmem, rfl⟩ := List.mem_map.mp hid
  obtain ⟨hheld, hnot⟩ := hfresh message hmem
  refine ⟨List.mem_map_of_mem (hchosen hmem), ?_, hnot⟩
  rwa [heldIds, hacks]

theorem moved_sendTogether (sender body sampleKind : String) (chosen : List InboxMessage)
    (h : ∀ mailroom', Moved Sends Waits mailroom mailroom' →
      mailroom'.pendingShimAcks = mailroom.pendingShimAcks →
      Sends mailroom' { recipient := member, sender, body
                        inboxMessages := ackMessages sampleKind chosen
                        carries := chosen.map InboxMessage.id }) :
    Moved Sends Waits mailroom
      (sendTogether routing mailroom member sender body sampleKind chosen).2 := by
  have hdraw : Moved Sends Waits mailroom (mailroom.drawId none).2 := moved_drawId none
  exact hdraw.trans (moved_sendLiveShimMessage routing.toRouting
    fun mailroom' hmoved hacks => h mailroom' (hdraw.trans hmoved) hacks)

theorem moved_deliverInboxMessage (hown : SendsOwn Sends Waits) (hwaits : Waits [])
    (h : SendsChecked Sends Waits start member messages) (digestIds : List Nat)
    {delivered : Bool × Mailroom} (hmoved : Moved Sends Waits start delivered.2)
    {message : InboxMessage} (hmem : message ∈ messages) :
    Moved Sends Waits start
      (deliverInboxMessage routing member digestIds delivered message).2 := by
  obtain ⟨any, mailroom⟩ := delivered
  unfold deliverInboxMessage
  dsimp only at hmoved ⊢
  split
  · exact hmoved
  · rename_i hchecks
    simp only [pendingAckContainsInboxId_iff, not_or] at hchecks
    split
    · exact hmoved.trans (moved_settle routing _)
    · split
      · split
        · exact hmoved.trans (moved_settle routing _)
        · have hunheld : ∀ other ∈ [message], other.id ∉ mailroom.heldIds ∧
              other.id ∉ start.suppressed := by
            intro other hother
            rw [List.mem_singleton.mp hother]
            exact ⟨hchecks.2.2, hmoved.suppressed_eq ▸ hchecks.1⟩
          have hsend : Moved Sends Waits mailroom (sendLiveShimMessage routing.toRouting mailroom
              member message.sender (routing.deliveryBody message) (.inbox message.id)
              (ackMessages "inbox" [message]) ([message].map InboxMessage.id)).2 :=
            moved_sendLiveShimMessage routing.toRouting
              (h.sends hmoved (fun _ h => List.mem_singleton.mp h ▸ hmem) hunheld)
          split <;> rename_i hresult <;> simp only [List.map_cons, List.map_nil] at hsend <;>
            rw [hresult] at hsend
          · exact (hmoved.trans hsend).trans (moved_applyStateChange _ _)
          · exact hmoved.trans hsend
      · exact hmoved.trans (moved_deliverAssignment routing hown hwaits message)

theorem moved_flushManagerDigest (h : SendsChecked Sends Waits start member messages)
    (hmoved : Moved Sends Waits start mailroom) {digest : List InboxMessage}
    (hdigest : digest ⊆ messages)
    (hsuppressed : ∀ message ∈ digest, message.id ∉ start.suppressed) :
    Moved Sends Waits start (flushManagerDigest routing mailroom member digest).2 := by
  unfold flushManagerDigest
  split
  · exact hmoved
  · split
    · exact hmoved
    · rename_i hheld
      split
      · exact hmoved
      · refine hmoved.trans (moved_sendTogether routing _ _ _ _
          (h.sends hmoved hdigest fun message hmem => ?_))
        refine ⟨fun hmem' => hheld ?_, hsuppressed message hmem⟩
        exact List.any_eq_true.mpr ⟨message, hmem, pendingAckContainsInboxId_iff.mpr hmem'⟩

theorem moved_deliverSingly (hown : SendsOwn Sends Waits) (hwaits : Waits [])
    (h : SendsChecked Sends Waits start member messages) (hmoved : Moved Sends Waits start mailroom)
    {digest ordered : List InboxMessage} (hdigest : digest ⊆ messages)
    (hsuppressed : ∀ message ∈ digest, message.id ∉ start.suppressed)
    (hordered : ordered ⊆ messages) :
    Moved Sends Waits start (deliverSingly routing member digest ordered mailroom) := by
  have hloop : Moved Sends Waits start (ordered.foldl
      (deliverInboxMessage routing member (digest.map InboxMessage.id)) (false, mailroom)).2 :=
    List.foldlRecOn (motive := fun delivered : Bool × Mailroom =>
        Moved Sends Waits start delivered.2) ordered _
      hmoved fun delivered hdelivered message hmem =>
        moved_deliverInboxMessage routing hown hwaits h _ hdelivered (hordered hmem)
  have hflush : ∀ delivered : Bool × Mailroom, Moved Sends Waits start delivered.2 →
      Moved Sends Waits start (if !delivered.1 && !digest.isEmpty then
        flushManagerDigest routing delivered.2 member digest else delivered).2 := by
    intro delivered hdelivered
    split
    · exact moved_flushManagerDigest routing h hdelivered hdigest hsuppressed
    · exact hdelivered
  have hwork : ∀ delivered : Bool × Mailroom, Moved Sends Waits start delivered.2 →
      Moved Sends Waits start
        (if delivered.1 then delivered.2.markMemberWorking member else delivered.2) := by
    intro delivered hdelivered
    split
    · exact hdelivered.trans (moved_markMemberWorking member)
    · exact hdelivered
  exact hwork _ (hflush _ hloop)

/-- Messages were taken out of `new`, and the suppressed ones are others. -/
def Settled (mailroom mailroom' : Mailroom) : Prop :=
  ∃ inbox suppressed, inbox.Sublist mailroom.inbox ∧
    mailroom' = { mailroom with inbox, suppressed }

theorem Settled.trans {mailroom'' : Mailroom} (h : Settled mailroom mailroom')
    (h' : Settled mailroom' mailroom'') : Settled mailroom mailroom'' := by
  obtain ⟨inbox, suppressed, hsublist, rfl⟩ := h
  obtain ⟨inbox', suppressed', hsublist', rfl⟩ := h'
  exact ⟨inbox', suppressed', hsublist'.trans hsublist, rfl⟩

theorem settled_suppressed (suppressed : List Nat) :
    Settled mailroom { mailroom with suppressed } :=
  ⟨mailroom.inbox, suppressed, .refl _, rfl⟩

theorem settled_suppressWhere (drops : InboxMessage → Bool) (messages : List InboxMessage) :
    Settled mailroom (suppressWhere routing drops member messages mailroom) := by
  refine List.foldlRecOn messages _ (settled_suppressed mailroom.suppressed) ?_
  intro mailroom' hsettled message _
  split
  · refine hsettled.trans ⟨_, _, List.filter_sublist, rfl⟩
  · exact hsettled

/-- What is suppressed was to be dropped, and could be settled. -/
theorem mem_suppressed_suppressWhere {drops : InboxMessage → Bool} {messages : List InboxMessage}
    {id : Nat} (h : id ∈ (suppressWhere routing drops member messages mailroom).suppressed) :
    id ∈ mailroom.suppressed ∨
      ∃ message ∈ messages, message.id = id ∧ drops message ∧ routing.markFails id = false := by
  unfold suppressWhere at h
  induction messages generalizing mailroom with
  | nil => exact .inl h
  | cons message messages ih =>
    rw [List.foldl_cons] at h
    rcases ih h with h | ⟨other, hmem, hother⟩
    · split at h
      · rename_i hdropped
        rcases List.mem_cons.mp h with rfl | h
        · exact .inr ⟨message, List.mem_cons_self, rfl, hdropped.2.1, by simpa using hdropped.2.2⟩
        · exact .inl h
      · exact .inl h
    · exact .inr ⟨other, List.mem_cons_of_mem _ hmem, hother⟩

/-- What must be known of a batch, which checks nothing. -/
def SendsBatch (Sends : Mailroom → PendingShimAck → Prop) (Waits : List Nat → Prop)
    (start : Mailroom) (member : String) (batched : List InboxMessage) : Prop :=
  ∀ mailroom, Moved Sends Waits start mailroom → mailroom.pendingShimAcks = start.pendingShimAcks →
    ∀ sender body, Sends mailroom { recipient := member, sender, body
                                    inboxMessages := ackMessages "batched" batched
                                    carries := batched.map InboxMessage.id }

/-- The messages an architect's batch takes. -/
def batchOf (messages : List InboxMessage) : List InboxMessage :=
  messages.filter fun message => message.msgType = .send

/-- **A turn.** After what is suppressed has been settled, a turn is made of moves. -/
theorem moved_deliverMessages (hown : SendsOwn Sends Waits) (hwaits : Waits [])
    (roles : MemberRoles)
    (hchecked : ∀ start, Settled mailroom start → SendsChecked Sends Waits start member messages)
    (hbatch : roles member = some .architect → 1 < (batchOf messages).length →
      (mailroom.shimHandles member).isSome →
      SendsBatch Sends Waits (suppressWhere routing (staleDoneNotices routing) member messages
        { mailroom with suppressed := [] }) member (batchOf messages)) :
    ∃ start, Settled mailroom start ∧
      Moved Sends Waits start (deliverMessages routing roles member messages mailroom) := by
  have hstart : Settled mailroom (suppressWhere routing (staleDoneNotices routing) member messages
      { mailroom with suppressed := [] }) :=
    (settled_suppressed []).trans (settled_suppressWhere routing _ _)
  unfold deliverMessages
  dsimp only
  generalize hgeneralize : suppressWhere routing (staleDoneNotices routing) member messages
    { mailroom with suppressed := [] } = start at hstart hbatch ⊢
  have hsingly : ∀ mailroom', Moved Sends Waits start mailroom' →
      Moved Sends Waits start (deliverSingly routing member [] messages mailroom') := fun _ hmoved =>
    moved_deliverSingly routing hown hwaits (hchecked start hstart) hmoved (List.nil_subset _)
      (by simp) (List.Subset.refl _)
  split
  · -- a manager's digest leaves out what was suppressed
    have hstart' : Settled mailroom
        (suppressWhere routing (duplicateEscalations routing) member messages start) :=
      hstart.trans (settled_suppressWhere routing _ _)
    refine ⟨_, hstart', moved_deliverSingly routing hown hwaits (hchecked _ hstart') .refl ?_ ?_ ?_⟩
    · intro message hmem
      unfold managerDigest at hmem
      dsimp only at hmem
      split at hmem
      · exact (List.mem_filter.mp hmem).1
      · cases hmem
    · intro message hmem
      unfold managerDigest at hmem
      dsimp only at hmem
      split at hmem
      · have hdigestible := (List.mem_filter.mp hmem).2
        simp only [Bool.and_eq_true, decide_eq_true_eq] at hdigestible
        exact hdigestible.1.1.1
      · cases hmem
    · exact fun message hmem => (List.mem_insertionSort _).mp hmem
  · rename_i hrole
    refine ⟨start, hstart, ?_⟩
    by_cases hlength : 1 < (batchOf messages).length
    · rw [batchOf] at hlength
      rw [if_pos hlength]
      unfold deliverBatchedManagementMessages
      cases hhandle : (start.shimHandles member).isNone with
      | true => exact hsingly start .refl
      | false =>
        have hsome : (mailroom.shimHandles member).isSome := by
          obtain ⟨inbox, suppressed, -, rfl⟩ := hstart
          simpa [Option.isSome_iff_ne_none] using hhandle
        have hsend : Moved Sends Waits start (sendTogether routing start member
            (((batchOf messages).head?.map InboxMessage.sender).getD "daemon")
            (routing.batchBody (batchOf messages)) "batched" (batchOf messages)).2 :=
          moved_sendTogether routing _ _ _ _
            fun mailroom' hmoved hacks => hbatch hrole hlength hsome mailroom' hmoved hacks _ _
        rw [batchOf] at hsend
        simp only [Bool.false_eq_true, if_false]
        split <;> rename_i hresult <;> rw [hresult] at hsend
        · exact hsend.trans (moved_markMemberWorking member)
        · exact hsingly _ hsend
    · rw [batchOf] at hlength
      rw [if_neg hlength]
      exact hsingly start .refl
  · exact ⟨start, hstart, hsingly start .refl⟩

end Turn

end Mailroom

end Batty
