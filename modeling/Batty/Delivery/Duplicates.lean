import Batty.Delivery.Acks

/-!
# Duplicate sends

A transmission is clean if none of the inbox messages in it was waiting for an answer, had been
suppressed in the same tick or had been acknowledged when it was written. Sends of a message alone
and of a digest are clean because both check; the queue and the inboxes are clean because of what
is kept along a run (`Mailroom.Sound`).

Three places check nothing, and `FindsFresh` says what they must find: an architect's batch, the
acknowledgement of a message that cannot be moved out of `new`, and the hand-off of a restart,
which puts the message in flight back in the queue and forgets which inbox messages it holds.
-/

namespace Batty

open Mailroom

/-- Nothing in the transmission was waiting, suppressed or acknowledged when it was written. -/
def Transmission.Clean (transmission : Transmission) : Prop :=
  ∀ id ∈ transmission.inboxIds ++ transmission.carries,
    id ∉ transmission.held ∧ id ∉ transmission.suppressed ∧ id ∉ transmission.acknowledged

/-! ### What the unchecked places must find -/

/-- The member is an architect with a shim, and the tick has several messages for it. -/
def batchDue (routing : InboxRouting) (roles : MemberRoles) (mailroom : Mailroom)
    (member : String) : Bool :=
  roles member = some .architect && memberReadyForDelivery routing mailroom member &&
    !routing.unreadable member && 1 < (batchOf (mailroom.pendingMessages member)).length &&
    (mailroom.shimHandles member).isSome

/-- Nothing in a batch that is due waits for an answer or is a stale notice that is settled first. -/
def TurnFresh (routing : InboxRouting) (roles : MemberRoles) (mailroom : Mailroom)
    (member : String) : Prop :=
  batchDue routing roles mailroom member = true →
    ∀ message ∈ batchOf (mailroom.pendingMessages member), message.id ∉ mailroom.heldIds ∧
      ¬ (staleDoneNotices routing message = true ∧ routing.markFails message.id = false)

/-- Every turn of the tick finds its batch fresh. -/
def TickFresh (routing : InboxRouting) (roles : MemberRoles) (mailroom : Mailroom) :
    List String → Prop
  | [] => True
  | member :: members =>
    TurnFresh routing roles mailroom member ∧
      TickFresh routing roles (deliverToMember routing roles mailroom member) members

/-- Every inbox message that the acknowledgement settles can be moved out of `new`. -/
def AckSettles (routing : InboxRouting) (mailroom : Mailroom) (id : MessageId) : Prop :=
  ∀ pending ∈ mailroom.pendingShimAcks.lookup id, ∀ inboxId ∈ pending.inboxIds,
    routing.markFails inboxId = false

/-- A message in flight that the restart puts back in the queue holds no inbox message. -/
def HandoffPlain (roles : MemberRoles) (mailroom : Mailroom) (kind : RestartKind)
    (member : String) : Prop :=
  classifyShimDisconnect roles member kind = .restartHandoff →
    ∀ handle ∈ mailroom.shimHandles member, ∀ inFlight ∈ handle.inFlightMessage,
      inFlight.carries = []

def MailStep.FindsFresh (roles : MemberRoles) (mailroom : Mailroom) : MailStep → Prop
  | .tick routing => TickFresh routing roles mailroom routing.members
  | .event routing _ (.messageDelivered id) => AckSettles routing mailroom id
  | .restart kind member => HandoffPlain roles mailroom kind member
  | _ => True

def FindsFresh (roles : MemberRoles) (mailroom : Mailroom) : List MailStep → Prop
  | [] => True
  | step :: steps => step.FindsFresh roles mailroom ∧ FindsFresh roles (step.run roles mailroom) steps

/-! ### What is kept along a run -/

/-- The inbox message of that name, if it is still in `new`, is the recipient's. -/
def Mailroom.Names (mailroom : Mailroom) (recipient : String) (id : Nat) : Prop :=
  id < mailroom.filed ∧ ∀ message ∈ mailroom.inbox, message.id = id → message.recipient = recipient

/-- The invariant: every write was clean, what waits carries no inbox message, a pending
acknowledgement names its recipient's, and none in the inbox is acknowledged. -/
structure Mailroom.Sound (mailroom : Mailroom) : Prop where
  clean : ∀ transmission ∈ mailroom.wire, transmission.Clean
  waits : ∀ member, ∀ message ∈ mailroom.pendingDeliveryQueue member, message.carries = []
  carried : ∀ entry ∈ mailroom.pendingShimAcks, entry.2.carries ⊆ entry.2.inboxIds
  named : ∀ entry ∈ mailroom.pendingShimAcks, ∀ id ∈ entry.2.inboxIds,
    mailroom.Names entry.2.recipient id
  unacknowledged : ∀ message ∈ mailroom.inbox, message.id ∉ mailroom.acknowledged
  acknowledged : ∀ id ∈ mailroom.acknowledged, id < mailroom.filed
  filed : ∀ message ∈ mailroom.inbox, message.id < mailroom.filed
  nodup : (mailroom.inbox.map InboxMessage.id).Nodup

/-- What is known of a message that is sent. -/
structure SendsFresh (mailroom : Mailroom) (pending : PendingShimAck) : Prop where
  carried : pending.carries ⊆ pending.inboxIds
  named : ∀ id ∈ pending.inboxIds, mailroom.Names pending.recipient id
  fresh : ∀ id ∈ pending.inboxIds,
    id ∉ mailroom.heldIds ∧ id ∉ mailroom.suppressed ∧ id ∉ mailroom.acknowledged

/-- What is known of a message that is queued: it holds no inbox message. -/
def WaitsPlain (carries : List Nat) : Prop := carries = []

theorem sendsOwn_fresh : SendsOwn SendsFresh WaitsPlain := by
  intro mailroom pending hinbox hcarries
  have hids : pending.inboxIds = [] := by rw [PendingShimAck.inboxIds, hinbox, List.map_nil]
  refine ⟨?_, ?_, ?_⟩
  · rw [hcarries]
    exact List.nil_subset _
  · simp [hids]
  · simp [hids]

section

variable {mailroom mailroom' : Mailroom}

theorem names_of_move (h : Move SendsFresh WaitsPlain mailroom mailroom') {recipient : String}
    {id : Nat} (hnames : mailroom.Names recipient id) : mailroom'.Names recipient id := by
  obtain ⟨hfiled, howner⟩ := hnames
  cases h with
  | markDelivered member settled =>
    exact ⟨hfiled, fun message hmem => howner message (List.mem_filter.mp hmem).1⟩
  | @file message hid =>
    refine ⟨Nat.lt_succ_of_lt hfiled, fun other hmem hother => ?_⟩
    rcases List.mem_append.mp hmem with hmem | hmem
    · exact howner other hmem hother
    · rw [List.mem_singleton.mp hmem, hid] at hother
      omega
  | _ => exact ⟨hfiled, howner⟩

theorem acknowledged_of_moved (h : Moved SendsFresh WaitsPlain mailroom mailroom') :
    mailroom'.acknowledged = mailroom.acknowledged := by
  induction h with
  | refl => rfl
  | tail _ hmove ih => cases hmove <;> exact ih

theorem names_of_moved (h : Moved SendsFresh WaitsPlain mailroom mailroom') {recipient : String}
    {id : Nat} (hnames : mailroom.Names recipient id) : mailroom'.Names recipient id := by
  induction h with
  | refl => exact hnames
  | tail _ hmove ih => exact names_of_move hmove ih

/-- **A move** keeps the mailroom sound. -/
theorem sound_of_move (h : Move SendsFresh WaitsPlain mailroom mailroom') (hsound : mailroom.Sound) :
    mailroom'.Sound := by
  have hnamed : ∀ {recipient id}, mailroom.Names recipient id → mailroom'.Names recipient id :=
    names_of_move h
  cases h with
  | handle hhandle hpid => exact { hsound with named := hsound.named }
  | idle member idle => exact { hsound with named := hsound.named }
  | draw => exact { hsound with named := hsound.named }
  | markDelivered member id =>
    exact {
      clean := hsound.clean
      waits := hsound.waits
      carried := hsound.carried
      named := fun entry hentry inboxId hid => hnamed (hsound.named entry hentry inboxId hid)
      unacknowledged := fun message hmem => hsound.unacknowledged message (List.mem_filter.mp hmem).1
      acknowledged := hsound.acknowledged
      filed := fun message hmem => hsound.filed message (List.mem_filter.mp hmem).1
      nodup := hsound.nodup.sublist (List.filter_sublist.map _) }
  | @file message hid =>
    exact {
      clean := hsound.clean
      waits := hsound.waits
      carried := hsound.carried
      named := fun entry hentry inboxId hid => hnamed (hsound.named entry hentry inboxId hid)
      unacknowledged := fun other hmem hacked => by
        rcases List.mem_append.mp hmem with hmem | hmem
        · exact hsound.unacknowledged other hmem hacked
        -- The new number is above all that were acknowledged.
        · have hlt := hsound.acknowledged _ hacked
          rw [List.mem_singleton.mp hmem, hid] at hlt
          exact Nat.lt_irrefl _ hlt
      acknowledged := fun id hacked => Nat.lt_succ_of_lt (hsound.acknowledged id hacked)
      filed := fun other hmem => by
        rcases List.mem_append.mp hmem with hmem | hmem
        · exact Nat.lt_succ_of_lt (hsound.filed other hmem)
        · rw [List.mem_singleton.mp hmem, hid]
          exact Nat.lt_succ_self _
      nodup := by
        rw [List.map_append, List.map_singleton, List.nodup_append]
        refine ⟨hsound.nodup, List.nodup_singleton _, fun one hone two htwo heq => ?_⟩
        obtain ⟨other, hmem, rfl⟩ := List.mem_map.mp hone
        have hlt := hsound.filed other hmem
        rw [heq, List.mem_singleton.mp htwo, hid] at hlt
        exact Nat.lt_irrefl _ hlt }
  | queue hqueue =>
    exact { hsound with
      waits := fun member message hmem => (hqueue member message hmem).elim
        (hsound.waits member message) id
      named := hsound.named }
  | @send handle messageId pending hhandle hsends =>
    exact {
      clean := fun transmission hmem => by
        rcases List.mem_cons.mp hmem with rfl | hmem
        · intro id hid
          refine hsends.fresh id ?_
          rcases List.mem_append.mp hid with hid | hid
          · exact hid
          · exact hsends.carried hid
        · exact hsound.clean transmission hmem
      waits := hsound.waits
      carried := fun entry hentry => by
        rcases List.mem_cons.mp hentry with rfl | hentry
        · exact hsends.carried
        · exact hsound.carried entry (List.mem_filter.mp hentry).1
      named := fun entry hentry inboxId hid => by
        rcases List.mem_cons.mp hentry with rfl | hentry
        · exact hsends.named inboxId hid
        · exact hsound.named entry (List.mem_filter.mp hentry).1 inboxId hid
      unacknowledged := hsound.unacknowledged
      acknowledged := hsound.acknowledged
      filed := hsound.filed
      nodup := hsound.nodup }

theorem sound_of_moved (h : Moved SendsFresh WaitsPlain mailroom mailroom')
    (hsound : mailroom.Sound) : mailroom'.Sound := by
  induction h with
  | refl => exact hsound
  | tail _ hmove ih => exact sound_of_move hmove ih

theorem sound_of_settled (h : Settled mailroom mailroom') (hsound : mailroom.Sound) :
    mailroom'.Sound := by
  obtain ⟨inbox, suppressed, hsublist, rfl⟩ := h
  exact {
    clean := hsound.clean
    waits := hsound.waits
    carried := hsound.carried
    named := fun entry hentry id hid =>
      ⟨(hsound.named entry hentry id hid).1, fun message hmem =>
        (hsound.named entry hentry id hid).2 message (hsublist.subset hmem)⟩
    unacknowledged := fun message hmem => hsound.unacknowledged message (hsublist.subset hmem)
    acknowledged := hsound.acknowledged
    filed := fun message hmem => hsound.filed message (hsublist.subset hmem)
    nodup := hsound.nodup.sublist (hsublist.map _) }

/-! ### Ticks -/

/-- Two messages in `new` of one name are one message. -/
theorem Mailroom.Sound.names (hsound : mailroom.Sound) {message : InboxMessage}
    (h : message ∈ mailroom.inbox) : mailroom.Names message.recipient message.id := by
  refine ⟨hsound.filed message h, fun other hother hid => ?_⟩
  rw [List.inj_on_of_nodup_map hsound.nodup hother h hid]

theorem names_of_settled (h : Settled mailroom mailroom') {recipient : String} {id : Nat}
    (hnames : mailroom.Names recipient id) : mailroom'.Names recipient id := by
  obtain ⟨inbox, suppressed, hsublist, rfl⟩ := h
  exact ⟨hnames.1, fun message hmem => hnames.2 message (hsublist.subset hmem)⟩

/-- What the messages of a turn are in every state of the turn. -/
theorem turn_message (hsound : mailroom.Sound) {start state : Mailroom}
    (hsettled : Settled mailroom start) (hmoved : Moved SendsFresh WaitsPlain start state)
    {member : String} {id : Nat}
    (hid : id ∈ (mailroom.pendingMessages member).map InboxMessage.id) :
    state.Names member id ∧ id ∉ state.acknowledged := by
  obtain ⟨message, hmem, rfl⟩ := List.mem_map.mp hid
  obtain ⟨hinbox, rfl⟩ := mem_pendingMessages.mp hmem
  refine ⟨names_of_moved hmoved (names_of_settled hsettled (hsound.names hinbox)), ?_⟩
  rw [acknowledged_of_moved hmoved]
  obtain ⟨inbox, suppressed, -, rfl⟩ := hsettled
  exact hsound.unacknowledged message hinbox

theorem sendsChecked_of_sound (hsound : mailroom.Sound) {start : Mailroom}
    (hsettled : Settled mailroom start) (member : String) :
    SendsChecked SendsFresh WaitsPlain start member (mailroom.pendingMessages member) := by
  intro state hmoved pending hrecipient hcarries hids
  have hmessage := fun id hid => turn_message hsound hsettled hmoved (hids id hid).1
  refine ⟨hcarries ▸ List.Subset.refl _, fun id hid => ?_, fun id hid => ?_⟩
  · rw [hrecipient]
    exact (hmessage id hid).1
  · exact ⟨(hids id hid).2.1, hmoved.suppressed_eq ▸ (hids id hid).2.2, (hmessage id hid).2⟩

/-- A fresh batch may be sent. -/
theorem sendsBatch_of_turnFresh (hsound : mailroom.Sound) {routing : InboxRouting}
    {member : String}
    (hfresh : ∀ message ∈ batchOf (mailroom.pendingMessages member),
      message.id ∉ mailroom.heldIds ∧
        ¬ (staleDoneNotices routing message = true ∧ routing.markFails message.id = false)) :
    SendsBatch SendsFresh WaitsPlain (suppressWhere routing (staleDoneNotices routing) member
      (mailroom.pendingMessages member) { mailroom with suppressed := [] }) member
      (batchOf (mailroom.pendingMessages member)) := by
  have hsettled : Settled mailroom (suppressWhere routing (staleDoneNotices routing) member
      (mailroom.pendingMessages member) { mailroom with suppressed := [] }) :=
    (settled_suppressed []).trans (settled_suppressWhere routing _ _)
  have hbatch : ∀ message ∈ batchOf (mailroom.pendingMessages member),
      message ∈ mailroom.pendingMessages member := fun message hmem => (List.mem_filter.mp hmem).1
  intro state hmoved hacks sender body
  refine ⟨?_, fun id hid => ?_, fun id hid => ?_⟩
  · rw [inboxIds_ackMessages]
    exact List.Subset.refl _
  all_goals
    rw [inboxIds_ackMessages] at hid
    obtain ⟨message, hmem, rfl⟩ := List.mem_map.mp hid
    have hmessage := turn_message hsound hsettled hmoved (List.mem_map_of_mem (hbatch message hmem))
  · exact hmessage.1
  · refine ⟨?_, fun hsuppressed => ?_, hmessage.2⟩
    · have hheld : state.heldIds = mailroom.heldIds := by
        obtain ⟨inbox, suppressed, -, heq⟩ := hsettled
        rw [heldIds, hacks, heq, heldIds]
      rw [hheld]
      exact (hfresh message hmem).1
    · -- what was suppressed in the turn is a stale notice, and so part of the batch
      rw [hmoved.suppressed_eq] at hsuppressed
      rcases mem_suppressed_suppressWhere routing hsuppressed with hnone | ⟨other, hother, hid', hdrops⟩
      · cases hnone
      · have hsend : other.msgType = .send := by
          have hstale := hdrops.1
          simp only [staleDoneNotices, Bool.and_eq_true, decide_eq_true_eq] at hstale
          exact hstale.1.1
        have hmem' : other ∈ batchOf (mailroom.pendingMessages member) :=
          List.mem_filter.mpr ⟨hother, by simpa using hsend⟩
        exact (hfresh other hmem').2 ⟨hdrops.1, hid'.symm ▸ hdrops.2⟩

theorem sound_deliverToMember (hsound : mailroom.Sound) (routing : InboxRouting)
    (roles : MemberRoles) {member : String} (hfresh : TurnFresh routing roles mailroom member) :
    (deliverToMember routing roles mailroom member).Sound := by
  unfold deliverToMember
  split
  · exact hsound
  · rename_i hturn
    simp only [Bool.or_eq_true, Bool.not_eq_true', not_or, Bool.not_eq_false, Bool.not_eq_true]
      at hturn
    dsimp only
    split
    · exact hsound
    · have hdelivers : ∃ start, Settled mailroom start ∧ Moved SendsFresh WaitsPlain start
          (deliverMessages routing roles member (mailroom.pendingMessages member) mailroom) :=
        moved_deliverMessages routing sendsOwn_fresh rfl roles
          (fun start hsettled => sendsChecked_of_sound hsound hsettled member)
          (fun hrole hlength hhandle => sendsBatch_of_turnFresh hsound
            (hfresh (by simp [batchDue, hrole, hturn, hlength, hhandle])))
      obtain ⟨start, hsettled, hmoved⟩ := hdelivers
      exact sound_of_moved hmoved (sound_of_settled hsettled hsound)

theorem sound_tick (hsound : mailroom.Sound) (routing : InboxRouting) (roles : MemberRoles)
    {members : List String} (hfresh : TickFresh routing roles mailroom members) :
    (members.foldl (deliverToMember routing roles) mailroom).Sound := by
  induction members generalizing mailroom with
  | nil => exact hsound
  | cons member members ih =>
    exact ih (sound_deliverToMember hsound routing roles hfresh.1) hfresh.2

/-! ### Events and restarts -/

theorem sound_drainPendingQueue (hsound : mailroom.Sound) (routing : Routing) (member : String) :
    (drainPendingQueue routing mailroom member).Sound :=
  sound_of_moved (moved_drainPendingQueue sendsOwn_fresh routing fun message hmem =>
    hsound.waits member message hmem) hsound

theorem sound_answer (hsound : mailroom.Sound) (member : String) (id : MessageId) :
    (mailroom.answer member id).Sound :=
  { hsound with
    carried := fun entry hentry => hsound.carried entry (List.mem_filter.mp hentry).1
    named := fun entry hentry => hsound.named entry (List.mem_filter.mp hentry).1 }

/-- Settling messages that can be moved takes them out of `new`. -/
theorem settle_foldl {routing : InboxRouting} {recipient : String} {ids : List Nat}
    (h : ∀ id ∈ ids, routing.markFails id = false) :
    ids.foldl (fun mailroom id => settle routing mailroom recipient id) mailroom = { mailroom with
      inbox := mailroom.inbox.filter fun message =>
        !(message.recipient = recipient && ids.contains message.id) } := by
  induction ids generalizing mailroom with
  | nil => simp
  | cons id ids ih =>
    have hsettle : settle routing mailroom recipient id = mailroom.markDelivered recipient id := by
      rw [settle, h id List.mem_cons_self]
      rfl
    rw [List.foldl_cons, hsettle, ih fun id hid => h id (List.mem_cons_of_mem _ hid)]
    simp only [markDelivered, List.filter_filter]
    congr 2
    funext message
    by_cases hrecipient : message.recipient = recipient <;> by_cases hid : message.id = id <;>
      simp [hrecipient, hid]

/-- **An acknowledgement.** What it settles is neither in `new` nor sent again. -/
theorem sound_handleMessageDelivered (hsound : mailroom.Sound) {routing : InboxRouting}
    (member : String) {id : MessageId} (hsettles : AckSettles routing mailroom id) :
    (handleMessageDelivered routing mailroom member id).Sound := by
  have hanswer := sound_answer hsound member id
  unfold handleMessageDelivered
  split
  · exact hanswer
  · rename_i pending hlookup
    have hmem : (id, pending) ∈ mailroom.pendingShimAcks := by
      obtain ⟨before, after, heq, -⟩ := List.lookup_eq_some_iff.mp hlookup
      rw [heq]
      exact List.mem_append_right _ List.mem_cons_self
    rw [settle_foldl (hsettles pending hlookup)]
    have hcarried := hsound.carried _ hmem
    have hnamed := hsound.named _ hmem
    exact {
      clean := hanswer.clean
      waits := hanswer.waits
      carried := hanswer.carried
      named := fun entry hentry inboxId hid =>
        ⟨(hanswer.named entry hentry inboxId hid).1, fun message hmessage =>
          (hanswer.named entry hentry inboxId hid).2 message (List.mem_filter.mp hmessage).1⟩
      unacknowledged := fun message hmessage hacked => by
        obtain ⟨hinbox, hkept⟩ := List.mem_filter.mp hmessage
        rcases List.mem_append.mp hacked with hacked | hacked
        · have hid := hcarried hacked
          have hrecipient := (hnamed message.id hid).2 message hinbox rfl
          simp [hrecipient, hid] at hkept
        · exact hsound.unacknowledged message hinbox hacked
      acknowledged := fun inboxId hacked => by
        rcases List.mem_append.mp hacked with hacked | hacked
        · exact (hnamed inboxId (hcarried hacked)).1
        · exact hsound.acknowledged inboxId hacked
      filed := fun message hmessage => hsound.filed message (List.mem_filter.mp hmessage).1
      nodup := hsound.nodup.sublist (List.filter_sublist.map _) }

theorem sound_handleShimEvent (hsound : mailroom.Sound) {routing : InboxRouting} (member : String)
    {said : ShimEvent MessageId}
    (hsettles : ∀ id, said = .messageDelivered id → AckSettles routing mailroom id) :
    (handleShimEvent routing mailroom member said).Sound := by
  have hidle : ∀ {mailroom : Mailroom}, mailroom.Sound →
      (((mailroom.applyStateChange member .idle).clearInFlightMessage member).setIdle member
        true).Sound := fun hsound =>
    sound_of_moved (((moved_applyStateChange member .idle).trans
      (moved_clearInFlightMessage member)).tail (.idle _ _ _)) hsound
  cases said with
  | ready =>
    simp only [handleShimEvent, handleReady]
    split
    · exact sound_drainPendingQueue hsound _ _
    · exact sound_drainPendingQueue (hidle hsound) _ _
  | stateChanged source target =>
    simp only [handleShimEvent, handleStateChanged]
    have hchanged := sound_of_moved (moved_applyStateChange member target) hsound
    refine sound_of_moved (.single (.idle _ _ _)) ?_
    split
    · exact sound_drainPendingQueue hchanged _ _
    · exact hchanged
  | messageDelivered id => exact sound_handleMessageDelivered hsound member (hsettles id rfl)
  | deliveryFailed id reason =>
    simp only [handleShimEvent, handleDeliveryFailed]
    refine sound_answer ?_ member id
    split
    · exact sound_of_moved ((moved_clearInFlightMessage member).trans
        (moved_applyStateChange member .idle)) hsound
    · exact hsound
  | completion messageId => exact hidle hsound
  | _ => exact hsound

/-- A restart keeps the queue free of inbox messages if the message in flight holds none. -/
theorem sound_restartShim (hsound : mailroom.Sound) {roles : MemberRoles} {kind : RestartKind}
    {member : String} (hplain : HandoffPlain roles mailroom kind member) :
    (restartShim roles kind mailroom member).Sound := by
  unfold restartShim
  split
  · exact hsound
  · rename_i handle hhandle
    have hrequeued : (replayOrRequeue roles mailroom member handle
        (classifyShimDisconnect roles member kind)).Sound := by
      unfold replayOrRequeue
      split
      · exact hsound
      · rename_i hhandoff
        simp only [Bool.or_eq_true, decide_eq_true_eq, not_or, not_not] at hhandoff
        split
        · exact hsound
        · rename_i inFlight hinFlight
          refine sound_of_move (.queue fun other waiting hmem => ?_) hsound
          by_cases hother : other = member
          · subst hother
            rw [Function.update_self] at hmem
            rcases List.mem_cons.mp hmem with rfl | hmem
            · exact .inr (hplain hhandoff.1 handle hhandle inFlight hinFlight)
            · exact .inl hmem
          · rw [Function.update_of_ne hother] at hmem
            exact .inl hmem
    dsimp only
    split
    · exact { hrequeued with named := hrequeued.named }
    · exact { hrequeued with named := hrequeued.named }

/-! ### Runs -/

theorem sound_step (hsound : mailroom.Sound) {roles : MemberRoles} {step : MailStep}
    (hfresh : step.FindsFresh roles mailroom) : (step.run roles mailroom).Sound := by
  cases step with
  | tick routing => exact sound_tick hsound routing roles hfresh
  | event routing member said =>
    refine sound_handleShimEvent hsound member fun id hid => ?_
    subst hid
    exact hfresh
  | restart kind member => exact sound_restartShim hsound hfresh
  | arrival routing sender recipient body msgType =>
    exact sound_of_moved (moved_deliverToInbox _ _ _ _ _) hsound
  | message routing sender recipient body =>
    exact sound_of_moved (moved_deliverMessage sendsOwn_fresh rfl _ _ _ _) hsound

theorem sound_run {roles : MemberRoles} {steps : List MailStep} (hsound : mailroom.Sound)
    (hfresh : FindsFresh roles mailroom steps) :
    ∀ state ∈ mailroomsThrough roles mailroom steps, state.Sound := by
  induction steps generalizing mailroom with
  | nil =>
    intro state hmem
    rw [List.mem_singleton.mp hmem]
    exact hsound
  | cons step steps ih =>
    intro state hmem
    rcases List.mem_cons.mp hmem with rfl | hmem
    · exact hsound
    · exact ih (sound_step hsound hfresh.1) hfresh.2 state hmem

theorem Mailroom.Opened.sound (h : mailroom.Opened) : mailroom.Sound where
  clean := by simp [h.wire]
  waits := by simp [h.queue]
  carried := by simp [h.acks]
  named := by simp [h.acks]
  unacknowledged := by simp [h.acknowledged]
  acknowledged := by simp [h.acknowledged]
  filed := h.filed
  nodup := h.nodup

/-- **Duplicates.** In every run in which the unchecked places find nothing that waits, is
suppressed or acknowledged, nothing that waits, is suppressed or acknowledged is sent. -/
theorem sendsClean_of_findsFresh (roles : MemberRoles) (mailroom : Mailroom)
    (hopened : mailroom.Opened) (steps : List MailStep)
    (hfresh : FindsFresh roles mailroom steps) :
    ∀ state ∈ mailroomsThrough roles mailroom steps,
      ∀ transmission ∈ state.wire, transmission.Clean :=
  fun state hmem => (sound_run hopened.sound hfresh state hmem).clean

end

/-! ### Two runs -/

instance (transmission : Transmission) : Decidable transmission.Clean :=
  inferInstanceAs (Decidable (∀ _ ∈ _, _))

instance (routing : InboxRouting) (roles : MemberRoles) (mailroom : Mailroom) (member : String) :
    Decidable (TurnFresh routing roles mailroom member) :=
  inferInstanceAs (Decidable (_ → _))

instance decidableTickFresh (routing : InboxRouting) (roles : MemberRoles) :
    ∀ mailroom members, Decidable (TickFresh routing roles mailroom members)
  | _, [] => .isTrue trivial
  | mailroom, member :: members =>
    have := decidableTickFresh routing roles (deliverToMember routing roles mailroom member) members
    inferInstanceAs (Decidable (_ ∧ _))

instance (roles : MemberRoles) (mailroom : Mailroom) (step : MailStep) :
    Decidable (step.FindsFresh roles mailroom) :=
  match step with
  | .tick routing => decidableTickFresh routing roles mailroom routing.members
  | .event routing _ (.messageDelivered id) =>
    match h : mailroom.pendingShimAcks.lookup id with
    | none => .isTrue fun pending hpending => by rw [h] at hpending; cases hpending
    | some pending =>
      decidable_of_iff (∀ inboxId ∈ pending.inboxIds, routing.markFails inboxId = false) <| by
        simp only [MailStep.FindsFresh, AckSettles, h, Option.mem_some_iff, forall_eq']
  | .event _ _ .ready | .event _ _ (.stateChanged _ _) | .event _ _ (.deliveryFailed _ _)
  | .event _ _ (.completion _) | .event _ _ (.warning _) | .event _ _ (.error _ _)
  | .event _ _ (.quotaBlocked _) | .event _ _ (.authRequired _) => .isTrue trivial
  | .restart _ _ => inferInstanceAs (Decidable (_ → _))
  | .arrival _ _ _ _ _ | .message _ _ _ _ => .isTrue trivial

instance decidableFindsFresh (roles : MemberRoles) :
    ∀ mailroom steps, Decidable (FindsFresh roles mailroom steps)
  | _, [] => .isTrue trivial
  | mailroom, step :: steps =>
    have := decidableFindsFresh roles (step.run roles mailroom) steps
    inferInstanceAs (Decidable (_ ∧ _))

def architectRoles : MemberRoles := fun _ => some .architect

/-- An architect gets a message, then two more as a batch, and is restarted when the batch is done. -/
def batchSteps : List MailStep :=
  [.tick (plainRouting "architect"),
    .event (plainRouting "architect") "architect" (.messageDelivered (.inbox 0)),
    .event (plainRouting "architect") "architect" (.completion none),
    .arrival (plainRouting "architect") "manager" "architect" "the plan is late" .send,
    .arrival (plainRouting "architect") "manager" "architect" "and so is the board" .send,
    .tick (plainRouting "architect"),
    .event (plainRouting "architect") "architect" (.messageDelivered (.drawn 0)),
    .event (plainRouting "architect") "architect" (.completion none),
    .restart (.cold "stale") "architect"]

/-- Several messages that go to an architect at once. -/
theorem sendsClean_of_findsFresh_batch :
    FindsFresh architectRoles (oneMessage "architect") batchSteps ∧
      ∀ state ∈ mailroomsThrough architectRoles (oneMessage "architect") batchSteps,
        ∀ transmission ∈ state.wire, transmission.Clean := by
  have hfresh : FindsFresh architectRoles (oneMessage "architect") batchSteps := by
    decide +kernel
  exact ⟨hfresh, sendsClean_of_findsFresh architectRoles (oneMessage "architect")
    (opened_oneMessage "architect") _ hfresh⟩

/-- A message that an architect has not acknowledged goes out again with the next one. -/
theorem not_sendsClean_batched :
    ¬ ∀ roles mailroom, mailroom.Opened → ∀ steps,
      ∀ state ∈ mailroomsThrough roles mailroom steps,
        ∀ transmission ∈ state.wire, transmission.Clean := by
  intro h
  have hclean := h architectRoles (oneMessage "architect") (opened_oneMessage "architect")
    [.tick (plainRouting "architect"),
      .event (plainRouting "architect") "architect" (.stateChanged .working .idle),
      .arrival (plainRouting "architect") "manager" "architect" "the plan is late" .send,
      .tick (plainRouting "architect")]
  exact absurd hclean (by decide +kernel)

end Batty
