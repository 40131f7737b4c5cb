import Mathlib.Data.List.Dedup
import Batty.Foundation.Lists
import Batty.Foundation.Text
import Batty.Delivery.Mailroom

/-!
# The pending queue

Messages for a shim that is not ready wait in a queue. They leave it when the shim becomes ready
and the queue is drained, or when they have waited for too long and are put in the inbox instead.

Both take the messages out of the queue before they do anything with them. A drain stops at the
first message that cannot be dealt with, and with it goes the rest of the queue; an expiry goes on,
but what could not be stored is gone. Nothing is lost exactly if nothing fails
(`losesNothing_iff_deliverable`).
-/

namespace Batty

open Mailroom

namespace Mailroom

/-! ### Draining -/

/-- The messages of the list that are dealt with when they are delivered one after the other. -/
def handed (routing : Routing) (recipient : String) :
    List PendingMessage → Mailroom → List PendingMessage
  | [], _ => []
  | message :: messages, mailroom =>
    match deliverMessageWithId routing mailroom recipient message with
    | (true, mailroom) => message :: handed routing recipient messages mailroom
    | (false, _) => []

/-- No shim takes the message: there is none, it has ended, or it cannot be written to. -/
def Unreachable (routing : Routing) (mailroom : Mailroom) (recipient : String)
    (message : PendingMessage) : Prop :=
  ∀ handle ∈ mailroom.shimHandles recipient, handle.isTerminal = true ∨ handle.isReady = true ∧
    routing.channelFails recipient (some (mailroom.drawId message.messageId).1) = true

/-- The only way that is open to the message is closed: the channel of a user, or the inbox of a
member that cannot be reached. -/
def Undeliverable (routing : Routing) (mailroom : Mailroom) (recipient : String)
    (message : PendingMessage) : Prop :=
  routing.suppresses message.sender recipient message.body = false ∧
    if routing.hasChannel recipient then
      routing.channelSends message.sender recipient message.body = false
    else
      routing.logs recipient message.body = false ∧
        Unreachable routing mailroom recipient message ∧ routing.knows recipient = true ∧
        routing.files mailroom.filed recipient message.body = false

/-- Every message finds a way when its turn comes. -/
def AllDeliverable (routing : Routing) (recipient : String) :
    List PendingMessage → Mailroom → Prop
  | [], _ => True
  | message :: messages, mailroom =>
    ¬ Undeliverable routing mailroom recipient message ∧
      AllDeliverable routing recipient messages
        (deliverMessageWithId routing mailroom recipient message).2

/-- Messages for the recipient are put off: it has a shim that is neither ready nor at its end. -/
def Defers (routing : Routing) (mailroom : Mailroom) (recipient : String) : Prop :=
  routing.hasChannel recipient = false ∧ ∃ handle ∈ mailroom.shimHandles recipient,
    handle.isReady = false ∧ handle.isTerminal = false

section Drain

variable {routing : Routing} {mailroom : Mailroom} {recipient : String}

theorem isTerminal_eq_false_of_isReady {handle : AgentHandle} (h : handle.isReady = true) :
    handle.isTerminal = false := by
  have hidle : handle.state = .idle := by simpa [AgentHandle.isReady] using h
  simp [AgentHandle.isTerminal, hidle, ShimState.isTerminal]

theorem shimHandles_drawId (messageId : Option MessageId) :
    (mailroom.drawId messageId).2.shimHandles = mailroom.shimHandles := by
  cases messageId <;> rfl

theorem filed_drawId (messageId : Option MessageId) :
    (mailroom.drawId messageId).2.filed = mailroom.filed := by
  cases messageId <;> rfl

theorem pendingDeliveryQueue_drawId (messageId : Option MessageId) :
    (mailroom.drawId messageId).2.pendingDeliveryQueue = mailroom.pendingDeliveryQueue := by
  cases messageId <;> rfl

theorem fileMessage_fails_iff {message : PendingMessage} :
    (fileMessage routing mailroom recipient message).1 = false ↔
      routing.knows recipient = true ∧
        routing.files mailroom.filed recipient message.body = false := by
  unfold fileMessage
  split <;> simp [*]

theorem deliverMessageWithId_fails_iff {message : PendingMessage} :
    (deliverMessageWithId routing mailroom recipient message).1 = false ↔
      Undeliverable routing mailroom recipient message := by
  unfold deliverMessageWithId Undeliverable
  split
  · simp [*]
  rename_i hsuppresses
  split
  · simp [*]
  split
  · simp [*]
  rename_i hlogs
  simp only [Bool.not_eq_true] at hsuppresses hlogs
  simp only [hsuppresses, hlogs, true_and, Unreachable]
  split
  · simp [fileMessage_fails_iff, *]
  rename_i handle hhandle
  have hhandles := @shimHandles_drawId mailroom message.messageId
  have hfiled := @filed_drawId mailroom message.messageId
  generalize mailroom.drawId message.messageId = drawn at hhandles hfiled ⊢
  obtain ⟨messageId, mailroom'⟩ := drawn
  dsimp only at hhandles hfiled ⊢
  simp only [hhandle, Option.mem_some_iff, forall_eq']
  split
  · rename_i hready
    have hterminal := isTerminal_eq_false_of_isReady hready
    by_cases hfails : routing.channelFails recipient (some messageId)
    · simp [sendLiveShimMessage, hhandles, hhandle, hfails, hready, fileMessage_fails_iff,
        setHandle, hfiled]
    · simp [sendLiveShimMessage, hhandles, hhandle, hfails, hterminal]
  · rename_i hready
    split
    · simp_all
    · simp_all [fileMessage_fails_iff]

/-- Delivering leaves the state of the shim as it is, and the queue unless messages are put off. -/
structure Steady (routing : Routing) (recipient : String) (mailroom mailroom' : Mailroom) :
    Prop where
  state : (mailroom'.shimHandles recipient).map AgentHandle.state =
    (mailroom.shimHandles recipient).map AgentHandle.state
  queue : ¬ Defers routing mailroom recipient →
    mailroom'.pendingDeliveryQueue recipient = mailroom.pendingDeliveryQueue recipient

theorem Steady.refl (routing : Routing) (recipient : String) (mailroom : Mailroom) :
    Steady routing recipient mailroom mailroom := ⟨rfl, fun _ => rfl⟩

theorem Steady.defers_iff {mailroom' : Mailroom} (h : Steady routing recipient mailroom mailroom') :
    Defers routing mailroom' recipient ↔ Defers routing mailroom recipient := by
  have hstate := h.state
  unfold Defers AgentHandle.isReady AgentHandle.isTerminal
  cases hbefore : mailroom.shimHandles recipient <;>
    cases hafter : mailroom'.shimHandles recipient <;> simp_all

theorem Steady.trans {mailroom' mailroom'' : Mailroom}
    (h : Steady routing recipient mailroom mailroom')
    (h' : Steady routing recipient mailroom' mailroom'') :
    Steady routing recipient mailroom mailroom'' where
  state := h'.state.trans h.state
  queue hdefers := (h'.queue (mt h.defers_iff.mp hdefers)).trans (h.queue hdefers)

theorem steady_drawId (messageId : Option MessageId) :
    Steady routing recipient mailroom (mailroom.drawId messageId).2 :=
  ⟨by rw [shimHandles_drawId], fun _ => by rw [pendingDeliveryQueue_drawId]⟩

theorem steady_fileMessage (message : PendingMessage) :
    Steady routing recipient mailroom (fileMessage routing mailroom recipient message).2 := by
  unfold fileMessage deliverToInbox
  split
  · split <;> exact ⟨rfl, fun _ => rfl⟩
  · exact .refl _ _ _

theorem steady_sendLiveShimMessage (sender body : String) (messageId : MessageId)
    (inboxMessages : List PendingAckInboxMessage) (carries : List Nat) :
    Steady routing recipient mailroom (sendLiveShimMessage routing mailroom recipient sender body
      messageId inboxMessages carries).2 := by
  unfold sendLiveShimMessage
  split
  · exact .refl _ _ _
  · rename_i handle hhandle
    dsimp only
    split <;>
      exact ⟨by simp [setHandle, transmit, enqueuePendingShimAck, hhandle], fun _ => rfl⟩

theorem steady_deliverMessageWithId (message : PendingMessage) :
    Steady routing recipient mailroom
      (deliverMessageWithId routing mailroom recipient message).2 := by
  unfold deliverMessageWithId
  split
  · exact .refl _ _ _
  split
  · exact .refl _ _ _
  rename_i hchannel
  split
  · exact .refl _ _ _
  split
  · exact steady_fileMessage _
  rename_i handle hhandle
  have hdraw := @steady_drawId routing mailroom recipient message.messageId
  generalize mailroom.drawId message.messageId = drawn at hdraw ⊢
  obtain ⟨messageId, mailroom'⟩ := drawn
  dsimp only at hdraw ⊢
  split
  · have hsend := @steady_sendLiveShimMessage routing mailroom' recipient message.sender
      message.body messageId [] message.carries
    split <;> rename_i hresult <;> rw [hresult] at hsend
    · exact hdraw.trans (hsend.trans (steady_fileMessage _))
    · exact hdraw.trans hsend
  · rename_i hready
    split
    · rename_i hterminal
      refine ⟨hdraw.state, fun hdefers => absurd ?_ hdefers⟩
      exact ⟨by simpa using hchannel, handle, hhandle, by simpa using hready,
        by simpa using hterminal⟩
    · exact hdraw.trans (steady_fileMessage _)

/-- A message that is put off is dealt with. -/
theorem not_undeliverable_of_defers (h : Defers routing mailroom recipient)
    (message : PendingMessage) : ¬ Undeliverable routing mailroom recipient message := by
  obtain ⟨hchannel, handle, hhandle, hready, hterminal⟩ := h
  rintro ⟨-, hway⟩
  rw [hchannel, if_neg Bool.false_ne_true] at hway
  rcases hway.2.1 handle hhandle with hends | ⟨hidle, -⟩
  · exact absurd hends (by simp [hterminal])
  · exact absurd hidle (by simp [hready])

theorem handed_eq_of_allDeliverable {messages : List PendingMessage}
    (h : AllDeliverable routing recipient messages mailroom) :
    handed routing recipient messages mailroom = messages := by
  induction messages generalizing mailroom with
  | nil => rfl
  | cons message messages ih =>
    obtain ⟨hmessage, hmessages⟩ := h
    rw [← deliverMessageWithId_fails_iff, Bool.not_eq_false] at hmessage
    unfold handed
    split <;> rename_i hresult
    · rw [hresult] at hmessages
      rw [ih hmessages]
    · rw [hresult] at hmessage
      cases hmessage

theorem allDeliverable_of_defers {messages : List PendingMessage}
    (h : Defers routing mailroom recipient) :
    AllDeliverable routing recipient messages mailroom := by
  induction messages generalizing mailroom with
  | nil => exact trivial
  | cons message messages ih =>
    have hdefers := (@steady_deliverMessageWithId routing mailroom recipient message).defers_iff
    exact ⟨not_undeliverable_of_defers h message, ih (hdefers.mpr h)⟩

/-- Where something fails, fewer messages are dealt with than there were. -/
theorem handed_length_lt {messages : List PendingMessage}
    (h : ¬ AllDeliverable routing recipient messages mailroom) :
    (handed routing recipient messages mailroom).length < messages.length := by
  induction messages generalizing mailroom with
  | nil => exact absurd trivial h
  | cons message messages ih =>
    unfold handed
    split <;> rename_i mailroom' hresult
    · have hdelivered : ¬ Undeliverable routing mailroom recipient message := by
        simp [← deliverMessageWithId_fails_iff, hresult]
      have hrest : ¬ AllDeliverable routing recipient messages mailroom' := fun hall =>
        h ⟨hdelivered, by rwa [hresult]⟩
      simpa using ih hrest
    · exact Nat.succ_pos _

theorem steady_deliverAll {messages : List PendingMessage} :
    Steady routing recipient mailroom (deliverAll routing recipient messages mailroom) := by
  induction messages generalizing mailroom with
  | nil => exact .refl _ _ _
  | cons message messages ih =>
    have hsteady := @steady_deliverMessageWithId routing mailroom recipient message
    unfold deliverAll
    split <;> rename_i hresult <;> rw [hresult] at hsteady
    · exact hsteady.trans ih
    · exact hsteady

/-- **Draining.** Nothing of the queue is lost exactly if every message finds a way. -/
theorem drain_subperm_iff :
    (mailroom.pendingDeliveryQueue recipient).Subperm
        (handed routing recipient (mailroom.pendingDeliveryQueue recipient)
            (mailroom.takeQueue recipient) ++
          (drainPendingQueue routing mailroom recipient).pendingDeliveryQueue recipient) ↔
      AllDeliverable routing recipient (mailroom.pendingDeliveryQueue recipient)
        (mailroom.takeQueue recipient) := by
  constructor
  · intro hsubperm
    by_contra hall
    -- a failure means that nothing is put off, so that what is not dealt with is gone
    have hdefers : ¬ Defers routing (mailroom.takeQueue recipient) recipient :=
      mt allDeliverable_of_defers hall
    have hempty : (drainPendingQueue routing mailroom recipient).pendingDeliveryQueue recipient =
        [] := by
      have hsteady := @steady_deliverAll routing (mailroom.takeQueue recipient) recipient
        (mailroom.pendingDeliveryQueue recipient)
      exact (hsteady.queue hdefers).trans (by simp [takeQueue])
    have hlt := handed_length_lt hall
    have hle := hsubperm.length_le
    rw [hempty, List.append_nil] at hle
    omega
  · intro hall
    rw [handed_eq_of_allDeliverable hall]
    exact (List.sublist_append_left _ _).subperm

end Drain

/-! ### Expiry -/

/-- Senders with more expired messages than this get one digest. -/
def digestThreshold : Nat := 3

end Mailroom

/-- What an expiry reads outside of the mailroom. -/
structure Expiry where
  now : Nat
  /-- No message expires if this is zero. -/
  pendingQueueMaxAgeSecs : Nat
  /-- The recipients that have a queue. -/
  recipients : List String
  nodup : recipients.Nodup
  /-- How long the message at a place in the queue of a recipient has waited. -/
  elapsedSecs : String → Nat → Nat
  /-- The order in which the senders are gone through. -/
  order : List String → List String
  perm : ∀ senders, (order senders).Perm senders
  /-- Whether the inbox of a recipient takes the message that is put there at a place. -/
  files : String → Nat → Bool

/-- What is put in the inbox for one or for several expired messages. -/
structure Filing where
  sender : String
  body : String
  covers : List PendingMessage

namespace Expiry

variable (expiry : Expiry) (recipient : String)

/-- The messages of a queue and how long they have waited. -/
def aged (queue : List PendingMessage) : List (PendingMessage × Nat) :=
  queue.zipIdx.map fun (message, place) => (message, expiry.elapsedSecs recipient place)

def isStale (message : PendingMessage × Nat) : Bool := expiry.pendingQueueMaxAgeSecs ≤ message.2

def expired (queue : List PendingMessage) : List (PendingMessage × Nat) :=
  (expiry.aged recipient queue).filter expiry.isStale

def kept (queue : List PendingMessage) : List (PendingMessage × Nat) :=
  (expiry.aged recipient queue).filter fun message => !expiry.isStale message

/-- The beginning of the first line. -/
def preview (body : String) : String :=
  String.ofList (((Text.lines body.toList).head?.getD []).take 200)

def digest (sender : String) (messages : List (PendingMessage × Nat)) : Filing :=
  let oldestAgeSecs := (messages.map Prod.snd).foldl max 0
  let newestPreview := preview ((messages.getLast?.map fun message => message.1.body).getD "")
  { sender
    body := s!"[digest] {messages.length} messages from {sender} expired after " ++
      s!"{expiry.pendingQueueMaxAgeSecs}s (oldest: {oldestAgeSecs}s ago). Most recent:\n" ++
      newestPreview
    covers := messages.map Prod.fst }

/-- The messages of one sender, each alone or all in a digest. -/
def filingsOf (sender : String) (messages : List (PendingMessage × Nat)) : List Filing :=
  if messages.length ≤ Mailroom.digestThreshold then
    messages.map fun (message, _) => { sender, body := message.body, covers := [message] }
  else [expiry.digest sender messages]

def filings (messages : List (PendingMessage × Nat)) : List Filing :=
  (expiry.order (messages.map fun message => message.1.sender).dedup).flatMap fun sender =>
    expiry.filingsOf sender (messages.filter fun message => message.1.sender = sender)

/-- What is put in the inbox of the recipient: a filing that fails is only logged. -/
def stored (messages : List (PendingMessage × Nat)) : List Filing :=
  ((expiry.filings messages).zipIdx.filter fun (_, place) => expiry.files recipient place).map
    Prod.fst

end Expiry

namespace Mailroom

def expireFor (expiry : Expiry) (mailroom : Mailroom) (recipient : String) : Mailroom :=
  let queue := mailroom.pendingDeliveryQueue recipient
  let mailroom := (expiry.stored recipient (expiry.expired recipient queue)).foldl
    (fun mailroom filing => mailroom.store expiry.now filing.sender recipient filing.body .send)
    mailroom
  { mailroom with
    pendingDeliveryQueue := Function.update mailroom.pendingDeliveryQueue recipient
      ((expiry.kept recipient queue).map Prod.fst) }

def expireStalePendingMessages (expiry : Expiry) (mailroom : Mailroom) : Mailroom :=
  if expiry.pendingQueueMaxAgeSecs = 0 then mailroom
  else expiry.recipients.foldl (expireFor expiry) mailroom

section Expire

variable {expiry : Expiry} {mailroom : Mailroom} {recipient : String}

theorem pendingDeliveryQueue_foldl_store (filings : List Filing) :
    (filings.foldl (fun mailroom filing =>
        mailroom.store expiry.now filing.sender recipient filing.body .send)
      mailroom).pendingDeliveryQueue = mailroom.pendingDeliveryQueue := by
  induction filings generalizing mailroom with
  | nil => rfl
  | cons filing filings ih => exact ih

theorem pendingDeliveryQueue_expireFor (other : String) :
    (expireFor expiry mailroom recipient).pendingDeliveryQueue other =
      if other = recipient then
        (expiry.kept recipient (mailroom.pendingDeliveryQueue recipient)).map Prod.fst
      else mailroom.pendingDeliveryQueue other := by
  unfold expireFor
  dsimp only
  rw [pendingDeliveryQueue_foldl_store, Function.update_apply]

/-- Each recipient's queue is gone through once. -/
theorem pendingDeliveryQueue_foldl_expireFor {recipients : List String}
    (hnodup : recipients.Nodup) :
    (recipients.foldl (expireFor expiry) mailroom).pendingDeliveryQueue recipient =
      if recipient ∈ recipients then
        (expiry.kept recipient (mailroom.pendingDeliveryQueue recipient)).map Prod.fst
      else mailroom.pendingDeliveryQueue recipient := by
  induction recipients generalizing mailroom with
  | nil => rfl
  | cons head recipients ih =>
    obtain ⟨hnotin, hnodup⟩ := List.nodup_cons.mp hnodup
    rw [List.foldl_cons, ih hnodup, pendingDeliveryQueue_expireFor]
    by_cases hhead : recipient = head
    · subst hhead
      simp [hnotin]
    · simp [hhead]

theorem covers_filingsOf (sender : String) (messages : List (PendingMessage × Nat)) :
    (expiry.filingsOf sender messages).flatMap Filing.covers = messages.map Prod.fst := by
  unfold Expiry.filingsOf
  split
  · rw [List.flatMap_map]
    exact List.flatMap_pure_eq_map _ _
  · simp [Expiry.digest]

/-- Every expired message is in a filing. -/
theorem covers_filings_perm (messages : List (PendingMessage × Nat)) :
    ((expiry.filings messages).flatMap Filing.covers).Perm (messages.map Prod.fst) := by
  have hnodup := (expiry.perm (messages.map fun message => message.1.sender).dedup).nodup_iff.mpr
    (List.nodup_dedup _)
  have hmem : ∀ message ∈ messages, message.1.sender ∈
      expiry.order (messages.map fun message => message.1.sender).dedup := by
    intro message hmessage
    rw [(expiry.perm _).mem_iff, List.mem_dedup]
    exact List.mem_map_of_mem hmessage
  unfold Expiry.filings
  rw [List.flatMap_assoc]
  simp only [covers_filingsOf]
  rw [← List.map_flatMap]
  exact (perm_flatMap_filter hnodup hmem).map _

theorem aged_fst (queue : List PendingMessage) :
    (expiry.aged recipient queue).map Prod.fst = queue := by
  simp [Expiry.aged, List.map_map, Function.comp_def]

theorem expired_append_kept_perm (queue : List PendingMessage) :
    ((expiry.expired recipient queue).map Prod.fst ++
      (expiry.kept recipient queue).map Prod.fst).Perm queue := by
  rw [← List.map_append]
  have hperm := (List.filter_append_perm expiry.isStale (expiry.aged recipient queue)).map Prod.fst
  rwa [aged_fst] at hperm

theorem covers_ne_nil {messages : List (PendingMessage × Nat)} {filing : Filing}
    (h : filing ∈ expiry.filings messages) : filing.covers ≠ [] := by
  obtain ⟨sender, -, hfiling⟩ := List.mem_flatMap.mp h
  unfold Expiry.filingsOf at hfiling
  split at hfiling
  · obtain ⟨message, -, rfl⟩ := List.mem_map.mp hfiling
    exact List.cons_ne_nil _ _
  · rename_i hmany
    rw [List.mem_singleton.mp hfiling]
    intro hnil
    rw [Expiry.digest, List.map_eq_nil_iff] at hnil
    simp [hnil] at hmany

theorem stored_eq {messages : List (PendingMessage × Nat)}
    (h : ∀ place < (expiry.filings messages).length, expiry.files recipient place = true) :
    expiry.stored recipient messages = expiry.filings messages := by
  have hall : (expiry.filings messages).zipIdx.filter
      (fun (_, place) => expiry.files recipient place) = (expiry.filings messages).zipIdx := by
    refine List.filter_eq_self.mpr fun entry hmem => h entry.2 ?_
    have hlt := List.snd_lt_of_mem_zipIdx hmem
    omega
  rw [Expiry.stored, hall, List.zipIdx_map_fst]

/-- A filing that fails takes its messages with it. -/
theorem stored_length_lt {messages : List (PendingMessage × Nat)} {place : Nat}
    (hplace : place < (expiry.filings messages).length)
    (hfails : expiry.files recipient place = false) :
    ((expiry.stored recipient messages).flatMap Filing.covers).length < messages.length := by
  have hmem : ((expiry.filings messages)[place], place) ∈ (expiry.filings messages).zipIdx := by
    simp [List.mem_zipIdx_iff_getElem?]
  have hne : (Filing.covers ∘ Prod.fst) ((expiry.filings messages)[place], place) ≠ [] :=
    covers_ne_nil (List.getElem_mem hplace)
  have hlt := @length_flatMap_filter_lt _ _ (fun (_, place) => expiry.files recipient place)
    (Filing.covers ∘ Prod.fst) _ _ hmem hfails hne
  have hall : ((expiry.filings messages).zipIdx.flatMap (Filing.covers ∘ Prod.fst)).length =
      messages.length := by
    have hperm := (@covers_filings_perm expiry messages).length_eq
    rw [List.length_map] at hperm
    have hcovers := List.flatMap_map Prod.fst Filing.covers (expiry.filings messages).zipIdx
    rw [List.zipIdx_map_fst] at hcovers
    rw [← hperm, hcovers]
    rfl
  rw [Expiry.stored, List.flatMap_map]
  exact hlt.trans_eq hall

/-- **Expiry.** Nothing of a queue is lost exactly if every filing for its recipient succeeds. -/
theorem expire_subperm_iff {queue : List PendingMessage} :
    queue.Subperm ((expiry.stored recipient (expiry.expired recipient queue)).flatMap
        Filing.covers ++ (expiry.kept recipient queue).map Prod.fst) ↔
      ∀ place < (expiry.filings (expiry.expired recipient queue)).length,
        expiry.files recipient place = true := by
  have hperm := @expired_append_kept_perm expiry recipient queue
  constructor
  · intro hsubperm place hplace
    by_contra hfails
    have hlt := stored_length_lt hplace (by simpa using hfails)
    have hle := hsubperm.length_le
    have hlength := hperm.length_eq
    simp only [List.length_append, List.length_map] at hle hlength
    omega
  · intro hfiles
    rw [stored_eq hfiles]
    exact (hperm.symm.trans ((covers_filings_perm _).symm.append_right _)).subperm

end Expire

/-! ### Nothing is lost -/

section Others

variable {routing : Routing} {mailroom : Mailroom} {recipient other : String}

theorem pendingDeliveryQueue_fileMessage (message : PendingMessage) :
    (fileMessage routing mailroom recipient message).2.pendingDeliveryQueue =
      mailroom.pendingDeliveryQueue := by
  unfold fileMessage deliverToInbox
  split
  · split <;> rfl
  · rfl

theorem pendingDeliveryQueue_sendLiveShimMessage (sender body : String) (messageId : MessageId)
    (inboxMessages : List PendingAckInboxMessage) (carries : List Nat) :
    (sendLiveShimMessage routing mailroom recipient sender body messageId inboxMessages
      carries).2.pendingDeliveryQueue = mailroom.pendingDeliveryQueue := by
  unfold sendLiveShimMessage
  split
  · rfl
  · dsimp only
    split <;> rfl

theorem pendingDeliveryQueue_deliverMessageWithId_of_ne (hother : other ≠ recipient)
    (message : PendingMessage) :
    (deliverMessageWithId routing mailroom recipient message).2.pendingDeliveryQueue other =
      mailroom.pendingDeliveryQueue other := by
  unfold deliverMessageWithId
  split
  · rfl
  split
  · rfl
  split
  · rfl
  split
  · rw [pendingDeliveryQueue_fileMessage]
  have hdraw := @pendingDeliveryQueue_drawId mailroom message.messageId
  generalize mailroom.drawId message.messageId = drawn at hdraw ⊢
  obtain ⟨messageId, mailroom'⟩ := drawn
  dsimp only at hdraw ⊢
  split
  · have hsend := @pendingDeliveryQueue_sendLiveShimMessage routing mailroom' recipient
      message.sender message.body messageId [] message.carries
    split <;> rename_i hresult <;> rw [hresult] at hsend <;> dsimp only at hsend ⊢
    · rw [pendingDeliveryQueue_fileMessage, hsend, hdraw]
    · rw [hsend, hdraw]
  · split
    · dsimp only [queuePendingMessageCapped]
      rw [Function.update_of_ne hother, hdraw]
    · rw [pendingDeliveryQueue_fileMessage, hdraw]

theorem pendingDeliveryQueue_deliverAll_of_ne (hother : other ≠ recipient)
    (messages : List PendingMessage) :
    (deliverAll routing recipient messages mailroom).pendingDeliveryQueue other =
      mailroom.pendingDeliveryQueue other := by
  induction messages generalizing mailroom with
  | nil => rfl
  | cons message messages ih =>
    have hone := @pendingDeliveryQueue_deliverMessageWithId_of_ne routing mailroom _ _ hother message
    unfold deliverAll
    split <;> rename_i hresult <;> rw [hresult] at hone
    · exact ih.trans hone
    · exact hone

end Others

end Mailroom

/-- What is done to the pending queues in a tick. -/
inductive QueueStep where
  | drain (routing : Routing) (recipient : String)
  | expire (expiry : Expiry)

namespace QueueStep

def run (mailroom : Mailroom) : QueueStep → Mailroom
  | drain routing recipient => drainPendingQueue routing mailroom recipient
  | expire expiry => expireStalePendingMessages expiry mailroom

/-- What the step has dealt with of the messages that waited for the recipient: those that were
handed over, and those that are in something that was stored. -/
def settled (mailroom : Mailroom) (recipient : String) : QueueStep → List PendingMessage
  | drain routing drained =>
    if recipient = drained then
      handed routing recipient (mailroom.pendingDeliveryQueue recipient)
        (mailroom.takeQueue recipient)
    else []
  | expire expiry =>
    if expiry.pendingQueueMaxAgeSecs = 0 ∨ recipient ∉ expiry.recipients then []
    else
      (expiry.stored recipient
        (expiry.expired recipient (mailroom.pendingDeliveryQueue recipient))).flatMap Filing.covers

/-- Each message that waited has been dealt with or still waits. -/
def LosesNothing (mailroom : Mailroom) (step : QueueStep) : Prop :=
  ∀ recipient, (mailroom.pendingDeliveryQueue recipient).Subperm
    (step.settled mailroom recipient ++ (step.run mailroom).pendingDeliveryQueue recipient)

def Deliverable (mailroom : Mailroom) : QueueStep → Prop
  | drain routing recipient =>
    AllDeliverable routing recipient (mailroom.pendingDeliveryQueue recipient)
      (mailroom.takeQueue recipient)
  | expire expiry => expiry.pendingQueueMaxAgeSecs = 0 ∨ ∀ recipient ∈ expiry.recipients,
    ∀ place < (expiry.filings
        (expiry.expired recipient (mailroom.pendingDeliveryQueue recipient))).length,
      expiry.files recipient place = true

end QueueStep

/-- **The queue.** A drain loses nothing exactly if every message of the queue finds a way when its
turn comes, an expiry exactly if everything it puts in an inbox gets there. -/
theorem losesNothing_iff_deliverable (mailroom : Mailroom) (step : QueueStep) :
    step.LosesNothing mailroom ↔ step.Deliverable mailroom := by
  cases step with
  | drain routing recipient =>
    rw [QueueStep.Deliverable, ← drain_subperm_iff]
    refine ⟨fun h => by simpa [QueueStep.settled, QueueStep.run] using h recipient,
      fun h other => ?_⟩
    by_cases hother : other = recipient
    · subst hother
      simpa [QueueStep.settled, QueueStep.run] using h
    · have hqueue : (drainPendingQueue routing mailroom recipient).pendingDeliveryQueue other =
          mailroom.pendingDeliveryQueue other :=
        (pendingDeliveryQueue_deliverAll_of_ne hother _).trans (Function.update_of_ne hother _ _)
      rw [QueueStep.settled, if_neg hother, List.nil_append, QueueStep.run, hqueue]
  | expire expiry =>
    unfold QueueStep.LosesNothing QueueStep.Deliverable QueueStep.settled QueueStep.run
      expireStalePendingMessages
    by_cases hoff : expiry.pendingQueueMaxAgeSecs = 0
    · simp [hoff, List.Subperm.refl]
    simp only [hoff, false_or, if_false]
    simp only [pendingDeliveryQueue_foldl_expireFor expiry.nodup]
    constructor
    · intro h recipient hmem
      rw [← expire_subperm_iff]
      simpa [hmem] using h recipient
    · intro h recipient
      by_cases hmem : recipient ∈ expiry.recipients
      · simpa [hmem] using expire_subperm_iff.mpr (h recipient hmem)
      · simp [hmem, List.Subperm.refl]

/-! ### A queue that is lost -/

/-- The shim of the member is gone, and its inbox cannot be written. -/
def closedInbox : Routing where
  now := 0
  suppresses := fun _ _ _ => false
  hasChannel := fun _ => false
  channelSends := fun _ _ _ => false
  logs := fun _ _ => false
  channelFails := fun _ _ => false
  knows := fun _ => true
  files := fun _ _ _ => false
  pendingDigestKey := fun _ _ => none

def twoWaiting : Mailroom where
  shimHandles := fun _ => none
  idle := fun _ => false
  pendingShimAcks := []
  pendingDeliveryQueue := Function.update (fun _ => []) "eng-1" [
    { sender := "manager", body := "please rebase", messageId := none, carries := [] },
    { sender := "architect", body := "the plan has changed", messageId := none, carries := [] }]
  inbox := []
  filed := 0
  drawn := 0
  spawned := 0
  suppressed := []
  wire := []
  outstanding := []
  acknowledged := []

/-- The first message cannot be stored, and the second is not even tried. -/
theorem not_losesNothing_closedInbox :
    ¬ ∀ mailroom step, QueueStep.LosesNothing mailroom step := by
  intro h
  have hle := (h twoWaiting (.drain closedInbox "eng-1") "eng-1").length_le
  revert hle
  decide +kernel

end Batty
