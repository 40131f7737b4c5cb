import Mathlib.Data.List.Nodup
import Batty.Delivery.Mailroom
import Batty.Dispatch.Available

/-!
# Failed live messages

A live message that a shim reports as failed is kept in `failedDeliveries`. On every tick the
messages that are due are sent again, and one whose attempts have run out is escalated.

A message is dropped in two ways. What is sent again waits for no acknowledgement, so that the
shim's report that it failed once more finds nothing. And the list is taken out as a whole, so that
an escalation that fails takes with it what follows in the list. In every run without these two,
each message that failed is in hand until it is delivered or escalated, and a message whose every
attempt fails is escalated after the last one (`retriesHold_of_spared`).

Whether a member is ready, and whether a send or a write to an inbox succeeds, is left open in
`RetryPass`. `RetryState` records besides which messages have failed and are owed since, which are
written again and unanswered, and what was escalated.
-/

namespace Batty

/-- What makes a live message the same message. -/
structure LiveMessage where
  recipient : String
  sender : String
  body : String
deriving DecidableEq

/-- A delivery that failed and is tried again. -/
structure FailedDelivery where
  recipient : String
  sender : String
  body : String
  messageId : MessageId
  attempts : Nat
  lastAttempt : Nat

def FailedDelivery.message (delivery : FailedDelivery) : LiveMessage where
  recipient := delivery.recipient
  sender := delivery.sender
  body := delivery.body

def PendingShimAck.message (pending : PendingShimAck) : LiveMessage where
  recipient := pending.recipient
  sender := pending.sender
  body := pending.body

/-- In nanoseconds. -/
def failedDeliveryRetryDelay : Nat := 30 * 1000000000

def failedDeliveryMaxAttempts : Nat := 3

namespace FailedDelivery

def new (message : LiveMessage) (messageId : MessageId) (now : Nat) : FailedDelivery where
  recipient := message.recipient
  sender := message.sender
  body := message.body
  messageId := messageId
  attempts := 1
  lastAttempt := now

def isReadyForRetry (delivery : FailedDelivery) (now : Nat) : Bool :=
  failedDeliveryRetryDelay ≤ now - delivery.lastAttempt

def hasAttemptsRemaining (delivery : FailedDelivery) : Bool :=
  delivery.attempts < failedDeliveryMaxAttempts

/-- The delivery once it is attempted again. -/
def attempted (delivery : FailedDelivery) (now : Nat) : FailedDelivery :=
  { delivery with attempts := delivery.attempts + 1, lastAttempt := now }

@[simp]
theorem message_new (message : LiveMessage) (messageId : MessageId) (now : Nat) :
    (new message messageId now).message = message := rfl

@[simp]
theorem message_attempted (delivery : FailedDelivery) (now : Nat) :
    (delivery.attempted now).message = delivery.message := rfl

@[simp]
theorem attempts_attempted (delivery : FailedDelivery) (now : Nat) :
    (delivery.attempted now).attempts = delivery.attempts + 1 := rfl

end FailedDelivery

/-! ### Escalation -/

/-- Who is told of a message that cannot be delivered. -/
structure EscalationConfig where
  members : List MemberInstance
  automationSender : Option String

namespace EscalationConfig

def reportsTo (config : EscalationConfig) (recipient : String) : Option String :=
  (config.members.find? fun member => member.name = recipient).bind MemberInstance.reportsTo

def automationSenderFor (config : EscalationConfig) (recipient : String) : String :=
  ((config.reportsTo recipient).or config.automationSender).getD "daemon"

/-- The member's superior, else a manager, else the sender of the daemon's own messages. -/
def failedDeliveryEscalationRecipient (config : EscalationConfig) (recipient : String) :
    Option String :=
  let manager := config.members.find? fun member =>
    member.roleType = .manager && member.name != recipient
  let sender := config.automationSenderFor recipient
  let knowsSender := sender != recipient && config.members.any fun member => member.name = sender
  (config.reportsTo recipient).or
    ((manager.map MemberInstance.name).or (if knowsSender then some sender else none))

end EscalationConfig

/-- A delivery whose attempts have run out, to whom it was escalated, and whether the message to
them could be put in their inbox. -/
structure Escalation where
  delivery : FailedDelivery
  target : Option String
  stored : Bool

/-! ### Retries -/

/-- The deliveries in failure, with the ghost records of what is owed. -/
structure RetryState where
  failedDeliveries : List FailedDelivery
  pendingShimAcks : List (MessageId × PendingShimAck)
  /-- Failed, and neither delivered nor escalated since. -/
  owed : List LiveMessage
  /-- Written again, and not answered yet. -/
  written : List FailedDelivery
  escalations : List Escalation

/-- What a pass meets. -/
structure RetryPass where
  now : Nat
  ready : FailedDelivery → Bool
  /-- There is a shim, and its channel takes the message. -/
  writes : FailedDelivery → Bool
  /-- The agent of the recipient has not been ready yet. -/
  starting : FailedDelivery → Bool
  stores : FailedDelivery → Bool

/-- What a pass does with a failed delivery. -/
inductive RetryVerdict where
  | waits | written | requeued | exhausted
deriving DecidableEq

/-- What becomes of a delivery that the pass comes to. -/
def RetryPass.verdict (pass : RetryPass) (delivery : FailedDelivery) : RetryVerdict :=
  if !delivery.isReadyForRetry pass.now then .waits
  else if !pass.ready delivery then .waits
  else
    let delivery := delivery.attempted pass.now
    if pass.writes delivery then .written
    else if delivery.hasAttemptsRemaining then .requeued
    else if pass.starting delivery then .requeued
    else .exhausted

namespace RetryState

def empty : RetryState where
  failedDeliveries := []
  pendingShimAcks := []
  owed := []
  written := []
  escalations := []

def push (state : RetryState) (delivery : FailedDelivery) : RetryState :=
  { state with failedDeliveries := state.failedDeliveries ++ [delivery] }

/-- The first delivery of the message was attempted just now. -/
def touch (message : LiveMessage) (now : Nat) : List FailedDelivery → List FailedDelivery
  | [] => []
  | delivery :: deliveries =>
    if delivery.message = message then { delivery with lastAttempt := now } :: deliveries
    else delivery :: touch message now deliveries

/-- A message that is among the failed ones already is not added again. -/
def recordFailedDeliveryWithId (state : RetryState) (message : LiveMessage)
    (messageId : MessageId) (now : Nat) : RetryState :=
  if state.failedDeliveries.any fun delivery => delivery.message = message then
    { state with failedDeliveries := touch message now state.failedDeliveries }
  else state.push (.new message messageId now)

variable (config : EscalationConfig)

def escalateFailedDelivery (pass : RetryPass) (delivery : FailedDelivery) (state : RetryState) :
    Bool × RetryState :=
  let target := config.failedDeliveryEscalationRecipient delivery.recipient
  let stored := target.isSome && pass.stores delivery
  (target.isNone || stored, { state with
    owed := state.owed.filter fun message => message ≠ delivery.message
    escalations := { delivery, target, stored } :: state.escalations })

def retryOne (pass : RetryPass) (delivery : FailedDelivery) (state : RetryState) :
    Bool × RetryState :=
  let attempted := delivery.attempted pass.now
  match pass.verdict delivery with
  | .waits => (true, state.push delivery)
  | .written => (true, { state with written := attempted :: state.written })
  | .requeued => (true, state.push attempted)
  | .exhausted => escalateFailedDelivery config pass attempted state

/-- Go through what was taken out of the list, up to the first escalation that fails. -/
def retryAll (pass : RetryPass) : List FailedDelivery → RetryState → Bool × RetryState
  | [], state => (true, state)
  | delivery :: pending, state =>
    match retryOne config pass delivery state with
    | (true, state) => retryAll pass pending state
    | (false, state) => (false, state)

def retryFailedDeliveries (pass : RetryPass) (state : RetryState) : Bool × RetryState :=
  retryAll config pass state.failedDeliveries { state with failedDeliveries := [] }

/-- Taking the acknowledgement of an id out of those that are pending. -/
def takeAck (state : RetryState) (messageId : MessageId) :
    Option PendingShimAck × RetryState :=
  ((state.pendingShimAcks.find? fun entry => entry.1 = messageId).map Prod.snd,
    { state with
      pendingShimAcks := state.pendingShimAcks.filter fun entry => entry.1 ≠ messageId })

/-- A retry that fails is owed as before. -/
def handleDeliveryFailed (messageId : MessageId) (now : Nat) (state : RetryState) : RetryState :=
  let (pending, state) := state.takeAck messageId
  let state := { state with
    written := state.written.filter fun delivery => delivery.messageId ≠ messageId }
  match pending with
  | some pending =>
    if pending.inboxMessages.isEmpty then
      let state := state.recordFailedDeliveryWithId pending.message messageId now
      { state with owed := pending.message :: state.owed }
    else state
  | none => state

/-- A retry that arrives is owed no longer. -/
def handleMessageDelivered (messageId : MessageId) (state : RetryState) : RetryState :=
  let (_, state) := state.takeAck messageId
  let arrived := state.written.filter fun delivery => delivery.messageId = messageId
  let stillOwed (message : LiveMessage) : Bool :=
    state.failedDeliveries.any (fun delivery => delivery.message = message) ||
      arrived.all fun delivery => delivery.message ≠ message
  { state with
    written := state.written.filter fun delivery => delivery.messageId ≠ messageId
    owed := state.owed.filter stillOwed }

end RetryState

/-! ### Runs -/

/-- What happens to the deliveries. -/
inductive RetryEvent where
  | sent (messageId : MessageId) (pending : PendingShimAck)
  | messageDelivered (messageId : MessageId)
  | deliveryFailed (messageId : MessageId) (now : Nat)
  | retry (pass : RetryPass)

namespace RetryState

variable (config : EscalationConfig)

def step (state : RetryState) : RetryEvent → RetryState
  | .sent messageId pending =>
    { state with pendingShimAcks :=
        (messageId, pending) :: state.pendingShimAcks.filter fun entry => entry.1 ≠ messageId }
  | .messageDelivered messageId => state.handleMessageDelivered messageId
  | .deliveryFailed messageId now => state.handleDeliveryFailed messageId now
  | .retry pass => (state.retryFailedDeliveries config pass).2

/-- The message will be sent again, or is written and not answered yet. -/
def InHand (state : RetryState) (message : LiveMessage) : Prop :=
  (∃ delivery ∈ state.failedDeliveries, delivery.message = message) ∨
    ∃ delivery ∈ state.written, delivery.message = message

/-- What is owed is in hand, and only what has no attempts left was escalated, to whom it is to
be. -/
structure Sound (state : RetryState) : Prop where
  inHand : ∀ message ∈ state.owed, state.InHand message
  owed : ∀ delivery ∈ state.failedDeliveries, delivery.message ∈ state.owed
  escalated : ∀ escalation ∈ state.escalations,
    escalation.delivery.hasAttemptsRemaining = false ∧
      escalation.target = config.failedDeliveryEscalationRecipient escalation.delivery.recipient
  distinct : (state.failedDeliveries.map FailedDelivery.message).Nodup

/-- The pass tries to send the message. -/
def Tries (state : RetryState) (message : LiveMessage) (pass : RetryPass) : Prop :=
  ∀ delivery ∈ state.failedDeliveries, delivery.message = message →
    pass.verdict delivery ≠ .waits

instance (state : RetryState) (message : LiveMessage) (pass : RetryPass) :
    Decidable (state.Tries message pass) :=
  inferInstanceAs (Decidable (∀ _ ∈ _, _))

def tries (message : LiveMessage) (state : RetryState) : List RetryEvent → Nat
  | [] => 0
  | .retry pass :: events =>
    (if state.Tries message pass then 1 else 0) +
      tries message (state.step config (.retry pass)) events
  | event :: events => tries message (state.step config event) events

end RetryState

/-- Every send of the message fails, and its agent is not one that only starts. -/
def FailsThroughout (message : LiveMessage) (events : List RetryEvent) : Prop :=
  ∀ pass, .retry pass ∈ events → ∀ delivery : FailedDelivery, delivery.message = message →
    pass.writes delivery = false ∧ pass.starting delivery = false

namespace RetryState

variable (config : EscalationConfig)

/-- A delivery of that kind was escalated on the way from one state to the other. -/
def EscalatedSince (P : FailedDelivery → Prop) (state state' : RetryState) : Prop :=
  ∃ recent, recent ++ state.escalations = state'.escalations ∧
    ∃ escalation ∈ recent, P escalation.delivery

def run (state : RetryState) (events : List RetryEvent) : RetryState :=
  events.foldl (step config) state

/-- A message whose every send fails is escalated once its attempts have run out. -/
def Escalates (state : RetryState) (events : List RetryEvent) : Prop :=
  ∀ delivery ∈ state.failedDeliveries, FailsThroughout delivery.message events →
    0 < state.tries config delivery.message events →
    failedDeliveryMaxAttempts ≤ delivery.attempts + state.tries config delivery.message events →
    EscalatedSince (fun delivery' => delivery'.message = delivery.message) state
      (state.run config events)

/-- Each delivery of the list is where it belongs after the pass, whatever becomes of the others. -/
def Handled (pass : RetryPass) (state state' : RetryState) (delivery : FailedDelivery) : Prop :=
  match pass.verdict delivery with
  | .waits => delivery ∈ state'.failedDeliveries
  | .written => delivery.attempted pass.now ∈ state'.written
  | .requeued => delivery.attempted pass.now ∈ state'.failedDeliveries
  | .exhausted => EscalatedSince (fun delivery' => delivery' = delivery.attempted pass.now) state
      state'

def HandlesAll (state : RetryState) : RetryEvent → Prop
  | .retry pass => ∀ delivery ∈ state.failedDeliveries,
      Handled pass state (state.step config (.retry pass)) delivery
  | _ => True

/-- In every state of the run nothing that failed was dropped, no pass loses any of its list, and
what fails from then on is escalated in time. -/
def RetriesHold (state : RetryState) : List RetryEvent → Prop
  | [] => state.Sound config ∧ state.Escalates config []
  | event :: events => (state.Sound config ∧ state.HandlesAll config event ∧
      state.Escalates config (event :: events)) ∧ RetriesHold (state.step config event) events

/-- The pass comes to a delivery without attempts left that there is someone to tell of, and they
cannot be told. -/
def EscalationFails (pass : RetryPass) (delivery : FailedDelivery) : Prop :=
  pass.verdict delivery = .exhausted ∧
    (config.failedDeliveryEscalationRecipient delivery.recipient).isSome = true ∧
    pass.stores (delivery.attempted pass.now) = false

/-- No report of a failure is for a message that was written again, and no escalation fails before
the end of the list. -/
def Spares (state : RetryState) : RetryEvent → Prop
  | .deliveryFailed messageId _ => ∀ delivery ∈ state.written, delivery.messageId ≠ messageId
  | .retry pass => ∀ delivery ∈ state.failedDeliveries.dropLast,
      ¬ EscalationFails config pass delivery
  | _ => True

def SparesThroughout (state : RetryState) : List RetryEvent → Prop
  | [] => True
  | event :: events => state.Spares config event ∧
      SparesThroughout (state.step config event) events

end RetryState

/-! ### One pass -/

namespace RetryState

section

variable {config : EscalationConfig} {pass : RetryPass} {delivery : FailedDelivery}
  {pending : List FailedDelivery} {state : RetryState} {message : LiveMessage}

theorem escalationFails_of_retryOne (h : (retryOne config pass delivery state).1 = false) :
    EscalationFails config pass delivery := by
  unfold retryOne at h
  cases hverdict : pass.verdict delivery with
  | waits => simp [hverdict] at h
  | written => simp [hverdict] at h
  | requeued => simp [hverdict] at h
  | exhausted =>
    simp only [hverdict, escalateFailedDelivery, Bool.or_eq_false_iff, Bool.and_eq_false_iff,
      Option.isNone_eq_false_iff] at h
    obtain ⟨hsome, hstored⟩ := h
    refine ⟨hverdict, hsome, hstored.resolve_left fun hnone => ?_⟩
    exact Bool.false_ne_true (hnone.symm.trans hsome)

/-- **One pass.** What holds of the list that is left, and is kept from one delivery to the next,
holds when nothing is left, as only the last escalation may fail. -/
theorem retryAll_of_steps {P : List FailedDelivery → RetryState → Prop}
    (hstep : ∀ delivery pending state, P (delivery :: pending) state →
      P pending (retryOne config pass delivery state).2)
    (hspares : ∀ delivery ∈ pending.dropLast, ¬ EscalationFails config pass delivery)
    (h : P pending state) : P [] (retryAll config pass pending state).2 := by
  induction pending generalizing state with
  | nil => exact h
  | cons delivery pending ih =>
    have hnext := hstep delivery pending state h
    unfold retryAll
    cases hone : retryOne config pass delivery state with
    | mk ok state' =>
      rw [hone] at hnext
      cases pending with
      | nil => cases ok <;> exact hnext
      | cons next pending =>
        cases ok with
        | true => exact ih (fun d hmem => hspares d (List.mem_cons_of_mem _ hmem)) hnext
        | false =>
          have hfails := @escalationFails_of_retryOne config pass delivery state (by rw [hone])
          exact absurd hfails (hspares delivery List.mem_cons_self)

/-- The deliveries that were taken out, put back in front of the others. -/
def restored (state : RetryState) (taken : List FailedDelivery) : RetryState :=
  { state with failedDeliveries := taken ++ state.failedDeliveries }

theorem inHand_iff : state.InHand message ↔
    message ∈ state.failedDeliveries.map FailedDelivery.message ∨
      message ∈ state.written.map FailedDelivery.message := by
  simp [InHand]

/-- Only the messages in the list matter, and not their order. -/
theorem Sound.of_perm (h : state.Sound config) {deliveries : List FailedDelivery}
    (hperm : (deliveries.map FailedDelivery.message).Perm
      (state.failedDeliveries.map FailedDelivery.message)) :
    Sound config { state with failedDeliveries := deliveries } where
  inHand message hmem := by
    have hhand := inHand_iff.mp (h.inHand message hmem)
    rw [← hperm.mem_iff] at hhand
    exact inHand_iff.mpr hhand
  owed delivery hmem := by
    have hmessage : delivery.message ∈ state.failedDeliveries.map FailedDelivery.message :=
      hperm.mem_iff.mp (List.mem_map_of_mem hmem)
    obtain ⟨delivery', hmem', heq⟩ := List.mem_map.mp hmessage
    exact heq ▸ h.owed delivery' hmem'
  escalated := h.escalated
  distinct := hperm.nodup_iff.mpr h.distinct

/-- A delivery goes back to the list in place of another one of its message. -/
theorem Sound.push (h : (state.restored (delivery :: pending)).Sound config)
    {delivery' : FailedDelivery} (hmessage : delivery'.message = delivery.message) :
    ((state.push delivery').restored pending).Sound config := by
  refine h.of_perm ?_
  simp only [RetryState.push, restored, List.map_append, List.map_cons, List.map_nil,
    List.cons_append, hmessage]
  rw [← List.append_assoc]
  exact List.perm_append_singleton _ _

/-- A delivery is taken out of the list as it is written. -/
theorem Sound.write (h : (state.restored (delivery :: pending)).Sound config)
    {delivery' : FailedDelivery} (hmessage : delivery'.message = delivery.message) :
    (restored { state with written := delivery' :: state.written } pending).Sound config where
  inHand message hmem := by
    rcases h.inHand message hmem with ⟨other, hother, rfl⟩ | ⟨other, hother, rfl⟩
    · rcases List.mem_cons.mp hother with rfl | hother
      · exact .inr ⟨delivery', List.mem_cons_self, hmessage⟩
      · exact .inl ⟨other, hother, rfl⟩
    · exact .inr ⟨other, List.mem_cons_of_mem _ hother, rfl⟩
  owed other hother := h.owed other (List.mem_cons_of_mem _ hother)
  escalated := h.escalated
  distinct := (List.nodup_cons.mp h.distinct).2

/-- A delivery is taken out of the list as it is escalated. -/
theorem Sound.escalate (h : (state.restored (delivery :: pending)).Sound config)
    (hexhausted : (delivery.attempted pass.now).hasAttemptsRemaining = false) :
    ((escalateFailedDelivery config pass (delivery.attempted pass.now) state).2.restored
      pending).Sound config where
  inHand message hmem := by
    obtain ⟨howed, hne⟩ := List.mem_filter.mp hmem
    rcases h.inHand message howed with ⟨other, hother, rfl⟩ | hwritten
    · rcases List.mem_cons.mp hother with rfl | hother
      · simp at hne
      · exact .inl ⟨other, hother, rfl⟩
    · exact .inr hwritten
  owed other hother := by
    have hne : other.message ≠ delivery.message := fun heq =>
      (List.nodup_cons.mp h.distinct).1 (heq ▸ List.mem_map_of_mem hother)
    exact List.mem_filter.mpr
      ⟨h.owed other (List.mem_cons_of_mem _ hother), decide_eq_true hne⟩
  escalated := by
    rintro escalation (_ | ⟨_, hmem⟩)
    · exact ⟨hexhausted, rfl⟩
    · exact h.escalated escalation hmem
  distinct := (List.nodup_cons.mp h.distinct).2

theorem hasAttemptsRemaining_of_exhausted (h : pass.verdict delivery = .exhausted) :
    (delivery.attempted pass.now).hasAttemptsRemaining = false := by
  unfold RetryPass.verdict at h
  grind

theorem Sound.retryOne (h : (state.restored (delivery :: pending)).Sound config) :
    ((retryOne config pass delivery state).2.restored pending).Sound config := by
  unfold RetryState.retryOne
  cases hverdict : pass.verdict delivery with
  | waits => exact h.push rfl
  | written => exact h.write rfl
  | requeued => exact h.push rfl
  | exhausted => exact h.escalate (hasAttemptsRemaining_of_exhausted hverdict)

theorem Sound.retry (h : state.Sound config)
    (hspares : ∀ delivery ∈ state.failedDeliveries.dropLast,
      ¬ EscalationFails config pass delivery) :
    (state.retryFailedDeliveries config pass).2.Sound config := by
  have hstart : (restored { state with failedDeliveries := [] } state.failedDeliveries).Sound
      config := by
    simpa only [restored, List.append_nil] using h
  exact @retryAll_of_steps config pass state.failedDeliveries { state with failedDeliveries := [] }
    (fun pending state' => (state'.restored pending).Sound config)
    (fun _ _ _ h => Sound.retryOne h) hspares hstart

/-! ### What a pass does with each delivery -/

/-- The lists only grow while the pass goes on. -/
structure Grows (state state' : RetryState) : Prop where
  failedDeliveries : state.failedDeliveries ⊆ state'.failedDeliveries
  written : state.written ⊆ state'.written
  escalations : state.escalations <:+ state'.escalations

theorem grows_retryOne : Grows state (retryOne config pass delivery state).2 := by
  unfold retryOne
  cases pass.verdict delivery with
  | waits => exact ⟨List.subset_append_left _ _, List.Subset.refl _, List.suffix_refl _⟩
  | written => exact ⟨List.Subset.refl _, List.subset_cons_self _ _, List.suffix_refl _⟩
  | requeued => exact ⟨List.subset_append_left _ _, List.Subset.refl _, List.suffix_refl _⟩
  | exhausted => exact ⟨List.Subset.refl _, List.Subset.refl _, List.suffix_cons _ _⟩

theorem EscalatedSince.trans_suffix {P : FailedDelivery → Prop} {state' state'' : RetryState}
    (h : EscalatedSince P state state') (hsuffix : state'.escalations <:+ state''.escalations) :
    EscalatedSince P state state'' := by
  obtain ⟨recent, heq, escalation, hmem, hP⟩ := h
  obtain ⟨later, hlater⟩ := hsuffix
  refine ⟨later ++ recent, ?_, escalation, List.mem_append_right _ hmem, hP⟩
  rw [List.append_assoc, heq, hlater]

theorem EscalatedSince.of_suffix {P : FailedDelivery → Prop} {state' state'' : RetryState}
    (hsuffix : state.escalations <:+ state'.escalations) (h : EscalatedSince P state' state'') :
    EscalatedSince P state state'' := by
  obtain ⟨recent, heq, escalation, hmem, hP⟩ := h
  obtain ⟨earlier, hearlier⟩ := hsuffix
  refine ⟨recent ++ earlier, ?_, escalation, List.mem_append_left _ hmem, hP⟩
  rw [List.append_assoc, hearlier, heq]

theorem Handled.grow {state' state'' : RetryState} (h : Handled pass state state' delivery)
    (hgrows : Grows state' state'') : Handled pass state state'' delivery := by
  unfold Handled at h ⊢
  cases hverdict : pass.verdict delivery with
  | waits => simp only [hverdict] at h ⊢; exact hgrows.failedDeliveries h
  | written => simp only [hverdict] at h ⊢; exact hgrows.written h
  | requeued => simp only [hverdict] at h ⊢; exact hgrows.failedDeliveries h
  | exhausted => simp only [hverdict] at h ⊢; exact h.trans_suffix hgrows.escalations

theorem handled_retryOne {state' : RetryState} (hsuffix : state.escalations <:+ state'.escalations) :
    Handled pass state (retryOne config pass delivery state').2 delivery := by
  unfold Handled retryOne
  cases pass.verdict delivery with
  | waits => exact List.mem_append_right _ (List.mem_singleton.mpr rfl)
  | written => exact List.mem_cons_self
  | requeued => exact List.mem_append_right _ (List.mem_singleton.mpr rfl)
  | exhausted =>
    obtain ⟨earlier, hearlier⟩ := hsuffix
    exact ⟨_ :: earlier, by rw [List.cons_append, hearlier]; rfl, _, List.mem_cons_self, rfl⟩

/-- No delivery of the list is lost. -/
theorem handled_retry (hspares : ∀ delivery ∈ state.failedDeliveries.dropLast,
      ¬ EscalationFails config pass delivery) :
    ∀ delivery ∈ state.failedDeliveries,
      Handled pass state (state.retryFailedDeliveries config pass).2 delivery := by
  have hall := @retryAll_of_steps config pass state.failedDeliveries
    { state with failedDeliveries := [] } (fun pending state' =>
      state.escalations <:+ state'.escalations ∧ ∀ delivery ∈ state.failedDeliveries,
        delivery ∈ pending ∨ Handled pass state state' delivery) ?_ hspares
    ⟨List.suffix_refl _, fun _ hmem => .inl hmem⟩
  · exact fun delivery hmem => (hall.2 delivery hmem).resolve_left List.not_mem_nil
  · rintro next pending state' ⟨hsuffix, hhandled⟩
    have hgrows := @grows_retryOne config pass next state'
    refine ⟨hsuffix.trans hgrows.escalations, fun delivery hmem => ?_⟩
    rcases hhandled delivery hmem with hpending | hdone
    · rcases List.mem_cons.mp hpending with rfl | hpending
      · exact .inr (handled_retryOne hsuffix)
      · exact .inl hpending
    · exact .inr (hdone.grow hgrows)

/-! ### The other events -/

theorem map_message_touch (now : Nat) (deliveries : List FailedDelivery) :
    (touch message now deliveries).map FailedDelivery.message =
      deliveries.map FailedDelivery.message := by
  induction deliveries with
  | nil => rfl
  | cons delivery deliveries ih =>
    unfold touch
    split
    · rfl
    · rw [List.map_cons, List.map_cons, ih]

theorem exists_mem_touch {now : Nat} {deliveries : List FailedDelivery}
    (h : delivery ∈ deliveries) : ∃ delivery' ∈ touch message now deliveries,
      delivery'.message = delivery.message ∧ delivery'.attempts = delivery.attempts := by
  induction deliveries with
  | nil => cases h
  | cons first deliveries ih =>
    unfold touch
    rcases List.mem_cons.mp h with rfl | hrest
    · split
      · exact ⟨_, List.mem_cons_self, rfl, rfl⟩
      · exact ⟨_, List.mem_cons_self, rfl, rfl⟩
    · split
      · exact ⟨delivery, List.mem_cons_of_mem _ hrest, rfl, rfl⟩
      · obtain ⟨delivery', hmem, hsame⟩ := ih hrest
        exact ⟨delivery', List.mem_cons_of_mem _ hmem, hsame⟩

theorem Sound.record {messageId : MessageId} {now : Nat} (h : state.Sound config) :
    Sound config { state.recordFailedDeliveryWithId message messageId now with
      owed := message :: (state.recordFailedDeliveryWithId message messageId now).owed } := by
  unfold recordFailedDeliveryWithId
  split
  · rename_i hany
    obtain ⟨first, hfirst, hmessage⟩ := List.any_eq_true.mp hany
    have hmem : message ∈ state.failedDeliveries.map FailedDelivery.message :=
      of_decide_eq_true hmessage ▸ List.mem_map_of_mem hfirst
    have hperm := List.Perm.of_eq (@map_message_touch message now state.failedDeliveries)
    obtain ⟨hinHand, howed, hescalated, hdistinct⟩ := h.of_perm hperm
    refine ⟨?_, fun d hd => List.mem_cons_of_mem _ (howed d hd), hescalated, hdistinct⟩
    rintro message' (_ | ⟨_, hmem'⟩)
    · exact inHand_iff.mpr (.inl (hperm.mem_iff.mpr hmem))
    · exact hinHand message' hmem'
  · rename_i hany
    have hfresh : message ∉ state.failedDeliveries.map FailedDelivery.message := by
      intro hmem
      obtain ⟨first, hfirst, hmessage⟩ := List.mem_map.mp hmem
      exact hany (List.any_eq_true.mpr ⟨first, hfirst, decide_eq_true hmessage⟩)
    refine ⟨?_, ?_, h.escalated, ?_⟩
    · rintro message' (_ | ⟨_, hmem⟩)
      · exact .inl ⟨.new message messageId now, List.mem_append_right _ List.mem_cons_self, rfl⟩
      · exact (h.inHand message' hmem).imp_left fun ⟨d, hd, heq⟩ =>
          ⟨d, List.mem_append_left _ hd, heq⟩
    · intro d hd
      rcases List.mem_append.mp hd with hd | hd
      · exact List.mem_cons_of_mem _ (h.owed d hd)
      · rw [List.mem_singleton.mp hd]
        exact List.mem_cons_self
    · show ((state.failedDeliveries ++ [FailedDelivery.new message messageId now]).map
        FailedDelivery.message).Nodup
      rw [List.map_append]
      refine h.distinct.append (List.nodup_singleton _) (List.disjoint_singleton.mpr ?_)
      exact hfresh

theorem Sound.deliveryFailed {messageId : MessageId} {now : Nat} (h : state.Sound config)
    (hspares : ∀ delivery ∈ state.written, delivery.messageId ≠ messageId) :
    (state.handleDeliveryFailed messageId now).Sound config := by
  have hwritten : (state.written.filter fun delivery => decide (delivery.messageId ≠ messageId)) =
      state.written := List.filter_eq_self.mpr fun d hd => decide_eq_true (hspares d hd)
  unfold handleDeliveryFailed takeAck
  simp only [hwritten]
  split
  · split
    · exact Sound.record ⟨h.inHand, h.owed, h.escalated, h.distinct⟩
    · exact ⟨h.inHand, h.owed, h.escalated, h.distinct⟩
  · exact ⟨h.inHand, h.owed, h.escalated, h.distinct⟩

theorem Sound.messageDelivered {messageId : MessageId} (h : state.Sound config) :
    (state.handleMessageDelivered messageId).Sound config where
  inHand message hmem := by
    obtain ⟨howed, hstill⟩ := List.mem_filter.mp hmem
    rcases h.inHand message howed with hlisted | ⟨delivery, hwritten, hmessage⟩
    · exact .inl hlisted
    · rcases Bool.or_eq_true_iff.mp hstill with hlisted | hnone
      · obtain ⟨other, hother, heq⟩ := List.any_eq_true.mp hlisted
        exact .inl ⟨other, hother, of_decide_eq_true heq⟩
      · refine .inr ⟨delivery, List.mem_filter.mpr ⟨hwritten, decide_eq_true fun hid => ?_⟩,
          hmessage⟩
        have harrived := List.all_eq_true.mp hnone delivery
          (List.mem_filter.mpr ⟨hwritten, decide_eq_true hid⟩)
        exact of_decide_eq_true harrived hmessage
  owed delivery hmem := by
    refine List.mem_filter.mpr ⟨h.owed delivery hmem, Bool.or_eq_true_iff.mpr (.inl ?_)⟩
    exact List.any_eq_true.mpr ⟨delivery, hmem, decide_eq_true rfl⟩
  escalated := h.escalated
  distinct := h.distinct

theorem Sound.step {event : RetryEvent} (h : state.Sound config)
    (hspares : state.Spares config event) : (state.step config event).Sound config := by
  cases event with
  | sent messageId pending => exact ⟨h.inHand, h.owed, h.escalated, h.distinct⟩
  | messageDelivered messageId => exact h.messageDelivered
  | deliveryFailed messageId now => exact h.deliveryFailed hspares
  | retry pass => exact h.retry hspares

theorem handlesAll_step {event : RetryEvent} (hspares : state.Spares config event) :
    state.HandlesAll config event := by
  cases event with
  | retry pass => exact handled_retry hspares
  | _ => trivial

/-! ### Escalation in time -/

theorem escalations_suffix_retryAll :
    state.escalations <:+ (retryAll config pass pending state).2.escalations := by
  induction pending generalizing state with
  | nil => exact List.suffix_refl _
  | cons delivery pending ih =>
    have hgrows := (@grows_retryOne config pass delivery state).escalations
    unfold retryAll
    cases hone : retryOne config pass delivery state with
    | mk ok state' =>
      rw [hone] at hgrows
      cases ok with
      | true => exact hgrows.trans ih
      | false => exact hgrows

theorem escalations_suffix_step {event : RetryEvent} :
    state.escalations <:+ (state.step config event).escalations := by
  cases event with
  | sent messageId pending => exact List.suffix_refl _
  | messageDelivered messageId => exact List.suffix_refl _
  | deliveryFailed messageId now =>
    simp only [step, handleDeliveryFailed, takeAck]
    split
    · split
      · unfold recordFailedDeliveryWithId
        split <;> exact List.suffix_refl _
      · exact List.suffix_refl _
    · exact List.suffix_refl _
  | retry pass => exact @escalations_suffix_retryAll config pass _ { state with
      failedDeliveries := [] }

theorem escalations_suffix_run {events : List RetryEvent} :
    state.escalations <:+ (state.run config events).escalations := by
  induction events generalizing state with
  | nil => exact List.suffix_refl _
  | cons event events ih => exact escalations_suffix_step.trans ih

/-- A failed delivery stays in the list when nothing is retried. -/
theorem exists_mem_deliveryFailed {messageId : MessageId} {now : Nat}
    (h : delivery ∈ state.failedDeliveries) :
    ∃ delivery' ∈ (state.handleDeliveryFailed messageId now).failedDeliveries,
      delivery'.message = delivery.message ∧ delivery'.attempts = delivery.attempts := by
  unfold handleDeliveryFailed takeAck
  dsimp only
  split
  · split
    · unfold recordFailedDeliveryWithId
      split
      · exact exists_mem_touch h
      · exact ⟨delivery, List.mem_append_left _ h, rfl, rfl⟩
    · exact ⟨delivery, h, rfl, rfl⟩
  · exact ⟨delivery, h, rfl, rfl⟩

theorem attempts_lt_of_requeued (h : pass.verdict delivery = .requeued)
    (hstarting : pass.starting (delivery.attempted pass.now) = false) :
    (delivery.attempted pass.now).attempts < failedDeliveryMaxAttempts := by
  unfold RetryPass.verdict FailedDelivery.hasAttemptsRemaining at h
  grind

theorem writes_of_written (h : pass.verdict delivery = .written) :
    pass.writes (delivery.attempted pass.now) = true := by
  unfold RetryPass.verdict at h
  grind

/-- A pass brings a message whose sends fail on by an attempt if it tries to send it, and never
back. -/
theorem retry_progress (hmem : delivery ∈ state.failedDeliveries)
    (hhandled : Handled pass state (state.step config (.retry pass)) delivery)
    (hfails : FailsThroughout delivery.message [.retry pass]) :
    (∃ delivery' ∈ (state.step config (.retry pass)).failedDeliveries,
      delivery'.message = delivery.message ∧ delivery.attempts ≤ delivery'.attempts ∧
      (state.Tries delivery.message pass → delivery.attempts < delivery'.attempts ∧
        delivery'.attempts < failedDeliveryMaxAttempts)) ∨
    EscalatedSince (fun delivery' => delivery'.message = delivery.message) state
      (state.step config (.retry pass)) := by
  obtain ⟨hwrites, hstarting⟩ := hfails pass (List.mem_singleton.mpr rfl)
    (delivery.attempted pass.now) rfl
  unfold Handled at hhandled
  cases hverdict : pass.verdict delivery with
  | waits =>
    rw [hverdict] at hhandled
    refine .inl ⟨delivery, hhandled, rfl, le_rfl, fun htries => ?_⟩
    exact absurd hverdict (htries delivery hmem rfl)
  | written =>
    rw [writes_of_written hverdict] at hwrites
    cases hwrites
  | requeued =>
    rw [hverdict] at hhandled
    exact .inl ⟨_, hhandled, rfl, Nat.le_succ _, fun _ =>
      ⟨Nat.lt_succ_self _, attempts_lt_of_requeued hverdict hstarting⟩⟩
  | exhausted =>
    rw [hverdict] at hhandled
    obtain ⟨recent, heq, escalation, hrecent, hdelivery⟩ := hhandled
    exact .inr ⟨recent, heq, escalation, hrecent, by rw [hdelivery]; rfl⟩

/-- **Escalation in time.** By induction on the run, the attempts that are left shrink with every
pass that tries. -/
theorem escalates_of_spared {events : List RetryEvent}
    (hspares : state.SparesThroughout config events) : state.Escalates config events := by
  induction events generalizing state with
  | nil =>
    intro delivery _ _ hpos
    exact absurd hpos (Nat.lt_irrefl 0)
  | cons event events ih =>
    obtain ⟨hnow, hrest⟩ := hspares
    intro delivery hmem hfails hpos hmax
    have hlater : FailsThroughout delivery.message events := fun pass hpass =>
      hfails pass (List.mem_cons_of_mem _ hpass)
    -- a delivery of the message that is still in the list is escalated in the rest of the run
    have hgoesOn : ∀ delivery' ∈ (state.step config event).failedDeliveries,
        delivery'.message = delivery.message →
        0 < (state.step config event).tries config delivery.message events →
        failedDeliveryMaxAttempts ≤ delivery'.attempts +
          (state.step config event).tries config delivery.message events →
        EscalatedSince (fun delivery' => delivery'.message = delivery.message) state
          (state.run config (event :: events)) := by
      intro delivery' hmem' hmessage hpos' hmax'
      have hsince := ih hrest delivery' hmem' (hmessage ▸ hlater) (hmessage ▸ hpos')
        (hmessage ▸ hmax')
      rw [hmessage] at hsince
      exact hsince.of_suffix escalations_suffix_step
    cases event with
    | sent messageId pending => exact hgoesOn delivery hmem rfl hpos hmax
    | messageDelivered messageId => exact hgoesOn delivery hmem rfl hpos hmax
    | deliveryFailed messageId now =>
      obtain ⟨delivery', hmem', hmessage, hattempts⟩ :=
        @exists_mem_deliveryFailed delivery state messageId now hmem
      exact hgoesOn delivery' hmem' hmessage hpos (hattempts ▸ hmax)
    | retry pass =>
      have hone : FailsThroughout delivery.message [.retry pass] := fun pass' hpass' =>
        hfails pass' (List.mem_cons.mpr (.inl (List.mem_singleton.mp hpass')))
      rcases retry_progress hmem (handled_retry hnow delivery hmem) hone with
        ⟨delivery', hmem', hmessage, hle, htries⟩ | hescalated
      · simp only [tries] at hpos hmax
        split at hpos
        · rename_i htried
          obtain ⟨hlt, hleft⟩ := htries htried
          rw [if_pos htried] at hmax
          exact hgoesOn delivery' hmem' hmessage (by omega) (by omega)
        · rename_i htried
          rw [if_neg htried] at hmax
          exact hgoesOn delivery' hmem' hmessage (by omega) (by omega)
      · exact hescalated.trans_suffix escalations_suffix_run

theorem retriesHold_of_sound {events : List RetryEvent} (h : state.Sound config)
    (hspares : state.SparesThroughout config events) : state.RetriesHold config events := by
  induction events generalizing state with
  | nil => exact ⟨h, escalates_of_spared hspares⟩
  | cons event events ih =>
    exact ⟨⟨h, handlesAll_step hspares.1, escalates_of_spared hspares⟩,
      ih (h.step hspares.1) hspares.2⟩

theorem sound_empty : Sound config empty where
  inHand _ hmem := by cases hmem
  owed _ hmem := by cases hmem
  escalated _ hmem := by cases hmem
  distinct := List.nodup_nil

end

end RetryState

/-- **Failed live messages.** In a run without a report of a failed retry, and without an
escalation that fails before the end of its pass, no message that failed is dropped, and one whose
every send fails is escalated once its attempts have run out. -/
theorem retriesHold_of_spared (config : EscalationConfig) (events : List RetryEvent)
    (hspares : RetryState.SparesThroughout config .empty events) :
    RetryState.RetriesHold config .empty events :=
  RetryState.retriesHold_of_sound RetryState.sound_empty hspares

/-! ### A retry that fails -/

def retryingTeam : EscalationConfig where
  members := [
    { name := "manager", roleName := "manager", roleType := .manager, reportsTo := none,
      useWorktrees := false },
    { name := "eng-1", roleName := "engineer", roleType := .engineer,
      reportsTo := some "manager", useWorktrees := true }]
  automationSender := none

def sentToEngineer : RetryEvent := .sent (.drawn 0) {
  recipient := "eng-1", sender := "manager", body := "Please retry this.", inboxMessages := []
  carries := [] }

/-- A pass half a minute after another, that sends what there is if `writes`. -/
def halfMinutePass (index : Nat) (writes : Bool) : RetryPass where
  now := index * failedDeliveryRetryDelay
  ready _ := true
  writes _ := writes
  starting _ := false
  stores _ := true

/-- A delivery fails, and then the write of two retries. -/
theorem retriesHold_failingShim : RetryState.RetriesHold retryingTeam .empty
    [sentToEngineer, .deliveryFailed (.drawn 0) 0, .retry (halfMinutePass 1 false),
      .retry (halfMinutePass 2 false)] := by
  refine retriesHold_of_spared retryingTeam _ ⟨trivial, ?_, ?_, ?_, trivial⟩
  · rintro _ ⟨⟩
  · rintro _ ⟨⟩
  · rintro _ ⟨⟩

/-- The shim reports a second time that it could not deliver the message. -/
theorem not_retriesHold_failedRetry : ¬ ∀ (config : EscalationConfig) (events : List RetryEvent),
    RetryState.RetriesHold config .empty events := by
  intro h
  have hrun := h retryingTeam [sentToEngineer, .deliveryFailed (.drawn 0) 0,
    .retry (halfMinutePass 1 true), .deliveryFailed (.drawn 0) failedDeliveryRetryDelay]
  have hlast := hrun.2.2.2.2.1.inHand ⟨"eng-1", "manager", "Please retry this."⟩ (by decide)
  rcases hlast with ⟨_, hlisted, -⟩ | ⟨_, hwritten, -⟩
  · exact List.not_mem_nil hlisted
  · exact List.not_mem_nil hwritten

end Batty
