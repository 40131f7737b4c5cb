import Mathlib.Algebra.Order.BigOperators.Group.List
import Batty.Shim.Common

/-!
# Accounts of messages

The daemon releases or repeats a message on one of two answers to its id: it was delivered, or
its delivery failed. A message is asked for when the shim takes the command, waits while it is in
the queue, and is answered when one of the two events is sent.

* `Runtime.AccountsFor`: no id is answered more often than it was asked for, and whenever no
  thread has anything left to do, every request waits or is answered, and what was reported as
  delivered was written to the agent.
* `Keeps`: what a section has to do for this, and the shapes that the sections of the runtimes
  have.
* `accountsFor_of_settled`: it is enough that both accounts of the id are settled.
-/

namespace Batty

/-! ### Accounts -/

def ShimEvent.answers (id : String) : ShimEvent String → Bool
  | .messageDelivered id' => id' = id
  | .deliveryFailed id' _ => id' = id
  | _ => false

namespace Runtime

variable {runtime : Runtime}

/-- How often a message with the id came in. -/
def asked (shim : runtime.Shim) (id : String) : Nat :=
  (shim.received.filterMap runtime.incoming).countP fun message => message.messageId = some id

def waiting (shim : runtime.Shim) (id : String) : Nat :=
  (runtime.messageQueue shim.shared).countP fun message => message.messageId = some id

def answered (shim : runtime.Shim) (id : String) : Nat := shim.sent.countP (ShimEvent.answers id)

def injected (shim : runtime.Shim) (id : String) : Nat :=
  (shim.written.filterMap AgentLine.message?).countP fun message => message.messageId = some id

/-- No thread has anything left to do. -/
def AtRest (shim : runtime.Shim) : Prop := ∀ thread ∈ shim.threads, thread.acts.getD [] = []

instance (shim : runtime.Shim) : Decidable (AtRest shim) :=
  inferInstanceAs (Decidable (∀ thread ∈ shim.threads, thread.acts.getD [] = []))

/-- **Every message is accounted for**: none is answered twice, and at rest each is answered or
waits, and what is reported as delivered was written to the agent. -/
structure AccountsFor (shim : runtime.Shim) (id : String) : Prop where
  atMost : answered shim id + waiting shim id ≤ asked shim id
  atRest : AtRest shim → answered shim id + waiting shim id = asked shim id
  delivered : AtRest shim → shim.sent.count (.messageDelivered id) = injected shim id

end Runtime

/-- One for a message, or for a section, that carries the id. -/
def carries (id : String) (messageId : Option String) : ℤ := if messageId = some id then 1 else 0

namespace Runtime

/-- What is asked, what waits and what is answered. -/
def answersAccount (runtime : Runtime) (id : String) :
    Accounting runtime.State runtime.Input runtime.Point AgentLine (ShimEvent String) where
  ofState state := ((runtime.messageQueue state).map fun message => carries id message.messageId).sum
  ofInput input := ((runtime.incoming input).map fun message => carries id message.messageId).getD 0
  ofPoint point := carries id (runtime.owed point)
  ofLine _ := 0
  ofEvent event := if event.answers id then 1 else 0

/-- What is reported as delivered, and what is written. -/
def deliveriesAccount (runtime : Runtime) (id : String) :
    Accounting runtime.State runtime.Input runtime.Point AgentLine (ShimEvent String) where
  ofState _ := 0
  ofInput _ := 0
  ofPoint point := carries id (runtime.owed point)
  ofLine line := (line.message?.map fun message => - carries id message.messageId).getD 0
  ofEvent event := if event = .messageDelivered id then 1 else 0

end Runtime

section

variable {State Input Kind Point Line Event : Type}
  {account : Accounting State Input Point Line Event} {MayFail : Line → Prop}

@[simp] theorem ofActs_sends (events : List Event) (acts : List (Act Kind Point Line Event)) :
    account.ofActs (events.map .send ++ acts) =
      (events.map account.ofEvent).sum + account.ofActs acts := by
  induction events with
  | nil => simp
  | cons event events ih =>
    simp only [List.map_cons, List.cons_append, Accounting.ofActs, List.sum_cons, ih]
    omega

@[simp] theorem balanced_sends (events : List Event) (acts : List (Act Kind Point Line Event)) :
    account.Balanced MayFail (events.map .send ++ acts) ↔ account.Balanced MayFail acts := by
  induction events with
  | nil => rfl
  | cons event events ih => exact ih

end

theorem sum_carries (id : String) (queue : List QueuedMessage) :
    (queue.map fun message => carries id message.messageId).sum =
      (queue.countP fun message => message.messageId = some id : ℕ) := by
  induction queue with
  | nil => rfl
  | cons message queue ih =>
    rw [List.map_cons, List.sum_cons, ih, List.countP_cons]
    by_cases h : message.messageId = some id <;> simp [carries, h, add_comm]

/-! ### What keeps the accounts -/

/-- The messages carry no id. -/
def Unnamed (messages : List QueuedMessage) : Prop := ∀ message ∈ messages, message.messageId = none

/-- The oldest message carries no id. -/
def HeadUnnamed (queue : List QueuedMessage) : Prop := Unnamed queue.head?.toList

/-- A message with an id is not refused, and makes the queue drop none with an id. -/
def TakesMessage (state : ShimState) (queue : List QueuedMessage) (message : QueuedMessage) :
    Prop :=
  match state with
  | .idle => True
  | .working => maxQueueDepth ≤ queue.length → HeadUnnamed queue
  | _ => message.messageId = none

section

variable {id : String} {runtime : Runtime}

theorem sum_carries_unnamed {messages : List QueuedMessage} (h : Unnamed messages) :
    (messages.map fun message => carries id message.messageId).sum = 0 := by
  refine List.sum_eq_zero fun n hn => ?_
  obtain ⟨message, hmem, rfl⟩ := List.mem_map.mp hn
  simp [carries, h message hmem]

@[simp] theorem answers_drainQueueErrors (queue : List QueuedMessage) (state : ShimState) :
    ((drainQueueErrors queue state).map (runtime.answersAccount id).ofEvent).sum = 0 := by
  simp [drainQueueErrors, Runtime.answersAccount, ShimEvent.answers, Function.comp_def]

@[simp] theorem deliveries_drainQueueErrors (queue : List QueuedMessage) (state : ShimState) :
    ((drainQueueErrors queue state).map (runtime.deliveriesAccount id).ofEvent).sum = 0 := by
  simp [drainQueueErrors, Runtime.deliveriesAccount, Function.comp_def]

@[simp] theorem answers_queueMessage (queue : List QueuedMessage) (message : QueuedMessage) :
    ((queueMessage queue message).2.map (runtime.answersAccount id).ofEvent).sum = 0 := by
  unfold queueMessage
  split <;> simp [Runtime.answersAccount, ShimEvent.answers]

@[simp] theorem deliveries_queueMessage (queue : List QueuedMessage) (message : QueuedMessage) :
    ((queueMessage queue message).2.map (runtime.deliveriesAccount id).ofEvent).sum = 0 := by
  unfold queueMessage
  split <;> simp [Runtime.deliveriesAccount]

theorem sum_carries_queueMessage {queue : List QueuedMessage} (message : QueuedMessage)
    (h : maxQueueDepth ≤ queue.length → HeadUnnamed queue) :
    ((queueMessage queue message).1.map fun message => carries id message.messageId).sum =
      (queue.map fun message => carries id message.messageId).sum + carries id message.messageId := by
  unfold queueMessage
  split
  · rename_i hfull
    cases queue with
    | nil => simp
    | cons head queue =>
      have hhead : head.messageId = none := h hfull head (by simp)
      simp [carries, hhead]
  · simp

@[simp] theorem answers_delivered (messageId : Option String) :
    ((answerWith .messageDelivered messageId).map (runtime.answersAccount id).ofEvent).sum =
      carries id messageId := by
  cases messageId <;> simp [answerWith, Runtime.answersAccount, ShimEvent.answers, carries]

@[simp] theorem deliveries_delivered (messageId : Option String) :
    ((answerWith .messageDelivered messageId).map (runtime.deliveriesAccount id).ofEvent).sum =
      carries id messageId := by
  cases messageId <;> simp [answerWith, Runtime.deliveriesAccount, carries]

@[simp] theorem answers_failed (messageId : Option String) (reason : String) :
    ((answerWith (.deliveryFailed · reason) messageId).map
      (runtime.answersAccount id).ofEvent).sum = carries id messageId := by
  cases messageId <;> simp [answerWith, Runtime.answersAccount, ShimEvent.answers, carries]

@[simp] theorem deliveries_failed (messageId : Option String) (reason : String) :
    ((answerWith (.deliveryFailed · reason) messageId).map
      (runtime.deliveriesAccount id).ofEvent).sum = 0 := by
  cases messageId <;> simp [answerWith, Runtime.deliveriesAccount]

/-- A section keeps both accounts of an id: `asked` comes in, and `owed` is still to be answered
from before. -/
structure Keeps (runtime : Runtime) (id : String) (MayFail : AgentLine → Prop)
    (before : List QueuedMessage) (asked owed : ℤ)
    (after : runtime.State × List (ShimAct runtime.Kind runtime.Point)) : Prop where
  answers : ((runtime.messageQueue after.1).map fun message => carries id message.messageId).sum +
      (runtime.answersAccount id).ofActs after.2 =
    (before.map fun message => carries id message.messageId).sum + asked + owed
  deliveries : (runtime.deliveriesAccount id).ofActs after.2 = owed
  balanced : (runtime.answersAccount id).Balanced MayFail after.2 ∧
    (runtime.deliveriesAccount id).Balanced MayFail after.2

@[simp] theorem answersAccount_ofEvent (event : ShimEvent String) :
    (runtime.answersAccount id).ofEvent event = if event.answers id then 1 else 0 := rfl

@[simp] theorem deliveriesAccount_ofEvent (event : ShimEvent String) :
    (runtime.deliveriesAccount id).ofEvent event =
      if event = .messageDelivered id then 1 else 0 := rfl

@[simp] theorem answersAccount_ofLine (line : AgentLine) :
    (runtime.answersAccount id).ofLine line = 0 := rfl

@[simp] theorem deliveriesAccount_message (message : QueuedMessage) :
    (runtime.deliveriesAccount id).ofLine (.message message) = - carries id message.messageId := rfl

@[simp] theorem deliveriesAccount_process (message : QueuedMessage) :
    (runtime.deliveriesAccount id).ofLine (.process message) = 0 := rfl

@[simp] theorem deliveriesAccount_followup (body : String) :
    (runtime.deliveriesAccount id).ofLine (.followup body) = 0 := rfl

@[simp] theorem deliveriesAccount_keepalive :
    (runtime.deliveriesAccount id).ofLine .keepalive = 0 := rfl

@[simp] theorem carries_none : carries id none = 0 := rfl

variable {MayFail : AgentLine → Prop} {before : List QueuedMessage} {after : runtime.State}

/-- A thread that sends and then waits, or returns. -/
theorem keeps_events {events : List (ShimEvent String)} {asked : ℤ}
    {rest : List (ShimAct runtime.Kind runtime.Point)} (hrest : rest = [] ∨ rest = [.stop])
    (hanswers : (events.map (runtime.answersAccount id).ofEvent).sum = 0)
    (hdeliveries : (events.map (runtime.deliveriesAccount id).ofEvent).sum = 0)
    (hqueue : ((runtime.messageQueue after).map fun message => carries id message.messageId).sum =
      (before.map fun message => carries id message.messageId).sum + asked) :
    Keeps runtime id MayFail before asked 0 (after, events.map .send ++ rest) := by
  have hempty : ∀ account : Accounting runtime.State runtime.Input runtime.Point AgentLine
      (ShimEvent String), account.ofActs rest = 0 ∧ account.Balanced MayFail rest := by
    intro account
    rcases hrest with rfl | rfl <;> exact ⟨rfl, trivial⟩
  refine ⟨?_, ?_, (balanced_sends _ _).mpr (hempty _).2, (balanced_sends _ _).mpr (hempty _).2⟩
  · rw [ofActs_sends, hanswers, (hempty _).1, hqueue]
    omega
  · rw [ofActs_sends, hdeliveries, (hempty _).1]
    rfl

theorem keeps_quiet {rest : List (ShimAct runtime.Kind runtime.Point)}
    (hrest : rest = [] ∨ rest = [.stop]) (hqueue : runtime.messageQueue after = before) :
    Keeps runtime id MayFail before 0 0 (after, rest) := by
  have hkeeps : Keeps runtime id MayFail before 0 0
      (after, ([] : List (ShimEvent String)).map .send ++ rest) :=
    keeps_events hrest rfl rfl (by rw [hqueue]; omega)
  exact hkeeps

/-- A message that joins the queue. -/
theorem keeps_queueMessage {message : QueuedMessage}
    (h : maxQueueDepth ≤ before.length → HeadUnnamed before)
    (hqueue : runtime.messageQueue after = (queueMessage before message).1) :
    Keeps runtime id MayFail before (carries id message.messageId) 0
      (after, (queueMessage before message).2.map .send) := by
  have hkeeps : Keeps runtime id MayFail before (carries id message.messageId) 0
      (after, (queueMessage before message).2.map .send ++ []) :=
    keeps_events (.inl rfl) (answers_queueMessage _ _) (deliveries_queueMessage _ _)
      (by rw [hqueue]; exact sum_carries_queueMessage message h)
  rwa [List.append_nil] at hkeeps

/-- A message without an id that is refused. -/
theorem keeps_refused {message : QueuedMessage} {event : ShimEvent String}
    (hanswers : event.answers id = false) (h : message.messageId = none) :
    Keeps runtime id MayFail (runtime.messageQueue after) (carries id message.messageId) 0
      (after, [.send event]) := by
  have hdelivered : event ≠ .messageDelivered id := by
    rintro rfl
    simp [ShimEvent.answers] at hanswers
  have hkeeps : Keeps runtime id MayFail (runtime.messageQueue after)
      (carries id message.messageId) 0 (after, [event].map .send ++ []) :=
    keeps_events (.inl rfl) (by simp [hanswers]) (by simp [hdelivered]) (by simp [h])
  exact hkeeps

/-- A queue of messages without ids that is dropped, after an event that answers none. -/
theorem keeps_dropped {event : ShimEvent String} {state : ShimState}
    {rest : List (ShimAct runtime.Kind runtime.Point)} (hrest : rest = [] ∨ rest = [.stop])
    (hanswers : event.answers id = false) (h : Unnamed before)
    (hqueue : runtime.messageQueue after = []) :
    Keeps runtime id MayFail before 0 0
      (after, .send event :: (drainQueueErrors before state).map .send ++ rest) := by
  have hdelivered : event ≠ .messageDelivered id := by
    rintro rfl
    simp [ShimEvent.answers] at hanswers
  have hkeeps : Keeps runtime id MayFail before 0 0
      (after, (event :: drainQueueErrors before state).map .send ++ rest) := by
    refine keeps_events hrest ?_ ?_ ?_
    · rw [List.map_cons, List.sum_cons, answers_drainQueueErrors]
      simp [hanswers]
    · rw [List.map_cons, List.sum_cons, deliveries_drainQueueErrors]
      simp [hdelivered]
    · rw [hqueue, sum_carries_unnamed h]
      rfl
  exact hkeeps

theorem keeps_exhausted {source : ShimState} (h : Unnamed before)
    (hqueue : runtime.messageQueue after = []) :
    Keeps runtime id MayFail before 0 0
      (after, .send (.stateChanged source .contextExhausted) ::
        (drainQueueErrors before .contextExhausted).map .send) := by
  have hkeeps : Keeps runtime id MayFail before 0 0
      (after, .send (.stateChanged source .contextExhausted) ::
        (drainQueueErrors before .contextExhausted).map .send ++ []) :=
    keeps_dropped (.inl rfl) rfl h hqueue
  rwa [List.append_nil] at hkeeps

/-- A message that is written at once, and answered by how the write goes. -/
theorem keeps_written {message : QueuedMessage} {reason : String}
    (hqueue : runtime.messageQueue after = before) :
    Keeps runtime id MayFail before (carries id message.messageId) 0
      (after, [.write (.message message) (some
          (answerWith (.deliveryFailed · reason) message.messageId ++
            [.error "SendMessage" reason], none))] ++
        (answerWith .messageDelivered message.messageId).map .send ++
        [.send (.stateChanged .idle .working)]) := by
  rw [List.singleton_append, List.cons_append]
  refine ⟨?_, ?_, ⟨fun _ => ?_, ?_⟩, ⟨fun _ => ?_, ?_⟩⟩
  · rw [Accounting.ofActs, ofActs_sends, answers_delivered, hqueue]
    simp [Accounting.ofActs, ShimEvent.answers]
  · rw [Accounting.ofActs, ofActs_sends, deliveries_delivered]
    simp [Accounting.ofActs]
  · rw [ofActs_sends, Option.elim_some, Accounting.ofActs_failedActs, List.map_append, List.sum_append,
      answers_failed, answers_delivered]
    simp [Accounting.ofActs, ShimEvent.answers]
  · exact (balanced_sends _ _).mpr trivial
  · rw [ofActs_sends, Option.elim_some, Accounting.ofActs_failedActs, List.map_append, List.sum_append,
      deliveries_failed, deliveries_delivered]
    simp [Accounting.ofActs]
  · exact (balanced_sends _ _).mpr trivial

/-- A message that is written at once, and answered by a further section if the write succeeds. -/
theorem keeps_writtenOwed {message : QueuedMessage} {reason : String} {point : runtime.Point}
    (howed : runtime.owed point = message.messageId) (hqueue : runtime.messageQueue after = before) :
    Keeps runtime id MayFail before (carries id message.messageId) 0
      (after, [.write (.message message) (some
          (answerWith (.deliveryFailed · reason) message.messageId ++
            [.error "SendMessage" reason], none)), .lock point]) := by
  refine ⟨?_, ?_, ⟨fun _ => ?_, trivial⟩, ⟨fun _ => ?_, trivial⟩⟩
  · simp [hqueue, Accounting.ofActs, Runtime.answersAccount, howed]
  · simp [Accounting.ofActs, Runtime.deliveriesAccount, AgentLine.message?, howed]
  · rw [Option.elim_some, Accounting.ofActs_failedActs, List.map_append, List.sum_append,
      answers_failed]
    simp [Accounting.ofActs, Runtime.answersAccount, ShimEvent.answers, howed]
  · rw [Option.elim_some, Accounting.ofActs_failedActs, List.map_append, List.sum_append,
      deliveries_failed]
    simp [Accounting.ofActs, Runtime.deliveriesAccount, AgentLine.message?, howed]

theorem sum_of_unanswering {events : List (ShimEvent String)}
    (hevents : ∀ event ∈ events, event.answers id = false) :
    (events.map (runtime.answersAccount id).ofEvent).sum = 0 ∧
      (events.map (runtime.deliveriesAccount id).ofEvent).sum = 0 := by
  constructor <;> refine List.sum_eq_zero fun n hn => ?_ <;>
    obtain ⟨event, hmem, rfl⟩ := List.mem_map.mp hn
  · simp [hevents event hmem]
  · have hdelivered : event ≠ .messageDelivered id := by
      rintro rfl
      simpa [ShimEvent.answers] using hevents _ hmem
    simp [hdelivered]

/-- Sends that answer nothing leave the accounts of what follows as they are. -/
theorem Keeps.sends {events : List (ShimEvent String)} {asked owed : ℤ}
    {acts : List (ShimAct runtime.Kind runtime.Point)}
    (hevents : ∀ event ∈ events, event.answers id = false)
    (h : Keeps runtime id MayFail before asked owed (after, acts)) :
    Keeps runtime id MayFail before asked owed (after, events.map .send ++ acts) := by
  obtain ⟨hanswers, hdeliveries⟩ := @sum_of_unanswering id runtime _ hevents
  refine ⟨?_, ?_, (balanced_sends _ _).mpr h.balanced.1, (balanced_sends _ _).mpr h.balanced.2⟩
  · rw [ofActs_sends, hanswers, zero_add]
    exact h.answers
  · rw [ofActs_sends, hdeliveries, zero_add]
    exact h.deliveries

/-- A queued message without an id that opens the next turn. -/
theorem keeps_handedOver {message : QueuedMessage} {failed : List (ShimEvent String)}
    (h : message.messageId = none) (hfailed : ∀ event ∈ failed, event.answers id = false)
    (hqueue : ((runtime.messageQueue after).map fun message => carries id message.messageId).sum =
      (before.map fun message => carries id message.messageId).sum) :
    Keeps runtime id MayFail before 0 0
      (after, [.write (.message message) (some (failed, none)),
        .send (.stateChanged .idle .working)]) := by
  obtain ⟨hanswers, hdeliveries⟩ := @sum_of_unanswering id runtime _ hfailed
  refine ⟨?_, ?_, ⟨fun _ => ?_, trivial⟩, ⟨fun _ => ?_, trivial⟩⟩
  · simp [Accounting.ofActs, ShimEvent.answers, hqueue]
  · simp [Accounting.ofActs, h]
  · rw [Option.elim_some, Accounting.ofActs_failedActs, hanswers]
    simp [Accounting.ofActs, ShimEvent.answers]
  · rw [Option.elim_some, Accounting.ofActs_failedActs, hdeliveries]
    simp [Accounting.ofActs, h]

end

/-! ### What the accounts say -/

section

variable {runtime : Runtime} {id : String} {MayFail : AgentLine → Prop}

/-- Sections that keep both accounts settle them. -/
theorem settles_of_keeps {Allows : runtime.Kind → runtime.Input → runtime.State → Prop}
    (hreceive : ∀ {kind input state}, runtime.machine.accepts kind input state = true →
      Allows kind input state →
      Keeps runtime id MayFail (runtime.messageQueue state)
        (((runtime.incoming input).map fun message => carries id message.messageId).getD 0) 0
        (runtime.machine.receive kind input state))
    (hresume : ∀ point state,
      Keeps runtime id MayFail (runtime.messageQueue state) 0 (carries id (runtime.owed point))
        (runtime.machine.resume point state)) :
    (runtime.answersAccount id).Settles runtime.machine Allows MayFail ∧
      (runtime.deliveriesAccount id).Settles runtime.machine Allows MayFail := by
  refine ⟨⟨fun haccepts hallows => ?_, fun point state => ?_⟩,
    ⟨fun haccepts hallows => ?_, fun point state => ?_⟩⟩
  · have hkeeps := hreceive haccepts hallows
    refine ⟨?_, hkeeps.balanced.1⟩
    have hanswers := hkeeps.answers
    rw [add_zero] at hanswers
    exact hanswers
  · have hkeeps := hresume point state
    refine ⟨?_, hkeeps.balanced.1⟩
    have hanswers := hkeeps.answers
    rw [add_zero] at hanswers
    exact hanswers
  · have hkeeps := hreceive haccepts hallows
    refine ⟨?_, hkeeps.balanced.2⟩
    rw [hkeeps.deliveries]
    rfl
  · have hkeeps := hresume point state
    refine ⟨?_, hkeeps.balanced.2⟩
    rw [hkeeps.deliveries]
    rfl

theorem carries_nonneg (messageId : Option String) : 0 ≤ carries id messageId := by
  unfold carries
  split <;> omega

theorem ofActs_answers_nonneg (acts : List (ShimAct runtime.Kind runtime.Point)) :
    0 ≤ (runtime.answersAccount id).ofActs acts := by
  induction acts with
  | nil => simp [Accounting.ofActs]
  | cons act acts ih =>
    cases act with
    | send event =>
      rw [Accounting.ofActs, answersAccount_ofEvent]
      split <;> omega
    | write line failed =>
      rw [Accounting.ofActs, answersAccount_ofLine]
      omega
    | fork kind line failed next =>
      rw [Accounting.ofActs, answersAccount_ofLine, answersAccount_ofLine]
      omega
    | lock point => exact carries_nonneg _
    | stop => simp [Accounting.ofActs]

theorem sum_answered (sent : List (ShimEvent String)) :
    (sent.map (runtime.answersAccount id).ofEvent).sum = (sent.countP (ShimEvent.answers id) : ℕ) := by
  induction sent with
  | nil => rfl
  | cons event sent ih =>
    rw [List.map_cons, List.sum_cons, ih, List.countP_cons, answersAccount_ofEvent]
    push_cast
    split <;> simp [add_comm]

theorem sum_delivered (sent : List (ShimEvent String)) :
    (sent.map (runtime.deliveriesAccount id).ofEvent).sum =
      (sent.count (.messageDelivered id) : ℕ) := by
  induction sent with
  | nil => rfl
  | cons event sent ih =>
    rw [List.map_cons, List.sum_cons, ih, List.count_cons, deliveriesAccount_ofEvent]
    by_cases hevent : event = .messageDelivered id <;> simp [hevent, add_comm]

theorem sum_asked (received : List runtime.Input) :
    (received.map (runtime.answersAccount id).ofInput).sum =
      ((received.filterMap runtime.incoming).countP fun message =>
        message.messageId = some id : ℕ) := by
  induction received with
  | nil => rfl
  | cons input received ih =>
    rw [List.map_cons, List.sum_cons, ih]
    cases hincoming : runtime.incoming input with
    | none => simp [Runtime.answersAccount, hincoming]
    | some message =>
      rw [List.filterMap_cons_some hincoming, List.countP_cons]
      by_cases hid : message.messageId = some id <;>
        simp [Runtime.answersAccount, hincoming, carries, hid, add_comm]

theorem sum_injected (written : List AgentLine) :
    (written.map (runtime.deliveriesAccount id).ofLine).sum =
      - ((written.filterMap AgentLine.message?).countP fun message =>
        message.messageId = some id : ℕ) := by
  induction written with
  | nil => rfl
  | cons line written ih =>
    rw [List.map_cons, List.sum_cons, ih]
    cases hmessage : line.message? with
    | none => simp [Runtime.deliveriesAccount, hmessage]
    | some message =>
      rw [List.filterMap_cons_some hmessage, List.countP_cons]
      by_cases hid : message.messageId = some id <;>
        simp [Runtime.deliveriesAccount, hmessage, carries, hid, add_comm]

/-- With both accounts settled, the requests of an id are accounted for. -/
theorem accountsFor_of_settled {shim : runtime.Shim}
    (hanswers : (runtime.answersAccount id).Settled MayFail shim)
    (hdeliveries : (runtime.deliveriesAccount id).Settled MayFail shim) :
    Runtime.AccountsFor shim id := by
  have hrest : ∀ account : Accounting runtime.State runtime.Input runtime.Point AgentLine
      (ShimEvent String), Runtime.AtRest shim → (shim.threads.map account.ofThread).sum = 0 := by
    intro account hrest
    refine List.sum_eq_zero fun n hn => ?_
    obtain ⟨thread, hmem, rfl⟩ := List.mem_map.mp hn
    rw [Accounting.ofThread, hrest thread hmem]
    rfl
  have hbusy : 0 ≤ (shim.threads.map (runtime.answersAccount id).ofThread).sum := by
    refine List.sum_nonneg fun n hn => ?_
    obtain ⟨thread, -, rfl⟩ := List.mem_map.mp hn
    exact ofActs_answers_nonneg _
  have hlines : (shim.written.map (runtime.answersAccount id).ofLine).sum = 0 :=
    List.sum_eq_zero fun n hn => by
      obtain ⟨line, -, rfl⟩ := List.mem_map.mp hn
      rfl
  have hinputs : (shim.received.map (runtime.deliveriesAccount id).ofInput).sum = 0 :=
    List.sum_eq_zero fun n hn => by
      obtain ⟨input, -, rfl⟩ := List.mem_map.mp hn
      rfl
  have htotal := hanswers.total
  have hstate : (runtime.answersAccount id).ofState shim.shared =
      (Runtime.waiting shim id : ℕ) := sum_carries id _
  rw [Accounting.total, hstate, sum_answered, hlines, sum_asked] at htotal
  refine ⟨?_, fun hatRest => ?_, fun hatRest => ?_⟩
  · unfold Runtime.answered Runtime.asked
    omega
  · have hthreads := hrest (runtime.answersAccount id) hatRest
    unfold Runtime.answered Runtime.asked
    omega
  · have hdelivered := hdeliveries.total
    have hthreads := hrest (runtime.deliveriesAccount id) hatRest
    have hzero : (runtime.deliveriesAccount id).ofState shim.shared = 0 := rfl
    rw [Accounting.total, hzero, hthreads, sum_delivered, sum_injected, hinputs] at hdelivered
    unfold Runtime.injected
    omega

end

end Batty
