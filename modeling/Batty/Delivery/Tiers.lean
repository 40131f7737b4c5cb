import Batty.Delivery.Mailroom
import Batty.Foundation.Maildir

/-!
# Tiered inboxes

With `tiered_inboxes` a message is not put in the `new` directory of its recipient but in that of a
tier below it. The messages are delivered, and marked as delivered, as if there were no tiers: only
the directory of the recipient itself is read. So every message that waits is read at all times
just if none was ever put in a tier (`readsThroughout_iff_storesFlat`).

What category a message is of is left open, and so is whether files can be written and renamed.
`Inboxes` records besides which messages came in, and which were marked as delivered or ran out.
-/

namespace Batty

/-- The tiers of an inbox, the most urgent first. -/
inductive QueueTier where
  | priority | work | content | telemetry
deriving DecidableEq

/-- In priority order. -/
def QueueTier.all : List QueueTier := [.priority, .work, .content, .telemetry]

/-- What a message is about, which decides on its tier. -/
inductive MessageCategory where
  | escalation | blocker | reviewRequest | dispatchAction | completionAction | status | nudge
  | reminder | acknowledgement
deriving DecidableEq

def categoryToTier : MessageCategory → QueueTier
  | .escalation | .blocker => .priority
  | .reviewRequest | .dispatchAction | .completionAction => .work
  | .status => .content
  | .nudge | .reminder | .acknowledgement => .telemetry

/-- How long a message may wait, in seconds. -/
def tierTtlSecs : QueueTier → Nat
  | .priority => 3600
  | .work => 1800
  | .content => 900
  | .telemetry => 300

/-- A message is named by its file, whatever id it was stored with. -/
def InboxMessage.fromFile (entry : Nat × InboxMessage) : InboxMessage :=
  { entry.2 with id := entry.1 }

/-- The maildir of each member, and of each tier below it. -/
structure Inboxes where
  maildir : String → Option QueueTier → Maildir InboxMessage
  filed : Nat
  delivered : List InboxMessage
  /-- The names of what was marked as delivered, or expired. -/
  settled : List Nat
  fresh : ∀ member tier, ∀ entry ∈ (maildir member tier).new, entry.1 < filed
  settledFresh : ∀ id ∈ settled, id < filed

namespace Inboxes

def empty : Inboxes where
  maildir _ _ := .empty
  filed := 0
  delivered := []
  settled := []
  fresh _ _ _ h := by cases h
  settledFresh _ h := by cases h

/-! ### Storing -/

theorem filed_not_mem {inboxes : Inboxes} {member : String} {tier : Option QueueTier} :
    inboxes.filed ∉ (inboxes.maildir member tier).new.map Prod.fst := by
  intro hmem
  obtain ⟨entry, hentry, hid⟩ := List.mem_map.mp hmem
  exact Nat.lt_irrefl _ (hid ▸ inboxes.fresh member tier entry hentry)

/-- Put a message in a directory of its recipient. -/
def storeIn (inboxes : Inboxes) (tier : Option QueueTier) (message : InboxMessage) : Inboxes where
  maildir member tier' :=
    if member = message.recipient ∧ tier' = tier then
      (inboxes.maildir member tier').storeNew inboxes.filed message filed_not_mem
    else inboxes.maildir member tier'
  filed := inboxes.filed + 1
  delivered := .fromFile (inboxes.filed, message) :: inboxes.delivered
  settled := inboxes.settled
  fresh member tier' entry hmem := by
    split at hmem
    · rcases List.mem_append.mp hmem with hold | hnew
      · exact Nat.lt_succ_of_lt (inboxes.fresh member tier' entry hold)
      · rw [List.mem_singleton.mp hnew]
        exact Nat.lt_succ_self _
    · exact Nat.lt_succ_of_lt (inboxes.fresh member tier' entry hmem)
  settledFresh id hmem := Nat.lt_succ_of_lt (inboxes.settledFresh id hmem)

def deliverToInbox (inboxes : Inboxes) (message : InboxMessage) : Inboxes :=
  inboxes.storeIn none message

def deliverToTieredInbox (classifyMessage : InboxMessage → MessageCategory) (inboxes : Inboxes)
    (message : InboxMessage) : Inboxes :=
  inboxes.storeIn (some (categoryToTier (classifyMessage message))) message

def deliverFlagAware (classifyMessage : InboxMessage → MessageCategory) (inboxes : Inboxes)
    (message : InboxMessage) (tiered : Bool) : Inboxes :=
  if tiered then inboxes.deliverToTieredInbox classifyMessage message
  else inboxes.deliverToInbox message

/-! ### Reading -/

def pendingIn (inboxes : Inboxes) (member : String) (tier : Option QueueTier) :
    List InboxMessage :=
  ((inboxes.maildir member tier).new.map InboxMessage.fromFile).insertionSort
    fun message message' => message.timestamp ≤ message'.timestamp

/-- What is read for a member that is ready for its messages. -/
def pendingMessages (inboxes : Inboxes) (member : String) : List InboxMessage :=
  inboxes.pendingIn member none

def pendingMessagesForTier (inboxes : Inboxes) (member : String) (tier : QueueTier) :
    List InboxMessage :=
  inboxes.pendingIn member (some tier)

theorem mem_pendingIn {inboxes : Inboxes} {member : String} {tier : Option QueueTier}
    {message : InboxMessage} : message ∈ inboxes.pendingIn member tier ↔
      ∃ entry ∈ (inboxes.maildir member tier).new, .fromFile entry = message := by
  simp [pendingIn, List.mem_insertionSort]

/-! ### Marking -/

/-- The inboxes after a message was moved to `cur`. -/
def settle (inboxes : Inboxes) (member : String) (tier : Option QueueTier) (id : Nat)
    (maildir : Maildir InboxMessage)
    (hmove : (inboxes.maildir member tier).moveNewToCur id = some maildir) : Inboxes where
  maildir member' tier' :=
    if member' = member ∧ tier' = tier then maildir else inboxes.maildir member' tier'
  filed := inboxes.filed
  delivered := inboxes.delivered
  settled := id :: inboxes.settled
  fresh member' tier' entry hmem := by
    split at hmem
    · rw [Maildir.new_of_moveNewToCur hmove] at hmem
      exact inboxes.fresh member tier entry (Maildir.mem_without.mp hmem).1
    · exact inboxes.fresh member' tier' entry hmem
  settledFresh := by
    rintro id' (_ | ⟨_, hmem⟩)
    · obtain ⟨entry, hentry, rfl⟩ := List.mem_map.mp (Maildir.mem_of_moveNewToCur hmove)
      exact inboxes.fresh member tier entry hentry
    · exact inboxes.settledFresh id' hmem

/-- Move a message to `cur`. That can fail even if the file is there. -/
def markIn (renames : Nat → Bool) (inboxes : Inboxes) (member : String) (tier : Option QueueTier)
    (id : Nat) : Bool × Inboxes :=
  if renames id then
    match hmove : (inboxes.maildir member tier).moveNewToCur id with
    | none => (false, inboxes)
    | some maildir => (true, inboxes.settle member tier id maildir hmove)
  else (false, inboxes)

def markDelivered (renames : Nat → Bool) (inboxes : Inboxes) (member : String) (id : Nat) :
    Bool × Inboxes :=
  inboxes.markIn renames member none id

def markTieredDelivered (renames : Nat → Bool) (inboxes : Inboxes) (member : String)
    (tier : QueueTier) (id : Nat) : Bool × Inboxes :=
  inboxes.markIn renames member (some tier) id

/-! ### The sweep -/

/-- Mark the messages that have waited too long, up to the first that cannot be. -/
def expireAll (renames : Nat → Bool) (now : Nat) (member : String) (tier : QueueTier) :
    List InboxMessage → Inboxes → Bool × Inboxes
  | [], inboxes => (true, inboxes)
  | message :: messages, inboxes =>
    if tierTtlSecs tier < now - message.timestamp then
      match inboxes.markTieredDelivered renames member tier message.id with
      | (true, inboxes) => expireAll renames now member tier messages inboxes
      | (false, inboxes) => (false, inboxes)
    else expireAll renames now member tier messages inboxes

def expireTiers (renames : Nat → Bool) (now : Nat) (member : String) :
    List QueueTier → Inboxes → Inboxes
  | [], inboxes => inboxes
  | tier :: tiers, inboxes =>
    match expireAll renames now member tier (inboxes.pendingMessagesForTier member tier)
      inboxes with
    | (true, inboxes) => expireTiers renames now member tiers inboxes
    | (false, inboxes) => inboxes

def expireTieredQueues (renames : Nat → Bool) (now : Nat) (inboxes : Inboxes) (member : String) :
    Inboxes :=
  expireTiers renames now member QueueTier.all inboxes

/-- A member whose sweep fails keeps no other from its own. -/
def sweepTieredInboxes (renames : Nat → Bool) (now : Nat) (members : List String)
    (inboxes : Inboxes) : Inboxes :=
  members.foldl (expireTieredQueues renames now) inboxes

end Inboxes

/-! ### Histories -/

/-- What happens to the inboxes of a team. -/
inductive InboxEvent where
  | configure (tieredInboxes : Bool)
  | deliver (message : InboxMessage) (stores : Bool)
  | markDelivered (member : String) (id : Nat) (renames : Nat → Bool)
  | markTieredDelivered (member : String) (tier : QueueTier) (id : Nat) (renames : Nat → Bool)
  | sweep (members : List String) (now : Nat) (renames : Nat → Bool)

/-- The inboxes, and whether they are tiered at present. -/
structure TeamInboxes where
  tieredInboxes : Bool
  inboxes : Inboxes

def TeamInboxes.initial (tieredInboxes : Bool) : TeamInboxes where
  tieredInboxes := tieredInboxes
  inboxes := .empty

section

variable (classifyMessage : InboxMessage → MessageCategory)

def TeamInboxes.step (team : TeamInboxes) : InboxEvent → TeamInboxes
  | .configure tieredInboxes => { team with tieredInboxes }
  | .deliver message stores =>
    if stores then
      { team with inboxes :=
          team.inboxes.deliverFlagAware classifyMessage message team.tieredInboxes }
    else team
  | .markDelivered member id renames =>
    { team with inboxes := (team.inboxes.markDelivered renames member id).2 }
  | .markTieredDelivered member tier id renames =>
    { team with inboxes := (team.inboxes.markTieredDelivered renames member tier id).2 }
  | .sweep members now renames =>
    if team.tieredInboxes then
      { team with inboxes := team.inboxes.sweepTieredInboxes renames now members }
    else team

namespace Inboxes

/-- Marking the message takes it out of what is read, once. -/
def MovesOnce (inboxes : Inboxes) (message : InboxMessage) : Prop :=
  let marked := inboxes.markDelivered (fun _ => true) message.recipient message.id
  marked.1 = true ∧ message ∉ marked.2.pendingMessages message.recipient ∧
    (∃ entry ∈ (marked.2.maildir message.recipient none).cur, .fromFile entry = message) ∧
    (marked.2.markDelivered (fun _ => true) message.recipient message.id).1 = false

/-- Every message that came in and is not settled is read for its recipient, and can be marked as
delivered once. -/
def ReadsAll (inboxes : Inboxes) : Prop :=
  ∀ message ∈ inboxes.delivered, message.id ∉ inboxes.settled →
    message ∈ inboxes.pendingMessages message.recipient ∧ inboxes.MovesOnce message

end Inboxes

def ReadsThroughout (team : TeamInboxes) : List InboxEvent → Prop
  | [] => team.inboxes.ReadsAll
  | event :: events =>
    team.inboxes.ReadsAll ∧ ReadsThroughout (team.step classifyMessage event) events

/-- Nothing is stored while `tiered_inboxes` is set. -/
def StoresFlat (tieredInboxes : Bool) : List InboxEvent → Prop
  | [] => True
  | .configure tieredInboxes' :: events => StoresFlat tieredInboxes' events
  | .deliver _ stores :: events =>
    ¬ (stores = true ∧ tieredInboxes = true) ∧ StoresFlat tieredInboxes events
  | _ :: events => StoresFlat tieredInboxes events

end

namespace Inboxes

section

variable {inboxes : Inboxes} {message : InboxMessage} {member : String}
  {tier : Option QueueTier} {renames : Nat → Bool} {id : Nat}

theorem markIn_of_none (h : (inboxes.maildir member tier).moveNewToCur id = none) :
    inboxes.markIn renames member tier id = (false, inboxes) := by
  unfold markIn
  split
  · split
    · rfl
    · next hmove => rw [h] at hmove; cases hmove
  · rfl

theorem markIn_of_some (hrenames : renames id = true) {maildir : Maildir InboxMessage}
    (hmove : (inboxes.maildir member tier).moveNewToCur id = some maildir) :
    inboxes.markIn renames member tier id = (true, inboxes.settle member tier id maildir hmove) := by
  unfold markIn
  rw [if_pos hrenames]
  split
  · next hnone => rw [hmove] at hnone; cases hnone
  · next maildir' hmove' =>
    obtain rfl : maildir = maildir' := Option.some.inj (hmove.symm.trans hmove')
    rfl

/-- Marking moves a message, or changes nothing. -/
theorem markIn_cases : (inboxes.markIn renames member tier id).2 = inboxes ∨
    ∃ maildir hmove, (inboxes.markIn renames member tier id).2 =
      inboxes.settle member tier id maildir hmove := by
  rcases ((inboxes.maildir member tier).moveNewToCur id).eq_none_or_eq_some with
    hmove | ⟨maildir, hmove⟩
  · exact .inl (by rw [markIn_of_none hmove])
  · by_cases hrenames : renames id = true
    · exact .inr ⟨maildir, hmove, by rw [markIn_of_some hrenames hmove]⟩
    · exact .inl (by rw [markIn, if_neg hrenames])

/-- What is read can be marked, and no more than once. -/
theorem movesOnce_of_mem (h : message ∈ inboxes.pendingMessages message.recipient) :
    inboxes.MovesOnce message := by
  obtain ⟨⟨id, data⟩, hentry, rfl⟩ := mem_pendingIn.mp h
  obtain ⟨maildir, hmove, hcur⟩ := Maildir.moveNewToCur_of_mem hentry
  have hagain := Maildir.moveNewToCur_again hmove
  have hmarked := @markIn_of_some inboxes data.recipient none (fun _ => true) id rfl maildir hmove
  have hmaildir : (inboxes.settle data.recipient none id maildir hmove).maildir data.recipient none
      = maildir := if_pos ⟨rfl, rfl⟩
  unfold MovesOnce markDelivered
  simp only [InboxMessage.fromFile] at hmarked ⊢
  rw [hmarked]
  refine ⟨rfl, fun hmem => ?_, ⟨(id, data), ?_, rfl⟩, ?_⟩
  · obtain ⟨entry, hentry, heq⟩ := mem_pendingIn.mp hmem
    rw [hmaildir, Maildir.new_of_moveNewToCur hmove] at hentry
    exact (Maildir.mem_without.mp hentry).2 (congrArg InboxMessage.id heq)
  · rw [hmaildir]
    exact hcur
  · rw [markIn_of_none (hmaildir.symm ▸ hagain)]

/-! ### Flat inboxes -/

/-- Nothing waits in a tier, and what came in and is not settled waits where it is read. -/
structure Flat (inboxes : Inboxes) : Prop where
  tiers : ∀ member tier, (inboxes.maildir member (some tier)).new = []
  waits : ∀ message ∈ inboxes.delivered, message.id ∉ inboxes.settled →
    message ∈ inboxes.pendingMessages message.recipient

theorem Flat.readsAll (h : inboxes.Flat) : inboxes.ReadsAll := fun message hmem hsettled =>
  ⟨h.waits message hmem hsettled, movesOnce_of_mem (h.waits message hmem hsettled)⟩

theorem flat_empty : empty.Flat where
  tiers _ _ := rfl
  waits _ hmem := by cases hmem

theorem Flat.deliverToInbox (h : inboxes.Flat) : (inboxes.deliverToInbox message).Flat where
  tiers member tier := by
    rw [Inboxes.deliverToInbox, storeIn]
    simpa using h.tiers member tier
  waits := by
    rintro message' (_ | ⟨_, hmem⟩) hsettled
    · refine mem_pendingIn.mpr ⟨(inboxes.filed, message), ?_, rfl⟩
      simp [Inboxes.deliverToInbox, storeIn, Maildir.storeNew, InboxMessage.fromFile]
    · obtain ⟨entry, hentry, rfl⟩ := mem_pendingIn.mp (h.waits message' hmem hsettled)
      refine mem_pendingIn.mpr ⟨entry, ?_, rfl⟩
      simp only [Inboxes.deliverToInbox, storeIn]
      split
      · exact List.mem_append_left _ hentry
      · exact hentry

theorem Flat.markIn (h : inboxes.Flat) : (inboxes.markIn renames member tier id).2.Flat := by
  rcases @markIn_cases inboxes member tier renames id with hsame | ⟨maildir, hmove, hmoved⟩
  · rwa [hsame]
  · rw [hmoved]
    have hnew := Maildir.new_of_moveNewToCur hmove
    refine ⟨fun member' tier' => ?_, fun message' hmem hsettled => ?_⟩
    · simp only [settle]
      split
      · next heq =>
        obtain ⟨rfl, rfl⟩ := heq
        rw [hnew, Maildir.without, h.tiers, List.filter_nil]
      · exact h.tiers member' tier'
    · obtain ⟨hid, hold⟩ := not_or.mp (mt List.mem_cons.mpr hsettled)
      obtain ⟨entry, hentry, heq⟩ := mem_pendingIn.mp (h.waits message' hmem hold)
      refine mem_pendingIn.mpr ⟨entry, ?_, heq⟩
      simp only [settle]
      split
      · next hwhere =>
        rw [hnew, Maildir.mem_without, ← hwhere.1, ← hwhere.2]
        exact ⟨hentry, fun h => hid ((congrArg InboxMessage.id heq).symm.trans h)⟩
      · exact hentry

theorem Flat.expireAll {now : Nat} {tier : QueueTier} {messages : List InboxMessage}
    (h : inboxes.Flat) : (expireAll renames now member tier messages inboxes).2.Flat := by
  induction messages generalizing inboxes with
  | nil => exact h
  | cons message messages ih =>
    unfold Inboxes.expireAll
    have hmarked := @Flat.markIn inboxes member (some tier) renames message.id h
    split
    · cases hmark : inboxes.markTieredDelivered renames member tier message.id with
      | mk ok inboxes' =>
        rw [markTieredDelivered] at hmark
        rw [hmark] at hmarked
        cases ok with
        | true => exact ih hmarked
        | false => exact hmarked
    · exact ih h

theorem Flat.expireTiers {now : Nat} {tiers : List QueueTier} (h : inboxes.Flat) :
    (expireTiers renames now member tiers inboxes).Flat := by
  induction tiers generalizing inboxes with
  | nil => exact h
  | cons tier tiers ih =>
    unfold Inboxes.expireTiers
    have hexpired := @Flat.expireAll inboxes member renames now tier
      (inboxes.pendingMessagesForTier member tier) h
    split
    · next hexpire =>
      rw [hexpire] at hexpired
      exact ih hexpired
    · next hexpire =>
      rw [hexpire] at hexpired
      exact hexpired

theorem Flat.sweep {now : Nat} {members : List String} (h : inboxes.Flat) :
    (inboxes.sweepTieredInboxes renames now members).Flat :=
  List.foldlRecOn members _ h fun _ h _ _ => h.expireTiers

/-! ### Tiers -/

/-- What was just put in a tier is not read. -/
theorem not_readsAll_of_tier {tier : QueueTier} :
    ¬ (inboxes.storeIn (some tier) message).ReadsAll := by
  intro h
  have hreads := (h (.fromFile (inboxes.filed, message)) List.mem_cons_self fun hmem =>
    Nat.lt_irrefl _ (inboxes.settledFresh _ hmem)).1
  obtain ⟨entry, hentry, heq⟩ := mem_pendingIn.mp hreads
  simp only [storeIn, reduceCtorEq, and_false, if_false] at hentry
  have hlt := inboxes.fresh _ _ entry hentry
  have hid : entry.1 = inboxes.filed := congrArg InboxMessage.id heq
  omega

end

end Inboxes

theorem ReadsThroughout.head {classifyMessage : InboxMessage → MessageCategory}
    {team : TeamInboxes} {events : List InboxEvent}
    (h : ReadsThroughout classifyMessage team events) : team.inboxes.ReadsAll := by
  cases events with
  | nil => exact h
  | cons event events => exact h.1

/-- **One event.** Inboxes stay flat unless a message is stored while `tiered_inboxes` is set. -/
theorem flat_step {classifyMessage : InboxMessage → MessageCategory} {team : TeamInboxes}
    {event : InboxEvent} {events : List InboxEvent} (hflat : team.inboxes.Flat)
    (h : StoresFlat team.tieredInboxes (event :: events)) :
    (team.step classifyMessage event).inboxes.Flat ∧
      StoresFlat (team.step classifyMessage event).tieredInboxes events := by
  cases event with
  | configure tieredInboxes => exact ⟨hflat, h⟩
  | deliver message stores =>
    obtain ⟨hnot, hrest⟩ := h
    cases stores with
    | false => exact ⟨hflat, hrest⟩
    | true =>
      have htiered : team.tieredInboxes = false := by simpa using hnot
      refine ⟨?_, hrest⟩
      simp only [TeamInboxes.step, Inboxes.deliverFlagAware, htiered]
      exact hflat.deliverToInbox
  | markDelivered member id renames => exact ⟨hflat.markIn, h⟩
  | markTieredDelivered member tier id renames => exact ⟨hflat.markIn, h⟩
  | sweep members now renames =>
    unfold TeamInboxes.step
    dsimp only
    split
    · exact ⟨hflat.sweep, h⟩
    · exact ⟨hflat, h⟩

theorem readsThroughout_of_storesFlat {classifyMessage : InboxMessage → MessageCategory}
    {team : TeamInboxes} {events : List InboxEvent} (hflat : team.inboxes.Flat)
    (h : StoresFlat team.tieredInboxes events) : ReadsThroughout classifyMessage team events := by
  induction events generalizing team with
  | nil => exact hflat.readsAll
  | cons event events ih =>
    obtain ⟨hflat', hrest⟩ := @flat_step classifyMessage team event events hflat h
    exact ⟨hflat.readsAll, ih hflat' hrest⟩

theorem storesFlat_of_readsThroughout {classifyMessage : InboxMessage → MessageCategory}
    {team : TeamInboxes} {events : List InboxEvent}
    (h : ReadsThroughout classifyMessage team events) : StoresFlat team.tieredInboxes events := by
  induction events generalizing team with
  | nil => trivial
  | cons event events ih =>
    have hrest := ih h.2
    cases event with
    | configure tieredInboxes => exact hrest
    | deliver message stores =>
      have hreads := h.2.head
      refine ⟨fun ⟨hstores, htiered⟩ => ?_, ?_⟩
      · subst hstores
        simp only [TeamInboxes.step, Inboxes.deliverFlagAware, htiered] at hreads
        exact Inboxes.not_readsAll_of_tier hreads
      · cases stores <;> exact hrest
    | markDelivered member id renames => exact hrest
    | markTieredDelivered member tier id renames => exact hrest
    | sweep members now renames =>
      have hflag : (team.step classifyMessage (.sweep members now renames)).tieredInboxes =
          team.tieredInboxes := by
        unfold TeamInboxes.step
        dsimp only
        split <;> rfl
      rw [hflag] at hrest
      exact hrest

/-- **Tiered inboxes.** In all of a history every message that waits is read for its recipient, and
is moved once when it is marked, just if nothing is stored while `tiered_inboxes` is set. -/
theorem readsThroughout_iff_storesFlat (classifyMessage : InboxMessage → MessageCategory)
    (tieredInboxes : Bool) (events : List InboxEvent) :
    ReadsThroughout classifyMessage (.initial tieredInboxes) events ↔
      StoresFlat tieredInboxes events := by
  constructor
  · exact fun h => storesFlat_of_readsThroughout h
  · exact fun h => @readsThroughout_of_storesFlat _ (.initial tieredInboxes) _ Inboxes.flat_empty h

/-- An engineer's question to the manager, with `tiered_inboxes` set. -/
theorem not_readsThroughout_tiered : ¬ ReadsThroughout (fun _ => .status) (.initial true)
    [.deliver ⟨0, "eng-1", "manager", "Which port?", .send, 0⟩ true] :=
  fun h => Inboxes.not_readsAll_of_tier h.2

end Batty
