import Batty.Delivery.Mailroom
import Batty.Dispatch.Available

/-!
# The legacy command queue

Commands are appended to a file by anyone, and drained from it by the daemon: it reads the file,
delivers one command after the other, and puts a file with those commands in place of the old one
of which the delivery has failed.

Whoever appends does not wait for a drain to end. What is appended between the reading and the
rewriting is gone (`not_deliversAll_appended`), and so is a message to a user for whom there is no
channel; where the rewriting fails, what has been delivered is still in the file and is delivered
once more. But for these three, nothing is lost and nothing is delivered twice
(`deliversAll_of_undisturbed`).
-/

namespace Batty

/-- A line of the legacy command queue. -/
inductive QueuedCommand where
  | send (sender recipient message : String)
  | assign (sender engineer task : String)
deriving DecidableEq

/-- A line of the queue, by what reading it gives. -/
inductive QueueLine where
  | command (command : QueuedCommand)
  | blank
  | malformed (text : String)
  /-- The line cannot be read as a text. -/
  | undecodable
deriving DecidableEq

/-- Where a command goes, and with what text. -/
inductive CommandDelivery where
  | channel (recipient text : String)
  | inbox (sender recipient body : String) (msgType : MessageType)
deriving DecidableEq

/-- What a daemon that drains the queue knows of the team. -/
structure Recipients where
  roles : List (String × RoleType)
  channels : List String

/-- A drain that is under way. -/
structure DrainPass where
  /-- All that has been read. -/
  commands : List QueuedCommand
  left : List QueuedCommand
  remaining : List QueuedCommand

/-- The queue on disk, with what is under way and what has been done. -/
structure CommandQueue where
  lines : List QueueLine
  pass : Option DrainPass := none
  appended : List QueuedCommand := []
  sent : List (QueuedCommand × CommandDelivery) := []

/-! ### Reading and delivering -/

def QueueLine.command? : QueueLine → Option QueuedCommand
  | .command queued => some queued
  | _ => none

/-- The commands in the file, without the lines that are none. -/
def commandsIn (lines : List QueueLine) : List QueuedCommand := lines.filterMap QueueLine.command?

/-- All pending commands; nothing if there is a line that is no text. -/
def readCommandQueue (lines : List QueueLine) : Option (List QueuedCommand) :=
  if .undecodable ∈ lines then none else some (commandsIn lines)

/-- Where the command is to go; nowhere if it is for a user without a channel. -/
def Recipients.deliveryOf (recipients : Recipients) : QueuedCommand → Option CommandDelivery
  | .send sender recipient message =>
    if recipients.roles.any fun role => role.1 = recipient ∧ role.2 = .user then
      if recipient ∈ recipients.channels then
        some (.channel recipient s!"[From {sender}]\n{message}")
      else none
    else some (.inbox sender recipient message .send)
  | .assign sender engineer task => some (.inbox sender engineer task .assign)

/-! ### The steps -/

/-- The atomic steps of those who append and of the daemon. -/
inductive QueueEvent where
  | append (line : QueueLine)
  | read
  /-- The next command is delivered, or not, by the inbox or the channel. -/
  | deliver (succeeds : Bool)
  | rewrite (succeeds : Bool)

namespace CommandQueue

def enqueueCommand (queue : CommandQueue) (line : QueueLine) : CommandQueue :=
  { queue with
    lines := queue.lines ++ [line]
    appended := queue.appended ++ commandsIn [line] }

/-- Begin a drain, unless the file cannot be read or there is nothing to do. -/
def beginDrain (queue : CommandQueue) : CommandQueue :=
  match readCommandQueue queue.lines with
  | none | some [] => queue
  | some commands => { queue with pass := some { commands, left := commands, remaining := [] } }

/-- Deliver the next command, and keep it if that fails. -/
def deliverNext (recipients : Recipients) (queue : CommandQueue) (pass : DrainPass)
    (succeeds : Bool) : CommandQueue :=
  match pass.left with
  | [] => queue
  | command :: left =>
    match recipients.deliveryOf command with
    | none => { queue with pass := some { pass with left } }
    | some delivery =>
      if succeeds then
        { queue with
          pass := some { pass with left }
          sent := queue.sent ++ [(command, delivery)] }
      else
        { queue with pass := some { pass with left, remaining := pass.remaining ++ [command] } }

/-- The remaining commands take the place of the file, in one step. -/
def writeCommandQueue (queue : CommandQueue) (pass : DrainPass) (succeeds : Bool) : CommandQueue :=
  match pass.left with
  | _ :: _ => queue
  | [] =>
    if succeeds then { queue with lines := pass.remaining.map .command, pass := none }
    else { queue with pass := none }

/-- One step, which changes nothing when it is not its turn. -/
def step (recipients : Recipients) (queue : CommandQueue) : QueueEvent → CommandQueue
  | .append line => queue.enqueueCommand line
  | .read => if queue.pass.isNone then queue.beginDrain else queue
  | .deliver succeeds =>
    match queue.pass with
    | some pass => queue.deliverNext recipients pass succeeds
    | none => queue
  | .rewrite succeeds =>
    match queue.pass with
    | some pass => queue.writeCommandQueue pass succeeds
    | none => queue

def through (recipients : Recipients) : CommandQueue → List QueueEvent → CommandQueue
  | queue, [] => queue
  | queue, event :: events => (queue.step recipients event).through recipients events

/-! ### The law -/

/-- Of every command there are as many in the file, or delivered, as there have ever been, and no
more are delivered; each is delivered to its recipient. -/
structure DeliversAll (recipients : Recipients) (start : List QueueLine) (queue : CommandQueue) :
    Prop where
  kept : ∀ command, (commandsIn start ++ queue.appended).count command ≤
    (queue.sent.map Prod.fst).count command + (commandsIn queue.lines).count command
  once : ∀ command, (queue.sent.map Prod.fst).count command ≤
    (commandsIn start ++ queue.appended).count command
  addressed : ∀ sent ∈ queue.sent, recipients.deliveryOf sent.1 = some sent.2

/-- At a rewriting that succeeds the file has the commands that were read, and one that fails comes
after no delivery; the command whose turn it is can be delivered somewhere. -/
def Undisturbed (recipients : Recipients) (queue : CommandQueue) : QueueEvent → Prop
  | .append _ | .read => True
  | .deliver _ => ∀ pass ∈ queue.pass, ∀ command ∈ pass.left.head?,
      recipients.deliveryOf command ≠ none
  | .rewrite true => ∀ pass ∈ queue.pass, pass.left = [] → commandsIn queue.lines = pass.commands
  | .rewrite false => ∀ pass ∈ queue.pass, pass.left = [] → pass.remaining = pass.commands

def UndisturbedThrough (recipients : Recipients) : CommandQueue → List QueueEvent → Prop
  | _, [] => True
  | queue, event :: events => queue.Undisturbed recipients event ∧
      (queue.step recipients event).UndisturbedThrough recipients events

/-! ### Nothing is lost -/

/-- What has been sent before the present drain is not in the file any more, and what is sent in it
still is. -/
structure Accounted (recipients : Recipients) (start : List QueueLine) (queue : CommandQueue) :
    Prop where
  addressed : ∀ sent ∈ queue.sent, recipients.deliveryOf sent.1 = some sent.2
  idle : queue.pass = none →
    (commandsIn start ++ queue.appended).Perm (queue.sent.map Prod.fst ++ commandsIn queue.lines)
  draining : ∀ pass ∈ queue.pass, ∃ before sent later,
    queue.sent.map Prod.fst = before ++ sent ∧
      pass.commands.Perm (sent ++ pass.remaining ++ pass.left) ∧
      commandsIn queue.lines = pass.commands ++ later ∧
      (commandsIn start ++ queue.appended).Perm (before ++ commandsIn queue.lines)

section

variable {recipients : Recipients} {start : List QueueLine} {queue : CommandQueue}
  {pass : DrainPass}

theorem commandsIn_append (lines lines' : List QueueLine) :
    commandsIn (lines ++ lines') = commandsIn lines ++ commandsIn lines' :=
  List.filterMap_append

theorem commandsIn_map_command (commands : List QueuedCommand) :
    commandsIn (commands.map .command) = commands := by
  rw [commandsIn, List.filterMap_map]
  exact List.filterMap_some

theorem Accounted.deliversAll (h : queue.Accounted recipients start) :
    queue.DeliversAll recipients start := by
  cases hpass : queue.pass with
  | none =>
    have hperm := h.idle hpass
    refine ⟨fun command => ?_, fun command => ?_, h.addressed⟩
    · rw [hperm.count_eq, List.count_append]
    · rw [hperm.count_eq, List.count_append]
      exact Nat.le_add_right _ _
  | some pass =>
    obtain ⟨before, sent, later, hsent, hcommands, hlines, hperm⟩ := h.draining pass hpass
    refine ⟨fun command => ?_, fun command => ?_, h.addressed⟩
    · rw [hperm.count_eq, hsent]
      simp only [List.count_append]
      omega
    · have hread := hcommands.count_eq command
      rw [hperm.count_eq, hsent, hlines]
      simp only [List.count_append] at hread ⊢
      omega

theorem Accounted.enqueueCommand (h : queue.Accounted recipients start) (line : QueueLine) :
    (queue.enqueueCommand line).Accounted recipients start where
  addressed := h.addressed
  idle hpass := by
    rw [CommandQueue.enqueueCommand, commandsIn_append, ← List.append_assoc, ← List.append_assoc]
    exact (h.idle hpass).append_right _
  draining pass hpass := by
    obtain ⟨before, sent, later, hsent, hcommands, hlines, hperm⟩ := h.draining pass hpass
    refine ⟨before, sent, later ++ commandsIn [line], hsent, hcommands, ?_, ?_⟩
    · rw [CommandQueue.enqueueCommand, commandsIn_append, hlines, List.append_assoc]
    · rw [CommandQueue.enqueueCommand, commandsIn_append, ← List.append_assoc,
        ← List.append_assoc]
      exact hperm.append_right _

theorem Accounted.beginDrain (h : queue.Accounted recipients start) (hpass : queue.pass = none) :
    queue.beginDrain.Accounted recipients start := by
  rw [CommandQueue.beginDrain]
  split
  · exact h
  · exact h
  · rename_i commands _ hread
    have hcommands : commandsIn queue.lines = commands := by
      rw [readCommandQueue] at hread
      split at hread
      · cases hread
      · exact Option.some.inj hread
    refine ⟨h.addressed, nofun, ?_⟩
    rintro _ ⟨⟩
    refine ⟨queue.sent.map Prod.fst, [], [], (List.append_nil _).symm, .refl _, ?_, h.idle hpass⟩
    rw [hcommands, List.append_nil]

theorem Accounted.deliverNext (h : queue.Accounted recipients start)
    (hpass : queue.pass = some pass) {succeeds : Bool}
    (hdelivery : ∀ command ∈ pass.left.head?, recipients.deliveryOf command ≠ none) :
    (queue.deliverNext recipients pass succeeds).Accounted recipients start := by
  obtain ⟨before, sent, later, hsent, hcommands, hlines, hperm⟩ := h.draining pass hpass
  rw [CommandQueue.deliverNext]
  split
  · exact h
  · rename_i command left hleft
    rw [hleft] at hcommands
    split
    · rename_i hnone
      exact absurd hnone (hdelivery command (by rw [hleft]; rfl))
    · rename_i delivery hsome
      split
      · refine ⟨?_, nofun, ?_⟩
        · intro entry hentry
          rcases List.mem_append.mp hentry with hentry | hentry
          · exact h.addressed entry hentry
          · rw [List.mem_singleton.mp hentry]
            exact hsome
        · rintro _ ⟨⟩
          refine ⟨before, sent ++ [command], later, ?_, ?_, hlines, hperm⟩
          · rw [List.map_append, hsent, List.append_assoc]
            rfl
          · refine hcommands.trans ?_
            rw [List.append_assoc, List.append_assoc, List.append_assoc]
            exact List.perm_middle.append_left sent
      · refine ⟨h.addressed, nofun, ?_⟩
        rintro _ ⟨⟩
        refine ⟨before, sent, later, hsent, ?_, hlines, hperm⟩
        rw [← List.append_assoc, List.append_assoc _ [command]]
        exact hcommands

theorem Accounted.writeCommandQueue (h : queue.Accounted recipients start)
    (hpass : queue.pass = some pass) {succeeds : Bool}
    (hundisturbed : queue.Undisturbed recipients (.rewrite succeeds)) :
    (queue.writeCommandQueue pass succeeds).Accounted recipients start := by
  obtain ⟨before, sent, later, hsent, hcommands, hlines, hperm⟩ := h.draining pass hpass
  rw [CommandQueue.writeCommandQueue]
  split
  · exact h
  · rename_i hleft
    rw [hleft, List.append_nil] at hcommands
    cases succeeds with
    | true =>
      have hread := hundisturbed pass hpass hleft
      refine ⟨h.addressed, fun _ => ?_, nofun⟩
      rw [if_pos rfl]
      dsimp only
      rw [commandsIn_map_command, hsent, List.append_assoc]
      exact hperm.trans ((hread ▸ hcommands).append_left before)
    | false =>
      have hremaining := hundisturbed pass hpass hleft
      have hnil : sent = [] := by
        have hlength := hcommands.length_eq
        rw [hremaining, List.length_append] at hlength
        exact List.eq_nil_of_length_eq_zero (by omega)
      refine ⟨h.addressed, fun _ => ?_, nofun⟩
      rw [hnil, List.append_nil] at hsent
      rw [if_neg Bool.false_ne_true]
      dsimp only
      rw [hsent]
      exact hperm

theorem Accounted.step (h : queue.Accounted recipients start) {event : QueueEvent}
    (hundisturbed : queue.Undisturbed recipients event) :
    (queue.step recipients event).Accounted recipients start := by
  cases event with
  | append line => exact h.enqueueCommand line
  | read =>
    rw [CommandQueue.step]
    split
    · rename_i hnone
      exact h.beginDrain (Option.isNone_iff_eq_none.mp hnone)
    · exact h
  | deliver succeeds =>
    rw [CommandQueue.step]
    split
    · rename_i pass hpass
      exact h.deliverNext hpass (hundisturbed pass hpass)
    · exact h
  | rewrite succeeds =>
    rw [CommandQueue.step]
    split
    · rename_i pass hpass
      exact h.writeCommandQueue hpass hundisturbed
    · exact h

theorem Accounted.through (h : queue.Accounted recipients start) {events : List QueueEvent}
    (hundisturbed : queue.UndisturbedThrough recipients events) :
    (queue.through recipients events).Accounted recipients start := by
  induction events generalizing queue with
  | nil => exact h
  | cons event events ih => exact ih (h.step hundisturbed.1) hundisturbed.2

theorem accounted_start (lines : List QueueLine) :
    Accounted recipients lines { lines } where
  addressed := nofun
  idle _ := by
    rw [List.append_nil]
    exact .refl _
  draining := nofun

theorem UndisturbedThrough.of_append {events later : List QueueEvent}
    (h : queue.UndisturbedThrough recipients (events ++ later)) :
    queue.UndisturbedThrough recipients events := by
  induction events generalizing queue with
  | nil => trivial
  | cons event events ih => exact ⟨h.1, ih h.2⟩

end

/-- **Every command is delivered once, or still in the file**, in every state of a run that is not
disturbed. -/
theorem deliversAll_of_undisturbed (recipients : Recipients) (lines : List QueueLine)
    (events later : List QueueEvent)
    (hundisturbed : UndisturbedThrough recipients { lines } (events ++ later)) :
    (through recipients { lines } events).DeliversAll recipients lines :=
  ((accounted_start lines).through hundisturbed.of_append).deliversAll

/-- A user with a channel, and an engineer. -/
def userAndEngineer : Recipients where
  roles := [("human", .user), ("eng", .engineer)]
  channels := ["human"]

/-- Of two commands around a malformed line the first cannot be delivered; it is with the next
drain. -/
theorem deliversAll_retried :
    (through userAndEngineer
      { lines := [.command (.send "architect" "human" "status"), .malformed "\x7b",
          .command (.assign "manager" "eng-1" "Task #7: recover")] }
      [.read, .deliver false, .deliver true, .rewrite true, .read, .deliver true]).DeliversAll
        userAndEngineer [.command (.send "architect" "human" "status"), .malformed "\x7b",
          .command (.assign "manager" "eng-1" "Task #7: recover")] :=
  deliversAll_of_undisturbed userAndEngineer _ _ [.rewrite true, .append (.command
    (.assign "manager" "eng-1" "Task #8"))] (by
      refine ⟨trivial, ?_, ?_, ?_, trivial, ?_, ?_, trivial, trivial⟩ <;>
        (rintro _ ⟨⟩; decide))

/-- The second command is appended while the first is being delivered, and is not in the file that
takes the place of the old one. -/
theorem not_deliversAll_appended : ¬ ∀ recipients lines events,
    (through recipients { lines } events).DeliversAll recipients lines := by
  intro h
  have hkept := (h userAndEngineer []
    [.append (.command (.assign "manager" "eng-1" "Task #7")), .read,
      .append (.command (.assign "manager" "eng-2" "Task #8")), .deliver true, .rewrite true]).kept
    (.assign "manager" "eng-2" "Task #8")
  revert hkept
  decide

end CommandQueue

end Batty
