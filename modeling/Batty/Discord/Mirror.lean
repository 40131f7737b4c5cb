import Mathlib.Algebra.Order.Ring.Int
import Batty.Foundation.Runs
import Mathlib.Data.List.Induction

/-!
# Mirroring events

Every event goes to a log file, and the daemon mirrors the log to Discord a few events at a time. How
far it has come is a number of events in the file. When an event would make the file too long, the
file is put aside and a new one begun; the number stays, and is only put back to zero when a cycle
finds fewer events than it.

So what is still to be mirrored when the file is put aside is lost, and the first events of the new
file are passed over if there are as many of them as there were in the old one before the next cycle
comes (`not_faithful_rotation`).

* `MirrorDaemon.Faithful`: what has been handed over and what is still ahead make up what was
  written.
* `MirrorDaemon.always_faithful_iff`: the runs in which that stays so.
-/

namespace Batty

/-- An event in the log: what it is, and the length of its line. -/
structure LoggedEvent where
  event : String
  size : Nat
deriving DecidableEq

/-- The log file; some of its lines may be no events. -/
structure EventLog where
  events : List LoggedEvent
  otherBytes : Nat := 0
  maxBytes : Nat

namespace EventLog

def len (log : EventLog) : Nat :=
  log.otherBytes + (log.events.map fun event => event.size + 1).sum

/-- Whether the file is put aside before so many bytes are added. -/
def mustRotate (log : EventLog) (nextEntryBytes : Nat) : Bool :=
  log.len ≠ 0 && log.maxBytes < min (log.len + nextEntryBytes) (2 ^ 64 - 1)

def rotateEventLogIfNeeded (log : EventLog) (nextEntryBytes : Nat) : EventLog :=
  if log.mustRotate nextEntryBytes then { events := [], maxBytes := log.maxBytes } else log

def emit (log : EventLog) (event : LoggedEvent) : EventLog :=
  let log := log.rotateEventLogIfNeeded (event.size + 1)
  { log with events := log.events ++ [event] }

end EventLog

/-- The channels that events are mirrored to. -/
structure ChannelConfig where
  eventsChannelId : Option String
  agentsChannelId : Option String

def isTelemetryOnlyEvent (event : LoggedEvent) : Bool :=
  ["discord_event_sent", "notification_delivery_sample"].contains event.event

def isNoiseEvent (event : LoggedEvent) : Bool :=
  ["daemon_heartbeat", "message_routed", "state_reconciliation", "task_claim_extended",
    "task_claim_progress", "task_claim_warning", "loop_step_error", "worktree_refreshed",
    "board_task_archived"].contains event.event

def isAgentEvent (event : LoggedEvent) : Bool :=
  ["agent_spawned", "daemon_started", "daemon_stopped", "context_exhausted", "stall_detected",
    "narration_rejection", "pattern_detected", "backend_quota_exhausted"].contains event.event

def ChannelConfig.eventChannelId (config : ChannelConfig) (event : LoggedEvent) : Option String :=
  if isAgentEvent event then config.agentsChannelId.or config.eventsChannelId
  else config.eventsChannelId

/-- A cycle: the channels, whether the log can be read, and of each sending in turn whether it fails
and else what is logged of it. -/
structure MirrorCycle where
  config : Option ChannelConfig
  read : Except String Unit := .ok ()
  send : Nat → Except String (List LoggedEvent)

/-- Send one event, which may be passed over; what is logged of it comes back. -/
def MirrorCycle.sendDiscordEvent (cycle : MirrorCycle) (sends : Nat) (event : LoggedEvent) :
    Except String (List LoggedEvent × Nat) :=
  match cycle.config with
  | none => .ok ([], sends)
  | some config =>
    if isNoiseEvent event then .ok ([], sends)
    else
      match config.eventChannelId event with
      | none => .ok ([], sends)
      | some _ => (cycle.send sends).map fun receipts => (receipts, sends + 1)

/-- What the daemon keeps, with what has been written to the log and handed to the loop so far. -/
structure MirrorDaemon where
  log : EventLog
  discordEventCursor : Nat
  written : List LoggedEvent := []
  handed : List LoggedEvent := []

namespace MirrorDaemon

def emit (daemon : MirrorDaemon) (event : LoggedEvent) : MirrorDaemon :=
  { daemon with log := daemon.log.emit event, written := daemon.written ++ [event] }

def emitAll (daemon : MirrorDaemon) (events : List LoggedEvent) : MirrorDaemon :=
  events.foldl emit daemon

/-- The loop over the events that are ahead; `sent` of them are done with, in `sends` sendings. -/
def mirrorEvents (cycle : MirrorCycle) (sent sends : Nat) (daemon : MirrorDaemon) :
    List LoggedEvent → Nat × MirrorDaemon
  | [] => (sent, daemon)
  | event :: events =>
    if sent ≥ 5 then (sent, daemon)
    else if isTelemetryOnlyEvent event then
      mirrorEvents cycle (sent + 1) sends { daemon with handed := daemon.handed ++ [event] } events
    else
      match cycle.sendDiscordEvent sends event with
      | .error _ => (sent, daemon)
      | .ok (receipts, sends) =>
        mirrorEvents cycle (sent + 1) sends
          { daemon.emitAll receipts with handed := daemon.handed ++ [event] } events

/-- Where the next cycle begins. -/
def cursorNow (daemon : MirrorDaemon) : Nat :=
  if daemon.log.events.length < daemon.discordEventCursor then 0 else daemon.discordEventCursor

/-- Mirror what was logged behind the cursor. -/
def syncDiscordEvents (daemon : MirrorDaemon) (cycle : MirrorCycle) : MirrorDaemon :=
  match cycle.read with
  | .error _ => daemon
  | .ok _ =>
    let events := daemon.log.events
    let daemon := { daemon with discordEventCursor := daemon.cursorNow }
    if daemon.discordEventCursor ≥ events.length then daemon
    else
      let (sent, daemon) :=
        mirrorEvents cycle 0 0 daemon (events.drop daemon.discordEventCursor)
      { daemon with discordEventCursor := daemon.discordEventCursor + sent }

/-- The state is saved, a new daemon opens the log and passes over what is in it, and the state is
restored. -/
def restart (daemon : MirrorDaemon) (maxBytes : Nat) : MirrorDaemon :=
  let persisted := daemon.discordEventCursor
  let log := { daemon.log with maxBytes }.rotateEventLogIfNeeded 0
  let daemon := { daemon with log, discordEventCursor := log.events.length }
  let daemon :=
    { daemon with discordEventCursor := max daemon.discordEventCursor persisted }
  { daemon with discordEventCursor := persisted }

end MirrorDaemon

/-! ### Runs -/

/-- What happens to the event log and to the daemon that mirrors it. -/
inductive MirrorEvent where
  | emit (event : LoggedEvent)
  | sync (cycle : MirrorCycle)
  /-- The limit of the new daemon may be another one. -/
  | restart (maxBytes : Nat)

namespace MirrorDaemon

/-- What was in the log when the daemon was first started is passed over. -/
def fresh (log : EventLog) : MirrorDaemon where
  log
  discordEventCursor := log.events.length

def step (daemon : MirrorDaemon) : MirrorEvent → MirrorDaemon
  | .emit event => daemon.emit event
  | .sync cycle => daemon.syncDiscordEvents cycle
  | .restart maxBytes => daemon.restart maxBytes

/-- The events that the next cycles will come to. -/
def ahead (daemon : MirrorDaemon) : List LoggedEvent := daemon.log.events.drop daemon.cursorNow

/-- All that was written has been handed over once and in order, or is still ahead. -/
def Faithful (daemon : MirrorDaemon) : Prop := daemon.written = daemon.handed ++ daemon.ahead

end MirrorDaemon

/-! ### What keeps the mirror faithful -/

/-- The events that a cycle hands over, each with what is logged of it. -/
def MirrorCycle.takes (cycle : MirrorCycle) (sent sends : Nat) :
    List LoggedEvent → List (LoggedEvent × List LoggedEvent)
  | [] => []
  | event :: events =>
    if sent ≥ 5 then []
    else if isTelemetryOnlyEvent event then (event, []) :: cycle.takes (sent + 1) sends events
    else
      match cycle.sendDiscordEvent sends event with
      | .error _ => []
      | .ok (receipts, sends) => (event, receipts) :: cycle.takes (sent + 1) sends events

def EventLog.emitAll (log : EventLog) (events : List LoggedEvent) : EventLog :=
  events.foldl EventLog.emit log

namespace MirrorDaemon

/-- The file is put aside only when nothing is ahead; the number that the daemon keeps is not one
that the new file comes to before the next cycle: an event is not the first of a file when it is
one, and not the last up to it when it is more than there are; and what a cycle logs of its own goes
to the file that it reads, unless the cycle reads it to its end, all of it goes to the next one, and
it is less than there was. -/
def Minds (daemon : MirrorDaemon) : MirrorEvent → Prop
  | .emit event =>
    if daemon.log.mustRotate (event.size + 1) then
      daemon.ahead = [] ∧ daemon.discordEventCursor ≠ 1
    else daemon.log.events.length + 1 ≠ daemon.discordEventCursor
  | .sync cycle => cycle.read.isOk = true →
      let taken := cycle.takes 0 0 daemon.ahead
      let receipts := taken.flatMap Prod.snd
      (daemon.log.emitAll receipts).events = daemon.log.events ++ receipts ∨
        (daemon.log.emitAll receipts).events = receipts ∧ taken.length = daemon.ahead.length ∧
          receipts.length < daemon.log.events.length
  | .restart maxBytes =>
    { daemon.log with maxBytes }.mustRotate 0 = true → daemon.ahead = []

section

variable {daemon : MirrorDaemon} {log : EventLog} {cycle : MirrorCycle}
  {events receipts : List LoggedEvent}

theorem emitAll_eq (daemon : MirrorDaemon) (events : List LoggedEvent) : daemon.emitAll events =
    { daemon with log := daemon.log.emitAll events, written := daemon.written ++ events } := by
  induction events generalizing daemon with
  | nil => simp [emitAll, EventLog.emitAll]
  | cons event events ih =>
    rw [emitAll, List.foldl_cons, ← emitAll, ih]
    simp [emit, EventLog.emitAll]

/-- **The loop** hands over what the cycle takes, and logs what comes of it. -/
theorem mirrorEvents_eq (sent sends : Nat) (daemon : MirrorDaemon) (events : List LoggedEvent) :
    mirrorEvents cycle sent sends daemon events =
      let taken := cycle.takes sent sends events
      let receipts := taken.flatMap Prod.snd
      (sent + taken.length,
        { daemon with
          log := daemon.log.emitAll receipts
          written := daemon.written ++ receipts
          handed := daemon.handed ++ taken.map Prod.fst }) := by
  induction events generalizing sent sends daemon with
  | nil => simp [mirrorEvents, MirrorCycle.takes, EventLog.emitAll]
  | cons event events ih =>
    unfold mirrorEvents MirrorCycle.takes
    split
    · simp [EventLog.emitAll]
    · split
      · rw [ih]
        simp [Nat.add_assoc, Nat.add_comm 1]
      · cases cycle.sendDiscordEvent sends event with
        | error error => simp [EventLog.emitAll]
        | ok outcome =>
          dsimp only
          rw [ih, emitAll_eq]
          simp [EventLog.emitAll, Nat.add_assoc, Nat.add_comm 1]

/-- What a cycle takes is what comes first. -/
theorem takes_first (sent sends : Nat) (events : List LoggedEvent) :
    (cycle.takes sent sends events).map Prod.fst <+: events := by
  induction events generalizing sent sends with
  | nil => exact List.nil_prefix
  | cons event events ih =>
    unfold MirrorCycle.takes
    split
    · exact List.nil_prefix
    · split
      · exact List.cons_prefix_cons.mpr ⟨rfl, ih _ _⟩
      · cases cycle.sendDiscordEvent sends event with
        | error error => exact List.nil_prefix
        | ok outcome => exact List.cons_prefix_cons.mpr ⟨rfl, ih _ _⟩

/-- Either all that was there is still in the file, or nothing of it. -/
theorem events_emitAll (log : EventLog) (receipts : List LoggedEvent) :
    (log.emitAll receipts).events = log.events ++ receipts ∨
      ∃ dropped, (log.emitAll receipts).events = receipts.drop dropped := by
  induction receipts using List.reverseRecOn with
  | nil => exact .inl (List.append_nil _).symm
  | append_singleton receipts receipt ih =>
    have hlast : log.emitAll (receipts ++ [receipt]) = (log.emitAll receipts).emit receipt := by
      rw [EventLog.emitAll, List.foldl_append]
      rfl
    rw [hlast, EventLog.emit, EventLog.rotateEventLogIfNeeded]
    split
    · exact .inr ⟨receipts.length, by simp⟩
    · rcases ih with h | ⟨dropped, h⟩
      · exact .inl (by rw [h, List.append_assoc])
      · refine .inr ⟨min dropped receipts.length, ?_⟩
        rw [h, List.drop_append_of_le_length (Nat.min_le_right _ _)]
        simp

theorem cursorNow_le (daemon : MirrorDaemon) : daemon.cursorNow ≤ daemon.log.events.length := by
  unfold cursorNow
  split
  · exact Nat.zero_le _
  · omega

theorem length_ahead (daemon : MirrorDaemon) :
    daemon.ahead.length = daemon.log.events.length - daemon.cursorNow := List.length_drop

theorem Faithful.iff_of (h : daemon.Faithful) (next : MirrorDaemon)
    (batch rest receipts : List LoggedEvent) (hwritten : next.written = daemon.written ++ receipts)
    (hhanded : next.handed = daemon.handed ++ batch) (hahead : daemon.ahead = batch ++ rest) :
    next.Faithful ↔ next.ahead = rest ++ receipts := by
  rw [Faithful, hwritten, hhanded, h, hahead, List.append_assoc, List.append_assoc,
    List.append_assoc, List.append_right_inj, List.append_right_inj, eq_comm]

/-- **An event** is still ahead exactly if it is put where the next cycle comes to it. -/
theorem faithful_emit_iff (h : daemon.Faithful) (event : LoggedEvent) :
    (daemon.emit event).Faithful ↔ daemon.Minds (.emit event) := by
  -- Nothing is handed over, so the event has to be ahead, behind all that was.
  rw [h.iff_of (daemon.emit event) [] daemon.ahead [event] rfl (List.append_nil _).symm rfl]
  unfold Minds
  dsimp only
  split
  · rename_i hrotates
    have hevents : (daemon.emit event).log.events = [event] := by
      rw [emit, EventLog.emit, EventLog.rotateEventLogIfNeeded, if_pos hrotates]
      rfl
    -- The new file holds the event alone: a cursor at 1 passes over it, any other starts anew.
    have hahead : (daemon.emit event).ahead =
        if daemon.discordEventCursor = 1 then [] else [event] := by
      have hcursor : (daemon.emit event).discordEventCursor = daemon.discordEventCursor := rfl
      rw [ahead, cursorNow, hevents, hcursor, List.length_singleton]
      rcases Nat.lt_trichotomy daemon.discordEventCursor 1 with hlt | heq | hgt
      · obtain hzero : daemon.discordEventCursor = 0 := by omega
        simp [hzero]
      · simp [heq]
      · simp [hgt, Nat.ne_of_gt hgt]
    rw [hahead]
    split <;> simp [*]
  · rename_i hkeeps
    have hevents : (daemon.emit event).log.events = daemon.log.events ++ [event] := by
      rw [emit, EventLog.emit, EventLog.rotateEventLogIfNeeded, if_neg hkeeps]
    have hcursor : (daemon.emit event).discordEventCursor = daemon.discordEventCursor := rfl
    rw [ahead, ahead, cursorNow, cursorNow, hevents, hcursor, List.length_append,
      List.length_singleton]
    -- A cursor one behind the end means nothing yet, and the end once the event is there.
    rcases Nat.lt_trichotomy (daemon.log.events.length + 1) daemon.discordEventCursor with
      hlt | heq | hgt
    · rw [if_pos hlt, if_pos (by omega)]
      simp [Nat.ne_of_lt hlt]
    · rw [if_neg (by omega), if_pos (by omega), ← heq]
      simp
    · rw [if_neg (by omega), if_neg (by omega), List.drop_append_of_le_length (by omega)]
      simp [Nat.ne_of_gt hgt]

theorem faithful_restart_iff (h : daemon.Faithful) (maxBytes : Nat) :
    (daemon.restart maxBytes).Faithful ↔ daemon.Minds (.restart maxBytes) := by
  rw [h.iff_of (daemon.restart maxBytes) [] daemon.ahead [] (List.append_nil _).symm
    (List.append_nil _).symm rfl, List.append_nil]
  unfold Minds
  dsimp only
  by_cases hrotates : { daemon.log with maxBytes }.mustRotate 0 = true
  · have hahead : (daemon.restart maxBytes).ahead = [] := by
      have hevents : (daemon.restart maxBytes).log.events = [] := by
        simp only [restart, EventLog.rotateEventLogIfNeeded, if_pos hrotates]
      rw [ahead, hevents, List.drop_nil]
    rw [hahead]
    exact ⟨fun h _ => h.symm, fun h => (h hrotates).symm⟩
  · have hevents : (daemon.restart maxBytes).log.events = daemon.log.events := by
      simp only [restart, EventLog.rotateEventLogIfNeeded, if_neg hrotates]
    refine iff_of_true ?_ fun h => absurd h hrotates
    rw [ahead, cursorNow, hevents]
    rfl

/-- The state after a cycle that comes to something. -/
theorem syncDiscordEvents_eq (hread : cycle.read.isOk = true)
    (hcursor : daemon.cursorNow < daemon.log.events.length) :
    daemon.syncDiscordEvents cycle =
      let taken := cycle.takes 0 0 daemon.ahead
      let receipts := taken.flatMap Prod.snd
      { log := daemon.log.emitAll receipts
        discordEventCursor := daemon.cursorNow + taken.length
        written := daemon.written ++ receipts
        handed := daemon.handed ++ taken.map Prod.fst } := by
  unfold syncDiscordEvents
  cases hcycle : cycle.read with
  | error error => rw [hcycle] at hread; cases hread
  | ok _ =>
    dsimp only
    rw [if_neg (Nat.not_le.mpr hcursor), mirrorEvents_eq, ← ahead]
    simp

/-- A cycle that reads the log to find nothing ahead. -/
theorem faithful_sync_of_nothing (h : daemon.Faithful)
    (hcursor : daemon.log.events.length ≤ daemon.cursorNow) :
    (daemon.syncDiscordEvents cycle).Faithful := by
  unfold syncDiscordEvents
  cases cycle.read with
  | error error => exact h
  | ok _ =>
    dsimp only
    rw [if_pos hcursor]
    have hahead : ({ daemon with discordEventCursor := daemon.cursorNow } : MirrorDaemon).ahead =
        daemon.ahead := by
      rw [ahead, ahead, cursorNow, if_neg (Nat.not_lt.mpr daemon.cursorNow_le)]
    rw [Faithful, hahead]
    exact h

/-- When the file is put aside within a cycle, the cycle has to be at the end of it and what it has
logged has to be all in the new one, and to be less. -/
theorem ahead_dropped_iff {rest : List LoggedEvent} {next : MirrorDaemon} {dropped : Nat}
    (hreceipts : receipts ≠ []) (hlog : next.log.events = receipts.drop dropped)
    (hcursor : 0 < next.discordEventCursor) :
    next.ahead = rest ++ receipts ↔
      next.log.events = receipts ∧ rest = [] ∧ receipts.length < next.discordEventCursor := by
  have hpos : 0 < receipts.length := List.length_pos_iff.mpr hreceipts
  constructor
  · intro hahead
    have hlength := congrArg List.length hahead
    rw [length_ahead, hlog, List.length_drop, List.length_append] at hlength
    -- The lengths leave no room for a part that is gone.
    have hdropped : dropped = 0 := by omega
    have hstart : next.cursorNow = 0 := by omega
    have hall : next.log.events = receipts := by rw [hlog, hdropped, List.drop_zero]
    refine ⟨hall, List.length_eq_zero_iff.mp (by omega), ?_⟩
    by_contra hmore
    rw [cursorNow, if_neg (hall ▸ hmore)] at hstart
    omega
  · rintro ⟨hall, rfl, hless⟩
    rw [ahead, cursorNow, if_pos (hall ▸ hless), hall]
    rfl

/-- All that was there is still in the file. -/
theorem ahead_kept {next : MirrorDaemon} {count : Nat}
    (hlog : next.log.events = daemon.log.events ++ receipts)
    (hcursor : next.discordEventCursor = daemon.cursorNow + count)
    (hcount : daemon.cursorNow + count ≤ daemon.log.events.length) :
    next.ahead = daemon.ahead.drop count ++ receipts := by
  have hnow : next.cursorNow = daemon.cursorNow + count := by
    rw [cursorNow, hlog, hcursor, List.length_append, if_neg (by omega)]
  rw [ahead, hnow, hlog, List.drop_append_of_le_length hcount, ahead, List.drop_drop]

/-- **A cycle** passes over nothing and repeats nothing exactly if what it logs of its own goes to
the file that it reads, or leaves nothing behind there and all goes to a shorter one. -/
theorem faithful_sync_iff (h : daemon.Faithful) (cycle : MirrorCycle) :
    (daemon.syncDiscordEvents cycle).Faithful ↔ daemon.Minds (.sync cycle) := by
  unfold Minds
  dsimp only
  by_cases hread : cycle.read.isOk = true
  · rw [imp_iff_right hread]
    rcases Nat.lt_or_ge daemon.cursorNow daemon.log.events.length with hcursor | hcursor
    · have heq := syncDiscordEvents_eq hread hcursor
      set taken := cycle.takes 0 0 daemon.ahead
      set receipts := taken.flatMap Prod.snd with hreceipts
      set next := daemon.syncDiscordEvents cycle
      have hlog : next.log = daemon.log.emitAll receipts := by rw [heq]
      have hnext : next.discordEventCursor = daemon.cursorNow + taken.length := by rw [heq]
      obtain ⟨rest, hrest⟩ := @takes_first cycle 0 0 daemon.ahead
      have hdrop : daemon.ahead.drop taken.length = rest := by
        rw [← hrest, List.drop_left' (List.length_map _)]
      have hlength : taken.length + rest.length = daemon.ahead.length := by
        rw [← hrest, List.length_append, List.length_map]
      have hcount := daemon.length_ahead
      rw [h.iff_of next (taken.map Prod.fst) rest receipts (by rw [heq]) (by rw [heq]) hrest.symm]
      rw [← hlog]
      -- Either the receipts were put behind what is in the file, or the file was rotated.
      by_cases hkept : next.log.events = daemon.log.events ++ receipts
      · refine iff_of_true ?_ (.inl hkept)
        rw [ahead_kept hkept hnext (by omega), hdrop]
      · obtain ⟨dropped, hdropped⟩ :=
          (events_emitAll daemon.log receipts).resolve_left (hlog ▸ hkept)
        have hsome : receipts ≠ [] := by
          intro hnil
          refine hkept ?_
          rw [hlog, hnil, List.append_nil]
          rfl
        have htaken : taken.length ≠ 0 := fun hnone =>
          hsome (by rw [hreceipts, List.length_eq_zero_iff.mp hnone]; rfl)
        rw [or_iff_right hkept, ahead_dropped_iff hsome (hlog ▸ hdropped) (by omega)]
        refine and_congr_right fun _ => ?_
        rw [← List.length_eq_zero_iff]
        omega
    · refine iff_of_true (faithful_sync_of_nothing h hcursor) (.inl ?_)
      have hnothing : daemon.ahead = [] := by
        rw [ahead, List.drop_eq_nil_iff]
        exact hcursor
      rw [hnothing]
      simp [MirrorCycle.takes, EventLog.emitAll]
  · have hsame : daemon.syncDiscordEvents cycle = daemon := by
      unfold syncDiscordEvents
      cases hcycle : cycle.read with
      | error error => rfl
      | ok _ => exact absurd (by rw [hcycle]; rfl) hread
    rw [hsame]
    exact iff_of_true h fun hok => absurd hok hread

/-- **One step** keeps the mirror faithful exactly if it minds the number. -/
theorem faithful_step_iff (h : daemon.Faithful) (event : MirrorEvent) :
    (daemon.step event).Faithful ↔ daemon.Minds event := by
  cases event with
  | emit event => exact faithful_emit_iff h event
  | sync cycle => exact faithful_sync_iff h cycle
  | restart maxBytes => exact faithful_restart_iff h maxBytes

theorem faithful_fresh (log : EventLog) : (fresh log).Faithful := by
  simp [Faithful, ahead, cursorNow, fresh]

/-- When no sending fails, a cycle takes the first five. -/
theorem takes_of_sends (hsends : ∀ sends, (cycle.send sends).isOk = true) (sent sends : Nat)
    (events : List LoggedEvent) :
    (cycle.takes sent sends events).map Prod.fst = events.take (5 - sent) := by
  induction events generalizing sent sends with
  | nil => simp [MirrorCycle.takes]
  | cons event events ih =>
    unfold MirrorCycle.takes
    split
    · rename_i hfull
      simp [Nat.sub_eq_zero_of_le hfull]
    · rename_i hroom
      obtain ⟨room, hroom'⟩ : ∃ room, 5 - sent = room + 1 := ⟨4 - sent, by omega⟩
      obtain rfl : room = 5 - (sent + 1) := by omega
      rw [hroom', List.take_succ_cons]
      split
      · rw [List.map_cons, ih]
      · obtain ⟨outcome, houtcome⟩ : ∃ outcome, cycle.sendDiscordEvent sends event =
            .ok outcome := by
          unfold MirrorCycle.sendDiscordEvent
          have hsend := hsends sends
          repeat' split
          all_goals first | exact ⟨_, rfl⟩ | skip
          cases hcycle : cycle.send sends with
          | error error => rw [hcycle] at hsend; cases hsend
          | ok receipts => exact ⟨_, rfl⟩
        rw [houtcome, List.map_cons, ih]

/-- **So the mirror comes to everything** when the log can be read and no sending fails, five events
a cycle. -/
theorem handed_sync_of_sends (hread : cycle.read.isOk = true)
    (hsends : ∀ sends, (cycle.send sends).isOk = true) :
    (daemon.syncDiscordEvents cycle).handed = daemon.handed ++ daemon.ahead.take 5 := by
  rcases Nat.lt_or_ge daemon.cursorNow daemon.log.events.length with hcursor | hcursor
  · rw [syncDiscordEvents_eq hread hcursor]
    dsimp only
    rw [takes_of_sends hsends]
  · have hnothing : daemon.ahead = [] := by
      rw [ahead, List.drop_eq_nil_iff]
      exact hcursor
    rw [hnothing, List.take_nil, List.append_nil]
    unfold syncDiscordEvents
    cases cycle.read with
    | error error => rfl
    | ok _ =>
      dsimp only
      rw [if_pos hcursor]

end

/-! ### Whole runs -/

/-- **The mirror stays faithful** all along a run exactly if each step of it minds the number that the
daemon keeps; and a cycle in which nothing fails hands over the first five of what is ahead. -/
theorem always_faithful_iff (log : EventLog) (events : List MirrorEvent) :
    (Always step Faithful (fresh log) events ↔ EachStep step Minds (fresh log) events) ∧
      ∀ cycle : MirrorCycle, cycle.read.isOk = true →
        (∀ sends, (cycle.send sends).isOk = true) →
        let daemon := events.foldl step (fresh log)
        (daemon.syncDiscordEvents cycle).handed = daemon.handed ++ daemon.ahead.take 5 :=
  ⟨always_iff_eachStep (fun _ event h => faithful_step_iff h event) (faithful_fresh log),
    fun _ hread hsends => handed_sync_of_sends hread hsends⟩

/-- One event, and the cycle that hands it over. -/
theorem always_faithful_fresh :
    let log : EventLog := { events := [], maxBytes := 25 }
    let event : LoggedEvent := { event := "task_assigned", size := 9 }
    let cycle : MirrorCycle :=
      { config := some { eventsChannelId := some "events", agentsChannelId := none }
        send := fun _ => .ok [] }
    Always step Faithful (fresh log) [.emit event, .sync cycle] ∧
      ((fresh log).emit event |>.syncDiscordEvents cycle).handed = [event] := by
  intro log event cycle
  have hrun := always_faithful_iff log [.emit event]
  have hwhole := always_faithful_iff log [.emit event, .sync cycle]
  refine ⟨hwhole.1.mpr ⟨?_, ?_, trivial⟩, ?_⟩
  · simp only [Minds]
    decide
  · simp only [Minds]
    decide
  · exact hrun.2 cycle rfl fun _ => rfl

/-- A log that two lines fit in: the first has been handed over, the second is put aside with it, and
the third, the first of the new file, is passed over. -/
theorem not_faithful_rotation :
    let log : EventLog := { events := [], maxBytes := 25 }
    let named := fun event => ({ event, size := 9 } : LoggedEvent)
    let cycle : MirrorCycle :=
      { config := some { eventsChannelId := some "events", agentsChannelId := none }
        send := fun _ => .ok [] }
    let events : List MirrorEvent := [.emit (named "task_assigned"), .sync cycle,
      .emit (named "task_completed"), .emit (named "task_blocked"), .sync cycle]
    let daemon := events.foldl step (fresh log)
    ¬ Always step Faithful (fresh log) events ∧
      daemon.written.map LoggedEvent.event = ["task_assigned", "task_completed", "task_blocked"] ∧
      daemon.handed.map LoggedEvent.event = ["task_assigned"] ∧ daemon.ahead = [] := by
  refine ⟨fun h => absurd (h _ (List.prefix_refl _)) ?_, ?_⟩
  · unfold Faithful
    decide
  · decide

end MirrorDaemon

end Batty
