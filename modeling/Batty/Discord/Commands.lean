import Batty.Foundation.Runs
import Batty.Foundation.Text
import Mathlib.Data.List.Induction
import Mathlib.Data.List.Sort

/-!
# Commands from Discord

The daemon asks Discord for the messages of the commands channel that are newer than the newest it
has seen, and hands over what authorised users wrote: a command is executed, and anything else goes
to the inboxes of those whom the user talks to. What it has seen is kept in memory, so that a new
daemon asks for the latest messages and executes them again; and one message whose author has no
readable number makes it drop the whole answer and ask for it again (`not_settled_restart`).

* `CommandDaemon.Settled`: nothing is handed over twice, and what Discord answered is handed over.
* `CommandDaemon.always_handedOnce_iff`: the runs in which that stays so.
-/

namespace Batty

/-- The author of a message, of whom both fields may be missing. -/
structure DiscordAuthor where
  bot : Option Bool
  id : Option String
deriving DecidableEq

/-- A message of an answer; a field is there if it has the type that is looked for. -/
structure DiscordMessage where
  id : Option String
  channelId : Option String
  content : Option String
  author : Option DiscordAuthor
deriving DecidableEq

/-- A message that is handed to the daemon. -/
structure InboundMessage where
  messageId : String
  channelId : String
  fromUserId : Int
  text : String
deriving DecidableEq

/-- A page of which nothing could be used, and why. -/
structure DiscordMessageContentFault where
  totalReceived : Nat
  droppedEmptyContent : Nat
  droppedBotAuthor : Nat
  droppedUnauthorizedUser : Nat

def DiscordMessageContentFault.statusMessage (fault : DiscordMessageContentFault) : String :=
  s!"Discord MESSAGE_CONTENT intent fault: received {fault.totalReceived} messages and dropped " ++
    s!"{fault.droppedEmptyContent} empty-content messages. " ++
    "Enable MESSAGE CONTENT INTENT for the bot in Discord Developer Portal -> Bot -> " ++
    "Privileged Gateway Intents, then restart Batty."

/-- What the bot keeps between two polls. -/
structure DiscordBot where
  allowedUserIds : List Int
  lastMessageId : Option String := none
  lastMessageContentFault : Option DiscordMessageContentFault := none

/-! ### Reading an answer -/

/-- What the messages read so far come to. -/
structure MessageScan where
  inbound : List InboundMessage := []
  latestMessageId : Option (Nat × String) := none
  droppedEmptyContent : Nat := 0
  droppedBotAuthor : Nat := 0
  droppedUnauthorizedUser : Nat := 0
  latestAnySnowflake : Option (Nat × String) := none

/-- The later of what is noted and a new one. -/
def noteLatest (latest : Option (Nat × String)) (snowflake : Nat) (messageId : String) :
    Option (Nat × String) :=
  match latest with
  | some (noted, _) => if noted ≥ snowflake then latest else some (snowflake, messageId)
  | none => some (snowflake, messageId)

def snowflake (messageId : String) : Option Nat := Text.parseU64 messageId.toList

/-- The content without the blanks around it, if that leaves something. -/
def DiscordMessage.text (message : DiscordMessage) : Option String :=
  message.content.bind fun content =>
    let trimmed := Text.trim content.toList
    if trimmed.isEmpty then none else some (String.ofList trimmed)

def noteAny (scan : MessageScan) (messageId : String) : MessageScan :=
  match snowflake messageId with
  | some any =>
    { scan with latestAnySnowflake := noteLatest scan.latestAnySnowflake any messageId }
  | none => scan

/-- One turn of the loop over the messages. -/
def scanMessage (allowedUserIds : List Int) (scan : MessageScan) (message : DiscordMessage) :
    Except String MessageScan :=
  match message.id with
  | none => .ok scan
  | some messageId =>
    let scan := noteAny scan messageId
    match message.channelId with
    | none => .ok scan
    | some channelId =>
      match message.text with
      | none => .ok { scan with droppedEmptyContent := scan.droppedEmptyContent + 1 }
      | some content =>
        match message.author with
        | none => .ok scan
        | some author =>
          if author.bot = some true then
            .ok { scan with droppedBotAuthor := scan.droppedBotAuthor + 1 }
          else
            match author.id with
            | none => .ok scan
            | some raw =>
              match Text.parseI64 raw.toList with
              | none => .error s!"invalid Discord user id '{raw}'"
              | some fromUserId =>
                if !allowedUserIds.contains fromUserId then
                  .ok { scan with droppedUnauthorizedUser := scan.droppedUnauthorizedUser + 1 }
                else
                  match snowflake messageId with
                  | none => .error s!"invalid Discord message id '{messageId}'"
                  | some snowflake =>
                    .ok { scan with
                      latestMessageId := noteLatest scan.latestMessageId snowflake messageId
                      inbound := scan.inbound ++
                        [{ messageId, channelId, fromUserId, text := content }] }

/-- What is asked for next time. -/
def MessageScan.cursor (scan : MessageScan) : Option String :=
  match scan.latestMessageId, scan.latestAnySnowflake with
  | some (delivered, deliveredId), some (any, anyId) =>
    if any > delivered then some anyId else some deliveredId
  | some (_, id), none | none, some (_, id) => some id
  | none, none => none

def MessageScan.messageContentFault (scan : MessageScan) (total : Nat) :
    Option DiscordMessageContentFault :=
  if 0 < total && scan.inbound.isEmpty && scan.droppedEmptyContent == total then
    some
      { totalReceived := total
        droppedEmptyContent := scan.droppedEmptyContent
        droppedBotAuthor := scan.droppedBotAuthor
        droppedUnauthorizedUser := scan.droppedUnauthorizedUser }
  else none

/-- An answer need not be a list of messages. -/
def parseMessagesResponse (answer : Option (List DiscordMessage)) (allowedUserIds : List Int) :
    Except String
      (List InboundMessage × Option String × Option DiscordMessageContentFault) := do
  let some messages := answer | .error "Discord messages response was not an array"
  let scan ← messages.foldlM (scanMessage allowedUserIds) {}
  let inbound := scan.inbound.insertionSort fun a b =>
    (snowflake a.messageId).getD 0 ≤ (snowflake b.messageId).getD 0
  return (inbound, scan.cursor, scan.messageContentFault messages.length)

/-- The request may have failed. -/
abbrev DiscordResponse := Except String (Option (List DiscordMessage))

def DiscordBot.pollCommands (bot : DiscordBot) (response : DiscordResponse) :
    Except String (List InboundMessage × DiscordBot) := do
  let answer ← response
  let (messages, latestMessageId, messageContentFault) ←
    parseMessagesResponse answer bot.allowedUserIds
  let bot :=
    match latestMessageId with
    | some messageId => { bot with lastMessageId := some messageId }
    | none => bot
  return (messages, { bot with lastMessageContentFault := messageContentFault })

/-! ### Handing over -/

/-- How a message is handed over: to be executed, or to inboxes. -/
inductive Handing where
  | command (message : InboundMessage)
  | inboxes (message : InboundMessage) (targets : List String)

def Handing.message : Handing → InboundMessage
  | .command message | .inboxes message _ => message

/-- What begins with a dollar sign is a command, which is answered if there is no such command. -/
def InboundMessage.isCommand (message : InboundMessage) : Bool :=
  (Text.trim message.text.toList).head? == some '$'

def handOver (targets : List String) (message : InboundMessage) : Handing :=
  if message.isCommand then .command message else .inboxes message targets

/-- A message that was posted, with the number by which Discord orders messages. -/
structure PostedMessage where
  number : Nat
  json : DiscordMessage
deriving DecidableEq

/-- The daemon, with what was posted in the channel and what of it Discord has answered. -/
structure CommandDaemon where
  bot : DiscordBot
  targets : List String
  loopStepErrors : List (String × String) := []
  handed : List Handing := []
  posted : List PostedMessage := []
  answered : List PostedMessage := []

namespace CommandDaemon

/-- A poll of the channel: what is read is handed over, and the cursor moves on. -/
def pollDiscord (daemon : CommandDaemon) (response : DiscordResponse) : CommandDaemon :=
  match daemon.bot.pollCommands response with
  | .error _ => daemon
  | .ok (messages, bot) =>
    let faults := bot.lastMessageContentFault.toList.map fun fault =>
      ("process_discord_queue", fault.statusMessage)
    { daemon with
      bot := { bot with lastMessageContentFault := none }
      loopStepErrors := daemon.loopStepErrors ++ faults
      handed := daemon.handed ++ messages.map (handOver daemon.targets) }

/-- A new daemon has the bot of the configuration. -/
def restart (daemon : CommandDaemon) : CommandDaemon :=
  { daemon with bot := { allowedUserIds := daemon.bot.allowedUserIds } }

end CommandDaemon

/-! ### Runs -/

/-- Of an answer with messages it is known which of those posted they are. -/
inductive DiscordEvent where
  | post (message : PostedMessage)
  | page (messages : List PostedMessage)
  | failure (response : DiscordResponse)
  | restart

namespace CommandDaemon

def step (daemon : CommandDaemon) : DiscordEvent → CommandDaemon
  | .post message => { daemon with posted := daemon.posted ++ [message] }
  | .page messages =>
    { daemon.pollDiscord (.ok (some (messages.map PostedMessage.json))) with
      answered := daemon.answered ++ messages }
  | .failure response => daemon.pollDiscord response
  | .restart => daemon.restart

def fresh (allowedUserIds : List Int) (targets : List String) : CommandDaemon where
  bot := { allowedUserIds }
  targets

/-- What Discord documents: a message has a number of its own, and the id that it is sent with can
only be read as that; an answer has at most a hundred messages, and these are newer than the one
that was named, or the latest if none was. -/
def AsDocumented (daemon : CommandDaemon) : DiscordEvent → Prop
  | .post message =>
    (∀ other ∈ daemon.posted, other.number ≠ message.number) ∧
      ∀ id number, message.json.id = some id → snowflake id = some number →
        number = message.number
  | .page messages =>
    messages ⊆ daemon.posted ∧ messages.Nodup ∧ messages.length ≤ 100 ∧
      match daemon.bot.lastMessageId with
      | some last => ∀ message ∈ messages, ∀ number, snowflake last = some number →
          number < message.number
      | none => ∀ other ∈ daemon.posted, other ∉ messages →
          messages.length = 100 ∧ ∀ message ∈ messages, other.number < message.number
  | .failure response => ∀ messages, response ≠ .ok (some messages)
  | .restart => True

end CommandDaemon

/-! ### What a message is -/

/-- What an authorised user wrote, if all of it can be read. -/
def DiscordMessage.inbound (allowedUserIds : List Int) (message : DiscordMessage) :
    Option InboundMessage := do
  let messageId ← message.id
  let channelId ← message.channelId
  let text ← message.text
  let author ← message.author
  let raw ← author.id
  let fromUserId ← Text.parseI64 raw.toList
  let _ ← snowflake messageId
  if author.bot ≠ some true ∧ allowedUserIds.contains fromUserId then
    some { messageId, channelId, fromUserId, text }
  else none

/-- A message that has all that is needed, whose author is no bot, and one of whose numbers cannot
be read: the author's, or for an authorised one that of the message. -/
def DiscordMessage.unreadable (allowedUserIds : List Int) (message : DiscordMessage) : Bool :=
  message.channelId.isSome && message.text.isSome &&
    message.id.any fun messageId => message.author.any fun author =>
      author.bot != some true && author.id.any fun raw =>
        match Text.parseI64 raw.toList with
        | none => true
        | some fromUserId => allowedUserIds.contains fromUserId && (snowflake messageId).isNone

namespace CommandDaemon

end CommandDaemon

/-! ### What an answer comes to -/

section

variable {allowedUserIds : List Int}

/-- The number of a message as far as it can be read from its id, with the id. -/
def DiscordMessage.numbered (message : DiscordMessage) : Option (Nat × String) :=
  message.id.bind fun messageId => (snowflake messageId).map fun number => (number, messageId)

/-- What one message adds to what was read. -/
structure MessageScan.Reads (scan : MessageScan) (allowedUserIds : List Int)
    (message : DiscordMessage) (next : MessageScan) : Prop where
  inbound : next.inbound = scan.inbound ++ (message.inbound allowedUserIds).toList
  any : next.latestAnySnowflake = match message.numbered with
    | some (number, messageId) => noteLatest scan.latestAnySnowflake number messageId
    | none => scan.latestAnySnowflake
  delivered : next.latestMessageId = match message.inbound allowedUserIds, message.numbered with
    | some _, some (number, messageId) => noteLatest scan.latestMessageId number messageId
    | _, _ => scan.latestMessageId

@[simp] theorem noteAny_inbound (scan : MessageScan) (messageId : String) :
    (noteAny scan messageId).inbound = scan.inbound := by
  unfold noteAny
  split <;> rfl

@[simp] theorem noteAny_latestMessageId (scan : MessageScan) (messageId : String) :
    (noteAny scan messageId).latestMessageId = scan.latestMessageId := by
  unfold noteAny
  split <;> rfl

/-- A message that is passed over. -/
theorem MessageScan.Reads.of_none {scan next : MessageScan} {message : DiscordMessage}
    {messageId : String} (hid : message.id = some messageId)
    (hnone : message.inbound allowedUserIds = none)
    (hinbound : next.inbound = scan.inbound)
    (hany : next.latestAnySnowflake = (noteAny scan messageId).latestAnySnowflake)
    (hlatest : next.latestMessageId = scan.latestMessageId) :
    scan.Reads allowedUserIds message next where
  inbound := by rw [hinbound, hnone, Option.toList_none, List.append_nil]
  any := by
    rw [hany, DiscordMessage.numbered, hid, noteAny]
    cases hsnow : snowflake messageId <;> simp [hsnow]
  delivered := by rw [hlatest, hnone]

/-- **One message** stops the reading exactly if it is unreadable, and else adds what it is. -/
theorem scanMessage_spec (scan : MessageScan) (message : DiscordMessage) :
    match scanMessage allowedUserIds scan message with
    | .error _ => message.unreadable allowedUserIds = true
    | .ok next =>
      message.unreadable allowedUserIds = false ∧ scan.Reads allowedUserIds message next := by
  unfold scanMessage
  rcases hid : message.id with _ | messageId
  · refine ⟨by simp [DiscordMessage.unreadable, hid], ?_⟩
    constructor <;> simp [DiscordMessage.inbound, DiscordMessage.numbered, hid]
  -- The branches that pass the message over differ only in what they count.
  have hskip : ∀ next : MessageScan, message.unreadable allowedUserIds = false →
      message.inbound allowedUserIds = none → next.inbound = scan.inbound →
      next.latestAnySnowflake = (noteAny scan messageId).latestAnySnowflake →
      next.latestMessageId = scan.latestMessageId →
      message.unreadable allowedUserIds = false ∧ scan.Reads allowedUserIds message next :=
    fun next hreadable hnone hinbound hany hlatest =>
      ⟨hreadable, .of_none hid hnone hinbound hany hlatest⟩
  dsimp only
  rcases hchannel : message.channelId with _ | channelId
  · refine hskip _ ?_ ?_ ?_ ?_ ?_ <;>
      simp [DiscordMessage.unreadable, DiscordMessage.inbound, hid, hchannel]
  rcases htext : message.text with _ | text
  · refine hskip _ ?_ ?_ ?_ ?_ ?_ <;>
      simp [DiscordMessage.unreadable, DiscordMessage.inbound, hid, hchannel, htext]
  rcases hauthor : message.author with _ | author
  · refine hskip _ ?_ ?_ ?_ ?_ ?_ <;>
      simp [DiscordMessage.unreadable, DiscordMessage.inbound, hid, hchannel, htext, hauthor]
  dsimp only
  by_cases hbot : author.bot = some true
  · rw [if_pos hbot]
    refine hskip _ ?_ ?_ ?_ ?_ ?_ <;>
      simp [DiscordMessage.unreadable, DiscordMessage.inbound, hid, hchannel, htext, hauthor, hbot]
  rw [if_neg hbot]
  rcases hraw : author.id with _ | raw
  · refine hskip _ ?_ ?_ ?_ ?_ ?_ <;>
      simp [DiscordMessage.unreadable, DiscordMessage.inbound, hid, hchannel, htext, hauthor, hraw]
  dsimp only
  rcases hparse : Text.parseI64 raw.toList with _ | fromUserId
  · simp [DiscordMessage.unreadable, hid, hchannel, htext, hauthor, hbot, hraw, hparse]
  dsimp only
  by_cases hallowed : allowedUserIds.contains fromUserId = true
  · rw [hallowed, Bool.not_true, if_neg Bool.false_ne_true]
    rw [List.contains_eq_mem, decide_eq_true_eq] at hallowed
    rcases hsnow : snowflake messageId with _ | number
    · simp [DiscordMessage.unreadable, hid, hchannel, htext, hauthor, hbot, hraw, hparse, hallowed,
        hsnow]
    · have hinbound : message.inbound allowedUserIds =
          some { messageId, channelId, fromUserId, text } := by
        simp [DiscordMessage.inbound, hid, hchannel, htext, hauthor, hbot, hraw, hparse, hallowed,
          hsnow]
      have hnumbered : message.numbered = some (number, messageId) := by
        simp [DiscordMessage.numbered, hid, hsnow]
      refine ⟨?_, ?_, ?_, ?_⟩
      · simp [DiscordMessage.unreadable, hauthor, hraw, hparse, hid, hsnow]
      · simp [hinbound]
      · simp [hnumbered, noteAny, hsnow]
      · simp [hinbound, hnumbered]
  · rw [if_pos (by simpa using hallowed)]
    rw [List.contains_eq_mem, decide_eq_true_eq] at hallowed
    refine hskip _ ?_ ?_ ?_ ?_ ?_ <;>
      simp [DiscordMessage.unreadable, DiscordMessage.inbound, hid, hchannel, htext, hauthor, hraw,
        hparse, hallowed]

/-- What a page adds to nothing. -/
structure MessageScan.Read (scan : MessageScan) (allowedUserIds : List Int)
    (page : List DiscordMessage) : Prop where
  inbound : scan.inbound = page.filterMap (DiscordMessage.inbound allowedUserIds)
  any : ∀ message ∈ page, ∀ numbered, message.numbered = some numbered →
    ∃ noted, scan.latestAnySnowflake = some noted ∧ numbered.1 ≤ noted.1
  anyFrom : ∀ noted, scan.latestAnySnowflake = some noted →
    ∃ message ∈ page, message.numbered = some noted
  deliveredFrom : ∀ noted, scan.latestMessageId = some noted →
    ∃ message ∈ page, message.numbered = some noted

theorem noteLatest_spec (latest : Option (Nat × String)) (number : Nat) (messageId : String) :
    ∃ noted, noteLatest latest number messageId = some noted ∧ number ≤ noted.1 ∧
      (∀ old, latest = some old → old.1 ≤ noted.1) ∧
      (latest = some noted ∨ noted = (number, messageId)) := by
  unfold noteLatest
  split
  · split
    · exact ⟨_, rfl, ‹_›, by simp, .inl rfl⟩
    · refine ⟨_, rfl, le_rfl, ?_, .inr rfl⟩
      rintro old hold
      cases hold
      exact Nat.le_of_lt (Nat.lt_of_not_ge ‹_›)
  · exact ⟨_, rfl, le_rfl, by simp, .inr rfl⟩

theorem MessageScan.Read.snoc {scan next : MessageScan} {page : List DiscordMessage}
    {message : DiscordMessage} (h : scan.Read allowedUserIds page)
    (hreads : scan.Reads allowedUserIds message next) :
    next.Read allowedUserIds (page ++ [message]) := by
  have hmem : message ∈ page ++ [message] := List.mem_append_right _ (List.mem_singleton_self _)
  have hfrom : ∀ noted, (∃ message ∈ page, message.numbered = some noted) →
      ∃ message' ∈ page ++ [message], message'.numbered = some noted :=
    fun noted ⟨other, hother, heq⟩ => ⟨other, List.mem_append_left _ hother, heq⟩
  constructor
  · rw [hreads.inbound, h.inbound, List.filterMap_append]
    cases hinbound : message.inbound allowedUserIds <;> simp [hinbound]
  · intro other hother numbered hnumbered
    rw [hreads.any]
    rcases List.mem_append.mp hother with hother | hother
    · -- The mark only rises, so it stays above what was read before.
      obtain ⟨noted, hnoted, hle⟩ := h.any other hother numbered hnumbered
      split
      · obtain ⟨later, hlater, -, hold, -⟩ := noteLatest_spec scan.latestAnySnowflake _ _
        exact ⟨later, hlater, hle.trans (hold noted hnoted)⟩
      · exact ⟨noted, hnoted, hle⟩
    · obtain rfl := List.mem_singleton.mp hother
      rw [hnumbered]
      obtain ⟨later, hlater, hle, -⟩ :=
        noteLatest_spec scan.latestAnySnowflake numbered.1 numbered.2
      exact ⟨later, hlater, hle⟩
  · intro noted hnoted
    rw [hreads.any] at hnoted
    split at hnoted
    · obtain ⟨later, hlater, -, -, heither⟩ := noteLatest_spec scan.latestAnySnowflake _ _
      obtain rfl : later = noted := Option.some.inj (hlater.symm.trans hnoted)
      rcases heither with hold | rfl
      · exact hfrom _ (h.anyFrom _ hold)
      · exact ⟨message, hmem, ‹_›⟩
    · exact hfrom _ (h.anyFrom _ hnoted)
  · intro noted hnoted
    rw [hreads.delivered] at hnoted
    split at hnoted
    · obtain ⟨later, hlater, -, -, heither⟩ := noteLatest_spec scan.latestMessageId _ _
      obtain rfl : later = noted := Option.some.inj (hlater.symm.trans hnoted)
      rcases heither with hold | rfl
      · exact hfrom _ (h.deliveredFrom _ hold)
      · exact ⟨message, hmem, ‹_›⟩
    · exact hfrom _ (h.deliveredFrom _ hnoted)

/-- **A page** cannot be read exactly if one of its messages is unreadable. -/
theorem foldlM_scanMessage_spec (page : List DiscordMessage) :
    match page.foldlM (scanMessage allowedUserIds) {} with
    | .error _ => page.any (DiscordMessage.unreadable allowedUserIds) = true
    | .ok scan => page.any (DiscordMessage.unreadable allowedUserIds) = false ∧
        scan.Read allowedUserIds page := by
  induction page using List.reverseRecOn with
  | nil => exact ⟨rfl, by constructor <;> simp⟩
  | append_singleton page message ih =>
    rw [List.foldlM_append, List.any_append, List.any_cons, List.any_nil, Bool.or_false]
    cases hpage : page.foldlM (scanMessage allowedUserIds) {} with
    | error error =>
      rw [hpage] at ih
      exact Bool.or_eq_true_iff.mpr (.inl ih)
    | ok scan =>
      rw [hpage] at ih
      -- The page is read up to its last message, which alone decides what is left.
      have hone := @scanMessage_spec allowedUserIds scan message
      show match scanMessage allowedUserIds scan message >>= pure with
        | .error _ => _
        | .ok _ => _
      rw [bind_pure]
      cases hmessage : scanMessage allowedUserIds scan message with
      | error error =>
        rw [hmessage] at hone
        exact Bool.or_eq_true_iff.mpr (.inr hone)
      | ok next =>
        rw [hmessage] at hone
        exact ⟨Bool.or_eq_false_iff.mpr ⟨ih.1, hone.1⟩, ih.2.snoc hone.2⟩

/-- The cursor is the highest number in the page. -/
theorem MessageScan.Read.cursor_spec {scan : MessageScan} {page : List DiscordMessage}
    (h : scan.Read allowedUserIds page) :
    match scan.cursor with
    | some last => ∃ number, (∃ message ∈ page, message.numbered = some (number, last)) ∧
        ∀ message ∈ page, ∀ numbered, message.numbered = some numbered → numbered.1 ≤ number
    | none => ∀ message ∈ page, message.numbered = none := by
  have hbound : ∀ noted, scan.latestAnySnowflake = some noted → ∀ message ∈ page, ∀ numbered,
      message.numbered = some numbered → numbered.1 ≤ noted.1 := by
    intro noted hnoted message hmem numbered hnumbered
    obtain ⟨latest, hlatest, hle⟩ := h.any message hmem numbered hnumbered
    rwa [Option.some.inj (hnoted.symm.trans hlatest)]
  unfold MessageScan.cursor
  cases hdelivered : scan.latestMessageId with
  | none =>
    cases hany : scan.latestAnySnowflake with
    | none =>
      intro message hmem
      by_contra hsome
      obtain ⟨numbered, hnumbered⟩ := Option.ne_none_iff_exists'.mp hsome
      obtain ⟨latest, hlatest, -⟩ := h.any message hmem numbered hnumbered
      exact absurd (hany.symm.trans hlatest) (by simp)
    | some any => exact ⟨any.1, h.anyFrom any hany, hbound any hany⟩
  | some delivered =>
    obtain ⟨message, hmem, hnumbered⟩ := h.deliveredFrom delivered hdelivered
    obtain ⟨any, hany, hle⟩ := h.any message hmem delivered hnumbered
    -- The cursor goes to the higher of the two marks.
    rw [hany]
    dsimp only
    split <;> rename_i hlast
    · split at hlast
      · cases hlast
        exact ⟨any.1, h.anyFrom any hany, hbound any hany⟩
      · cases hlast
        refine ⟨delivered.1, ⟨message, hmem, hnumbered⟩, fun other hother numbered hother' => ?_⟩
        exact (hbound any hany other hother numbered hother').trans (Nat.le_of_not_lt ‹_›)
    · split at hlast <;> cases hlast

end

namespace CommandDaemon

/-- What was handed over. -/
def messages (daemon : CommandDaemon) : List InboundMessage := daemon.handed.map Handing.message

/-- What is handed over has not been before, and what Discord has answered is handed over if it is
what an authorised user wrote. -/
def Settled (daemon : CommandDaemon) : Prop :=
  (daemon.messages.map InboundMessage.messageId).Nodup ∧
    ∀ message ∈ daemon.answered, ∀ inbound,
      message.json.inbound daemon.bot.allowedUserIds = some inbound →
      inbound ∈ daemon.messages

/-- An answer with an unreadable message has nothing else that is still to be handed over, and the
first one that a new daemon can read has nothing that was handed over before. -/
def Minds (daemon : CommandDaemon) : DiscordEvent → Prop
  | .page messages =>
    let inbound := messages.filterMap fun message =>
      message.json.inbound daemon.bot.allowedUserIds
    if messages.any fun message => message.json.unreadable daemon.bot.allowedUserIds then
      ∀ message ∈ inbound, message ∈ daemon.messages
    else daemon.bot.lastMessageId = none → ∀ message ∈ inbound, message ∉ daemon.messages
  | _ => True

/-! ### What a step keeps -/

section

variable {daemon : CommandDaemon} {page : List DiscordMessage}

theorem message_handOver (targets : List String) (message : InboundMessage) :
    (handOver targets message).message = message := by
  unfold handOver
  split <;> rfl

/-- The daemon after an answer that it could read. -/
structure Polled (daemon : CommandDaemon) (page : List DiscordMessage) (next : CommandDaemon) :
    Prop where
  allowed : next.bot.allowedUserIds = daemon.bot.allowedUserIds
  posted : next.posted = daemon.posted
  answered : next.answered = daemon.answered
  handed : ∃ batch, batch.Perm (page.filterMap (DiscordMessage.inbound daemon.bot.allowedUserIds)) ∧
    next.messages = daemon.messages ++ batch
  cursor : (∃ last number, next.bot.lastMessageId = some last ∧
      (∃ message ∈ page, message.numbered = some (number, last)) ∧
      ∀ message ∈ page, ∀ numbered, message.numbered = some numbered → numbered.1 ≤ number) ∨
    next.bot.lastMessageId = daemon.bot.lastMessageId ∧ ∀ message ∈ page, message.numbered = none

/-- **A poll** that is answered with a page. -/
theorem pollDiscord_page (daemon : CommandDaemon) (page : List DiscordMessage) :
    if page.any (DiscordMessage.unreadable daemon.bot.allowedUserIds) = true then
      daemon.pollDiscord (.ok (some page)) = daemon
    else daemon.Polled page (daemon.pollDiscord (.ok (some page))) := by
  have hscan := @foldlM_scanMessage_spec daemon.bot.allowedUserIds page
  cases hpage : page.foldlM (scanMessage daemon.bot.allowedUserIds) {} with
  | error error =>
    rw [hpage] at hscan
    have hpoll : daemon.bot.pollCommands (.ok (some page)) = .error error := by
      simp only [DiscordBot.pollCommands, parseMessagesResponse, hpage, bind, Except.bind]
    rw [if_pos hscan, pollDiscord, hpoll]
  | ok scan =>
    rw [hpage] at hscan
    obtain ⟨hreadable, hread⟩ := hscan
    rw [if_neg (by rw [hreadable]; exact Bool.false_ne_true), pollDiscord]
    simp only [DiscordBot.pollCommands, parseMessagesResponse, hpage, bind, Except.bind, pure,
      Except.pure]
    have hcursor := hread.cursor_spec
    refine ⟨?_, rfl, rfl, ?_, ?_⟩
    · dsimp only
      split <;> rfl
    -- What is handed over is what was read, in the order of the numbers.
    · refine ⟨scan.inbound.insertionSort fun a b =>
        (snowflake a.messageId).getD 0 ≤ (snowflake b.messageId).getD 0, ?_, ?_⟩
      · rw [← hread.inbound]
        exact List.perm_insertionSort _ _
      · simp [messages, Function.comp_def, message_handOver]
    · cases hlast : scan.cursor with
      | none =>
        rw [hlast] at hcursor
        exact .inr ⟨rfl, hcursor⟩
      | some last =>
        rw [hlast] at hcursor
        obtain ⟨number, hfrom, hbound⟩ := hcursor
        exact .inl ⟨last, number, rfl, hfrom, hbound⟩

/-- A poll that fails changes nothing. -/
theorem pollDiscord_failure {response : DiscordResponse}
    (h : ∀ page, response ≠ .ok (some page)) : daemon.pollDiscord response = daemon := by
  rcases response with error | _ | page
  · rfl
  · rfl
  · exact absurd rfl (h page)

theorem numbered_spec {message : DiscordMessage} {numbered : Nat × String}
    (h : message.numbered = some numbered) :
    message.id = some numbered.2 ∧ snowflake numbered.2 = some numbered.1 := by
  simp only [DiscordMessage.numbered, Option.bind_eq_some_iff, Option.map_eq_some_iff] at h
  obtain ⟨id, hid, number, hnumber, rfl⟩ := h
  exact ⟨hid, hnumber⟩

theorem inbound_spec {allowedUserIds : List Int} {message : DiscordMessage}
    {inbound : InboundMessage} (h : message.inbound allowedUserIds = some inbound) :
    message.id = some inbound.messageId ∧ ∃ number, snowflake inbound.messageId = some number ∧
      message.numbered = some (number, inbound.messageId) := by
  simp only [DiscordMessage.inbound, Option.bind_eq_bind, Option.bind_eq_some_iff] at h
  obtain ⟨messageId, hid, channelId, -, text, -, author, -, raw, -, fromUserId, -, number, hnumber,
    hinbound⟩ := h
  split at hinbound
  · cases hinbound
    exact ⟨hid, number, hnumber, by simp [DiscordMessage.numbered, hid, hnumber]⟩
  · cases hinbound

/-- What holds all along a run in which Discord answers as it documents. -/
structure Sound (daemon : CommandDaemon) : Prop where
  settled : daemon.Settled
  numbers : (daemon.posted.map PostedMessage.number).Nodup
  ids : ∀ message ∈ daemon.posted, ∀ numbered, message.json.numbered = some numbered →
    numbered.1 = message.number
  handed : ∀ inbound ∈ daemon.messages, ∃ message ∈ daemon.posted,
    message.json.inbound daemon.bot.allowedUserIds = some inbound
  cursor : ∀ last, daemon.bot.lastMessageId = some last → ∃ number, snowflake last = some number ∧
    ∀ inbound ∈ daemon.messages, ∀ other, snowflake inbound.messageId = some other →
      other ≤ number

theorem sound_fresh (allowedUserIds : List Int) (targets : List String) :
    (fresh allowedUserIds targets).Sound := by
  constructor <;> simp [fresh, Settled, messages]

/-- The same id is that of the same message. -/
theorem Sound.eq_of_messageId (h : daemon.Sound) {first second : PostedMessage}
    (hfirst : first ∈ daemon.posted) (hsecond : second ∈ daemon.posted) {a b : InboundMessage}
    (ha : first.json.inbound daemon.bot.allowedUserIds = some a)
    (hb : second.json.inbound daemon.bot.allowedUserIds = some b)
    (hid : a.messageId = b.messageId) : first = second ∧ a = b := by
  obtain ⟨-, number, hnumber, hanumbered⟩ := inbound_spec ha
  obtain ⟨-, other, hother, hbnumbered⟩ := inbound_spec hb
  obtain rfl : number = other := by
    rw [hid] at hnumber
    exact Option.some.inj (hnumber.symm.trans hother)
  have heq : first = second := by
    refine List.inj_on_of_nodup_map h.numbers hfirst hsecond ?_
    rw [← h.ids first hfirst _ hanumbered, ← h.ids second hsecond _ hbnumbered]
  subst heq
  exact ⟨rfl, Option.some.inj (ha.symm.trans hb)⟩

/-- In a page that the daemon can read nothing is there twice, so that nothing is handed over twice
exactly if nothing in it was handed over before. -/
theorem Sound.nodup_iff (h : daemon.Sound) {messages : List PostedMessage}
    (hposted : messages ⊆ daemon.posted) (hnodup : messages.Nodup) {batch : List InboundMessage}
    (hbatch : batch.Perm (messages.filterMap fun message =>
      message.json.inbound daemon.bot.allowedUserIds)) :
    ((daemon.messages ++ batch).map InboundMessage.messageId).Nodup ↔
      ∀ message ∈ batch, message ∉ daemon.messages := by
  have hfrom : ∀ inbound ∈ batch, ∃ message ∈ messages,
      message.json.inbound daemon.bot.allowedUserIds = some inbound := fun inbound hinbound =>
    List.mem_filterMap.mp (hbatch.mem_iff.mp hinbound)
  have hnew : (batch.map InboundMessage.messageId).Nodup := by
    rw [(hbatch.map _).nodup_iff, List.Nodup, List.pairwise_map, List.pairwise_filterMap]
    refine hnodup.imp_of_mem fun hfirst hsecond hne a ha b hb hid => hne ?_
    exact (h.eq_of_messageId (hposted hfirst) (hposted hsecond) ha hb hid).1
  rw [List.map_append, List.nodup_append]
  refine ⟨fun hdisjoint message hmem hhanded => ?_, fun hdisjoint => ⟨h.settled.1, hnew, ?_⟩⟩
  · exact hdisjoint.2.2 _ (List.mem_map_of_mem hhanded) _ (List.mem_map_of_mem hmem) rfl
  · intro id hid other hother heq
    obtain ⟨before, hbefore, rfl⟩ := List.mem_map.mp hid
    obtain ⟨inbound, hinbound, rfl⟩ := List.mem_map.mp hother
    obtain ⟨first, hfirst, hfirstIs⟩ := h.handed before hbefore
    obtain ⟨second, hsecond, hsecondIs⟩ := hfrom inbound hinbound
    -- Who has the id of a message is that message, and it is read the same each time.
    obtain ⟨-, rfl⟩ := h.eq_of_messageId hfirst (hposted hsecond) hfirstIs hsecondIs heq
    exact hdisjoint before hinbound hbefore

/-- A message that can be read has a number, and it is that of the message. -/
theorem Sound.numbered_of_inbound (h : daemon.Sound) {message : PostedMessage}
    (hmem : message ∈ daemon.posted) {inbound : InboundMessage}
    (hinbound : message.json.inbound daemon.bot.allowedUserIds = some inbound) :
    message.json.numbered = some (message.number, inbound.messageId) := by
  obtain ⟨-, number, -, hnumbered⟩ := inbound_spec hinbound
  rw [hnumbered, ← h.ids message hmem _ hnumbered]

/-- After the first answer since the start nothing in a page was handed over before. -/
theorem Sound.not_handed_of_cursor (h : daemon.Sound) {messages : List PostedMessage}
    (hpage : daemon.AsDocumented (.page messages)) {last : String}
    (hlast : daemon.bot.lastMessageId = some last) {message : PostedMessage}
    (hmem : message ∈ messages) {inbound : InboundMessage}
    (hinbound : message.json.inbound daemon.bot.allowedUserIds = some inbound) :
    inbound ∉ daemon.messages := by
  intro hhanded
  obtain ⟨number, hnumber, hbound⟩ := h.cursor last hlast
  have hnewer := hpage.2.2.2
  rw [hlast] at hnewer
  have hle := hbound inbound hhanded _
    (numbered_spec (h.numbered_of_inbound (hpage.1 hmem) hinbound)).2
  exact absurd (hnewer message hmem number hnumber) (Nat.not_lt.mpr hle)

/-- **A page** leaves all well exactly if its messages can be read, or are done with, and none of
them that comes to a new daemon was handed over before. -/
theorem Sound.settled_page_iff (h : daemon.Sound) {messages : List PostedMessage}
    (hpage : daemon.AsDocumented (.page messages)) :
    (daemon.step (.page messages)).Settled ↔ daemon.Minds (.page messages) := by
  have hpoll := daemon.pollDiscord_page (messages.map PostedMessage.json)
  set polled := daemon.pollDiscord (.ok (some (messages.map PostedMessage.json)))
  have hstep : daemon.step (.page messages) =
      { polled with answered := daemon.answered ++ messages } := rfl
  simp only [List.any_map, Function.comp_def] at hpoll
  unfold Minds
  dsimp only
  by_cases hunreadable :
      (messages.any fun message => message.json.unreadable daemon.bot.allowedUserIds) = true
  · rw [if_pos hunreadable]
    rw [if_pos hunreadable] at hpoll
    rw [hstep, hpoll]
    -- Nothing is handed over: all is well if there was nothing left to hand over.
    refine ⟨fun hsettled message hmem => ?_, fun hdone => ⟨h.settled.1, ?_⟩⟩
    · obtain ⟨posted, hposted, hinbound⟩ := List.mem_filterMap.mp hmem
      exact hsettled.2 posted (List.mem_append_right _ hposted) message hinbound
    · intro message hmem inbound hinbound
      rcases List.mem_append.mp hmem with hmem | hmem
      · exact h.settled.2 message hmem inbound hinbound
      · exact hdone inbound (List.mem_filterMap.mpr ⟨message, hmem, hinbound⟩)
  · rw [if_neg hunreadable]
    rw [if_neg hunreadable] at hpoll
    obtain ⟨batch, hbatch, hmessages⟩ := hpoll.handed
    rw [List.filterMap_map] at hbatch
    -- What can go wrong is only that something comes a second time.
    have hiff := h.nodup_iff hpage.1 hpage.2.1 hbatch
    rw [← hmessages] at hiff
    rw [hstep]
    constructor
    · intro hsettled _ message hmem
      exact hiff.mp hsettled.1 message (hbatch.mem_iff.mpr hmem)
    · intro hnew
      refine ⟨hiff.mpr fun message hmem => ?_, ?_⟩
      · have hmem' := hbatch.mem_iff.mp hmem
        cases hlast : daemon.bot.lastMessageId with
        | none => exact hnew hlast message hmem'
        | some last =>
          obtain ⟨posted, hposted, hinbound⟩ := List.mem_filterMap.mp hmem'
          exact h.not_handed_of_cursor hpage hlast hposted hinbound
      · intro message hmem inbound hinbound
        show inbound ∈ polled.messages
        rw [hmessages]
        change message.json.inbound polled.bot.allowedUserIds = some inbound at hinbound
        rw [hpoll.allowed] at hinbound
        rcases List.mem_append.mp hmem with hmem | hmem
        · exact List.mem_append_left _ (h.settled.2 message hmem inbound hinbound)
        · refine List.mem_append_right _ (hbatch.mem_iff.mpr ?_)
          exact List.mem_filterMap.mpr ⟨message, hmem, hinbound⟩

/-- **One step** leaves all well exactly if it minds what is unreadable and what was handed over. -/
theorem Sound.settled_step_iff (h : daemon.Sound) (event : DiscordEvent)
    (hdocumented : daemon.AsDocumented event) :
    (daemon.step event).Settled ↔ daemon.Minds event := by
  cases event with
  | post message => exact iff_of_true h.settled trivial
  | page messages => exact h.settled_page_iff hdocumented
  | failure response =>
    refine iff_of_true ?_ trivial
    rw [step, pollDiscord_failure hdocumented]
    exact h.settled
  | restart => exact iff_of_true h.settled trivial

/-- The cursor after a page is at least at everything that was handed over. -/
theorem Sound.cursor_page (h : daemon.Sound) {messages : List PostedMessage}
    (hpage : daemon.AsDocumented (.page messages)) {polled : CommandDaemon}
    (hpoll : daemon.Polled (messages.map PostedMessage.json) polled) {last : String}
    (hlast : polled.bot.lastMessageId = some last) :
    ∃ number, snowflake last = some number ∧ ∀ inbound ∈ polled.messages, ∀ other,
      snowflake inbound.messageId = some other → other ≤ number := by
  obtain ⟨batch, hbatch, hmessages⟩ := hpoll.handed
  rw [List.filterMap_map] at hbatch
  -- What is new has the number of a message in the page.
  have hfrom : ∀ inbound ∈ batch, ∃ message ∈ messages, ∀ number,
      snowflake inbound.messageId = some number →
      message.json.numbered = some (number, inbound.messageId) := by
    intro inbound hinbound
    obtain ⟨message, hmem, heq⟩ := List.mem_filterMap.mp (hbatch.mem_iff.mp hinbound)
    obtain ⟨-, number, hnumber, hnumbered⟩ := inbound_spec heq
    refine ⟨message, hmem, fun other hother => ?_⟩
    rw [hnumbered, Option.some.inj (hnumber.symm.trans hother)]
  rw [hmessages]
  rcases hpoll.cursor with ⟨newest, number, hnewest, htop, hbound⟩ | ⟨hsame, hnone⟩
  · obtain rfl : newest = last := Option.some.inj (hnewest.symm.trans hlast)
    obtain ⟨json, hjson, hnumbered⟩ := htop
    obtain ⟨top, htop, rfl⟩ := List.mem_map.mp hjson
    obtain rfl : number = top.number := h.ids top (hpage.1 htop) _ hnumbered
    refine ⟨top.number, (numbered_spec hnumbered).2, fun inbound hinbound other hother => ?_⟩
    rcases List.mem_append.mp hinbound with hbefore | hnew
    · have hnewer := hpage.2.2.2
      obtain ⟨message, hmem, heq⟩ := h.handed inbound hbefore
      have hown := h.numbered_of_inbound hmem heq
      obtain rfl : message.number = other :=
        Option.some.inj ((numbered_spec hown).2.symm.trans hother)
      by_cases hin : message ∈ messages
      · exact hbound _ (List.mem_map_of_mem hin) _ hown
      cases hcursor : daemon.bot.lastMessageId with
      | none =>
        -- The answer was the latest messages, and this is none of them.
        rw [hcursor] at hnewer
        exact Nat.le_of_lt ((hnewer message hmem hin).2 top htop)
      | some before =>
        obtain ⟨seen, hseen, hle⟩ := h.cursor before hcursor
        rw [hcursor] at hnewer
        exact (hle inbound hbefore _ hother).trans (Nat.le_of_lt (hnewer top htop seen hseen))
    · obtain ⟨message, hmem, hnumbered⟩ := hfrom inbound hnew
      exact hbound _ (List.mem_map_of_mem hmem) _ (hnumbered other hother)
  · obtain ⟨number, hnumber, hle⟩ := h.cursor last (hsame ▸ hlast)
    refine ⟨number, hnumber, fun inbound hinbound other hother => ?_⟩
    refine hle inbound ((List.mem_append.mp hinbound).resolve_right fun hnew => ?_) other hother
    obtain ⟨message, hmem, hnumbered⟩ := hfrom inbound hnew
    exact absurd ((hnone _ (List.mem_map_of_mem hmem)).symm.trans (hnumbered other hother)) (by simp)

/-- **What a run promises is kept** by a step that minds. -/
theorem Sound.step (h : daemon.Sound) (event : DiscordEvent)
    (hdocumented : daemon.AsDocumented event) (hminds : daemon.Minds event) :
    (daemon.step event).Sound := by
  have hsettled := (h.settled_step_iff event hdocumented).mpr hminds
  cases event with
  | post message =>
    have hmem : ∀ other, other ∈ daemon.posted ++ [message] ↔
        other ∈ daemon.posted ∨ other = message := fun other => by simp
    refine ⟨hsettled, ?_, fun other hother numbered hnumbered => ?_, fun inbound hinbound => ?_,
      h.cursor⟩
    · show ((daemon.posted ++ [message]).map PostedMessage.number).Nodup
      rw [List.map_append, List.nodup_append]
      refine ⟨h.numbers, List.nodup_singleton _, fun number hnumber other hother => ?_⟩
      obtain ⟨before, hbefore, rfl⟩ := List.mem_map.mp hnumber
      obtain rfl := List.mem_singleton.mp hother
      exact hdocumented.1 before hbefore
    · rcases (hmem other).mp hother with hother | rfl
      · exact h.ids other hother numbered hnumbered
      · obtain ⟨hid, hnumber⟩ := numbered_spec hnumbered
        exact hdocumented.2 _ _ hid hnumber
    · obtain ⟨other, hother, heq⟩ := h.handed inbound hinbound
      exact ⟨other, (hmem other).mpr (.inl hother), heq⟩
  | page messages =>
    have hpoll := daemon.pollDiscord_page (messages.map PostedMessage.json)
    set polled := daemon.pollDiscord (.ok (some (messages.map PostedMessage.json))) with hpolled
    have hstep : daemon.step (.page messages) =
        { polled with answered := daemon.answered ++ messages } := rfl
    rw [hstep] at hsettled ⊢
    split at hpoll
    · exact ⟨hsettled, hpoll ▸ h.numbers, hpoll ▸ h.ids, hpoll ▸ h.handed, hpoll ▸ h.cursor⟩
    · -- All that was handed over is a posted message: one of before, or one of the page.
      refine ⟨hsettled, hpoll.posted ▸ h.numbers, hpoll.posted ▸ h.ids, fun inbound hinbound => ?_,
        fun last hlast => h.cursor_page hdocumented hpoll hlast⟩
      obtain ⟨batch, hbatch, hmessages⟩ := hpoll.handed
      rw [List.filterMap_map] at hbatch
      show ∃ message ∈ polled.posted, message.json.inbound polled.bot.allowedUserIds = some inbound
      change inbound ∈ polled.messages at hinbound
      rw [hmessages] at hinbound
      rw [hpoll.posted, hpoll.allowed]
      rcases List.mem_append.mp hinbound with hbefore | hnew
      · exact h.handed inbound hbefore
      · obtain ⟨message, hmem, heq⟩ := List.mem_filterMap.mp (hbatch.mem_iff.mp hnew)
        exact ⟨message, hdocumented.1 hmem, heq⟩
  | failure response =>
    rw [CommandDaemon.step, pollDiscord_failure hdocumented]
    exact h
  | restart =>
    exact { h with
      settled := hsettled
      cursor := fun last hlast => by cases hlast }

end

/-! ### Whole runs -/

/-- **Each message is handed over once**, and as soon as Discord answers with it, all along a run,
exactly if no step of the run brings back what was handed over or answers with what is unreadable. -/
theorem always_handedOnce_iff (allowedUserIds : List Int) (targets : List String)
    (events : List DiscordEvent)
    (hdocumented : EachStep step AsDocumented (fresh allowedUserIds targets) events) :
    Always step Settled (fresh allowedUserIds targets) events ↔
      EachStep step Minds (fresh allowedUserIds targets) events :=
  always_iff_eachStep_of (fun _ h => h.settled) (fun _ event h => h.settled_step_iff event)
    (fun _ event h => h.step event) (sound_fresh allowedUserIds targets) hdocumented

/-- A message as Discord sends it. -/
def sample (number : Nat) (user content : String) : PostedMessage where
  number
  json :=
    { id := some (toString number)
      channelId := some "commands"
      content := some content
      author := some { bot := none, id := some user } }

theorem asDocumented_sample {daemon : CommandDaemon} {number : Nat} {user content : String}
    (hid : snowflake (toString number) = some number)
    (hfresh : ∀ other ∈ daemon.posted, other.number ≠ number) :
    daemon.AsDocumented (.post (sample number user content)) := by
  refine ⟨hfresh, fun id other hother hnumber => ?_⟩
  cases hother
  exact Option.some.inj (hnumber.symm.trans hid)

/-- The team is stopped once, by a user who may. -/
theorem always_handedOnce_stop :
    Always step Settled (fresh [42] [])
      [.post (sample 7 "42" "$stop"), .page [sample 7 "42" "$stop"]] := by
  have hdocumented : EachStep step AsDocumented (fresh [42] [])
      [.post (sample 7 "42" "$stop"), .page [sample 7 "42" "$stop"]] := by
    refine ⟨asDocumented_sample (by decide) (by decide), ⟨by decide, by decide, by decide, ?_⟩,
      trivial⟩
    show ∀ other ∈ _, other ∉ _ → _
    decide
  refine (always_handedOnce_iff [42] [] _ hdocumented).mpr ⟨trivial, ?_, trivial⟩
  unfold Minds
  decide

/-- A new daemon stops the team again; and a message from someone without a number holds up all that
come with it. -/
theorem not_settled_restart :
    let stop := sample 7 "42" "$stop"
    let broken := sample 8 "nobody" "hello"
    let stopped : List DiscordEvent := [.post stop, .page [stop], .restart, .page [stop]]
    let held : List DiscordEvent := [.post broken, .post stop, .page [stop, broken]]
    (EachStep step AsDocumented (fresh [42] []) stopped ∧
        ¬ Always step Settled (fresh [42] []) stopped) ∧
      EachStep step AsDocumented (fresh [42] []) held ∧
        ¬ Always step Settled (fresh [42] []) held := by
  intro stop broken stopped held
  refine ⟨⟨⟨asDocumented_sample (by decide) (by decide), ⟨by decide, by decide, by decide, ?_⟩,
    trivial, ⟨by decide, by decide, by decide, ?_⟩, trivial⟩, fun h => ?_⟩,
    ⟨asDocumented_sample (by decide) (by decide), asDocumented_sample (by decide) (by decide),
      ⟨by decide, by decide, by decide, ?_⟩, trivial⟩, fun h => ?_⟩
  · show ∀ other ∈ _, other ∉ _ → _
    decide
  · show ∀ other ∈ _, other ∉ _ → _
    decide
  · exact absurd (h stopped List.prefix_rfl).1 (by decide)
  · show ∀ other ∈ _, other ∉ _ → _
    decide
  · have hall := (h held List.prefix_rfl).2 stop (by decide)
      { messageId := "7", channelId := "commands", fromUserId := 42, text := "$stop" } (by decide)
    exact absurd hall (by decide)

end CommandDaemon

end Batty
