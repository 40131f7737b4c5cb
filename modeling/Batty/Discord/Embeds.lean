import Batty.Discord.Mirror
import Batty.Foundation.Bytes
import Batty.Foundation.Json
import Batty.Foundation.Substrings
import Batty.Foundation.Text
import Mathlib.Data.List.TakeWhile

/-!
# Texts for Discord

What is posted to Discord must keep to its limits, which count characters. Every title, text and
field is cut before it is posted: counted in characters, and cut at a number of bytes. Where a
character of several bytes stands in front of the cut, less of the text is left than there is room
for, and where one stands across it, the step ends there.

* `truncatesWell_iff`: which texts are cut to their first characters.
* `fitsDiscord_iff`: the same, and which embeds, messages and events are posted at all.
-/

namespace Batty

namespace Embeds

open Text

def maxEmbedTitleLen : Nat := 256

def maxEmbedDescriptionLen : Nat := 4000

def maxEmbedFieldNameLen : Nat := 256

def maxEmbedFieldValueLen : Nat := 1024

def maxEmbedFooterLen : Nat := 2048

def maxEmbedAuthorNameLen : Nat := 256

def maxEmbedFields : Nat := 25

def maxContentLen : Nat := 2000

/-! ### Cutting -/

/-- Cutting a text off at a byte; nothing in the middle of a character. -/
def truncate (newLen : Nat) (output : List Char) : Option (List Char) :=
  if byteLength output < newLen then some output else (splitAtByte newLen output).map Prod.fst

def truncateForDiscord (input : List Char) (limit : Nat) : Option (List Char) :=
  let output := input.take limit
  if input.length > limit && limit > 3 then
    (truncate (limit - 3) output).map (· ++ "...".toList)
  else some output

/-! ### Embeds -/

/-- A field of an embed. -/
structure EmbedField where
  name : List Char
  value : List Char
  inlined : Bool

def EmbedField.new (name value : List Char) : EmbedField := { name, value, inlined := false }

def EmbedField.inline (name value : List Char) : EmbedField := { name, value, inlined := true }

/-- An embed, with the fields that Discord limits. -/
structure RichEmbed where
  title : List Char
  description : Option (List Char) := none
  color : Nat
  url : Option (List Char) := none
  authorName : Option (List Char) := none
  authorIconUrl : Option (List Char) := none
  authorUrl : Option (List Char) := none
  footer : Option (List Char) := none
  footerIconUrl : Option (List Char) := none
  timestamp : Option (List Char) := none
  thumbnailUrl : Option (List Char) := none
  fields : List EmbedField := []

def jsonText (text : List Char) : Json := .string (String.ofList text)

/-- A key of an object, if there is a text for it. -/
def jsonEntry (key : String) (text : Option (List Char)) : List (String × Json) :=
  text.toList.map fun text => (key, jsonText text)

namespace EmbedField

def toJson (field : EmbedField) : Option Json := do
  let name ← truncateForDiscord field.name maxEmbedFieldNameLen
  let value ← truncateForDiscord field.value maxEmbedFieldValueLen
  return .object [("name", jsonText name), ("value", jsonText value), ("inline", .bool field.inlined)]

end EmbedField

namespace RichEmbed

def pushField (embed : RichEmbed) (field : EmbedField) : RichEmbed :=
  if embed.fields.length < maxEmbedFields then { embed with fields := embed.fields ++ [field] }
  else embed

def toJson (embed : RichEmbed) : Option Json := do
  let title ← truncateForDiscord embed.title maxEmbedTitleLen
  let description ← embed.description.mapM (truncateForDiscord · maxEmbedDescriptionLen)
  let author ← embed.authorName.mapM fun authorName => do
    let name ← truncateForDiscord authorName maxEmbedAuthorNameLen
    return Json.object ([("name", jsonText name)] ++ jsonEntry "icon_url" embed.authorIconUrl ++
      jsonEntry "url" embed.authorUrl)
  let footer ← embed.footer.mapM fun footer => do
    let text ← truncateForDiscord footer maxEmbedFooterLen
    return Json.object ([("text", jsonText text)] ++ jsonEntry "icon_url" embed.footerIconUrl)
  let fields ← (embed.fields.take maxEmbedFields).mapM EmbedField.toJson
  return .object
    ([("title", jsonText title), ("color", .integer embed.color)] ++
      jsonEntry "description" description ++ jsonEntry "url" embed.url ++
      (author.toList.map fun author => ("author", author)) ++
      (footer.toList.map fun footer => ("footer", footer)) ++
      jsonEntry "timestamp" embed.timestamp ++
      (embed.thumbnailUrl.toList.map fun thumbnail =>
        ("thumbnail", .object [("url", jsonText thumbnail)])) ++
      if embed.fields.isEmpty then [] else [("fields", .array fields)])

end RichEmbed

/-! ### Sending -/

/-- What Discord answers: the id of the message, or why it was not taken. -/
abbrev Post := String → Json → Except String String

def allowedMentions : Json := .object [("parse", .array [])]

def sendPlainMessage (post : Post) (channelId : String) (text : List Char) :
    Option (Except String Unit) := do
  let content ← truncateForDiscord text maxContentLen
  let body := Json.object [("content", jsonText content), ("allowed_mentions", allowedMentions)]
  return (post channelId body).map fun _ => ()

def sendRichEmbed (post : Post) (channelId : String) (embed : RichEmbed) :
    Option (Except String Unit) := do
  let json ← embed.toJson
  let body := Json.object [("embeds", .array [json]), ("allowed_mentions", allowedMentions)]
  return (post channelId body).map fun _ => ()

/-! ### The embed of an event -/

/-- An event with what its embed shows. -/
structure TeamEvent extends LoggedEvent where
  role : Option (List Char) := none
  task : Option (List Char) := none
  recipient : Option (List Char) := none
  fromRole : Option (List Char) := none
  toRole : Option (List Char) := none
  restart : Option Bool := none
  reason : Option (List Char) := none
  step : Option (List Char) := none
  error : Option (List Char) := none
  details : Option (List Char) := none
  uptimeSecs : Option Nat := none
  backend : Option (List Char) := none
  mergeMode : Option (List Char) := none
  ts : Nat

/-- How bad an event is, which decides on its color. -/
inductive Severity where
  | success | info | warn | error | critical | neutral
deriving DecidableEq

def Severity.color : Severity → Nat
  | success => 0x57F287
  | info => 0x5865F2
  | warn => 0xFEE75C
  | error => 0xED4245
  | critical => 0x992D22
  | neutral => 0x99AAB5

def severityForEvent (event : String) : Severity :=
  if ["merge_success", "task_auto_merged", "task_manual_merged", "verification_evidence_collected",
      "daemon_started", "agent_spawned", "auto_doctor_action"].contains event then .success
  else if ["task_assigned", "task_claim_created", "verification_phase_changed", "standup_posted",
      "merge_confidence_scored"].contains event then .info
  else if ["task_stale", "dispatch_overlap_skipped", "pattern_detected", "narration_rejection",
      "review_aging"].contains event then .warn
  else if ["task_escalated", "stall_detected", "context_exhausted", "verification_failed",
      "merge_conflict", "merge_failed", "pane_death", "scope_fence_violation"].contains event then
    .error
  else if ["backend_quota_exhausted", "daemon_stopped", "loop_step_error", "shim_crash"].contains
      event then .critical
  else .neutral

def leadingDigits (input : List Char) : Option (List Char) :=
  let digits := input.takeWhile Char.isDigit
  if digits.isEmpty then none else some digits

/-- What follows a first word that is written with a capital letter or without. -/
def afterTask (line : List Char) : Option (List Char) :=
  if "Task ".toList.isPrefixOf line || "task ".toList.isPrefixOf line then some (line.drop 5)
  else none

def firstLine (raw : List Char) : Option (List Char) :=
  ((lines raw).head?.map trim).filter fun line => !line.isEmpty

def extractTaskId (raw : List Char) : Option (List Char) := do
  let line ← firstLine raw
  match splitOnce ['#'] line with
  | some (_, rest) => leadingDigits rest
  | none =>
    match afterTask line with
    | some rest => leadingDigits (trimStartMatches isWhitespace rest)
    | none => leadingDigits line

def taskSubject (raw : List Char) : Option (List Char) := do
  let line ← firstLine raw
  let named := (afterTask line).bind fun rest =>
    ((splitOnce [':'] rest).map fun found => trim found.2).filter fun subject => !subject.isEmpty
  let numbered :=
    if (leadingDigits line).isSome || line.head? = some '#' then
      ((lines raw)[1]?.map trim).filter fun line => !line.isEmpty
    else none
  return (named.or numbered).getD line

/-- Cutting that counts and cuts in characters. -/
def truncatePlain (input : List Char) (limit : Nat) : List Char :=
  if input.length ≤ limit then input else input.take (limit - 1) ++ ['…']

def taskBodyPreview (event : TeamEvent) : Option (List Char) := do
  let task ← event.task
  let (_, body) ← splitOnce ['\n'] task
  if (trim body).isEmpty then none else some (truncatePlain (trim body) 900)

def eventActionLabel (event : String) : List Char :=
  match event with
  | "task_assigned" => "📌 Task Assigned".toList
  | "task_claim_created" => "✋ Task Claimed".toList
  | "task_escalated" => "🚨 Task Escalated".toList
  | "task_stale" => "⏰ Task Stale".toList
  | "task_auto_merged" | "task_manual_merged" | "merge_success" => "✅ Task Merged".toList
  | "verification_phase_changed" => "🔍 Verification".toList
  | "verification_evidence_collected" => "🧪 Tests Passed".toList
  | "verification_failed" => "❌ Verification Failed".toList
  | "agent_spawned" => "🚀 Agent Started".toList
  | "daemon_started" => "🟢 Batty Started".toList
  | "daemon_stopped" => "🔴 Batty Stopped".toList
  | "stall_detected" => "🐌 Agent Stalled".toList
  | "context_exhausted" => "🧠 Context Exhausted".toList
  | "narration_rejection" => "🚫 Narration Rejected".toList
  | "backend_quota_exhausted" => "💳 Quota Exhausted".toList
  | "auto_doctor_action" => "🩺 Auto-Doctor".toList
  | "pattern_detected" => "📊 Pattern Detected".toList
  | "dispatch_overlap_skipped" => "⏸️ Dispatch Skipped".toList
  | "scope_fence_violation" => "⛔ Scope Violation".toList
  | "shim_crash" | "pane_death" => "💥 Agent Crashed".toList
  | other => other.toList.map fun c => if c = '_' then ' ' else c

def eventTitle (event : TeamEvent) : List Char :=
  match event.task.bind extractTaskId with
  | some taskId => eventActionLabel event.event ++ " — #".toList ++ taskId
  | none => eventActionLabel event.event

def eventActorLabel (event : TeamEvent) : List Char :=
  (event.toRole.or (event.role.or event.fromRole)).getD "system".toList

/-- The actor in bold, and what is told of it. -/
def actorSentence (event : TeamEvent) (rest : List Char) : List Char :=
  "**".toList ++ eventActorLabel event ++ "**".toList ++ rest

def eventSummaryLine (event : TeamEvent) : Option (List Char) :=
  match event.event with
  | "task_assigned" =>
    let title := ((event.task.bind taskSubject).filter fun s => !s.isEmpty).getD "new task".toList
    some (actorSentence event
      (" picked up **".toList ++ truncatePlain title 120 ++ "**.".toList))
  | "task_escalated" =>
    some ("Escalated by ".toList ++ actorSentence event
      (" — ".toList ++ event.reason.getD "no reason given".toList ++ ['.']))
  | "task_stale" =>
    some (actorSentence event
      (" is stuck — ".toList ++ event.reason.getD "no progress detected".toList ++ ['.']))
  | "agent_spawned" => some (actorSentence event " is online and ready for work.".toList)
  | "daemon_started" =>
    let uptime := (event.uptimeSecs.map fun s =>
      " (uptime ".toList ++ Nat.toDigits 10 s ++ "s)".toList).getD []
    some ("Team is running".toList ++ uptime ++ ['.'])
  | "daemon_stopped" => some "Team session ended.".toList
  | "stall_detected" =>
    some (actorSentence event
      (" appears stuck — ".toList ++ event.reason.getD "unresponsive".toList ++ ['.']))
  | "context_exhausted" =>
    some (actorSentence event " hit the context limit. Restarting with handoff.".toList)
  | "narration_rejection" =>
    some (actorSentence event " tried to narrate instead of code. Retrying.".toList)
  | "backend_quota_exhausted" =>
    some (actorSentence event (" hit backend quota. Agent paused — ".toList ++
      event.reason.getD "credits exhausted".toList ++ ['.']))
  | "pattern_detected" =>
    some (truncatePlain
      ((event.details.or event.reason).getD "rolling-window threshold tripped".toList) 240)
  | "task_auto_merged" | "task_manual_merged" | "merge_success" =>
    some (actorSentence event " landed the change on main.".toList)
  | "verification_phase_changed" =>
    some ("Phase → **".toList ++ event.step.getD "state change".toList ++ "**.".toList)
  | "verification_evidence_collected" =>
    some ((event.details.or event.reason).getD "Tests passed.".toList)
  | "dispatch_overlap_skipped" =>
    some ("Skipped — conflicts with ".toList ++
      event.reason.getD "another in-flight task".toList ++ ['.'])
  | "auto_doctor_action" => event.details
  | _ => none

/-- A field for a text, if there is one. -/
def fieldOf (make : List Char → EmbedField) (text : Option (List Char)) : List EmbedField :=
  text.toList.map make

def taskField (event : TeamEvent) : List EmbedField :=
  fieldOf (fun taskId => .inline "Task".toList ('#' :: taskId)) (event.task.bind extractTaskId)

def inlineField (name : String) (text : Option (List Char)) : List EmbedField :=
  fieldOf (.inline name.toList) text

def longField (name : String) (text : Option (List Char)) : List EmbedField :=
  fieldOf (.new name.toList) text

def quotedField (name quote : String) (text : Option (List Char)) : List EmbedField :=
  fieldOf (fun text => .new name.toList (quote.toList ++ text)) text

def eventFields (event : TeamEvent) : List EmbedField :=
  match event.event with
  | "task_assigned" =>
    taskField event ++ inlineField "Engineer" (event.toRole.or (event.recipient.or event.role)) ++
      inlineField "Assigned By" event.fromRole ++ longField "Task Body" (taskBodyPreview event)
  | "task_escalated" =>
    taskField event ++ inlineField "From" event.fromRole ++ inlineField "To" event.toRole ++
      quotedField "Reason" "> " event.reason
  | "verification_phase_changed" =>
    taskField event ++ inlineField "Engineer" event.role ++ inlineField "Phase" event.step
  | "agent_spawned" | "daemon_started" | "daemon_stopped" =>
    inlineField "Backend" event.backend ++
      inlineField "Restart" (event.restart.map fun restart =>
        if restart then "yes".toList else "no".toList) ++
      inlineField "Uptime" (event.uptimeSecs.map fun uptime => Nat.toDigits 10 uptime ++ ['s'])
  | "stall_detected" | "context_exhausted" | "narration_rejection" =>
    inlineField "Agent" event.role ++ taskField event ++ quotedField "Details" "> " event.reason
  | "pattern_detected" =>
    longField "Pattern" (event.reason.or event.details) ++ inlineField "Agent" event.role ++
      taskField event
  | "backend_quota_exhausted" =>
    inlineField "Agent" event.role ++ inlineField "Backend" event.backend ++
      quotedField "Reason" "> " event.reason
  | "task_auto_merged" | "task_manual_merged" | "merge_success" =>
    taskField event ++ inlineField "Engineer" event.role ++ inlineField "Mode" event.mergeMode
  | "auto_doctor_action" =>
    taskField event ++ inlineField "Target" event.role ++ longField "Action" event.details
  | _ =>
    taskField event ++ inlineField "Member" event.role ++ quotedField "Reason" "> " event.reason ++
      quotedField "Error" "⚠️ " event.error

def roleAuthorLabel (role : List Char) : List Char :=
  let lower := toAsciiLowercase role
  let names (word : String) : Bool := decide (word.toList <:+: lower)
  if names "architect" then "🏗️ ".toList ++ role
  else if names "manager" then "📋 ".toList ++ role
  else if names "design" then "🎨 ".toList ++ role
  else if "eng".toList.isPrefixOf lower || names "engineer" then "🔧 ".toList ++ role
  else if names "human" || names "user" then "👤 ".toList ++ role
  else if names "daemon" || names "system" || lower = "batty".toList then "⚙️ ".toList ++ role
  else role

def eventAuthorLabel (event : TeamEvent) : Option (List Char) :=
  (event.role.or (event.fromRole.or event.toRole)).map roleAuthorLabel

def packageVersion : List Char := "0.11.63".toList

def eventFooter (event : TeamEvent) (severity : Severity) : List Char :=
  let tag := match severity with
    | .success => "SUCCESS"
    | .info => "INFO"
    | .warn => "WARN"
    | .error => "ERROR"
    | .critical => "CRIT"
    | .neutral => "INFO"
  "batty v".toList ++ packageVersion ++ " · ".toList ++ tag.toList ++ " · ".toList ++
    event.event.toList

/-- `rfc3339` writes a number of seconds as a date and a time. -/
def buildEventEmbed (rfc3339 : Nat → List Char) (event : TeamEvent) : RichEmbed :=
  let severity := severityForEvent event.event
  let embed : RichEmbed :=
    { title := eventTitle event
      description := eventSummaryLine event
      color := severity.color
      authorName := eventAuthorLabel event
      timestamp := some (rfc3339 event.ts) }
  let embed := (eventFields event).foldl RichEmbed.pushField embed
  { embed with footer := some (eventFooter event severity) }

/-! ### Mirroring events -/

/-- What a cycle finds: whether there is a bot, the channels, the log and the place in it. -/
structure MirrorView where
  bot : Bool
  config : Option ChannelConfig
  events : Except String (List TeamEvent)
  cursor : Nat
  rfc3339 : Nat → List Char

/-- Nothing if the step ends in the middle of it. -/
def sendDiscordEvent (view : MirrorView) (post : Post) (event : TeamEvent) :
    Option (Except String Unit) :=
  match view.config with
  | none => some (.ok ())
  | some config =>
    if isNoiseEvent event.toLoggedEvent then some (.ok ())
    else
      match config.eventChannelId event.toLoggedEvent with
      | none => some (.ok ())
      | some channelId => sendRichEmbed post channelId (buildEventEmbed view.rfc3339 event)

/-- The loop over the events that are ahead, of which `sent` are done with; `post` is what comes of
each sending. -/
def mirrorLoop (view : MirrorView) (post : Nat → Post) : Nat → List TeamEvent → Option Nat
  | sent, [] => some sent
  | sent, event :: events =>
    if sent ≥ 5 then some sent
    else if isTelemetryOnlyEvent event.toLoggedEvent then mirrorLoop view post (sent + 1) events
    else
      match sendDiscordEvent view (post sent) event with
      | none => none
      | some (.error _) => some sent
      | some (.ok _) => mirrorLoop view post (sent + 1) events

def MirrorView.cursorNow (view : MirrorView) (events : List TeamEvent) : Nat :=
  if events.length < view.cursor then 0 else view.cursor

/-- The place in the log afterwards; a log that cannot be read ends the cycle with an error. -/
def syncDiscordEvents (view : MirrorView) (post : Nat → Post) : Option (Except String Nat) :=
  if !view.bot then some (.ok view.cursor)
  else
    match view.events with
    | .error error => some (.error error)
    | .ok events =>
      if view.cursorNow events ≥ events.length then some (.ok (view.cursorNow events))
      else
        (mirrorLoop view post 0 (events.drop (view.cursorNow events))).map fun sent =>
          .ok (view.cursorNow events + sent)

/-! ### What the limits are for -/

/-- The text if it has no more characters than the limit, or else its first ones and three dots. -/
def shortened (limit : Nat) (text : List Char) : List Char :=
  if text.length ≤ limit then text else text.take (limit - 3) ++ "...".toList

/-- The text comes back so. -/
def TruncatesWell (limit : Nat) (text : List Char) : Prop :=
  truncateForDiscord text limit = some (shortened limit text)

/-- The text fits, or all that may be left of it are characters of one byte each. -/
def OneByteFront (limit : Nat) (text : List Char) : Prop :=
  text.length ≤ limit ∨ ∀ c ∈ text.take (limit - 3), c.utf8Size = 1

/-- The text fits, or the byte at which it is cut lies between two of its characters. -/
def CutBetween (limit : Nat) (text : List Char) : Prop :=
  text.length ≤ limit ∨ ∃ before, before <+: text ∧ byteLength before = limit - 3

/-- The texts of an embed that are cut, each with its limit. -/
def RichEmbed.texts (embed : RichEmbed) : List (Nat × List Char) :=
  [(maxEmbedTitleLen, embed.title)] ++
    (embed.description.toList.map fun text => (maxEmbedDescriptionLen, text)) ++
    (embed.authorName.toList.map fun text => (maxEmbedAuthorNameLen, text)) ++
    (embed.footer.toList.map fun text => (maxEmbedFooterLen, text)) ++
    ((embed.fields.take maxEmbedFields).flatMap fun field =>
      [(maxEmbedFieldNameLen, field.name), (maxEmbedFieldValueLen, field.value)])

def RichEmbed.CutBetween (embed : RichEmbed) : Prop :=
  ∀ text ∈ embed.texts, Embeds.CutBetween text.1 text.2

/-- The event is one that is posted. -/
def MirrorView.Posts (view : MirrorView) (event : TeamEvent) : Prop :=
  isTelemetryOnlyEvent event.toLoggedEvent = false ∧ isNoiseEvent event.toLoggedEvent = false ∧
    ∃ config ∈ view.config, (config.eventChannelId event.toLoggedEvent).isSome

/-- The events that a cycle may come to. -/
def MirrorView.batch (view : MirrorView) : List TeamEvent :=
  match view.events with
  | .error _ => []
  | .ok events => if view.bot then (events.drop (view.cursorNow events)).take 5 else []

section

variable {limit newLen sent : Nat} {text before : List Char} {embed : RichEmbed} {view : MirrorView}
  {event : TeamEvent} {events : List TeamEvent} {post : Nat → Post} {channelId : String}

/-! ### Texts -/

theorem truncateForDiscord_of_fits (h : text.length ≤ limit) :
    truncateForDiscord text limit = some text := by
  have hlong : ¬ (decide (text.length > limit) && decide (limit > 3)) = true := by
    simp [Nat.not_lt.mpr h]
  simp only [truncateForDiscord, if_neg hlong, List.take_of_length_le h]

/-- A text that is too long has enough bytes to be cut. -/
theorem truncateForDiscord_of_long (hlimit : 3 < limit) (h : limit < text.length) :
    truncateForDiscord text limit =
      ((splitAtByte (limit - 3) (text.take limit)).map Prod.fst).map (· ++ "...".toList) := by
  have hlong : (decide (text.length > limit) && decide (limit > 3)) = true := by simp [h, hlimit]
  have hbytes := length_le_byteLength (text.take limit)
  rw [List.length_take] at hbytes
  simp only [truncateForDiscord, if_pos hlong]
  rw [truncate, if_neg (by omega)]

theorem splitAtByte_isSome_iff :
    (splitAtByte newLen text).isSome ↔ ∃ before, before <+: text ∧ byteLength before = newLen := by
  constructor
  · intro h
    obtain ⟨⟨before, after⟩, hcut⟩ := Option.isSome_iff_exists.mp h
    obtain ⟨htext, hbytes⟩ := splitAtByte_eq_some_iff.mp hcut
    exact ⟨before, ⟨after, htext.symm⟩, hbytes⟩
  · rintro ⟨before, ⟨after, htext⟩, hbytes⟩
    rw [splitAtByte_eq_some_iff.mpr ⟨htext.symm, hbytes⟩]
    rfl

/-- Whatever ends at the cut lies within the limit. -/
theorem isPrefix_take_iff (hbytes : byteLength before = limit - 3) :
    before <+: text.take limit ↔ before <+: text := by
  have hlength := length_le_byteLength before
  rw [List.prefix_take_iff]
  exact ⟨fun h => h.1, fun h => ⟨h, by omega⟩⟩

theorem truncateForDiscord_isSome_iff (hlimit : 3 < limit) :
    (truncateForDiscord text limit).isSome ↔ CutBetween limit text := by
  rw [CutBetween]
  by_cases hfits : text.length ≤ limit
  · rw [truncateForDiscord_of_fits hfits]
    exact iff_of_true rfl (.inl hfits)
  · rw [truncateForDiscord_of_long hlimit (Nat.not_le.mp hfits), Option.isSome_map,
      Option.isSome_map, splitAtByte_isSome_iff, or_iff_right hfits]
    exact exists_congr fun before => and_congr_left isPrefix_take_iff

/-- **A text is cut well** exactly if it fits or begins with enough characters of one byte. -/
theorem truncatesWell_iff (hlimit : 3 < limit) :
    TruncatesWell limit text ↔ OneByteFront limit text := by
  rw [TruncatesWell, OneByteFront, shortened]
  by_cases hfits : text.length ≤ limit
  · rw [truncateForDiscord_of_fits hfits, if_pos hfits]
    exact iff_of_true rfl (.inl hfits)
  · have hlong := Nat.not_le.mp hfits
    have hlength : (text.take (limit - 3)).length = limit - 3 := by
      rw [List.length_take]
      omega
    have hfront : text.take (limit - 3) <+: text.take limit :=
      List.take_prefix_take_left (Nat.sub_le limit 3)
    rw [truncateForDiscord_of_long hlimit hlong, if_neg hfits, or_iff_right hfits,
      ← byteLength_eq_length_iff, hlength]
    constructor
    · intro h
      obtain ⟨cut, hcut, heq⟩ := Option.map_eq_some_iff.mp h
      obtain ⟨⟨before, after⟩, hsplit, rfl⟩ := Option.map_eq_some_iff.mp hcut
      rw [← List.append_cancel_right heq]
      exact (splitAtByte_eq_some_iff.mp hsplit).2
    · intro hbytes
      obtain ⟨after, hafter⟩ := hfront
      rw [splitAtByte_eq_some_iff.mpr ⟨hafter.symm, hbytes⟩]
      rfl

/-! ### Embeds and messages -/

theorem mapM_isSome_iff {α β : Type} {f : α → Option β} {xs : List α} :
    (xs.mapM f).isSome ↔ ∀ x ∈ xs, (f x).isSome := by
  induction xs with
  | nil => simp
  | cons x xs ih => cases hx : f x <;> cases hxs : xs.mapM f <;> simp_all

theorem option_mapM_isSome_iff {α β : Type} {f : α → Option β} {x : Option α} :
    (x.mapM f).isSome ↔ ∀ a ∈ x, (f a).isSome := by
  cases x with
  | none => simp
  | some a => cases ha : f a <;> simp [ha]

theorem bind_isSome_iff {α β : Type} {x : Option α} {f : α → Option β} {p : Prop}
    (h : ∀ a, (f a).isSome ↔ p) : (x >>= f).isSome ↔ x.isSome ∧ p := by
  cases x with
  | none => simp
  | some a => simpa using h a

theorem EmbedField.toJson_isSome_iff {field : EmbedField} : field.toJson.isSome ↔
    CutBetween maxEmbedFieldNameLen field.name ∧ CutBetween maxEmbedFieldValueLen field.value := by
  rw [← truncateForDiscord_isSome_iff (by decide), ← truncateForDiscord_isSome_iff (by decide),
    EmbedField.toJson]
  cases truncateForDiscord field.name maxEmbedFieldNameLen <;>
    cases truncateForDiscord field.value maxEmbedFieldValueLen <;> simp

/-- **An embed is made** exactly if each of its texts fits or is cut between two characters. -/
theorem RichEmbed.toJson_isSome_iff : embed.toJson.isSome ↔ embed.CutBetween := by
  have hauthor : ∀ name, (do
      let name ← truncateForDiscord name maxEmbedAuthorNameLen
      return Json.object ([("name", jsonText name)] ++ jsonEntry "icon_url" embed.authorIconUrl ++
        jsonEntry "url" embed.authorUrl)).isSome ↔ Embeds.CutBetween maxEmbedAuthorNameLen name := by
    intro name
    rw [bind_isSome_iff (p := True) fun _ => by simp, and_true,
      truncateForDiscord_isSome_iff (by decide)]
  have hfooter : ∀ text, (do
      let text ← truncateForDiscord text maxEmbedFooterLen
      return Json.object ([("text", jsonText text)] ++
        jsonEntry "icon_url" embed.footerIconUrl)).isSome ↔
          Embeds.CutBetween maxEmbedFooterLen text := by
    intro text
    rw [bind_isSome_iff (p := True) fun _ => by simp, and_true,
      truncateForDiscord_isSome_iff (by decide)]
  have htoJson : embed.toJson.isSome ↔
      Embeds.CutBetween maxEmbedTitleLen embed.title ∧
        (∀ text ∈ embed.description, Embeds.CutBetween maxEmbedDescriptionLen text) ∧
        (∀ name ∈ embed.authorName, Embeds.CutBetween maxEmbedAuthorNameLen name) ∧
        (∀ text ∈ embed.footer, Embeds.CutBetween maxEmbedFooterLen text) ∧
        ∀ field ∈ embed.fields.take maxEmbedFields,
          Embeds.CutBetween maxEmbedFieldNameLen field.name ∧
            Embeds.CutBetween maxEmbedFieldValueLen field.value := by
    rw [RichEmbed.toJson, bind_isSome_iff fun _ => bind_isSome_iff fun _ => bind_isSome_iff fun _ =>
      bind_isSome_iff fun _ => bind_isSome_iff (p := True) fun _ => by simp, and_true,
      truncateForDiscord_isSome_iff (by decide), option_mapM_isSome_iff, option_mapM_isSome_iff,
      option_mapM_isSome_iff, mapM_isSome_iff]
    simp only [hauthor, hfooter, EmbedField.toJson_isSome_iff,
      truncateForDiscord_isSome_iff (show 3 < maxEmbedDescriptionLen by decide)]
  rw [htoJson, RichEmbed.CutBetween, RichEmbed.texts]
  simp only [List.mem_append, List.mem_map, Option.mem_toList, List.mem_flatMap, List.mem_cons,
    List.not_mem_nil, or_false, Option.mem_def]
  constructor
  · rintro ⟨htitle, hdescription, hname, htext, hfields⟩ text
      ((((rfl | ⟨text, hmem, rfl⟩) | ⟨text, hmem, rfl⟩) | ⟨text, hmem, rfl⟩) |
        ⟨field, hmem, rfl | rfl⟩)
    · exact htitle
    · exact hdescription text hmem
    · exact hname text hmem
    · exact htext text hmem
    · exact (hfields field hmem).1
    · exact (hfields field hmem).2
  · exact fun h =>
      ⟨h (maxEmbedTitleLen, embed.title) (.inl (.inl (.inl (.inl rfl)))),
        fun text hmem => h (_, text) (.inl (.inl (.inl (.inr ⟨text, hmem, rfl⟩)))),
        fun text hmem => h (_, text) (.inl (.inl (.inr ⟨text, hmem, rfl⟩))),
        fun text hmem => h (_, text) (.inl (.inr ⟨text, hmem, rfl⟩)),
        fun field hmem =>
          ⟨h (_, field.name) (.inr ⟨field, hmem, .inl rfl⟩),
            h (_, field.value) (.inr ⟨field, hmem, .inr rfl⟩)⟩⟩

theorem sendRichEmbed_isSome_iff {post : Post} :
    (sendRichEmbed post channelId embed).isSome ↔ embed.CutBetween := by
  rw [sendRichEmbed, bind_isSome_iff (p := True) fun _ => by simp, and_true,
    RichEmbed.toJson_isSome_iff]

theorem sendPlainMessage_isSome_iff {post : Post} :
    (sendPlainMessage post channelId text).isSome ↔ CutBetween maxContentLen text := by
  rw [sendPlainMessage, bind_isSome_iff (p := True) fun _ => by simp, and_true,
    truncateForDiscord_isSome_iff (by decide)]

/-! ### Events -/

/-- The embeds of the events that are posted. -/
def MirrorView.CutBetween (view : MirrorView) (event : TeamEvent) : Prop :=
  view.Posts event → (buildEventEmbed view.rfc3339 event).CutBetween

theorem sendDiscordEvent_isSome_iff {post : Post}
    (htelemetry : isTelemetryOnlyEvent event.toLoggedEvent = false) :
    (sendDiscordEvent view post event).isSome ↔ view.CutBetween event := by
  rw [MirrorView.CutBetween, MirrorView.Posts, sendDiscordEvent]
  cases hconfig : view.config with
  | none => simp
  | some config =>
    cases hnoise : isNoiseEvent event.toLoggedEvent with
    | true => simp
    | false =>
      cases hchannel : config.eventChannelId event.toLoggedEvent with
      | none => simp [hchannel]
      | some channelId => simp [hchannel, htelemetry, sendRichEmbed_isSome_iff]

theorem sendDiscordEvent_ne_error {post : Post} {error : String}
    (hpost : ∀ channelId body, (post channelId body).isOk = true) :
    sendDiscordEvent view post event ≠ some (.error error) := by
  intro h
  unfold sendDiscordEvent at h
  split at h
  · cases h
  · split at h
    · cases h
    · split at h
      · cases h
      · rename_i channelId _
        obtain ⟨json, -, hsent⟩ := Option.bind_eq_some_iff.mp h
        have hok := hpost channelId
          (.object [("embeds", .array [json]), ("allowed_mentions", allowedMentions)])
        cases hanswer : post channelId
            (.object [("embeds", .array [json]), ("allowed_mentions", allowedMentions)]) with
        | ok messageId => simp [hanswer, Except.map] at hsent
        | error error =>
          rw [hanswer] at hok
          cases hok

theorem mirrorLoop_isSome_of (h : ∀ event ∈ events.take (5 - sent), view.CutBetween event) :
    (mirrorLoop view post sent events).isSome := by
  induction events generalizing sent with
  | nil => rfl
  | cons event events ih =>
    rw [mirrorLoop]
    by_cases hsent : sent ≥ 5
    · rw [if_pos hsent]
      rfl
    · have htake : 5 - sent = (5 - (sent + 1)) + 1 := by omega
      rw [htake, List.take_succ_cons, List.forall_mem_cons] at h
      rw [if_neg hsent]
      split
      · exact ih h.2
      · rename_i htelemetry
        have hsome : (sendDiscordEvent view (post sent) event).isSome :=
          (sendDiscordEvent_isSome_iff (by simpa using htelemetry)).mpr h.1
        split
        · rename_i hnone
          rw [hnone] at hsome
          cases hsome
        · rfl
        · exact ih h.2

/-- If nothing goes wrong in between, the loop comes to the whole batch. -/
theorem forall_of_mirrorLoop (hpost : ∀ n channelId body, (post n channelId body).isOk = true)
    (h : (mirrorLoop view post sent events).isSome) :
    ∀ event ∈ events.take (5 - sent), view.CutBetween event := by
  induction events generalizing sent with
  | nil => simp
  | cons event events ih =>
    by_cases hsent : sent ≥ 5
    · rw [Nat.sub_eq_zero_of_le hsent]
      simp
    · have htake : 5 - sent = (5 - (sent + 1)) + 1 := by omega
      rw [mirrorLoop, if_neg hsent] at h
      rw [htake, List.take_succ_cons, List.forall_mem_cons]
      cases htelemetry : isTelemetryOnlyEvent event.toLoggedEvent with
      | true =>
        rw [htelemetry, if_pos rfl] at h
        refine ⟨fun hposts => ?_, ih h⟩
        rw [hposts.1] at htelemetry
        cases htelemetry
      | false =>
        rw [htelemetry, if_neg Bool.false_ne_true] at h
        cases hsend : sendDiscordEvent view (post sent) event with
        | none =>
          rw [hsend] at h
          cases h
        | some outcome =>
          have hsome : (sendDiscordEvent view (post sent) event).isSome := by
            rw [hsend]
            rfl
          have hcut := (sendDiscordEvent_isSome_iff htelemetry).mp hsome
          cases outcome with
          | ok _ =>
            rw [hsend] at h
            exact ⟨hcut, ih h⟩
          | error error => exact absurd hsend (sendDiscordEvent_ne_error (hpost sent))

theorem syncDiscordEvents_isSome_iff (view : MirrorView) :
    (∀ post, (syncDiscordEvents view post).isSome) ↔ ∀ event ∈ view.batch, view.CutBetween event := by
  unfold syncDiscordEvents MirrorView.batch
  cases view.bot with
  | false => cases view.events <;> simp
  | true =>
    cases view.events with
    | error error => simp
    | ok events =>
      by_cases hdone : view.cursorNow events ≥ events.length
      · simp [hdone, List.drop_of_length_le hdone]
      · simp only [hdone, if_false, if_true, Bool.not_true, Bool.false_eq_true, Option.isSome_map]
        rw [← Nat.sub_zero 5]
        exact ⟨fun h => forall_of_mirrorLoop (fun _ _ _ => rfl) (h fun _ _ _ => .ok ""),
          fun h _ => mirrorLoop_isSome_of h⟩

/-! ### The limits -/

/-- Any text is cut well, and nothing that is posted ends its step, whatever it says. -/
def FitsDiscord : Prop :=
  (∀ limit text, 3 < limit → TruncatesWell limit text) ∧
    (∀ embed : RichEmbed, embed.toJson.isSome) ∧
    (∀ post channelId text, (sendPlainMessage post channelId text).isSome) ∧
    ∀ view post, (syncDiscordEvents view post).isSome

/-- **What fits Discord**: the texts that fit or begin with characters of one byte, the embeds and
messages whose texts fit or are cut between two characters, and the logs in which all that a cycle
may post is such an embed. -/
theorem fitsDiscord_iff (limit : Nat) (text : List Char) (embed : RichEmbed)
    (post : Post) (channelId : String) (view : MirrorView) :
    (3 < limit → (TruncatesWell limit text ↔ OneByteFront limit text)) ∧
      (embed.toJson.isSome ↔ embed.CutBetween) ∧
      ((sendPlainMessage post channelId text).isSome ↔ CutBetween maxContentLen text) ∧
      ((∀ post, (syncDiscordEvents view post).isSome) ↔
        ∀ event ∈ view.batch, view.CutBetween event) :=
  ⟨truncatesWell_iff, RichEmbed.toJson_isSome_iff, sendPlainMessage_isSome_iff,
    syncDiscordEvents_isSome_iff view⟩

end

/-- The second character of the text lies across the cut. -/
theorem not_fitsDiscord : ¬ FitsDiscord := by
  rintro ⟨hcut, -⟩
  have hpanics : truncateForDiscord "aäbcde".toList 5 = none := by decide
  have hwell := hcut 5 "aäbcde".toList (by decide)
  rw [TruncatesWell, hpanics] at hwell
  cases hwell

end Embeds

end Batty
