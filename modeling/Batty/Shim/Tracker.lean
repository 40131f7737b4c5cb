import Batty.Foundation.Json
import Batty.Foundation.Streaming
import Batty.Shim.Pty
import Mathlib.Data.List.Induction

/-!
# Tailing a session log

Some agents keep a log of their session, a line of JSON for each event. The shim binds to the end
of the log and then reads, at each poll, what was appended since. A line without its end is left
for the next poll.

* `tailsWhole_iff`: when every line that ends after the binding is classified once, whatever the
  pieces in which the log grows. It has to be bound behind a whole line; a line that is not UTF-8
  is never passed; and neither may a piece that ends a line end within a character.

The log is the one that is found at the first poll, and it only grows. How a line is read as JSON
is a parameter.
-/

namespace Batty

/-! ### What a line says -/

/-- What a line of the session log says. -/
inductive TrackerVerdict where
  | working | idle | unknown
deriving DecidableEq

/-- An item of a message that decides what the message says. -/
def classifyItem (item : Json) : Option TrackerVerdict :=
  if (item.get? "tool_use_id").isSome then some .working
  else if (item.get? "type").bind Json.asStr = some "text" &&
      (item.get? "text").bind Json.asStr = some "[Request interrupted by user]" then some .idle
  else none

def classifyContent (content : Json) : TrackerVerdict :=
  match content.asStr with
  | some text => if text = "[Request interrupted by user]" then .idle else .working
  | none =>
    match content.asArray with
    | some items => (items.findSome? classifyItem).getD .working
    | none => .unknown

/-- What a line of Claude's log says. -/
def classifyClaudeEntry (entry : Json) : TrackerVerdict :=
  match (entry.get? "type").bind Json.asStr with
  | some "assistant" =>
    match ((entry.get? "message").bind (Json.get? "stop_reason")).bind Json.asStr with
    | some "tool_use" => .working
    | some "end_turn" => .idle
    | _ => .unknown
  | some "progress" => .working
  | some "user" =>
    if ((entry.get? "toolUseResult").bind Json.asObject).isSome then .working
    else
      match (entry.get? "message").bind (Json.get? "content") with
      | some content => classifyContent content
      | none => .unknown
  | _ => .unknown

/-- Any line that is JSON shows that the agent is active. -/
def classifyCodexEntry (entry : Json) : TrackerVerdict :=
  if (entry.get? "type").bind Json.asStr = some "event_msg" &&
      ((entry.get? "payload").bind (Json.get? "type")).bind Json.asStr = some "task_complete" then
    .idle
  else .working

def decodeUtf8 (bytes : List UInt8) : Option String := String.fromUTF8? ⟨bytes.toArray⟩

/-- A line that cannot be read says nothing. -/
def classifyLine (parseJson : String → Option Json) (agentType : AgentType) (line : List UInt8) :
    TrackerVerdict :=
  match (decodeUtf8 line).bind parseJson with
  | none => .unknown
  | some entry =>
    match agentType with
    | .claude => classifyClaudeEntry entry
    | .codex => classifyCodexEntry entry
    | _ => .unknown

/-- The last verdict that is not unknown, if there is one, else the one from before. -/
def overridden (verdict : TrackerVerdict) (verdicts : List TrackerVerdict) : TrackerVerdict :=
  verdicts.foldl (fun verdict new => if new ≠ .unknown then new else verdict) verdict

/-! ### Tailing -/

def isNewline (byte : UInt8) : Bool := byte = 10

/-- The lines up to the end of the file, `current` being the one that is read. A piece that is not
UTF-8 is an error, also where its end is missing; without that it is left alone. -/
def readLines (current : List UInt8) : List UInt8 → Option (List (List UInt8))
  | [] => if current.isEmpty || (decodeUtf8 current).isSome then some [] else none
  | byte :: bytes =>
    if isNewline byte then
      if (decodeUtf8 (current ++ [byte])).isSome then
        (readLines [] bytes).map ((current ++ [byte]) :: ·)
      else none
    else readLines (current ++ [byte]) bytes

/-- The lines that are read from the offset on, with the verdict that they come to and the offset
behind them. -/
def parseSessionTail (parseJson : String → Option Json) (agentType : AgentType)
    (file : List UInt8) (startOffset : Nat) : Option (List (List UInt8) × TrackerVerdict × Nat) :=
  let offset := if file.length < startOffset then 0 else startOffset
  (readLines [] (file.drop offset)).map fun lines =>
    (lines, overridden .unknown (lines.map (classifyLine parseJson agentType)),
      offset + lines.flatten.length)

/-- How far the log is read, and what its last telling line said. -/
structure SessionTracker where
  offset : Nat
  lastVerdict : TrackerVerdict
  /-- The lines that were classified, which the tracker does not keep. -/
  classified : List (List UInt8)

/-- The first poll binds at the end of the file. -/
def SessionTracker.bind (file : List UInt8) : SessionTracker where
  offset := file.length
  lastVerdict := .unknown
  classified := []

/-- A poll that fails leaves the tracker as it is. -/
def SessionTracker.poll (parseJson : String → Option Json) (agentType : AgentType)
    (file : List UInt8) (tracker : SessionTracker) : SessionTracker :=
  match parseSessionTail parseJson agentType file tracker.offset with
  | none => tracker
  | some (lines, verdict, offset) => {
      offset
      lastVerdict := if verdict ≠ .unknown then verdict else tracker.lastVerdict
      classified := tracker.classified ++ lines }

/-- A poll after each piece that is appended to the file. -/
def SessionTracker.pollAll (parseJson : String → Option Json) (agentType : AgentType)
    (tracker : SessionTracker) (file : List UInt8) : List (List UInt8) → SessionTracker
  | [] => tracker
  | chunk :: chunks =>
    (tracker.poll parseJson agentType (file ++ chunk)).pollAll parseJson agentType (file ++ chunk)
      chunks

/-! ### Whole lines -/

/-- The lines of the file that end behind its first `bound` bytes. -/
def linesEndedAfter (bound file : List UInt8) : List (List UInt8) :=
  (completeLines isNewline (bound ++ file)).drop (completeLines isNewline bound).length

/-- After the first `bound` bytes and then `file`, each line that ended since was classified once,
the offset is behind a whole line, and the verdict is the last one that a line gave. -/
structure TrackedWhole (parseJson : String → Option Json) (agentType : AgentType)
    (bound file : List UInt8) (tracker : SessionTracker) : Prop where
  once : tracker.classified = linesEndedAfter bound file
  boundary : tracker.offset ≤ (bound ++ file).length ∧
    ∀ byte ∈ ((bound ++ file).take tracker.offset).getLast?, isNewline byte = true
  verdict : tracker.lastVerdict = overridden .unknown
    ((linesEndedAfter bound file).map (classifyLine parseJson agentType))

/-- **Tailing.** The log is tracked whole after every poll. -/
def TailsWhole (parseJson : String → Option Json) (agentType : AgentType) (bound : List UInt8)
    (chunks : List (List UInt8)) : Prop :=
  ∀ before after, chunks = before ++ after →
    TrackedWhole parseJson agentType bound before.flatten
      ((SessionTracker.bind bound).pollAll parseJson agentType bound before)

/-- The tracker is bound behind a whole line, every line that ends is UTF-8, and a piece that ends
a line does not end within a character. -/
structure SplitsWell (bound : List UInt8) (chunks : List (List UInt8)) : Prop where
  bound : ∀ byte ∈ bound.getLast?, isNewline byte = true
  lines : ∀ line ∈ completeLines isNewline chunks.flatten, (decodeUtf8 line).isSome
  pieces : ∀ before chunk after, chunks = before ++ chunk :: after →
    (∀ byte ∈ chunk, isNewline byte = false) ∨
      fragment isNewline (before ++ [chunk]).flatten = [] ∨
        (decodeUtf8 (fragment isNewline (before ++ [chunk]).flatten)).isSome

section

variable {parseJson : String → Option Json} {agentType : AgentType}
  {bound s chunk : List UInt8} {chunks before after : List (List UInt8)} {tracker : SessionTracker}

/-! ### One poll -/

/-- A piece that the reader gets through: its lines and what is behind them are UTF-8. -/
def Readable (current s : List UInt8) : Prop :=
  (∀ line ∈ (cutFrom isNewline current s).1, (decodeUtf8 line).isSome) ∧
    ((cutFrom isNewline current s).2 = [] ∨ (decodeUtf8 (cutFrom isNewline current s).2).isSome)

theorem readLines_eq_some_iff {current : List UInt8} {lines : List (List UInt8)} :
    readLines current s = some lines ↔
      lines = (cutFrom isNewline current s).1 ∧ Readable current s := by
  induction s generalizing current lines with
  | nil =>
    simp only [readLines, Readable, cutFrom, List.not_mem_nil, false_implies, implies_true,
      true_and, Bool.or_eq_true, List.isEmpty_iff]
    split
    · rename_i hread
      exact ⟨fun h => ⟨(Option.some.inj h).symm, hread⟩, fun h => by rw [h.1]⟩
    · rename_i hread
      exact ⟨by rintro ⟨⟩, fun h => absurd h.2 hread⟩
  | cons byte s ih =>
    simp only [readLines, Readable, cutFrom]
    split
    · simp only [List.forall_mem_cons]
      split
      · rename_i hline
        rw [Option.map_eq_some_iff]
        simp only [ih, Readable, hline, true_and]
        constructor
        · rintro ⟨rest, ⟨rfl, hrest⟩, rfl⟩
          exact ⟨rfl, hrest⟩
        · rintro ⟨rfl, hrest⟩
          exact ⟨_, ⟨rfl, hrest⟩, rfl⟩
      · rename_i hline
        simp [hline]
    · exact ih

theorem overridden_eq (verdict : TrackerVerdict) (verdicts : List TrackerVerdict) :
    overridden verdict verdicts =
      if overridden .unknown verdicts ≠ .unknown then overridden .unknown verdicts
      else verdict := by
  induction verdicts using List.reverseRecOn with
  | nil => simp [overridden]
  | append_singleton verdicts new ih =>
    simp only [overridden, List.foldl_append, List.foldl_cons, List.foldl_nil] at ih ⊢
    by_cases hnew : new = .unknown
    · simp only [hnew, ne_eq, not_true_eq_false, if_false]
      exact ih
    · simp [hnew]

/-- The tracker is behind the complete lines of what was appended. -/
structure Synced (parseJson : String → Option Json) (agentType : AgentType)
    (bound s : List UInt8) (tracker : SessionTracker) : Prop where
  offset : tracker.offset = bound.length + (completeLines isNewline s).flatten.length
  classified : tracker.classified = completeLines isNewline s
  verdict : tracker.lastVerdict = overridden .unknown
    ((completeLines isNewline s).map (classifyLine parseJson agentType))

theorem synced_bind : Synced parseJson agentType bound [] (.bind bound) := ⟨rfl, rfl, rfl⟩

/-- The reader goes on with the fragment of a line that was left. -/
theorem Synced.parseSessionTail_eq (h : Synced parseJson agentType bound s tracker) :
    parseSessionTail parseJson agentType (bound ++ s ++ chunk) tracker.offset =
      (readLines [] (fragment isNewline s ++ chunk)).map fun lines =>
        (lines, overridden .unknown (lines.map (classifyLine parseJson agentType)),
          tracker.offset + lines.flatten.length) := by
  have hsplit := flatten_completeLines isNewline s
  have hfile : bound ++ s ++ chunk =
      (bound ++ (completeLines isNewline s).flatten) ++ (fragment isNewline s ++ chunk) := by
    conv_lhs => rw [← hsplit]
    simp only [List.append_assoc]
  have hoffset : tracker.offset = (bound ++ (completeLines isNewline s).flatten).length := by
    rw [h.offset, List.length_append]
  have hlong : ¬ (bound ++ s ++ chunk).length < tracker.offset := by
    rw [hfile, List.length_append, hoffset]
    omega
  rw [parseSessionTail, if_neg hlong, hfile, hoffset, List.drop_left]

/-- A poll that can read what was appended keeps up with it. -/
theorem Synced.poll (h : Synced parseJson agentType bound s tracker)
    (hread : Readable [] (fragment isNewline s ++ chunk)) :
    Synced parseJson agentType bound (s ++ chunk)
      (tracker.poll parseJson agentType (bound ++ s ++ chunk)) := by
  have hlines := readLines_eq_some_iff.mpr ⟨rfl, hread⟩
  have hwhole := @completeLines_append _ isNewline s chunk
  rw [SessionTracker.poll, h.parseSessionTail_eq, hlines]
  rw [← completeLines]
  generalize completeLines isNewline (fragment isNewline s ++ chunk) = lines at hwhole
  refine ⟨?_, ?_, ?_⟩
  · rw [hwhole, List.flatten_append, List.length_append, ← Nat.add_assoc, ← h.offset]
    rfl
  · rw [hwhole, ← h.classified]
    rfl
  · rw [hwhole, List.map_append, overridden, List.foldl_append, ← overridden, ← overridden,
      ← h.verdict, overridden_eq]
    rfl

theorem Synced.poll_fails (h : Synced parseJson agentType bound s tracker)
    (hread : ¬ Readable [] (fragment isNewline s ++ chunk)) :
    tracker.poll parseJson agentType (bound ++ s ++ chunk) = tracker := by
  have hnone : readLines [] (fragment isNewline s ++ chunk) = none := by
    by_contra hsome
    obtain ⟨lines, hlines⟩ := Option.ne_none_iff_exists'.mp hsome
    exact hread (readLines_eq_some_iff.mp hlines).2
  rw [SessionTracker.poll, h.parseSessionTail_eq, hnone]
  rfl

/-- A piece that ends no line changes nothing of the complete ones. -/
theorem Synced.append (h : Synced parseJson agentType bound s tracker)
    (hchunk : ∀ byte ∈ chunk, isNewline byte = false) :
    Synced parseJson agentType bound (s ++ chunk) tracker := by
  have hsame : completeLines isNewline (s ++ chunk) = completeLines isNewline s := by
    rw [completeLines_append, completeLines_fragment_append_eq_nil_iff.mpr hchunk, List.append_nil]
  refine ⟨?_, ?_, ?_⟩
  · rw [hsame, h.offset]
  · rw [hsame, h.classified]
  · rw [hsame, h.verdict]

/-! ### All polls -/

theorem pollAll_concat (tracker : SessionTracker) (file : List UInt8) :
    tracker.pollAll parseJson agentType file (before ++ [chunk]) =
      (tracker.pollAll parseJson agentType file before).poll parseJson agentType
        (file ++ before.flatten ++ chunk) := by
  induction before generalizing tracker file with
  | nil => simp [SessionTracker.pollAll]
  | cons first before ih =>
    rw [List.cons_append, SessionTracker.pollAll, ih, SessionTracker.pollAll, List.flatten_cons,
      List.append_assoc, List.append_assoc, List.append_assoc, List.append_assoc]

theorem linesEndedAfter_eq (hbound : ∀ byte ∈ bound.getLast?, isNewline byte = true)
    (s : List UInt8) : linesEndedAfter bound s = completeLines isNewline s := by
  rw [linesEndedAfter, completeLines_append, fragment_eq_nil_iff.mpr hbound, List.nil_append,
    List.drop_left]

theorem Synced.trackedWhole (h : Synced parseJson agentType bound s tracker)
    (hbound : ∀ byte ∈ bound.getLast?, isNewline byte = true) :
    TrackedWhole parseJson agentType bound s tracker := by
  have hlines := linesEndedAfter_eq hbound s
  have hsplit := flatten_completeLines isNewline s
  have hfile : bound ++ s =
      (bound ++ (completeLines isNewline s).flatten) ++ fragment isNewline s := by
    rw [List.append_assoc, hsplit]
  have hoffset : tracker.offset = (bound ++ (completeLines isNewline s).flatten).length := by
    rw [h.offset, List.length_append]
  refine ⟨h.classified.trans hlines.symm, ⟨?_, ?_⟩, by rw [h.verdict, hlines]⟩
  · rw [hfile, List.length_append, hoffset]
    omega
  · rw [hfile, hoffset, List.take_left, ← fragment_eq_nil_iff, fragment_append,
      fragment_eq_nil_iff.mpr hbound, List.nil_append, fragment_flatten_completeLines]

/-- The state of the run after a beginning of it that could be read. -/
theorem synced_of_splitsWell (h : SplitsWell bound chunks) (heq : chunks = before ++ after) :
    Synced parseJson agentType bound before.flatten
      ((SessionTracker.bind bound).pollAll parseJson agentType bound before) := by
  induction before using List.reverseRecOn generalizing after with
  | nil => exact synced_bind
  | append_singleton before chunk ih =>
    rw [List.append_assoc, List.singleton_append] at heq
    have hbefore := ih heq
    have hlines : ∀ line ∈ completeLines isNewline (fragment isNewline before.flatten ++ chunk),
        (decodeUtf8 line).isSome := by
      intro line hmem
      refine h.lines line ?_
      rw [heq, List.flatten_append, List.flatten_cons, ← List.append_assoc, completeLines_append,
        completeLines_append]
      exact List.mem_append_left _ (List.mem_append_right _ hmem)
    rw [pollAll_concat, List.flatten_concat]
    by_cases hread : Readable [] (fragment isNewline before.flatten ++ chunk)
    · exact hbefore.poll hread
    · rw [hbefore.poll_fails hread]
      refine hbefore.append ((h.pieces before chunk after heq).resolve_right fun hpiece => hread ?_)
      rw [List.flatten_concat, fragment_append] at hpiece
      exact ⟨hlines, hpiece⟩

theorem splitsWell_of_tailsWhole (h : TailsWhole parseJson agentType bound chunks) :
    SplitsWell bound chunks := by
  have hbound : ∀ byte ∈ bound.getLast?, isNewline byte = true := by
    have hstart := (h [] chunks rfl).boundary.2
    simpa [SessionTracker.pollAll, SessionTracker.bind] using hstart
  -- Every beginning keeps up, and what it read was UTF-8.
  have hall : ∀ before after, chunks = before ++ after →
      Synced parseJson agentType bound before.flatten
          ((SessionTracker.bind bound).pollAll parseJson agentType bound before) ∧
        (∀ line ∈ completeLines isNewline before.flatten, (decodeUtf8 line).isSome) ∧
        ∀ earlier chunk, before = earlier ++ [chunk] → (∀ byte ∈ chunk, isNewline byte = false) ∨
          fragment isNewline before.flatten = [] ∨
            (decodeUtf8 (fragment isNewline before.flatten)).isSome := by
    intro before
    induction before using List.reverseRecOn with
    | nil =>
      exact fun after _ => ⟨synced_bind, by simp [completeLines, cutFrom], by simp⟩
    | append_singleton before chunk ih =>
      intro after heq
      have hwhole := h _ _ heq
      rw [List.append_assoc, List.singleton_append] at heq
      obtain ⟨hsynced, hlines, -⟩ := ih _ heq
      rw [pollAll_concat, List.flatten_concat] at hwhole ⊢
      by_cases hread : Readable [] (fragment isNewline before.flatten ++ chunk)
      · refine ⟨hsynced.poll hread, ?_, fun earlier last _ => .inr ?_⟩
        · rw [completeLines_append]
          exact fun line hmem => (List.mem_append.mp hmem).elim (hlines line) (hread.1 line)
        · rw [fragment_append]
          exact hread.2
      · rw [hsynced.poll_fails hread] at hwhole ⊢
        -- A tracker that stays where it was has kept up only if no line has ended.
        have honce := hwhole.once
        rw [hsynced.classified, linesEndedAfter_eq hbound, completeLines_append,
          List.self_eq_append_right, completeLines_fragment_append_eq_nil_iff] at honce
        refine ⟨hsynced.append honce, ?_, fun earlier last hlast => .inl ?_⟩
        · rw [completeLines_append, completeLines_fragment_append_eq_nil_iff.mpr honce,
            List.append_nil]
          exact hlines
        · obtain rfl := List.singleton_inj.mp (List.append_inj' hlast rfl).2
          exact honce
  refine ⟨hbound, ?_, fun before chunk after heq => ?_⟩
  · exact (hall chunks [] (List.append_nil _).symm).2.1
  · exact (hall (before ++ [chunk]) after (by rw [heq]; simp)).2.2 before chunk rfl

/-- **Tailing** is whole exactly if the log is bound and split well. -/
theorem tailsWhole_iff (parseJson : String → Option Json) (agentType : AgentType)
    (bound : List UInt8) (chunks : List (List UInt8)) :
    TailsWhole parseJson agentType bound chunks ↔ SplitsWell bound chunks :=
  ⟨splitsWell_of_tailsWhole, fun h _ _ heq =>
    (synced_of_splitsWell h heq).trackedWhole h.bound⟩

end

/-- A line that is not UTF-8 is never passed. -/
theorem not_tailsWhole : ¬ ∀ (parseJson : String → Option Json) (agentType : AgentType)
    (bound : List UInt8) (chunks : List (List UInt8)),
    TailsWhole parseJson agentType bound chunks := by
  intro h
  have hlines := (splitsWell_of_tailsWhole (h (fun _ => none) .claude [] [[0xFF, 10]])).lines
  exact absurd (hlines [0xFF, 10] (by decide)) (by decide)

end Batty
