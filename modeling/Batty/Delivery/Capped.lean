import Batty.Config.Hierarchy
import Batty.Delivery.Classify

/-!
# The capped queue

Messages for a member that is not ready wait in a queue. Of one stream, which is what a sender has
to say about one task in one category of low urgency, no more than two messages wait: the next one
collapses them into a digest, which says how many messages it stands for and holds the last of them.

The digest is a message like any other to the call that comes next. It counts as one message when
it is collapsed again, and its own words may put it into another stream. `truthfulThroughout_iff`
says that these are the only ways in which the queue goes wrong.
-/

namespace Batty

open Text

/-- A message that waits until its recipient is ready. -/
structure DeferredMessage where
  sender : String
  body : String
  messageId : Option String
  queuedAt : Nat

/-! ### Streams -/

/-- The sender, the category and the task. -/
abbrev Stream := String × MessageCategory × Nat

def firstTaskId (body : List Char) : Option Nat :=
  (extractTaskIdsFromBody body).head? <|> (extractTaskId body).bind parseU32

/-- The stream of a message, if it is of a category that is collapsed and names a task. -/
def pendingStream (sender body : String) : Option Stream :=
  if sender = "human" then none
  else
    match classifyBody (normalizedBody body) with
    | .nudge => (firstTaskId body.toList).map (sender, .nudge, ·)
    | .reminder => (firstTaskId body.toList).map (sender, .reminder, ·)
    | .status => (firstTaskId body.toList).map (sender, .status, ·)
    | .acknowledgement => (firstTaskId body.toList).map (sender, .acknowledgement, ·)
    | _ => none

/-- The name of a category as it is printed for debugging. -/
def MessageCategory.debugName : MessageCategory → List Char
  | .escalation => "Escalation".toList
  | .blocker => "Blocker".toList
  | .reviewRequest => "ReviewRequest".toList
  | .dispatchAction => "DispatchAction".toList
  | .completionAction => "CompletionAction".toList
  | .status => "Status".toList
  | .nudge => "Nudge".toList
  | .reminder => "Reminder".toList
  | .acknowledgement => "Acknowledgement".toList

def streamKey (stream : Stream) : List Char :=
  ((stream.1.toList ++ ':' :: stream.2.1.debugName) ++ ':' :: "task".toList) ++
    ':' :: Nat.toDigits 10 stream.2.2

def pendingDigestKey (sender body : String) : Option (List Char) :=
  (pendingStream sender body).map streamKey

def DeferredMessage.stream (message : DeferredMessage) : Option Stream :=
  pendingStream message.sender message.body

def DeferredMessage.key (message : DeferredMessage) : Option (List Char) :=
  pendingDigestKey message.sender message.body

/-- The key of a stream says which stream it is. -/
theorem streamKey_inj {stream stream' : Stream} (h : streamKey stream = streamKey stream') :
    stream = stream' := by
  have hdigits (id : Nat) : ':' ∉ Nat.toDigits 10 id := fun hmem =>
    absurd (Nat.isDigit_of_mem_toDigits (by decide) (by decide) hmem) (by decide)
  have hname (category : MessageCategory) : ':' ∉ category.debugName := by
    cases category <;> decide
  -- The last colon stands before the task, and the one before the second last after the sender.
  obtain ⟨hfront, hid⟩ := append_cons_inj_of_not_mem (hdigits _) (hdigits _) h
  obtain ⟨hfront, -⟩ := append_cons_inj_of_not_mem (by decide) (by decide) hfront
  obtain ⟨hsender, hcategory⟩ := append_cons_inj_of_not_mem (hname _) (hname _) hfront
  refine Prod.ext (String.toList_inj.mp hsender) (Prod.ext ?_ (Config.toDigits_inj hid))
  revert hcategory
  cases stream.2.1 <;> cases stream'.2.1 <;> decide

/-- A message that is of the stream has its key, and no other message has. -/
theorem key_eq_iff {message : DeferredMessage} {stream : Stream} :
    message.key = some (streamKey stream) ↔ message.stream = some stream := by
  rw [DeferredMessage.key, pendingDigestKey, Option.map_eq_some_iff]
  constructor
  · rintro ⟨stream', hstream, hkey⟩
    rwa [← streamKey_inj hkey]
  · exact fun hstream => ⟨stream, hstream, rfl⟩

/-! ### The queue -/

def sameTaskPendingCap : Nat := 2

def digestBody (count : Nat) (recipient body : String) : String :=
  "[task-current digest] collapsed " ++ toString count ++
    (" stale same-task pending messages for " ++ recipient ++ "; latest follows:\n" ++ body)

/-- The message in which others of its stream are collapsed. -/
def DeferredMessage.digest (count : Nat) (recipient : String) (latest : DeferredMessage) :
    DeferredMessage :=
  { latest with body := digestBody count recipient latest.body }

/-- Put a message at the end of the queue; where its stream is full, one digest replaces it. -/
def queuePendingMessageCapped (recipient : String) (queue : List DeferredMessage)
    (pending : DeferredMessage) : List DeferredMessage :=
  match pending.key with
  | none => queue ++ [pending]
  | some key =>
    let matching := queue.filter (DeferredMessage.key · = some key)
    if sameTaskPendingCap ≤ matching.length then
      queue.filter (DeferredMessage.key · ≠ some key) ++
        [pending.digest (matching.length + 1) recipient]
    else queue ++ [pending]

/-- What becomes of the queue of a recipient. -/
inductive CapStep where
  | call (pending : DeferredMessage)
  | drain
  | expire (now maxAge : Nat)

def stillWaits (now maxAge : Nat) (message : DeferredMessage) : Bool :=
  maxAge = 0 || now - message.queuedAt < maxAge

def CapStep.run (recipient : String) (queue : List DeferredMessage) :
    CapStep → List DeferredMessage
  | .call pending => queuePendingMessageCapped recipient queue pending
  | .drain => []
  | .expire now maxAge => queue.filter (stillWaits now maxAge)

/-! ### What the messages stand for -/

/-- A queued message with the messages it stands for, which are those that were given to the
queue. -/
structure QueueEntry where
  message : DeferredMessage
  originals : List DeferredMessage

namespace QueueEntry

/-- The stream of what the entry stands for. -/
def stream (entry : QueueEntry) : Option Stream := entry.originals.getLast?.bind (·.stream)

def isDigest (entry : QueueEntry) : Bool := 1 < entry.originals.length

def single (message : DeferredMessage) : QueueEntry := ⟨message, [message]⟩

/-- The call, with what the digest stands for. -/
def queueCapped (recipient : String) (queue : List QueueEntry) (pending : DeferredMessage) :
    List QueueEntry :=
  match pending.key with
  | none => queue ++ [single pending]
  | some key =>
    let matching := queue.filter fun entry => entry.message.key = some key
    if sameTaskPendingCap ≤ matching.length then
      (queue.filter fun entry => entry.message.key ≠ some key) ++
        [⟨pending.digest (matching.length + 1) recipient,
          matching.flatMap originals ++ [pending]⟩]
    else queue ++ [single pending]

def after (recipient : String) (queue : List QueueEntry) : CapStep → List QueueEntry
  | .call pending => queueCapped recipient queue pending
  | .drain => []
  | .expire now maxAge => queue.filter fun entry => stillWaits now maxAge entry.message

end QueueEntry

open QueueEntry

/-! ### What is promised -/

/-- The entry says what it stands for: one message, or so many of one stream, the last of which it
holds. -/
def QueueEntry.Tells (recipient : String) (entry : QueueEntry) : Prop :=
  ∃ earlier latest, entry.originals = earlier ++ [latest] ∧
    (∀ original ∈ entry.originals, original.stream = latest.stream) ∧
    entry.message = if earlier = [] then latest
      else latest.digest (earlier.length + 1) recipient

def ofStream (stream : Option Stream) (queue : List QueueEntry) : List QueueEntry :=
  queue.filter (QueueEntry.stream · = stream)

/-- Every entry of the queue says what it stands for, and none of the streams exceeds its cap. -/
structure Truthful (recipient : String) (queue : List QueueEntry) : Prop where
  tells : ∀ entry ∈ queue, entry.Tells recipient
  capped : ∀ stream : Stream, (ofStream (some stream) queue).length ≤ sameTaskPendingCap

/-- A call leaves what is of another stream as it is, and adds its message to what the entries of
its own stream stand for. -/
structure AddsTo (pending : DeferredMessage) (queue queue' : List QueueEntry) : Prop where
  others : queue'.filter (QueueEntry.stream · ≠ pending.stream) =
    queue.filter (QueueEntry.stream · ≠ pending.stream)
  own : (ofStream pending.stream queue').flatMap originals =
    (ofStream pending.stream queue).flatMap originals ++ [pending]

def CapStep.Adds (queue queue' : List QueueEntry) : CapStep → Prop
  | .call pending => AddsTo pending queue queue'
  | _ => True

/-- After each step the queue is capped and tells the truth, and each call adds its message. -/
def TruthfulThroughout (recipient : String) : List QueueEntry → List CapStep → Prop
  | _, [] => True
  | queue, step :: steps =>
    (Truthful recipient (after recipient queue step) ∧
      step.Adds queue (after recipient queue step)) ∧
    TruthfulThroughout recipient (after recipient queue step) steps

/-! ### When it holds -/

/-- The call does not find a digest and another message of its stream, and collapses no digest. -/
def CallsInTime (queue : List QueueEntry) (pending : DeferredMessage) : Prop :=
  ∀ stream, pending.stream = some stream →
    let matching := queue.filter fun entry => entry.message.key = some (streamKey stream)
    (2 ≤ (ofStream (some stream) queue).length →
      ∀ entry ∈ ofStream (some stream) queue, entry.isDigest = false) ∧
    (sameTaskPendingCap ≤ matching.length → ∀ entry ∈ matching, entry.isDigest = false)

def CapStep.InTime (queue : List QueueEntry) : CapStep → Prop
  | .call pending => CallsInTime queue pending
  | _ => True

def InTimeThroughout (recipient : String) : List QueueEntry → List CapStep → Prop
  | _, [] => True
  | queue, step :: steps =>
    step.InTime queue ∧ InTimeThroughout recipient (after recipient queue step) steps

/-- **Erasure.** Without the messages that its entries stand for, the queue is what the calls
make of it. -/
theorem map_message_after (recipient : String) (queue : List QueueEntry) (step : CapStep) :
    (after recipient queue step).map message = step.run recipient (queue.map message) := by
  cases step with
  | call pending =>
    have hfilter (key : Option (List Char)) : (queue.map message).filter (·.key = key) =
        (queue.filter fun entry => entry.message.key = key).map message := List.filter_map
    simp only [after, queueCapped, CapStep.run, queuePendingMessageCapped]
    split
    · simp [single]
    · simp only [hfilter, List.length_map]
      split
      · simp [List.filter_map, Function.comp_def]
      · simp [single]
  | drain => rfl
  | expire now maxAge => simp [after, CapStep.run, List.filter_map, Function.comp_def]

/-! ### One call -/

theorem digestBody_inj {count count' : Nat} {recipient body : String}
    (h : digestBody count recipient body = digestBody count' recipient body) : count = count' := by
  have hbetween {front back : String}
      (heq : front ++ toString count ++ back = front ++ toString count' ++ back) :
      count = count' := by
    have hlist := congrArg String.toList heq
    simp only [String.toList_append] at hlist
    have hdigits := List.append_cancel_left (List.append_cancel_right hlist)
    rw [Nat.toString_eq_repr, Nat.toString_eq_repr, Nat.toList_repr, Nat.toList_repr] at hdigits
    exact Config.toDigits_inj hdigits
  exact hbetween h

theorem length_le_length_flatMap {α β : Type} {f : α → List β} {entries : List α}
    (hsome : ∀ a ∈ entries, f a ≠ []) : entries.length ≤ (entries.flatMap f).length := by
  induction entries with
  | nil => simp
  | cons a entries ih =>
    obtain ⟨hfirst, hrest⟩ := List.forall_mem_cons.mp hsome
    have hpos := List.length_pos_of_ne_nil hfirst
    have hle := ih hrest
    rw [List.flatMap_cons, List.length_append, List.length_cons]
    omega

/-- If as many entries stand for as many messages, each stands for one. -/
theorem length_eq_one_of_flatMap {α β : Type} {f : α → List β} {entries : List α}
    (hsome : ∀ a ∈ entries, f a ≠ []) (hlength : (entries.flatMap f).length ≤ entries.length) :
    ∀ a ∈ entries, (f a).length = 1 := by
  induction entries with
  | nil => simp
  | cons a entries ih =>
    obtain ⟨hfirst, hrest⟩ := List.forall_mem_cons.mp hsome
    have hpos := List.length_pos_of_ne_nil hfirst
    have hle := length_le_length_flatMap hrest
    rw [List.flatMap_cons, List.length_append, List.length_cons] at hlength
    exact List.forall_mem_cons.mpr ⟨by omega, ih hrest (by omega)⟩

section

variable {recipient : String} {queue : List QueueEntry} {pending : DeferredMessage}
  {entry : QueueEntry} {stream : Stream}

theorem QueueEntry.Tells.ne_nil (h : entry.Tells recipient) : entry.originals ≠ [] := by
  obtain ⟨earlier, latest, heq, -, -⟩ := h
  simp [heq]

/-- An entry that is no digest is the message that it stands for. -/
theorem QueueEntry.Tells.originals_eq (h : entry.Tells recipient)
    (hplain : entry.isDigest = false) : entry.originals = [entry.message] := by
  obtain ⟨earlier, latest, heq, -, hmessage⟩ := h
  have hnone : earlier = [] := by
    rw [isDigest, heq, List.length_append, List.length_singleton, decide_eq_false_iff_not] at hplain
    exact List.length_eq_zero_iff.mp (by omega)
  rw [if_pos hnone] at hmessage
  rw [heq, hnone, hmessage, List.nil_append]

theorem QueueEntry.Tells.key_iff (h : entry.Tells recipient) (hplain : entry.isDigest = false) :
    entry.message.key = some (streamKey stream) ↔ entry.stream = some stream := by
  rw [key_eq_iff, QueueEntry.stream, h.originals_eq hplain]
  rfl

theorem tells_single (recipient : String) (pending : DeferredMessage) :
    (single pending).Tells recipient :=
  ⟨[], pending, rfl, by simp [single], rfl⟩

theorem addsTo_push (queue : List QueueEntry) (pending : DeferredMessage) :
    AddsTo pending queue (queue ++ [single pending]) where
  others := by
    rw [List.filter_append]
    simp [QueueEntry.stream, single]
  own := by
    rw [ofStream, List.filter_append, List.flatMap_append]
    simp [ofStream, QueueEntry.stream, single]

/-- A message may be queued if its stream has room. -/
theorem truthful_push_iff (h : Truthful recipient queue) :
    Truthful recipient (queue ++ [single pending]) ↔ ∀ stream, pending.stream = some stream →
      (ofStream (some stream) queue).length < sameTaskPendingCap := by
  have hlength (stream : Stream) : (ofStream (some stream) (queue ++ [single pending])).length =
      (ofStream (some stream) queue).length + if pending.stream = some stream then 1 else 0 := by
    rw [ofStream, List.filter_append, List.length_append, ← ofStream]
    congr 1
    split_ifs with hstream <;> simp [QueueEntry.stream, single, hstream]
  constructor
  · intro htruthful stream hstream
    have hcapped := htruthful.capped stream
    rw [hlength, if_pos hstream] at hcapped
    exact hcapped
  · intro hroom
    refine ⟨fun entry hmem => ?_, fun stream => ?_⟩
    · rcases List.mem_append.mp hmem with hmem | hmem
      · exact h.tells entry hmem
      · rw [List.mem_singleton.mp hmem]
        exact tells_single recipient pending
    · rw [hlength]
      split_ifs with hstream
      · exact hroom stream hstream
      · exact h.capped stream

theorem queueCapped_of_room
    (h : ∀ stream, pending.stream = some stream → (queue.filter fun entry =>
      entry.message.key = some (streamKey stream)).length < sameTaskPendingCap) :
    queueCapped recipient queue pending = queue ++ [single pending] := by
  rw [queueCapped, DeferredMessage.key, pendingDigestKey, ← DeferredMessage.stream]
  cases hstream : pending.stream with
  | none => rfl
  | some stream => exact if_neg (Nat.not_le_of_lt (h stream hstream))

theorem queueCapped_of_full (hstream : pending.stream = some stream)
    (h : sameTaskPendingCap ≤ (queue.filter fun entry =>
      entry.message.key = some (streamKey stream)).length) :
    queueCapped recipient queue pending =
      (queue.filter fun entry => entry.message.key ≠ some (streamKey stream)) ++
        [⟨pending.digest ((queue.filter fun entry =>
            entry.message.key = some (streamKey stream)).length + 1) recipient,
          (queue.filter fun entry => entry.message.key = some (streamKey stream)).flatMap
            originals ++ [pending]⟩] := by
  rw [queueCapped, key_eq_iff.mpr hstream]
  exact if_pos h

/-- The digest tells the truth only if it collapses no other. -/
theorem plain_of_tells {matching : List QueueEntry} (hsome : matching ≠ [])
    (htells : ∀ entry ∈ matching, entry.Tells recipient)
    (h : QueueEntry.Tells recipient ⟨pending.digest (matching.length + 1) recipient,
      matching.flatMap originals ++ [pending]⟩) :
    ∀ entry ∈ matching, entry.isDigest = false := by
  obtain ⟨earlier, latest, heq, -, hmessage⟩ := h
  obtain ⟨rfl, hlatest⟩ := List.append_inj' heq rfl
  obtain rfl := List.singleton_inj.mp hlatest
  have hne : matching.flatMap originals ≠ [] := by
    obtain ⟨first, hfirst⟩ := List.exists_mem_of_ne_nil _ hsome
    rw [Ne, List.flatMap_eq_nil_iff, not_forall]
    exact ⟨first, fun hnone => (htells first hfirst).ne_nil (hnone hfirst)⟩
  rw [if_neg hne] at hmessage
  have hcount := Nat.succ.inj (digestBody_inj (congrArg DeferredMessage.body hmessage))
  intro entry hmem
  have hone := length_eq_one_of_flatMap (fun entry hmem => (htells entry hmem).ne_nil) hcount.ge
    entry hmem
  rw [isDigest, hone]
  rfl

/-- The digest of the messages of a stream, none of which is a digest, tells the truth. -/
theorem tells_digest {matching : List QueueEntry} (hsome : matching ≠ [])
    (hplain : ∀ entry ∈ matching, entry.originals = [entry.message] ∧
      entry.message.stream = pending.stream) :
    QueueEntry.Tells recipient ⟨pending.digest (matching.length + 1) recipient,
      matching.flatMap originals ++ [pending]⟩ := by
  have horiginals : matching.flatMap originals = matching.map message := by
    rw [List.map_eq_flatMap]
    exact List.flatMap_congr fun entry hmem => (hplain entry hmem).1
  refine ⟨matching.flatMap originals, pending, rfl, fun original hmem => ?_, ?_⟩
  · rcases List.mem_append.mp hmem with hmem | hmem
    · rw [horiginals] at hmem
      obtain ⟨entry, hentry, rfl⟩ := List.mem_map.mp hmem
      exact (hplain entry hentry).2
    · rw [List.mem_singleton.mp hmem]
  · rw [horiginals, if_neg (by simpa using hsome), List.length_map]

theorem filter_sublist_filter {α : Type} {p q : α → Bool} {entries : List α}
    (h : ∀ a ∈ entries, p a = true → q a = true) :
    (entries.filter p).Sublist (entries.filter q) := by
  have hboth : entries.filter p = (entries.filter q).filter p := by
    rw [List.filter_filter]
    refine List.filter_congr fun a hmem => ?_
    cases hp : p a with
    | false => rfl
    | true => rw [h a hmem hp]; rfl
  rw [hboth]
  exact List.filter_sublist

/-- What a call collapses, if none of it is a digest, is all that waits of its stream. -/
theorem matching_eq_ofStream (h : Truthful recipient queue)
    (hfull : sameTaskPendingCap ≤
      (queue.filter fun entry => entry.message.key = some (streamKey stream)).length)
    (hplain : ∀ entry ∈ queue.filter fun entry => entry.message.key = some (streamKey stream),
      entry.isDigest = false) :
    (queue.filter fun entry => entry.message.key = some (streamKey stream)) =
      ofStream (some stream) queue := by
  refine List.Sublist.eq_of_length_le ?_ ((h.capped stream).trans hfull)
  refine filter_sublist_filter fun entry hmem hkey => ?_
  have hentry := hplain entry (List.mem_filter.mpr ⟨hmem, hkey⟩)
  simpa using ((h.tells entry hmem).key_iff hentry).mp (by simpa using hkey)

/-- What is not in the matching messages is what is not of the stream. -/
theorem filter_key_ne_eq (hown : (queue.filter fun entry =>
      entry.message.key = some (streamKey stream)) = ofStream (some stream) queue) :
    (queue.filter fun entry => entry.message.key ≠ some (streamKey stream)) =
      queue.filter (QueueEntry.stream · ≠ some stream) := by
  refine List.filter_congr fun entry hmem => ?_
  have hiff : entry ∈ (queue.filter fun entry => entry.message.key = some (streamKey stream)) ↔
      entry ∈ ofStream (some stream) queue := by
    rw [hown]
  rw [List.mem_filter, ofStream, List.mem_filter] at hiff
  simpa [hmem] using hiff

theorem ofStream_filter_ne_self :
    ofStream (some stream) (queue.filter (QueueEntry.stream · ≠ some stream)) = [] := by
  rw [ofStream, List.filter_filter, List.filter_eq_nil_iff]
  simp

/-- All that waits of a stream is collapsed into one digest. -/
theorem collapse_of_plain (h : Truthful recipient queue) (hstream : pending.stream = some stream)
    (hsome : (queue.filter fun entry => entry.message.key = some (streamKey stream)) ≠ [])
    (hplain : ∀ entry ∈ queue.filter fun entry => entry.message.key = some (streamKey stream),
      entry.isDigest = false)
    (hown : (queue.filter fun entry => entry.message.key = some (streamKey stream)) =
      ofStream (some stream) queue) :
    let matching := queue.filter fun entry => entry.message.key = some (streamKey stream)
    let queue' := (queue.filter fun entry => entry.message.key ≠ some (streamKey stream)) ++
      [⟨pending.digest (matching.length + 1) recipient, matching.flatMap originals ++ [pending]⟩]
    Truthful recipient queue' ∧ AddsTo pending queue queue' := by
  intro matching queue'
  have hkept := filter_key_ne_eq hown
  have hnew : QueueEntry.stream ⟨pending.digest (matching.length + 1) recipient,
      matching.flatMap originals ++ [pending]⟩ = some stream := by
    simp [QueueEntry.stream, hstream]
  refine ⟨⟨fun entry hmem => ?_, fun stream' => ?_⟩, ?_, ?_⟩
  · rcases List.mem_append.mp hmem with hmem | hmem
    · exact h.tells entry (List.mem_of_mem_filter hmem)
    · -- The digest counts plain messages of its own stream, each for itself.
      rw [List.mem_singleton.mp hmem]
      refine tells_digest hsome fun entry hmem => ?_
      have hkey := (List.mem_filter.mp hmem).2
      refine ⟨(h.tells entry (List.mem_of_mem_filter hmem)).originals_eq (hplain entry hmem), ?_⟩
      rw [hstream]
      exact key_eq_iff.mp (by simpa using hkey)
  · by_cases hsame : stream' = stream
    · -- Of the stream itself nothing is left but the digest.
      rw [ofStream, List.filter_append, hkept, ← ofStream, hsame, ofStream_filter_ne_self,
        List.nil_append]
      exact (List.length_filter_le _ _).trans (Nat.le_succ 1)
    · rw [ofStream, List.filter_append, hkept, List.filter_filter,
        List.filter_cons_of_neg (by simp [hnew, Ne.symm hsame]), List.filter_nil,
        List.append_nil]
      refine le_trans (List.Sublist.length_le ?_) (h.capped stream')
      refine filter_sublist_filter fun entry _ hboth => ?_
      exact (Bool.and_eq_true_iff.mp hboth).1
  · rw [List.filter_append, hkept, hstream, List.filter_filter,
      List.filter_cons_of_neg (by simp [hnew]), List.filter_nil, List.append_nil]
    exact List.filter_congr fun entry _ => Bool.and_self _
  · rw [hstream, ← hown, ofStream, List.filter_append, hkept, ← ofStream, ofStream_filter_ne_self,
      List.nil_append, List.filter_cons_of_pos (by simp [hnew]), List.filter_nil,
      List.flatMap_singleton]

/-- **A call** keeps the queue truthful if and only if it comes in time. -/
theorem call_iff (h : Truthful recipient queue) :
    (Truthful recipient (queueCapped recipient queue pending) ∧
      AddsTo pending queue (queueCapped recipient queue pending)) ↔ CallsInTime queue pending := by
  cases hstream : pending.stream with
  | none =>
    have hnone (stream : Stream) : pending.stream ≠ some stream := by simp [hstream]
    rw [queueCapped_of_room fun stream hsome => absurd hsome (hnone stream), truthful_push_iff h]
    exact iff_of_true ⟨fun stream hsome => absurd hsome (hnone stream), addsTo_push _ _⟩
      fun stream hsome => absurd hsome (hnone stream)
  | some stream =>
    have honly {stream' : Stream} (hsome : pending.stream = some stream') : stream' = stream :=
      Option.some_inj.mp (hsome.symm.trans hstream)
    rcases Nat.lt_or_ge (queue.filter fun entry =>
      entry.message.key = some (streamKey stream)).length sameTaskPendingCap with hroom | hfull
    · rw [queueCapped_of_room fun stream' hsome => honly hsome ▸ hroom, truthful_push_iff h]
      constructor
      · rintro ⟨hfew, -⟩ stream' hsome
        obtain rfl := honly hsome
        exact ⟨fun hmany => absurd (hfew _ hsome) (Nat.not_lt_of_le hmany),
          fun hmany => absurd hroom (Nat.not_lt_of_le hmany)⟩
      · refine fun hcalls => ⟨fun stream' hsome => ?_, addsTo_push _ _⟩
        obtain rfl := honly hsome
        by_contra hmany
        have hplain := (hcalls _ hsome).1 (Nat.le_of_not_lt hmany)
        -- Two messages of the stream would have been found.
        have hsub : (ofStream (some stream') queue).Sublist
            (queue.filter fun entry => entry.message.key = some (streamKey stream')) := by
          refine filter_sublist_filter fun entry hmem hown => ?_
          have hentry := hplain entry (List.mem_filter.mpr ⟨hmem, hown⟩)
          simpa using ((h.tells entry hmem).key_iff hentry).mpr (by simpa using hown)
        exact hmany (hsub.length_le.trans_lt hroom)
    · have hsome : (queue.filter fun entry =>
          entry.message.key = some (streamKey stream)) ≠ [] :=
        List.ne_nil_of_length_pos (Nat.lt_of_lt_of_le (by decide) hfull)
      rw [queueCapped_of_full hstream hfull]
      constructor
      · rintro ⟨htruthful, -⟩ stream' hsome'
        obtain rfl := honly hsome'
        have hplain := plain_of_tells hsome
          (fun entry hmem => h.tells entry (List.mem_of_mem_filter hmem))
          (htruthful.tells _ (List.mem_append_right _ (List.mem_singleton_self _)))
        rw [← matching_eq_ofStream h hfull hplain]
        exact ⟨fun _ => hplain, fun _ => hplain⟩
      · intro hcalls
        have hplain := (hcalls stream hstream).2 hfull
        have hown := matching_eq_ofStream h hfull hplain
        exact collapse_of_plain h hstream hsome hplain hown

theorem truthful_filter (h : Truthful recipient queue) (p : QueueEntry → Bool) :
    Truthful recipient (queue.filter p) where
  tells entry hmem := h.tells entry (List.mem_of_mem_filter hmem)
  capped stream := by
    have hsub : (ofStream (some stream) (queue.filter p)).Sublist (ofStream (some stream) queue) :=
      List.filter_sublist.filter _
    exact hsub.length_le.trans (h.capped stream)

theorem truthful_nil (recipient : String) : Truthful recipient [] :=
  ⟨fun _ hmem => absurd hmem List.not_mem_nil, fun _ => Nat.zero_le _⟩

/-- One step. -/
theorem step_iff (h : Truthful recipient queue) (step : CapStep) :
    (Truthful recipient (after recipient queue step) ∧
      step.Adds queue (after recipient queue step)) ↔ step.InTime queue := by
  cases step with
  | call pending => exact call_iff h
  | drain => exact iff_of_true ⟨truthful_nil recipient, trivial⟩ trivial
  | expire now maxAge => exact iff_of_true ⟨truthful_filter h _, trivial⟩ trivial

/-- A run. -/
theorem throughout_iff (h : Truthful recipient queue) (steps : List CapStep) :
    TruthfulThroughout recipient queue steps ↔ InTimeThroughout recipient queue steps := by
  induction steps generalizing queue with
  | nil => exact Iff.rfl
  | cons step steps ih =>
    rw [TruthfulThroughout, InTimeThroughout, step_iff h step]
    refine and_congr_right fun hintime => ih ?_
    exact ((step_iff h step).mpr hintime).1

/-- **The queue stays capped and tells the truth** in a run if and only if no call finds a digest
and another message of its stream, and none collapses a digest. -/
theorem truthfulThroughout_iff (recipient : String) (steps : List CapStep) :
    TruthfulThroughout recipient [] steps ↔ InTimeThroughout recipient [] steps :=
  throughout_iff (truthful_nil recipient) steps

end

/-! ### The fifth message -/

def acknowledged (queuedAt : Nat) : DeferredMessage :=
  ⟨"eng-1", "acknowledged #5", none, queuedAt⟩

theorem stream_acknowledged (queuedAt : Nat) :
    (acknowledged queuedAt).stream = some ("eng-1", .acknowledgement, 5) := by
  have hstream : pendingStream "eng-1" "acknowledged #5" = some ("eng-1", .acknowledgement, 5) := by
    decide +kernel
  exact hstream

/-- The digest of three messages counts as one when the fifth message comes. -/
theorem not_truthfulThroughout : ¬ ∀ (recipient : String) (steps : List CapStep),
    TruthfulThroughout recipient [] steps := by
  intro h
  have hroom (entry : QueueEntry) (n : Nat) :
      after "manager" [entry] (.call (acknowledged n)) = [entry, single (acknowledged n)] :=
    queueCapped_of_room fun _ _ => (List.length_filter_le _ _).trans_lt (Nat.lt_succ_self 1)
  have hkey (n : Nat) := key_eq_iff.mpr (stream_acknowledged n)
  have hmatching : ([single (acknowledged 1), single (acknowledged 2)].filter fun entry =>
      entry.message.key = some (streamKey ("eng-1", .acknowledgement, 5))) =
      [single (acknowledged 1), single (acknowledged 2)] := by
    simp [single, hkey]
  have hfull : after "manager" [single (acknowledged 1), single (acknowledged 2)]
      (.call (acknowledged 3)) = [⟨(acknowledged 3).digest 3 "manager",
        [acknowledged 1, acknowledged 2, acknowledged 3]⟩] := by
    rw [after, queueCapped_of_full (stream_acknowledged 3) (by rw [hmatching]; rfl), hmatching]
    simp [single, hkey]
  have hsteps := (throughout_iff (truthful_nil "manager") _).mp
    (h "manager" ([1, 2, 3, 4, 5].map fun n => .call (acknowledged n)))
  obtain ⟨-, -, -, -, hfifth, -⟩ := hsteps
  have hone : after "manager" [] (.call (acknowledged 1)) = [single (acknowledged 1)] := by
    rw [after, queueCapped_of_room, List.nil_append]
    exact fun _ _ => Nat.zero_lt_succ 1
  rw [hone, hroom, hfull, hroom] at hfifth
  have hplain := (hfifth _ (stream_acknowledged 5)).1
  simp [ofStream, QueueEntry.stream, single, stream_acknowledged, isDigest] at hplain

end Batty
