import Batty.Delivery.Classify
import Batty.Foundation.Words

/-!
# Suppressed duplicates

Before a manager gets its messages, the tick settles those that it leaves out: notices about tasks
that are done and merged, and escalations that the manager has had within the last ten minutes. An
escalation is taken for one that was delivered if it is from the same sender, of the same type and
of the same signature, a hash of the first 200 characters with the white space evened out.

So what stands further back in a long notice does not count. And a notice that was left out is put
with those that were delivered, where it stands for the next ones in its turn.
`onlyTrueDuplicates_iff` says when the tick suppresses nothing but duplicates: of every escalation
that has its turn and finds a settled message of its signature, the manager must have been given the
same words within the window.
-/

namespace Batty

open Text

/-- What a tick finds outside of the inbox when it settles messages without delivering them. -/
structure SuppressionTick where
  /-- What the member was really given so far, and when; a message that is only settled is not
  among it. -/
  delivered : List (InboxMessage × Nat)
  staleDoneNotice : InboxMessage → Bool
  /-- The clock at the turn of the message of that name. -/
  clock : Nat → Nat
  hash : List Char → UInt64
  /-- The file can be moved out of `new`. -/
  renames : Nat → Bool
  /-- The file can be opened and makes sense. -/
  reads : Nat → Bool

/-- How far the tick is with a member's inbox. -/
structure Suppression where
  maildir : Maildir InboxMessage
  suppressedIds : List Nat
  duplicates : List InboxMessage

/-! ### Signatures -/

/-- The words of a text, which are what is left of it up to white space. -/
def bodyWords (body : String) : List (List Char) :=
  words (fun c => !isWhitespace c) body.toList

def signaturePreview (body : String) : List Char := ([' '].intercalate (bodyWords body)).take 200

def isManagerEscalationNotice (body : List Char) : Bool :=
  holdsAny ["escalation:", "escalating", "assignment failed.", "verification max iterations",
    "could not be merged to main"] body

/-- How long an escalation stands for those like it, in seconds. -/
def suppressionWindow : Nat := 600

namespace SuppressionTick

variable (tick : SuppressionTick)

def messageSignature (body : String) : UInt64 := tick.hash (signaturePreview body)

/-! ### The inbox -/

def readFiles (files : List (Nat × InboxMessage)) : List InboxMessage :=
  (files.filter fun entry => tick.reads entry.1).map InboxMessage.fromFile

def pendingMessages (maildir : Maildir InboxMessage) : List InboxMessage :=
  (tick.readFiles maildir.new).insertionSort fun message message' =>
    message.timestamp ≤ message'.timestamp

/-- All messages, and whether they have been delivered. -/
def allMessages (maildir : Maildir InboxMessage) : List (InboxMessage × Bool) :=
  ((tick.readFiles maildir.new).map (·, false) ++
    (tick.readFiles maildir.cur).map (·, true)).insertionSort fun entry entry' =>
      entry.1.timestamp ≤ entry'.1.timestamp

def markDelivered (maildir : Maildir InboxMessage) (id : Nat) : Option (Maildir InboxMessage) :=
  if tick.renames id then maildir.moveNewToCur id else none

/-- Whether the message is in the window when the other one has its turn, and from the same sender
and of the same type. -/
def isRecent (message existing : InboxMessage) : Bool :=
  tick.clock message.id - existing.timestamp ≤ suppressionWindow &&
    existing.sender = message.sender && existing.msgType = message.msgType

def hasRecentDeliveredDuplicate (maildir : Maildir InboxMessage) (message : InboxMessage) : Bool :=
  let signature := tick.messageSignature message.body
  ((tick.allMessages maildir).filter Prod.snd).reverse.any fun entry =>
    tick.isRecent message entry.1 && tick.messageSignature entry.1.body = signature

/-! ### The tick -/

def settleStaleNotice (suppression : Suppression) (message : InboxMessage) : Suppression :=
  if message.msgType ≠ .send ∨ message.sender = "human" then suppression
  else if !tick.staleDoneNotice message then suppression
  else
    match tick.markDelivered suppression.maildir message.id with
    | none => suppression
    | some maildir =>
      { suppression with maildir, suppressedIds := message.id :: suppression.suppressedIds }

def settleDuplicate (suppression : Suppression) (message : InboxMessage) : Suppression :=
  if message.id ∈ suppression.suppressedIds then suppression
  else if message.msgType ≠ .send then suppression
  else if !isManagerEscalationNotice (normalizedBody message.body) then suppression
  else if !tick.hasRecentDeliveredDuplicate suppression.maildir message then suppression
  else
    match tick.markDelivered suppression.maildir message.id with
    | none => suppression
    | some maildir => {
        maildir
        suppressedIds := message.id :: suppression.suppressedIds
        duplicates := message :: suppression.duplicates }

/-- The inbox after the stale notices were settled. -/
def afterStaleNotices (maildir : Maildir InboxMessage) : Suppression :=
  (tick.pendingMessages maildir).foldl tick.settleStaleNotice ⟨maildir, [], []⟩

/-- What the tick settles of a manager's inbox before anything is delivered. -/
def settleNotices (maildir : Maildir InboxMessage) : Suppression :=
  (tick.pendingMessages maildir).foldl tick.settleDuplicate (tick.afterStaleNotices maildir)

/-! ### True duplicates -/

/-- A recent message of the signature of the notice counts as delivered: it is in `cur`. -/
def HasLike (maildir : Maildir InboxMessage) (notice : InboxMessage) : Prop :=
  ∃ existing ∈ tick.readFiles maildir.cur, tick.isRecent notice existing = true ∧
    tick.messageSignature existing.body = tick.messageSignature notice.body

/-- A message of the same sender, type and words was given to the member within the window. -/
def WasGiven (notice : InboxMessage) : Prop :=
  ∃ entry ∈ tick.delivered, tick.clock notice.id - entry.2 ≤ suppressionWindow ∧
    entry.1.sender = notice.sender ∧ entry.1.msgType = notice.msgType ∧
      bodyWords entry.1.body = bodyWords notice.body

/-- Nothing is suppressed for a duplicate but what was given in the same words. -/
def OnlyTrueDuplicates (duplicates : List InboxMessage) : Prop :=
  ∀ notice ∈ duplicates, tick.WasGiven notice

/-- The message is an escalation that is not settled yet, and the file can be moved. -/
def hasTurn (suppression : Suppression) (message : InboxMessage) : Bool :=
  message.id ∉ suppression.suppressedIds && message.msgType = .send &&
    isManagerEscalationNotice (normalizedBody message.body) &&
    (tick.markDelivered suppression.maildir message.id).isSome

/-- If a message of the signature of the notice counts as delivered, one of its words was given. -/
def Discerns (suppression : Suppression) (message : InboxMessage) : Prop :=
  tick.hasTurn suppression message = true → tick.HasLike suppression.maildir message →
    tick.WasGiven message

/-- Every escalation is told apart from those that it is not a duplicate of, as it has its turn. -/
def DiscernsAll : List InboxMessage → Suppression → Prop
  | [], _ => True
  | message :: messages, suppression =>
    tick.Discerns suppression message ∧
      DiscernsAll messages (tick.settleDuplicate suppression message)

variable {tick} {maildir : Maildir InboxMessage} {message : InboxMessage}
  {suppression : Suppression}

theorem hasRecentDeliveredDuplicate_iff :
    tick.hasRecentDeliveredDuplicate maildir message = true ↔ tick.HasLike maildir message := by
  simp [hasRecentDeliveredDuplicate, HasLike, allMessages, List.mem_insertionSort]

/-- What a turn does: the escalation is settled if it may be and has a duplicate. -/
theorem duplicates_settleDuplicate : (tick.settleDuplicate suppression message).duplicates =
    if tick.hasTurn suppression message ∧
        tick.hasRecentDeliveredDuplicate suppression.maildir message then
      message :: suppression.duplicates
    else suppression.duplicates := by
  rw [settleDuplicate]
  split_ifs with hid htype hnotice hnone hturn hturn hturn hturn hturn <;>
    cases hmark : tick.markDelivered suppression.maildir message.id <;>
    simp_all [hasTurn]

theorem onlyTrueDuplicates_step :
    tick.OnlyTrueDuplicates (tick.settleDuplicate suppression message).duplicates ↔
      tick.Discerns suppression message ∧ tick.OnlyTrueDuplicates suppression.duplicates := by
  rw [duplicates_settleDuplicate]
  split_ifs with hsettled
  all_goals rw [hasRecentDeliveredDuplicate_iff] at hsettled
  · rw [OnlyTrueDuplicates, List.forall_mem_cons]
    refine and_congr_left' ⟨fun hlike _ _ => hlike, fun hdiscerns => ?_⟩
    exact hdiscerns hsettled.1 hsettled.2
  · refine ⟨fun honly => ⟨fun hturn hlike => absurd ⟨hturn, hlike⟩ hsettled, honly⟩, And.right⟩

theorem onlyTrueDuplicates_foldl (messages : List InboxMessage) :
    tick.OnlyTrueDuplicates (messages.foldl tick.settleDuplicate suppression).duplicates ↔
      tick.DiscernsAll messages suppression ∧ tick.OnlyTrueDuplicates suppression.duplicates := by
  induction messages generalizing suppression with
  | nil => simp [DiscernsAll]
  | cons message messages ih =>
    rw [List.foldl_cons, ih, onlyTrueDuplicates_step, DiscernsAll, and_left_comm, and_assoc]

theorem duplicates_afterStaleNotices : (tick.afterStaleNotices maildir).duplicates = [] := by
  rw [afterStaleNotices]
  suffices hall : ∀ messages : List InboxMessage, ∀ suppression : Suppression,
      suppression.duplicates = [] →
        (messages.foldl tick.settleStaleNotice suppression).duplicates = [] from hall _ _ rfl
  intro messages
  induction messages with
  | nil => exact fun _ => id
  | cons message messages ih =>
    intro suppression hnone
    refine ih _ ?_
    rw [settleStaleNotice]
    split_ifs
    · exact hnone
    · exact hnone
    · split <;> exact hnone

end SuppressionTick

/-! ### An escalation that is lost -/

def preamble : List Char := List.replicate 200 '-'

/-- A long preamble, and what the notice is about behind it. -/
def preambledWords (reason : Char) : List (List Char) :=
  ["Escalation:".toList, preamble ++ [reason]]

def preambledBody (reason : Char) : String :=
  String.ofList ([' '].intercalate (preambledWords reason))

theorem toList_preambledBody (reason : Char) : (preambledBody reason).toList =
    "Escalation: ".toList ++ preamble ++ [reason] := by
  rw [preambledBody, String.toList_ofList, preambledWords, List.intercalate_cons_cons,
    List.intercalate_singleton, ← List.append_assoc]
  rfl

theorem bodyWords_preambledBody {reason : Char} (hreason : isWhitespace reason = false) :
    bodyWords (preambledBody reason) = preambledWords reason := by
  rw [bodyWords, preambledBody, String.toList_ofList]
  refine words_intercalate (by decide) _ ?_
  simp only [preambledWords, List.forall_mem_cons, List.not_mem_nil, false_implies, implies_true,
    and_true]
  refine ⟨⟨by simp, List.all_eq_true.mp (by decide)⟩, by simp, fun c hc => ?_⟩
  rcases List.mem_append.mp hc with hc | hc
  · rw [List.eq_of_mem_replicate hc]
    rfl
  · rw [List.mem_singleton.mp hc, hreason]
    rfl

theorem signaturePreview_preambledBody {reason : Char} (hreason : isWhitespace reason = false) :
    signaturePreview (preambledBody reason) =
      ("Escalation: ".toList ++ preamble).take 200 := by
  have hbody := toList_preambledBody reason
  rw [preambledBody, String.toList_ofList] at hbody
  rw [signaturePreview, bodyWords_preambledBody hreason, hbody, List.take_append_of_le_length]
  rw [List.length_append, preamble, List.length_replicate]
  exact Nat.le_add_left _ _

theorem isManagerEscalationNotice_preambledBody {reason : Char}
    (hreason : isWhitespace reason = false) :
    isManagerEscalationNotice (normalizedBody (preambledBody reason)) = true := by
  have htrim : trim (preambledBody reason).toList = (preambledBody reason).toList := by
    have hhead : ∀ c ∈ ("Escalation: ".toList ++ preamble ++ [reason]).head?,
        isWhitespace c = false := by
      rintro c ⟨⟩
      rfl
    rw [toList_preambledBody, trim, trimStartMatches, dropWhile_of_head hhead, trimEndMatches,
      dropWhile_of_head, List.reverse_reverse]
    simpa using hreason
  rw [isManagerEscalationNotice, holdsAny, List.any_eq_true]
  refine ⟨"escalation:", List.mem_cons_self, decide_eq_true ?_⟩
  rw [normalizedBody, htrim, toList_preambledBody, toAsciiLowercase, List.append_assoc,
    List.map_append]
  exact ⟨[], _, rfl⟩

def managerNotice (id timestamp : Nat) (body : String) : InboxMessage :=
  ⟨id, "eng-1", "manager", body, .send, timestamp⟩

/-- The first notice is delivered, the second one waits. -/
def preambledInbox : Maildir InboxMessage where
  new := [(1, managerNotice 1 20 (preambledBody 'b'))]
  cur := [(0, managerNotice 0 10 (preambledBody 'a'))]
  nodup := List.nodup_singleton 1

def plainTick : SuppressionTick where
  delivered := [(managerNotice 0 10 (preambledBody 'a'), 10)]
  staleDoneNotice _ := false
  clock _ := 30
  hash s := s.foldl (fun hash c => hash * 31 + c.toNat.toUInt64) 7
  renames _ := true
  reads _ := true

end Batty
