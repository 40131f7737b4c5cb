import Batty.Config.Hierarchy

/-!
# References to inbox messages

The listing of an inbox shows a short reference beside each message: its timestamp, with a number
behind a dash if the message is one of several in that second. What is typed to select a message is
compared with the references, but it may also be an id or the beginning of one, and the ids of a
maildir begin with the second in which a message was stored.

So the references are distinct, and each selects its message; that it selects no other one as well
is left to the ids (`selectsByRef_iff`).
-/

namespace Batty

/-- What the listing knows of a message. -/
structure ListedMessage where
  id : String
  timestamp : Nat

namespace ListedMessage

/-- How many of the messages are of that second. -/
def inSecond (messages : List ListedMessage) (timestamp : Nat) : Nat :=
  messages.countP fun message => message.timestamp = timestamp

/-- The references of the messages behind those `seen`, among all of them. -/
def refsFrom (all seen : List ListedMessage) : List ListedMessage → List String
  | [] => []
  | message :: messages =>
    let ordinal := inSecond seen message.timestamp + 1
    (if inSecond all message.timestamp ≤ 1 then toString message.timestamp
      else s!"{message.timestamp}-{ordinal}") :: refsFrom all (seen ++ [message]) messages

end ListedMessage

open ListedMessage

def inboxMessageRefs (messages : List ListedMessage) : List String := refsFrom messages [] messages

/-- The message is selected by its id, the beginning of its id or its reference. -/
def isSelected (selector : String) (entry : ListedMessage × String) : Bool :=
  entry.1.id = selector || selector.toList <+: entry.1.id.toList || entry.2 = selector

def resolveInboxMessageIndices (messages : List ListedMessage) (selector : String) : List Nat :=
  (messages.zip (inboxMessageRefs messages)).zipIdx.filterMap fun (entry, index) =>
    if isSelected selector entry then some index else none

/-- The references are distinct, and each of them selects its message and no other. -/
def SelectsByRef (messages : List ListedMessage) : Prop :=
  (inboxMessageRefs messages).Nodup ∧
    ∀ index ref, (inboxMessageRefs messages)[index]? = some ref →
      resolveInboxMessageIndices messages ref = [index]

/-- The id begins with the second of the message, if the message is the only one of that second, or
else with the second and the number of the message among those of that second. -/
def BeginsLike (messages : List ListedMessage) (index : Nat) (message : ListedMessage)
    (id : String) : Prop :=
  if inSecond messages message.timestamp ≤ 1 then (toString message.timestamp).toList <+: id.toList
  else
    (toString message.timestamp).toList ++ '-' ::
      (toString (inSecond (messages.take (index + 1)) message.timestamp)).toList <+: id.toList

/-! ### The references -/

section

variable {messages all seen : List ListedMessage} {message message' : ListedMessage}
  {index index' : Nat} {ref : String}

/-- The reference of a message behind those `seen`. -/
def refOf (all seen : List ListedMessage) (message : ListedMessage) : String :=
  if inSecond all message.timestamp ≤ 1 then toString message.timestamp
  else Config.instanceName (toString message.timestamp) (inSecond seen message.timestamp + 1)

theorem getElem?_refsFrom : (refsFrom all seen messages)[index]? =
    messages[index]?.map (refOf all (seen ++ messages.take index)) := by
  induction messages generalizing seen index with
  | nil => rfl
  | cons message messages ih =>
    cases index with
    | zero =>
      rw [List.take_zero, List.append_nil]
      rfl
    | succ index =>
      rw [refsFrom, List.getElem?_cons_succ, ih, List.getElem?_cons_succ, List.take_succ_cons,
        List.append_assoc, List.singleton_append]

theorem getElem?_inboxMessageRefs : (inboxMessageRefs messages)[index]? =
    messages[index]?.map (refOf messages (messages.take index)) := by
  rw [inboxMessageRefs, getElem?_refsFrom, List.nil_append]

theorem inSecond_take_succ (h : messages[index]? = some message) :
    inSecond (messages.take (index + 1)) message.timestamp =
      inSecond (messages.take index) message.timestamp + 1 := by
  rw [List.take_add_one, h, inSecond, List.countP_append, Option.toList_some,
    List.countP_cons_of_pos (by simp), List.countP_nil, inSecond]

/-- A reference begins an id as the condition says. -/
theorem beginsLike_iff (h : messages[index]? = some message) (id : String) :
    BeginsLike messages index message id ↔
      (refOf messages (messages.take index) message).toList <+: id.toList := by
  rw [BeginsLike, refOf]
  split
  · rfl
  · rw [inSecond_take_succ h, Config.toList_instanceName, Nat.toString_eq_repr, Nat.toList_repr,
      Nat.toString_eq_repr, Nat.toList_repr]

theorem dash_not_mem_toString (n : Nat) : '-' ∉ (toString n).toList := by
  rw [Nat.toString_eq_repr, Nat.toList_repr]
  exact Config.not_mem_toDigits n

theorem toString_inj {n n' : Nat} (h : toString n = toString n') : n = n' := by
  have hlist := congrArg String.toList h
  rw [Nat.toString_eq_repr, Nat.toList_repr, Nat.toString_eq_repr, Nat.toList_repr] at hlist
  exact Config.toDigits_inj hlist

/-- Messages of one second with one reference have as many of that second in front of them. -/
theorem refOf_inj {seen' : List ListedMessage}
    (h : refOf all seen message = refOf all seen' message') :
    message.timestamp = message'.timestamp ∧ (inSecond all message.timestamp ≤ 1 ∨
      inSecond seen message.timestamp = inSecond seen' message.timestamp) := by
  have hdash : ∀ (base : String) (index n : Nat),
      Config.instanceName base index ≠ toString n := by
    intro base index n heq
    have hmem : '-' ∈ (Config.instanceName base index).toList := by
      rw [Config.toList_instanceName]
      simp
    rw [heq] at hmem
    exact dash_not_mem_toString n hmem
  unfold refOf at h
  split at h
  · rename_i halone
    split at h
    · exact ⟨toString_inj h, .inl halone⟩
    · exact absurd h.symm (hdash _ _ _)
  · split at h
    · exact absurd h (hdash _ _ _)
    · obtain ⟨hbase, hindex⟩ := Config.instanceName_inj.mp h
      obtain hsame := toString_inj hbase
      rw [← hsame] at hindex
      exact ⟨hsame, .inr (Nat.succ.inj hindex)⟩

/-- The later of two messages has one of that second more in front of it. -/
theorem inSecond_take_lt (h : messages[index]? = some message) (hlt : index < index') :
    inSecond (messages.take index) message.timestamp <
      inSecond (messages.take index') message.timestamp := by
  have hprefix : (messages.take (index + 1)).Sublist (messages.take index') :=
    (List.take_prefix_take_left (Nat.succ_le_of_lt hlt)).sublist
  have hle := hprefix.countP_le (p := fun other => decide (other.timestamp = message.timestamp))
  have hsucc := inSecond_take_succ h
  unfold inSecond at *
  omega

/-- A later message has another reference. -/
theorem refOf_ne (h : messages[index]? = some message) (h' : messages[index']? = some message')
    (hlt : index < index') : refOf messages (messages.take index) message ≠
      refOf messages (messages.take index') message' := by
  intro heq
  obtain ⟨hsame, hcount⟩ := refOf_inj heq
  have hless := inSecond_take_lt h hlt
  rcases hcount with halone | hcount
  · have hboth := inSecond_take_succ h'
    have hle := (List.take_sublist (index' + 1) messages).countP_le
      (p := fun other => decide (other.timestamp = message.timestamp))
    rw [← hsame] at hboth
    unfold inSecond at *
    omega
  · omega

theorem nodup_inboxMessageRefs (messages : List ListedMessage) :
    (inboxMessageRefs messages).Nodup := by
  rw [List.Nodup, List.pairwise_iff_getElem]
  intro index index' hindex hindex' hlt heq
  have hrefs : ∀ i (hi : i < (inboxMessageRefs messages).length), ∃ message,
      messages[i]? = some message ∧
        refOf messages (messages.take i) message = (inboxMessageRefs messages)[i] := by
    intro i hi
    have hsome := List.getElem?_eq_getElem hi
    rw [getElem?_inboxMessageRefs] at hsome
    exact Option.map_eq_some_iff.mp hsome
  obtain ⟨message, hmessage, href⟩ := hrefs index hindex
  obtain ⟨message', hmessage', href'⟩ := hrefs index' hindex'
  exact refOf_ne hmessage hmessage' hlt (by rw [href, href', heq])

/-! ### Selecting -/

theorem mem_resolveInboxMessageIndices {selector : String} :
    index ∈ resolveInboxMessageIndices messages selector ↔
      ∃ message, messages[index]? = some message ∧ (selector.toList <+: message.id.toList ∨
        refOf messages (messages.take index) message = selector) := by
  have hzip : ∀ entry : ListedMessage × String,
      (messages.zip (inboxMessageRefs messages))[index]? = some entry ↔
        messages[index]? = some entry.1 ∧
          refOf messages (messages.take index) entry.1 = entry.2 := by
    intro entry
    rw [List.getElem?_zip_eq_some, getElem?_inboxMessageRefs]
    refine and_congr_right fun hmessage => ?_
    rw [hmessage, Option.map_some, Option.some.injEq]
  simp only [resolveInboxMessageIndices, List.mem_filterMap, List.mem_zipIdx_iff_getElem?,
    Option.ite_none_right_eq_some, Option.some.injEq, Prod.exists, isSelected, Bool.or_eq_true,
    decide_eq_true_eq]
  constructor
  · rintro ⟨message, ref, index', hmem, hselected, rfl⟩
    obtain ⟨hmessage, href⟩ := (hzip (message, ref)).mp hmem
    refine ⟨message, hmessage, ?_⟩
    rcases hselected with (rfl | hprefix) | rfl
    · exact .inl (List.prefix_refl _)
    · exact .inl hprefix
    · exact .inr href
  · rintro ⟨message, hmessage, hselected⟩
    have hmem := (hzip (message, refOf messages (messages.take index) message)).mpr ⟨hmessage, rfl⟩
    exact ⟨message, _, index, hmem, hselected.imp .inr id, rfl⟩

theorem nodup_resolveInboxMessageIndices (selector : String) :
    (resolveInboxMessageIndices messages selector).Nodup := by
  have hsublist : (resolveInboxMessageIndices messages selector).Sublist
      (((messages.zip (inboxMessageRefs messages)).zipIdx.filterMap fun entry => some entry.2)) :=
    sublist_filterMap fun entry _ => by
      dsimp only
      split
      · exact .inr rfl
      · exact .inl rfl
  refine hsublist.nodup ?_
  rw [← Function.comp_def, List.filterMap_eq_map, List.zipIdx_map_snd]
  exact List.nodup_range'

theorem eq_singleton_iff_of_nodup {α : Type} {a : α} {entries : List α} (hnodup : entries.Nodup) :
    entries = [a] ↔ ∀ b, b ∈ entries ↔ b = a := by
  constructor
  · rintro rfl b
    exact List.mem_singleton
  · intro h
    refine List.perm_singleton.mp ?_
    rw [List.perm_ext_iff_of_nodup hnodup (List.nodup_singleton a)]
    exact fun b => (h b).trans List.mem_singleton.symm

end

/-- **Selecting by reference.** The references are distinct, and each selects its message alone just
if no other message's id begins like it. -/
theorem selectsByRef_iff (messages : List ListedMessage) :
    SelectsByRef messages ↔ ∀ (index other : Nat) (message message' : ListedMessage),
      messages[index]? = some message → messages[other]? = some message' → index ≠ other →
        ¬ BeginsLike messages index message message'.id := by
  constructor
  · rintro ⟨-, hselects⟩ index other message message' hmessage hother hne hbegins
    rw [beginsLike_iff hmessage] at hbegins
    have honly := hselects index _ (getElem?_inboxMessageRefs.trans (by rw [hmessage]; rfl))
    rw [eq_singleton_iff_of_nodup (nodup_resolveInboxMessageIndices _)] at honly
    have hselected := mem_resolveInboxMessageIndices.mpr ⟨message', hother, .inl hbegins⟩
    exact hne ((honly other).mp hselected).symm
  · intro h
    refine ⟨nodup_inboxMessageRefs messages, fun index ref href => ?_⟩
    rw [getElem?_inboxMessageRefs] at href
    obtain ⟨message, hmessage, rfl⟩ := Option.map_eq_some_iff.mp href
    rw [eq_singleton_iff_of_nodup (nodup_resolveInboxMessageIndices _)]
    refine fun other => ⟨fun hselected => ?_, ?_⟩
    · obtain ⟨message', hother, hbegins | hsame⟩ := mem_resolveInboxMessageIndices.mp hselected
      · by_contra hne
        exact h index other message message' hmessage hother (Ne.symm hne)
          ((beginsLike_iff hmessage _).mpr hbegins)
      · rcases Nat.lt_trichotomy other index with hlt | heq | hlt
        · exact absurd hsame (refOf_ne hother hmessage hlt)
        · exact heq
        · exact absurd hsame.symm (refOf_ne hmessage hother hlt)
    · rintro rfl
      exact mem_resolveInboxMessageIndices.mpr ⟨message, hmessage, .inr rfl⟩

/-- A message of second 100, and one of the second before that was stored in second 100 as well. -/
def storedTogether : List ListedMessage :=
  [⟨"100.#1M5P7.host", 99⟩, ⟨"100.#0M2P7.host", 100⟩]

/-- What is listed for one message is also how the id of the other begins. -/
theorem not_selectsByRef : ¬ ∀ messages : List ListedMessage, SelectsByRef messages := by
  intro h
  have honly := (h storedTogether).2 1 "100" (by decide)
  have hselected : 0 ∈ resolveInboxMessageIndices storedTogether "100" := by decide
  rw [honly] at hselected
  exact absurd hselected (by decide)

end Batty
