import Mathlib.Data.List.Flatten
import Mathlib.Data.List.Perm.Subperm
import Batty.Delivery.Tiers
import Batty.Foundation.Lists

/-!
# The order of pending messages

The messages of an inbox are files, and a directory is listed in no particular order. What is read
is put in order by the timestamps of the messages, which are seconds. So of two messages the one
that was delivered first is read first, however the directories are listed, just if its second is an
earlier one, or its directory is read before that of the other (`fifo_iff_parted`).

`Throughout` says of every state of a history what it says of one.
-/

namespace Batty

/-! ### Two entries of a list -/

section

variable {α : Type} {a b : α} {entries : List α}

theorem pair_sublist_or (ha : a ∈ entries) (hb : b ∈ entries) (hne : a ≠ b) :
    [a, b].Sublist entries ∨ [b, a].Sublist entries := by
  induction entries with
  | nil => cases ha
  | cons head entries ih =>
    rcases List.mem_cons.mp ha with rfl | ha'
    · have hb' : b ∈ entries := (List.mem_cons.mp hb).resolve_left hne.symm
      exact .inl ((List.singleton_sublist.mpr hb').cons_cons a)
    · rcases List.mem_cons.mp hb with rfl | hb'
      · exact .inr ((List.singleton_sublist.mpr ha').cons_cons b)
      · exact (ih ha' hb').imp (.cons head) (.cons head)

/-- Of two entries only one comes first. -/
theorem not_pair_sublist (hnodup : entries.Nodup) (h : [a, b].Sublist entries) :
    ¬ [b, a].Sublist entries := by
  induction entries with
  | nil => cases h
  | cons head entries ih =>
    obtain ⟨hhead, hnodup⟩ := List.nodup_cons.mp hnodup
    intro h'
    cases h with
    | cons _ h =>
      cases h' with
      | cons _ h' => exact ih hnodup h h'
      | cons_cons _ h' => exact hhead (h.subset (by simp))
    | cons_cons _ h =>
      cases h' with
      | cons _ h' => exact hhead (h'.subset (by simp))
      | cons_cons _ h' => exact hhead (h.subset (by simp))

theorem pair_sublist_of_pairwise {r : α → α → Prop} (hsorted : entries.Pairwise r)
    (ha : a ∈ entries) (hb : b ∈ entries) (hne : a ≠ b) (h : ¬ r b a) : [a, b].Sublist entries := by
  refine (pair_sublist_or ha hb hne).resolve_right fun hba => h ?_
  exact List.pairwise_pair.mp (hsorted.sublist hba)

theorem pair_sublist_append {entries' : List α} (ha : a ∈ entries) (hb : b ∈ entries') :
    [a, b].Sublist (entries ++ entries') :=
  (List.singleton_sublist.mpr ha).append (List.singleton_sublist.mpr hb)

/-- An entry of an earlier piece comes before one of a later piece. -/
theorem pair_sublist_flatMap {β : Type} {f : β → List α} {pieces : List β} {x y : β}
    (h : [x, y].Sublist pieces) (ha : a ∈ f x) (hb : b ∈ f y) :
    [a, b].Sublist (pieces.flatMap f) := by
  refine List.Sublist.trans ?_ (h.flatMap f)
  rw [List.flatMap_cons, List.flatMap_singleton]
  exact pair_sublist_append ha hb

end

namespace Inboxes

/-! ### Listings -/

/-- An order in which the files of every directory are listed. -/
structure Listing (inboxes : Inboxes) (member : String) where
  files : Option QueueTier → List (Nat × InboxMessage)
  perm : ∀ tier, (files tier).Perm (inboxes.maildir member tier).new
  /-- The file can be opened and makes sense. -/
  reads : Nat → Bool

variable {inboxes : Inboxes} {member : String} {message message' : InboxMessage}
  {tier tier' : Option QueueTier}

namespace Listing

def pendingIn (listing : inboxes.Listing member) (tier : Option QueueTier) : List InboxMessage :=
  (((listing.files tier).filter fun entry => listing.reads entry.1).map
    InboxMessage.fromFile).insertionSort fun message message' =>
      message.timestamp ≤ message'.timestamp

def pendingMessages (listing : inboxes.Listing member) : List InboxMessage :=
  listing.pendingIn none

def pendingMessagesUnion (listing : inboxes.Listing member) : List InboxMessage :=
  (listing.pendingMessages ++
    QueueTier.all.flatMap fun tier => listing.pendingIn (some tier)).insertionSort
      fun message message' => message.timestamp ≤ message'.timestamp

/-- The listing of the files in the order in which they came. -/
def chronological (inboxes : Inboxes) (member : String) : inboxes.Listing member where
  files := fun tier => (inboxes.maildir member tier).new
  perm _ := .refl _
  reads := fun _ => true

theorem pendingIn_chronological :
    (chronological inboxes member).pendingIn tier = inboxes.pendingIn member tier := by
  simp [pendingIn, chronological, Inboxes.pendingIn]

end Listing

/-- Where the directory stands in the order in which the directories are read. -/
def readingRank : Option QueueTier → Nat
  | none => 0
  | some .priority => 1
  | some .work => 2
  | some .content => 3
  | some .telemetry => 4

/-- **First in, first out.** Of two pending messages that can be read, the one delivered first is
read first, with a timestamp that is no later, however the files are listed. -/
def Fifo (inboxes : Inboxes) : Prop :=
  ∀ (member : String) (tier tier' : Option QueueTier), ∀ message ∈ inboxes.pendingIn member tier,
    ∀ message' ∈ inboxes.pendingIn member tier', message.id < message'.id →
      message.timestamp ≤ message'.timestamp → ∀ listing : inboxes.Listing member,
        listing.reads message.id = true → listing.reads message'.id = true →
          (tier = none → tier' = none → [message, message'].Sublist listing.pendingMessages) ∧
            [message, message'].Sublist listing.pendingMessagesUnion

/-- Messages of one second wait in different directories, the one delivered first in that which is
read first. -/
def Parted (inboxes : Inboxes) : Prop :=
  ∀ (member : String) (tier tier' : Option QueueTier), ∀ message ∈ inboxes.pendingIn member tier,
    ∀ message' ∈ inboxes.pendingIn member tier', message.id < message'.id →
      message.timestamp = message'.timestamp → readingRank tier < readingRank tier'

/-! ### Files of one name -/

/-- No two directories of a member have files of one name. -/
def Apart (inboxes : Inboxes) : Prop :=
  ∀ (member : String) (tier tier' : Option QueueTier),
    ∀ entry ∈ (inboxes.maildir member tier).new, ∀ entry' ∈ (inboxes.maildir member tier').new,
      entry.1 = entry'.1 → tier = tier'

/-- What waits in the second state has waited in the first one. -/
def Shrinks (inboxes inboxes' : Inboxes) : Prop :=
  ∀ (member : String) (tier : Option QueueTier),
    (inboxes'.maildir member tier).new ⊆ (inboxes.maildir member tier).new

theorem Shrinks.refl (inboxes : Inboxes) : inboxes.Shrinks inboxes := fun _ _ => List.Subset.refl _

theorem Shrinks.trans {inboxes' inboxes'' : Inboxes} (h : inboxes.Shrinks inboxes')
    (h' : inboxes'.Shrinks inboxes'') : inboxes.Shrinks inboxes'' :=
  fun member tier => List.Subset.trans (h' member tier) (h member tier)

theorem Apart.shrinks {inboxes' : Inboxes} (hapart : inboxes.Apart) (h : inboxes.Shrinks inboxes') :
    inboxes'.Apart := fun member tier tier' entry hentry entry' hentry' =>
  hapart member tier tier' entry (h member tier hentry) entry' (h member tier' hentry')

theorem shrinks_markIn {renames : Nat → Bool} {id : Nat} :
    inboxes.Shrinks (inboxes.markIn renames member tier id).2 := by
  rcases @markIn_cases inboxes member tier renames id with hsame | ⟨maildir, hmove, hmoved⟩
  · rw [hsame]
    exact .refl _
  · rw [hmoved]
    intro member' tier' entry hentry
    simp only [settle] at hentry
    split at hentry
    · next heq =>
      obtain ⟨rfl, rfl⟩ := heq
      rw [Maildir.new_of_moveNewToCur hmove] at hentry
      exact (Maildir.mem_without.mp hentry).1
    · exact hentry

theorem shrinks_expireAll {renames : Nat → Bool} {now : Nat} {tier : QueueTier}
    {messages : List InboxMessage} :
    inboxes.Shrinks (expireAll renames now member tier messages inboxes).2 := by
  induction messages generalizing inboxes with
  | nil => exact .refl _
  | cons message messages ih =>
    unfold Inboxes.expireAll
    have hmarked := @shrinks_markIn inboxes member (some tier) renames message.id
    split
    · cases hmark : inboxes.markTieredDelivered renames member tier message.id with
      | mk ok inboxes' =>
        rw [markTieredDelivered] at hmark
        rw [hmark] at hmarked
        cases ok with
        | true => exact hmarked.trans ih
        | false => exact hmarked
    · exact ih

theorem shrinks_expireTiers {renames : Nat → Bool} {now : Nat} {tiers : List QueueTier} :
    inboxes.Shrinks (expireTiers renames now member tiers inboxes) := by
  induction tiers generalizing inboxes with
  | nil => exact .refl _
  | cons tier tiers ih =>
    unfold Inboxes.expireTiers
    have hexpired := @shrinks_expireAll inboxes member renames now tier
      (inboxes.pendingMessagesForTier member tier)
    split
    · next hexpire =>
      rw [hexpire] at hexpired
      exact hexpired.trans ih
    · next hexpire =>
      rw [hexpire] at hexpired
      exact hexpired

theorem shrinks_sweep {renames : Nat → Bool} {now : Nat} {members : List String} :
    inboxes.Shrinks (inboxes.sweepTieredInboxes renames now members) :=
  List.foldlRecOn members _ (Shrinks.refl _) fun _ h _ _ => h.trans shrinks_expireTiers

theorem apart_empty : empty.Apart := fun _ _ _ _ h => by cases h

/-- The name of a file that comes in is new in all directories. -/
theorem Apart.storeIn (h : inboxes.Apart) : (inboxes.storeIn tier message).Apart := by
  intro member tier₁ tier₂ entry hentry entry' hentry' heq
  have hcases : ∀ tier', ∀ entry ∈ ((inboxes.storeIn tier message).maildir member tier').new,
      entry ∈ (inboxes.maildir member tier').new ∨ entry.1 = inboxes.filed ∧ tier' = tier := by
    intro tier' entry hentry
    simp only [Inboxes.storeIn] at hentry
    split at hentry
    · next hwhere =>
      rcases List.mem_append.mp hentry with hold | hnew
      · exact .inl hold
      · rw [List.mem_singleton.mp hnew]
        exact .inr ⟨rfl, hwhere.2⟩
    · exact .inl hentry
  rcases hcases tier₁ entry hentry with hold | ⟨hid, htier⟩
  · rcases hcases tier₂ entry' hentry' with hold' | ⟨hid', -⟩
    · exact h member tier₁ tier₂ entry hold entry' hold' heq
    · have hlt := inboxes.fresh member tier₁ entry hold
      omega
  · rcases hcases tier₂ entry' hentry' with hold' | ⟨-, htier'⟩
    · have hlt := inboxes.fresh member tier₂ entry' hold'
      omega
    · rw [htier, htier']

/-! ### Reading -/

/-- The directories of a member in the order in which they are read. -/
def directories : List (Option QueueTier) := none :: QueueTier.all.map some

theorem mem_directories (tier : Option QueueTier) : tier ∈ directories := by
  rcases tier with _ | _ | _ | _ | _ <;> decide

theorem pair_sublist_directories (h : readingRank tier < readingRank tier') :
    [tier, tier'].Sublist directories := by
  revert h
  rcases tier with _ | _ | _ | _ | _ <;> rcases tier' with _ | _ | _ | _ | _ <;> decide

theorem readingRank_inj (h : readingRank tier = readingRank tier') : tier = tier' := by
  revert h
  rcases tier with _ | _ | _ | _ | _ <;> rcases tier' with _ | _ | _ | _ | _ <;> decide

variable {listing : inboxes.Listing member}

theorem Listing.mem_pendingIn : message ∈ listing.pendingIn tier ↔
    listing.reads message.id = true ∧ message ∈ inboxes.pendingIn member tier := by
  simp only [Listing.pendingIn, List.mem_insertionSort, List.mem_map, List.mem_filter,
    (listing.perm tier).mem_iff, Inboxes.mem_pendingIn]
  constructor
  · rintro ⟨entry, ⟨hentry, hreads⟩, rfl⟩
    exact ⟨hreads, entry, hentry, rfl⟩
  · rintro ⟨hreads, entry, hentry, rfl⟩
    exact ⟨entry, ⟨hentry, hreads⟩, rfl⟩

theorem Listing.nodup_pendingIn : (listing.pendingIn tier).Nodup := by
  rw [Listing.pendingIn, (List.perm_insertionSort _ _).nodup_iff]
  refine List.Nodup.of_map InboxMessage.id ?_
  rw [List.map_map]
  refine List.Nodup.sublist (List.filter_sublist.map Prod.fst) ?_
  rw [((listing.perm tier).map Prod.fst).nodup_iff]
  exact (inboxes.maildir member tier).nodup

theorem Listing.pendingMessagesUnion_eq : listing.pendingMessagesUnion =
    (directories.flatMap listing.pendingIn).insertionSort
      fun message message' => message.timestamp ≤ message'.timestamp := by
  simp [Listing.pendingMessagesUnion, Listing.pendingMessages, directories, List.flatMap_map]

theorem Listing.nodup_flatMap (hapart : inboxes.Apart) :
    (directories.flatMap listing.pendingIn).Nodup := by
  rw [List.nodup_flatMap]
  refine ⟨fun tier _ => listing.nodup_pendingIn, ?_⟩
  have hne : directories.Pairwise (· ≠ ·) := by decide
  refine hne.imp fun {tier tier'} hne message hmem hmem' => hne ?_
  obtain ⟨entry, hentry, rfl⟩ := Inboxes.mem_pendingIn.mp (listing.mem_pendingIn.mp hmem).2
  obtain ⟨entry', hentry', heq⟩ := Inboxes.mem_pendingIn.mp (listing.mem_pendingIn.mp hmem').2
  exact hapart member tier tier' entry hentry entry' hentry' (congrArg InboxMessage.id heq).symm

/-- Messages of one second are read in the order of their directories. -/
theorem Listing.pair_sublist_union_of_rank (hmem : message ∈ listing.pendingIn tier)
    (hmem' : message' ∈ listing.pendingIn tier') (hle : message.timestamp ≤ message'.timestamp)
    (hrank : readingRank tier < readingRank tier') :
    [message, message'].Sublist listing.pendingMessagesUnion := by
  rw [Listing.pendingMessagesUnion_eq]
  exact List.pair_sublist_insertionSort hle
    (pair_sublist_flatMap (pair_sublist_directories hrank) hmem hmem')

/-- The listing with one file of a directory in front of the others. -/
def Listing.advance (listing : inboxes.Listing member) (tier : Option QueueTier)
    (entry : Nat × InboxMessage) (h : entry ∈ listing.files tier) : inboxes.Listing member where
  files tier' := if tier' = tier then entry :: (listing.files tier).erase entry
    else listing.files tier'
  perm tier' := by
    split
    · next heq =>
      rw [heq]
      exact (List.perm_cons_erase h).symm.trans (listing.perm tier)
    · exact listing.perm tier'
  reads := listing.reads

/-- Messages of one second in one directory can be read in either order. -/
theorem exists_listing_of_same (hmem : message ∈ inboxes.pendingIn member tier)
    (hmem' : message' ∈ inboxes.pendingIn member tier) (hne : message ≠ message')
    (hsame : message.timestamp = message'.timestamp) :
    ∃ listing : inboxes.Listing member, (∀ id, listing.reads id = true) ∧
      [message', message].Sublist listing.pendingMessagesUnion := by
  obtain ⟨entry, hentry, rfl⟩ := Inboxes.mem_pendingIn.mp hmem
  obtain ⟨entry', hentry', rfl⟩ := Inboxes.mem_pendingIn.mp hmem'
  refine ⟨(Listing.chronological inboxes member).advance tier entry' hentry', fun _ => rfl, ?_⟩
  rw [Listing.pendingMessagesUnion_eq]
  refine List.pair_sublist_insertionSort hsame.ge
    (List.Sublist.trans ?_ (List.sublist_flatten_of_mem
      (List.mem_map_of_mem (mem_directories tier))))
  refine List.pair_sublist_insertionSort hsame.ge ?_
  have hrest : entry ∈ (inboxes.maildir member tier).new.erase entry' :=
    (List.mem_erase_of_ne fun heq => hne (congrArg _ heq)).mpr hentry
  simp only [Listing.advance, Listing.chronological, if_true, List.filter_true, List.map_cons]
  exact (List.singleton_sublist.mpr (List.mem_map_of_mem hrest)).cons_cons _

/-- **First in, first out**, just if no two messages of one second wait in the same directory, or
the later one in a directory that is read earlier. -/
theorem fifo_iff_parted (hapart : inboxes.Apart) : inboxes.Fifo ↔ inboxes.Parted := by
  constructor
  · intro h member tier tier' message hmem message' hmem' hid hsame
    have hne : message ≠ message' := fun heq => Nat.lt_irrefl _ (heq ▸ hid)
    have hreads := h member tier tier' message hmem message' hmem' hid hsame.le
    -- A listing in which the later message is read first contradicts what is read always.
    have hnot : ∀ listing : inboxes.Listing member, (∀ id, listing.reads id = true) →
        ¬ [message', message].Sublist listing.pendingMessagesUnion := by
      intro listing hall hswapped
      refine not_pair_sublist ?_ (hreads listing (hall _) (hall _)).2 hswapped
      rw [Listing.pendingMessagesUnion_eq, (List.perm_insertionSort _ _).nodup_iff]
      exact listing.nodup_flatMap hapart
    by_contra hrank
    rcases Nat.eq_or_lt_of_le (Nat.le_of_not_lt hrank) with heq | hlt
    · -- In one directory any order of reading may be met.
      obtain rfl := readingRank_inj heq
      obtain ⟨listing, hall, hswapped⟩ := exists_listing_of_same hmem hmem' hne hsame
      exact hnot listing hall hswapped
    · refine hnot (.chronological inboxes member) (fun _ => rfl)
        (Listing.pair_sublist_union_of_rank ?_ ?_ hsame.ge hlt)
      · rwa [Listing.pendingIn_chronological]
      · rwa [Listing.pendingIn_chronological]
  · intro h member tier tier' message hmem message' hmem' hid hle listing hreads hreads'
    have hmem₁ := Listing.mem_pendingIn.mpr ⟨hreads, hmem⟩
    have hmem₂ := Listing.mem_pendingIn.mpr ⟨hreads', hmem'⟩
    have hne : message ≠ message' := fun heq => Nat.lt_irrefl _ (heq ▸ hid)
    rcases Nat.eq_or_lt_of_le hle with hsame | hlt
    · have hrank := h member tier tier' message hmem message' hmem' hid hsame
      refine ⟨?_, Listing.pair_sublist_union_of_rank hmem₁ hmem₂ hle hrank⟩
      rintro rfl rfl
      exact absurd hrank (Nat.lt_irrefl _)
    · -- Messages of different seconds are put in order by the sort alone.
      refine ⟨?_, ?_⟩
      · rintro rfl rfl
        exact pair_sublist_of_pairwise (List.pairwise_insertionSort _ _) hmem₁ hmem₂ hne
          (Nat.not_le_of_lt hlt)
      · rw [Listing.pendingMessagesUnion_eq]
        refine pair_sublist_of_pairwise (List.pairwise_insertionSort _ _) ?_ ?_ hne
          (Nat.not_le_of_lt hlt)
        · exact (List.mem_insertionSort _).mpr
            (List.mem_flatMap.mpr ⟨tier, mem_directories tier, hmem₁⟩)
        · exact (List.mem_insertionSort _).mpr
            (List.mem_flatMap.mpr ⟨tier', mem_directories tier', hmem₂⟩)

end Inboxes

/-! ### Histories -/

/-- What holds of the inboxes in every state of a history. -/
def Throughout (classifyMessage : InboxMessage → MessageCategory) (holds : Inboxes → Prop)
    (team : TeamInboxes) : List InboxEvent → Prop
  | [] => holds team.inboxes
  | event :: events =>
    holds team.inboxes ∧ Throughout classifyMessage holds (team.step classifyMessage event) events

theorem apart_step {classifyMessage : InboxMessage → MessageCategory} {team : TeamInboxes}
    {event : InboxEvent} (h : team.inboxes.Apart) :
    (team.step classifyMessage event).inboxes.Apart := by
  cases event with
  | configure tieredInboxes => exact h
  | deliver message stores =>
    simp only [TeamInboxes.step, Inboxes.deliverFlagAware]
    split
    · dsimp only
      split
      · exact h.storeIn
      · exact h.storeIn
    · exact h
  | markDelivered member id renames => exact h.shrinks Inboxes.shrinks_markIn
  | markTieredDelivered member tier id renames => exact h.shrinks Inboxes.shrinks_markIn
  | sweep members now renames =>
    simp only [TeamInboxes.step]
    split
    · exact h.shrinks Inboxes.shrinks_sweep
    · exact h

/-- **Inboxes are queues** throughout a history just if in all of it no two messages of one second
wait in the same directory, or the later one in a directory that is read earlier. -/
theorem throughout_fifo_iff (classifyMessage : InboxMessage → MessageCategory)
    (tieredInboxes : Bool) (events : List InboxEvent) :
    Throughout classifyMessage Inboxes.Fifo (.initial tieredInboxes) events ↔
      Throughout classifyMessage Inboxes.Parted (.initial tieredInboxes) events := by
  have hrun : ∀ team : TeamInboxes, team.inboxes.Apart →
      (Throughout classifyMessage Inboxes.Fifo team events ↔
        Throughout classifyMessage Inboxes.Parted team events) := by
    induction events with
    | nil => exact fun _ hapart => Inboxes.fifo_iff_parted hapart
    | cons event events ih =>
      exact fun _ hapart => and_congr (Inboxes.fifo_iff_parted hapart) (ih _ (apart_step hapart))
  exact hrun _ Inboxes.apart_empty

/-- An assignment and its cancellation, in the same second. -/
def assignment : InboxMessage := ⟨0, "manager", "eng-1", "Task #7", .assign, 100⟩

def cancellation : InboxMessage := ⟨1, "manager", "eng-1", "Drop task #7", .send, 100⟩

/-- An assignment and its cancellation within one second. -/
theorem not_throughout_fifo : ¬ ∀ (tieredInboxes : Bool) (events : List InboxEvent),
    Throughout (fun _ => .status) Inboxes.Fifo (.initial tieredInboxes) events := by
  intro h
  have hfifo := (h false [.deliver assignment true, .deliver cancellation true]).2.2
  have hstart : (TeamInboxes.initial false).inboxes.Apart := Inboxes.apart_empty
  have hparted := (Inboxes.fifo_iff_parted (apart_step (apart_step hstart))).mp hfifo
  have hrank := hparted "eng-1" none none assignment (by decide) cancellation (by decide)
    (by decide) rfl
  exact Nat.lt_irrefl _ hrank

end Batty
