import Batty.Config.Hierarchy
import Batty.Delivery.Classify
import Batty.Foundation.Groups
import Batty.Foundation.Ties
import Mathlib.Data.List.Perm.Basic
import Mathlib.Data.List.Sigma

/-!
# Inbox digests

A digest shows the messages of an inbox by what they are about: escalations, blockers and whatever
else calls for an action one by one, and of the nudges, reminders, acknowledgements and status
updates about one task, or of one sender, only the last. The groups are held in a hash map, whose
order of iteration is not fixed.

Whatever that order is, the digest parts the messages (`digestPartitions`). What is shown is the
same for all orders only if tied entries look alike (`digestFaithful_iff`): the entries are sorted
by their category and by seconds, and the sort leaves ties as the map happens to hold them.
-/

namespace Batty

/-- The messages of an inbox in the order of their timestamps, and whether they were delivered. -/
structure InboxListing where
  messages : List (InboxMessage × Bool)
  sorted : messages.Pairwise fun entry entry' => entry.1.timestamp ≤ entry'.1.timestamp

/-- A message of a listing, or several of one kind that are collapsed into it. -/
structure DigestEntry where
  message : InboxMessage
  delivered : Bool
  category : MessageCategory
  collapsedCount : Nat

/-- The place of a category in a digest. -/
def MessageCategory.rank : MessageCategory → Nat
  | .escalation => 0
  | .reviewRequest => 1
  | .dispatchAction => 2
  | .completionAction => 3
  | .blocker => 4
  | .status => 5
  | .nudge => 6
  | .reminder => 7
  | .acknowledgement => 8

/-- The category comes first, then what is newer. -/
def DigestEntry.sortKey (entry : DigestEntry) : ℕ ×ₗ ℕᵒᵈ :=
  toLex (entry.category.rank, OrderDual.toDual entry.message.timestamp)

/-! ### Groups -/

/-- A message with its place in the listing. -/
abbrev ListedEntry := (InboxMessage × Bool) × Nat

def lowSignalGroupKey (kind : String) (message : InboxMessage) : List Char :=
  match extractTaskId message.body.toList with
  | some taskId => kind.toList ++ (":task#".toList ++ taskId)
  | none => kind.toList ++ (":from:".toList ++ message.sender.toList)

def digestKey (listed : ListedEntry) : MessageCategory × List Char :=
  let message := listed.1.1
  let category := classifyMessage message
  (category, match category with
    | .nudge => lowSignalGroupKey "nudge" message
    | .reminder => lowSignalGroupKey "reminder" message
    | .acknowledgement => lowSignalGroupKey "ack" message
    | .status => lowSignalGroupKey "status" message
    | _ => "individual:".toList ++ Nat.toDigits 10 listed.2)

abbrev DigestGroups := List ((MessageCategory × List Char) × List ListedEntry)

def digestGroups (messages : List (InboxMessage × Bool)) : DigestGroups :=
  groupInto digestKey messages.zipIdx

/-- An order in which the map of the groups can be gone through. -/
structure IterationOrder (listing : InboxListing) where
  groups : DigestGroups
  perm : groups.Perm (digestGroups listing.messages)

/-- The last of the entries with the greatest value. -/
def maxByKey {α : Type} (value : α → Nat) : List α → Option α
  | [] => none
  | a :: entries => some (entries.foldl (fun best b => if value best ≤ value b then b else best) a)

def latestOf (group : List ListedEntry) : Option ListedEntry :=
  maxByKey (fun listed => listed.1.1.timestamp) group

def DigestEntry.ofLatest (count : Nat) (latest : ListedEntry) : DigestEntry where
  message := latest.1.1
  delivered := latest.1.2
  category := classifyMessage latest.1.1
  collapsedCount := count

def DigestEntry.ofGroup (group : List ListedEntry) : Option DigestEntry :=
  (latestOf group).map (.ofLatest group.length)

def sortEntries (entries : List DigestEntry) : List DigestEntry :=
  entries.insertionSort fun entry entry' => entry.sortKey ≤ entry'.sortKey

section

variable {listing : InboxListing}

/-- The entries in the order in which they are pushed. -/
def IterationOrder.entries (order : IterationOrder listing) : List DigestEntry :=
  order.groups.filterMap fun group => DigestEntry.ofGroup group.2

def digestMessages (order : IterationOrder listing) : List DigestEntry × Nat :=
  (sortEntries order.entries, listing.messages.length)

/-! ### The display -/

def staleIds (tasks : List (Nat × String)) : List Nat :=
  (tasks.filter fun task => task.2 = "done" ∨ task.2 = "archived").map Prod.fst

def DigestEntry.demote (stale : List Nat) (entry : DigestEntry) : DigestEntry :=
  if entry.category ≠ .escalation ∧ entry.category ≠ .blocker then entry
  else
    let referenced := extractTaskIdsFromBody entry.message.body.toList
    if referenced.isEmpty then entry
    else if referenced.all fun id => id ∈ stale then { entry with category := .status }
    else entry

/-- The tasks are `none` if the board cannot be loaded. -/
def demoteStaleEscalations (entries : List DigestEntry) (tasks : Option (List (Nat × String))) :
    List DigestEntry :=
  match tasks with
  | none => entries
  | some tasks =>
    if (staleIds tasks).isEmpty then entries else entries.map (.demote (staleIds tasks))

def MessageCategory.label : MessageCategory → String
  | .escalation => "ESCALATION"
  | .reviewRequest => "REVIEW"
  | .dispatchAction => "DISPATCH"
  | .completionAction => "COMPLETION"
  | .blocker => "BLOCKER"
  | .status => "status"
  | .nudge => "nudge"
  | .reminder => "reminder"
  | .acknowledgement => "ack"

def padded (width : Nat) (text : String) : String :=
  text ++ String.ofList (List.replicate (width - text.length) ' ')

def truncateChars (input : String) (maxChars : Nat) : String :=
  if input.length ≤ maxChars then input
  else String.ofList (input.toList.take maxChars) ++ "..."

def columns (category status sender count body : String) : String :=
  " ".intercalate [padded 12 category, padded 10 status, padded 12 sender, padded 6 count, body]

def DigestEntry.row (entry : DigestEntry) : String :=
  columns entry.category.label (if entry.delivered then "delivered" else "pending")
    entry.message.sender (if 1 < entry.collapsedCount then s!"x{entry.collapsedCount}" else "")
    (truncateChars entry.message.body 140)

/-- What stands above the rows. -/
def digestHeader (rawCount digestCount shownCount : Nat) : List String :=
  let collapsed := rawCount - digestCount
  (if 0 < collapsed then
    [s!"Digest: {digestCount} entries from {rawCount} messages ({collapsed} collapsed). " ++
      "Use `--raw` for raw view."] else []) ++
  (if shownCount < digestCount then
    [s!"Showing {shownCount} of {digestCount} entries. Use `-n <N>` or `--all` to see more."]
    else []) ++
  [columns "CATEGORY" "STATUS" "FROM" "COUNT" "BODY", String.ofList (List.replicate 96 '-')]

/-- The tasks of the board, if there is one and it can be loaded. -/
abbrev DigestBoard := Option (Option (List (Nat × String)))

/-- The digest with what the board has settled further down. -/
def demotedEntries (board : DigestBoard) (entries : List DigestEntry) : List DigestEntry :=
  match board with
  | none => entries
  | some tasks => sortEntries (demoteStaleEscalations entries tasks)

/-- The lines of a digest. -/
def formatInboxDigest (member : String) (limit : Option Nat) (board : DigestBoard)
    (order : IterationOrder listing) : List String :=
  if listing.messages.isEmpty then [s!"No messages for {member}."]
  else
    let (entries, rawCount) := digestMessages order
    let entries := demotedEntries board entries
    let shown := entries.take (limit.getD entries.length)
    digestHeader rawCount entries.length shown.length ++ shown.map DigestEntry.row

end

/-! ### What a digest promises -/

/-- The messages of the category are shown one by one. -/
def MessageCategory.isIndividual : MessageCategory → Bool
  | .status | .nudge | .reminder | .acknowledgement => false
  | _ => true

/-- The entry stands for the messages of the group. -/
structure Represents (messages : List (InboxMessage × Bool)) (entry : DigestEntry)
    (group : List (InboxMessage × Bool)) : Prop where
  sublist : group.Sublist messages
  last : group.getLast? = some (entry.message, entry.delivered)
  count : entry.collapsedCount = group.length
  category : ∀ listed ∈ group, classifyMessage listed.1 = entry.category
  task : ∀ listed ∈ group,
    extractTaskId listed.1.body.toList = extractTaskId entry.message.body.toList
  sender : extractTaskId entry.message.body.toList = none →
    ∀ listed ∈ group, listed.1.sender = entry.message.sender
  alone : entry.category.isIndividual = true → group = [(entry.message, entry.delivered)]

/-- The entries stand for all messages, and are sorted by category and then newest first. -/
structure DigestPartitions (listing : InboxListing) (digest : List DigestEntry × Nat) : Prop where
  counts : (digest.1.map DigestEntry.collapsedCount).sum = digest.2
  rawCount : digest.2 = listing.messages.length
  groups : ∃ groups : List (List (InboxMessage × Bool)), groups.flatten.Perm listing.messages ∧
    List.Forall₂ (Represents listing.messages) digest.1 groups
  sorted : digest.1.Pairwise fun entry entry' => entry.sortKey ≤ entry'.sortKey

/-- The digest parts the messages, and looks the same whatever the order of iteration is. -/
def DigestFaithful (listing : InboxListing) (member : String) (limit : Option Nat)
    (board : DigestBoard) : Prop :=
  (∀ order : IterationOrder listing, DigestPartitions listing (digestMessages order)) ∧
    ∀ order order' : IterationOrder listing,
      formatInboxDigest member limit board order = formatInboxDigest member limit board order'

/-! ### When it looks the same -/

/-- The messages with no later one of their key. -/
def lastListed (messages : List (InboxMessage × Bool)) : List ListedEntry :=
  messages.zipIdx.filter fun listed => messages.zipIdx.all fun listed' =>
    digestKey listed' ≠ digestKey listed || listed'.2 ≤ listed.2

def listedLike (messages : List (InboxMessage × Bool)) (listed : ListedEntry) : List ListedEntry :=
  messages.zipIdx.filter (digestKey · = digestKey listed)

/-- What is to be shown, in the order of the messages. -/
def shownFor (messages : List (InboxMessage × Bool)) : List DigestEntry :=
  (lastListed messages).map fun listed => .ofLatest (listedLike messages listed).length listed

/-- An entry once the board has been looked at. -/
def DigestEntry.demoted (board : DigestBoard) (entry : DigestEntry) : DigestEntry :=
  match board with
  | some (some tasks) => if (staleIds tasks).isEmpty then entry else entry.demote (staleIds tasks)
  | _ => entry

/-- Where an entry is shown: by its category as the board leaves it and the time, and then by the
category of its message. -/
def DigestEntry.place (board : DigestBoard) (entry : DigestEntry) : (ℕ ×ₗ ℕᵒᵈ) ×ₗ (ℕ ×ₗ ℕᵒᵈ) :=
  toLex ((entry.demoted board).sortKey, entry.sortKey)

/-- Entries that have one place look alike, unless the limit leaves all of them out. -/
def TiesAlike (listing : InboxListing) (limit : Option Nat) (board : DigestBoard) : Prop :=
  let entries := shownFor listing.messages
  ∀ entry ∈ entries, ∀ entry' ∈ entries, entry.place board = entry'.place board →
    (entries.filter (DigestEntry.place board · < entry.place board)).length <
      limit.getD entries.length →
    (entry.demoted board).row = (entry'.demoted board).row

/-! ### The groups -/

theorem lowSignalGroupKey_inj {kind : String} {message message' : InboxMessage}
    (h : lowSignalGroupKey kind message = lowSignalGroupKey kind message') :
    extractTaskId message.body.toList = extractTaskId message'.body.toList ∧
      (extractTaskId message'.body.toList = none → message.sender = message'.sender) := by
  rw [lowSignalGroupKey, lowSignalGroupKey] at h
  cases htask : extractTaskId message.body.toList <;>
    cases htask' : extractTaskId message'.body.toList <;>
    simp_all [String.toList_inj]

@[simp] theorem digestKey_fst (listed : ListedEntry) :
    (digestKey listed).1 = classifyMessage listed.1.1 := rfl

theorem classifyMessage_of_digestKey {listed listed' : ListedEntry}
    (h : digestKey listed = digestKey listed') :
    classifyMessage listed.1.1 = classifyMessage listed'.1.1 := by
  rw [← digestKey_fst, ← digestKey_fst, h]

theorem eq_of_individual {listed listed' : ListedEntry} (h : digestKey listed = digestKey listed')
    (halone : (classifyMessage listed.1.1).isIndividual = true) : listed.2 = listed'.2 := by
  have hcategory := classifyMessage_of_digestKey h
  have hkey := congrArg Prod.snd h
  simp only [digestKey, ← hcategory] at hkey
  cases hclass : classifyMessage listed.1.1 <;> rw [hclass] at hkey halone <;>
    first
    | exact absurd halone (by decide)
    | exact Config.toDigits_inj (List.append_cancel_left hkey)

theorem topic_of_digestKey {listed listed' : ListedEntry} (h : digestKey listed = digestKey listed')
    (halone : (classifyMessage listed.1.1).isIndividual = false) :
    extractTaskId listed.1.1.body.toList = extractTaskId listed'.1.1.body.toList ∧
      (extractTaskId listed'.1.1.body.toList = none →
        listed.1.1.sender = listed'.1.1.sender) := by
  have hcategory := classifyMessage_of_digestKey h
  have hkey := congrArg Prod.snd h
  simp only [digestKey, ← hcategory] at hkey
  cases hclass : classifyMessage listed.1.1 <;> rw [hclass] at hkey halone <;>
    first
    | exact absurd halone (by decide)
    | exact lowSignalGroupKey_inj hkey

section

variable {α : Type} {value : α → Nat} {entries : List α}

/-- Of entries in the order of their values the last one is taken. -/
theorem maxByKey_of_sorted (h : entries.Pairwise fun a b => value a ≤ value b) :
    maxByKey value entries = entries.getLast? := by
  cases entries with
  | nil => rfl
  | cons first entries =>
    rw [maxByKey, List.getLast?_cons]
    induction entries generalizing first with
    | nil => rfl
    | cons b entries ih =>
      obtain ⟨hfirst, hrest⟩ := List.pairwise_cons.mp h
      rw [List.foldl_cons, if_pos (hfirst b List.mem_cons_self), ih b hrest, List.getLast?_cons,
        Option.getD_some]

end

section

variable {listing : InboxListing}

/-- A group of the digest: what has its key, in the order of the listing. -/
theorem IterationOrder.members (order : IterationOrder listing)
    {group : (MessageCategory × List Char) × List ListedEntry} (hmem : group ∈ order.groups) :
    group.2 = listing.messages.zipIdx.filter (digestKey · = group.1) :=
  (grouped_groupInto digestKey _).members group (order.perm.mem_iff.mp hmem)

theorem IterationOrder.ne_nil (order : IterationOrder listing)
    {group : (MessageCategory × List Char) × List ListedEntry} (hmem : group ∈ order.groups) :
    group.2 ≠ [] :=
  (grouped_groupInto digestKey _).ne_nil (order.perm.mem_iff.mp hmem)

/-- The message that a group is shown by is its last. -/
theorem IterationOrder.latestOf_eq (order : IterationOrder listing)
    {group : (MessageCategory × List Char) × List ListedEntry} (hmem : group ∈ order.groups) :
    latestOf group.2 = group.2.getLast? := by
  refine maxByKey_of_sorted ?_
  rw [order.members hmem]
  refine List.Pairwise.sublist List.filter_sublist ?_
  have hsorted := listing.sorted
  rw [← List.zipIdx_map_fst 0 listing.messages, List.pairwise_map] at hsorted
  exact hsorted

/-- What a group is shown by. -/
theorem IterationOrder.ofGroup_eq (order : IterationOrder listing)
    {group : (MessageCategory × List Char) × List ListedEntry} (hmem : group ∈ order.groups) :
    ∃ latest, group.2.getLast? = some latest ∧ digestKey latest = group.1 ∧
      DigestEntry.ofGroup group.2 = some (.ofLatest group.2.length latest) := by
  cases hlast : group.2.getLast? with
  | none => exact absurd (List.getLast?_eq_none_iff.mp hlast) (order.ne_nil hmem)
  | some latest =>
    have hlatest := List.mem_of_getLast? hlast
    rw [order.members hmem, List.mem_filter] at hlatest
    refine ⟨latest, rfl, by simpa using hlatest.2, ?_⟩
    rw [DigestEntry.ofGroup, order.latestOf_eq hmem, hlast, Option.map_some]

theorem nodup_zipIdx (messages : List (InboxMessage × Bool)) : messages.zipIdx.Nodup :=
  List.Nodup.of_map Prod.snd (List.nodup_zipIdx_map_snd messages)

theorem eq_of_index {listed listed' : ListedEntry} (hmem : listed ∈ listing.messages.zipIdx)
    (hmem' : listed' ∈ listing.messages.zipIdx) (h : listed.2 = listed'.2) : listed = listed' := by
  refine Prod.ext ?_ h
  have hget := List.mk_mem_zipIdx_iff_getElem?.mp hmem
  have hget' := List.mk_mem_zipIdx_iff_getElem?.mp hmem'
  rw [h, hget'] at hget
  exact (Option.some_inj.mp hget).symm

/-- The last of a group stands behind the others in the listing. -/
theorem IterationOrder.index_le (order : IterationOrder listing)
    {group : (MessageCategory × List Char) × List ListedEntry} (hmem : group ∈ order.groups)
    {latest listed : ListedEntry} (hlast : group.2.getLast? = some latest)
    (hlisted : listed ∈ group.2) : listed.2 ≤ latest.2 := by
  have hsorted : group.2.Pairwise fun listed listed' => listed.2 ≤ listed'.2 := by
    rw [order.members hmem]
    refine List.Pairwise.sublist List.filter_sublist ?_
    have hindices : (listing.messages.zipIdx.map Prod.snd).Pairwise fun i i' => i ≤ i' := by
      rw [List.zipIdx_map_snd]
      exact List.pairwise_le_range'
    exact List.pairwise_map.mp hindices
  obtain ⟨front, hfront⟩ := List.getLast?_eq_some_iff.mp hlast
  rw [hfront] at hsorted hlisted
  rcases List.mem_append.mp hlisted with hlisted | hlisted
  · exact (List.pairwise_append.mp hsorted).2.2 listed hlisted latest (List.mem_singleton_self _)
  · rw [List.mem_singleton.mp hlisted]

section

variable (order : IterationOrder listing) {group : (MessageCategory × List Char) × List ListedEntry}
  (hmem : group ∈ order.groups)
include hmem

theorem digestKey_of_mem_group {listed : ListedEntry} (hlisted : listed ∈ group.2) :
    digestKey listed = group.1 := by
  rw [order.members hmem, List.mem_filter] at hlisted
  simpa using hlisted.2

theorem mem_zipIdx_of_mem_group {listed : ListedEntry} (hlisted : listed ∈ group.2) :
    listed ∈ listing.messages.zipIdx := by
  rw [order.members hmem] at hlisted
  exact List.mem_of_mem_filter hlisted

theorem eq_of_mem_group {listed latest : ListedEntry} (hlisted : listed ∈ group.2)
    (hlatest : latest ∈ group.2) (halone : (classifyMessage latest.1.1).isIndividual = true) :
    listed = latest := by
  have hsame : digestKey listed = digestKey latest :=
    (digestKey_of_mem_group order hmem hlisted).trans
      (digestKey_of_mem_group order hmem hlatest).symm
  refine eq_of_index (mem_zipIdx_of_mem_group order hmem hlisted)
    (mem_zipIdx_of_mem_group order hmem hlatest) (eq_of_individual hsame ?_)
  rwa [classifyMessage_of_digestKey hsame]

theorem topic_of_mem_group {listed latest : ListedEntry} (hlisted : listed ∈ group.2)
    (hlatest : latest ∈ group.2) :
    extractTaskId listed.1.1.body.toList = extractTaskId latest.1.1.body.toList ∧
      (extractTaskId latest.1.1.body.toList = none →
        listed.1.1.sender = latest.1.1.sender) := by
  have hsame : digestKey listed = digestKey latest :=
    (digestKey_of_mem_group order hmem hlisted).trans
      (digestKey_of_mem_group order hmem hlatest).symm
  cases halone : (classifyMessage latest.1.1).isIndividual with
  | true =>
    rw [eq_of_mem_group order hmem hlisted hlatest halone]
    exact ⟨rfl, fun _ => rfl⟩
  | false =>
    refine topic_of_digestKey hsame ?_
    rwa [classifyMessage_of_digestKey hsame]

theorem represents_group {latest : ListedEntry} (hlast : group.2.getLast? = some latest) :
    Represents listing.messages (.ofLatest group.2.length latest) (group.2.map Prod.fst) := by
  have hmembers := order.members hmem
  have hlatest := List.mem_of_getLast? hlast
  refine ⟨?_, ?_, by rw [List.length_map]; rfl, ?_, ?_, ?_, ?_⟩
  · rw [← List.zipIdx_map_fst 0 listing.messages, hmembers]
    exact List.filter_sublist.map _
  · rw [List.getLast?_map, hlast]
    rfl
  · rw [List.forall_mem_map]
    exact fun listed hlisted => classifyMessage_of_digestKey
      ((digestKey_of_mem_group order hmem hlisted).trans
        (digestKey_of_mem_group order hmem hlatest).symm)
  · rw [List.forall_mem_map]
    exact fun listed hlisted => (topic_of_mem_group order hmem hlisted hlatest).1
  · rw [List.forall_mem_map]
    exact fun hnone listed hlisted => (topic_of_mem_group order hmem hlisted hlatest).2 hnone
  · intro halone
    have hsingle : group.2.Perm [latest] := by
      have hnodup : group.2.Nodup := hmembers ▸ (nodup_zipIdx _).filter _
      refine (List.perm_ext_iff_of_nodup hnodup (List.nodup_singleton _)).mpr fun listed => ?_
      rw [List.mem_singleton]
      exact ⟨fun hlisted => eq_of_mem_group order hmem hlisted hlatest halone,
        fun heq => heq ▸ hlatest⟩
    rw [List.perm_singleton.mp hsingle]
    rfl

end

theorem forall₂_filterMap {α β γ : Type} {R : β → γ → Prop} {f : α → Option β} {g : α → γ}
    {entries : List α} (h : ∀ a ∈ entries, ∃ b, f a = some b ∧ R b (g a)) :
    List.Forall₂ R (entries.filterMap f) (entries.map g) := by
  induction entries with
  | nil => exact .nil
  | cons a entries ih =>
    obtain ⟨⟨b, hb, hR⟩, hentries⟩ := List.forall_mem_cons.mp h
    rw [List.filterMap_cons_some hb, List.map_cons]
    exact .cons hR (ih hentries)

theorem forall₂_represents (order : IterationOrder listing) :
    List.Forall₂ (Represents listing.messages) order.entries
      (order.groups.map fun group => group.2.map Prod.fst) := by
  refine forall₂_filterMap fun group hmem => ?_
  obtain ⟨latest, hlast, -, hentry⟩ := order.ofGroup_eq hmem
  exact ⟨_, hentry, represents_group order hmem hlast⟩

theorem sum_collapsedCount {messages : List (InboxMessage × Bool)} {entries : List DigestEntry}
    {groups : List (List (InboxMessage × Bool))}
    (h : List.Forall₂ (Represents messages) entries groups) :
    (entries.map DigestEntry.collapsedCount).sum = groups.flatten.length := by
  induction h with
  | nil => rfl
  | cons hfirst _ ih =>
    rw [List.map_cons, List.sum_cons, ih, hfirst.count, List.flatten_cons, List.length_append]

/-- **A digest parts the messages**, whatever the order of iteration is. -/
theorem digestPartitions (order : IterationOrder listing) :
    DigestPartitions listing (digestMessages order) := by
  have hperm : (sortEntries order.entries).Perm order.entries := List.perm_insertionSort _ _
  obtain ⟨groups, hrepresents, hgroups⟩ :=
    List.perm_comp_forall₂ hperm (forall₂_represents order)
  have hflat : groups.flatten.Perm listing.messages := by
    refine (hgroups.flatten).trans ?_
    rw [← List.flatMap_def, ← List.map_flatMap, ← List.zipIdx_map_fst 0 listing.messages]
    exact (((order.perm.flatMap_right _).trans (grouped_groupInto digestKey _).perm).map _)
  exact {
    counts := by
      rw [digestMessages, sum_collapsedCount hrepresents, hflat.length_eq]
    rawCount := rfl
    groups := ⟨groups, hflat, hrepresents⟩
    sorted := pairwise_insertionSort_key _ _ }

/-! ### The rows -/

theorem mem_lastListed_iff (order : IterationOrder listing) {listed : ListedEntry} :
    listed ∈ lastListed listing.messages ↔
      ∃ group ∈ order.groups, group.2.getLast? = some listed := by
  have hgrouped := grouped_groupInto digestKey listing.messages.zipIdx
  rw [lastListed, List.mem_filter, List.all_eq_true]
  constructor
  · rintro ⟨hmem, hlast⟩
    obtain ⟨group, hgroup, hkey⟩ :=
      List.mem_map.mp ((hgrouped.mem_iff _).mpr ⟨listed, hmem, rfl⟩)
    have hgroup := order.perm.mem_iff.mpr hgroup
    obtain ⟨latest, hlatest, hlatestKey, -⟩ := order.ofGroup_eq hgroup
    refine ⟨group, hgroup, hlatest.trans (congrArg some ?_)⟩
    have hmemLatest := List.mem_of_getLast? hlatest
    have hmemListed : listed ∈ group.2 := by
      rw [order.members hgroup, List.mem_filter]
      exact ⟨hmem, by simpa using hkey.symm⟩
    have hin : latest ∈ listing.messages.zipIdx := by
      rw [order.members hgroup] at hmemLatest
      exact List.mem_of_mem_filter hmemLatest
    have hle : latest.2 ≤ listed.2 := by
      simpa [hlatestKey, hkey] using hlast latest hin
    -- The last of the group stands no earlier in the listing.
    exact eq_of_index hin hmem (hle.antisymm (order.index_le hgroup hlatest hmemListed))
  · rintro ⟨group, hgroup, hlast⟩
    have hmem := List.mem_of_getLast? hlast
    rw [order.members hgroup, List.mem_filter] at hmem
    refine ⟨hmem.1, fun listed' hmem' => ?_⟩
    rw [Bool.or_eq_true, decide_eq_true_iff, decide_eq_true_iff]
    by_cases hkey : digestKey listed' = digestKey listed
    · refine .inr (order.index_le hgroup hlast ?_)
      rw [order.members hgroup, List.mem_filter]
      exact ⟨hmem', by simpa [hkey] using hmem.2⟩
    · exact .inl hkey

/-- The entries are those of the last messages of each key, in some order. -/
theorem IterationOrder.entries_perm (order : IterationOrder listing) :
    order.entries.Perm (shownFor listing.messages) := by
  have hlatest : ∀ group ∈ order.groups, ∃ latest, group.2.getLast? = some latest ∧
      digestKey latest = group.1 ∧
      DigestEntry.ofGroup group.2 =
        some (.ofLatest (listedLike listing.messages latest).length latest) := by
    intro group hgroup
    obtain ⟨latest, hlast, hkey, hentry⟩ := order.ofGroup_eq hgroup
    refine ⟨latest, hlast, hkey, ?_⟩
    rw [hentry, listedLike, hkey, order.members hgroup]
  have hentries : order.entries = (order.groups.filterMap fun group => group.2.getLast?).map
      fun listed => .ofLatest (listedLike listing.messages listed).length listed := by
    rw [List.map_filterMap, IterationOrder.entries]
    refine List.filterMap_congr fun group hgroup => ?_
    obtain ⟨latest, hlast, -, hentry⟩ := hlatest group hgroup
    rw [hentry, hlast, Option.map_some]
  rw [hentries, shownFor]
  refine List.Perm.map _ ((List.perm_ext_iff_of_nodup ?_ ?_).mpr fun listed => ?_)
  · -- The groups have different keys, and so have their last messages.
    refine List.Nodup.of_map digestKey ?_
    have hkeys : (order.groups.filterMap fun group => group.2.getLast?).map digestKey =
        order.groups.map Prod.fst := by
      rw [List.map_filterMap, ← List.filterMap_eq_map]
      refine List.filterMap_congr fun group hgroup => ?_
      obtain ⟨latest, hlast, hkey, -⟩ := hlatest group hgroup
      rw [hlast, Option.map_some, hkey, Function.comp_apply]
    rw [hkeys]
    exact ((order.perm.map Prod.fst).nodup_iff).mpr (grouped_groupInto digestKey _).nodup
  · exact (nodup_zipIdx _).filter _
  · rw [List.mem_filterMap, mem_lastListed_iff order]

/-- The entries as they are shown, with the categories that they had before. -/
def resorted (board : DigestBoard) (entries : List DigestEntry) : List DigestEntry :=
  (sortEntries entries).insertionSort fun entry entry' =>
    (entry.demoted board).sortKey ≤ (entry'.demoted board).sortKey

theorem demotedEntries_sortEntries (board : DigestBoard) (entries : List DigestEntry) :
    demotedEntries board (sortEntries entries) =
      (resorted board entries).map (DigestEntry.demoted board) := by
  cases board with
  | none =>
    have hsorted := pairwise_insertionSort_key DigestEntry.sortKey entries
    rw [demotedEntries, resorted]
    refine Eq.trans ?_ (List.map_id _).symm
    exact (List.Pairwise.insertionSort_eq hsorted).symm
  | some tasks =>
    have hdemote : demoteStaleEscalations (sortEntries entries) tasks =
        (sortEntries entries).map (DigestEntry.demoted (some tasks)) := by
      cases tasks with
      | none => exact (List.map_id _).symm
      | some tasks =>
        cases hnone : (staleIds tasks).isEmpty with
        | true =>
          have hid : DigestEntry.demoted (some (some tasks)) = id := by
            funext entry
            rw [DigestEntry.demoted, if_pos hnone, id]
          rw [demoteStaleEscalations, if_pos hnone, hid, List.map_id]
        | false =>
          have hdemoted : DigestEntry.demoted (some (some tasks)) =
              DigestEntry.demote (staleIds tasks) := by
            funext entry
            rw [DigestEntry.demoted, if_neg (by simp [hnone])]
          rw [demoteStaleEscalations, if_neg (by simp [hnone]), hdemoted]
    rw [demotedEntries, hdemote, resorted, sortEntries]
    exact (List.map_insertionSort (fun entry entry' : DigestEntry =>
      (entry.demoted (some tasks)).sortKey ≤ (entry'.demoted (some tasks)).sortKey)
      (fun entry entry' => entry.sortKey ≤ entry'.sortKey) (DigestEntry.demoted (some tasks)) _
      fun _ _ _ _ => Iff.rfl).symm

theorem formatInboxDigest_eq (member : String) (limit : Option Nat) (board : DigestBoard)
    (order : IterationOrder listing) (hsome : listing.messages.isEmpty = false) :
    let count := (shownFor listing.messages).length
    formatInboxDigest member limit board order =
      digestHeader listing.messages.length count (min (limit.getD count) count) ++
        ((resorted board order.entries).take (limit.getD count)).map fun entry =>
          (entry.demoted board).row := by
  have hlength : (resorted board order.entries).length = (shownFor listing.messages).length := by
    rw [resorted, List.length_insertionSort, sortEntries, List.length_insertionSort,
      order.entries_perm.length_eq]
  simp only [formatInboxDigest, hsome, digestMessages, demotedEntries_sortEntries, List.length_map,
    hlength, List.length_take, ← List.map_take, List.map_map]
  rfl

/-- An order of iteration that comes to the group first. -/
theorem exists_order_cons {group : (MessageCategory × List Char) × List ListedEntry}
    (hmem : group ∈ digestGroups listing.messages) :
    ∃ (order : IterationOrder listing) (groups : DigestGroups), order.groups = group :: groups := by
  obtain ⟨before, after, hsplit⟩ := List.append_of_mem hmem
  refine ⟨⟨group :: (before ++ after), ?_⟩, before ++ after, rfl⟩
  rw [hsplit]
  exact List.perm_middle.symm

/-- In some order, the group of an entry is the one that is come to first. -/
theorem exists_entries_cons {entry : DigestEntry} (hmem : entry ∈ shownFor listing.messages) :
    ∃ (order : IterationOrder listing) (entries : List DigestEntry),
      order.entries = entry :: entries := by
  let asPushed : IterationOrder listing := ⟨_, .refl (digestGroups listing.messages)⟩
  obtain ⟨group, hgroup, hentry⟩ :=
    List.mem_filterMap.mp (asPushed.entries_perm.mem_iff.mpr hmem)
  obtain ⟨order, groups, horder⟩ := exists_order_cons hgroup
  refine ⟨order, groups.filterMap fun group => DigestEntry.ofGroup group.2, ?_⟩
  rw [IterationOrder.entries, horder]
  exact List.filterMap_cons_some hentry

theorem display_eq_iff (member : String) (limit : Option Nat) (board : DigestBoard) :
    (∀ order order' : IterationOrder listing,
      formatInboxDigest member limit board order = formatInboxDigest member limit board order') ↔
      TiesAlike listing limit board := by
  cases hempty : listing.messages.isEmpty with
  | true =>
    have hnone : listing.messages = [] := List.isEmpty_iff.mp hempty
    refine iff_of_true (fun order order' => ?_) ?_
    · rw [formatInboxDigest, formatInboxDigest, if_pos hempty, if_pos hempty]
    · rw [TiesAlike, hnone]
      exact fun entry hmem => nomatch hmem
  | false =>
    have htake := take_map_eq_iff (DigestEntry.place board)
      {entries | ∃ order : IterationOrder listing, entries = resorted board order.entries}
      (shownFor listing.messages) ?_ ?_ ?_
      (limit.getD (shownFor listing.messages).length) fun entry => (entry.demoted board).row
    · rw [TiesAlike, ← htake]
      constructor
      · rintro hsame entries ⟨order, rfl⟩ entries' ⟨order', rfl⟩
        have hlines := hsame order order'
        rw [formatInboxDigest_eq _ _ _ _ hempty, formatInboxDigest_eq _ _ _ _ hempty] at hlines
        exact List.append_cancel_left hlines
      · intro hsame order order'
        rw [formatInboxDigest_eq _ _ _ _ hempty, formatInboxDigest_eq _ _ _ _ hempty,
          hsame _ ⟨order, rfl⟩ _ ⟨order', rfl⟩]
    · rintro entries ⟨order, rfl⟩
      exact ((List.perm_insertionSort _ _).trans (List.perm_insertionSort _ _)).trans
        order.entries_perm
    · rintro entries ⟨order, rfl⟩
      exact pairwise_insertionSort_twice DigestEntry.sortKey
        (fun entry => (entry.demoted board).sortKey) order.entries
    · intro entry hmem
      obtain ⟨order, entries, hhead⟩ := exists_entries_cons hmem
      refine ⟨_, ⟨order, rfl⟩, ?_⟩
      have hfilter := filter_insertionSort_twice DigestEntry.sortKey
        (fun entry => (entry.demoted board).sortKey) order.entries entry.sortKey
        (entry.demoted board).sortKey
      rw [resorted, sortEntries]
      refine (congrArg List.head? hfilter).trans ?_
      rw [hhead, List.filter_cons_of_pos (by simp), List.head?_cons]

/-- **A digest is faithful** if and only if tied entries that are shown look alike. -/
theorem digestFaithful_iff (listing : InboxListing) (member : String) (limit : Option Nat)
    (board : DigestBoard) :
    DigestFaithful listing member limit board ↔ TiesAlike listing limit board := by
  rw [DigestFaithful, display_eq_iff]
  exact and_iff_right digestPartitions

end

/-! ### Two acknowledgements of one second -/

def ackFrom (id : Nat) (sender : String) : InboxMessage :=
  ⟨id, sender, "manager", "ack: rebased", .send, 10⟩

def twoAcks : InboxListing where
  messages := [(ackFrom 0 "eng-1", true), (ackFrom 1 "eng-2", true)]
  sorted := by simp [ackFrom]

/-- Which of the two stands above the other is up to the map. -/
theorem not_digestFaithful : ¬ ∀ (listing : InboxListing) (member : String) (limit : Option Nat)
    (board : DigestBoard), DigestFaithful listing member limit board := by
  intro h
  have hties := (display_eq_iff "manager" none none).mp (h twoAcks "manager" none none).2
  rw [TiesAlike] at hties
  revert hties
  decide +kernel

end Batty
