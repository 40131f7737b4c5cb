import Batty.Board.Mutators
import Batty.Foundation.Sifting
import Batty.Foundation.Trimming
import Batty.Foundation.Words
import Batty.Tact.Planning
import Mathlib.Data.String.Basic

/-!
# Duplicates among generated tasks

Of the tasks that are proposed those are dropped that repeat the title or the specification of an
open task or of a proposal before them. Texts are compared by what is left of them in lower case
when runs of anything but ASCII letters and digits are taken for a space.

* `dedupeGeneratedTasks_eq`: a proposal is kept exactly if it shares no key with an open task and
  with no proposal before it, kept or not.
* `dropsOnlyDuplicates_iff`: when only duplicates are dropped, and all of them. Bodies without an
  ASCII letter or digit are all the same to the keys, and titles without one are never compared.

Which characters are letters and digits, and what their lower case is, is the language's.
-/

namespace Batty

abbrev GeneratedTask := TaskSpec

/-- Letters and digits of all scripts, and lower case. -/
structure Unicode where
  isAlphanumeric : Char → Bool
  toLowercase : Char → List Char
  isAlphanumeric_ascii : ∀ c, c.isAlphanum = true → isAlphanumeric c = true

variable {unicode : Unicode}

/-! ### Keys -/

/-- The characters that are kept, with a space for each run of others. -/
def collapse (lastWasSpace : Bool) : List Char → List Char
  | [] => []
  | c :: s =>
    if c.isAlphanum then c :: collapse false s
    else if lastWasSpace then collapse true s
    else ' ' :: collapse true s

def normalizeGeneratedText (unicode : Unicode) (value : String) : String :=
  String.ofList (Text.trim (collapse false (value.toList.flatMap unicode.toLowercase)))

def generatedTags (unicode : Unicode) (tags : List String) : List String :=
  (((tags.map (normalizeGeneratedText unicode)).filter (· ≠ "")).insertionSort (· ≤ ·)).dedup

def generatedTaskEquivalenceKey (unicode : Unicode) (task : GeneratedTask) : String :=
  normalizeGeneratedText unicode task.body ++ "|" ++
    ((task.priority.map (normalizeGeneratedText unicode)).getD "") ++ "|" ++
    ",".intercalate (generatedTags unicode task.tags) ++ "|" ++
    ",".intercalate (task.dependsOn.map toString)

def isOpenTaskStatus (status : String) : Bool := status ≠ "done" && status ≠ "archived"

/-- A task of the board as if it was proposed; one without a body has no specification. -/
def boardSpec (task : Task) : Option GeneratedTask :=
  let body := Text.trim task.description.toList
  if body = [] then none
  else some {
    title := task.title, body := String.ofList body, priority := some task.priority
    dependsOn := task.dependsOn, tags := task.tags }

/-! ### Dropping duplicates -/

/-- The keys of the board and of what was kept, and those of all that was seen. -/
structure DedupeKeys where
  openTitles : List String
  openSpecs : List String
  seenTitles : List String
  seenSpecs : List String

def insertKey (key : String) (keys : List String) : List String :=
  if key = "" then keys else key :: keys

def dedupeFrom (unicode : Unicode) (keys : DedupeKeys) : List GeneratedTask → List GeneratedTask
  | [] => []
  | task :: proposed =>
    let titleKey := normalizeGeneratedText unicode task.title
    let specKey := generatedTaskEquivalenceKey unicode task
    let duplicateTitle := titleKey ≠ "" &&
      (keys.seenTitles.contains titleKey || keys.openTitles.contains titleKey)
    let duplicateSpec := specKey ≠ "" &&
      (keys.seenSpecs.contains specKey || keys.openSpecs.contains specKey)
    let keys := { keys with
      seenTitles := insertKey titleKey keys.seenTitles
      seenSpecs := insertKey specKey keys.seenSpecs }
    if duplicateTitle || duplicateSpec then dedupeFrom unicode keys proposed
    else
      task :: dedupeFrom unicode { keys with
        openTitles := insertKey titleKey keys.openTitles
        openSpecs := insertKey specKey keys.openSpecs } proposed

def openTasks (existing : List Task) : List Task :=
  existing.filter fun task => isOpenTaskStatus task.status

/-- Drop the tasks that the board has, or that came before. -/
def dedupeGeneratedTasks (unicode : Unicode) (existing : List Task)
    (proposed : List GeneratedTask) : List GeneratedTask :=
  dedupeFrom unicode {
    openTitles := ((openTasks existing).map fun task =>
      normalizeGeneratedText unicode task.title).filter (· ≠ "")
    openSpecs := ((openTasks existing).filterMap boardSpec).map
      (generatedTaskEquivalenceKey unicode)
    seenTitles := []
    seenSpecs := [] } proposed

/-! ### What is a duplicate -/

/-- The words of a text in lower case: what is left of it without case, punctuation and
whitespace. -/
def textWords (unicode : Unicode) (text : String) : List (List Char) :=
  words unicode.isAlphanumeric (text.toList.flatMap unicode.toLowercase)

def SameTitle (unicode : Unicode) (title title' : String) : Prop :=
  textWords unicode title ≠ [] ∧ textWords unicode title = textWords unicode title'

/-- Body, priority and tags have the same words, and the dependencies are the same. -/
structure SameSpec (unicode : Unicode) (task task' : GeneratedTask) : Prop where
  body : textWords unicode task.body = textWords unicode task'.body
  priority : textWords unicode (task.priority.getD "") = textWords unicode (task'.priority.getD "")
  tags : ∀ tag ≠ [], tag ∈ task.tags.map (textWords unicode) ↔
    tag ∈ task'.tags.map (textWords unicode)
  dependsOn : task.dependsOn = task'.dependsOn

def IsDuplicate (unicode : Unicode) (task task' : GeneratedTask) : Prop :=
  SameTitle unicode task.title task'.title ∨ SameSpec unicode task task'

/-- There is such a task on the board, and it is open. -/
def OnBoard (unicode : Unicode) (existing : List Task) (proposal : GeneratedTask) : Prop :=
  ∃ task ∈ openTasks existing, SameTitle unicode task.title proposal.title ∨
    ∃ spec ∈ boardSpec task, SameSpec unicode spec proposal

/-- **Dropping duplicates.** Some of the proposals are kept, in their order: none that is on the
board or repeats one that is kept. What is dropped is on the board or repeats one that was kept
before it. Doing it again changes nothing. -/
structure DropsOnlyDuplicates (unicode : Unicode) (existing : List Task)
    (proposed : List GeneratedTask) : Prop where
  subsequence : (dedupeGeneratedTasks unicode existing proposed).Sublist proposed
  distinct : (dedupeGeneratedTasks unicode existing proposed).Pairwise fun task task' =>
    ¬ IsDuplicate unicode task task'
  new : ∀ task ∈ dedupeGeneratedTasks unicode existing proposed, ¬ OnBoard unicode existing task
  sifted : Sifted (IsDuplicate unicode) (OnBoard unicode existing) [] proposed
    (dedupeGeneratedTasks unicode existing proposed)
  idempotent : dedupeGeneratedTasks unicode existing (dedupeGeneratedTasks unicode existing
    proposed) = dedupeGeneratedTasks unicode existing proposed

/-! ### When keys tell tasks apart -/

/-- The two share a key. -/
def sharesKey (unicode : Unicode) (task task' : GeneratedTask) : Bool :=
  (normalizeGeneratedText unicode task'.title ≠ "" &&
    normalizeGeneratedText unicode task.title = normalizeGeneratedText unicode task'.title) ||
  generatedTaskEquivalenceKey unicode task = generatedTaskEquivalenceKey unicode task'

/-- An open task shares a key with the proposal. -/
def boardSharesKey (unicode : Unicode) (existing : List Task) (proposal : GeneratedTask) : Bool :=
  (openTasks existing).any fun task =>
    (normalizeGeneratedText unicode proposal.title ≠ "" &&
      normalizeGeneratedText unicode task.title = normalizeGeneratedText unicode proposal.title) ||
    (boardSpec task).any fun spec =>
      generatedTaskEquivalenceKey unicode spec = generatedTaskEquivalenceKey unicode proposal

/-- The proposals that share no key with an open task and with no proposal before them. -/
def originals (unicode : Unicode) (existing : List Task) (proposed : List GeneratedTask) :
    List GeneratedTask :=
  firstsFrom (sharesKey unicode) (boardSharesKey unicode existing) [] proposed

/-- The same title, in which there is no ASCII letter or digit. -/
def SameForeignTitle (unicode : Unicode) (title title' : String) : Prop :=
  normalizeGeneratedText unicode title' = "" ∧ SameTitle unicode title title'

/-- A proposal that shares a key with an open task or with a proposal before it is a duplicate of
an open task or of an original before it; and an original has no title without ASCII letters and
digits that an open task or an original before it has too. -/
def TellsApart (unicode : Unicode) (existing : List Task) (proposed : List GeneratedTask) : Prop :=
  ∀ before task after, proposed = before ++ task :: after →
    if (boardSharesKey unicode existing task || before.any (sharesKey unicode · task)) = true then
      OnBoard unicode existing task ∨
        ∃ original ∈ originals unicode existing before, IsDuplicate unicode original task
    else
      (∀ other ∈ openTasks existing, ¬ SameForeignTitle unicode other.title task.title) ∧
        ∀ original ∈ originals unicode existing before,
          ¬ SameForeignTitle unicode original.title task.title

/-! ### Normalized texts -/

theorem trimEndMatches_word {p : Char → Bool} {word : List Char} (h : ∀ c ∈ word, p c = false) :
    Text.trimEndMatches p word = word := by
  have hhead : ∀ c ∈ word.reverse.head?, p c = false := fun c hc =>
    h c (List.mem_reverse.mp (List.mem_of_mem_head? hc))
  rw [Text.trimEndMatches, Text.dropWhile_of_head hhead, List.reverse_reverse]

theorem intercalate_eq_nil_iff {pieces : List (List Char)} (h : ∀ piece ∈ pieces, piece ≠ []) :
    [' '].intercalate pieces = [] ↔ pieces = [] := by
  cases pieces with
  | nil => simp
  | cons piece pieces =>
    have hpiece := h piece List.mem_cons_self
    cases pieces <;> simp [List.intercalate, List.intersperse, hpiece]

/-- What is left when the end of a collapsed text is trimmed, after a word and after a space. -/
theorem trimEnd_collapse (s : List Char) :
    (∀ current ≠ [], (∀ c ∈ current, c.isAlphanum = true) →
      Text.trimEndMatches Text.isWhitespace (current ++ collapse false s) =
        [' '].intercalate (wordsFrom Char.isAlphanum current s)) ∧
      Text.trimEndMatches Text.isWhitespace (collapse true s) =
        [' '].intercalate (words Char.isAlphanum s) := by
  have hword : ∀ word : List Char, (∀ c ∈ word, c.isAlphanum = true) →
      Text.trimEndMatches Text.isWhitespace word = word := fun word h =>
    trimEndMatches_word fun c hc => Text.isWhitespace_of_isAlphanum (h c hc)
  induction s with
  | nil =>
    refine ⟨fun current hne hcurrent => ?_, rfl⟩
    rw [collapse, List.append_nil, hword current hcurrent, wordsFrom,
      if_neg (by simpa using hne)]
    simp
  | cons c s ih =>
    obtain ⟨hcurrent, hspace⟩ := ih
    cases hc : c.isAlphanum with
    | true =>
      simp only [collapse, words, wordsFrom, hc, if_true, List.nil_append]
      refine ⟨fun current hne hall => ?_, ?_⟩
      · have hlonger := hcurrent (current ++ [c]) (by simp) fun d hd => by
          rcases List.mem_append.mp hd with hd | hd
          · exact hall d hd
          · rw [List.mem_singleton.mp hd, hc]
        rwa [List.append_assoc, List.singleton_append] at hlonger
      · exact hcurrent [c] (by simp) (by simp [hc])
    | false =>
      simp only [collapse, words, wordsFrom, hc, Bool.false_eq_true, if_false, if_true,
        List.isEmpty_nil]
      refine ⟨fun current hne hall => ?_, hspace⟩
      have hgap := Text.trimEndMatches_append Text.isWhitespace [' '] (collapse true s)
      rw [hspace, List.singleton_append] at hgap
      have hcurrent' : current.isEmpty = false := by simpa using hne
      rw [Text.trimEndMatches_append, hgap, hword current hall, hcurrent', if_neg Bool.false_ne_true,
        ← words]
      have hnil := @intercalate_eq_nil_iff (words Char.isAlphanum s) fun piece hpiece =>
        (mem_words_iff.mp hpiece).1
      cases hwords : words Char.isAlphanum s with
      | nil => simp [Text.trimEndMatches, Text.isWhitespace]
      | cons word rest =>
        have hne' : [' '].intercalate (word :: rest) ≠ [] := fun h => by
          rw [hwords] at hnil
          cases hnil.mp h
        rw [if_neg hne', if_neg (by simp)]
        simp [List.intercalate, List.intersperse]

theorem head?_collapse (s : List Char) :
    ∀ c ∈ (collapse true s).head?, Text.isWhitespace c = false := by
  induction s with
  | nil => exact nofun
  | cons c s ih =>
    rw [collapse]
    split
    · rename_i hc
      intro d hd
      obtain rfl := Option.some.inj hd
      exact Text.isWhitespace_of_isAlphanum hc
    · exact ih

theorem trim_collapse (s : List Char) :
    Text.trim (collapse false s) = [' '].intercalate (words Char.isAlphanum s) := by
  rw [Text.trim, Text.trimStartMatches]
  cases s with
  | nil => rfl
  | cons c s =>
    cases hc : c.isAlphanum with
    | true =>
      have hword := (trimEnd_collapse s).1 [c] (by simp) (by simp [hc])
      rw [collapse, if_pos hc, List.dropWhile_cons_of_neg (by simp [Text.isWhitespace_of_isAlphanum hc])]
      simpa [words, wordsFrom, hc] using hword
    | false =>
      have hspace := (trimEnd_collapse s).2
      simp only [collapse, hc, Bool.false_eq_true, if_false]
      rw [List.dropWhile_cons_of_pos (by decide), Text.dropWhile_of_head (head?_collapse s), hspace]
      simp [words, wordsFrom, hc]

/-- A normalized text is made of the words that the characters it keeps are in. -/
theorem normalizeGeneratedText_eq (value : String) : normalizeGeneratedText unicode value =
    String.ofList ([' '].intercalate (words Char.isAlphanum
      (value.toList.flatMap unicode.toLowercase))) := by
  rw [normalizeGeneratedText, trim_collapse]

/-- Texts with the same words are normalized to the same text. -/
theorem normalizeGeneratedText_congr {value value' : String}
    (h : textWords unicode value = textWords unicode value') :
    normalizeGeneratedText unicode value = normalizeGeneratedText unicode value' := by
  rw [normalizeGeneratedText_eq, normalizeGeneratedText_eq,
    words_flatMap unicode.isAlphanumeric_ascii, words_flatMap unicode.isAlphanumeric_ascii]
  rw [textWords, textWords] at h
  rw [h]

theorem generatedTaskEquivalenceKey_ne (unicode : Unicode) (task : GeneratedTask) :
    generatedTaskEquivalenceKey unicode task ≠ "" := by
  intro h
  have hlist := congrArg String.toList h
  simp [generatedTaskEquivalenceKey] at hlist

/-! ### What is kept -/

/-- The keys at hand are those of the board and of the proposals seen so far. -/
structure TracksKeys (onBoard : String → Prop) (keyOf : GeneratedTask → String)
    (seen : List GeneratedTask) (seenKeys openKeys : List String) : Prop where
  mem_iff : ∀ key ≠ "",
    key ∈ seenKeys ∨ key ∈ openKeys ↔ onBoard key ∨ ∃ task ∈ seen, keyOf task = key

def TitleOnBoard (unicode : Unicode) (existing : List Task) (key : String) : Prop :=
  ∃ task ∈ openTasks existing, normalizeGeneratedText unicode task.title = key

def SpecOnBoard (unicode : Unicode) (existing : List Task) (key : String) : Prop :=
  ∃ task ∈ openTasks existing, ∃ spec ∈ boardSpec task,
    generatedTaskEquivalenceKey unicode spec = key

/-- The keys are those of the tasks that were seen. -/
structure Tracks (unicode : Unicode) (existing : List Task) (seen : List GeneratedTask)
    (keys : DedupeKeys) : Prop where
  titles : TracksKeys (TitleOnBoard unicode existing)
    (fun task => normalizeGeneratedText unicode task.title) seen keys.seenTitles keys.openTitles
  specs : TracksKeys (SpecOnBoard unicode existing) (generatedTaskEquivalenceKey unicode) seen
    keys.seenSpecs keys.openSpecs

theorem mem_insertKey {key key' : String} {keys : List String} (h : key' ≠ "") :
    key' ∈ insertKey key keys ↔ key = key' ∨ key' ∈ keys := by
  unfold insertKey
  split
  · rename_i hempty
    rw [hempty]
    exact (or_iff_right (Ne.symm h)).symm
  · rw [List.mem_cons, eq_comm]

section

variable {existing : List Task} {seen proposed : List GeneratedTask} {keys : DedupeKeys}
  {onBoard : String → Prop} {keyOf : GeneratedTask → String} {seenKeys openKeys : List String}

/-- A task that is seen brings its key, which may be counted as the board's too. -/
theorem TracksKeys.insert (h : TracksKeys onBoard keyOf seen seenKeys openKeys)
    (task : GeneratedTask) (openKeys' : List String)
    (hopen : openKeys' = openKeys ∨ openKeys' = insertKey (keyOf task) openKeys) :
    TracksKeys onBoard keyOf (seen ++ [task]) (insertKey (keyOf task) seenKeys) openKeys' := by
  refine ⟨fun key hkey => ?_⟩
  have hold : key ∈ openKeys' → keyOf task = key ∨ key ∈ openKeys := by
    rcases hopen with rfl | rfl
    · exact .inr
    · exact (mem_insertKey hkey).mp
  have hkept : key ∈ openKeys → key ∈ openKeys' := by
    rcases hopen with rfl | rfl
    · exact id
    · exact fun hmem => (mem_insertKey hkey).mpr (.inr hmem)
  have hseen : (∃ other ∈ seen ++ [task], keyOf other = key) ↔
      (∃ other ∈ seen, keyOf other = key) ∨ keyOf task = key := by
    simp [or_and_right, exists_or]
  rw [mem_insertKey hkey, hseen, ← or_assoc, ← h.mem_iff key hkey]
  constructor
  · rintro ((hnew | hmem) | hmem)
    · exact .inr hnew
    · exact .inl (.inl hmem)
    · exact (hold hmem).symm.imp .inr id
  · rintro ((hmem | hmem) | hnew)
    · exact .inl (.inr hmem)
    · exact .inr (hkept hmem)
    · exact .inl (.inl hnew)

theorem TracksKeys.contains_iff (h : TracksKeys onBoard keyOf seen seenKeys openKeys)
    {key : String} : (key ≠ "" && (seenKeys.contains key || openKeys.contains key)) = true ↔
      key ≠ "" ∧ (onBoard key ∨ ∃ task ∈ seen, keyOf task = key) := by
  rw [Bool.and_eq_true, decide_eq_true_eq, Bool.or_eq_true, List.contains_iff_mem,
    List.contains_iff_mem]
  exact and_congr_right (h.mem_iff key)

theorem boardSharesKey_iff {task : GeneratedTask} : boardSharesKey unicode existing task = true ↔
    (normalizeGeneratedText unicode task.title ≠ "" ∧
        TitleOnBoard unicode existing (normalizeGeneratedText unicode task.title)) ∨
      SpecOnBoard unicode existing (generatedTaskEquivalenceKey unicode task) := by
  simp only [boardSharesKey, TitleOnBoard, SpecOnBoard, List.any_eq_true, Bool.or_eq_true,
    Bool.and_eq_true, decide_eq_true_eq, Option.any_eq_true, and_or_left, exists_or]
  refine or_congr_left ⟨?_, ?_⟩
  · rintro ⟨other, hother, hne, hkey⟩
    exact ⟨hne, other, hother, hkey⟩
  · rintro ⟨hne, other, hother, hkey⟩
    exact ⟨other, hother, hne, hkey⟩

theorem any_sharesKey_iff {task : GeneratedTask} : seen.any (sharesKey unicode · task) = true ↔
    (normalizeGeneratedText unicode task.title ≠ "" ∧ ∃ other ∈ seen,
        normalizeGeneratedText unicode other.title = normalizeGeneratedText unicode task.title) ∨
      ∃ other ∈ seen, generatedTaskEquivalenceKey unicode other =
        generatedTaskEquivalenceKey unicode task := by
  simp only [sharesKey, List.any_eq_true, Bool.or_eq_true, Bool.and_eq_true, decide_eq_true_eq,
    and_or_left, exists_or]
  refine or_congr_left ⟨?_, ?_⟩
  · rintro ⟨other, hother, hne, hkey⟩
    exact ⟨hne, other, hother, hkey⟩
  · rintro ⟨hne, other, hother, hkey⟩
    exact ⟨other, hother, hne, hkey⟩

/-- The keys at hand decide as the tasks do that they come from. -/
theorem Tracks.duplicate_eq (h : Tracks unicode existing seen keys) (task : GeneratedTask) :
    ((normalizeGeneratedText unicode task.title ≠ "" &&
        (keys.seenTitles.contains (normalizeGeneratedText unicode task.title) ||
          keys.openTitles.contains (normalizeGeneratedText unicode task.title))) ||
      (generatedTaskEquivalenceKey unicode task ≠ "" &&
        (keys.seenSpecs.contains (generatedTaskEquivalenceKey unicode task) ||
          keys.openSpecs.contains (generatedTaskEquivalenceKey unicode task)))) =
      (boardSharesKey unicode existing task || seen.any (sharesKey unicode · task)) := by
  rw [Bool.eq_iff_iff, Bool.or_eq_true, Bool.or_eq_true, h.titles.contains_iff,
    h.specs.contains_iff, boardSharesKey_iff, any_sharesKey_iff,
    and_iff_right (generatedTaskEquivalenceKey_ne unicode task), and_or_left]
  exact or_or_or_comm

theorem TracksKeys.tracks {openTitles openSpecs seenTitles seenSpecs : List String}
    (htitles : TracksKeys (TitleOnBoard unicode existing)
      (fun task => normalizeGeneratedText unicode task.title) seen seenTitles openTitles)
    (hspecs : TracksKeys (SpecOnBoard unicode existing) (generatedTaskEquivalenceKey unicode) seen
      seenSpecs openSpecs) :
    Tracks unicode existing seen { openTitles, openSpecs, seenTitles, seenSpecs } :=
  ⟨htitles, hspecs⟩

theorem dedupeFrom_eq (h : Tracks unicode existing seen keys) :
    dedupeFrom unicode keys proposed =
      firstsFrom (sharesKey unicode) (boardSharesKey unicode existing) seen proposed := by
  induction proposed generalizing seen keys with
  | nil => rfl
  | cons task proposed ih =>
    have hdropped := h.titles.insert task keys.openTitles (.inl rfl)
    have hdropped' := h.specs.insert task keys.openSpecs (.inl rfl)
    have hkept := h.titles.insert task _ (.inr rfl)
    have hkept' := h.specs.insert task _ (.inr rfl)
    simp only [dedupeFrom, firstsFrom, h.duplicate_eq task]
    rw [ih (hdropped.tracks hdropped'), ih (hkept.tracks hkept')]

/-- **What is kept** is what shares no key with an open task or with any proposal before it. -/
theorem dedupeGeneratedTasks_eq (unicode : Unicode) (existing : List Task)
    (proposed : List GeneratedTask) :
    dedupeGeneratedTasks unicode existing proposed = originals unicode existing proposed := by
  refine dedupeFrom_eq ⟨⟨fun key hkey => ?_⟩, ⟨fun key hkey => ?_⟩⟩
  · simp only [List.not_mem_nil, false_or, List.mem_filter, List.mem_map, decide_eq_true_eq,
      false_and, exists_false, or_false]
    exact and_iff_left hkey
  · simp only [List.not_mem_nil, false_or, List.mem_map, List.mem_filterMap, false_and,
      exists_false, or_false]
    constructor
    · rintro ⟨spec, ⟨task, htask, hspec⟩, hkey⟩
      exact ⟨task, htask, spec, hspec, hkey⟩
    · rintro ⟨task, htask, spec, hspec, hkey⟩
      exact ⟨spec, ⟨task, htask, hspec⟩, hkey⟩

end

/-! ### Duplicates share keys -/

section

variable {existing : List Task} {proposed : List GeneratedTask} {task other : GeneratedTask}

/-- A sorted list without repetitions is told by its members. -/
theorem dedup_insertionSort_congr {keys keys' : List String} (h : ∀ key, key ∈ keys ↔ key ∈ keys') :
    (keys.insertionSort (· ≤ ·)).dedup = (keys'.insertionSort (· ≤ ·)).dedup := by
  have hsorted : ∀ keys : List String, (keys.insertionSort (· ≤ ·)).dedup.Pairwise (· ≤ ·) :=
    fun keys => (List.pairwise_insertionSort _ _).sublist (List.dedup_sublist _)
  refine List.Perm.eq_of_pairwise (fun a b _ _ => le_antisymm) (hsorted keys) (hsorted keys') ?_
  refine (List.perm_ext_iff_of_nodup (List.nodup_dedup _) (List.nodup_dedup _)).mpr fun key => ?_
  rw [List.mem_dedup, List.mem_dedup, List.mem_insertionSort, List.mem_insertionSort]
  exact h key

theorem normalizeGeneratedText_of_words {value : String} (h : textWords unicode value = []) :
    normalizeGeneratedText unicode value = "" := by
  rw [normalizeGeneratedText_eq, words_flatMap unicode.isAlphanumeric_ascii, ← textWords, h]
  rfl

theorem mem_generatedTags {tags tags' : List String}
    (h : ∀ tag ≠ [], tag ∈ tags.map (textWords unicode) → tag ∈ tags'.map (textWords unicode))
    {key : String} (hmem : key ∈ (tags.map (normalizeGeneratedText unicode)).filter (· ≠ "")) :
    key ∈ (tags'.map (normalizeGeneratedText unicode)).filter (· ≠ "") := by
  simp only [List.mem_filter, List.mem_map, decide_eq_true_eq] at hmem ⊢
  obtain ⟨⟨tag, htag, rfl⟩, hne⟩ := hmem
  have hwords : textWords unicode tag ≠ [] := fun hnil => hne (normalizeGeneratedText_of_words hnil)
  obtain ⟨tag', htag', heq⟩ := List.mem_map.mp (h _ hwords (List.mem_map_of_mem htag))
  exact ⟨⟨tag', htag', normalizeGeneratedText_congr heq⟩, hne⟩

theorem SameSpec.key (h : SameSpec unicode other task) :
    generatedTaskEquivalenceKey unicode other = generatedTaskEquivalenceKey unicode task := by
  have hpriority : ∀ priority : Option String,
      (priority.map (normalizeGeneratedText unicode)).getD "" =
        normalizeGeneratedText unicode (priority.getD "") := by
    intro priority
    cases priority with
    | none => exact (normalizeGeneratedText_of_words rfl).symm
    | some priority => rfl
  have htags : generatedTags unicode other.tags = generatedTags unicode task.tags :=
    dedup_insertionSort_congr fun key =>
      ⟨mem_generatedTags fun tag hne => (h.tags tag hne).mp,
        mem_generatedTags fun tag hne => (h.tags tag hne).mpr⟩
  rw [generatedTaskEquivalenceKey, generatedTaskEquivalenceKey, hpriority, hpriority, htags,
    h.dependsOn, normalizeGeneratedText_congr h.body, normalizeGeneratedText_congr h.priority]

/-- Equal titles have equal keys, which are empty only without ASCII letters and digits. -/
theorem SameTitle.key {title title' : String} (h : SameTitle unicode title title') :
    normalizeGeneratedText unicode title' ≠ "" ∧
        normalizeGeneratedText unicode title = normalizeGeneratedText unicode title' ∨
      SameForeignTitle unicode title title' := by
  by_cases hempty : normalizeGeneratedText unicode title' = ""
  · exact .inr ⟨hempty, h⟩
  · exact .inl ⟨hempty, normalizeGeneratedText_congr h.2⟩

theorem sharesKey_iff : sharesKey unicode other task = true ↔
    (normalizeGeneratedText unicode task.title ≠ "" ∧
        normalizeGeneratedText unicode other.title = normalizeGeneratedText unicode task.title) ∨
      generatedTaskEquivalenceKey unicode other = generatedTaskEquivalenceKey unicode task := by
  simp [sharesKey]

theorem sharesKey_self (task : GeneratedTask) : sharesKey unicode task task = true :=
  sharesKey_iff.mpr (.inr rfl)

/-- A duplicate that shares no key has the same title without ASCII letters and digits. -/
theorem isDuplicate_iff (h : sharesKey unicode other task = false) :
    IsDuplicate unicode other task ↔ SameForeignTitle unicode other.title task.title := by
  have hno := mt sharesKey_iff.mpr (Bool.eq_false_iff.mp h)
  rw [not_or] at hno
  constructor
  · rintro (htitle | hspec)
    · exact htitle.key.resolve_left hno.1
    · exact absurd hspec.key hno.2
  · exact fun hforeign => .inl hforeign.2

theorem onBoard_iff (h : boardSharesKey unicode existing task = false) :
    OnBoard unicode existing task ↔
      ∃ other ∈ openTasks existing, SameForeignTitle unicode other.title task.title := by
  have hno := mt boardSharesKey_iff.mpr (Bool.eq_false_iff.mp h)
  rw [not_or] at hno
  constructor
  · rintro ⟨other, hother, htitle | ⟨spec, hspec, hsame⟩⟩
    · refine ⟨other, hother, htitle.key.resolve_left fun hkey => hno.1 ⟨hkey.1, other, hother, ?_⟩⟩
      exact hkey.2
    · exact absurd ⟨other, hother, spec, hspec, hsame.key⟩ hno.2
  · rintro ⟨other, hother, hforeign⟩
    exact ⟨other, hother, .inl hforeign.2⟩

/-! ### When only duplicates are dropped -/

theorem mem_originals (h : other ∈ originals unicode existing proposed) : other ∈ proposed :=
  firstsFrom_sublist.subset h

theorem sifted_iff : Sifted (IsDuplicate unicode) (OnBoard unicode existing) [] proposed
    (originals unicode existing proposed) ↔ TellsApart unicode existing proposed := by
  rw [originals, sifted_firstsFrom_iff sharesKey_self]
  refine forall₄_congr fun before task after heq => ?_
  simp only [List.nil_append]
  rw [← originals]
  split
  · rename_i hshares
    simp only [hshares, true_iff]
  · rename_i hshares
    rw [Bool.or_eq_true, not_or, Bool.not_eq_true, Bool.not_eq_true] at hshares
    obtain ⟨hboard, hbefore⟩ := hshares
    have hkeys : ∀ original ∈ originals unicode existing before,
        sharesKey unicode original task = false := fun original hmem => by
      simpa using List.any_eq_false.mp hbefore original (mem_originals hmem)
    simp only [hboard, hbefore, Bool.or_self, Bool.false_eq_true, false_iff, not_or, not_exists,
      not_and, onBoard_iff hboard]
    refine and_congr_right fun _ => forall₂_congr fun original hmem => ?_
    rw [isDuplicate_iff (hkeys original hmem)]

theorem dropsOnlyDuplicates_of_sifted (h : Sifted (IsDuplicate unicode) (OnBoard unicode existing)
    [] proposed (originals unicode existing proposed)) :
    DropsOnlyDuplicates unicode existing proposed := by
  rw [← dedupeGeneratedTasks_eq] at h
  refine ⟨h.sublist, h.pairwise, fun task hmem => (h.fresh task hmem).1, h, ?_⟩
  rw [dedupeGeneratedTasks_eq, dedupeGeneratedTasks_eq]
  exact firstsFrom_firstsFrom nofun

end

/-- The letters and digits of ASCII, and all characters beyond it as letters without case. -/
def plainUnicode : Unicode where
  isAlphanumeric c := c.isAlphanum || 0x80 ≤ c.toNat
  toLowercase c := [c.toLower]
  isAlphanumeric_ascii c h := by simp [h]

def proposalOf (title body : String) : GeneratedTask where
  title
  body
  priority := none
  dependsOn := []
  tags := []

end Batty
