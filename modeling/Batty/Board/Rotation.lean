import Batty.Foundation.Fallible
import Batty.Foundation.LineEnds
import Batty.Foundation.Lists

/-!
# Rotating the finished items

The kanban is a file of sections, and of the finished items in it only the newest are kept; the
others are moved to an archive. The section is looked for by its heading as a piece of text, and the
kanban is written before the archive is read and written. A write that fails is taken to leave the
file as it was.

`rotatesDone_iff`: either there is nothing to move, or all that is moved stands elsewhere too, since
what is moved is lost where the archive fails.
-/

namespace Batty

open Text

/-! ### Cutting the kanban -/

def doneMarker : List Char := "## Done".toList

/-- The line opens a section. -/
def isHeading (line : List Char) : Bool := "## ".toList.isPrefixOf line

def nonBlank (lines : List (List Char)) : List (List Char) :=
  lines.filter fun line => !isBlank line

/-- The items of a section and the heading that ends it. On the first line none does. -/
def sectionItems (first : Bool) : List (List Char) → List (List Char) × Option (List Char)
  | [] => ([], none)
  | line :: lines =>
    if isHeading line && !first then ([], some line)
    else
      let (items, heading) := sectionItems false lines
      (if isBlank line then items else line :: items, heading)

/-- The text that begins with the heading, which is looked for behind a line feed. -/
def fromHeading (itemsSection : List Char) : Option (List Char) → List Char
  | none => []
  | some line => ((splitOnce ('\n' :: line) itemsSection).map fun parts => line ++ parts.2).getD []

def splitDoneSection (content : List Char) : List Char × List (List Char) × List Char :=
  match splitOnce doneMarker content with
  | none => (content, [], [])
  | some (beforeDone, afterMarker) =>
    let itemsSection := ((splitOnce ['\n'] afterMarker).map Prod.snd).getD []
    let (doneItems, heading) := sectionItems true (Text.lines itemsSection)
    (beforeDone, doneItems, fromHeading itemsSection heading)

/-! ### Rotating -/

/-- There may be no archive yet. -/
structure KanbanFiles where
  kanban : List Char
  archive : Option (List Char)

/-- The reads and writes of a rotation, each of which may fail. -/
inductive FileAccess where
  | readKanban
  | writeKanban
  | readArchive
  | writeArchive
deriving DecidableEq

def reach (fails : FileAccess → Bool) (access : FileAccess) (message : String) :
    EStateM String KanbanFiles Unit :=
  if fails access then throw message else pure ()

/-- The items that are too many. -/
def oldest (threshold : Nat) (items : List (List Char)) : List (List Char) :=
  items.take (items.length - threshold)

def newest (threshold : Nat) (items : List (List Char)) : List (List Char) :=
  items.drop (items.length - threshold)

def archiveHeader : List Char := "# Kanban Archive\n".toList

def readArchive (fails : FileAccess → Bool) (archivePath : String) :
    EStateM String KanbanFiles (List Char) := do
  match (← get).archive with
  | some text =>
    reach fails .readArchive s!"failed to read {archivePath}"
    return text
  | none => return archiveHeader

/-- Move the oldest done items to the archive, until the section is within the threshold. -/
def rotateDoneItems (kanbanPath archivePath : String) (fails : FileAccess → Bool)
    (threshold : Nat) : EStateM String KanbanFiles Nat := do
  reach fails .readKanban s!"failed to read {kanbanPath}"
  let (beforeDone, doneItems, afterDone) := splitDoneSection (← get).kanban
  if doneItems.length ≤ threshold then return 0
  else do
    let toArchive := oldest threshold doneItems
    let toKeep := newest threshold doneItems
    -- What is moved stands in neither file until the archive is written.
    reach fails .writeKanban s!"failed to write {kanbanPath}"
    modify fun files =>
      { files with kanban := beforeDone ++ "## Done\n".toList ++ unlines toKeep ++ afterDone }
    let archiveContent ← readArchive fails archivePath
    reach fails .writeArchive s!"failed to write {archivePath}"
    modify fun files =>
      { files with archive := some (closeLine archiveContent ++ unlines toArchive) }
    return toArchive.length % 2 ^ 32

/-! ### What rotating is for -/

/-- The lines after the heading of the section, up to the next heading. -/
def doneSection (lines : List (List Char)) : List (List Char) :=
  ((lines.dropWhile fun line => line ≠ doneMarker).drop 1).takeWhile fun line => !isHeading line

def outsideDone (lines : List (List Char)) : List (List Char) :=
  (lines.takeWhile fun line => line ≠ doneMarker) ++
    (lines.dropWhile fun line => line ≠ doneMarker).take 1 ++
      ((lines.dropWhile fun line => line ≠ doneMarker).drop 1).dropWhile fun line => !isHeading line

def doneItems (lines : List (List Char)) : List (List Char) := nonBlank (doneSection lines)

/-- An archive that is not there yet counts as its header. -/
def KanbanFiles.archiveLines (files : KanbanFiles) : List (List Char) :=
  Text.lines (files.archive.getD archiveHeader)

/-- The oldest items were moved, in their order, and nothing else was. -/
structure Rotated (threshold : Nat) (files files' : KanbanFiles) : Prop where
  perm : (nonBlank (Text.lines files'.kanban ++ files'.archiveLines)).Perm
    (nonBlank (Text.lines files.kanban ++ files.archiveLines))
  outside : (outsideDone (Text.lines files.kanban)).Sublist (Text.lines files'.kanban)
  moved : nonBlank files'.archiveLines =
    nonBlank files.archiveLines ++ oldest threshold (doneItems (Text.lines files.kanban))

/-- Every finished item is still in one of the files. -/
def KeepsDone (files files' : KanbanFiles) : Prop :=
  ∀ item ∈ doneItems (Text.lines files.kanban),
    item ∈ Text.lines files'.kanban ∨ item ∈ Text.lines (files'.archive.getD [])

/-- **Rotating**: whatever fails, no finished item is lost, and if nothing fails, the files are
rotated. -/
def RotatesDone (threshold : Nat) (files : KanbanFiles) : Prop :=
  ∀ kanbanPath archivePath fails,
    After (rotateDoneItems kanbanPath archivePath fails threshold) files
      (fun _ files' => Rotated threshold files files') fun _ files' => KeepsDone files files'

/-- The lines below the line in which the marker stands first. -/
def linesBelowMarker (content : List Char) : List (List Char) :=
  (Text.lines (((splitOnce doneMarker content).map Prod.snd).getD [])).drop 1

/-- Up to the next heading; one that follows directly does not count. -/
def markedSection (content : List Char) : List (List Char) :=
  (linesBelowMarker content).take 1 ++
    ((linesBelowMarker content).drop 1).takeWhile fun line => !isHeading line

/-- Neither the section that the marker leads to nor the one that is meant has too many items. -/
structure NothingToRotate (threshold : Nat) (content : List Char) : Prop where
  marked : (nonBlank (markedSection content)).length ≤ threshold
  done : (doneItems (Text.lines content)).length ≤ threshold

/-- Something is moved, and the marker stands first in a line of its own, which is followed by no
other heading; no line that is written ends in a carriage return; and what is moved stands elsewhere
too. -/
structure SafelyRotated (threshold : Nat) (files : KanbanFiles) : Prop where
  marked : threshold < (nonBlank (markedSection files.kanban)).length
  heading : ∃ front after, splitOnce doneMarker files.kanban = some (unlines front, after) ∧
    (['\n'] <+: after ∨ ['\r', '\n'] <+: after)
  below : ∀ line ∈ (linesBelowMarker files.kanban).head?, isHeading line = false
  returns : ∀ item ∈ doneItems (Text.lines files.kanban), item.getLast? ≠ some '\r'
  archive : ∀ text ∈ files.archive, text.getLast? = some '\r' →
    ∀ line ∈ (Text.lines text).getLast?, isBlank line = true
  elsewhere : ∀ item ∈ oldest threshold (doneItems (Text.lines files.kanban)),
    item ∈ outsideDone (Text.lines files.kanban) ∨
      item ∈ newest threshold (doneItems (Text.lines files.kanban)) ∨
        item ∈ Text.lines (files.archive.getD [])

section

variable {content s line pre suffix afterDone : List Char} {front lines rest : List (List Char)}

theorem newline_not_mem_doneMarker : '\n' ∉ doneMarker := by decide

theorem isHeading_iff : isHeading line = true ↔ "## ".toList <+: line := List.isPrefixOf_iff_prefix

theorem isHeading_stripReturn (line : List Char) :
    isHeading (stripReturn line) = isHeading line := by
  rw [Bool.eq_iff_iff, isHeading_iff, isHeading_iff, isPrefix_stripReturn_iff (by decide)]

@[simp] theorem nonBlank_append (lines lines' : List (List Char)) :
    nonBlank (lines ++ lines') = nonBlank lines ++ nonBlank lines' :=
  List.filter_append ..

theorem nonBlank_cons (h : isBlank line = false) :
    nonBlank (line :: lines) = line :: nonBlank lines :=
  List.filter_cons_of_pos (by simp [h])

theorem nonBlank_map_stripReturn (lines : List (List Char)) :
    nonBlank (lines.map stripReturn) = (nonBlank lines).map stripReturn := by
  rw [nonBlank, nonBlank, List.filter_map]
  congr 1
  exact List.filter_congr fun line _ => by rw [Function.comp_apply, isBlank_stripReturn]

/-! ### Where the kanban is cut -/

/-- A line that does not begin with a text does not contain it behind a line feed. -/
theorem splitOnce_newline_append (hline : '\n' ∉ line) (word s : List Char) :
    splitOnce ('\n' :: word) (line ++ '\n' :: s) =
      (splitOnce ('\n' :: word) ('\n' :: s)).map fun parts => (line ++ parts.1, parts.2) := by
  induction line with
  | nil => simp
  | cons c line ih =>
    rw [List.mem_cons, not_or] at hline
    have hno : ¬ '\n' :: word <+: c :: (line ++ '\n' :: s) :=
      fun h => hline.1 (List.cons_prefix_cons.mp h).1
    rw [List.cons_append, splitOnce, if_neg hno, ih hline.2, Option.map_map]
    rfl

theorem isPrefix_of_append_newline {word : List Char} (hword : '\n' ∉ word)
    (h : word <+: line ++ '\n' :: s) : word <+: line := by
  obtain ⟨rest, hrest⟩ := h
  rcases List.append_eq_append_iff.mp hrest with ⟨between, rfl, -⟩ | ⟨between, rfl, hnewline⟩
  · exact List.prefix_append _ _
  · cases between with
    | nil => rw [List.append_nil]
    | cons c between =>
      obtain ⟨rfl, -⟩ := List.cons.inj hnewline
      simp at hword

theorem fromHeading_of_isPrefix {before : List Char} (hbefore : '\n' ∉ before) (h : line <+: s) :
    fromHeading (before ++ '\n' :: s) (some line) = s := by
  have hfound : '\n' :: line <+: '\n' :: s := List.cons_prefix_cons.mpr ⟨rfl, h⟩
  obtain ⟨rest, rfl⟩ := h
  rw [fromHeading, splitOnce_newline_append hbefore, splitOnce, if_pos hfound]
  simp

theorem fromHeading_append {before : List Char} (hbefore : '\n' ∉ before)
    {heading : Option (List Char)} (h : ∀ line ∈ heading, ¬ line <+: s) :
    fromHeading (before ++ '\n' :: s) heading = fromHeading s heading := by
  cases heading with
  | none => rfl
  | some line =>
    have hno : ¬ '\n' :: line <+: '\n' :: s := fun hbegins =>
      h line rfl (List.cons_prefix_cons.mp hbegins).2
    rw [fromHeading, splitOnce_newline_append hbefore, splitOnce, if_neg hno, fromHeading]
    simp only [Option.map_map]
    rfl

theorem sectionItems_false (lines : List (List Char)) : sectionItems false lines =
    (nonBlank (lines.takeWhile fun line => !isHeading line),
      (lines.dropWhile fun line => !isHeading line).head?) := by
  induction lines with
  | nil => rfl
  | cons line lines ih =>
    rw [sectionItems]
    cases hheading : isHeading line with
    | true => simp [hheading, nonBlank]
    | false =>
      rw [ih]
      cases hblank : isBlank line <;> simp [hheading, hblank, nonBlank]

theorem sectionItems_true (lines : List (List Char)) : sectionItems true lines =
    (nonBlank (lines.take 1 ++ (lines.drop 1).takeWhile fun line => !isHeading line),
      ((lines.drop 1).dropWhile fun line => !isHeading line).head?) := by
  cases lines with
  | nil => rfl
  | cons line lines =>
    rw [sectionItems, sectionItems_false]
    cases hblank : isBlank line <;> simp [hblank, nonBlank]

theorem isHeading_of_mem_head? (h : line ∈ (lines.dropWhile fun line => !isHeading line).head?) :
    isHeading line = true := by
  have hnot := List.head?_dropWhile_not (fun line => !isHeading line) lines
  rw [Option.mem_def.mp h] at hnot
  simpa using hnot

/-- **Where the section ends**: the text that is found begins with the heading that ended it. -/
theorem lines_fromHeading {before : List Char} (hbefore : '\n' ∉ before) (s : List Char) :
    Text.lines (fromHeading (before ++ '\n' :: s)
        ((Text.lines s).dropWhile fun line => !isHeading line).head?) =
      (Text.lines s).dropWhile fun line => !isHeading line := by
  obtain ⟨lines, last, hlines, hlast, rfl⟩ := exists_unlines s
  induction lines generalizing before with
  | nil =>
    rw [unlines_nil, List.nil_append, lines_of_not_mem hlast]
    split
    · rfl
    · rename_i hne
      cases hheading : isHeading last with
      | true =>
        simp only [List.dropWhile_cons, hheading, Bool.not_true, Bool.false_eq_true, if_false,
          List.head?_cons]
        rw [fromHeading_of_isPrefix hbefore List.prefix_rfl, lines_of_not_mem hlast, if_neg hne]
      | false => simp [hheading, fromHeading, Text.lines]
  | cons line lines ih =>
    obtain ⟨hline, hlines⟩ := List.forall_mem_cons.mp hlines
    rw [unlines_cons, List.append_assoc, List.cons_append, lines_append_newline hline]
    cases hheading : isHeading (stripReturn line) with
    | true =>
      simp only [List.dropWhile_cons, hheading, Bool.not_true, Bool.false_eq_true, if_false,
        List.head?_cons]
      have hbegins : ∀ rest, stripReturn line <+: line ++ rest := fun rest =>
        (stripReturn_isPrefix line).trans (List.prefix_append line rest)
      rw [fromHeading_of_isPrefix hbefore (hbegins _), lines_append_newline hline]
    | false =>
      simp only [List.dropWhile_cons, hheading, Bool.not_false, if_true]
      rw [fromHeading_append hbefore, ih hline hlines]
      intro found hfound hbegins
      have hmem := (List.dropWhile_sublist _).subset (List.mem_of_mem_head? hfound)
      have hno := isPrefix_of_append_newline (not_mem_of_mem_lines hmem) hbegins
      rw [isHeading_stripReturn, ← Bool.not_eq_true, isHeading_iff] at hheading
      exact hheading ((isHeading_iff.mp (isHeading_of_mem_head? hfound)).trans hno)

theorem lines_fromHeading_drop (s : List Char) :
    Text.lines (fromHeading s
        (((Text.lines s).drop 1).dropWhile fun line => !isHeading line).head?) =
      ((Text.lines s).drop 1).dropWhile fun line => !isHeading line := by
  obtain ⟨lines, last, hlines, hlast, rfl⟩ := exists_unlines s
  cases lines with
  | nil =>
    have hnone : (Text.lines (unlines [] ++ last)).drop 1 = [] := by
      rw [unlines_nil, List.nil_append, lines_of_not_mem hlast]
      split <;> rfl
    rw [hnone]
    rfl
  | cons line lines =>
    obtain ⟨hline, hlines⟩ := List.forall_mem_cons.mp hlines
    rw [unlines_cons, List.append_assoc, List.cons_append, lines_append_newline hline,
      List.drop_succ_cons, List.drop_zero]
    exact lines_fromHeading hline _

theorem splitOnce_newline (hline : '\n' ∉ line) (s : List Char) :
    splitOnce ['\n'] (line ++ '\n' :: s) = some (line, s) := by
  rw [splitOnce_newline_append hline, splitOnce, if_pos (List.cons_prefix_cons.mpr ⟨rfl, by simp⟩)]
  simp

theorem lines_afterNewline (s : List Char) :
    Text.lines (((splitOnce ['\n'] s).map Prod.snd).getD []) = (Text.lines s).drop 1 := by
  obtain ⟨lines, last, hlines, hlast, rfl⟩ := exists_unlines s
  cases lines with
  | nil =>
    have hnone : splitOnce ['\n'] last = none :=
      splitOnce_eq_none_iff.mpr fun hoccurs => hlast (hoccurs.subset List.mem_cons_self)
    rw [unlines_nil, List.nil_append, hnone, lines_of_not_mem hlast]
    split <;> rfl
  | cons line lines =>
    obtain ⟨hline, hlines⟩ := List.forall_mem_cons.mp hlines
    rw [unlines_cons, List.append_assoc, List.cons_append, splitOnce_newline hline,
      lines_append_newline hline]
    rfl

theorem items_splitDoneSection (content : List Char) :
    (splitDoneSection content).2.1 = nonBlank (markedSection content) := by
  rw [splitDoneSection, markedSection, linesBelowMarker]
  cases splitOnce doneMarker content with
  | none => rfl
  | some parts =>
    simp only [sectionItems_true, lines_afterNewline, Option.map_some, Option.getD_some]

/-- The kanban around the marker: `pre` and `suffix` stand with it in its line. -/
structure CutAt (content : List Char) (front : List (List Char)) (pre suffix : List Char)
    (rest : List (List Char)) (afterDone : List Char) : Prop where
  split : splitDoneSection content =
    (unlines front ++ pre, nonBlank (markedSection content), afterDone)
  found : ∃ below, splitOnce doneMarker content =
    some (unlines front ++ pre, suffix ++ '\n' :: below)
  lines : Text.lines content = front.map stripReturn ++
    stripReturn (pre ++ doneMarker ++ suffix) :: (markedSection content ++ rest)
  plainFront : ∀ line ∈ front, '\n' ∉ line
  plainPre : '\n' ∉ pre
  plainSuffix : '\n' ∉ suffix
  afterDone : Text.lines afterDone = rest
  heading : ∀ line ∈ rest.head?, isHeading line = true
  below : markedSection content ++ rest = linesBelowMarker content

theorem exists_cutAt (h : markedSection content ≠ []) :
    ∃ front pre suffix rest afterDone, CutAt content front pre suffix rest afterDone := by
  have hbelow : linesBelowMarker content ≠ [] := fun hnil => h (by simp [markedSection, hnil])
  rw [linesBelowMarker] at hbelow
  cases hfound : splitOnce doneMarker content with
  | none => simp [hfound, Text.lines] at hbelow
  | some parts =>
    obtain ⟨before, after⟩ := parts
    obtain ⟨front, pre, hfront, hpre, rfl⟩ := exists_unlines before
    obtain ⟨lines, last, hlines, hlast, rfl⟩ := exists_unlines after
    rw [hfound] at hbelow
    cases lines with
    | nil =>
      refine absurd ?_ hbelow
      simp only [Option.map_some, Option.getD_some, unlines_nil, List.nil_append,
        lines_of_not_mem hlast]
      split <;> rfl
    | cons suffix lines =>
      obtain ⟨hsuffix, hlines⟩ := List.forall_mem_cons.mp hlines
      rw [unlines_cons, List.append_assoc, List.cons_append] at hfound
      generalize unlines lines ++ last = below at hfound
      have hlinesBelow : linesBelowMarker content = Text.lines below := by
        simp [linesBelowMarker, hfound, lines_append_newline hsuffix]
      have hcontent :
          content = unlines front ++ (pre ++ doneMarker ++ suffix ++ '\n' :: below) := by
        simpa using eq_of_splitOnce hfound
      have hmarker : '\n' ∉ pre ++ doneMarker ++ suffix := by
        simp [hpre, hsuffix, newline_not_mem_doneMarker]
      have hmarked : markedSection content ++
          ((Text.lines below).drop 1).dropWhile (fun line => !isHeading line) =
            Text.lines below := by
        rw [markedSection, hlinesBelow, List.append_assoc, List.takeWhile_append_dropWhile,
          List.take_append_drop]
      refine ⟨front, pre, suffix, ((Text.lines below).drop 1).dropWhile fun line => !isHeading line,
        fromHeading below (((Text.lines below).drop 1).dropWhile fun line => !isHeading line).head?,
        ?_, ⟨below, hfound⟩, ?_, hfront, hpre, hsuffix, lines_fromHeading_drop below,
        fun line => isHeading_of_mem_head?, hmarked.trans hlinesBelow.symm⟩
      · simp only [splitDoneSection, hfound, splitOnce_newline hsuffix, Option.map_some,
          Option.getD_some, sectionItems_true, markedSection, hlinesBelow]
      · rw [hmarked]
        conv_lhs => rw [hcontent]
        rw [lines_unlines_append hfront, lines_append_newline hmarker]

/-! ### Runs -/

variable {threshold : Nat} {files : KanbanFiles}

theorem after_reach {fails : FileAccess → Bool} {access : FileAccess} {message : String}
    {Q : Unit → KanbanFiles → Prop} {E : String → KanbanFiles → Prop} :
    After (reach fails access message) files Q E ↔
      if fails access then E message files else Q () files := by
  rw [reach]
  split <;> simp

theorem after_readArchive {fails : FileAccess → Bool} {archivePath : String}
    {Q : List Char → KanbanFiles → Prop} {E : String → KanbanFiles → Prop} :
    After (readArchive fails archivePath) files Q E ↔
      if files.archive.isSome && fails .readArchive
        then E s!"failed to read {archivePath}" files
        else Q (files.archive.getD archiveHeader) files := by
  rw [readArchive, after_bind, after_get]
  cases files.archive with
  | none => simp
  | some text =>
    simp only [after_bind, after_reach, after_pure]
    simp

theorem subset_of_doneSection (lines : List (List Char)) : doneItems lines ⊆ lines := by
  intro item h
  have hsection := (List.takeWhile_sublist _).subset (List.mem_filter.mp h).1
  exact (List.dropWhile_sublist _).subset (List.mem_of_mem_drop hsection)

theorem KeepsDone.refl (files : KanbanFiles) : KeepsDone files files := fun _ hitem =>
  .inl (subset_of_doneSection _ hitem)

theorem rotatesDone_of_le (h : (nonBlank (markedSection files.kanban)).length ≤ threshold) :
    RotatesDone threshold files ↔ Rotated threshold files files := by
  rw [← items_splitDoneSection] at h
  constructor
  · intro hrotates
    simpa [rotateDoneItems, after_reach, h] using hrotates "" "" fun _ => false
  · intro hrotated kanbanPath archivePath fails
    rw [rotateDoneItems, after_bind, after_reach]
    split
    · exact KeepsDone.refl files
    · simpa [h] using hrotated

/-- Once there is too much, the kanban is written before the archive is. -/
theorem rotatesDone_of_lt {items : List (List Char)} {beforeDone : List Char}
    (hsplit : splitDoneSection files.kanban = (beforeDone, items, afterDone))
    (h : threshold < items.length) {kanban archive : List Char}
    (hkanban : beforeDone ++ "## Done\n".toList ++ unlines (newest threshold items) ++ afterDone =
      kanban)
    (harchive : closeLine (files.archive.getD archiveHeader) ++ unlines (oldest threshold items) =
      archive) :
    RotatesDone threshold files ↔
      Rotated threshold files ⟨kanban, some archive⟩ ∧ KeepsDone files ⟨kanban, files.archive⟩ := by
  have hmore : ¬ items.length ≤ threshold := Nat.not_le_of_lt h
  -- What a run comes to, by the access that fails first.
  have hrun : ∀ kanbanPath archivePath fails,
      After (rotateDoneItems kanbanPath archivePath fails threshold) files
        (fun _ files' => Rotated threshold files files') (fun _ files' => KeepsDone files files') ↔
      if fails .readKanban then KeepsDone files files
      else if fails .writeKanban then KeepsDone files files
      else if files.archive.isSome && fails .readArchive
        then KeepsDone files ⟨kanban, files.archive⟩
      else if fails .writeArchive then KeepsDone files ⟨kanban, files.archive⟩
      else Rotated threshold files ⟨kanban, some archive⟩ := by
    intro kanbanPath archivePath fails
    simp only [rotateDoneItems, after_bind, after_reach, after_get, hsplit, if_neg hmore,
      after_modify, after_readArchive, after_pure, hkanban, harchive]
  simp only [RotatesDone, hrun]
  constructor
  · intro hrotates
    constructor
    · simpa using hrotates "" "" fun _ => false
    · simpa using hrotates "" "" fun access => access = .writeArchive
  · rintro ⟨hrotated, hkeeps⟩ kanbanPath archivePath fails
    split_ifs
    · exact KeepsDone.refl files
    · exact KeepsDone.refl files
    · exact hkeeps
    · exact hkeeps
    · exact hrotated

/-! ### The section that is meant -/

theorem sections_of {before section' : List (List Char)}
    (hlines : lines = before ++ doneMarker :: (section' ++ rest)) (hfirst : doneMarker ∉ before)
    (hsection : ∀ line ∈ section', isHeading line = false)
    (hrest : ∀ line ∈ rest.head?, isHeading line = true) :
    doneSection lines = section' ∧ outsideDone lines = before ++ doneMarker :: rest := by
  have hbefore : ∀ line ∈ before, decide (line ≠ doneMarker) = true := fun line hmem =>
    decide_eq_true fun heq => hfirst (heq ▸ hmem)
  have htake : lines.takeWhile (fun line => line ≠ doneMarker) = before := by
    rw [hlines, List.takeWhile_append_of_pos hbefore]
    simp
  have hdrop : lines.dropWhile (fun line => line ≠ doneMarker) =
      doneMarker :: (section' ++ rest) := by
    rw [hlines, List.dropWhile_append_of_pos hbefore]
    simp
  have hplain : ∀ line ∈ section', (!isHeading line) = true := fun line hmem => by
    rw [hsection line hmem, Bool.not_false]
  have hends : rest.takeWhile (fun line => !isHeading line) = [] ∧
      rest.dropWhile (fun line => !isHeading line) = rest := by
    cases rest with
    | nil => exact ⟨rfl, rfl⟩
    | cons line rest => simp [hrest line rfl]
  constructor
  · rw [doneSection, hdrop, List.drop_succ_cons, List.drop_zero,
      List.takeWhile_append_of_pos hplain, hends.1, List.append_nil]
  · rw [outsideDone, htake, hdrop, List.drop_succ_cons, List.drop_zero,
      List.dropWhile_append_of_pos hplain, hends.2]
    simp

/-- Without its heading there is no section. -/
theorem doneSection_of_not_mem (h : doneMarker ∉ lines) : doneSection lines = [] := by
  have hdrop : lines.dropWhile (fun line => line ≠ doneMarker) = [] :=
    List.dropWhile_eq_nil_iff.mpr fun line hmem => decide_eq_true fun heq => h (heq ▸ hmem)
  rw [doneSection, hdrop]
  rfl

theorem exists_sections (h : doneMarker ∈ lines) : ∃ before section' rest,
    lines = before ++ doneMarker :: (section' ++ rest) ∧ doneMarker ∉ before ∧
      (∀ line ∈ section', isHeading line = false) ∧ ∀ line ∈ rest.head?, isHeading line = true := by
  obtain ⟨before, after, rfl, hfirst⟩ := List.eq_append_cons_of_mem h
  refine ⟨before, after.takeWhile fun line => !isHeading line,
    after.dropWhile fun line => !isHeading line, ?_, hfirst, fun line hmem => ?_,
    fun line => isHeading_of_mem_head?⟩
  · rw [List.takeWhile_append_dropWhile]
  · simpa using List.all_eq_true.mp List.all_takeWhile line hmem

theorem outsideDone_sublist (lines : List (List Char)) : (outsideDone lines).Sublist lines := by
  have hcut : (lines.takeWhile fun line => line ≠ doneMarker) ++
      ((lines.dropWhile fun line => line ≠ doneMarker).take 1 ++
        (lines.dropWhile fun line => line ≠ doneMarker).drop 1) = lines := by
    rw [List.take_append_drop, List.takeWhile_append_dropWhile]
  conv_rhs => rw [← hcut]
  rw [outsideDone, List.append_assoc]
  exact ((List.dropWhile_sublist _).append_left _).append_left _

/-! ### What is written and read again -/

/-- Closing the last line shortens it if it ends in a carriage return. -/
theorem nonBlank_lines_closeLine (text : List Char) : ∃ lines last,
    nonBlank (Text.lines (closeLine text)) = nonBlank lines ++ nonBlank [stripReturn last] ∧
    nonBlank (Text.lines text) = nonBlank lines ++ nonBlank [last] ∧
    ((isBlank last = true ∨ stripReturn last = last) ↔
      (text.getLast? = some '\r' → ∀ line ∈ (Text.lines text).getLast?, isBlank line = true)) := by
  obtain ⟨lines, last, hlines, hlast, rfl⟩ := exists_unlines text
  by_cases hnil : last = []
  · subst hnil
    have hclosed : (unlines lines ++ []).getLast? ≠ some '\r' := by
      rcases List.eq_nil_or_concat lines with rfl | ⟨lines, line, rfl⟩ <;> simp [unlines]
    refine ⟨lines.map stripReturn, [], ?_, ?_, iff_of_true (.inr rfl) fun h => absurd h hclosed⟩
    · rw [closeLine]
      split
      · rw [lines_unlines_append hlines, nonBlank_append]
        rfl
      · rw [List.append_assoc, lines_unlines_append hlines, nonBlank_append, List.nil_append]
        rfl
    · rw [lines_unlines_append hlines, nonBlank_append]
      rfl
  · have hend : (unlines lines ++ last).getLast? = last.getLast? := by
      rw [List.getLast?_append, Option.or_of_isSome (by simpa using hnil)]
    have hopen : ¬ (unlines lines ++ last).getLast? = some '\n' := by
      rw [hend]
      exact fun h => hlast (List.mem_of_getLast? h)
    have hread : Text.lines (unlines lines ++ last) = lines.map stripReturn ++ [last] := by
      rw [lines_unlines_append hlines, lines_of_not_mem hlast, if_neg hnil]
    have hwritten : Text.lines (closeLine (unlines lines ++ last)) =
        lines.map stripReturn ++ [stripReturn last] := by
      rw [closeLine, if_neg hopen, List.append_assoc, lines_unlines_append hlines,
        lines_append_newline hlast]
      rfl
    refine ⟨lines.map stripReturn, last, by rw [hwritten, nonBlank_append],
      by rw [hread, nonBlank_append], ?_⟩
    rw [hend, hread, List.getLast?_concat]
    by_cases hreturn : last.getLast? = some '\r'
    · have hne : stripReturn last ≠ last := fun heq => stripReturn_eq_self_iff.mp heq hreturn
      simp [hreturn, hne]
    · simp [hreturn, stripReturn_of_getLast? hreturn]

theorem lines_closeLine_append (text : List Char) (hlines : ∀ line ∈ lines, '\n' ∉ line) :
    Text.lines (closeLine text ++ unlines lines) =
      Text.lines (closeLine text) ++ lines.map stripReturn := by
  obtain ⟨closed, hclosed, heq⟩ := exists_unlines_closeLine text
  have hnil : Text.lines [] = [] := rfl
  have happend : unlines lines = unlines lines ++ [] := (List.append_nil _).symm
  have hclosed' := lines_unlines_append hclosed []
  rw [List.append_nil, hnil, List.append_nil] at hclosed'
  rw [heq, lines_unlines_append hclosed, hclosed', happend, lines_unlines_append hlines, hnil,
    List.append_nil]

theorem oldest_append_newest (threshold : Nat) (items : List (List Char)) :
    oldest threshold items ++ newest threshold items = items :=
  List.take_append_drop _ _

theorem stripReturn_doneMarker (pre : List Char) :
    stripReturn (pre ++ doneMarker) = pre ++ doneMarker := by
  refine stripReturn_of_getLast? ?_
  rw [List.getLast?_append, Option.or_of_isSome rfl]
  decide

/-- The line of the marker is kept if nothing stands behind the marker. -/
theorem stripReturn_marker_eq_iff :
    pre ++ doneMarker = stripReturn (pre ++ doneMarker ++ suffix) ↔
      suffix = [] ∨ suffix = ['\r'] := by
  constructor
  · intro h
    have hlength := congrArg List.length h
    by_cases hreturn : (pre ++ doneMarker ++ suffix).getLast? = some '\r'
    · have hshort := length_stripReturn_of_getLast? hreturn
      simp only [List.length_append] at hlength hshort
      obtain ⟨c, rfl⟩ := List.length_eq_one_iff.mp (show suffix.length = 1 by omega)
      rw [List.getLast?_concat] at hreturn
      exact .inr (by rw [Option.some.inj hreturn])
    · rw [stripReturn_of_getLast? hreturn] at hlength
      simp only [List.length_append] at hlength
      exact .inl (List.eq_nil_of_length_eq_zero (by omega))
  · rintro (rfl | rfl)
    · rw [List.append_nil, stripReturn_doneMarker]
    · rw [stripReturn_append_return]

namespace CutAt

variable {text kanban archive : List Char} {items : List (List Char)}

theorem not_mem_items (h : CutAt content front pre suffix rest afterDone)
    (hitems : nonBlank (markedSection content) = items) : ∀ item ∈ items, '\n' ∉ item := by
  rintro item hmem
  have hmarked : item ∈ markedSection content := (List.mem_filter.mp (hitems ▸ hmem)).1
  refine not_mem_of_mem_lines (s := content) ?_
  rw [h.lines]
  exact List.mem_append_right _ (List.mem_cons_of_mem _ (List.mem_append_left _ hmarked))

theorem lines_kanban (h : CutAt content front pre suffix rest afterDone)
    (hitems : ∀ item ∈ items, '\n' ∉ item)
    (hkanban : unlines front ++ pre ++ "## Done\n".toList ++ unlines items ++ afterDone = kanban) :
    Text.lines kanban = front.map stripReturn ++
      (pre ++ doneMarker) :: (items.map stripReturn ++ rest) := by
  have hmarker : '\n' ∉ pre ++ doneMarker := by simp [h.plainPre, newline_not_mem_doneMarker]
  have hline : "## Done\n".toList = doneMarker ++ ['\n'] := by decide
  have hcut : kanban = unlines front ++
      ((pre ++ doneMarker) ++ '\n' :: (unlines items ++ afterDone)) := by
    rw [← hkanban, hline]
    simp
  rw [hcut, lines_unlines_append h.plainFront, lines_append_newline hmarker,
    lines_unlines_append hitems, stripReturn_doneMarker, h.afterDone]

end CutAt

theorem isBlank_marker (pre suffix : List Char) :
    isBlank (pre ++ doneMarker ++ suffix) = false := by
  rw [← Bool.not_eq_true, isBlank_iff]
  intro h
  have hmem : '#' ∈ doneMarker := by decide
  exact absurd (h '#' (List.mem_append_left _ (List.mem_append_right _ hmem))) (by decide)

theorem nonBlank_singleton_eq_iff {last : List Char} :
    nonBlank [stripReturn last] = nonBlank [last] ↔
      isBlank last = true ∨ stripReturn last = last := by
  cases hblank : isBlank last <;> simp [nonBlank, isBlank_stripReturn, hblank]

/-- What is read of the files that were written is what was in them exactly if no line is shortened
by that. -/
theorem CutAt.perm_iff {text : List Char} {items : List (List Char)}
    (h : CutAt content front pre suffix rest afterDone)
    (hitems : nonBlank (markedSection content) = items) {kanban archive : List Char}
    (hkanban : unlines front ++ pre ++ "## Done\n".toList ++ unlines (newest threshold items) ++
      afterDone = kanban)
    (harchive : closeLine text ++ unlines (oldest threshold items) = archive) :
    (nonBlank (Text.lines kanban ++ Text.lines archive)).Perm
        (nonBlank (Text.lines content ++ Text.lines text)) ↔
      (suffix = [] ∨ suffix = ['\r']) ∧ (∀ item ∈ items, item.getLast? ≠ some '\r') ∧
        (text.getLast? = some '\r' → ∀ line ∈ (Text.lines text).getLast?, isBlank line = true) := by
  have hplain := h.not_mem_items hitems
  have hparts := oldest_append_newest threshold items
  have holdest : oldest threshold items ⊆ items := List.take_subset _ _
  have hnewest : newest threshold items ⊆ items := List.drop_subset _ _
  have hkeep : ∀ some ⊆ items, nonBlank (some.map stripReturn) = some.map stripReturn := by
    intro some hsub
    rw [nonBlank_map_stripReturn]
    refine congrArg _ (List.filter_eq_self.mpr fun item hmem => ?_)
    exact (List.mem_filter.mp (hitems ▸ hsub hmem : item ∈ nonBlank (markedSection content))).2
  have hmark : isBlank (pre ++ doneMarker) = false := by
    simpa using isBlank_marker pre []
  have hmark' : isBlank (stripReturn (pre ++ doneMarker ++ suffix)) = false :=
    (isBlank_stripReturn _).trans (isBlank_marker pre suffix)
  obtain ⟨closed, last, hclosed, hread, hlast⟩ := nonBlank_lines_closeLine text
  -- What is shortened, taken out of both files.
  have hnew : (nonBlank (Text.lines kanban ++ Text.lines archive)).Perm
      ((nonBlank (front.map stripReturn) ++ nonBlank rest ++ nonBlank closed) ++
        (pre ++ doneMarker) :: (items.map stripReturn ++ nonBlank [stripReturn last])) := by
    rw [nonBlank_append, h.lines_kanban (fun item hmem => hplain item (hnewest hmem)) hkanban,
      ← harchive, lines_closeLine_append text fun item hmem => hplain item (holdest hmem),
      nonBlank_append, nonBlank_cons hmark, nonBlank_append, nonBlank_append, hclosed,
      hkeep _ hnewest, hkeep _ holdest]
    conv_rhs => rw [← hparts, List.map_append]
    refine List.perm_iff_count.mpr fun line => ?_
    simp only [List.count_append, List.count_cons]
    omega
  have hold : (nonBlank (Text.lines content ++ Text.lines text)).Perm
      ((nonBlank (front.map stripReturn) ++ nonBlank rest ++ nonBlank closed) ++
        stripReturn (pre ++ doneMarker ++ suffix) :: (items ++ nonBlank [last])) := by
    rw [nonBlank_append, h.lines, nonBlank_append, nonBlank_cons hmark', nonBlank_append, hitems,
      hread]
    refine List.perm_iff_count.mpr fun line => ?_
    simp only [List.count_append, List.count_cons]
    omega
  have hbegins : List.Forall₂ (· <+: ·)
      ((pre ++ doneMarker) :: (items.map stripReturn ++ nonBlank [stripReturn last]))
      (stripReturn (pre ++ doneMarker ++ suffix) :: (items ++ nonBlank [last])) := by
    refine .cons ?_ (List.rel_append (forall₂_map_stripReturn items) ?_)
    · exact (isPrefix_stripReturn_iff (stripReturn_eq_self_iff.mp (stripReturn_doneMarker pre))).mpr
        (List.prefix_append _ _)
    · cases hblank : isBlank last with
      | true => simp [nonBlank, isBlank_stripReturn, hblank]
      | false => simpa [nonBlank, isBlank_stripReturn, hblank] using stripReturn_isPrefix last
  have hperm : (nonBlank (Text.lines kanban ++ Text.lines archive)).Perm
        (nonBlank (Text.lines content ++ Text.lines text)) ↔
      (pre ++ doneMarker) :: (items.map stripReturn ++ nonBlank [stripReturn last]) =
        stripReturn (pre ++ doneMarker ++ suffix) :: (items ++ nonBlank [last]) := by
    constructor
    · intro hsame
      have hrest := (List.perm_append_left_iff _).mp (hnew.symm.trans (hsame.trans hold))
      exact eq_of_forall₂_isPrefix hbegins (hrest.map List.length).sum_nat.ge
    · intro hsame
      exact hnew.trans (hsame ▸ hold.symm)
  rw [hperm, List.cons_eq_cons, stripReturn_marker_eq_iff, ← hlast, ← nonBlank_singleton_eq_iff,
    ← map_stripReturn_eq_self_iff]
  refine and_congr_right fun _ => ⟨fun heq => List.append_inj heq (List.length_map _), ?_⟩
  rintro ⟨hmap, hsingle⟩
  rw [hmap, hsingle]

/-! ### Which section is found -/

theorem isHeading_of_mem_drop_markedSection (content : List Char)
    (h : line ∈ (markedSection content).drop 1) :
    isHeading line = false := by
  rw [markedSection] at h
  cases hbelow : linesBelowMarker content with
  | nil => simp [hbelow] at h
  | cons first below =>
    rw [hbelow] at h
    simpa using List.all_eq_true.mp List.all_takeWhile line h

namespace CutAt

/-- The marker does not stand in a line before that in which it stands first. -/
theorem not_mem_front (h : CutAt content front pre suffix rest afterDone) :
    doneMarker ∉ front.map stripReturn := by
  obtain ⟨below, hfound⟩ := h.found
  rw [List.mem_map]
  rintro ⟨line, hmem, hline⟩
  obtain ⟨before, after, rfl⟩ := List.append_of_mem hmem
  obtain ⟨ending, hending⟩ := stripReturn_isPrefix line
  refine not_infix_of_splitOnce hfound (by decide)
    ⟨unlines before, ending ++ '\n' :: unlines after ++ pre, ?_⟩
  rw [unlines_append, unlines_cons, ← hline]
  conv_rhs => rw [← hending]
  simp

/-- The section that the marker leads to is the one that is meant. -/
theorem sections (h : CutAt content front [] suffix rest afterDone)
    (hsuffix : suffix = [] ∨ suffix = ['\r'])
    (hbelow : ∀ line ∈ (markedSection content).head?, isHeading line = false) :
    doneSection (Text.lines content) = markedSection content ∧
      outsideDone (Text.lines content) = front.map stripReturn ++ doneMarker :: rest := by
  refine sections_of ?_ h.not_mem_front (fun line hmem => ?_) h.heading
  · rw [h.lines, ← stripReturn_marker_eq_iff.mpr hsuffix, List.nil_append]
  · cases hmarked : markedSection content with
    | nil => simp [hmarked] at hmem
    | cons first others =>
      rw [hmarked] at hmem
      rcases List.mem_cons.mp hmem with rfl | hmem
      · exact hbelow line (by rw [hmarked]; rfl)
      · exact isHeading_of_mem_drop_markedSection content (by rw [hmarked]; exact hmem)

/-- **The section that is found is the one that is meant** if it has as many items and the lines
outside of that one are kept. -/
theorem meant_of_rotated (h : CutAt content front pre suffix rest afterDone)
    (hsuffix : suffix = [] ∨ suffix = ['\r'])
    (hmarked : threshold < (nonBlank (markedSection content)).length)
    (hlength : (doneItems (Text.lines content)).length = (nonBlank (markedSection content)).length)
    (houtside : (outsideDone (Text.lines content)).Sublist (front.map stripReturn ++
      (pre ++ doneMarker) :: (newest threshold (nonBlank (markedSection content)) ++ rest))) :
    pre = [] ∧ ∀ line ∈ (markedSection content).head?, isHeading line = false := by
  have hlines := h.lines
  rw [← stripReturn_marker_eq_iff.mpr hsuffix] at hlines
  have hfirst := h.not_mem_front
  have hmem : doneMarker ∈ Text.lines content := by
    by_contra hnot
    have hzero : (doneItems (Text.lines content)).length = 0 := by
      rw [doneItems, doneSection_of_not_mem hnot]
      rfl
    omega
  obtain ⟨before, section', rest', hmeant, hbefore, hsection, hrest⟩ := exists_sections hmem
  obtain ⟨hdone, hout⟩ := sections_of hmeant hbefore hsection hrest
  rw [doneItems, hdone] at hlength
  by_cases hpre : pre = []
  · subst hpre
    refine ⟨rfl, fun line hhead => ?_⟩
    obtain ⟨-, hsame⟩ := append_cons_inj_of_not_mem_left hfirst hbefore (hlines.symm.trans hmeant)
    cases section' with
    | nil =>
      have hzero : (nonBlank []).length = 0 := rfl
      omega
    | cons first others =>
      obtain ⟨marked, hcons⟩ := List.head?_eq_some_iff.mp hhead
      rw [hcons] at hsame
      obtain ⟨rfl, -⟩ := List.cons.inj hsame
      exact hsection line List.mem_cons_self
  · -- Otherwise the section that is meant comes later.
    exfalso
    have hne : pre ++ doneMarker ≠ doneMarker := fun heq => hpre (by simpa using heq)
    have hlater : ∃ between, before = front.map stripReturn ++ (pre ++ doneMarker) :: between ∧
        markedSection content ++ rest = between ++ doneMarker :: (section' ++ rest') := by
      rcases List.append_eq_append_iff.mp (hlines.symm.trans hmeant) with
        ⟨between, rfl, htail⟩ | ⟨between, hfront, htail⟩
      · cases between with
        | nil => exact absurd (List.cons.inj htail).1 hne
        | cons first between =>
          have hcons := htail
          obtain ⟨rfl, -⟩ := List.cons.inj htail
          exact ⟨between, rfl, (List.cons.inj hcons).2⟩
      · cases between with
        | nil => exact absurd (List.cons.inj htail).1.symm hne
        | cons first between =>
          obtain ⟨rfl, -⟩ := List.cons.inj htail
          exact absurd (hfront ▸ List.mem_append_right _ List.mem_cons_self) hfirst
    obtain ⟨between, rfl, htail⟩ := hlater
    have hwhere : (∃ gap, between = markedSection content ++ gap ∧
          rest = gap ++ doneMarker :: (section' ++ rest')) ∨
        ∃ others, markedSection content = between ++ doneMarker :: others := by
      rcases List.append_eq_append_iff.mp htail with ⟨gap, hbetween, hgap⟩ | ⟨gap, hmarker, htail⟩
      · exact .inl ⟨gap, hbetween, hgap⟩
      · cases gap with
        | nil => exact .inl ⟨[], by rw [hmarker, List.append_nil, List.append_nil], htail.symm⟩
        | cons first gap =>
          obtain ⟨rfl, -⟩ := List.cons.inj htail
          exact .inr ⟨gap, hmarker⟩
    rcases hwhere with ⟨gap, rfl, hgap⟩ | ⟨others, hmarker⟩
    · -- It comes after the section that is found, which was kept with fewer lines than it has.
      rw [hout, List.append_assoc, List.cons_append, List.append_sublist_append_left,
        List.cons_sublist_cons, List.append_assoc] at houtside
      obtain ⟨heading, back, hcons⟩ := List.exists_cons_of_ne_nil (show rest ≠ [] by simp [hgap])
      have hheading : isHeading heading = true := h.heading heading (by rw [hcons]; rfl)
      have hnone : section'.countP isHeading = 0 :=
        List.countP_eq_zero.mpr fun line hmem => by simp [hsection line hmem]
      have hcount : (gap ++ doneMarker :: rest').countP isHeading =
          (heading :: back).countP isHeading := by
        rw [← hcons, hgap]
        simp [List.countP_append, List.countP_cons, hnone]
      have hkept := (sublist_of_append_sublist (hcons ▸ houtside) hheading hcount).length_le
      have hitems : (nonBlank (markedSection content)).length ≤ (markedSection content).length :=
        List.length_filter_le _ _
      rw [newest, List.length_drop] at hkept
      omega
    · -- Its heading follows that of the section that is found and counts there as an item.
      cases between with
      | cons first between =>
        have hmem : doneMarker ∈ (markedSection content).drop 1 := by simp [hmarker]
        exact absurd (isHeading_of_mem_drop_markedSection content hmem) (by decide)
      | nil =>
        have hothers : ∀ line ∈ others, isHeading line = false := fun line hmem =>
          isHeading_of_mem_drop_markedSection content (by simpa [hmarker] using hmem)
        have hcut : Text.lines content = (front.map stripReturn ++ [pre ++ doneMarker]) ++
            doneMarker :: (others ++ rest) := by
          rw [hlines, hmarker]
          simp
        have hsame := (sections_of hcut (by simp [hfirst, hpre]) hothers h.heading).1
        have hblank : isBlank doneMarker = false := by decide
        rw [hmarker, List.nil_append, nonBlank_cons hblank, ← hsame, hdone] at hlength
        simp at hlength

end CutAt

/-! ### When rotating is safe -/

theorem rotated_self_iff : Rotated threshold files files ↔
    (doneItems (Text.lines files.kanban)).length ≤ threshold := by
  have hnone : oldest threshold (doneItems (Text.lines files.kanban)) = [] ↔
      (doneItems (Text.lines files.kanban)).length ≤ threshold := by
    rw [oldest, List.take_eq_nil_iff, Nat.sub_eq_zero_iff_le, ← List.length_eq_zero_iff]
    omega
  rw [← hnone]
  constructor
  · intro h
    simpa using h.moved
  · intro h
    exact ⟨.refl _, outsideDone_sublist _, by rw [h, List.append_nil]⟩

namespace CutAt

variable {kanban archive : List Char} {items : List (List Char)}

/-- What is read of the archive that was written. -/
theorem nonBlank_archive (h : CutAt content front pre suffix rest afterDone) {text : List Char}
    (threshold : Nat)
    (hitems : nonBlank (markedSection content) = items)
    (hreturns : ∀ item ∈ items, item.getLast? ≠ some '\r')
    (htext : text.getLast? = some '\r' → ∀ line ∈ (Text.lines text).getLast?, isBlank line = true) :
    nonBlank (Text.lines (closeLine text ++ unlines (oldest threshold items))) =
      nonBlank (Text.lines text) ++ oldest threshold items := by
  have holdest : oldest threshold items ⊆ items := List.take_subset _ _
  have hkeep : nonBlank (oldest threshold items) = oldest threshold items :=
    List.filter_eq_self.mpr fun item hmem =>
      (List.mem_filter.mp (hitems ▸ holdest hmem : item ∈ nonBlank (markedSection content))).2
  have hmap : (oldest threshold items).map stripReturn = oldest threshold items :=
    map_stripReturn_eq_self_iff.mpr fun item hmem => hreturns item (holdest hmem)
  obtain ⟨closed, last, hclosed, hread, hlast⟩ := nonBlank_lines_closeLine text
  rw [lines_closeLine_append text fun item hmem => h.not_mem_items hitems item (holdest hmem),
    nonBlank_append, hmap, hkeep, hclosed, hread,
    nonBlank_singleton_eq_iff.mpr (hlast.mpr htext)]

end CutAt

theorem eq_nil_of_unlines_eq {lines' : List (List Char)} (hpre : '\n' ∉ pre)
    (h : unlines lines = unlines lines' ++ pre) : pre = [] := by
  rcases List.eq_nil_or_concat pre with rfl | ⟨pre, c, rfl⟩
  · rfl
  · rcases List.eq_nil_or_concat lines with rfl | ⟨lines, line, rfl⟩
    · simp at h
    · have hlast : '\n' = c := by simpa [unlines] using congrArg List.getLast? h
      exact absurd (by rw [List.concat_eq_append, ← hlast]; simp) hpre

theorem suffix_of_isPrefix (hsuffix : '\n' ∉ suffix)
    (h : ['\n'] <+: suffix ++ '\n' :: s ∨ ['\r', '\n'] <+: suffix ++ '\n' :: s) :
    suffix = [] ∨ suffix = ['\r'] := by
  rcases h with h | h
  · cases suffix with
    | nil => exact .inl rfl
    | cons c suffix =>
      obtain ⟨rfl, -⟩ := List.cons_prefix_cons.mp h
      exact absurd List.mem_cons_self hsuffix
  · cases suffix with
    | nil => exact .inl rfl
    | cons c suffix =>
      obtain ⟨rfl, hline⟩ := List.cons_prefix_cons.mp h
      cases suffix with
      | nil => exact .inr rfl
      | cons c suffix =>
        obtain ⟨rfl, -⟩ := List.cons_prefix_cons.mp hline
        exact absurd (List.mem_cons_of_mem _ List.mem_cons_self) hsuffix

/-- The header is closed, so that only an archive that is there can end in a carriage return. -/
theorem archive_getD_iff {P : List Char → Prop} :
    ((files.archive.getD archiveHeader).getLast? = some '\r' →
        P (files.archive.getD archiveHeader)) ↔
      ∀ text ∈ files.archive, text.getLast? = some '\r' → P text := by
  cases files.archive with
  | none => exact iff_of_true (fun h => absurd h (by decide)) nofun
  | some text => simp

namespace CutAt

variable {kanban archive : List Char}

/-- What is read of the kanban that was written. -/
theorem lines_newest (h : CutAt content front pre suffix rest afterDone)
    {items : List (List Char)} (hitems : nonBlank (markedSection content) = items)
    (hreturns : ∀ item ∈ items, item.getLast? ≠ some '\r')
    (hkanban : unlines front ++ pre ++ "## Done\n".toList ++ unlines (newest threshold items) ++
      afterDone = kanban) :
    Text.lines kanban = front.map stripReturn ++
      (pre ++ doneMarker) :: (newest threshold items ++ rest) := by
  have hnewest : newest threshold items ⊆ items := List.drop_subset _ _
  have hmap : (newest threshold items).map stripReturn = newest threshold items :=
    map_stripReturn_eq_self_iff.mpr fun item hmem => hreturns item (hnewest hmem)
  rw [h.lines_kanban (fun item hmem => h.not_mem_items hitems item (hnewest hmem)) hkanban, hmap]

theorem head?_below (h : CutAt content front pre suffix rest afterDone)
    (hmarked : threshold < (nonBlank (markedSection content)).length) :
    (linesBelowMarker content).head? = (markedSection content).head? := by
  rw [← h.below]
  cases hsection : markedSection content with
  | nil => simp [hsection, nonBlank] at hmarked
  | cons first others => rfl

theorem safelyRotated (h : CutAt files.kanban front pre suffix rest afterDone)
    (hmarked : threshold < (nonBlank (markedSection files.kanban)).length)
    (hkanban : unlines front ++ pre ++ "## Done\n".toList ++
      unlines (newest threshold (nonBlank (markedSection files.kanban))) ++ afterDone = kanban)
    (harchive : closeLine (files.archive.getD archiveHeader) ++
      unlines (oldest threshold (nonBlank (markedSection files.kanban))) = archive)
    (hrotated : Rotated threshold files ⟨kanban, some archive⟩)
    (hkeeps : KeepsDone files ⟨kanban, files.archive⟩) : SafelyRotated threshold files := by
  obtain ⟨hsuffix, hreturns, htext⟩ := (h.perm_iff rfl hkanban harchive).mp hrotated.perm
  have hread := h.nonBlank_archive threshold rfl hreturns htext
  rw [harchive] at hread
  have holdest := List.append_cancel_left (hread.symm.trans hrotated.moved)
  have hlines := h.lines_newest rfl hreturns hkanban
  have hlength := congrArg List.length holdest
  rw [oldest, oldest, List.length_take, List.length_take] at hlength
  have houtside := hrotated.outside
  rw [hlines] at houtside
  obtain ⟨rfl, hbelow⟩ := h.meant_of_rotated hsuffix hmarked (by omega) houtside
  obtain ⟨hdone, hout⟩ := h.sections hsuffix hbelow
  refine ⟨hmarked, ?_, ?_, by rwa [doneItems, hdone], archive_getD_iff.mp htext,
    fun item hitem => ?_⟩
  · obtain ⟨below, hfound⟩ := h.found
    refine ⟨front, suffix ++ '\n' :: below, by simpa using hfound, ?_⟩
    rcases hsuffix with rfl | rfl
    · exact .inl ⟨below, rfl⟩
    · exact .inr ⟨below, rfl⟩
  · rwa [h.head?_below hmarked]
  · rw [hout, doneItems, hdone, List.mem_append, List.mem_cons]
    rcases hkeeps item (List.mem_of_mem_take hitem) with hkept | harchived
    · rw [hlines, List.nil_append, List.mem_append, List.mem_cons, List.mem_append] at hkept
      rcases hkept with hfront | hmarker | hnew | hrest
      · exact .inl (.inl hfront)
      · exact .inl (.inr (.inl hmarker))
      · exact .inr (.inl hnew)
      · exact .inl (.inr (.inr hrest))
    · exact .inr (.inr harchived)

theorem rotated_of_safely (h : CutAt files.kanban front pre suffix rest afterDone)
    (hkanban : unlines front ++ pre ++ "## Done\n".toList ++
      unlines (newest threshold (nonBlank (markedSection files.kanban))) ++ afterDone = kanban)
    (harchive : closeLine (files.archive.getD archiveHeader) ++
      unlines (oldest threshold (nonBlank (markedSection files.kanban))) = archive)
    (hsafe : SafelyRotated threshold files) : Rotated threshold files ⟨kanban, some archive⟩ ∧
      KeepsDone files ⟨kanban, files.archive⟩ := by
  obtain ⟨below, hfound⟩ := h.found
  obtain ⟨front', after, hfound', hending⟩ := hsafe.heading
  obtain ⟨hfront, rfl⟩ := Prod.mk.inj (Option.some.inj (hfound.symm.trans hfound'))
  obtain rfl := eq_nil_of_unlines_eq h.plainPre hfront.symm
  have hsuffix := suffix_of_isPrefix h.plainSuffix hending
  have hbelow := hsafe.below
  rw [h.head?_below hsafe.marked] at hbelow
  obtain ⟨hdone, hout⟩ := h.sections hsuffix hbelow
  have hreturns := hsafe.returns
  have helsewhere := hsafe.elsewhere
  rw [doneItems, hdone] at hreturns helsewhere
  have htext := archive_getD_iff.mpr hsafe.archive
  have hread := h.nonBlank_archive threshold rfl hreturns htext
  have hlines := h.lines_newest rfl hreturns hkanban
  rw [harchive] at hread
  refine ⟨⟨(h.perm_iff rfl hkanban harchive).mpr ⟨hsuffix, hreturns, htext⟩, ?_, ?_⟩, ?_⟩
  · rw [hout, hlines]
    exact ((List.sublist_append_right _ _).cons_cons _).append_left _
  · rw [doneItems, hdone]
    exact hread
  · intro item hitem
    rw [doneItems, hdone, ← oldest_append_newest threshold (nonBlank (markedSection files.kanban)),
      List.mem_append] at hitem
    have hkept : ∀ line, line ∈ outsideDone (Text.lines files.kanban) ∨
        line ∈ newest threshold (nonBlank (markedSection files.kanban)) →
          line ∈ Text.lines kanban := by
      intro line hline
      rw [hout, List.mem_append, List.mem_cons] at hline
      rw [hlines, List.nil_append, List.mem_append, List.mem_cons, List.mem_append]
      rcases hline with (hfront | hmarker | hrest) | hnew
      · exact .inl hfront
      · exact .inr (.inl hmarker)
      · exact .inr (.inr (.inr hrest))
      · exact .inr (.inr (.inl hnew))
    rcases hitem with hold | hnew
    · rcases helsewhere item hold with houtside | hnew | harchived
      · exact .inl (hkept item (.inl houtside))
      · exact .inl (hkept item (.inr hnew))
      · exact .inr harchived
    · exact .inl (hkept item (.inr hnew))

end CutAt

/-- **Rotating keeps its promise** exactly if there is nothing to move, or what is moved is moved
safely. -/
theorem rotatesDone_iff (threshold : Nat) (files : KanbanFiles) : RotatesDone threshold files ↔
    NothingToRotate threshold files.kanban ∨ SafelyRotated threshold files := by
  by_cases hle : (nonBlank (markedSection files.kanban)).length ≤ threshold
  · rw [rotatesDone_of_le hle, rotated_self_iff]
    constructor
    · intro hdone
      exact .inl ⟨hle, hdone⟩
    · rintro (hnothing | hsafe)
      · exact hnothing.done
      · exact absurd hsafe.marked (Nat.not_lt_of_le hle)
  · have hmarked := Nat.lt_of_not_le hle
    have hne : markedSection files.kanban ≠ [] := fun hnil => hle (by simp [hnil, nonBlank])
    obtain ⟨front, pre, suffix, rest, afterDone, hcut⟩ := exists_cutAt hne
    rw [rotatesDone_of_lt hcut.split hmarked rfl rfl]
    constructor
    · rintro ⟨hrotated, hkeeps⟩
      exact .inr (hcut.safelyRotated hmarked rfl rfl hrotated hkeeps)
    · rintro (hnothing | hsafe)
      · exact absurd hnothing.marked hle
      · exact hcut.rotated_of_safely rfl rfl hsafe

end

/-! ### A section without items -/

/-- What was moved is lost where the archive cannot be written. -/
example : rotateDoneItems "kanban.md" "archive.md" (fun access => access = .writeArchive) 1
      ⟨"## Done\n- old\n- new\n".toList, none⟩ =
    .error "failed to write archive.md" ⟨"## Done\n- new\n".toList, none⟩ := by rfl

/-- The section of finished items is empty, and another follows it. -/
def emptySection : KanbanFiles where
  kanban := "## Done\n## Later\n- idea\n".toList
  archive := none

/-- The next heading counts as an item, and what follows it too. -/
theorem not_rotatesDone : ¬ ∀ threshold files, RotatesDone threshold files := by
  intro h
  have hrun : rotateDoneItems "kanban.md" "archive.md" (fun _ => false) 0 emptySection =
      .ok 2 ⟨"## Done\n".toList, some "# Kanban Archive\n## Later\n- idea\n".toList⟩ := by rfl
  have hrotated := (after_of_returns hrun).mp
    (h 0 emptySection "kanban.md" "archive.md" fun _ => false)
  exact absurd (hrotated.outside.subset (show "- idea".toList ∈ _ by decide)) (by decide)

end Batty
