import Batty.Foundation.LineEnds
import Batty.Foundation.Trimming
import Mathlib.Algebra.BigOperators.Group.List.Basic
import Mathlib.Algebra.Order.BigOperators.Group.List
import Mathlib.Algebra.BigOperators.Ring.List
import Mathlib.Algebra.Order.Ring.Nat

/-!
# Review-ready diffs

The gate in front of a review counts the signs in the graphs of a printed diff. In such a diff the
graphs are scaled down together when one file is too large for them, and long names are shortened.
`countsRealLines_iff` says for which diffs the verdict is the one on the lines themselves.
-/

namespace Batty

open Text

def minReviewReadyProductionAdditions : Nat := 10

/-- A line of `git diff --stat`. -/
structure DiffStatEntry where
  path : List Char
  additions : Nat
  deletions : Nat

/-- What stands against a commit. -/
structure CommitValidationGate where
  blockers : List String

/-! ### The gate -/

/-- The path is the scope or lies under it. -/
def pathUnder (path scope : List Char) : Bool :=
  path = scope || (scope.isPrefixOf path && (path.drop scope.length).head? = some '/')

def pathWithinDeclaredScope (path : List Char) (scopeEntries : List (List Char)) : Bool :=
  scopeEntries.any fun scope => pathUnder path scope

def parseDiffStatLine (line : List Char) : Option DiffStatEntry :=
  (splitOnce ['|'] line).bind fun (path, summary) =>
    if trim path = [] then none
    else some
      { path := trim path, additions := summary.count '+', deletions := summary.count '-' }

def parseDiffStatEntries (diffStat : List Char) : List DiffStatEntry :=
  (lines diffStat).filterMap parseDiffStatLine

def isProduction (declaredScope : List (List Char)) (entry : DiffStatEntry) : Bool :=
  ".rs".toList.isSuffixOf entry.path &&
    (declaredScope.isEmpty || pathWithinDeclaredScope entry.path declaredScope)

def productionAdditions (declaredScope : List (List Char)) (entries : List DiffStatEntry) : Nat :=
  ((entries.filter (isProduction declaredScope)).map DiffStatEntry.additions).sum

def productionDeletions (declaredScope : List (List Char)) (entries : List DiffStatEntry) : Nat :=
  ((entries.filter (isProduction declaredScope)).map DiffStatEntry.deletions).sum

/-- What stands against a diff, by its files and sizes. -/
def validateReviewReadyDiffStatWithScope (diffStat : List Char)
    (declaredScope : List (List Char)) : CommitValidationGate :=
  let entries := parseDiffStatEntries diffStat
  if entries.isEmpty then { blockers := ["engineer branch has no diff against main"] }
  else
    let outOfScope :=
      if declaredScope.isEmpty then []
      else (entries.filter fun entry => !pathWithinDeclaredScope entry.path declaredScope).map
        DiffStatEntry.path
    let additions := productionAdditions declaredScope entries
    let deletions := productionDeletions declaredScope entries
    let minimum := minReviewReadyProductionAdditions
    { blockers :=
        (if outOfScope.isEmpty then []
          else ["changes outside task scope fence: " ++
            ", ".intercalate (outOfScope.map String.ofList)]) ++
        (if additions < minimum then
          [s!"need at least {minimum} lines of production Rust added; found {additions}"]
          else []) ++
        (if deletions > additions then
          [s!"production Rust diff is net-destructive ({additions} additions, " ++
            s!"{deletions} deletions)"]
          else []) }

/-! ### What the gate is for -/

section

variable (declaredScope : List (List Char)) (entries : List DiffStatEntry)

/-- A file is changed that no scope holds, although there is one. -/
def LeavesScope : Prop :=
  declaredScope ≠ [] ∧
    ∃ entry ∈ entries, pathWithinDeclaredScope entry.path declaredScope = false

/-- The change is not ready for a review. -/
def Deserves : Prop :=
  LeavesScope declaredScope entries ∨
    productionAdditions declaredScope entries < minReviewReadyProductionAdditions ∨
    productionAdditions declaredScope entries < productionDeletions declaredScope entries

end

/-! ### A printed diff -/

/-- A line of a printed diff: the file, its name as shown, and the signs that are drawn for its
added and deleted lines. -/
structure StatLine where
  file : DiffStatEntry
  shown : List Char
  plus : Nat
  minus : Nat
  namePad : Nat
  numberPad : Nat
  named : shown = file.path ∨ ∃ kept, kept <:+ file.path ∧ shown = "...".toList ++ kept
  oneLine : '\n' ∉ shown
  plus_le : plus ≤ file.additions
  minus_le : minus ≤ file.deletions

namespace StatLine

variable (line : StatLine)

def changed : Nat := line.file.additions + line.file.deletions

def graph : List Char :=
  if line.changed = 0 then []
  else ' ' :: (List.replicate line.plus '+' ++ List.replicate line.minus '-')

def number : List Char := List.replicate line.numberPad ' ' ++ Nat.toDigits 10 line.changed

def text : List Char :=
  ' ' :: (line.shown ++ (List.replicate line.namePad ' ' ++
    ([' ', '|', ' '] ++ (line.number ++ line.graph))))

/-- The file as its graph tells it. -/
def drawn : DiffStatEntry :=
  { line.file with additions := line.plus, deletions := line.minus }

/-- The name is in full, and a reader of the line takes all of it for the name. -/
def NameKept : Prop :=
  line.shown = line.file.path ∧ '|' ∉ line.file.path ∧ trim line.file.path = line.file.path ∧
    line.file.path ≠ []

/-- What is read from the line. A bar in the name ends the name, and the signs behind it count. -/
def reading : Option DiffStatEntry :=
  let name := line.shown.takeWhile (· ≠ '|')
  let rest := line.shown.dropWhile (· ≠ '|')
  if trim name = [] then none
  else some
    { path := trim name
      additions := rest.count '+' + line.plus
      deletions := rest.count '-' + line.minus }

end StatLine

/-- A printed diff. The graphs have `width` signs to draw in: they tell the lines one by one where
that is enough for every file, and are else scaled to the largest, up to the rounding. -/
structure DiffStat where
  lines : List StatLine
  width : Nat
  summary : List Char
  exact : (∀ line ∈ lines, line.changed ≤ width) →
    ∀ line ∈ lines, line.plus = line.file.additions ∧ line.minus = line.file.deletions
  scaled : ∀ largest ∈ lines, width < largest.changed →
    (∀ line ∈ lines, line.changed ≤ largest.changed) → ∀ line ∈ lines,
      line.plus * largest.changed ≤ line.file.additions * width + 2 * largest.changed ∧
      line.file.additions * width ≤ line.plus * largest.changed + 2 * largest.changed ∧
      line.minus * largest.changed ≤ line.file.deletions * width + 2 * largest.changed ∧
      line.file.deletions * width ≤ line.minus * largest.changed + 2 * largest.changed
  summary_newline : '\n' ∉ summary
  summary_bar : '|' ∉ summary

namespace DiffStat

variable (stat : DiffStat) (scope : List (List Char))

/-- There is nothing to sum up where nothing was changed. -/
def text : List Char :=
  if stat.lines.isEmpty then []
  else unlines (stat.lines.map StatLine.text) ++ (stat.summary ++ ['\n'])

def files : List DiffStatEntry := stat.lines.map StatLine.file

def drawn : List DiffStatEntry := stat.lines.map StatLine.drawn

def readings : List DiffStatEntry := stat.lines.filterMap StatLine.reading

def NamesKept : Prop := ∀ line ∈ stat.lines, line.NameKept

/-- The gate blocks the change where the lines themselves deserve it, and nowhere else. -/
def CountsRealLines : Prop :=
  (validateReviewReadyDiffStatWithScope stat.text scope).blockers ≠ [] ↔
    Deserves scope stat.files

/-- Where every name is kept, a change that is out of scope or too small is told from any graph;
another one by what is left of its signs. -/
def GraphsTell : Prop :=
  LeavesScope scope stat.files ∨
    productionAdditions scope stat.files < minReviewReadyProductionAdditions ∨
    if productionDeletions scope stat.files ≤ productionAdditions scope stat.files then
      minReviewReadyProductionAdditions ≤ productionAdditions scope stat.drawn ∧
        productionDeletions scope stat.drawn ≤ productionAdditions scope stat.drawn
    else
      productionAdditions scope stat.drawn < minReviewReadyProductionAdditions ∨
        productionAdditions scope stat.drawn < productionDeletions scope stat.drawn

/-- Where a name was shortened or is read otherwise than it is, a name that is read as one out of
scope must be on a change that deserves it, and else the signs under the names as read must be on
the side of the lines. -/
def ReadingsTell : Prop :=
  (LeavesScope scope stat.readings → Deserves scope stat.files) ∧
  (¬ LeavesScope scope stat.readings →
    (Deserves scope stat.files →
      productionAdditions scope stat.readings < minReviewReadyProductionAdditions ∨
        productionAdditions scope stat.readings < productionDeletions scope stat.readings) ∧
    (¬ Deserves scope stat.files →
      minReviewReadyProductionAdditions ≤ productionAdditions scope stat.readings ∧
        productionDeletions scope stat.readings ≤ productionAdditions scope stat.readings))

end DiffStat

/-! ### The verdict of the gate -/

section

variable {declaredScope : List (List Char)} {entries : List DiffStatEntry}

theorem leavesScope_iff : LeavesScope declaredScope entries ↔
    ¬ (if declaredScope.isEmpty then []
      else (entries.filter fun entry => !pathWithinDeclaredScope entry.path declaredScope).map
        DiffStatEntry.path).isEmpty := by
  cases declaredScope with
  | nil => simp [LeavesScope]
  | cons scope declaredScope => simp [LeavesScope]

/-- A diff without entries is blocked like one with too few additions. -/
theorem blockers_ne_nil_iff {diffStat : List Char} :
    (validateReviewReadyDiffStatWithScope diffStat declaredScope).blockers ≠ [] ↔
      Deserves declaredScope (parseDiffStatEntries diffStat) := by
  unfold validateReviewReadyDiffStatWithScope
  generalize parseDiffStatEntries diffStat = entries
  by_cases hempty : entries.isEmpty = true
  · rw [List.isEmpty_iff.mp hempty]
    simp [Deserves, productionAdditions, minReviewReadyProductionAdditions]
  · rw [if_neg hempty, Deserves, leavesScope_iff]
    simp only [ne_eq, List.append_eq_nil_iff, not_and_or, ite_eq_left_iff, ite_eq_right_iff,
      List.cons_ne_nil, imp_false, not_not, gt_iff_lt]
    tauto

end

/-! ### Reading a line -/

namespace StatLine

variable {line : StatLine} {c : Char}

theorem count_number (hdigit : c.isDigit = false) (hblank : c ≠ ' ') : line.number.count c = 0 := by
  rw [List.count_eq_zero, number, List.mem_append, not_or]
  refine ⟨fun hmem => hblank (List.eq_of_mem_replicate hmem), fun hmem => ?_⟩
  have hd := Nat.isDigit_of_mem_toDigits (by decide) (by decide) hmem
  rw [hdigit] at hd
  cases hd

theorem count_plus_graph : line.graph.count '+' = line.plus := by
  have hle := line.plus_le
  rw [graph, changed]
  split
  · rw [List.count_nil]
    omega
  · simp [List.count_append, List.count_replicate]

theorem count_minus_graph : line.graph.count '-' = line.minus := by
  have hle := line.minus_le
  rw [graph, changed]
  split
  · rw [List.count_nil]
    omega
  · simp [List.count_append, List.count_replicate]

theorem parse_cut {before summary : List Char} (hbar : '|' ∉ before) :
    parseDiffStatLine (before ++ '|' :: summary) =
      if trim before = [] then none
      else some
        { path := trim before
          additions := summary.count '+'
          deletions := summary.count '-' } := by
  have hcut : splitOnce ['|'] (before ++ ['|'] ++ summary) = some (before, summary) :=
    splitOnce_append List.not_mem_nil fun hsub => hbar (hsub.subset List.mem_cons_self)
  rw [← List.singleton_append, ← List.append_assoc, parseDiffStatLine, hcut]
  rfl

theorem trim_indented (name : List Char) : trim (' ' :: name) = trim name :=
  trim_blanks_append (List.all_eq_true.mp (by decide : [' '].all isWhitespace = true)) name

/-- The name ends at its own first bar, or else at the one that is printed behind it. -/
theorem parse_text : parseDiffStatLine line.text = line.reading := by
  have hplus : line.number.count '+' = 0 := count_number (by decide) (by decide)
  have hminus : line.number.count '-' = 0 := count_number (by decide) (by decide)
  have hname : '|' ∉ ' ' :: line.shown.takeWhile (· ≠ '|') := by
    rw [List.mem_cons, not_or]
    exact ⟨by decide, fun hmem => by simpa using List.mem_takeWhile_imp hmem⟩
  have hshown := List.takeWhile_append_dropWhile (p := (· ≠ '|')) (l := line.shown)
  unfold reading
  cases hrest : line.shown.dropWhile (· ≠ '|') with
  | nil =>
    -- There is no bar in the name, and blanks alone stand between it and the first one.
    rw [hrest, List.append_nil] at hshown
    have hblanks : ∀ c ∈ List.replicate line.namePad ' ' ++ [' '], isWhitespace c = true := by
      intro c hc
      rcases List.mem_append.mp hc with hc | hc
      · rw [List.eq_of_mem_replicate hc]
        decide
      · rw [List.mem_singleton.mp hc]
        decide
    have htext : line.text = ' ' :: line.shown.takeWhile (· ≠ '|') ++
        (List.replicate line.namePad ' ' ++ [' ']) ++
          '|' :: ' ' :: (line.number ++ line.graph) := by
      rw [hshown, text]
      simp
    have hbar : '|' ∉ ' ' :: line.shown.takeWhile (· ≠ '|') ++
        (List.replicate line.namePad ' ' ++ [' ']) := by
      rw [List.mem_append, not_or]
      exact ⟨hname, fun hmem => absurd (hblanks _ hmem) (by decide)⟩
    rw [htext, parse_cut hbar, trim_append_blanks hblanks, trim_indented]
    simp [List.count_append, hplus, hminus, count_plus_graph, count_minus_graph]
  | cons c rest =>
    -- What follows the bar in the name is read as if it were drawn.
    have hc : c = '|' := by
      have hhead := List.head?_dropWhile_not (· ≠ '|') line.shown
      rw [hrest] at hhead
      simpa using hhead
    subst hc
    rw [hrest] at hshown
    have htext : line.text = ' ' :: line.shown.takeWhile (· ≠ '|') ++ '|' :: (rest ++
        (List.replicate line.namePad ' ' ++ ([' ', '|', ' '] ++ (line.number ++ line.graph)))) := by
      conv_lhs => rw [text, ← hshown]
      simp
    rw [htext, parse_cut hname, trim_indented]
    simp [List.count_append, List.count_replicate, hplus, hminus, count_plus_graph,
      count_minus_graph]

theorem mem_graph (hc : c ∈ line.graph) : c = ' ' ∨ c = '+' ∨ c = '-' := by
  rw [graph] at hc
  split at hc
  · exact absurd hc List.not_mem_nil
  · rcases List.mem_cons.mp hc with rfl | hc
    · exact .inl rfl
    · rcases List.mem_append.mp hc with hc | hc
      · exact .inr (.inl (List.eq_of_mem_replicate hc))
      · exact .inr (.inr (List.eq_of_mem_replicate hc))

theorem mem_number (hc : c ∈ line.number) : c = ' ' ∨ c.isDigit = true := by
  rcases List.mem_append.mp hc with hc | hc
  · exact .inl (List.eq_of_mem_replicate hc)
  · exact .inr (Nat.isDigit_of_mem_toDigits (by decide) (by decide) hc)

/-- Behind the name there is no sign that ends a line. -/
theorem not_mem_number_append (hblank : c ≠ ' ') (hplus : c ≠ '+') (hminus : c ≠ '-')
    (hdigit : c.isDigit = false) : c ∉ line.number ++ line.graph := by
  intro hc
  rcases List.mem_append.mp hc with hc | hc
  · rcases mem_number hc with hc | hc
    · exact hblank hc
    · rw [hdigit] at hc
      cases hc
  · rcases mem_graph hc with hc | hc | hc
    · exact hblank hc
    · exact hplus hc
    · exact hminus hc

theorem newline_not_mem_text : '\n' ∉ line.text := by
  have htail : '\n' ∉ line.number ++ line.graph :=
    not_mem_number_append (by decide) (by decide) (by decide) (by decide)
  rw [text, List.mem_cons, List.mem_append, List.mem_append, List.mem_append]
  rintro (h | h | h | h | h)
  · exact absurd h (by decide)
  · exact line.oneLine h
  · exact absurd (List.eq_of_mem_replicate h) (by decide)
  · exact absurd h (by decide)
  · exact htail h

theorem stripReturn_text : stripReturn line.text = line.text := by
  have htail : '\r' ∉ line.number ++ line.graph :=
    not_mem_number_append (by decide) (by decide) (by decide) (by decide)
  have hne : line.number ++ line.graph ≠ [] := by
    rw [number]
    simp
  refine stripReturn_of_getLast? fun hlast => ?_
  rw [text, ← List.append_assoc, ← List.append_assoc, ← List.cons_append,
    List.getLast?_append_of_ne_nil _ hne] at hlast
  exact htail (List.mem_of_getLast? hlast)

end StatLine

/-! ### Reading a diff -/

namespace DiffStat

variable {stat : DiffStat} {scope : List (List Char)}

theorem parse_diffText : parseDiffStatEntries stat.text = stat.readings := by
  unfold text readings
  cases hlines : stat.lines with
  | nil => rfl
  | cons line rest =>
    rw [← hlines]
    have hempty : ¬ stat.lines.isEmpty = true := by
      rw [hlines]
      simp
    have hnewline : ∀ text ∈ stat.lines.map StatLine.text, '\n' ∉ text := by
      intro text htext
      obtain ⟨line, -, rfl⟩ := List.mem_map.mp htext
      exact StatLine.newline_not_mem_text
    have hsummary : parseDiffStatLine (stripReturn stat.summary) = none := by
      have hbar : '|' ∉ stripReturn stat.summary := not_mem_stripReturn stat.summary_bar
      have hcut : splitOnce ['|'] (stripReturn stat.summary) = none :=
        splitOnce_eq_none_iff.mpr fun hsub => hbar (hsub.subset List.mem_cons_self)
      rw [parseDiffStatLine, hcut]
      rfl
    rw [if_neg hempty, parseDiffStatEntries, lines_unlines_append hnewline,
      lines_append_newline stat.summary_newline, lines_of_not_mem List.not_mem_nil,
      List.filterMap_append, List.map_map, List.filterMap_map]
    have hread : parseDiffStatLine ∘ stripReturn ∘ StatLine.text = StatLine.reading := by
      funext line
      simp only [Function.comp_apply, StatLine.stripReturn_text, StatLine.parse_text]
    rw [hread]
    simp [hsummary]

theorem countsRealLines_iff_readings :
    stat.CountsRealLines scope ↔ (Deserves scope stat.readings ↔ Deserves scope stat.files) := by
  rw [CountsRealLines, blockers_ne_nil_iff, parse_diffText]

/-! ### Names that are kept -/

theorem reading_of_nameKept {line : StatLine} (h : line.NameKept) :
    line.reading = some line.drawn := by
  obtain ⟨hshown, hbar, htrim, hne⟩ := h
  have hall : ∀ c ∈ line.file.path, decide (c ≠ '|') = true :=
    fun c hc => decide_eq_true fun heq => hbar (heq ▸ hc)
  simp only [StatLine.reading, hshown, List.takeWhile_eq_self_iff.mpr hall,
    List.dropWhile_eq_nil_iff.mpr hall, htrim, if_neg hne, List.count_nil, Nat.zero_add]
  rfl

theorem readings_of_namesKept (h : stat.NamesKept) : stat.readings = stat.drawn := by
  rw [readings, drawn, ← List.filterMap_eq_map]
  exact List.filterMap_congr fun line hline => reading_of_nameKept (h line hline)

theorem leavesScope_drawn : LeavesScope scope stat.drawn ↔ LeavesScope scope stat.files := by
  simp [LeavesScope, drawn, files, StatLine.drawn]

theorem production_drawn : stat.drawn.filter (isProduction scope) =
    (stat.lines.filter fun line => isProduction scope line.file).map StatLine.drawn := by
  rw [drawn, List.filter_map]
  rfl

theorem production_files : stat.files.filter (isProduction scope) =
    (stat.lines.filter fun line => isProduction scope line.file).map StatLine.file := by
  rw [files, List.filter_map]
  rfl

theorem productionAdditions_drawn_le :
    productionAdditions scope stat.drawn ≤ productionAdditions scope stat.files := by
  rw [productionAdditions, productionAdditions, production_drawn, production_files, List.map_map,
    List.map_map]
  exact List.sum_le_sum fun line _ => line.plus_le

theorem deserves_drawn_iff :
    (Deserves scope stat.drawn ↔ Deserves scope stat.files) ↔ stat.GraphsTell scope := by
  have hle : productionAdditions scope stat.drawn ≤ productionAdditions scope stat.files :=
    productionAdditions_drawn_le
  rw [Deserves, Deserves, GraphsTell, leavesScope_drawn]
  by_cases hscope : LeavesScope scope stat.files
  · simp [hscope]
  · simp only [hscope, false_or]
    split <;> omega

theorem deserves_readings_iff :
    (Deserves scope stat.readings ↔ Deserves scope stat.files) ↔ stat.ReadingsTell scope := by
  rw [ReadingsTell]
  by_cases hfiles : Deserves scope stat.files
  · simp only [hfiles, iff_true, not_true_eq_false, false_implies, and_true, implies_true, true_and,
      true_implies]
    rw [Deserves]
    tauto
  · simp only [hfiles, iff_false, not_false_eq_true, false_implies, true_implies, true_and,
      imp_false]
    rw [Deserves, not_or, not_or, Nat.not_lt, Nat.not_lt]
    tauto

/-- **The gate counts real lines** exactly where every name is kept and the graphs tell what the
lines do, or a name is not kept and what is read all the same tells it. -/
theorem countsRealLines_iff (stat : DiffStat) (scope : List (List Char)) :
    stat.CountsRealLines scope ↔
      (stat.NamesKept ∧ stat.GraphsTell scope) ∨ (¬ stat.NamesKept ∧ stat.ReadingsTell scope) := by
  rw [countsRealLines_iff_readings]
  by_cases hnames : stat.NamesKept
  · rw [readings_of_namesKept hnames, deserves_drawn_iff]
    simp [hnames]
  · rw [deserves_readings_iff]
    simp [hnames]

end DiffStat

/-- A Rust file of a hundred lines beside a data file of ten thousand. -/
def besideData : DiffStat where
  lines :=
    [{ file := { path := "src/lib.rs".toList, additions := 100, deletions := 0 }
       shown := "src/lib.rs".toList, plus := 1, minus := 0, namePad := 0, numberPad := 2
       named := .inl rfl, oneLine := by decide, plus_le := by decide, minus_le := le_rfl },
     { file := { path := "data.json".toList, additions := 10000, deletions := 0 }
       shown := "data.json".toList, plus := 59, minus := 0, namePad := 1, numberPad := 0
       named := .inl rfl, oneLine := by decide, plus_le := by decide, minus_le := le_rfl }]
  width := 59
  summary := " 2 files changed, 10100 insertions(+)".toList
  exact := fun h => absurd (h _ (List.mem_cons_of_mem _ List.mem_cons_self)) (by decide)
  scaled := by
    simp [StatLine.changed]
  summary_newline := by decide
  summary_bar := by decide

/-- Beside a large file a hundred lines are drawn as one sign. -/
theorem not_countsRealLines : ¬ besideData.CountsRealLines [] := by
  rw [DiffStat.countsRealLines_iff_readings]
  intro heq
  have hadded : productionAdditions [] besideData.files = 100 := by decide
  have hdeleted : productionDeletions [] besideData.files = 0 := by decide
  have hread : productionAdditions [] besideData.readings = 1 := by decide
  have hblocked : Deserves [] besideData.readings := .inr (.inl (by rw [hread]; decide))
  rcases heq.mp hblocked with ⟨hscope, -⟩ | hfew | hless
  · exact hscope rfl
  · rw [hadded] at hfew
    exact absurd hfew (by decide)
  · rw [hadded, hdeleted] at hless
    exact absurd hless (by decide)

end Batty
