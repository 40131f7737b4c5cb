import Batty.Foundation.Fallible
import Batty.Foundation.LineEnds
import Batty.Foundation.Lists
import Batty.Foundation.Trimming
import Mathlib.Data.List.Nodup

/-!
# The parity matrix

`PARITY.md` is a YAML frontmatter and a table with one row for each behavior. When a behavior was
verified, its row and two of the metadata fields are brought up to date, and the file is rendered
anew from what was parsed.

So only what the report holds comes through. The metadata values are written without quotes, and
are read back where they read the same unquoted; further keys and comments, and what stands around
the table, are gone (`not_updatesFaithfully`: the template that projects start from loses its
heading and its legend). The rows always come through. `updatesFaithfully_iff` is the exact
condition.
-/

namespace Batty

namespace Parity

open Text

/-! ### The report -/

/-- How far the spec, the test or the code of a behavior is. -/
inductive ParityStatus where
  | notStarted
  | draft
  | complete
deriving DecidableEq

/-- What the comparison with the original said of a behavior. -/
inductive VerificationStatus where
  | notStarted
  | pass
  | fail
deriving DecidableEq

namespace ParityStatus

def text : ParityStatus → List Char
  | notStarted => "--".toList
  | draft => "draft".toList
  | complete => "complete".toList

def parse (input : List Char) : Except String ParityStatus :=
  if input = "--".toList then .ok notStarted
  else if input = "draft".toList then .ok draft
  else if input = "complete".toList then .ok complete
  else .error s!"invalid parity status '{String.ofList input}'"

end ParityStatus

namespace VerificationStatus

def text : VerificationStatus → List Char
  | notStarted => "--".toList
  | pass => "PASS".toList
  | fail => "FAIL".toList

def parse (input : List Char) : Except String VerificationStatus :=
  if input = "--".toList then .ok notStarted
  else if input = "PASS".toList then .ok pass
  else if input = "FAIL".toList then .ok fail
  else .error s!"invalid verification status '{String.ofList input}'"

end VerificationStatus

/-- A row of the table, for one behavior. -/
structure ParityRow where
  behavior : List Char
  spec : ParityStatus
  test : ParityStatus
  implementation : ParityStatus
  verified : VerificationStatus
  notes : List Char
deriving DecidableEq

/-- The frontmatter of a report. -/
structure ParityMetadata where
  project : List Char
  target : List Char
  sourcePlatform : List Char
  targetLanguage : List Char
  lastVerified : List Char
  overallParity : Option (List Char)
deriving DecidableEq

/-- The file `PARITY.md`, as it is parsed and rendered. -/
structure ParityReport where
  metadata : ParityMetadata
  rows : List ParityRow
deriving DecidableEq

/-! ### Parsing -/

/-- The value of a YAML key. Where a value is optional, a null is none; where a text is asked for,
it is what was written. -/
inductive Node where
  | scalar (text : List Char)
  | null (text : List Char)
  | collection
deriving DecidableEq

def Node.text : Node → Option (List Char)
  | scalar text => some text
  | null text => some text
  | collection => none

/-- The entries of a YAML mapping, as they are written. -/
abbrev Entries := List (List Char × Node)

/-- All values of a key. -/
def Entries.values (entries : Entries) (key : List Char) : List Node :=
  (entries.filter fun entry => entry.1 = key).map Prod.snd

/-- A field that is a text. It is there once. -/
def Entries.field (entries : Entries) (key : String) : Option (List Char) :=
  match entries.values key.toList with
  | [node] => node.text
  | _ => none

def Entries.optionalField (entries : Entries) (key : String) : Option (Option (List Char)) :=
  match entries.values key.toList with
  | [] => some none
  | [.scalar text] => some (some text)
  | [.null _] => some none
  | _ => none

def ParityMetadata.ofEntries (entries : Entries) : Option ParityMetadata := do
  let project ← entries.field "project"
  let target ← entries.field "target"
  let sourcePlatform ← entries.field "source_platform"
  let targetLanguage ← entries.field "target_language"
  let lastVerified ← entries.field "last_verified"
  let overallParity ← entries.optionalField "overall_parity"
  return ⟨project, target, sourcePlatform, targetLanguage, lastVerified, overallParity⟩

def splitFrontmatter (input : List Char) : Except String (List Char × List Char) :=
  if (lines input).head? ≠ some "---".toList then
    .error "PARITY.md must start with YAML frontmatter"
  else
    match splitOnce "\n".toList input with
    | none => .error "PARITY.md frontmatter is malformed"
    | some (_, rest) =>
      match splitOnce "\n---".toList rest with
      | none => .error "PARITY.md frontmatter is missing closing delimiter"
      | some (frontmatter, body) => .ok (frontmatter, trim (trimStartMatches (· = '\n') body))

def splitTableLine (line : List Char) : List (List Char) :=
  ((trimEndMatches (· = '|') (trimStartMatches (· = '|') line)).splitOn '|').map trim

def isTableLine (line : List Char) : Bool := (trim line).head? = some '|'

def tableLines (body : List Char) : List (List Char) := ((lines body).filter isTableLine).map trim

def columns : List (List Char) :=
  ["Behavior", "Spec", "Test", "Implementation", "Verified", "Notes"].map String.toList

def parseRow : List (List Char) → Except String ParityRow
  | [behavior, spec, test, implementation, verified, notes] => do
    let spec ← ParityStatus.parse spec
    let test ← ParityStatus.parse test
    let implementation ← ParityStatus.parse implementation
    let verified ← VerificationStatus.parse verified
    return ⟨behavior, spec, test, implementation, verified, notes⟩
  | _ => .error "PARITY.md rows must have exactly 6 columns"

def parseTableRows (body : List Char) : Except String (List ParityRow) :=
  match tableLines body with
  | header :: _ :: row :: rows =>
    if splitTableLine header = columns then
      (row :: rows).mapM fun line => parseRow (splitTableLine line)
    else .error ("PARITY.md table columns must be: " ++
      "Behavior | Spec | Test | Implementation | Verified | Notes")
  | _ => .error "PARITY.md table must include a header, separator, and at least one row"

variable (fromStr : List Char → Option Entries)

/-- `ParityReport::parse`, given the reading of YAML. -/
def ParityReport.parse (input : List Char) : Except String ParityReport := do
  let (frontmatter, body) ← splitFrontmatter input
  match (fromStr frontmatter).bind ParityMetadata.ofEntries with
  | none => .error "failed to parse PARITY.md frontmatter"
  | some metadata =>
    let rows ← parseTableRows body
    if rows.isEmpty then .error "PARITY.md must include at least one behavior row"
    else return ⟨metadata, rows⟩

/-! ### Updating -/

/-- The comparison of two runs. -/
structure DiffReport where
  matchingFrames : Nat
  divergentFrames : Nat
  timingDifference : Int

namespace DiffReport

def passed (diff : DiffReport) : Bool := diff.divergentFrames = 0 && diff.timingDifference = 0

def summary (diff : DiffReport) : List Char :=
  "matching_frames=".toList ++ (toString diff.matchingFrames).toList ++
    ", divergent_frames=".toList ++ (toString diff.divergentFrames).toList ++
    ", timing_difference=".toList ++ (toString diff.timingDifference).toList

/-- What `verify_project` puts down for a behavior. -/
def status (diff : DiffReport) : VerificationStatus := if diff.passed then .pass else .fail

end DiffReport

/-- A day of the calendar. -/
structure NaiveDate where
  year : Nat
  month : Nat
  day : Nat
  year_lt : year < 10000

def padded (width n : Nat) : List Char :=
  List.replicate (width - (Nat.toDigits 10 n).length) '0' ++ Nat.toDigits 10 n

def NaiveDate.text (date : NaiveDate) : List Char :=
  padded 4 date.year ++ '-' :: padded 2 date.month ++ '-' :: padded 2 date.day

/-- The counts of a report. -/
structure ParitySummary where
  totalBehaviors : Nat
  specComplete : Nat
  testsComplete : Nat
  implementationComplete : Nat
  verifiedPass : Nat
  verifiedFail : Nat
  overallParityPct : Nat

def ParityReport.summary (report : ParityReport) : ParitySummary where
  totalBehaviors := report.rows.length
  specComplete := report.rows.countP fun row => row.spec = .complete
  testsComplete := report.rows.countP fun row => row.test = .complete
  implementationComplete := report.rows.countP fun row => row.implementation = .complete
  verifiedPass := report.rows.countP fun row => row.verified = .pass
  verifiedFail := report.rows.countP fun row => row.verified = .fail
  overallParityPct := (report.rows.countP fun row => row.verified = .pass) * 100 / report.rows.length

/-- The first entry of a kind is changed, if there is one. -/
def updateFirst {α : Type} (p : α → Bool) (f : α → α) : List α → Option (List α)
  | [] => none
  | a :: rest => if p a then some (f a :: rest) else (updateFirst p f rest).map (a :: ·)

def ParityReport.updateVerification (today : NaiveDate) (behavior : List Char)
    (verified : VerificationStatus) (notes : List Char) (report : ParityReport) :
    Except String ParityReport :=
  match updateFirst (fun row => row.behavior = behavior)
      (fun row => { row with verified, notes }) report.rows with
  | none => .error s!"behavior `{String.ofList behavior}` not found in PARITY.md"
  | some rows =>
    let pct := (ParityReport.summary ⟨report.metadata, rows⟩).overallParityPct
    .ok ⟨{ report.metadata with
      lastVerified := today.text
      overallParity := some (Nat.toDigits 10 pct ++ ['%']) }, rows⟩

/-! ### Rendering -/

def ParityRow.cells (row : ParityRow) : List (List Char) :=
  [row.behavior, row.spec.text, row.test.text, row.implementation.text, row.verified.text, row.notes]

def tableLine (cells : List (List Char)) : List Char :=
  "| ".toList ++ " | ".toList.intercalate cells ++ " |".toList

/-- A line of the frontmatter. The value is not quoted. -/
def plainLine (entry : List Char × List Char) : List Char := entry.1 ++ ": ".toList ++ entry.2

def ParityMetadata.entries (metadata : ParityMetadata) : List (List Char × List Char) :=
  [("project".toList, metadata.project), ("target".toList, metadata.target),
    ("source_platform".toList, metadata.sourcePlatform),
    ("target_language".toList, metadata.targetLanguage),
    ("last_verified".toList, metadata.lastVerified)] ++
  metadata.overallParity.toList.map fun overallParity => ("overall_parity".toList, overallParity)

def dashes : List (List Char) := List.replicate 6 "---".toList

def ParityReport.render (report : ParityReport) : List Char :=
  unlines ("---".toList :: report.metadata.entries.map plainLine ++ ["---".toList, [],
    tableLine columns, tableLine dashes] ++ report.rows.map fun row => tableLine row.cells)

/-- `update_parity_verification`, given what the file holds. -/
def updateParityVerification (today : NaiveDate) (behavior : List Char)
    (verified : VerificationStatus) (notes content : List Char) : Except String (List Char) := do
  let report ← ParityReport.parse fromStr content
  let report ← report.updateVerification today behavior verified notes
  return report.render

/-! ### What is claimed -/

/-- What a file says: its metadata, comments and table, and what stands outside the table. -/
structure Document where
  entries : Entries
  comments : List (List Char)
  table : List (List (List Char))
  prose : List (List Char)

-- The comments that a YAML text has, on lines of their own and behind values.
variable (commentsOf : List Char → List (List Char))

def readDocument (content : List Char) : Option Document := do
  let (frontmatter, body) ← (splitFrontmatter content).toOption
  let entries ← fromStr frontmatter
  return {
    entries
    comments := commentsOf frontmatter
    table := (tableLines body).map splitTableLine
    prose := (lines body).filter fun line => !isTableLine line && !isBlank line }

/-- The values of a key as texts. -/
def Document.texts (document : Document) (key : String) : List (Option (List Char)) :=
  (document.entries.values key.toList).map Node.text

/-- The first row of the behavior has new columns. -/
def updateTable (behavior : List Char) (verified : VerificationStatus) (notes : List Char) :
    List (List (List Char)) → Option (List (List (List Char)))
  | header :: separator :: rows =>
    (updateFirst (fun cells => cells.head? = some behavior)
      (fun cells => (cells.set 4 verified.text).set 5 notes) rows).map
        fun rows => header :: separator :: rows
  | _ => none

/-- Only the row and two of the metadata fields differ. -/
structure OnlyUpdated (behavior : List Char) (verified : VerificationStatus) (notes : List Char)
    (document updated : Document) : Prop where
  metadata : ∀ key, key ≠ "last_verified" → key ≠ "overall_parity" →
    updated.texts key = document.texts key
  comments : updated.comments = document.comments
  table : some updated.table = updateTable behavior verified notes document.table
  prose : updated.prose = document.prose

/-- What is written is the updated report, and apart from the update it is the old file. -/
def UpdatesFaithfully (today : NaiveDate) (behavior : List Char) (verified : VerificationStatus)
    (notes content : List Char) : Prop :=
  ∃ report updated written document document',
    ParityReport.parse fromStr content = .ok report ∧
    report.updateVerification today behavior verified notes = .ok updated ∧
    updateParityVerification fromStr today behavior verified notes content = .ok written ∧
    ParityReport.parse fromStr written = .ok updated ∧
    readDocument fromStr commentsOf content = some document ∧
    readDocument fromStr commentsOf written = some document' ∧
    OnlyUpdated behavior verified notes document document'

/-! ### When it holds -/

/-- Written without quotes, the value is read as it is. -/
structure ReadsAs (entry : List Char × List Char) (node : List Char × Node) : Prop where
  oneLine : '\n' ∉ entry.2
  key : node.1 = entry.1
  value : node.2.text = some entry.2
  reads : fromStr (plainLine entry) = some [node]

def ReadsBack (entry : List Char × List Char) : Prop := ∃ node, ReadsAs fromStr entry node

def parityKeys : List String :=
  ["project", "target", "source_platform", "target_language", "last_verified", "overall_parity"]

/-- There is nothing in the file but the report, and its metadata needs no quotes. -/
structure HoldsOnlyReport (metadata : ParityMetadata) (document : Document) : Prop where
  plain : ∀ entry ∈ [("project".toList, metadata.project), ("target".toList, metadata.target),
    ("source_platform".toList, metadata.sourcePlatform),
    ("target_language".toList, metadata.targetLanguage)], ReadsBack fromStr entry
  keys : ∀ key ∉ parityKeys, document.texts key = []
  comments : document.comments = []
  separator : document.table[1]? = some dashes
  prose : document.prose = []

/-- A key that is a word. -/
def BareKey (key : List Char) : Prop := key ≠ [] ∧ ∀ c ∈ key, c.isLower ∨ c = '_'

instance : DecidablePred BareKey := fun key =>
  decidable_of_iff (key ≠ [] ∧ (key.all fun c => c.isLower || c = '_') = true) (by simp [BareKey])

/-- The lines of a frontmatter, up to the fence. -/
def plainText (entries : List (List Char × List Char)) : List Char :=
  "\n".toList.intercalate (entries.map plainLine)

/-- **What is relied on** in the reader of YAML. Entries that are read on their own are read
together, and hold no comment, which would be cut off a value. Conversely, where every value comes
back, also if the text was cut at a line of dashes, then each one stands on its line and is read
there on its own: a value that goes on over several lines, or begins with a sign of its own, is not
read as it is written. Digits and signs are text. -/
structure ReadsPlain : Prop where
  together : ∀ entries nodes, entries ≠ [] → (∀ entry ∈ entries, BareKey entry.1) →
    List.Forall₂ (ReadsAs fromStr) entries nodes →
    fromStr (plainText entries) = some nodes ∧ commentsOf (plainText entries) = []
  apart : ∀ entries text nodes, (∀ entry ∈ entries, BareKey entry.1) →
    (text = plainText entries ∨ text ++ "\n---".toList <+: plainText entries) →
    fromStr text = some nodes →
    (∀ entry ∈ entries, (nodes.values entry.1).map Node.text = [some entry.2]) →
    text = plainText entries ∧ ∀ entry ∈ entries, ReadsBack fromStr entry
  numbers : ∀ key ∈ parityKeys, ∀ value : List Char, (∃ c ∈ value.head?, c.isDigit) →
    (∀ c ∈ value, c.isDigit ∨ c = '-' ∨ c = '%') →
    fromStr (plainLine (key.toList, value)) = some [(key.toList, .scalar value)]

/-! ### The table -/

section

variable {cells : List (List Char)} {line : List Char} {row : ParityRow}

theorem ParityStatus.parse_text (status : ParityStatus) :
    ParityStatus.parse status.text = .ok status := by
  cases status <;> rfl

theorem VerificationStatus.parse_text (status : VerificationStatus) :
    VerificationStatus.parse status.text = .ok status := by
  cases status <;> rfl

theorem ParityStatus.text_of_parse {input : List Char} {status : ParityStatus}
    (h : ParityStatus.parse input = .ok status) : status.text = input := by
  simp only [ParityStatus.parse] at h
  split_ifs at h with hnone hdraft hcomplete <;> cases h
  exacts [hnone.symm, hdraft.symm, hcomplete.symm]

theorem VerificationStatus.text_of_parse {input : List Char} {status : VerificationStatus}
    (h : VerificationStatus.parse input = .ok status) : status.text = input := by
  simp only [VerificationStatus.parse] at h
  split_ifs at h with hnone hpass hfail <;> cases h
  exacts [hnone.symm, hpass.symm, hfail.symm]

theorem parseRow_cells (row : ParityRow) : parseRow row.cells = .ok row := by
  simp only [ParityRow.cells, parseRow, ParityStatus.parse_text, VerificationStatus.parse_text]
  rfl

/-- A row is parsed from its own cells. -/
theorem cells_of_parseRow (h : parseRow cells = .ok row) : row.cells = cells := by
  unfold parseRow at h
  split at h
  · obtain ⟨spec, hspec, h⟩ := bind_eq_ok_iff.mp h
    obtain ⟨test, htest, h⟩ := bind_eq_ok_iff.mp h
    obtain ⟨implementation, himplementation, h⟩ := bind_eq_ok_iff.mp h
    obtain ⟨verified, hverified, h⟩ := bind_eq_ok_iff.mp h
    cases h
    rw [ParityRow.cells, ParityStatus.text_of_parse hspec, ParityStatus.text_of_parse htest,
      ParityStatus.text_of_parse himplementation, VerificationStatus.text_of_parse hverified]
  · cases h

/-- A cell as it stands in a file. -/
structure IsCell (cell : List Char) : Prop where
  oneCell : '|' ∉ cell
  oneLine : '\n' ∉ cell
  trimmed : trim cell = cell

theorem intercalate_padded (hne : cells ≠ []) :
    ' ' :: " | ".toList.intercalate cells ++ [' '] =
      ['|'].intercalate (cells.map fun cell => ' ' :: cell ++ [' ']) := by
  induction cells with
  | nil => exact absurd rfl hne
  | cons cell cells ih =>
    cases cells with
    | nil => simp
    | cons cell' cells =>
      have hrest := ih (List.cons_ne_nil _ _)
      rw [List.map_cons] at hrest
      rw [List.map_cons, List.map_cons, List.intercalate_cons_cons, List.intercalate_cons_cons,
        ← hrest]
      simp

theorem tableLine_eq (cells : List (List Char)) :
    tableLine cells = '|' :: (' ' :: " | ".toList.intercalate cells ++ [' ']) ++ ['|'] := by
  simp [tableLine]

theorem trim_tableLine (cells : List (List Char)) : trim (tableLine cells) = tableLine cells := by
  rw [tableLine_eq]
  refine trim_eq_self (fun c hc => ?_) fun c hc => ?_
  · cases hc
    rfl
  · rw [List.getLast?_concat] at hc
    cases hc
    rfl

/-- **A line of the table** is split into the cells it was made of. -/
theorem splitTableLine_tableLine (hcells : ∀ cell ∈ cells, IsCell cell) (hne : cells ≠ []) :
    splitTableLine (tableLine cells) = cells := by
  have hinner : trimEndMatches (· = '|') (trimStartMatches (· = '|') (tableLine cells)) =
      ' ' :: " | ".toList.intercalate cells ++ [' '] := by
    rw [tableLine_eq]
    simp [trimStartMatches, trimEndMatches]
  have hsplit : (' ' :: " | ".toList.intercalate cells ++ [' ']).splitOn '|' =
      cells.map fun cell => ' ' :: cell ++ [' '] := by
    rw [intercalate_padded hne]
    refine List.splitOn_intercalate '|' (fun piece hpiece hmem => ?_) (by simpa using hne)
    obtain ⟨cell, hcell, rfl⟩ := List.mem_map.mp hpiece
    exact (hcells cell hcell).oneCell (by simpa using hmem)
  have htrim : ∀ cell ∈ cells, (trim ∘ fun cell => ' ' :: cell ++ [' ']) cell = id cell := by
    intro cell hcell
    show trim ([' '] ++ cell ++ [' ']) = cell
    rw [trim_append_blanks (List.all_eq_true.mp (by decide)),
      trim_blanks_append (List.all_eq_true.mp (by decide)),
      (hcells cell hcell).trimmed]
  rw [splitTableLine, hinner, hsplit, List.map_map, List.map_congr_left htrim, List.map_id]

theorem isTableLine_tableLine (cells : List (List Char)) : isTableLine (tableLine cells) = true := by
  rw [isTableLine, trim_tableLine, tableLine_eq]
  rfl

theorem not_mem_tableLine (hcells : ∀ cell ∈ cells, IsCell cell) : '\n' ∉ tableLine cells := by
  intro hmem
  rw [tableLine, List.mem_append, List.mem_append] at hmem
  rcases hmem with (hmem | hmem) | hmem
  · revert hmem
    decide
  · rcases mem_of_mem_intercalate hmem with hsep | ⟨cell, hcell, hmem⟩
    · revert hsep
      decide
    · exact (hcells cell hcell).oneLine hmem
  · revert hmem
    decide

/-! ### Lines of a table and the lines around it -/

/-- The cells of a line of a file. -/
theorem isCell_of_mem_splitTableLine (hline : '\n' ∉ line) {cell : List Char}
    (h : cell ∈ splitTableLine line) : IsCell cell := by
  obtain ⟨piece, hpiece, rfl⟩ := List.mem_map.mp h
  obtain ⟨hbar, hpiece⟩ := mem_splitOn hpiece
  have hsub (p : Char → Bool) (s : List Char) :
      trimEndMatches p (trimStartMatches p s) ⊆ s := fun c hc =>
    (List.dropWhile_suffix p).subset ((trimEndMatches_isPrefix p _).subset hc)
  exact ⟨fun hmem => hbar (hsub _ _ hmem), fun hmem => hline (hsub _ _ (hpiece (hsub _ _ hmem))),
    trim_trim piece⟩

theorem not_mem_of_mem_tableLines {body : List Char} (h : line ∈ tableLines body) : '\n' ∉ line := by
  obtain ⟨line, hline, rfl⟩ := List.mem_map.mp h
  have htrim : trim line ⊆ line := fun c hc =>
    (List.dropWhile_suffix _).subset ((trimEndMatches_isPrefix _ _).subset hc)
  exact fun hmem => not_mem_of_mem_lines (List.mem_of_mem_filter hline) (htrim hmem)

theorem cells_of_mapM {table : List (List Char)} {rows : List ParityRow}
    (h : table.mapM (fun line => parseRow (splitTableLine line)) = .ok rows) :
    table.map splitTableLine = rows.map ParityRow.cells := by
  replace h := mapM_eq_ok_iff.mp h
  induction h with
  | nil => rfl
  | cons hrow _ ih => rw [List.map_cons, List.map_cons, cells_of_parseRow hrow, ih]

/-- **What is parsed** is the table, but for the separator. -/
theorem table_of_parseTableRows {body : List Char} {rows : List ParityRow}
    (h : parseTableRows body = .ok rows) :
    (∃ separator, (tableLines body).map splitTableLine =
      columns :: separator :: rows.map ParityRow.cells) ∧
    (∀ row ∈ rows, ∀ cell ∈ row.cells, IsCell cell) := by
  unfold parseTableRows at h
  split at h
  · rename_i header separator row table hlines
    split_ifs at h with hheader
    have hcells := cells_of_mapM h
    refine ⟨⟨splitTableLine separator, ?_⟩, fun row' hrow cell hcell => ?_⟩
    · rw [hlines, List.map_cons, List.map_cons, hheader, hcells]
    · have hmem : row'.cells ∈ (row :: table).map splitTableLine :=
        hcells ▸ List.mem_map_of_mem hrow
      obtain ⟨line, hline, heq⟩ := List.mem_map.mp hmem
      have hbody : line ∈ tableLines body :=
        hlines ▸ List.mem_cons_of_mem _ (List.mem_cons_of_mem _ hline)
      exact isCell_of_mem_splitTableLine (not_mem_of_mem_tableLines hbody) (heq ▸ hcell)
  · cases h

end

/-! ### The text that is written -/

section

variable {entries : List (List Char × List Char)} {entry : List Char × List Char}

theorem plainText_cons_cons (entry next : List Char × List Char) :
    plainText (entry :: next :: entries) =
      plainLine entry ++ '\n' :: plainText (next :: entries) := by
  simp [plainText, List.intercalate_cons_cons]

theorem plainText_concat (entries : List (List Char × List Char)) (entry : List Char × List Char) :
    plainText (entries ++ [entry]) = unlines (entries.map plainLine) ++ plainLine entry := by
  induction entries with
  | nil => simp [plainText]
  | cons first entries ih =>
    obtain ⟨next, rest, hrest⟩ := List.exists_cons_of_ne_nil (List.concat_ne_nil entry entries)
    rw [List.cons_append, hrest, plainText_cons_cons, ← hrest, ih, List.map_cons, unlines_cons]
    simp

theorem BareKey.exists_cons (h : BareKey entry.1) :
    ∃ c rest, plainLine entry = c :: rest ∧ (c.isLower ∨ c = '_') := by
  obtain ⟨hne, hchars⟩ := h
  obtain ⟨c, rest, hkey⟩ := List.exists_cons_of_ne_nil hne
  refine ⟨c, rest ++ ": ".toList ++ entry.2, ?_, hchars c (hkey ▸ List.mem_cons_self)⟩
  rw [plainLine, hkey]
  rfl

theorem BareKey.not_mem (h : BareKey entry.1) (hvalue : '\n' ∉ entry.2) :
    '\n' ∉ plainLine entry := by
  intro hmem
  rw [plainLine, List.mem_append, List.mem_append] at hmem
  rcases hmem with (hkey | hcolon) | hmem
  · have hlower := h.2 _ hkey
    revert hlower
    decide
  · revert hcolon
    decide
  · exact hvalue hmem

/-- **No fence** stands in lines that begin with a key. -/
theorem not_infix_plainText (hkeys : ∀ entry ∈ entries, BareKey entry.1)
    (hvalues : ∀ entry ∈ entries, '\n' ∉ entry.2) : ¬ "\n---".toList <:+: plainText entries := by
  induction entries with
  | nil => decide
  | cons entry entries ih =>
    obtain ⟨hkey, hkeys⟩ := List.forall_mem_cons.mp hkeys
    obtain ⟨hvalue, hvalues⟩ := List.forall_mem_cons.mp hvalues
    have hline := hkey.not_mem hvalue
    cases entries with
    | nil =>
      intro hstands
      have hmem : '\n' ∈ plainText [entry] := hstands.subset (by simp)
      exact hline (by simpa [plainText] using hmem)
    | cons next entries =>
      intro hstands
      obtain ⟨c, rest, hnext, hc⟩ := (hkeys next List.mem_cons_self).exists_cons
      have hrest : ∃ rest, plainText (next :: entries) = c :: rest := by
        cases entries with
        | nil => exact ⟨rest, by simp [plainText, hnext]⟩
        | cons next' entries => exact ⟨_, by rw [plainText_cons_cons, hnext, List.cons_append]⟩
      obtain ⟨rest, hrest⟩ := hrest
      rw [plainText_cons_cons, show "\n---".toList = '\n' :: "---".toList from rfl,
        infix_append_of_not_mem hline, List.infix_cons_iff, List.cons_prefix_cons, hrest] at hstands
      rcases hstands with ⟨-, hprefix⟩ | hstands
      · obtain ⟨rfl, -⟩ := List.cons_prefix_cons.mp hprefix
        revert hc
        decide
      · exact ih hkeys hvalues (hrest ▸ hstands)

/-- The lines of the table that is written. -/
def writtenTable (rows : List ParityRow) : List (List (List Char)) :=
  columns :: dashes :: rows.map ParityRow.cells

/-- What is written behind the frontmatter. -/
def writtenBody (rows : List ParityRow) : List Char :=
  "\n\n".toList ++ unlines ((writtenTable rows).map tableLine)

theorem unlines_plainLine (hne : entries ≠ []) :
    unlines (entries.map plainLine) = plainText entries ++ "\n".toList := by
  obtain ⟨first, last, rfl⟩ := (List.eq_nil_or_concat' entries).resolve_left hne
  rw [plainText_concat, List.map_append, unlines_append]
  simp

theorem render_eq (report : ParityReport) : report.render = "---".toList ++ '\n' ::
    (plainText report.metadata.entries ++ "\n---".toList ++ writtenBody report.rows) := by
  have hne : report.metadata.entries ≠ [] := List.cons_ne_nil _ _
  have hrows : (writtenTable report.rows).map tableLine = tableLine columns :: tableLine dashes ::
      report.rows.map fun row => tableLine row.cells := by
    rw [writtenTable, List.map_cons, List.map_cons, List.map_map]
    rfl
  rw [ParityReport.render, writtenBody, hrows, List.cons_append, List.cons_append, unlines_cons,
    unlines_append, unlines_append, unlines_plainLine hne]
  simp

/-- The written file is cut at the first fence behind the opening one. -/
theorem splitFrontmatter_render (report : ParityReport) : splitFrontmatter report.render =
    match splitOnce "\n---".toList
      (plainText report.metadata.entries ++ "\n---".toList ++ writtenBody report.rows) with
    | none => .error "PARITY.md frontmatter is missing closing delimiter"
    | some (frontmatter, body) => .ok (frontmatter, trim (trimStartMatches (· = '\n') body)) := by
  have hhead : (lines report.render).head? = some "---".toList := by
    rw [render_eq, lines_append_newline (by decide)]
    rfl
  have hsplit : splitOnce "\n".toList report.render = some ("---".toList,
      plainText report.metadata.entries ++ "\n---".toList ++ writtenBody report.rows) := by
    have hfirst : splitOnce ['\n'] ("---".toList ++ ['\n'] ++ (plainText report.metadata.entries ++
        "\n---".toList ++ writtenBody report.rows)) = _ :=
      splitOnce_append List.not_mem_nil (by decide)
    rw [render_eq]
    simpa using hfirst
  rw [splitFrontmatter, if_neg (not_not_intro hhead), hsplit]

/-- The fence may be one inside of a value. -/
theorem cut_of_splitFrontmatter_render {report : ParityReport} {frontmatter body : List Char}
    (h : splitFrontmatter report.render = .ok (frontmatter, body)) :
    frontmatter = plainText report.metadata.entries ∨
      frontmatter ++ "\n---".toList <+: plainText report.metadata.entries := by
  rw [splitFrontmatter_render] at h
  split at h
  · cases h
  · rename_i hsplit
    cases h
    exact eq_or_isPrefix_of_splitOnce (by decide) hsplit

theorem splitFrontmatter_render_of_plain {report : ParityReport}
    (h : ¬ "\n---".toList <:+: plainText report.metadata.entries) :
    splitFrontmatter report.render = .ok (plainText report.metadata.entries,
      trim (trimStartMatches (· = '\n') (writtenBody report.rows))) := by
  have hsplit : splitOnce ('\n' :: "---".toList) (plainText report.metadata.entries ++
      '\n' :: "---".toList ++ writtenBody report.rows) = _ := splitOnce_append (by decide) h
  rw [splitFrontmatter_render, show "\n---".toList = '\n' :: "---".toList from rfl, hsplit]

/-! ### Reading the body that is written -/

variable {rows : List ParityRow}

theorem isCell_columns : ∀ cell ∈ columns, IsCell cell := by
  have h : ∀ cell ∈ columns, '|' ∉ cell ∧ '\n' ∉ cell ∧ trim cell = cell := by decide
  exact fun cell hmem => ⟨(h cell hmem).1, (h cell hmem).2.1, (h cell hmem).2.2⟩

theorem isCell_dashes : ∀ cell ∈ dashes, IsCell cell := by
  intro cell hmem
  rw [List.eq_of_mem_replicate hmem]
  exact ⟨by decide, by decide, by decide⟩

theorem isCell_writtenTable (hrows : ∀ row ∈ rows, ∀ cell ∈ row.cells, IsCell cell) :
    ∀ cells ∈ writtenTable rows, ∀ cell ∈ cells, IsCell cell := by
  refine List.forall_mem_cons.mpr ⟨isCell_columns, List.forall_mem_cons.mpr ⟨isCell_dashes, ?_⟩⟩
  intro cells hmem
  obtain ⟨row, hrow, rfl⟩ := List.mem_map.mp hmem
  exact hrows row hrow

/-- The lines of the table are what is left of the body when it is trimmed. -/
theorem lines_writtenBody (hrows : ∀ row ∈ rows, ∀ cell ∈ row.cells, IsCell cell) :
    lines (trim (trimStartMatches (· = '\n') (writtenBody rows))) =
      (writtenTable rows).map tableLine := by
  have hcells := isCell_writtenTable hrows
  obtain ⟨first, last, htable⟩ :=
    (List.eq_nil_or_concat' (writtenTable rows)).resolve_left (List.cons_ne_nil _ _)
  have hunlines : unlines ((writtenTable rows).map tableLine) =
      unlines (first.map tableLine) ++ tableLine last ++ ['\n'] := by
    rw [htable, List.map_append, unlines_append]
    simp
  have hstart : trimStartMatches (· = '\n') (writtenBody rows) =
      unlines ((writtenTable rows).map tableLine) := by
    simp [writtenBody, writtenTable, tableLine_eq, trimStartMatches]
  have hfirst : (unlines (first.map tableLine) ++ tableLine last).head? = some '|' := by
    cases first <;> simp [tableLine_eq]
  have hlast : (unlines (first.map tableLine) ++ tableLine last).getLast? = some '|' := by
    rw [tableLine_eq, ← List.append_assoc, List.getLast?_concat]
  have htrim : trim (unlines (first.map tableLine) ++ tableLine last ++ ['\n']) =
      unlines (first.map tableLine) ++ tableLine last := by
    rw [trim_append_blanks (List.all_eq_true.mp (by decide))]
    refine trim_eq_self (fun c hc => ?_) fun c hc => ?_
    · rw [hfirst] at hc
      cases hc
      rfl
    · rw [hlast] at hc
      cases hc
      rfl
  have hreturn : (first.map tableLine).map stripReturn = first.map tableLine := by
    refine map_stripReturn_eq_self_iff.mpr fun line hline => ?_
    obtain ⟨cells, -, rfl⟩ := List.mem_map.mp hline
    rw [tableLine_eq, List.getLast?_concat]
    decide
  have hmem : last ∈ writtenTable rows := htable ▸ List.mem_append_right _ List.mem_cons_self
  rw [hstart, hunlines, htrim, lines_unlines_append, lines_of_not_mem, if_neg, hreturn, htable,
    List.map_append, List.map_singleton]
  · rw [tableLine_eq]
    exact List.cons_ne_nil _ _
  · exact not_mem_tableLine (hcells last hmem)
  · intro line hline
    obtain ⟨cells, hfirst, rfl⟩ := List.mem_map.mp hline
    exact not_mem_tableLine (hcells cells (htable ▸ List.mem_append_left _ hfirst))

theorem tableLines_writtenBody (hrows : ∀ row ∈ rows, ∀ cell ∈ row.cells, IsCell cell) :
    tableLines (trim (trimStartMatches (· = '\n') (writtenBody rows))) =
      (writtenTable rows).map tableLine := by
  have hall : ((writtenTable rows).map tableLine).filter isTableLine =
      (writtenTable rows).map tableLine := by
    refine List.filter_eq_self.mpr fun line hline => ?_
    obtain ⟨cells, -, rfl⟩ := List.mem_map.mp hline
    exact isTableLine_tableLine cells
  rw [tableLines, lines_writtenBody hrows, hall, List.map_map]
  exact List.map_congr_left fun cells _ => trim_tableLine cells

theorem map_splitTableLine_writtenTable (hrows : ∀ row ∈ rows, ∀ cell ∈ row.cells, IsCell cell) :
    ((writtenTable rows).map tableLine).map splitTableLine = writtenTable rows := by
  rw [List.map_map]
  refine (List.map_congr_left fun cells hmem => ?_).trans (List.map_id _)
  refine splitTableLine_tableLine (isCell_writtenTable hrows cells hmem) fun hnil => ?_
  subst hnil
  simp [writtenTable, columns, dashes, ParityRow.cells] at hmem

theorem mapM_parseRow (hrows : ∀ row ∈ rows, ∀ cell ∈ row.cells, IsCell cell) :
    (rows.map fun row => tableLine row.cells).mapM (fun line => parseRow (splitTableLine line)) =
      .ok rows := by
  rw [mapM_eq_ok_iff, List.forall₂_map_left_iff, List.forall₂_same]
  intro row hrow
  rw [splitTableLine_tableLine (hrows row hrow) (List.cons_ne_nil _ _), parseRow_cells]

/-- **The rows come through.** -/
theorem parseTableRows_writtenBody (hrows : ∀ row ∈ rows, ∀ cell ∈ row.cells, IsCell cell)
    (hne : rows ≠ []) :
    parseTableRows (trim (trimStartMatches (· = '\n') (writtenBody rows))) = .ok rows := by
  obtain ⟨row, rest, rfl⟩ := List.exists_cons_of_ne_nil hne
  have hheader : splitTableLine (tableLine columns) = columns :=
    splitTableLine_tableLine isCell_columns (List.cons_ne_nil _ _)
  have htable : (writtenTable (row :: rest)).map tableLine = tableLine columns ::
      tableLine dashes :: tableLine row.cells :: rest.map fun row => tableLine row.cells := by
    simp [writtenTable]
  rw [parseTableRows, tableLines_writtenBody hrows, htable]
  show (if splitTableLine (tableLine columns) = columns then _ else _) = _
  rw [if_pos hheader]
  exact mapM_parseRow hrows

/-- Around the table nothing is written. -/
theorem prose_writtenBody (hrows : ∀ row ∈ rows, ∀ cell ∈ row.cells, IsCell cell) :
    (lines (trim (trimStartMatches (· = '\n') (writtenBody rows)))).filter
      (fun line => !isTableLine line && !isBlank line) = [] := by
  rw [lines_writtenBody hrows]
  refine List.filter_eq_nil_iff.mpr fun line hline => ?_
  obtain ⟨cells, -, rfl⟩ := List.mem_map.mp hline
  rw [isTableLine_tableLine]
  exact Bool.false_ne_true

end

/-! ### Metadata -/

section

variable {entries : Entries} {metadata : ParityMetadata} {key : String} {value : List Char}

theorem Entries.field_eq_some_iff : entries.field key = some value ↔
    (entries.values key.toList).map Node.text = [some value] := by
  unfold Entries.field
  split
  · rename_i node hvalues
    simp [hvalues]
  · rename_i hother
    refine iff_of_false (by simp) fun htexts => ?_
    obtain ⟨node, hvalues, -⟩ := List.map_eq_singleton_iff.mp htexts
    exact hother node hvalues

theorem Entries.optionalField_eq_some_iff : entries.optionalField key = some (some value) ↔
    entries.values key.toList = [.scalar value] := by
  unfold Entries.optionalField
  split <;> simp_all

theorem ofEntries_eq_some_iff : ParityMetadata.ofEntries entries = some metadata ↔
    entries.field "project" = some metadata.project ∧
    entries.field "target" = some metadata.target ∧
    entries.field "source_platform" = some metadata.sourcePlatform ∧
    entries.field "target_language" = some metadata.targetLanguage ∧
    entries.field "last_verified" = some metadata.lastVerified ∧
    entries.optionalField "overall_parity" = some metadata.overallParity := by
  simp only [ParityMetadata.ofEntries, Option.bind_eq_bind, Option.bind_eq_some_iff,
    Option.pure_def, Option.some.injEq]
  constructor
  · rintro ⟨_, hproject, _, htarget, _, hplatform, _, hlanguage, _, hverified, _, hparity, rfl⟩
    exact ⟨hproject, htarget, hplatform, hlanguage, hverified, hparity⟩
  · rintro ⟨hproject, htarget, hplatform, hlanguage, hverified, hparity⟩
    exact ⟨_, hproject, _, htarget, _, hplatform, _, hlanguage, _, hverified, _, hparity, rfl⟩

theorem entries_eq (h : metadata.overallParity = some value) :
    metadata.entries = [("project".toList, metadata.project), ("target".toList, metadata.target),
      ("source_platform".toList, metadata.sourcePlatform),
      ("target_language".toList, metadata.targetLanguage),
      ("last_verified".toList, metadata.lastVerified), ("overall_parity".toList, value)] := by
  rw [ParityMetadata.entries, h]
  rfl

/-- Where every field is written, each is read from its own key. -/
theorem ofEntries_eq_some_iff_values (h : metadata.overallParity = some value) :
    ParityMetadata.ofEntries entries = some metadata ↔
      (∀ entry ∈ metadata.entries, (entries.values entry.1).map Node.text = [some entry.2]) ∧
        entries.values "overall_parity".toList = [.scalar value] := by
  rw [ofEntries_eq_some_iff, h, Entries.optionalField_eq_some_iff, entries_eq h]
  simp only [Entries.field_eq_some_iff, List.forall_mem_cons]
  constructor
  · rintro ⟨hproject, htarget, hplatform, hlanguage, hverified, hparity⟩
    refine ⟨⟨hproject, htarget, hplatform, hlanguage, hverified, ?_, fun _ h => (nomatch h)⟩, hparity⟩
    rw [hparity]
    rfl
  · rintro ⟨⟨hproject, htarget, hplatform, hlanguage, hverified, -⟩, hparity⟩
    exact ⟨hproject, htarget, hplatform, hlanguage, hverified, hparity⟩

end

/-! ### Reading back what is written -/

section

variable {fromStr : List Char → Option Entries} {commentsOf : List Char → List (List Char)}
  {report : ParityReport}

theorem parse_eq_ok_iff {input : List Char} : ParityReport.parse fromStr input = .ok report ↔
    ∃ frontmatter body entries, splitFrontmatter input = .ok (frontmatter, body) ∧
      fromStr frontmatter = some entries ∧
      ParityMetadata.ofEntries entries = some report.metadata ∧
      parseTableRows body = .ok report.rows ∧ report.rows ≠ [] := by
  rw [ParityReport.parse, bind_eq_ok_iff]
  constructor
  · rintro ⟨⟨frontmatter, body⟩, hsplit, h⟩
    cases hmetadata : (fromStr frontmatter).bind ParityMetadata.ofEntries with
    | none => simp [hmetadata] at h
    | some metadata =>
      simp only [hmetadata] at h
      obtain ⟨rows, hrows, h⟩ := bind_eq_ok_iff.mp h
      obtain ⟨entries, hentries, hmetadata⟩ := Option.bind_eq_some_iff.mp hmetadata
      split at h
      · cases h
      · rename_i hne
        cases h
        exact ⟨frontmatter, body, entries, hsplit, hentries, hmetadata, hrows,
          fun hnil => hne (List.isEmpty_iff.mpr hnil)⟩
  · rintro ⟨frontmatter, body, entries, hsplit, hentries, hmetadata, hrows, hne⟩
    have hempty : report.rows.isEmpty = false := by simpa using hne
    refine ⟨(frontmatter, body), hsplit, ?_⟩
    simp [hentries, hmetadata, hrows, hempty, bind, Except.bind, pure, Except.pure]

theorem readDocument_eq (commentsOf : List Char → List (List Char))
    {content frontmatter body : List Char} {entries : Entries}
    (hsplit : splitFrontmatter content = .ok (frontmatter, body))
    (hentries : fromStr frontmatter = some entries) :
    readDocument fromStr commentsOf content = some ⟨entries, commentsOf frontmatter,
      (tableLines body).map splitTableLine,
      (lines body).filter fun line => !isTableLine line && !isBlank line⟩ := by
  simp [readDocument, hsplit, hentries, Except.toOption]

/-- The entries that are read are the ones that were written. -/
theorem values_of_forall₂ {entries : List (List Char × List Char)} {nodes : Entries}
    (h : List.Forall₂ (ReadsAs fromStr) entries nodes) (hnodup : (entries.map Prod.fst).Nodup) :
    (∀ entry ∈ entries, ∃ node, ReadsAs fromStr entry node ∧ nodes.values entry.1 = [node.2]) ∧
    ∀ key ∉ entries.map Prod.fst, nodes.values key = [] := by
  induction h with
  | nil => exact ⟨fun _ h => (nomatch h), fun _ _ => rfl⟩
  | @cons entry node entries nodes hreads hrest ih =>
    obtain ⟨hfresh, hnodup⟩ := List.nodup_cons.mp hnodup
    obtain ⟨hmem, hnot⟩ := ih hnodup
    have hcons (key : List Char) : Entries.values (node :: nodes) key =
        if entry.1 = key then node.2 :: Entries.values nodes key
        else Entries.values nodes key := by
      rw [Entries.values, List.filter_cons, hreads.key]
      by_cases heq : entry.1 = key <;> simp [heq, Entries.values]
    refine ⟨List.forall_mem_cons.mpr ⟨⟨node, hreads, ?_⟩, fun other hother => ?_⟩, fun key hkey => ?_⟩
    · rw [hcons, if_pos rfl, hnot _ hfresh]
    · obtain ⟨node', hreads', hvalues⟩ := hmem other hother
      have hne : entry.1 ≠ other.1 := fun heq => hfresh (heq ▸ List.mem_map_of_mem hother)
      exact ⟨node', hreads', by rw [hcons, if_neg hne, hvalues]⟩
    · obtain ⟨hne, hkey⟩ := not_or.mp fun h => hkey (List.mem_cons.mpr h)
      rw [hcons, if_neg (Ne.symm hne), hnot key hkey]

theorem texts_of_forall₂ {entries : List (List Char × List Char)} {nodes : Entries}
    (h : List.Forall₂ (ReadsAs fromStr) entries nodes) (hnodup : (entries.map Prod.fst).Nodup) :
    ∀ entry ∈ entries, (Entries.values nodes entry.1).map Node.text = [some entry.2] := by
  intro entry hentry
  obtain ⟨node, hreads, hnode⟩ := (values_of_forall₂ h hnodup).1 entry hentry
  rw [hnode, List.map_singleton, hreads.value]

theorem exists_forall₂ {entries : List (List Char × List Char)}
    (h : ∀ entry ∈ entries, ReadsBack fromStr entry) :
    ∃ nodes, List.Forall₂ (ReadsAs fromStr) entries nodes := by
  induction entries with
  | nil => exact ⟨[], .nil⟩
  | cons entry entries ih =>
    obtain ⟨⟨node, hnode⟩, h⟩ := List.forall_mem_cons.mp h
    obtain ⟨nodes, hnodes⟩ := ih h
    exact ⟨node :: nodes, .cons hnode hnodes⟩

/-! ### Updating -/

section

variable {α β : Type} {p : α → Bool} {f : α → α}

theorem exists_updateFirst {l : List α} (h : ∃ a ∈ l, p a = true) :
    ∃ l', updateFirst p f l = some l' := by
  induction l with
  | nil =>
    obtain ⟨a, hmem, -⟩ := h
    cases hmem
  | cons a l ih =>
    rw [updateFirst]
    split
    · exact ⟨_, rfl⟩
    · rename_i ha
      obtain ⟨b, hmem, hb⟩ := h
      have hmem : b ∈ l := (List.mem_cons.mp hmem).resolve_left fun heq => ha (heq ▸ hb)
      obtain ⟨l', hl'⟩ := ih ⟨b, hmem, hb⟩
      exact ⟨a :: l', by rw [hl', Option.map_some]⟩

theorem map_updateFirst {q : β → Bool} {g : β → β} {m : α → β} (hp : ∀ a, q (m a) = p a)
    (hf : ∀ a, m (f a) = g (m a)) (l : List α) :
    updateFirst q g (l.map m) = (updateFirst p f l).map (List.map m) := by
  induction l with
  | nil => rfl
  | cons a l ih =>
    rw [List.map_cons, updateFirst, updateFirst, hp]
    split
    · rw [Option.map_some, List.map_cons, hf]
    · rw [ih, Option.map_map, Option.map_map]
      rfl

theorem mem_updateFirst {l l' : List α} (h : updateFirst p f l = some l') :
    l' ≠ [] ∧ ∀ b ∈ l', b ∈ l ∨ ∃ a ∈ l, b = f a := by
  induction l generalizing l' with
  | nil => cases h
  | cons a l ih =>
    rw [updateFirst] at h
    split at h
    · cases h
      refine ⟨List.cons_ne_nil _ _, List.forall_mem_cons.mpr ⟨?_, fun b hb => ?_⟩⟩
      · exact .inr ⟨a, List.mem_cons_self, rfl⟩
      · exact .inl (List.mem_cons_of_mem _ hb)
    · obtain ⟨rest, hrest, rfl⟩ := Option.map_eq_some_iff.mp h
      refine ⟨List.cons_ne_nil _ _, List.forall_mem_cons.mpr ⟨.inl List.mem_cons_self, fun b hb => ?_⟩⟩
      exact ((ih hrest).2 b hb).imp (List.mem_cons_of_mem _) fun ⟨a', hmem, heq⟩ =>
        ⟨a', List.mem_cons_of_mem _ hmem, heq⟩

end

/-! ### The update as it is written -/

section

variable {today : NaiveDate} {behavior notes : List Char} {verified : VerificationStatus}
  {updated : ParityReport} {nodes : Entries}

/-- Every field of the metadata is written, and the new ones are read as they are. -/
structure IsUpdated (fromStr : List Char → Option Entries) (updated : ParityReport) : Prop where
  parity : ∃ overallParity, updated.metadata.overallParity = some overallParity ∧
    fromStr (plainLine ("overall_parity".toList, overallParity)) =
      some [("overall_parity".toList, .scalar overallParity)] ∧ '\n' ∉ overallParity
  verified : ReadsBack fromStr ("last_verified".toList, updated.metadata.lastVerified)
  nonempty : updated.rows ≠ []
  cells : ∀ row ∈ updated.rows, ∀ cell ∈ row.cells, IsCell cell

theorem IsUpdated.keys (h : IsUpdated fromStr updated) :
    updated.metadata.entries.map Prod.fst = parityKeys.map String.toList := by
  obtain ⟨overallParity, hparity, -⟩ := h.parity
  rw [ParityMetadata.entries, hparity]
  rfl

theorem IsUpdated.nodup (h : IsUpdated fromStr updated) :
    (updated.metadata.entries.map Prod.fst).Nodup := by
  rw [h.keys]
  decide

theorem IsUpdated.bareKey (h : IsUpdated fromStr updated) :
    ∀ entry ∈ updated.metadata.entries, BareKey entry.1 := by
  intro entry hentry
  have hbare : ∀ key ∈ parityKeys.map String.toList, BareKey key := by decide
  exact hbare entry.1 (h.keys ▸ List.mem_map_of_mem hentry)

/-- **What is read back**, where every value is read as it is written. -/
theorem IsUpdated.reads (h : IsUpdated fromStr updated) (hyaml : ReadsPlain fromStr commentsOf)
    (hnodes : List.Forall₂ (ReadsAs fromStr) updated.metadata.entries nodes) :
    splitFrontmatter updated.render = .ok (plainText updated.metadata.entries,
        trim (trimStartMatches (· = '\n') (writtenBody updated.rows))) ∧
      fromStr (plainText updated.metadata.entries) = some nodes ∧
      readDocument fromStr commentsOf updated.render =
        some ⟨nodes, [], writtenTable updated.rows, []⟩ := by
  have hvalues : ∀ entry ∈ updated.metadata.entries, '\n' ∉ entry.2 := by
    intro entry hentry
    obtain ⟨node, hreads, -⟩ := (values_of_forall₂ hnodes h.nodup).1 entry hentry
    exact hreads.oneLine
  have hsplit := splitFrontmatter_render_of_plain (not_infix_plainText h.bareKey hvalues)
  obtain ⟨hentries, hcomments⟩ :=
    hyaml.together updated.metadata.entries _ (List.cons_ne_nil _ _) h.bareKey hnodes
  refine ⟨hsplit, hentries, ?_⟩
  rw [readDocument_eq _ hsplit hentries, hcomments, tableLines_writtenBody h.cells,
    map_splitTableLine_writtenTable h.cells, prose_writtenBody h.cells]

/-- **The report is read back**, where every value is read as it is written. -/
theorem IsUpdated.parses (h : IsUpdated fromStr updated) (hyaml : ReadsPlain fromStr commentsOf)
    (hnodes : List.Forall₂ (ReadsAs fromStr) updated.metadata.entries nodes) :
    ParityReport.parse fromStr updated.render = .ok updated := by
  obtain ⟨hsplit, hentries, -⟩ := h.reads hyaml hnodes
  obtain ⟨overallParity, hparity, hscalar, -⟩ := h.parity
  obtain ⟨hvalues, -⟩ := values_of_forall₂ hnodes h.nodup
  refine parse_eq_ok_iff.mpr ⟨_, _, nodes, hsplit, hentries,
    (ofEntries_eq_some_iff_values hparity).mpr ⟨texts_of_forall₂ hnodes h.nodup, ?_⟩,
    parseTableRows_writtenBody h.cells h.nonempty, h.nonempty⟩
  obtain ⟨node, hreads, hnode⟩ := hvalues ("overall_parity".toList, overallParity)
    (entries_eq hparity ▸ by simp)
  have hsame := hreads.reads.symm.trans hscalar
  rw [Option.some.injEq, List.cons.injEq] at hsame
  rw [hnode, hsame.1]

/-- Conversely, what is read back stands on its line. -/
theorem IsUpdated.readsBack (h : IsUpdated fromStr updated) (hyaml : ReadsPlain fromStr commentsOf)
    (hparses : ParityReport.parse fromStr updated.render = .ok updated) :
    ∀ entry ∈ updated.metadata.entries, ReadsBack fromStr entry := by
  obtain ⟨frontmatter, body, entries, hsplit, hentries, hmetadata, -⟩ := parse_eq_ok_iff.mp hparses
  obtain ⟨overallParity, hparity, -⟩ := h.parity
  exact (hyaml.apart _ _ _ h.bareKey (cut_of_splitFrontmatter_render hsplit) hentries
    ((ofEntries_eq_some_iff_values hparity).mp hmetadata).1).2

theorem isDigit_of_mem_toString {n : Nat} {c : Char} (hc : c ∈ (toString n).toList) :
    c.isDigit = true := by
  rw [Nat.toString_eq_repr, Nat.toList_repr] at hc
  exact Nat.isDigit_of_mem_toDigits (by decide) (by decide) hc

theorem isDigit_or_eq_of_mem_toString {z : Int} {c : Char} (hc : c ∈ (toString z).toList) :
    c.isDigit = true ∨ c = '-' := by
  rw [Int.toString_eq_repr, Int.repr_eq_if] at hc
  split at hc
  · exact .inl (isDigit_of_mem_toString hc)
  · rw [String.toList_append, List.mem_append] at hc
    exact hc.symm.imp isDigit_of_mem_toString fun hminus => by simpa using hminus

/-- Labels and numbers fit into a cell. -/
theorem isCell_numbers {matching divergent timing : List Char}
    (hmatching : ∀ c ∈ matching, c.isDigit = true ∨ c = '-')
    (hdivergent : ∀ c ∈ divergent, c.isDigit = true ∨ c = '-')
    (htiming : ∀ c ∈ timing, c.isDigit = true ∨ c = '-') :
    IsCell ("matching_frames=".toList ++ matching ++ ", divergent_frames=".toList ++ divergent ++
      ", timing_difference=".toList ++ timing) := by
  have hnumber : ∀ c : Char, c.isDigit = true ∨ c = '-' →
      c ≠ '|' ∧ c ≠ '\n' ∧ isWhitespace c = false := by
    rintro c (hc | rfl)
    · refine ⟨?_, ?_, isWhitespace_of_isAlphanum (by simp [Char.isAlphanum, hc])⟩
      · rintro rfl
        exact absurd hc (by decide)
      · rintro rfl
        exact absurd hc (by decide)
    · decide
  have hlabel : ∀ c ∈ "matching_frames=".toList ++ ", divergent_frames=".toList ++
      ", timing_difference=".toList, c ≠ '|' ∧ c ≠ '\n' := by
    simp
  have hchars : ∀ c ∈ "matching_frames=".toList ++ matching ++ ", divergent_frames=".toList ++
      divergent ++ ", timing_difference=".toList ++ timing, c ≠ '|' ∧ c ≠ '\n' := by
    intro c hc
    simp only [List.mem_append] at hc hlabel
    rcases hc with ((((hc | hc) | hc) | hc) | hc) | hc
    · exact hlabel c (.inl (.inl hc))
    · exact ⟨(hnumber c (hmatching c hc)).1, (hnumber c (hmatching c hc)).2.1⟩
    · exact hlabel c (.inl (.inr hc))
    · exact ⟨(hnumber c (hdivergent c hc)).1, (hnumber c (hdivergent c hc)).2.1⟩
    · exact hlabel c (.inr hc)
    · exact ⟨(hnumber c (htiming c hc)).1, (hnumber c (htiming c hc)).2.1⟩
  refine ⟨fun h => (hchars _ h).1 rfl, fun h => (hchars _ h).2 rfl, trim_eq_self ?_ ?_⟩
  · simp; decide
  · intro c hc
    rw [List.getLast?_append, Option.mem_def, Option.or_eq_some_iff] at hc
    rcases hc with hc | ⟨-, hc⟩
    · exact (hnumber c (htiming c (List.mem_of_getLast? hc))).2.2
    · rw [List.getLast?_append] at hc
      cases hc
      rfl

/-- **The notes** that are put down fit into a cell. -/
theorem isCell_summary (diff : DiffReport) : IsCell diff.summary :=
  isCell_numbers (fun _ hc => .inl (isDigit_of_mem_toString hc))
    (fun _ hc => .inl (isDigit_of_mem_toString hc)) fun _ => isDigit_or_eq_of_mem_toString

theorem padded_digits (width n : Nat) :
    (∃ c rest, padded width n = c :: rest) ∧ ∀ c ∈ padded width n, c.isDigit := by
  constructor
  · refine List.exists_cons_of_ne_nil fun hnil => ?_
    exact Nat.toDigits_ne_nil (List.append_eq_nil_iff.mp hnil).2
  · intro c hc
    rcases List.mem_append.mp hc with hc | hc
    · rw [List.eq_of_mem_replicate hc]
      rfl
    · exact Nat.isDigit_of_mem_toDigits (by decide) (by decide) hc

theorem not_mem_of_number {value : List Char}
    (h : ∀ c ∈ value, c.isDigit ∨ c = '-' ∨ c = '%') : '\n' ∉ value := by
  intro hmem
  have hnot := h _ hmem
  revert hnot
  decide

theorem readsAs_number (hyaml : ReadsPlain fromStr commentsOf) {key : String} (hkey : key ∈ parityKeys)
    {value : List Char} (hfirst : ∃ c ∈ value.head?, c.isDigit)
    (hchars : ∀ c ∈ value, c.isDigit ∨ c = '-' ∨ c = '%') :
    ReadsAs fromStr (key.toList, value) (key.toList, .scalar value) :=
  ⟨not_mem_of_number hchars, rfl, rfl, hyaml.numbers key hkey value hfirst hchars⟩

theorem readsAs_date (hyaml : ReadsPlain fromStr commentsOf) {key : String} (hkey : key ∈ parityKeys)
    (date : NaiveDate) :
    ReadsAs fromStr (key.toList, date.text) (key.toList, .scalar date.text) := by
  obtain ⟨⟨c, rest, hyear⟩, hdigits⟩ := padded_digits 4 date.year
  refine readsAs_number hyaml hkey ⟨c, by simp [NaiveDate.text, hyear], ?_⟩ fun d hd => ?_
  · exact hdigits c (hyear ▸ List.mem_cons_self)
  · simp only [NaiveDate.text, List.mem_append, List.mem_cons] at hd
    rcases hd with (hd | rfl | hd) | rfl | hd
    · exact .inl (hdigits d hd)
    · exact .inr (.inl rfl)
    · exact .inl ((padded_digits _ _).2 d hd)
    · exact .inr (.inl rfl)
    · exact .inl ((padded_digits _ _).2 d hd)

theorem readsAs_percent (hyaml : ReadsPlain fromStr commentsOf) {key : String} (hkey : key ∈ parityKeys)
    (pct : Nat) : ReadsAs fromStr (key.toList, Nat.toDigits 10 pct ++ ['%'])
      (key.toList, .scalar (Nat.toDigits 10 pct ++ ['%'])) := by
  have hdigits : ∀ c ∈ Nat.toDigits 10 pct, c.isDigit := fun c hc =>
    Nat.isDigit_of_mem_toDigits (by decide) (by decide) hc
  obtain ⟨c, rest, hpct⟩ := List.exists_cons_of_ne_nil (Nat.toDigits_ne_nil (b := 10) (n := pct))
  refine readsAs_number hyaml hkey ⟨c, by simp [hpct], ?_⟩ fun d hd => ?_
  · exact hdigits c (hpct ▸ List.mem_cons_self)
  · rcases List.mem_append.mp hd with hd | hd
    · exact .inl (hdigits d hd)
    · exact .inr (.inr (List.mem_singleton.mp hd))

theorem isUpdated_of_update (hyaml : ReadsPlain fromStr commentsOf) {content : List Char}
    (hparse : ParityReport.parse fromStr content = .ok report) (hnotes : IsCell notes)
    (hupdate : report.updateVerification today behavior verified notes = .ok updated) :
    IsUpdated fromStr updated := by
  obtain ⟨frontmatter, body, entries, -, -, -, hrows, -⟩ := parse_eq_ok_iff.mp hparse
  have hcells := (table_of_parseTableRows hrows).2
  rw [ParityReport.updateVerification] at hupdate
  split at hupdate
  · cases hupdate
  · rename_i rows hfirst
    cases hupdate
    obtain ⟨hne, hmem⟩ := mem_updateFirst hfirst
    have hkey : "overall_parity" ∈ parityKeys := by decide
    have hpct := readsAs_percent hyaml hkey
      (ParityReport.summary ⟨report.metadata, rows⟩).overallParityPct
    refine ⟨⟨_, rfl, hpct.reads, hpct.oneLine⟩, ⟨_, readsAs_date hyaml (by decide) today⟩, hne, ?_⟩
    intro row hrow
    rcases hmem row hrow with hold | ⟨old, hold, rfl⟩
    · exact hcells row hold
    · have hverified : IsCell verified.text := by
        cases verified <;> exact ⟨by decide, by decide, by decide⟩
      have holdCells := hcells old hold
      simp only [ParityRow.cells, List.forall_mem_cons] at holdCells ⊢
      exact ⟨holdCells.1, holdCells.2.1, holdCells.2.2.1, holdCells.2.2.2.1, hverified, hnotes,
        fun _ h => (nomatch h)⟩

/-- The rows that are updated are the rows of the old table, up to the one. -/
theorem exists_update (hrow : ∃ row ∈ report.rows, row.behavior = behavior) (today : NaiveDate)
    (verified : VerificationStatus) (notes : List Char) :
    ∃ updated, report.updateVerification today behavior verified notes = .ok updated ∧
      (∃ pct, updated.metadata =
        { report.metadata with lastVerified := today.text, overallParity := some pct }) ∧
      ∀ header separator, updateTable behavior verified notes
        (header :: separator :: report.rows.map ParityRow.cells) =
          some (header :: separator :: updated.rows.map ParityRow.cells) := by
  obtain ⟨rows, hrows⟩ := exists_updateFirst
    (p := fun row : ParityRow => decide (row.behavior = behavior))
    (f := fun row : ParityRow => { row with verified, notes })
    (hrow.imp fun row h => ⟨h.1, decide_eq_true h.2⟩)
  have hcells := map_updateFirst (p := fun row : ParityRow => decide (row.behavior = behavior))
    (f := fun row => { row with verified, notes }) (m := ParityRow.cells)
    (q := fun cells => decide (cells.head? = some behavior))
    (g := fun cells => (cells.set 4 verified.text).set 5 notes)
    (fun row => by simp [ParityRow.cells]) (fun row => rfl) report.rows
  rw [hrows] at hcells
  refine ⟨_, by rw [ParityReport.updateVerification, hrows], ⟨_, rfl⟩, fun header separator => ?_⟩
  rw [updateTable, hcells]
  rfl

/-- Unless it is one of the six, a key is not written. -/
theorem IsUpdated.texts_eq_nil (h : IsUpdated fromStr updated)
    (hnodes : List.Forall₂ (ReadsAs fromStr) updated.metadata.entries nodes) {key : String}
    (hkey : key ∉ parityKeys) : Entries.values nodes key.toList = [] := by
  refine (values_of_forall₂ hnodes h.nodup).2 _ fun hmem => hkey ?_
  rw [h.keys, List.mem_map] at hmem
  obtain ⟨key', hmem, heq⟩ := hmem
  rwa [← String.toList_inj.mp heq]

end

/-- **A faithful update** needs a file that holds nothing but the report, with metadata that need
no quotes. -/
theorem updatesFaithfully_iff (hyaml : ReadsPlain fromStr commentsOf) {content : List Char}
    (hparse : ParityReport.parse fromStr content = .ok report) {behavior : List Char}
    (hrow : ∃ row ∈ report.rows, row.behavior = behavior) (today : NaiveDate) (diff : DiffReport) :
    UpdatesFaithfully fromStr commentsOf today behavior diff.status diff.summary content ↔
      ∃ document, readDocument fromStr commentsOf content = some document ∧
        HoldsOnlyReport fromStr report.metadata document := by
  obtain ⟨frontmatter, body, entries, hsplit, hentries, hmetadata, hrows, -⟩ :=
    parse_eq_ok_iff.mp hparse
  obtain ⟨⟨separator, htable⟩, -⟩ := table_of_parseTableRows hrows
  have hdocument := readDocument_eq commentsOf hsplit hentries
  obtain ⟨updated, hupdate, ⟨pct, hpct⟩, hupdateTable⟩ :=
    exists_update hrow today diff.status diff.summary
  have hupdated := isUpdated_of_update hyaml hparse (isCell_summary diff) hupdate
  have hwritten : updateParityVerification fromStr today behavior diff.status diff.summary content =
      .ok updated.render := by
    rw [updateParityVerification, hparse]
    show (report.updateVerification today behavior diff.status diff.summary >>= _) = _
    rw [hupdate]
    rfl
  rw [htable] at hdocument
  have hplain : updated.metadata.entries = [("project".toList, report.metadata.project),
      ("target".toList, report.metadata.target),
      ("source_platform".toList, report.metadata.sourcePlatform),
      ("target_language".toList, report.metadata.targetLanguage),
      ("last_verified".toList, today.text), ("overall_parity".toList, pct)] := by
    rw [hpct]
    rfl
  constructor
  · rintro ⟨_, _, _, document, document', hparse', hupdate', hwritten', hparses, hdocument',
      hdocument'', honly⟩
    cases hparse.symm.trans hparse'
    cases hupdate.symm.trans hupdate'
    cases hwritten.symm.trans hwritten'
    have hback := hupdated.readsBack hyaml hparses
    obtain ⟨nodes, hnodes⟩ := exists_forall₂ hback
    obtain ⟨-, -, hread⟩ := hupdated.reads hyaml hnodes
    cases hread.symm.trans hdocument''
    cases hdocument.symm.trans hdocument'
    refine ⟨_, hdocument, fun entry hentry => hback entry ?_, fun key hkey => ?_,
      honly.comments.symm, ?_, honly.prose.symm⟩
    · rw [hplain]
      exact List.mem_append_left [_, _] hentry
    · rw [← honly.metadata key (fun h => hkey (h ▸ by decide)) fun h => hkey (h ▸ by decide),
        Document.texts, hupdated.texts_eq_nil hnodes hkey, List.map_nil]
    · have htables := honly.table
      rw [hupdateTable, Option.some.injEq, writtenTable, List.cons.injEq, List.cons.injEq] at htables
      rw [htables.2.1]
      rfl
  · rintro ⟨document, hdocument', hholds⟩
    cases hdocument.symm.trans hdocument'
    have hback : ∀ entry ∈ updated.metadata.entries, ReadsBack fromStr entry := by
      obtain ⟨overallParity, hparity, hscalar, hline⟩ := hupdated.parity
      have hverified := hupdated.verified
      rw [hpct] at hparity hverified
      cases hparity
      rw [hplain]
      refine List.forall_mem_append.mpr ⟨hholds.plain, List.forall_mem_cons.mpr ⟨hverified, ?_⟩⟩
      exact List.forall_mem_singleton.mpr ⟨_, hline, rfl, rfl, hscalar⟩
    obtain ⟨nodes, hnodes⟩ := exists_forall₂ hback
    obtain ⟨-, -, hread⟩ := hupdated.reads hyaml hnodes
    refine ⟨report, updated, _, _, _, hparse, hupdate, hwritten, hupdated.parses hyaml hnodes,
      hdocument, hread, fun key hverified hparity => ?_, hholds.comments.symm, ?_,
      hholds.prose.symm⟩
    · by_cases hkey : key ∈ parityKeys
      · obtain ⟨hproject, htarget, hplatform, hlanguage, -⟩ := ofEntries_eq_some_iff.mp hmetadata
        have htexts := texts_of_forall₂ hnodes hupdated.nodup
        simp only [hplain, List.forall_mem_cons] at htexts
        simp only [parityKeys, List.mem_cons, hverified, hparity, List.not_mem_nil, or_false] at hkey
        rcases hkey with rfl | rfl | rfl | rfl
        · exact htexts.1.trans (Entries.field_eq_some_iff.mp hproject).symm
        · exact htexts.2.1.trans (Entries.field_eq_some_iff.mp htarget).symm
        · exact htexts.2.2.1.trans (Entries.field_eq_some_iff.mp hplatform).symm
        · exact htexts.2.2.2.1.trans (Entries.field_eq_some_iff.mp hlanguage).symm
      · rw [Document.texts, hupdated.texts_eq_nil hnodes hkey, hholds.keys key hkey, List.map_nil]
    · rw [hupdateTable, Option.some.injEq, writtenTable]
      have hdashes : some separator = some dashes := hholds.separator
      rw [Option.some.inj hdashes]

end

/-! ### The template -/

def BareWord (value : List Char) : Prop :=
  value ≠ [] ∧ ∀ c ∈ value, c.isAlphanum ∨ c ∈ "-_.%".toList

instance : DecidablePred BareWord := fun value =>
  decidable_of_iff (value ≠ [] ∧
    (value.all fun c => c.isAlphanum || decide (c ∈ "-_.%".toList)) = true) (by simp [BareWord])

/-- A reader for frontmatters of words. -/
def wordEntry (line : List Char) : Option (List Char × Node) :=
  (splitOnce ": ".toList line).bind fun (key, value) =>
    if BareWord value then some (key, .scalar value) else none

def wordEntries (text : List Char) : Option Entries := (text.splitOn '\n').mapM wordEntry

/-- With words for values, a number sign begins a comment. -/
def wordComments (text : List Char) : List (List Char) :=
  ((text.splitOn '\n').map fun line => line.dropWhile (· ≠ '#')).filter (· ≠ [])

theorem wordEntry_plainLine {entry : List Char × List Char} (hkey : BareKey entry.1) :
    wordEntry (plainLine entry) =
      if BareWord entry.2 then some (entry.1, .scalar entry.2) else none := by
  have hcolon : ¬ ": ".toList <:+: entry.1 := fun h => by
    have hlower := hkey.2 ':' (h.subset (by decide))
    revert hlower
    decide
  have hsplit : splitOnce (':' :: " ".toList) (entry.1 ++ ':' :: " ".toList ++ entry.2) =
      some (entry.1, entry.2) := splitOnce_append (by decide) hcolon
  rw [wordEntry, plainLine, show ": ".toList = ':' :: " ".toList from rfl, hsplit]
  rfl

theorem wordEntries_plainLine_iff {entry : List Char × List Char} {nodes : Entries}
    (hkey : BareKey entry.1) (hvalue : '\n' ∉ entry.2) :
    wordEntries (plainLine entry) = some nodes ↔
      ∃ node, wordEntry (plainLine entry) = some node ∧ nodes = [node] := by
  rw [wordEntries, List.splitOn_eq_singleton (hkey.not_mem hvalue), mapM_eq_some_iff,
    List.forall₂_cons_left_iff]
  simp

/-- A value that is read is a word. -/
theorem isWord_of_wordEntries {text : List Char} {nodes : Entries}
    (h : wordEntries text = some nodes) {node : List Char × Node} (hmem : node ∈ nodes)
    {value : List Char} (hvalue : node.2.text = some value) :
    BareWord value := by
  replace h := mapM_eq_some_iff.mp h
  obtain ⟨line, hline⟩ : ∃ line, wordEntry line = some node := by
    obtain ⟨i, hi, rfl⟩ := List.getElem_of_mem hmem
    exact ⟨_, h.get (h.length_eq ▸ hi) hi⟩
  obtain ⟨⟨key, value'⟩, -, hentry⟩ := Option.bind_eq_some_iff.mp hline
  rw [Option.ite_none_right_eq_some, Option.some.injEq] at hentry
  obtain ⟨hword, rfl⟩ := hentry
  cases hvalue
  exact hword

theorem not_mem_plainLine {entry : List Char × List Char} (hkey : BareKey entry.1)
    (hword : BareWord entry.2) : '#' ∉ plainLine entry := by
  rw [plainLine, List.mem_append, List.mem_append]
  rintro ((h | h) | h)
  · exact absurd (hkey.2 _ h) (by decide)
  · exact absurd h (by decide)
  · exact absurd (hword.2 _ h) (by decide)

theorem readsPlain_wordEntries : ReadsPlain wordEntries wordComments := by
  refine ⟨fun entries nodes hne hkeys hreads => ?_,
    fun entries text nodes hkeys htext hnodes hvalues => ?_,
    fun key hkey value hfirst hchars => ?_⟩
  · have hlines : ∀ line ∈ entries.map plainLine, '\n' ∉ line := by
      intro line hline
      obtain ⟨entry, hentry, rfl⟩ := List.mem_map.mp hline
      obtain ⟨i, hi, rfl⟩ := List.getElem_of_mem hentry
      exact (hkeys _ hentry).not_mem (hreads.get hi (hreads.length_eq ▸ hi)).oneLine
    have hsplit : (plainText entries).splitOn '\n' = entries.map plainLine :=
      List.splitOn_intercalate '\n' hlines (by simpa using hne)
    have hnodes : entries.Forall₂ (fun entry node => wordEntry (plainLine entry) = some node)
        nodes := by
      refine (List.forall₂_and_left (p := fun entry => BareKey entry.1) _ _).mpr ⟨hkeys, hreads⟩
        |>.imp fun entry node h => ?_
      obtain ⟨node', hnode', hnodes⟩ := (wordEntries_plainLine_iff h.1 h.2.oneLine).mp h.2.reads
      rw [hnode', (List.cons.inj hnodes).1]
    rw [wordEntries, wordComments, hsplit]
    refine ⟨mapM_eq_some_iff.mpr (List.forall₂_map_left_iff.mpr hnodes), ?_⟩
    rw [List.filter_eq_nil_iff, List.map_map, List.forall_mem_map]
    intro entry hentry
    obtain ⟨i, hi, rfl⟩ := List.getElem_of_mem hentry
    have hnode := hnodes.get hi (hnodes.length_eq ▸ hi)
    rw [List.get_eq_getElem, wordEntry_plainLine (hkeys _ hentry),
      Option.ite_none_right_eq_some] at hnode
    have hnone := not_mem_plainLine (hkeys _ hentry) hnode.1
    rw [Function.comp_apply, List.dropWhile_eq_nil_iff.mpr]
    · simp
    · exact fun c hc => decide_eq_true fun heq => hnone (heq ▸ hc)
  · have hwords : ∀ entry ∈ entries, BareWord entry.2 := by
      intro entry hentry
      obtain ⟨node, hnode, htext⟩ := List.map_eq_singleton_iff.mp (hvalues entry hentry)
      have hmem : node ∈ Entries.values nodes entry.1 := hnode ▸ List.mem_cons_self
      obtain ⟨entry', hmem', rfl⟩ := List.mem_map.mp hmem
      exact isWord_of_wordEntries hnodes (List.mem_of_mem_filter hmem') htext
    have hlines : ∀ entry ∈ entries, '\n' ∉ entry.2 := by
      intro entry hentry hmem
      have hword := (hwords entry hentry).2 _ hmem
      revert hword
      decide
    refine ⟨htext.resolve_right fun hprefix => ?_, fun entry hentry => ?_⟩
    · have hfence : "\n---".toList <:+: text ++ "\n---".toList := (List.suffix_append _ _).isInfix
      exact not_infix_plainText hkeys hlines (hfence.trans (List.IsPrefix.isInfix hprefix))
    · refine ⟨(entry.1, .scalar entry.2), hlines entry hentry, rfl, rfl, ?_⟩
      rw [wordEntries_plainLine_iff (hkeys entry hentry) (hlines entry hentry),
        wordEntry_plainLine (hkeys entry hentry), if_pos (hwords entry hentry)]
      exact ⟨_, rfl, rfl⟩
  · have hword : BareWord value := by
      obtain ⟨c, hc, -⟩ := hfirst
      refine ⟨fun hnil => by simp [hnil] at hc, fun d hd => ?_⟩
      rcases hchars d hd with hd | rfl | rfl
      · exact .inl (by simp [Char.isAlphanum, hd])
      · exact .inr (by decide)
      · exact .inr (by decide)
    have hbare : ∀ key ∈ parityKeys, BareKey key.toList := by decide
    rw [wordEntries_plainLine_iff (hbare key hkey) (not_mem_of_number hchars),
      wordEntry_plainLine (hbare key hkey), if_pos hword]
    exact ⟨_, rfl, rfl⟩

/-- The file that a project starts from, with one of its rows and one line of its legend. -/
def cleanroomParity : List Char := unlines [
  "---".toList,
  "project: clean-room-project".toList,
  "target: original-binary.z80".toList,
  "source_platform: zx-spectrum-z80".toList,
  "target_language: rust".toList,
  "last_verified: not-yet-verified".toList,
  "overall_parity: 0%".toList,
  "---".toList,
  [],
  "# Parity Matrix".toList,
  [],
  tableLine columns,
  tableLine dashes,
  "| Error handling | draft | -- | -- | -- | |".toList,
  [],
  "- `--` means not started.".toList]

/-- A file that holds nothing but the report. -/
def bareReport : ParityReport where
  metadata := ⟨"manic-miner".toList, "original.z80".toList, "zx-spectrum".toList, "rust".toList,
    "2026-04-05".toList, none⟩
  rows := [⟨"Enemy AI".toList, .complete, .notStarted, .draft, .notStarted, "pending".toList⟩]

theorem exists_report {content behavior : List Char}
    (h : (ParityReport.parse wordEntries content).toOption.any
      (fun report => report.rows.any fun row => row.behavior = behavior) = true) :
    ∃ report, ParityReport.parse wordEntries content = .ok report ∧
      ∃ row ∈ report.rows, row.behavior = behavior := by
  cases hparse : ParityReport.parse wordEntries content with
  | error e =>
    rw [hparse] at h
    cases h
  | ok report =>
    rw [hparse] at h
    obtain ⟨row, hrow, hbehavior⟩ := List.any_eq_true.mp h
    exact ⟨report, rfl, row, hrow, of_decide_eq_true hbehavior⟩

theorem prose_of_update {today : NaiveDate} {behavior notes content written : List Char}
    {verified : VerificationStatus} {document : Document}
    (h : ((updateParityVerification wordEntries today behavior verified notes
      content).toOption.bind (readDocument wordEntries wordComments)).map Document.prose = some [])
    (hwritten : updateParityVerification wordEntries today behavior verified notes content =
      .ok written) (hdocument : readDocument wordEntries wordComments written = some document) :
    document.prose = [] := by
  rw [hwritten] at h
  simpa [Except.toOption, hdocument] using h

/-- The legend under the table is gone. -/
theorem not_updatesFaithfully : ¬ ∀ fromStr commentsOf content report behavior today
    (diff : DiffReport), ReadsPlain fromStr commentsOf → ParityReport.parse fromStr content = .ok report →
    (∃ row ∈ report.rows, row.behavior = behavior) →
    UpdatesFaithfully fromStr commentsOf today behavior diff.status diff.summary content := by
  intro h
  have hreport : (ParityReport.parse wordEntries cleanroomParity).toOption.any
      (fun report => report.rows.any fun row => row.behavior = "Error handling".toList) = true := by
    decide +kernel
  obtain ⟨report, hparse, hrow⟩ := exists_report hreport
  obtain ⟨_, _, _, document, _, -, -, hwritten, -, hdocument, hdocument', honly⟩ :=
    h wordEntries wordComments cleanroomParity report _ ⟨2026, 4, 6, by decide⟩ ⟨12, 0, 0⟩
      readsPlain_wordEntries hparse hrow
  have hold : (readDocument wordEntries wordComments cleanroomParity).map Document.prose ≠ some [] := by
    decide +kernel
  have hempty := prose_of_update (by decide +kernel) hwritten hdocument'
  rw [hdocument, Option.map_some, ← honly.prose, hempty] at hold
  exact hold rfl

/-- A report with nothing but its frontmatter and its table. -/
theorem updatesFaithfully_iff_bareReport : UpdatesFaithfully wordEntries wordComments
    ⟨2026, 4, 6, by decide⟩ "Enemy AI".toList (DiffReport.status ⟨12, 0, 0⟩)
    (DiffReport.summary ⟨12, 0, 0⟩) bareReport.render := by
  have hparse : ParityReport.parse wordEntries bareReport.render = .ok bareReport := by decide +kernel
  have hread : (readDocument wordEntries wordComments bareReport.render).any (fun document =>
      document.comments = [] ∧ document.prose = [] ∧ document.table[1]? = some dashes ∧
        ∀ entry ∈ document.entries, entry.1 ∈ parityKeys.map String.toList) = true := by
    decide +kernel
  obtain ⟨document, hdocument, hall⟩ := (Option.any_eq_true _ _).mp hread
  obtain ⟨hcomments, hprose, hseparator, hkeys⟩ := of_decide_eq_true hall
  have hplain : ∀ entry ∈ [("project".toList, bareReport.metadata.project),
      ("target".toList, bareReport.metadata.target),
      ("source_platform".toList, bareReport.metadata.sourcePlatform),
      ("target_language".toList, bareReport.metadata.targetLanguage)],
      '\n' ∉ entry.2 ∧ wordEntries (plainLine entry) = some [(entry.1, .scalar entry.2)] := by
    decide +kernel
  refine (updatesFaithfully_iff readsPlain_wordEntries hparse (by decide) _ _).mpr
    ⟨document, hdocument, fun entry hentry => ?_, fun key hkey => ?_, hcomments, hseparator, hprose⟩
  · obtain ⟨hline, hreads⟩ := hplain entry hentry
    exact ⟨_, hline, rfl, rfl, hreads⟩
  · rw [Document.texts, Entries.values, List.filter_eq_nil_iff.mpr]
    · rfl
    · intro entry hentry heq
      obtain ⟨key', hmem, hkey'⟩ := List.mem_map.mp (hkeys entry hentry)
      rw [← hkey', decide_eq_true_eq, String.toList_inj] at heq
      exact hkey (heq ▸ hmem)

end Parity

end Batty
