import Batty.Board.Task
import Batty.Foundation.Substrings

/-!
# The fences of a task file

A task file is its frontmatter between two fences and the body behind them. Five readers look for
the fences, each for itself. Four of them go over a line break behind the opening fence if there is
one; `load_workflow_metadata` insists on it, and takes a file without it for one that has no
metadata.

`readersAgree_iff`: on the files of tasks the five see the same frontmatter exactly if the opening
fence is the whole of its line.
-/

namespace Batty

/-! ### The five readers -/

def stripNewline : List Char → List Char
  | '\n' :: text => text
  | text => text

/-- The frontmatter and the body. -/
def splitAtFences (missingOpening : String) (content : List Char) :
    Except String (List Char × List Char) :=
  let trimmed := Text.trimStartMatches Text.isWhitespace content
  if "---".toList.isPrefixOf trimmed then
    match splitOnce "\n---".toList (stripNewline (trimmed.drop 3)) with
    | some (frontmatter, body) => .ok (frontmatter, stripNewline body)
    | none => .error "task file missing closing --- for frontmatter"
  else .error missingOpening

def splitFrontmatter : List Char → Except String (List Char × List Char) :=
  splitAtFences "task file missing YAML frontmatter (no opening ---)"

def Board.splitTaskFrontmatter : List Char → Except String (List Char × List Char) :=
  splitAtFences "task file missing YAML frontmatter: no opening ---"

def TaskCmd.splitTaskFrontmatter : List Char → Except String (List Char × List Char) :=
  splitAtFences "task file missing YAML frontmatter (no opening ---)"

def extractFrontmatter (content : List Char) : Option (List Char) :=
  let trimmed := Text.trimStartMatches Text.isWhitespace content
  if "---".toList.isPrefixOf trimmed then
    (splitOnce "\n---".toList (stripNewline (trimmed.drop 3))).map Prod.fst
  else none

/-- The frontmatter that `load_workflow_metadata` reads. Without one it goes by the defaults. -/
def workflowFrontmatter (content : List Char) : Option (List Char) :=
  let trimmed := Text.trimStartMatches Text.isWhitespace content
  if "---".toList.isPrefixOf trimmed then
    match trimmed.drop 3 with
    | '\n' :: rest => (splitOnce "\n---".toList rest).map Prod.fst
    | _ => none
  else none

/-- `Task::parse`, given the reading of YAML. -/
def Task.parseContent (fromYaml : List Char → Option Mapping) (content : List Char) :
    Except String Task := do
  let (frontmatter, body) ← splitFrontmatter content
  match (fromYaml frontmatter).bind fun mapping => Task.parse "" mapping (String.ofList body) with
  | some task => .ok task
  | none => .error "failed to parse YAML frontmatter"

/-! ### What they see -/

/-- The other four readers work on the frontmatter. -/
structure ReadersAgree (content frontmatter : List Char) : Prop where
  resolver : workflowFrontmatter content = some frontmatter
  allocation : extractFrontmatter content = some frontmatter
  board : (Board.splitTaskFrontmatter content).map Prod.fst = .ok frontmatter
  taskCmd : (TaskCmd.splitTaskFrontmatter content).map Prod.fst = .ok frontmatter

/-- Nothing but a line break follows the opening fence. -/
def OpensOnOwnLine (content : List Char) : Prop :=
  "---\n".toList <+: Text.trimStartMatches Text.isWhitespace content

section

variable {content frontmatter body : List Char}

theorem isPrefixOf_opening (rest : List Char) :
    "---".toList.isPrefixOf ("---".toList ++ rest) = true :=
  List.isPrefixOf_iff_prefix.mpr (List.prefix_append _ _)

theorem drop_opening (rest : List Char) : ("---".toList ++ rest).drop 3 = rest := rfl

theorem splitAtFences_eq_ok_iff {missingOpening : String} :
    splitAtFences missingOpening content = .ok (frontmatter, body) ↔
      ∃ rest, Text.trimStartMatches Text.isWhitespace content = "---".toList ++ rest ∧
        ∃ after, splitOnce "\n---".toList (stripNewline rest) = some (frontmatter, after) ∧
          body = stripNewline after := by
  rw [splitAtFences]
  constructor
  · intro h
    split at h
    · rename_i hopen
      obtain ⟨rest, hrest⟩ := List.isPrefixOf_iff_prefix.mp hopen
      rw [← hrest, drop_opening] at h
      refine ⟨rest, hrest.symm, ?_⟩
      split at h
      · rename_i frontmatter after hsplit
        cases h
        exact ⟨after, hsplit, rfl⟩
      · cases h
    · cases h
  · rintro ⟨rest, hrest, after, hsplit, rfl⟩
    simp only [hrest, isPrefixOf_opening, if_true, drop_opening, hsplit]

/-- What is cut does not depend on what is said when there is no fence. -/
theorem splitAtFences_of_split {missingOpening missingOpening' : String}
    (h : splitAtFences missingOpening content = .ok (frontmatter, body)) :
    splitAtFences missingOpening' content = .ok (frontmatter, body) :=
  splitAtFences_eq_ok_iff.mpr (splitAtFences_eq_ok_iff.mp h)

theorem extractFrontmatter_of_split {missingOpening : String}
    (h : splitAtFences missingOpening content = .ok (frontmatter, body)) :
    extractFrontmatter content = some frontmatter := by
  obtain ⟨rest, hrest, after, hsplit, -⟩ := splitAtFences_eq_ok_iff.mp h
  simp only [extractFrontmatter, hrest, isPrefixOf_opening, if_true, drop_opening, hsplit,
    Option.map_some]

theorem workflowFrontmatter_eq_some_iff {missingOpening : String}
    (h : splitAtFences missingOpening content = .ok (frontmatter, body)) :
    workflowFrontmatter content = some frontmatter ↔ OpensOnOwnLine content := by
  obtain ⟨rest, hrest, after, hsplit, -⟩ := splitAtFences_eq_ok_iff.mp h
  have hline : OpensOnOwnLine content ↔ ['\n'] <+: rest := by
    rw [OpensOnOwnLine, hrest]
    exact List.prefix_append_right_inj "---".toList
  simp only [workflowFrontmatter, hrest, isPrefixOf_opening, if_true, hline, drop_opening]
  split
  · rename_i rest
    rw [stripNewline] at hsplit
    rw [hsplit]
    exact iff_of_true rfl ⟨rest, rfl⟩
  · rename_i hother
    refine iff_of_false (by simp) fun ⟨rest', hnewline⟩ => hother rest' hnewline.symm

theorem Task.parseContent_eq_ok_iff {fromYaml : List Char → Option Mapping} {task : Task} :
    Task.parseContent fromYaml content = .ok task ↔
      ∃ frontmatter body mapping, splitFrontmatter content = .ok (frontmatter, body) ∧
        fromYaml frontmatter = some mapping ∧
        Task.parse "" mapping (String.ofList body) = some task := by
  rw [Task.parseContent]
  cases hsplit : splitFrontmatter content with
  | error message => simp [bind, Except.bind]
  | ok parts =>
    obtain ⟨frontmatter, body⟩ := parts
    cases hyaml : fromYaml frontmatter with
    | none => simp [bind, Except.bind, hyaml]
    | some mapping =>
      cases htask : Task.parse "" mapping (String.ofList body) <;>
        simp [bind, Except.bind, hyaml, htask]

/-- **The readers agree** exactly on the files whose opening fence stands alone on its line. -/
theorem readersAgree_iff (fromYaml : List Char → Option Mapping) (content : List Char) (task : Task)
    (h : Task.parseContent fromYaml content = .ok task) :
    (∃ frontmatter body, splitFrontmatter content = .ok (frontmatter, body) ∧
      ReadersAgree content frontmatter) ↔ OpensOnOwnLine content := by
  obtain ⟨frontmatter, body, mapping, hsplit, -, -⟩ := Task.parseContent_eq_ok_iff.mp h
  have hagree := workflowFrontmatter_eq_some_iff hsplit
  constructor
  · rintro ⟨frontmatter', body', hparts, hreaders⟩
    rw [hsplit] at hparts
    cases hparts
    exact hagree.mp hreaders.resolver
  · intro hline
    refine ⟨frontmatter, body, hsplit, hagree.mpr hline, extractFrontmatter_of_split hsplit, ?_, ?_⟩
    · rw [Board.splitTaskFrontmatter, splitAtFences_of_split hsplit]
      rfl
    · rw [TaskCmd.splitTaskFrontmatter, splitAtFences_of_split hsplit]
      rfl

end

/-! ### A file with carriage returns -/

/-- The file of a task, with the given line ending. -/
def fileWith (ending : String) : List Char :=
  s!"---{ending}id: 1{ending}title: base{ending}---{ending}Base.".toList

/-- A reading of YAML that knows the frontmatter of that file. -/
def readsBase (ending : String) (frontmatter : List Char) : Option Mapping :=
  if Text.trim frontmatter = s!"id: 1{ending}title: base".toList then
    some (.ofList [(.id, .number 1), (.title, .string "base")])
  else none

/-- With plain line feeds all readers agree. -/
theorem readersAgree_iff_newlines :
    (∃ frontmatter body, splitFrontmatter (fileWith "\n") = .ok (frontmatter, body) ∧
      ReadersAgree (fileWith "\n") frontmatter) ↔ OpensOnOwnLine (fileWith "\n") :=
  readersAgree_iff (readsBase "\n") (fileWith "\n") _ (by rfl)

/-- Where lines end in carriage returns too, one reader sees no metadata. -/
theorem not_readersAgree : ¬ ∀ fromYaml content task, Task.parseContent fromYaml content = .ok task →
    ∃ frontmatter body, splitFrontmatter content = .ok (frontmatter, body) ∧
      ReadersAgree content frontmatter := by
  intro h
  obtain ⟨frontmatter, body, -, hreaders⟩ := h (readsBase "\r\n") (fileWith "\r\n") _ (by rfl)
  have hnone : workflowFrontmatter (fileWith "\r\n") = none := by decide
  have hsome := hreaders.resolver
  rw [hnone] at hsome
  cases hsome

end Batty
