import Batty.Board.Task
import Batty.Foundation.Lists
import Batty.Foundation.Words
import Mathlib.Data.List.DropRight
import Mathlib.Data.Rat.Floor
import Mathlib.Data.String.Basic
import Mathlib.Order.WithBot

/-!
# Ranking engineers

An engineer's score for a task adds up what is known of him: tags and directories shared with the
task, how much he has completed and how well, less what he is busy with. `explainRoutingForTask`
sorts the engineers by their scores, with ties broken by `compareBreakdowns`, or by name alone
while the telemetry is still warming up.

`rankEngineersForTask_fair`: the ranking is a permutation of the engineers that does not depend on
the order in which they are given, and unless it is by name its head is the best of them. An
optional figure that is missing is below every one that is there, so that an engineer without a
first-pass rate comes last and one without a duration comes first.

A rate is a float that is not a NaN, taken exactly. Scores are exact integers; the source keeps
them in 32 bits, and what happens when they overflow is not modelled. The files that a task
declares are read from its file on disk, which may fail, and are a parameter.
-/

namespace Batty

open Std

abbrev Rate := WithBot (WithTop ℚ)

/-! ### Directories -/

/-- A part of a path that says nothing. -/
def isEmptyComponent (part : List Char) : Bool := part = [] || part = ['.']

/-- How many characters a path has in front of its first component: a slash, or a leading dot. -/
def lenBeforeBody : List Char → Nat
  | '/' :: _ => 1
  | ['.'] => 1
  | '.' :: '/' :: _ => 1
  | _ => 0

/-- The path without its last component, if something is left. -/
def parentDir (path : List Char) : Option (List Char) :=
  let start := lenBeforeBody path
  let parts := ((path.drop start).splitOn '/').rdropWhile isEmptyComponent
  let parent := path.take start ++ ['/'].intercalate (parts.dropLast.rdropWhile isEmptyComponent)
  if parts = [] || parent = [] then none else some parent

/-- The punctuation that clings to a path in a text. -/
def isHintPunctuation (c : Char) : Bool :=
  ['\x22', '\x27', ',', ':', ';', '(', ')', '[', ']', '\x60'].contains c

/-- A word of the body as a path, unless it is an emphasis or a plain word. -/
def cleanFileHintToken (token : List Char) : Option (List Char) :=
  let cleaned := Text.trimEndMatches (· = '.') (Text.trimEndMatches isHintPunctuation
    (Text.trimStartMatches isHintPunctuation token))
  let emphasis := ["**".toList, "__".toList].any fun mark =>
    mark.isPrefixOf cleaned || mark.isSuffixOf cleaned
  if cleaned = [] || emphasis then none
  else if (parentDir cleaned).isSome || cleaned.contains '*' || cleaned.contains '?' then
    some cleaned
  else none

def extractBodyFileHints (body : String) : List String :=
  ((words (fun c => !Text.isWhitespace c) body.toList).filterMap cleanFileHintToken).map
    String.ofList

example : extractBodyFileHints "Touch src/foo.rs, *.md and **bold**." = ["src/foo.rs", "*.md"] := by
  decide

/-- The files that a task names, in its frontmatter and in its body. -/
def taskFileHints (declaredFiles : Task → Option (List String)) (task : Task) :
    Option (List String) :=
  (declaredFiles task).map fun declared =>
    let files := (declared ++ extractBodyFileHints task.description).filter fun file =>
      Text.trim file.toList ≠ []
    (files.insertionSort (· ≤ ·)).dedup

def directories (paths : List String) : List (List Char) :=
  (paths.filterMap fun path => parentDir path.toList).dedup

def taskHintDirectories (declaredFiles : Task → Option (List String)) (task : Task) :
    List (List Char) :=
  directories ((taskFileHints declaredFiles task).getD [])

/-! ### Scores -/

/-- What the telemetry says of an engineer. -/
structure EngineerPerformanceProfile where
  avgTaskCompletionSecs : Option Rate
  linesPerHour : Option Rate
  firstPassTestRate : Option Rate
  contextExhaustionFrequency : Option Rate

/-- What the ranking knows of an engineer. -/
structure EngineerProfile where
  activeFilePaths : List String := []
  domainTags : List String := []
  activeTaskCount : Nat := 0
  totalCompletions : Nat := 0
  recentMergeConflicts : Nat := 0
  performance : Option EngineerPerformanceProfile := none
  telemetryCompletedTasks : Nat := 0
  completionRate : Rate := ((0 : ℚ) : WithTop ℚ)
  avgTaskDurationSecs : Option Rate := none
  firstPassTestRate : Option Rate := none

/-- The weights of the score. -/
structure AllocationPolicy where
  tagWeight : Int := 15
  fileOverlapWeight : Int := 10
  loadPenalty : Int := 8
  conflictPenalty : Int := 12
  experienceBonus : Int := 3

def rate (q : ℚ) : Rate := ((q : WithTop ℚ) : WithBot (WithTop ℚ))

/-- Halves are rounded away from zero. -/
def roundHalfAway (q : ℚ) : Int := if 0 ≤ q then ⌊q + 1 / 2⌋ else -⌊-q + 1 / 2⌋

/-- A rate in percent, as a 32-bit number that stops at its bounds. -/
def percent : Rate → Int
  | none => -2 ^ 31
  | some none => 2 ^ 31 - 1
  | some (some q) => max (-2 ^ 31) (min (2 ^ 31 - 1) (roundHalfAway (q * 100)))

def performanceScore : Option EngineerPerformanceProfile → Int
  | none => 0
  | some performance =>
    let firstPass := performance.firstPassTestRate.elim 0 fun firstPassRate =>
      if rate (3 / 4) ≤ firstPassRate then 1 else if firstPassRate < rate (1 / 2) then -1 else 0
    let context := performance.contextExhaustionFrequency.elim 0 fun contextFreq =>
      if rate (1 / 2) ≤ contextFreq then -2 else if rate 0 < contextFreq then -1 else 0
    let duration := performance.avgTaskCompletionSecs.elim 0 fun secs =>
      if rate 0 < secs ∧ secs ≤ rate 3600 then 1 else if rate 14400 ≤ secs then -1 else 0
    let lines := performance.linesPerHour.elim 0 fun linesPerHour =>
      if rate 200 ≤ linesPerHour then 1 else 0
    firstPass + context + duration + lines

def tagOverlap (engineer : EngineerProfile) (task : Task) : Nat :=
  (task.tags.filter engineer.domainTags.contains).length

def dirOverlap (declaredFiles : Task → Option (List String)) (engineer : EngineerProfile)
    (task : Task) : Nat :=
  ((directories engineer.activeFilePaths).filter
    (taskHintDirectories declaredFiles task).contains).length

/-- Tags, files and experience add to the score, and load and conflicts take from it. -/
def scoreEngineerForTask (declaredFiles : Task → Option (List String)) (engineer : EngineerProfile)
    (task : Task) (policy : AllocationPolicy) : Int :=
  tagOverlap engineer task * policy.tagWeight +
    dirOverlap declaredFiles engineer task * policy.fileOverlapWeight +
    percent engineer.completionRate -
    engineer.activeTaskCount * policy.loadPenalty -
    engineer.recentMergeConflicts * policy.conflictPenalty +
    (if 3 < engineer.totalCompletions then policy.experienceBonus else 0) +
    performanceScore engineer.performance

/-! ### The ranking -/

/-- The score of an engineer, with its parts. -/
structure EngineerRoutingBreakdown where
  engineer : String
  totalScore : Int
  tagMatches : Nat
  fileMatches : Nat
  completionRate : Rate
  avgTaskDurationSecs : Option Rate
  firstPassTestRate : Option Rate
  telemetryCompletedTasks : Nat

/-- Who was chosen, and the scores of all. -/
structure RoutingDecisionExplanation where
  chosenEngineer : Option String
  fallbackToRoundRobin : Bool
  fallbackReason : Option String
  breakdowns : List EngineerRoutingBreakdown

/-- An engineer without a profile is taken at the defaults. -/
def engineerBreakdown (declaredFiles : Task → Option (List String)) (engineer : String)
    (profile : Option EngineerProfile) (task : Task) (policy : AllocationPolicy) :
    EngineerRoutingBreakdown :=
  let profile := profile.getD {}
  { engineer
    totalScore := scoreEngineerForTask declaredFiles profile task policy
    tagMatches := tagOverlap profile task
    fileMatches := dirOverlap declaredFiles profile task
    completionRate := profile.completionRate
    avgTaskDurationSecs := profile.avgTaskDurationSecs
    firstPassTestRate := profile.firstPassTestRate
    telemetryCompletedTasks := profile.telemetryCompletedTasks }

def compareBreakdowns (left right : EngineerRoutingBreakdown) : Ordering :=
  (compare right.totalScore left.totalScore).then <|
    (compare right.firstPassTestRate left.firstPassTestRate).then <|
      (compare left.avgTaskDurationSecs right.avgTaskDurationSecs).then <|
        compare left.engineer right.engineer

/-- Sorting by a comparison; breakdowns that compare equal stay in their order. -/
def sortBreakdowns (cmp : EngineerRoutingBreakdown → EngineerRoutingBreakdown → Ordering)
    (breakdowns : List EngineerRoutingBreakdown) : List EngineerRoutingBreakdown :=
  breakdowns.insertionSort fun left right => (cmp left right).isLE

/-- The scores are used if the telemetry of all engineers is ready or there is none at all, or if a
tag of the task is one of an engineer's. -/
def ranksByScore (breakdowns : List EngineerRoutingBreakdown) : Bool :=
  let hasAnyTelemetry := breakdowns.any fun breakdown => 0 < breakdown.telemetryCompletedTasks
  let telemetryReady := hasAnyTelemetry &&
    breakdowns.all fun breakdown => 5 ≤ breakdown.telemetryCompletedTasks
  let hasExplicitTagMatch := breakdowns.any fun breakdown => 0 < breakdown.tagMatches
  telemetryReady || !hasAnyTelemetry || hasExplicitTagMatch

/-- Rank the engineers by score, or by name where too little is known. -/
def explainRoutingForTask (declaredFiles : Task → Option (List String)) (engineers : List String)
    (profiles : String → Option EngineerProfile) (task : Task) (policy : AllocationPolicy) :
    RoutingDecisionExplanation :=
  let breakdowns := engineers.map fun engineer =>
    engineerBreakdown declaredFiles engineer (profiles engineer) task policy
  if ranksByScore breakdowns then
    let breakdowns := sortBreakdowns compareBreakdowns breakdowns
    { chosenEngineer := breakdowns.head?.map EngineerRoutingBreakdown.engineer
      fallbackToRoundRobin := false
      fallbackReason := none
      breakdowns }
  else
    let breakdowns := sortBreakdowns (compareOn EngineerRoutingBreakdown.engineer) breakdowns
    { chosenEngineer := breakdowns.head?.map EngineerRoutingBreakdown.engineer
      fallbackToRoundRobin := true
      fallbackReason :=
        some "telemetry fallback: each eligible engineer needs at least 5 completed tasks"
      breakdowns }

def rankEngineersForTask (declaredFiles : Task → Option (List String)) (engineers : List String)
    (profiles : String → Option EngineerProfile) (task : Task) (policy : AllocationPolicy) :
    List String :=
  (explainRoutingForTask declaredFiles engineers profiles task policy).breakdowns.map
    EngineerRoutingBreakdown.engineer

/-! ### A fair order -/

/-- The first is the better one: by score, then by first-pass rate, then by the smaller average
duration, then by the smaller name. -/
def RanksBefore (left right : EngineerRoutingBreakdown) : Prop :=
  right.totalScore < left.totalScore ∨ left.totalScore = right.totalScore ∧
    (right.firstPassTestRate < left.firstPassTestRate ∨
      left.firstPassTestRate = right.firstPassTestRate ∧
      (left.avgTaskDurationSecs < right.avgTaskDurationSecs ∨
        left.avgTaskDurationSecs = right.avgTaskDurationSecs ∧ left.engineer ≤ right.engineer))

/-- **A fair ranking** of engineers. -/
structure RanksFairly (declaredFiles : Task → Option (List String))
    (profiles : String → Option EngineerProfile) (task : Task) (policy : AllocationPolicy)
    (engineers : List String) : Prop where
  perm : (rankEngineersForTask declaredFiles engineers profiles task policy).Perm engineers
  orderFree : ∀ engineers', engineers'.Perm engineers →
    rankEngineersForTask declaredFiles engineers' profiles task policy =
      rankEngineersForTask declaredFiles engineers profiles task policy
  best :
    let breakdown := fun engineer =>
      engineerBreakdown declaredFiles engineer (profiles engineer) task policy
    ((∃ engineer ∈ engineers, 0 < (breakdown engineer).tagMatches) ∨
      (∀ engineer ∈ engineers, (breakdown engineer).telemetryCompletedTasks = 0) ∨
      ∀ engineer ∈ engineers, 5 ≤ (breakdown engineer).telemetryCompletedTasks) →
    ∀ first ∈ (rankEngineersForTask declaredFiles engineers profiles task policy).head?,
      ∀ engineer ∈ engineers, RanksBefore (breakdown first) (breakdown engineer)

section

variable {left right : EngineerRoutingBreakdown}

theorem compareOption_eq_lt_iff {a b : Option Rate} : compare a b = .lt ↔ a < b := by
  cases a with
  | none => cases b <;> simp [compare]
  | some a =>
    cases b with
    | none => simp [compare]
    | some b => exact (compare_lt_iff_lt (a := a)).trans Option.some_lt_some.symm

theorem compareBreakdowns_isLE_iff :
    (compareBreakdowns left right).isLE = true ↔ RanksBefore left right := by
  have hname : (compare left.engineer right.engineer).isLE = true ↔
      left.engineer ≤ right.engineer := LawfulBCmp.isLE_iff_le
  simp only [compareBreakdowns, Ordering.isLE_then_iff_or, LawfulEqOrd.compare_eq_iff_eq,
    compareOption_eq_lt_iff, compare_lt_iff_lt, RanksBefore, hname]
  simp only [eq_comm (a := right.totalScore), eq_comm (a := right.firstPassTestRate)]

instance : TransCmp compareBreakdowns :=
  inferInstanceAs (TransCmp (compareLex
    (fun left right => compareOn EngineerRoutingBreakdown.totalScore right left) (compareLex
      (fun left right => compareOn EngineerRoutingBreakdown.firstPassTestRate right left) (compareLex
        (compareOn EngineerRoutingBreakdown.avgTaskDurationSecs)
          (compareOn EngineerRoutingBreakdown.engineer)))))

theorem eq_of_compareBreakdowns (h : (compareBreakdowns left right).isLE = true)
    (h' : (compareBreakdowns right left).isLE = true) : left.engineer = right.engineer := by
  have heq := OrientedCmp.isLE_antisymm h h'
  simp only [compareBreakdowns, Ordering.then_eq_eq, LawfulEqOrd.compare_eq_iff_eq] at heq
  exact heq.2.2.2

theorem eq_of_compareOn_engineer
    (h : (compareOn EngineerRoutingBreakdown.engineer left right).isLE = true)
    (h' : (compareOn EngineerRoutingBreakdown.engineer right left).isLE = true) :
    left.engineer = right.engineer :=
  LawfulEqOrd.compare_eq_iff_eq.mp (OrientedCmp.isLE_antisymm h h')

end

section

variable {declaredFiles : Task → Option (List String)} {profiles : String → Option EngineerProfile}
  {task : Task} {policy : AllocationPolicy} {engineers : List String}

/-- What is known of the engineers, in the order in which they are given. -/
def breakdownsOf (declaredFiles : Task → Option (List String)) (engineers : List String)
    (profiles : String → Option EngineerProfile) (task : Task) (policy : AllocationPolicy) :
    List EngineerRoutingBreakdown :=
  engineers.map fun engineer =>
    engineerBreakdown declaredFiles engineer (profiles engineer) task policy

theorem explainRoutingForTask_breakdowns :
    (explainRoutingForTask declaredFiles engineers profiles task policy).breakdowns =
      if ranksByScore (breakdownsOf declaredFiles engineers profiles task policy) then
        sortBreakdowns compareBreakdowns
          (breakdownsOf declaredFiles engineers profiles task policy)
      else
        sortBreakdowns (compareOn EngineerRoutingBreakdown.engineer)
          (breakdownsOf declaredFiles engineers profiles task policy) := by
  rw [explainRoutingForTask]
  exact apply_ite RoutingDecisionExplanation.breakdowns _ _ _

theorem eq_of_mem_breakdownsOf {breakdown : EngineerRoutingBreakdown}
    (h : breakdown ∈ breakdownsOf declaredFiles engineers profiles task policy) :
    breakdown = engineerBreakdown declaredFiles breakdown.engineer (profiles breakdown.engineer)
      task policy := by
  obtain ⟨engineer, -, rfl⟩ := List.mem_map.mp h
  rfl

/-- An engineer has one breakdown. -/
theorem breakdownsOf_inj {left right : EngineerRoutingBreakdown}
    (hleft : left ∈ breakdownsOf declaredFiles engineers profiles task policy)
    (hright : right ∈ breakdownsOf declaredFiles engineers profiles task policy)
    (h : left.engineer = right.engineer) : left = right := by
  rw [eq_of_mem_breakdownsOf hleft, eq_of_mem_breakdownsOf hright, h]

theorem ranksByScore_of_perm {breakdowns breakdowns' : List EngineerRoutingBreakdown}
    (h : breakdowns.Perm breakdowns') : ranksByScore breakdowns = ranksByScore breakdowns' := by
  simp only [ranksByScore, h.any_eq, h.all_eq]

theorem rankEngineersForTask_perm :
    (rankEngineersForTask declaredFiles engineers profiles task policy).Perm engineers := by
  have hnames : (breakdownsOf declaredFiles engineers profiles task policy).map
      EngineerRoutingBreakdown.engineer = engineers := by
    rw [breakdownsOf, List.map_map]
    exact List.map_id _
  rw [rankEngineersForTask, explainRoutingForTask_breakdowns]
  split
  · exact ((List.perm_insertionSort _ _).map _).trans (.of_eq hnames)
  · exact ((List.perm_insertionSort _ _).map _).trans (.of_eq hnames)

theorem rankEngineersForTask_eq_of_perm {engineers' : List String} (h : engineers'.Perm engineers) :
    rankEngineersForTask declaredFiles engineers' profiles task policy =
      rankEngineersForTask declaredFiles engineers profiles task policy := by
  have hperm : (breakdownsOf declaredFiles engineers' profiles task policy).Perm
      (breakdownsOf declaredFiles engineers profiles task policy) := h.map _
  rw [rankEngineersForTask, rankEngineersForTask, explainRoutingForTask_breakdowns,
    explainRoutingForTask_breakdowns]
  simp only [ranksByScore_of_perm hperm]
  split
  · rw [sortBreakdowns, sortBreakdowns, insertionSort_eq_of_perm hperm]
    exact fun left hleft right hright hle hge =>
      breakdownsOf_inj hleft hright (eq_of_compareBreakdowns hle hge)
  · rw [sortBreakdowns, sortBreakdowns, insertionSort_eq_of_perm hperm]
    exact fun left hleft right hright hle hge =>
      breakdownsOf_inj hleft hright (eq_of_compareOn_engineer hle hge)

/-- The three ways in which the scores come to be used. -/
theorem ranksByScore_eq_true_iff {breakdowns : List EngineerRoutingBreakdown} :
    ranksByScore breakdowns = true ↔ (∃ breakdown ∈ breakdowns, 0 < breakdown.tagMatches) ∨
      (∀ breakdown ∈ breakdowns, breakdown.telemetryCompletedTasks = 0) ∨
      ∀ breakdown ∈ breakdowns, 5 ≤ breakdown.telemetryCompletedTasks := by
  simp only [ranksByScore, Bool.or_eq_true, Bool.and_eq_true, Bool.not_eq_true', List.any_eq_true,
    List.all_eq_true, decide_eq_true_eq, List.any_eq_false, Nat.not_lt, Nat.le_zero]
  constructor
  · rintro ((⟨-, hready⟩ | hnone) | hmatch)
    · exact .inr (.inr hready)
    · exact .inr (.inl hnone)
    · exact .inl hmatch
  · rintro (hmatch | hnone | hready)
    · exact .inr hmatch
    · exact .inl (.inr hnone)
    · -- Telemetry that is ready is there, unless there is nobody.
      cases breakdowns with
      | nil => exact .inl (.inr fun breakdown hmem => nomatch hmem)
      | cons breakdown breakdowns =>
        have hfirst := hready breakdown List.mem_cons_self
        exact .inl (.inl ⟨⟨breakdown, List.mem_cons_self, by omega⟩, hready⟩)

/-- **A fair ranking**, whatever the order in which the engineers are given. -/
theorem rankEngineersForTask_fair (declaredFiles : Task → Option (List String))
    (profiles : String → Option EngineerProfile) (task : Task) (policy : AllocationPolicy)
    (engineers : List String) : RanksFairly declaredFiles profiles task policy engineers where
  perm := rankEngineersForTask_perm
  orderFree _ := rankEngineersForTask_eq_of_perm
  best := by
    intro breakdown hgate first hfirst engineer hengineer
    have hscore : ranksByScore (breakdownsOf declaredFiles engineers profiles task policy) = true := by
      rw [ranksByScore_eq_true_iff]
      simpa only [breakdownsOf, List.mem_map, exists_exists_and_eq_and, forall_exists_index,
        and_imp, forall_apply_eq_imp_iff₂] using hgate
    rw [rankEngineersForTask, explainRoutingForTask_breakdowns, List.head?_map] at hfirst
    simp only [hscore, if_true] at hfirst
    obtain ⟨head, hhead, rfl⟩ := Option.map_eq_some_iff.mp hfirst
    have hmem : head ∈ breakdownsOf declaredFiles engineers profiles task policy :=
      (List.mem_insertionSort _).mp (List.mem_of_mem_head? hhead)
    -- The first of a sorted list comes before every other engineer.
    have hbefore := rel_of_head?_insertionSort hhead (List.mem_map_of_mem hengineer)
    rw [compareBreakdowns_isLE_iff] at hbefore
    rwa [eq_of_mem_breakdownsOf hmem] at hbefore

end

end Batty
