import Batty.Merge.Completion
import Mathlib.Algebra.Order.Field.Rat
import Mathlib.Data.Finset.Card
import Mathlib.Data.List.Infix
import Mathlib.Tactic.Linarith
import Mathlib.Tactic.Positivity

/-!
# Merging without a review

A completed task whose tests have passed is merged at once if its diff is harmless enough. The diff
gets a confidence, which starts at one, loses something for everything that makes a diff risky and
gains up to a tenth for renames, and it has to keep within the hard limits of the policy.

Of two diffs the one that is no riskier is merged if the other one is (`autoMerge_of_riskier`): each
penalty grows with what it is for, and what renames are worth is a share of the files. That share
is left out for a diff of no files, so here alone there must be no renames to speak of.

The confidence is computed exactly.
-/

namespace Batty

/-- What the summary of a diff says. -/
structure DiffSummary where
  filesChanged : Nat
  linesAdded : Nat
  linesRemoved : Nat
  generatedLinesAdded : Nat
  generatedLinesRemoved : Nat
  modulesTouched : Finset String
  /-- All files of the diff; which of them are sensitive, the policy says. -/
  sensitiveFiles : List String
  generatedReportArtifacts : List String
  hasUnsafe : Bool
  hasConflicts : Bool
  renameCount : Nat
  hasMigrations : Bool
  hasConfigChanges : Bool

/-- What may be merged without a review. -/
structure AutoMergePolicy where
  enabled : Bool
  maxDiffLines : Nat
  maxFilesChanged : Nat
  maxModulesTouched : Nat
  sensitivePaths : List String
  confidenceThreshold : ℚ
  requireTestsPass : Bool

/-- The decision as it is logged, with the figures it rests on. -/
structure AutoMergeDecisionRecord where
  decision : AutoMergeDecisionKind
  confidence : ℚ
  reasons : List String
  filesChanged : Nat
  linesChanged : Nat
  modulesTouched : Nat
  hasMigrations : Bool
  hasConfigChanges : Bool
  hasUnsafe : Bool
  hasConflicts : Bool
  renameCount : Nat
  testsPassed : Bool
  overrideForced : Option Bool
  diffAvailable : Bool

/-! ### The decision -/

namespace DiffSummary

def totalLines (summary : DiffSummary) : Nat := summary.linesAdded + summary.linesRemoved

def generatedDataLines (summary : DiffSummary) : Nat :=
  summary.generatedLinesAdded + summary.generatedLinesRemoved

def reviewLines (summary : DiffSummary) : Nat := summary.totalLines - summary.generatedDataLines

/-- The files that the policy calls sensitive. -/
def sensitive (summary : DiffSummary) (policy : AutoMergePolicy) : List String :=
  summary.sensitiveFiles.filter fun file =>
    policy.sensitivePaths.any fun path => path.toList <:+: file.toList

def touchesSensitive (summary : DiffSummary) (policy : AutoMergePolicy) : Bool :=
  summary.sensitiveFiles.any fun file =>
    policy.sensitivePaths.any fun path => path.toList <:+: file.toList

end DiffSummary

/-- What the risks of a diff leave of full confidence. -/
def computeMergeConfidence (summary : DiffSummary) (policy : AutoMergePolicy) : ℚ :=
  let confidence : ℚ := 1
  let confidence := if 3 < summary.filesChanged then
      confidence - 1 / 10 * (summary.filesChanged - 3 : Nat) else confidence
  let confidence := if 1 < summary.modulesTouched.card then
      confidence - 2 / 10 * (summary.modulesTouched.card - 1 : Nat) else confidence
  let confidence := if summary.touchesSensitive policy then confidence - 3 / 10 else confidence
  let confidence := if !summary.generatedReportArtifacts.isEmpty then confidence - 3 / 10
    else confidence
  let confidence := if 100 < summary.totalLines then
      confidence - 1 / 10 * ((summary.totalLines - 100) / 50 : Nat) else confidence
  let confidence := if summary.hasUnsafe then confidence - 4 / 10 else confidence
  let confidence := if summary.hasConflicts then confidence - 5 / 10 else confidence
  let confidence := if summary.hasMigrations then confidence - 3 / 10 else confidence
  let confidence := if summary.hasConfigChanges then confidence - 15 / 100 else confidence
  let confidence := if 0 < summary.renameCount ∧ 0 < summary.filesChanged then
      confidence + 1 / 10 * (summary.renameCount / summary.filesChanged) else confidence
  max confidence 0

def AutoMergeDecisionRecord.fromSummary (summary : DiffSummary) (confidence : ℚ)
    (decision : AutoMergeDecisionKind) (reasons : List String) (testsPassed : Bool) :
    AutoMergeDecisionRecord where
  decision := decision
  confidence := confidence
  reasons := reasons
  filesChanged := summary.filesChanged
  linesChanged := summary.totalLines
  modulesTouched := summary.modulesTouched.card
  hasMigrations := summary.hasMigrations
  hasConfigChanges := summary.hasConfigChanges
  hasUnsafe := summary.hasUnsafe
  hasConflicts := summary.hasConflicts
  renameCount := summary.renameCount
  testsPassed := testsPassed
  overrideForced := none
  diffAvailable := true

/-- The first artifacts of a diff, and how many more there are. -/
def artifactsReason (artifacts : List String) : String :=
  let paths := ", ".intercalate (artifacts.take 3)
  let suffix := if 3 < artifacts.length then s!", and {artifacts.length - 3} more" else ""
  s!"contains generated/report artifacts: {paths}{suffix}"

/-- What speaks against merging. `hundredths` prints a number with two decimals. -/
def mergeReasons (hundredths : ℚ → String) (summary : DiffSummary) (policy : AutoMergePolicy)
    (testsPassed : Bool) : List String :=
  let confidence := computeMergeConfidence summary policy
  (if policy.requireTestsPass && !testsPassed then ["tests did not pass"] else []) ++
  (if summary.hasConflicts then ["conflicts with main"] else []) ++
  (if confidence < policy.confidenceThreshold then
    [s!"confidence {hundredths confidence} below threshold {hundredths policy.confidenceThreshold}"]
    else []) ++
  (if policy.maxFilesChanged < summary.filesChanged then
    [s!"{summary.filesChanged} files changed (max {policy.maxFilesChanged})"] else []) ++
  (if policy.maxDiffLines < summary.reviewLines then
    [s!"{summary.reviewLines} diff lines (max {policy.maxDiffLines})"] else []) ++
  (if policy.maxModulesTouched < summary.modulesTouched.card then
    [s!"{summary.modulesTouched.card} modules touched (max {policy.maxModulesTouched})"] else []) ++
  (if summary.touchesSensitive policy then ["touches sensitive paths"] else []) ++
  (if !summary.generatedReportArtifacts.isEmpty then
    [artifactsReason summary.generatedReportArtifacts] else []) ++
  (if summary.hasUnsafe then ["contains unsafe blocks"] else []) ++
  if summary.hasMigrations then ["contains migration/schema changes"] else []

/-- Merge a diff that the policy allows, and else say why not. -/
def evaluateAutoMergeCandidate (hundredths : ℚ → String) (summary : DiffSummary)
    (policy : AutoMergePolicy) (testsPassed : Bool) : AutoMergeDecisionRecord :=
  let confidence := computeMergeConfidence summary policy
  if !policy.enabled then
    .fromSummary summary confidence .manualReview ["auto-merge disabled by policy"] testsPassed
  else
    let reasons := mergeReasons hundredths summary policy testsPassed
    if reasons.isEmpty then
      .fromSummary summary confidence .accepted
        [s!"confidence {hundredths confidence} meets threshold " ++
          s!"{hundredths policy.confidenceThreshold}; diff stays within file/module/line policy " ++
          "limits"] testsPassed
    else .fromSummary summary confidence .manualReview reasons testsPassed

/-! ### What is asked of a diff -/

/-- The hard limits of a policy. -/
structure DiffSummary.KeepsLimits (summary : DiffSummary) (policy : AutoMergePolicy) : Prop where
  conflicts : summary.hasConflicts = false
  files : summary.filesChanged ≤ policy.maxFilesChanged
  reviewLines : summary.reviewLines ≤ policy.maxDiffLines
  modules : summary.modulesTouched.card ≤ policy.maxModulesTouched
  sensitive : summary.sensitive policy = []
  artifacts : summary.generatedReportArtifacts = []
  isSafe : summary.hasUnsafe = false
  migrations : summary.hasMigrations = false

/-- The second diff is as risky as the first one in everything that is looked at. -/
structure DiffSummary.Riskier (policy : AutoMergePolicy) (summary summary' : DiffSummary) :
    Prop where
  files : summary.filesChanged ≤ summary'.filesChanged
  lines : summary.totalLines ≤ summary'.totalLines
  reviewLines : summary.reviewLines ≤ summary'.reviewLines
  modules : summary.modulesTouched.card ≤ summary'.modulesTouched.card
  sensitive : (summary.sensitive policy).length ≤ (summary'.sensitive policy).length
  artifacts : summary.generatedReportArtifacts.length ≤ summary'.generatedReportArtifacts.length
  unsafes : summary.hasUnsafe = true → summary'.hasUnsafe = true
  conflicts : summary.hasConflicts = true → summary'.hasConflicts = true
  migrations : summary.hasMigrations = true → summary'.hasMigrations = true
  configChanges : summary.hasConfigChanges = true → summary'.hasConfigChanges = true
  renames : summary'.renameCount ≤ summary.renameCount

section

variable {policy : AutoMergePolicy} {summary summary' : DiffSummary}

theorem touchesSensitive_eq_false_iff :
    summary.touchesSensitive policy = false ↔ summary.sensitive policy = [] := by
  rw [DiffSummary.touchesSensitive, DiffSummary.sensitive, List.any_eq_false,
    List.filter_eq_nil_iff]

/-! ### The confidence -/

/-- What everything risky about a diff costs. -/
def mergePenalty (summary : DiffSummary) (policy : AutoMergePolicy) : ℚ :=
  1 / 10 * (summary.filesChanged - 3 : Nat) + 2 / 10 * (summary.modulesTouched.card - 1 : Nat) +
    (if summary.touchesSensitive policy then 3 / 10 else 0) +
    (if !summary.generatedReportArtifacts.isEmpty then 3 / 10 else 0) +
    1 / 10 * ((summary.totalLines - 100) / 50 : Nat) +
    (if summary.hasUnsafe then 4 / 10 else 0) + (if summary.hasConflicts then 5 / 10 else 0) +
    (if summary.hasMigrations then 3 / 10 else 0) +
    if summary.hasConfigChanges then 15 / 100 else 0

/-- What the renames of a diff are worth. -/
def renameBonus (summary : DiffSummary) : ℚ :=
  1 / 10 * (summary.renameCount / summary.filesChanged)

theorem ite_sub_eq {p : Prop} [Decidable p] (x y : ℚ) :
    (if p then x - y else x) = x - if p then y else 0 := by
  split <;> simp

/-- A penalty for what is above a limit is one for what is left of it. -/
theorem ite_sub_of_lt {bound count : Nat} {x y : ℚ} (h : ¬ bound < count → y = 0) :
    (if bound < count then x - y else x) = x - y := by
  split
  · rfl
  · rw [h ‹_›, sub_zero]

theorem computeMergeConfidence_eq (summary : DiffSummary) (policy : AutoMergePolicy) :
    computeMergeConfidence summary policy =
      max (1 - mergePenalty summary policy + renameBonus summary) 0 := by
  have hrenames : ∀ x : ℚ, (if 0 < summary.renameCount ∧ 0 < summary.filesChanged then
      x + 1 / 10 * (summary.renameCount / summary.filesChanged) else x) =
        x + renameBonus summary := by
    intro x
    split
    · rfl
    · rename_i hnone
      rw [not_and_or, Nat.not_lt, Nat.not_lt, Nat.le_zero, Nat.le_zero] at hnone
      rcases hnone with hnone | hnone <;> simp [renameBonus, hnone]
  have hfiles : ¬ 3 < summary.filesChanged →
      (1 / 10 * (summary.filesChanged - 3 : Nat) : ℚ) = 0 := by
    intro hle
    rw [Nat.sub_eq_zero_of_le (Nat.le_of_not_lt hle), Nat.cast_zero, mul_zero]
  have hmodules : ¬ 1 < summary.modulesTouched.card →
      (2 / 10 * (summary.modulesTouched.card - 1 : Nat) : ℚ) = 0 := by
    intro hle
    rw [Nat.sub_eq_zero_of_le (Nat.le_of_not_lt hle), Nat.cast_zero, mul_zero]
  have hlines : ¬ 100 < summary.totalLines →
      (1 / 10 * ((summary.totalLines - 100) / 50 : Nat) : ℚ) = 0 := by
    intro hle
    rw [Nat.sub_eq_zero_of_le (Nat.le_of_not_lt hle), Nat.zero_div, Nat.cast_zero, mul_zero]
  simp only [computeMergeConfidence, hrenames, ite_sub_of_lt hfiles, ite_sub_of_lt hmodules,
    ite_sub_of_lt hlines, ite_sub_eq]
  congr 1
  rw [mergePenalty]
  linarith

theorem ite_le_ite {p q : Bool} {y : ℚ} (hy : 0 ≤ y) (h : p = true → q = true) :
    (if p then y else 0) ≤ if q then y else 0 := by
  cases p with
  | false =>
    rw [if_neg Bool.false_ne_true]
    split
    · exact hy
    · exact le_rfl
  | true => rw [h rfl]

theorem mergePenalty_le (h : summary.Riskier policy summary') :
    mergePenalty summary policy ≤ mergePenalty summary' policy := by
  have hfiles : ((summary.filesChanged - 3 : Nat) : ℚ) ≤ (summary'.filesChanged - 3 : Nat) :=
    Nat.cast_le.mpr (Nat.sub_le_sub_right h.files 3)
  have hmodules : ((summary.modulesTouched.card - 1 : Nat) : ℚ) ≤
      (summary'.modulesTouched.card - 1 : Nat) :=
    Nat.cast_le.mpr (Nat.sub_le_sub_right h.modules 1)
  have hlines : (((summary.totalLines - 100) / 50 : Nat) : ℚ) ≤
      ((summary'.totalLines - 100) / 50 : Nat) :=
    Nat.cast_le.mpr (Nat.div_le_div_right (Nat.sub_le_sub_right h.lines 100))
  have htouches : summary.touchesSensitive policy = true →
      summary'.touchesSensitive policy = true := by
    rw [← Bool.not_eq_false, ← Bool.not_eq_false, touchesSensitive_eq_false_iff,
      touchesSensitive_eq_false_iff, ← List.length_eq_zero_iff, ← List.length_eq_zero_iff]
    have hlength := h.sensitive
    omega
  have hartifacts : (!summary.generatedReportArtifacts.isEmpty) = true →
      (!summary'.generatedReportArtifacts.isEmpty) = true := by
    simp only [Bool.not_eq_true', List.isEmpty_eq_false_iff, ← List.length_pos_iff]
    exact fun hpos => hpos.trans_le h.artifacts
  have hthree : (0 : ℚ) ≤ 3 / 10 := by positivity
  have hsensitive := ite_le_ite hthree htouches
  have hreports := ite_le_ite hthree hartifacts
  have hmigrations := ite_le_ite hthree h.migrations
  have hunsafe := ite_le_ite (y := 4 / 10) (by positivity) h.unsafes
  have hconflicts := ite_le_ite (y := 5 / 10) (by positivity) h.conflicts
  have hconfig := ite_le_ite (y := 15 / 100) (by positivity) h.configChanges
  rw [mergePenalty, mergePenalty]
  linarith

/-- More renames among fewer files are worth more, unless there are no files. -/
theorem renameBonus_le (hfiles : summary.filesChanged ≤ summary'.filesChanged)
    (hrenames : summary'.renameCount ≤ summary.renameCount)
    (hnone : summary.filesChanged = 0 → summary'.filesChanged = 0 ∨ summary'.renameCount = 0) :
    renameBonus summary' ≤ renameBonus summary := by
  rw [renameBonus, renameBonus]
  refine mul_le_mul_of_nonneg_left ?_ (by positivity)
  rcases Nat.eq_zero_or_pos summary.filesChanged with hzero | hpos
  · rcases hnone hzero with hzero' | hzero'
    · simp [hzero, hzero']
    · simp [hzero, hzero']
  · have hpos' : (0 : ℚ) < summary.filesChanged := Nat.cast_pos.mpr hpos
    have hfiles' : (summary.filesChanged : ℚ) ≤ summary'.filesChanged := Nat.cast_le.mpr hfiles
    have hrenames' : (summary'.renameCount : ℚ) ≤ summary.renameCount := Nat.cast_le.mpr hrenames
    calc (summary'.renameCount / summary'.filesChanged : ℚ)
        ≤ summary'.renameCount / summary.filesChanged :=
          div_le_div_of_nonneg_left (Nat.cast_nonneg _) hpos' hfiles'
      _ ≤ summary.renameCount / summary.filesChanged :=
          div_le_div_of_nonneg_right hrenames' hpos'.le

/-- **Less risk, more confidence.** -/
theorem computeMergeConfidence_le (h : summary.Riskier policy summary')
    (hnone : summary.filesChanged = 0 → summary'.filesChanged = 0 ∨ summary'.renameCount = 0) :
    computeMergeConfidence summary' policy ≤ computeMergeConfidence summary policy := by
  have hpenalty := mergePenalty_le h
  have hbonus := renameBonus_le h.files h.renames hnone
  rw [computeMergeConfidence_eq, computeMergeConfidence_eq]
  exact max_le_max (by linarith) le_rfl

theorem DiffSummary.KeepsLimits.of_riskier (hlimits : summary'.KeepsLimits policy)
    (h : summary.Riskier policy summary') : summary.KeepsLimits policy where
  conflicts := Bool.eq_false_iff.mpr fun hyes =>
    Bool.eq_false_iff.mp hlimits.conflicts (h.conflicts hyes)
  files := h.files.trans hlimits.files
  reviewLines := h.reviewLines.trans hlimits.reviewLines
  modules := h.modules.trans hlimits.modules
  sensitive := by
    have hlength := h.sensitive
    rw [hlimits.sensitive] at hlength
    exact List.length_eq_zero_iff.mp (Nat.le_zero.mp hlength)
  artifacts := by
    have hlength := h.artifacts
    rw [hlimits.artifacts] at hlength
    exact List.length_eq_zero_iff.mp (Nat.le_zero.mp hlength)
  isSafe := Bool.eq_false_iff.mpr fun hyes =>
    Bool.eq_false_iff.mp hlimits.isSafe (h.unsafes hyes)
  migrations := Bool.eq_false_iff.mpr fun hyes =>
    Bool.eq_false_iff.mp hlimits.migrations (h.migrations hyes)

/-! ### Merging -/

variable {hundredths : ℚ → String} {testsPassed : Bool}

theorem ite_append_eq_nil_iff {α : Type} {p : Prop} [Decidable p] {a : α} {rest : List α} :
    (if p then [a] else []) ++ rest = [] ↔ ¬ p ∧ rest = [] := by
  split <;> simp [*]

theorem mergeReasons_eq_nil_iff :
    mergeReasons hundredths summary policy testsPassed = [] ↔
      (policy.requireTestsPass = true → testsPassed = true) ∧
        policy.confidenceThreshold ≤ computeMergeConfidence summary policy ∧
        summary.KeepsLimits policy := by
  have hlast : (if summary.hasMigrations then ["contains migration/schema changes"] else []) = [] ↔
      summary.hasMigrations = false := by
    split <;> simp [*]
  simp only [mergeReasons, List.append_assoc, ite_append_eq_nil_iff, hlast]
  simp only [Bool.not_eq_true, not_lt, touchesSensitive_eq_false_iff, Bool.and_eq_false_iff,
    Bool.not_eq_false', List.isEmpty_iff]
  constructor
  · rintro ⟨htests, hconflicts, hconfidence, hfiles, hlines, hmodules, hsensitive, hartifacts,
      hunsafe, hmigrations⟩
    exact ⟨fun hrequired => htests.resolve_left fun h => absurd (hrequired.symm.trans h) nofun,
      hconfidence, hconflicts, hfiles, hlines, hmodules, hsensitive, hartifacts, hunsafe,
      hmigrations⟩
  · rintro ⟨htests, hconfidence, h⟩
    refine ⟨?_, h.conflicts, hconfidence, h.files, h.reviewLines, h.modules, h.sensitive,
      h.artifacts, h.isSafe, h.migrations⟩
    cases hrequired : policy.requireTestsPass with
    | false => exact .inl rfl
    | true => exact .inr (htests hrequired)

/-- **What is merged**: with the policy in force, a diff of enough confidence that keeps within the
limits. -/
theorem evaluateAutoMergeCandidate_accepted_iff :
    (evaluateAutoMergeCandidate hundredths summary policy testsPassed).decision = .accepted ↔
      policy.enabled = true ∧ (policy.requireTestsPass = true → testsPassed = true) ∧
        policy.confidenceThreshold ≤ computeMergeConfidence summary policy ∧
        summary.KeepsLimits policy := by
  rw [← @mergeReasons_eq_nil_iff policy summary hundredths, evaluateAutoMergeCandidate]
  cases policy.enabled with
  | false => simp [AutoMergeDecisionRecord.fromSummary]
  | true =>
    simp only [Bool.not_true, Bool.false_eq_true, if_false, true_and, List.isEmpty_iff]
    split <;> simp [AutoMergeDecisionRecord.fromSummary, *]

end

/-- The policy merges the diff if it merges one that is as risky in everything. -/
def MergesLessRisk (hundredths : ℚ → String) (policy : AutoMergePolicy) (testsPassed : Bool)
    (summary summary' : DiffSummary) : Prop :=
  summary.Riskier policy summary' →
    (evaluateAutoMergeCandidate hundredths summary' policy testsPassed).decision = .accepted →
      (evaluateAutoMergeCandidate hundredths summary policy testsPassed).decision = .accepted

/-- **Monotone in risk.** A diff is merged if a riskier one is, unless it is one of no files against
renames among some; and a diff is merged just if it has the confidence and keeps the limits. -/
theorem autoMerge_of_riskier (hundredths : ℚ → String) (policy : AutoMergePolicy)
    (testsPassed : Bool) :
    (∀ summary summary' : DiffSummary,
      (summary.filesChanged = 0 → summary'.filesChanged = 0 ∨ summary'.renameCount = 0) →
        MergesLessRisk hundredths policy testsPassed summary summary') ∧
      ∀ summary : DiffSummary,
        (evaluateAutoMergeCandidate hundredths summary policy testsPassed).decision = .accepted ↔
          policy.enabled = true ∧ (policy.requireTestsPass = true → testsPassed = true) ∧
            policy.confidenceThreshold ≤ computeMergeConfidence summary policy ∧
            summary.KeepsLimits policy := by
  refine ⟨fun summary summary' hnone h haccepted => ?_,
    fun _ => evaluateAutoMergeCandidate_accepted_iff⟩
  rw [evaluateAutoMergeCandidate_accepted_iff] at haccepted ⊢
  obtain ⟨henabled, htests, hconfidence, hlimits⟩ := haccepted
  exact ⟨henabled, htests, hconfidence.trans (computeMergeConfidence_le h hnone),
    hlimits.of_riskier h⟩

/-- A diff of that many files, renamed or not, and nothing else. -/
def renamesOnly (files renames : Nat) : DiffSummary where
  filesChanged := files
  linesAdded := 0
  linesRemoved := 0
  generatedLinesAdded := 0
  generatedLinesRemoved := 0
  modulesTouched := ∅
  sensitiveFiles := []
  generatedReportArtifacts := []
  hasUnsafe := false
  hasConflicts := false
  renameCount := renames
  hasMigrations := false
  hasConfigChanges := false

/-- A policy that asks for more confidence than a diff without renames can have. -/
def strictPolicy : AutoMergePolicy where
  enabled := true
  maxDiffLines := 2000
  maxFilesChanged := 30
  maxModulesTouched := 10
  sensitivePaths := []
  confidenceThreshold := 105 / 100
  requireTestsPass := true

theorem riskier_renamesOnly {files files' : Nat} (h : files ≤ files') (renames : Nat) :
    (renamesOnly files renames).Riskier strictPolicy (renamesOnly files' renames) :=
  ⟨h, le_rfl, le_rfl, le_rfl, le_rfl, le_rfl, id, id, id, id, le_rfl⟩

/-- Renames of whole files, at most three, are worth a tenth. -/
theorem computeMergeConfidence_renamesOnly {files : Nat} (hpos : 0 < files) (hle : files ≤ 3) :
    computeMergeConfidence (renamesOnly files files) strictPolicy = 11 / 10 := by
  have hfiles : (files : ℚ) ≠ 0 := Nat.cast_ne_zero.mpr hpos.ne'
  simp only [computeMergeConfidence, renamesOnly, DiffSummary.touchesSensitive,
    DiffSummary.totalLines, Nat.not_lt.mpr hle, hpos, div_self hfiles]
  norm_num

theorem computeMergeConfidence_renamesOnly_none :
    computeMergeConfidence (renamesOnly 0 1) strictPolicy = 1 := by
  simp only [computeMergeConfidence, renamesOnly, DiffSummary.touchesSensitive,
    DiffSummary.totalLines]
  norm_num

theorem accepted_renamesOnly {files : Nat} (hpos : 0 < files) (hle : files ≤ 3) :
    (evaluateAutoMergeCandidate (fun _ => "1.10") (renamesOnly files files) strictPolicy
      true).decision = .accepted := by
  rw [evaluateAutoMergeCandidate_accepted_iff, computeMergeConfidence_renamesOnly hpos hle]
  have hfiles : files ≤ strictPolicy.maxFilesChanged := hle.trans (by decide)
  exact ⟨rfl, fun _ => rfl, by norm_num [strictPolicy], rfl, hfiles, Nat.zero_le _, Nat.zero_le _,
    rfl, rfl, rfl, rfl⟩

/-- Two renames, of one file and of two: the diff with fewer files is merged as well. -/
theorem autoMerge_of_riskier_fewerFiles :
    (evaluateAutoMergeCandidate (fun _ => "1.10") (renamesOnly 1 2) strictPolicy true).decision =
      .accepted :=
  (autoMerge_of_riskier (fun _ => "1.10") strictPolicy true).1 (renamesOnly 1 2) (renamesOnly 2 2)
    (fun h => by cases h) (riskier_renamesOnly (by decide) 2)
    (accepted_renamesOnly (by decide) (by decide))

/-- The rename of a file is worth a tenth, that of no file nothing. -/
theorem not_mergesLessRisk :
    ¬ ∀ summary summary' : DiffSummary,
      MergesLessRisk (fun _ => "1.10") strictPolicy true summary summary' := by
  intro h
  have haccepted := h (renamesOnly 0 1) (renamesOnly 1 1) (riskier_renamesOnly (Nat.zero_le 1) 1)
    (accepted_renamesOnly Nat.one_pos (by decide))
  rw [evaluateAutoMergeCandidate_accepted_iff, computeMergeConfidence_renamesOnly_none] at haccepted
  have hle := haccepted.2.2.1
  norm_num [strictPolicy] at hle

end Batty
