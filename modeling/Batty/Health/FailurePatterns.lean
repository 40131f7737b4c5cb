import Batty.Foundation.Text
import Mathlib.Data.List.Dedup
import Mathlib.Data.List.DropRight
import Mathlib.Data.List.Infix
import Mathlib.Data.List.Sort
import Mathlib.Logic.Function.Basic

/-!
# Failure patterns

The last events that tell of a failure are kept in a window, and from time to time the patterns in
it are announced: an engineer with several errors, several escalations, several conflicts. For each
pattern the highest frequency that was announced is remembered, so that it is not announced over and
over.

That memory is never cleared. A pattern that has gone away and comes back is passed over in silence
until it is more frequent than ever before (`not_oncePerEpisode`). And since the affected tasks are
part of what is remembered, a cluster that only loses events can be announced as a new one. What
is announced are the records, and `oncePerEpisode_iff` says in which runs that is right.
-/

namespace Batty

namespace FailurePatterns

open Function (update)

/-! ### The window -/

/-- What goes wrong again and again. -/
inductive PatternType where
  | repeatedTestFailure
  | escalationCluster
  | mergeConflictRecurrence
deriving DecidableEq

def PatternType.asStr : PatternType → String
  | .repeatedTestFailure => "repeated_test_failure"
  | .escalationCluster => "escalation_cluster"
  | .mergeConflictRecurrence => "merge_conflict_recurrence"

/-- A pattern that was found in the window, with how often it occurs there. -/
structure PatternMatch where
  patternType : PatternType
  frequency : Nat
  affectedEntities : List String
  description : String
deriving DecidableEq

/-- What is told of a pattern, and to whom. -/
structure PatternNotification where
  message : String
  notifyManager : Bool
  notifyArchitect : Bool
  patternType : PatternType
  frequency : Nat
deriving DecidableEq

/-- What is kept of an event. -/
structure FailureEvent where
  eventType : String
  role : Option String
  task : Option String
  error : Option String
  ts : Nat
deriving DecidableEq

def defaultWindowSize : Nat := 20

def defaultNotificationThreshold : Nat := 3

def defaultSeverityThreshold : Nat := 5

/-- Whether a text contains a word, whatever its case. -/
def mentions (word value : String) : Bool := word.toList <:+: Text.toAsciiLowercase value.toList

def containsFailureKeyword (value : String) : Bool :=
  mentions "fail" value || mentions "conflict" value

def containsConflict (value : String) : Bool := mentions "conflict" value

def isFailureRelevant (event : FailureEvent) : Bool :=
  event.eventType = "task_escalated" || event.error.isSome ||
    containsFailureKeyword event.eventType

/-- The latest events that are failures, and how many are kept. -/
structure FailureWindow where
  events : List FailureEvent
  windowSize : Nat

namespace FailureWindow

def new (windowSize : Nat) : FailureWindow where
  events := []
  windowSize := if windowSize = 0 then defaultWindowSize else windowSize

/-- The oldest events go as long as there are too many. -/
def push (event : FailureEvent) (window : FailureWindow) : FailureWindow :=
  if isFailureRelevant event then
    let events := window.events ++ [event]
    ⟨events.drop (events.length - window.windowSize), window.windowSize⟩
  else window

end FailureWindow

/-! ### Patterns -/

def sortedEntities (entities : List String) : List String :=
  (entities.insertionSort (· ≤ ·)).dedup

/-- The role with an error, if the event has both. -/
def erroredRole (event : FailureEvent) : Option String :=
  if event.error.isSome then event.role else none

def repeatedFailure (role : String) (frequency : Nat) : PatternMatch where
  patternType := .repeatedTestFailure
  frequency := frequency
  affectedEntities := [role]
  description := s!"{role} hit {frequency} error events in the current failure window"

def repeatedFailures (events : List FailureEvent) : List PatternMatch :=
  (events.filterMap erroredRole).dedup.filterMap fun role =>
    let frequency := events.countP fun event => erroredRole event = some role
    if 2 ≤ frequency then some (repeatedFailure role frequency) else none

/-- The events of a kind as one pattern, if there are two of them. -/
def cluster (patternType : PatternType) (belongs : FailureEvent → Bool)
    (entity : FailureEvent → Option String) (noun : String) (events : List FailureEvent) :
    List PatternMatch :=
  let found := events.filter belongs
  if 2 ≤ found.length then
    [{ patternType
       frequency := found.length
       affectedEntities := sortedEntities (found.filterMap entity)
       description := s!"{found.length} {noun} detected in the current failure window" }]
  else []

def isEscalation (event : FailureEvent) : Bool := event.eventType = "task_escalated"

def isConflict (event : FailureEvent) : Bool :=
  containsConflict event.eventType || event.error.any containsConflict

def escalationClusters : List FailureEvent → List PatternMatch :=
  cluster .escalationCluster isEscalation FailureEvent.task "escalation events"

def conflictClusters : List FailureEvent → List PatternMatch :=
  cluster .mergeConflictRecurrence isConflict
    (fun event => event.task.or (event.role.or (some (toString event.ts))))
    "conflict-related events"

def patternSortKey : PatternType → Nat
  | .repeatedTestFailure => 0
  | .escalationCluster => 1
  | .mergeConflictRecurrence => 2

/-- The most frequent pattern comes first. -/
def comesBefore (left right : PatternMatch) : Bool :=
  right.frequency < left.frequency || right.frequency = left.frequency &&
    (patternSortKey left.patternType < patternSortKey right.patternType ||
      patternSortKey left.patternType = patternSortKey right.patternType &&
        left.description ≤ right.description)

def detectFailurePatterns (events : List FailureEvent) : List PatternMatch :=
  (repeatedFailures events ++ escalationClusters events ++ conflictClusters events).insertionSort
    fun left right => comesBefore left right

/-! ### Notifications -/

def normalizedThresholds (notificationThreshold severityThreshold : Nat) : Nat × Nat :=
  (if notificationThreshold = 0 then defaultNotificationThreshold else notificationThreshold,
    if severityThreshold = 0 then defaultSeverityThreshold else severityThreshold)

def formatAffectedEntities (entities : List String) : String :=
  if entities.isEmpty then "recent work" else ", ".intercalate entities

def patternNotificationMessage (pattern : PatternMatch) : String :=
  let affected := formatAffectedEntities pattern.affectedEntities
  match pattern.patternType with
  | .repeatedTestFailure => s!"Repeated test failures for {affected} ({pattern.frequency}) " ++
      "in the recent window. Review the failing runs and stabilize before retrying."
  | .escalationCluster => s!"Escalations clustered across {affected} ({pattern.frequency} total). " ++
      "Review blockers and rebalance or unblock the work."
  | .mergeConflictRecurrence => s!"Merge conflicts keep recurring across {affected} ({pattern.frequency} " ++
      "total). Pause merges, rebase branches, and fix the shared hotspot."

def buildPatternNotification (severityThreshold : Nat) (pattern : PatternMatch) :
    PatternNotification where
  message := patternNotificationMessage pattern
  notifyManager := true
  notifyArchitect := severityThreshold ≤ pattern.frequency
  patternType := pattern.patternType
  frequency := pattern.frequency

def patternSignature (pattern : PatternMatch) : String :=
  pattern.patternType.asStr ++ ":" ++ ",".intercalate pattern.affectedEntities

/-- The highest frequency that was announced, for each signature. -/
abbrev Memory := String → Option Nat

/-- The patterns that are announced, and what is remembered after that. -/
def announce (memory : Memory) : List PatternMatch → List PatternMatch × Memory
  | [] => ([], memory)
  | pattern :: patterns =>
    let signature := patternSignature pattern
    if pattern.frequency ≤ (memory signature).getD 0 then announce memory patterns
    else
      let (rest, memory') := announce (update memory signature (some pattern.frequency)) patterns
      (pattern :: rest, memory')

/-- The window, and how often each pattern had occurred when it was announced. -/
structure FailureTracker where
  window : FailureWindow
  lastNotifications : Memory

namespace FailureTracker

def new (windowSize : Nat) : FailureTracker := ⟨.new windowSize, fun _ => none⟩

def push (event : FailureEvent) (tracker : FailureTracker) : FailureTracker :=
  ⟨tracker.window.push event, tracker.lastNotifications⟩

/-- The patterns that are announced. -/
def announced (notificationThreshold : Nat) (tracker : FailureTracker) :
    List PatternMatch × FailureTracker :=
  let frequent := (detectFailurePatterns tracker.window.events).filter fun pattern =>
    notificationThreshold ≤ pattern.frequency
  let (patterns, memory) := announce tracker.lastNotifications frequent
  (patterns, ⟨tracker.window, memory⟩)

def patternNotifications (notificationThreshold severityThreshold : Nat)
    (tracker : FailureTracker) : List PatternNotification × FailureTracker :=
  let (notificationThreshold, severityThreshold) :=
    normalizedThresholds notificationThreshold severityThreshold
  let (patterns, tracker) := tracker.announced notificationThreshold
  (patterns.map (buildPatternNotification severityThreshold), tracker)

end FailureTracker

/-! ### Runs -/

/-- What happens to a tracker. -/
inductive Op where
  | push (event : FailureEvent)
  | check

/-- A check: the events pushed since the one before, the window, and what is announced. -/
structure Check where
  pushed : List FailureEvent
  window : List FailureEvent
  announced : List PatternMatch

def Check.patterns (check : Check) : List PatternMatch := detectFailurePatterns check.window

/-- The checks there were, the latest first, and the events pushed since. -/
structure Run where
  tracker : FailureTracker
  pushed : List FailureEvent
  checks : List Check

namespace Run

def start (windowSize : Nat) : Run := ⟨.new windowSize, [], []⟩

def step (notificationThreshold severityThreshold : Nat) (run : Run) : Op → Run
  | .push event => ⟨run.tracker.push event, run.pushed ++ [event], run.checks⟩
  | .check =>
    let threshold := (normalizedThresholds notificationThreshold severityThreshold).1
    let check := ⟨run.pushed, run.tracker.window.events, (run.tracker.announced threshold).1⟩
    ⟨(run.tracker.patternNotifications notificationThreshold severityThreshold).2, [],
      check :: run.checks⟩

end Run

/-- All checks of a run. -/
def checksOf (windowSize notificationThreshold severityThreshold : Nat) (ops : List Op) :
    List Check :=
  (ops.foldl (Run.step notificationThreshold severityThreshold) (.start windowSize)).checks

/-! ### What is claimed -/

/-- The events that a type of patterns is about. -/
def PatternType.Concerns (event : FailureEvent) : PatternType → Bool
  | .repeatedTestFailure => (erroredRole event).isSome
  | .escalationCluster => isEscalation event
  | .mergeConflictRecurrence => isConflict event

/-- The events that a pattern counts. -/
def PatternMatch.Counts (pattern : PatternMatch) (event : FailureEvent) : Bool :=
  match pattern.patternType with
  | .repeatedTestFailure => (erroredRole event).any (· ∈ pattern.affectedEntities)
  | patternType => patternType.Concerns event

/-- A pattern goes by its type and by what it affects. -/
def PatternMatch.Same (pattern pattern' : PatternMatch) : Prop :=
  pattern.patternType = pattern'.patternType ∧
    pattern.affectedEntities = pattern'.affectedEntities

section

variable (threshold : Nat)

/-- The pattern is at or above the threshold at a check. -/
def Check.Reaches (check : Check) (pattern : PatternMatch) : Prop :=
  ∃ pattern' ∈ check.patterns, pattern'.Same pattern ∧ threshold ≤ pattern'.frequency

def Check.Announces (check : Check) (pattern : PatternMatch) : Prop :=
  ∃ pattern' ∈ check.announced, pattern'.Same pattern

/-- It was not announced since it last was below the threshold. -/
def Due (pattern : PatternMatch) : List Check → Prop
  | [] => True
  | check :: past => ¬ check.Announces pattern ∧ (¬ check.Reaches threshold pattern ∨ Due pattern past)

instance (pattern pattern' : PatternMatch) : Decidable (pattern.Same pattern') :=
  inferInstanceAs (Decidable (_ ∧ _))

instance (check : Check) (pattern : PatternMatch) : Decidable (check.Reaches threshold pattern) :=
  inferInstanceAs (Decidable (∃ pattern' ∈ check.patterns, _ ∧ _))

instance (check : Check) (pattern : PatternMatch) : Decidable (check.Announces pattern) :=
  inferInstanceAs (Decidable (∃ pattern' ∈ check.announced, _))

instance decidableDue (pattern : PatternMatch) :
    (past : List Check) → Decidable (Due threshold pattern past)
  | [] => isTrue trivial
  | _ :: past =>
    have := decidableDue pattern past
    inferInstanceAs (Decidable (_ ∧ (_ ∨ _)))

/-- An event of the type was pushed since the type was last announced. -/
def Caused (patternType : PatternType) : List Check → Prop
  | [] => True
  | check :: past => (∃ event ∈ check.pushed, patternType.Concerns event = true) ∨
      (∀ before ∈ past.head?, ∀ pattern ∈ before.announced, pattern.patternType ≠ patternType) ∧
        Caused patternType past

/-- The last events that tell of a failure. -/
def lastRelevant (windowSize : Nat) (checks : List Check) : List FailureEvent :=
  ((checks.reverse.flatMap Check.pushed).filter isFailureRelevant).rtake windowSize

/-- **A check as it should be**: what is due is announced, and what is announced is caused by an
event of the window and counted there. -/
structure CheckAsClaimed (windowSize : Nat) (check : Check) (past : List Check) : Prop where
  due : ∀ pattern ∈ check.patterns, threshold ≤ pattern.frequency →
    Due threshold pattern past → pattern ∈ check.announced
  caused : ∀ pattern ∈ check.announced, Caused pattern.patternType (check :: past)
  counted : ∀ pattern ∈ check.announced, pattern.frequency =
    (lastRelevant windowSize (check :: past)).countP pattern.Counts

def OncePerEpisode (windowSize : Nat) (checks : List Check) : Prop :=
  ∀ check past, check :: past <:+ checks → CheckAsClaimed threshold windowSize check past

/-! ### Records -/

/-- The pattern is more frequent than any of its signature was at a check before. -/
def IsRecord (past : List Check) (pattern : PatternMatch) : Prop :=
  ∀ check ∈ past, ∀ pattern' ∈ check.patterns, threshold ≤ pattern'.frequency →
    patternSignature pattern' = patternSignature pattern → pattern'.frequency < pattern.frequency

/-- A pattern of the type is at or above the threshold, and a record. -/
def HasRecord (patternType : PatternType) (check : Check) (past : List Check) : Prop :=
  ∃ pattern ∈ check.patterns, pattern.patternType = patternType ∧ threshold ≤ pattern.frequency ∧
    IsRecord threshold past pattern

/-- An event of the type was pushed since the type last had a record. -/
def CausedRecord (patternType : PatternType) : List Check → Prop
  | [] => True
  | [_] => True
  | check :: before :: past => (∃ event ∈ check.pushed, patternType.Concerns event = true) ∨
      ¬ HasRecord threshold patternType before past ∧ CausedRecord patternType (before :: past)

/-- A pattern that comes up to the threshold is a record; and a cluster that is a record has got an
event since its type last had one. -/
structure CheckMeets (check : Check) (past : List Check) : Prop where
  rises : ∀ pattern ∈ check.patterns, threshold ≤ pattern.frequency →
    (∀ before ∈ past.head?, ¬ before.Reaches threshold pattern) → IsRecord threshold past pattern
  grows : ∀ patternType ≠ .repeatedTestFailure, HasRecord threshold patternType check past →
    CausedRecord threshold patternType (check :: past)

end

/-! ### What is detected -/

section

variable {events : List FailureEvent} {pattern pattern' : PatternMatch}

theorem mem_detectFailurePatterns_iff : pattern ∈ detectFailurePatterns events ↔
    pattern ∈ repeatedFailures events ∨ pattern ∈ escalationClusters events ∨
      pattern ∈ conflictClusters events := by
  rw [detectFailurePatterns, List.mem_insertionSort, List.mem_append, List.mem_append, or_assoc]

theorem mem_repeatedFailures_iff : pattern ∈ repeatedFailures events ↔
    ∃ role, 2 ≤ events.countP (fun event => erroredRole event = some role) ∧
      pattern = repeatedFailure role (events.countP fun event => erroredRole event = some role) := by
  simp only [repeatedFailures, List.mem_filterMap, List.mem_dedup, Option.ite_none_right_eq_some,
    Option.some.injEq]
  constructor
  · rintro ⟨role, -, hcount, rfl⟩
    exact ⟨role, hcount, rfl⟩
  · rintro ⟨role, hcount, rfl⟩
    obtain ⟨event, hmem, hrole⟩ := List.countP_pos_iff.mp (Nat.lt_of_lt_of_le Nat.two_pos hcount)
    exact ⟨role, ⟨event, hmem, of_decide_eq_true hrole⟩, hcount, rfl⟩

theorem mem_cluster_iff {patternType : PatternType} {belongs : FailureEvent → Bool}
    {entity : FailureEvent → Option String} {noun : String} :
    pattern ∈ cluster patternType belongs entity noun events ↔ 2 ≤ events.countP belongs ∧
      pattern = ⟨patternType, events.countP belongs,
        sortedEntities ((events.filter belongs).filterMap entity),
        s!"{events.countP belongs} {noun} detected in the current failure window"⟩ := by
  have hlength : (events.filter belongs).length = events.countP belongs :=
    List.countP_eq_length_filter.symm
  simp only [cluster, hlength]
  by_cases htwo : 2 ≤ events.countP belongs <;> simp [htwo]

/-- **What a pattern counts.** -/
theorem frequency_of_mem_detect (h : pattern ∈ detectFailurePatterns events) :
    pattern.frequency = events.countP pattern.Counts ∧ 2 ≤ pattern.frequency := by
  rcases mem_detectFailurePatterns_iff.mp h with h | h | h
  · obtain ⟨role, htwo, rfl⟩ := mem_repeatedFailures_iff.mp h
    refine ⟨List.countP_congr fun event _ => ?_, htwo⟩
    cases hrole : erroredRole event <;> simp [PatternMatch.Counts, repeatedFailure, hrole]
  · obtain ⟨htwo, rfl⟩ := mem_cluster_iff.mp h
    exact ⟨rfl, htwo⟩
  · obtain ⟨htwo, rfl⟩ := mem_cluster_iff.mp h
    exact ⟨rfl, htwo⟩

/-- The signatures of two types differ in their first letters. -/
theorem patternType_of_signature (h : patternSignature pattern = patternSignature pattern') :
    pattern.patternType = pattern'.patternType := by
  have hfirst : ∀ pattern : PatternMatch, (patternSignature pattern).toList.head? =
      pattern.patternType.asStr.toList.head? := by
    intro pattern
    rw [patternSignature, String.toList_append, String.toList_append, List.append_assoc]
    cases pattern.patternType <;> rfl
  have htypes : ∀ patternType patternType' : PatternType,
      patternType.asStr.toList.head? = patternType'.asStr.toList.head? →
        patternType = patternType' := by
    intro patternType patternType'
    cases patternType <;> cases patternType' <;> decide
  refine htypes _ _ ?_
  rw [← hfirst, ← hfirst, h]

theorem signature_repeatedFailure (role : String) (frequency : Nat) :
    patternSignature (repeatedFailure role frequency) = "repeated_test_failure:" ++ role := rfl

/-- The patterns of a type. -/
def ofType (patternType : PatternType) (events : List FailureEvent) : List PatternMatch :=
  match patternType with
  | .repeatedTestFailure => repeatedFailures events
  | .escalationCluster => escalationClusters events
  | .mergeConflictRecurrence => conflictClusters events

theorem mem_ofType (h : pattern ∈ detectFailurePatterns events) :
    pattern ∈ ofType pattern.patternType events := by
  rcases mem_detectFailurePatterns_iff.mp h with h | h | h
  · obtain ⟨role, -, rfl⟩ := mem_repeatedFailures_iff.mp h
    exact h
  · have htype : pattern.patternType = .escalationCluster := by rw [(mem_cluster_iff.mp h).2]
    rw [htype]
    exact h
  · have htype : pattern.patternType = .mergeConflictRecurrence := by rw [(mem_cluster_iff.mp h).2]
    rw [htype]
    exact h

/-- **A signature** tells the patterns of one window apart. -/
theorem eq_of_signature (h : pattern ∈ detectFailurePatterns events)
    (h' : pattern' ∈ detectFailurePatterns events)
    (hsignature : patternSignature pattern = patternSignature pattern') : pattern = pattern' := by
  have hmem := mem_ofType h
  have hmem' := mem_ofType h'
  rw [← patternType_of_signature hsignature] at hmem'
  cases htype : pattern.patternType with
  | repeatedTestFailure =>
    rw [htype] at hmem hmem'
    obtain ⟨role, -, rfl⟩ := mem_repeatedFailures_iff.mp hmem
    obtain ⟨role', -, rfl⟩ := mem_repeatedFailures_iff.mp hmem'
    rw [signature_repeatedFailure, signature_repeatedFailure, String.append_right_inj] at hsignature
    rw [hsignature]
  | escalationCluster | mergeConflictRecurrence =>
    rw [htype] at hmem hmem'
    rw [(mem_cluster_iff.mp hmem).2, (mem_cluster_iff.mp hmem').2]

end

/-! ### What is announced -/

section

variable {memory : Memory} {patterns : List PatternMatch} {pattern : PatternMatch}

theorem memory_announce_iff (memory : Memory) (patterns : List PatternMatch) (signature : String)
    (n : Nat) : ((announce memory patterns).2 signature).getD 0 < n ↔
      (memory signature).getD 0 < n ∧
        ∀ pattern ∈ patterns, patternSignature pattern = signature → pattern.frequency < n := by
  induction patterns generalizing memory with
  | nil => simp [announce]
  | cons first patterns ih =>
    rw [announce, List.forall_mem_cons]
    by_cases hknown : first.frequency ≤ (memory (patternSignature first)).getD 0
    · rw [if_pos hknown, ih]
      refine and_congr_right fun hlt => (and_iff_right fun heq => ?_).symm
      rw [heq] at hknown
      exact Nat.lt_of_le_of_lt hknown hlt
    · rw [if_neg hknown]
      show ((announce (update memory (patternSignature first) (some first.frequency))
        patterns).2 signature).getD 0 < n ↔ _
      rw [ih, ← and_assoc]
      refine and_congr_left fun _ => ?_
      by_cases heq : patternSignature first = signature
      · rw [heq, Function.update_self, Option.getD_some]
        rw [heq] at hknown
        simp only [true_implies]
        omega
      · rw [Function.update_of_ne (Ne.symm heq)]
        simp [heq]

/-- **What is announced** is what is more frequent than what is remembered. -/
theorem mem_announce_iff (hdistinct : ∀ pattern ∈ patterns, ∀ pattern' ∈ patterns,
      patternSignature pattern = patternSignature pattern' → pattern = pattern') :
    pattern ∈ (announce memory patterns).1 ↔
      pattern ∈ patterns ∧ (memory (patternSignature pattern)).getD 0 < pattern.frequency := by
  induction patterns generalizing memory with
  | nil => simp [announce]
  | cons first patterns ih =>
    have hrest : ∀ pattern ∈ patterns, ∀ pattern' ∈ patterns,
        patternSignature pattern = patternSignature pattern' → pattern = pattern' :=
      fun pattern hmem pattern' hmem' => hdistinct pattern (List.mem_cons_of_mem _ hmem) pattern'
        (List.mem_cons_of_mem _ hmem')
    rw [announce]
    by_cases hknown : first.frequency ≤ (memory (patternSignature first)).getD 0
    · rw [if_pos hknown, ih hrest, List.mem_cons, or_and_right]
      refine (or_iff_right ?_).symm
      rintro ⟨rfl, hlt⟩
      exact absurd hlt (Nat.not_lt.mpr hknown)
    · rw [if_neg hknown]
      show pattern ∈ first :: (announce (update memory (patternSignature first)
        (some first.frequency)) patterns).1 ↔ _
      rw [List.mem_cons, ih hrest, List.mem_cons, or_and_right]
      by_cases hfirst : pattern = first
      · subst hfirst
        simp [Nat.lt_of_not_le hknown]
      · simp only [hfirst, false_or, false_and]
        refine and_congr_right fun hmem => ?_
        have hne : patternSignature pattern ≠ patternSignature first := fun heq => hfirst
          (hdistinct pattern (List.mem_cons_of_mem _ hmem) first List.mem_cons_self heq)
        rw [Function.update_of_ne hne]

end

/-! ### Windows -/

section

variable {α : Type} {n : Nat}

theorem rtake_rtake_append (n : Nat) (old new : List α) :
    (old.rtake n ++ new).rtake n = (old ++ new).rtake n := by
  simp only [List.rtake_eq_reverse_take_reverse, List.reverse_append, List.reverse_reverse,
    List.take_append, List.take_take]
  rw [Nat.min_eq_left (Nat.sub_le n _)]

/-- Of what was in the window some may go, and what is new is added. -/
theorem countP_rtake_append_le (p : α → Bool) (n : Nat) (old new : List α) :
    ((old ++ new).rtake n).countP p ≤ (old.rtake n).countP p + new.countP p := by
  have hsub : (old.rtake n ++ new).rtake n <:+ old.rtake n ++ new := List.drop_suffix _ _
  rw [← rtake_rtake_append, ← List.countP_append]
  exact hsub.sublist.countP_le

end

section

variable {threshold windowSize : Nat} {check : Check} {past checks : List Check} {run : Run}

/-- What is in the window, and that the records are announced. -/
structure CheckKept (threshold windowSize : Nat) (check : Check) (past : List Check) : Prop where
  window : check.window = lastRelevant windowSize (check :: past)
  announced : ∀ pattern, pattern ∈ check.announced ↔
    pattern ∈ check.patterns ∧ threshold ≤ pattern.frequency ∧ IsRecord threshold past pattern

def HistoryKept (threshold windowSize : Nat) (checks : List Check) : Prop :=
  ∀ check past, check :: past <:+ checks → CheckKept threshold windowSize check past

theorem HistoryKept.of_suffix (h : HistoryKept threshold windowSize checks)
    (hends : past <:+ checks) : HistoryKept threshold windowSize past :=
  fun check before hbefore => h check before (hbefore.trans hends)

/-- What a run keeps: the window is the end of all that was pushed, and the memory that of all
checks. -/
structure Run.Kept (threshold windowSize : Nat) (run : Run) : Prop where
  size : run.tracker.window.windowSize = windowSize
  window : run.tracker.window.events =
    ((run.checks.reverse.flatMap Check.pushed ++ run.pushed).filter isFailureRelevant).rtake windowSize
  memory : ∀ signature n, (run.tracker.lastNotifications signature).getD 0 < n ↔
    0 < n ∧ ∀ check ∈ run.checks, ∀ pattern ∈ check.patterns, threshold ≤ pattern.frequency →
      patternSignature pattern = signature → pattern.frequency < n
  checks : HistoryKept threshold windowSize run.checks

theorem Run.Kept.push (h : run.Kept threshold windowSize) (event : FailureEvent) :
    Run.Kept threshold windowSize ⟨run.tracker.push event, run.pushed ++ [event], run.checks⟩ := by
  refine ⟨?_, ?_, h.memory, h.checks⟩
  · simp only [FailureTracker.push, FailureWindow.push]
    split <;> exact h.size
  · rw [← List.append_assoc, List.filter_append]
    simp only [FailureTracker.push, FailureWindow.push]
    by_cases hrelevant : isFailureRelevant event = true
    · rw [if_pos hrelevant, List.filter_cons_of_pos hrelevant, List.filter_nil,
        ← rtake_rtake_append, ← h.window, h.size]
      rfl
    · rw [if_neg hrelevant, List.filter_cons_of_neg hrelevant, List.filter_nil, List.append_nil,
        h.window]

/-- A check announces the records, and remembers them. -/
theorem Run.Kept.checked (h : run.Kept threshold windowSize) :
    Run.Kept threshold windowSize ⟨(run.tracker.announced threshold).2, [],
      ⟨run.pushed, run.tracker.window.events, (run.tracker.announced threshold).1⟩ :: run.checks⟩ := by
  let frequent := (detectFailurePatterns run.tracker.window.events).filter fun pattern =>
    threshold ≤ pattern.frequency
  have hfrequent : ∀ pattern, pattern ∈ frequent ↔
      pattern ∈ detectFailurePatterns run.tracker.window.events ∧ threshold ≤ pattern.frequency := by
    intro pattern
    rw [List.mem_filter, decide_eq_true_eq]
  have hdistinct : ∀ pattern ∈ frequent, ∀ pattern' ∈ frequent,
      patternSignature pattern = patternSignature pattern' → pattern = pattern' :=
    fun pattern hmem pattern' hmem' =>
      eq_of_signature ((hfrequent pattern).mp hmem).1 ((hfrequent pattern').mp hmem').1
  refine ⟨h.size, ?_, fun signature n => ?_, fun check past hends => ?_⟩
  · show run.tracker.window.events = _
    rw [h.window, List.reverse_cons, List.flatMap_append, List.append_nil]
    simp
  · show ((announce run.tracker.lastNotifications frequent).2 signature).getD 0 < n ↔ _
    rw [memory_announce_iff, h.memory, List.forall_mem_cons, and_assoc]
    refine and_congr_right fun _ => and_comm.trans (and_congr_left' ?_)
    simp only [hfrequent, and_imp]
    rfl
  · rcases List.suffix_cons_iff.mp hends with heq | hends
    · obtain ⟨rfl, rfl⟩ := List.cons.inj heq
      refine ⟨?_, fun pattern => ?_⟩
      · show run.tracker.window.events = _
        rw [h.window, lastRelevant, List.reverse_cons, List.flatMap_append]
        simp
      · show pattern ∈ (announce run.tracker.lastNotifications frequent).1 ↔ _
        rw [mem_announce_iff hdistinct, hfrequent, h.memory, and_assoc]
        refine and_congr_right fun hmem => and_congr_right fun _ => ?_
        have hpos : 0 < pattern.frequency :=
          Nat.lt_of_lt_of_le Nat.two_pos (frequency_of_mem_detect hmem).2
        exact and_iff_right hpos
    · exact h.checks check past hends

theorem kept_run {notificationThreshold severityThreshold : Nat} {ops : List Op}
    (h : run.Kept (normalizedThresholds notificationThreshold severityThreshold).1 windowSize) :
    (ops.foldl (Run.step notificationThreshold severityThreshold) run).Kept
      (normalizedThresholds notificationThreshold severityThreshold).1 windowSize := by
  induction ops generalizing run with
  | nil => exact h
  | cons op ops ih =>
    cases op with
    | push event => exact ih (h.push event)
    | check => exact ih h.checked

theorem kept_start (threshold windowSize : Nat) :
    (Run.start windowSize).Kept threshold (FailureWindow.new windowSize).windowSize := by
  refine ⟨rfl, by simp [Run.start, FailureTracker.new, FailureWindow.new], fun signature n => ?_,
    fun check past hends => ?_⟩
  · simp [Run.start, FailureTracker.new]
  · exact absurd (List.suffix_nil.mp hends) (List.cons_ne_nil _ _)

/-! ### Episodes -/

theorem CheckKept.reaches_of_announces (h : CheckKept threshold windowSize check past)
    {pattern : PatternMatch} (hannounces : check.Announces pattern) :
    check.Reaches threshold pattern := by
  obtain ⟨pattern', hmem, hsame⟩ := hannounces
  obtain ⟨hpattern, hthreshold, -⟩ := (h.announced pattern').mp hmem
  exact ⟨pattern', hpattern, hsame, hthreshold⟩

/-- A pattern that was below the threshold at the last check is due. -/
theorem due_of_below (h : HistoryKept threshold windowSize checks) {pattern : PatternMatch}
    (hbelow : ∀ before ∈ checks.head?, ¬ before.Reaches threshold pattern) :
    Due threshold pattern checks := by
  cases checks with
  | nil => trivial
  | cons check past =>
    have hnot : ¬ check.Reaches threshold pattern := hbelow check rfl
    have hkept := h check past (List.suffix_refl _)
    exact ⟨fun hannounces => hnot (hkept.reaches_of_announces hannounces), .inl hnot⟩

/-- Where every pattern that comes up is announced, none is due later. -/
theorem below_of_due (h : HistoryKept threshold windowSize checks)
    (hmeets : ∀ check past, check :: past <:+ checks → CheckMeets threshold check past)
    {pattern : PatternMatch} (hdue : Due threshold pattern checks) :
    ∀ before ∈ checks.head?, ¬ before.Reaches threshold pattern := by
  induction checks with
  | nil => exact fun _ h => nomatch h
  | cons check past ih =>
    rintro before ⟨⟩ ⟨pattern', hmem, hsame, hthreshold⟩
    obtain ⟨hsilent, hrest⟩ := hdue
    have hpast : past <:+ check :: past := List.suffix_cons _ _
    have hdue' : Due threshold pattern past :=
      hrest.resolve_left fun hbelow => hbelow ⟨pattern', hmem, hsame, hthreshold⟩
    have hbelow := ih (h.of_suffix hpast)
      (fun check' past' hends => hmeets check' past' (hends.trans hpast)) hdue'
    have hrecord : IsRecord threshold past pattern' := by
      refine (hmeets check past (List.suffix_refl _)).rises pattern' hmem hthreshold ?_
      rintro before hbefore ⟨other, hother, hsame', hother'⟩
      exact hbelow before hbefore ⟨other, hother,
        ⟨hsame'.1.trans hsame.1, hsame'.2.trans hsame.2⟩, hother'⟩
    exact hsilent ⟨pattern', ((h check past (List.suffix_refl _)).announced pattern').mpr
      ⟨hmem, hthreshold, hrecord⟩, hsame⟩

/-- What is announced is what has a record. -/
theorem CheckKept.announced_iff_hasRecord (h : CheckKept threshold windowSize check past)
    (patternType : PatternType) :
    (∀ pattern ∈ check.announced, pattern.patternType ≠ patternType) ↔
      ¬ HasRecord threshold patternType check past := by
  constructor
  · rintro hnone ⟨pattern, hmem, htype, hthreshold, hrecord⟩
    exact hnone pattern ((h.announced pattern).mpr ⟨hmem, hthreshold, hrecord⟩) htype
  · intro hnone pattern hmem htype
    obtain ⟨hpattern, hthreshold, hrecord⟩ := (h.announced pattern).mp hmem
    exact hnone ⟨pattern, hpattern, htype, hthreshold, hrecord⟩

theorem caused_iff (patternType : PatternType) (h : HistoryKept threshold windowSize checks) :
    Caused patternType checks ↔ CausedRecord threshold patternType checks := by
  induction checks with
  | nil => rfl
  | cons check past ih =>
    cases past with
    | nil => exact iff_of_true (.inr ⟨fun _ h => (nomatch h), trivial⟩) trivial
    | cons before past =>
      have hpast : before :: past <:+ check :: before :: past := List.suffix_cons _ _
      have hbefore := (h before past hpast).announced_iff_hasRecord patternType
      rw [Caused, CausedRecord, ih (h.of_suffix hpast), ← hbefore]
      simp

/-- Without an error of its own a role is not counted more often than at the check before. -/
theorem countP_window_le {before : Check}
    (h : HistoryKept threshold windowSize (check :: before :: past))
    {p : FailureEvent → Bool} (hnone : ∀ event ∈ check.pushed, p event = false) :
    check.window.countP p ≤ before.window.countP p := by
  have hwindow := (h check (before :: past) (List.suffix_refl _)).window
  have hbefore := (h before past (List.suffix_cons _ _)).window
  have hzero : (check.pushed.filter isFailureRelevant).countP p = 0 := by
    refine List.countP_eq_zero.mpr fun event hmem => ?_
    rw [hnone event (List.mem_of_mem_filter hmem)]
    exact Bool.false_ne_true
  have hle := countP_rtake_append_le p windowSize
    (((before :: past).reverse.flatMap Check.pushed).filter isFailureRelevant)
    (check.pushed.filter isFailureRelevant)
  rw [hzero, Nat.add_zero, ← List.filter_append] at hle
  have hpushed : ((check :: before :: past).reverse.flatMap Check.pushed) =
      (before :: past).reverse.flatMap Check.pushed ++ check.pushed := by
    rw [List.reverse_cons, List.flatMap_append]
    simp
  rw [hwindow, hbefore, lastRelevant, lastRelevant, hpushed]
  exact hle

/-- **Errors of a role**: it is announced again only if it had another one. -/
theorem caused_of_repeated (h : HistoryKept threshold windowSize (check :: past))
    {pattern : PatternMatch} (hmem : pattern ∈ check.announced)
    (htype : pattern.patternType = .repeatedTestFailure) :
    Caused .repeatedTestFailure (check :: past) := by
  by_contra hcaused
  cases past with
  | nil => exact hcaused (.inr ⟨fun _ h => (nomatch h), trivial⟩)
  | cons before past =>
    obtain ⟨hpattern, hthreshold, hrecord⟩ :=
      ((h check _ (List.suffix_refl _)).announced pattern).mp hmem
    have hofType := mem_ofType hpattern
    rw [htype] at hofType
    obtain ⟨role, htwo, rfl⟩ := mem_repeatedFailures_iff.mp hofType
    have hnone : ∀ event ∈ check.pushed, decide (erroredRole event = some role) = false := by
      intro event hevent
      refine decide_eq_false fun hrole => hcaused (.inl ⟨event, hevent, ?_⟩)
      rw [PatternType.Concerns, hrole]
      rfl
    -- At the check before, the role had as many errors.
    have hle := countP_window_le h hnone
    have hbefore : repeatedFailure role
        (before.window.countP fun event => erroredRole event = some role) ∈ before.patterns :=
      mem_detectFailurePatterns_iff.mpr
        (.inl (mem_repeatedFailures_iff.mpr ⟨role, htwo.trans hle, rfl⟩))
    have hlt := hrecord before List.mem_cons_self _ hbefore (hthreshold.trans hle) rfl
    exact absurd hlt (Nat.not_lt.mpr hle)

theorem oncePerEpisode_iff_of_kept (h : HistoryKept threshold windowSize checks) :
    OncePerEpisode threshold windowSize checks ↔
      ∀ check past, check :: past <:+ checks → CheckMeets threshold check past := by
  constructor
  · intro hclaimed check past hends
    have hkept := h check past hends
    have hpast : past <:+ checks := (List.suffix_cons _ _).trans hends
    refine ⟨fun pattern hmem hthreshold hbelow => ?_, fun patternType _ hrecord => ?_⟩
    · have hannounced := (hclaimed check past hends).due pattern hmem hthreshold
        (due_of_below (h.of_suffix hpast) hbelow)
      exact ((hkept.announced pattern).mp hannounced).2.2
    · obtain ⟨pattern, hmem, rfl, hthreshold, hrecord⟩ := hrecord
      rw [← caused_iff _ (h.of_suffix hends)]
      exact (hclaimed check past hends).caused pattern
        ((hkept.announced pattern).mpr ⟨hmem, hthreshold, hrecord⟩)
  · intro hmeets check past hends
    have hkept := h check past hends
    have hpast : past <:+ checks := (List.suffix_cons _ _).trans hends
    refine ⟨fun pattern hmem hthreshold hdue => ?_, fun pattern hmem => ?_, fun pattern hmem => ?_⟩
    · have hbelow := below_of_due (h.of_suffix hpast)
        (fun check' past' hends' => hmeets check' past' (hends'.trans hpast)) hdue
      exact (hkept.announced pattern).mpr
        ⟨hmem, hthreshold, (hmeets check past hends).rises pattern hmem hthreshold hbelow⟩
    · obtain ⟨hpattern, hthreshold, hrecord⟩ := (hkept.announced pattern).mp hmem
      by_cases htype : pattern.patternType = .repeatedTestFailure
      · rw [htype]
        exact caused_of_repeated (h.of_suffix hends) hmem htype
      · rw [caused_iff _ (h.of_suffix hends)]
        exact (hmeets check past hends).grows _ htype
          ⟨pattern, hpattern, rfl, hthreshold, hrecord⟩
    · rw [(frequency_of_mem_detect ((hkept.announced pattern).mp hmem).1).1, ← hkept.window]

end

/-- **Once per episode** the patterns are announced if and only if each one that comes up to the
threshold is more frequent than ever before, and no cluster becomes a record by losing events. -/
theorem oncePerEpisode_iff (windowSize notificationThreshold severityThreshold : Nat)
    (ops : List Op) :
    OncePerEpisode (normalizedThresholds notificationThreshold severityThreshold).1
        (FailureWindow.new windowSize).windowSize
        (checksOf windowSize notificationThreshold severityThreshold ops) ↔
      ∀ check past,
        check :: past <:+ checksOf windowSize notificationThreshold severityThreshold ops →
          CheckMeets (normalizedThresholds notificationThreshold severityThreshold).1 check past :=
  oncePerEpisode_iff_of_kept (kept_run (kept_start _ windowSize)).checks

/-- An engineer fails three times, then three others once each, then the first one again. -/
def recurring : List Op :=
  let failed (role : String) : Op := .push ⟨"task_error", some role, some "7", some "exit 1", 0⟩
  let burst : List Op := [failed "eng-1", failed "eng-1", failed "eng-1", .check]
  burst ++ [failed "eng-2", failed "eng-3", failed "eng-4", .check] ++ burst

/-- The errors had gone, and are not announced when they come back. -/
theorem not_oncePerEpisode : ¬ ∀ windowSize notificationThreshold severityThreshold ops,
    OncePerEpisode (normalizedThresholds notificationThreshold severityThreshold).1
      (FailureWindow.new windowSize).windowSize
      (checksOf windowSize notificationThreshold severityThreshold ops) := by
  intro h
  have hsilent : ¬ ∀ check ∈ (checksOf 3 3 5 recurring).head?, ∀ pattern ∈ check.patterns,
      3 ≤ pattern.frequency → Due 3 pattern (checksOf 3 3 5 recurring).tail →
        pattern ∈ check.announced := by
    decide +kernel
  refine hsilent fun check hcheck => ?_
  have hends : check :: (checksOf 3 3 5 recurring).tail <:+ checksOf 3 3 5 recurring :=
    ⟨[], List.cons_head?_tail hcheck⟩
  exact (h 3 3 5 recurring check _ hends).due

end FailurePatterns

end Batty
