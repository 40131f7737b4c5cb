import Batty.Board.Mutators
import Batty.Foundation.Search

/-!
# Overlapping work

Two tasks overlap when the files they are predicted to touch do; a predicted path may be a glob.
A candidate that overlaps with tasks under way is made to depend on them, except on those that
depend on the candidate already: `splitAcyclicBlockingIds` keeps the dependencies free of cycles
(`mem_splitAcyclicBlockingIds`).
-/

namespace Batty

/-! ### Globs -/

/-- A token of a glob. -/
inductive GlobToken where
  | char (c : Char)
  | oneOf      -- `?`
  | segment    -- `*`
  | anything   -- `**`
  | directories -- `**/`

def hasGlobMagic (path : List Char) : Bool := path.contains '*' || path.contains '?'

def globTokens : List Char → List GlobToken
  | '*' :: '*' :: '/' :: rest => .directories :: globTokens rest
  | '*' :: '*' :: rest => .anything :: globTokens rest
  | '*' :: rest => .segment :: globTokens rest
  | '?' :: rest => .oneOf :: globTokens rest
  | c :: rest => .char c :: globTokens rest
  | [] => []

/-- Skip characters that satisfy `p`, as many as it takes for the rest to match. -/
def skipping (p : Char → Bool) (rest : List Char → Bool) : List Char → Bool
  | [] => rest []
  | c :: path => rest (c :: path) || (p c && skipping p rest path)

/-- The dot of a regular expression stands for anything but a line feed. -/
def tokensMatch : List GlobToken → List Char → Bool
  | [], path => path.isEmpty
  | .char c :: tokens, path =>
    match path with
    | [] => false
    | c' :: path => c' = c && tokensMatch tokens path
  | .oneOf :: tokens, path =>
    match path with
    | [] => false
    | c :: path => c ≠ '/' && tokensMatch tokens path
  | .segment :: tokens, path => skipping (· ≠ '/') (tokensMatch tokens) path
  | .anything :: tokens, path => skipping (· ≠ '\n') (tokensMatch tokens) path
  | .directories :: tokens, path =>
    tokensMatch tokens path || skipping (· ≠ '\n') (fun
      | '/' :: path => tokensMatch tokens path
      | _ => false) path

def globMatchesPath (pattern path : List Char) : Bool :=
  if hasGlobMagic pattern then tokensMatch (globTokens pattern) path else pattern = path

def globLiteralPrefix (pattern : List Char) : Option (List Char) :=
  let literal := Text.trimEndMatches (· = '/') (pattern.takeWhile fun c => c ≠ '*' && c ≠ '?')
  if literal.isEmpty then none else some literal

/-- Two globs overlap unless what comes before their first wildcards tells them apart. -/
def globsOverlap (left right : List Char) : Bool :=
  left = right ||
    match globLiteralPrefix left, globLiteralPrefix right with
    | some left, some right => right.isPrefixOf left || left.isPrefixOf right
    | _, _ => true

def pathsOverlap (left right : List Char) : Bool :=
  match hasGlobMagic left, hasGlobMagic right with
  | false, false => left = right
  | true, false => globMatchesPath left right
  | false, true => globMatchesPath right left
  | true, true => globsOverlap left right

def describeOverlap (left right : String) : String :=
  match hasGlobMagic left.toList, hasGlobMagic right.toList with
  | false, _ => left
  | true, false => right
  | true, true => if left = right then left else s!"{left} <> {right}"

/-! ### Conflicts -/

/-- A task in progress whose files meet those of a new one. -/
structure OverlapConflict where
  taskId : String
  conflictingFiles : List String
  inProgressEngineer : String
deriving DecidableEq

def overlappingFiles (candidatePaths activePaths : List String) : List String :=
  let overlaps := candidatePaths.flatMap fun candidate =>
    (activePaths.filter fun active => pathsOverlap candidate.toList active.toList).map
      (describeOverlap candidate)
  (overlaps.insertionSort (· ≤ ·)).dedup

/-- The conflict of the candidate with one task, if the two overlap. -/
def overlapConflict (predictedFiles : Task → List String) (candidate active : Task) :
    Option OverlapConflict :=
  let conflictingFiles := overlappingFiles (predictedFiles candidate) (predictedFiles active)
  if active.id = candidate.id || conflictingFiles.isEmpty then none
  else some {
    taskId := toString active.id
    conflictingFiles
    inProgressEngineer := active.claimedBy.getD "unknown" }

def findOverlappingTasks (predictedFiles : Task → List String) (candidate : Task)
    (inProgress : List Task) : List OverlapConflict :=
  (inProgress.filterMap (overlapConflict predictedFiles candidate)).insertionSort
    fun conflict conflict' => conflict.taskId ≤ conflict'.taskId

def blockingTaskIds (conflicts : List OverlapConflict) : List Nat :=
  sortedIds (conflicts.filterMap fun conflict => Text.parseU32 conflict.taskId.toList)

/-- The dependencies on the board as a graph. -/
def dependencyGraph (tasks : List Task) : Graph Nat :=
  tasks.map fun task => (task.id, task.dependsOn)

/-- The ids that the candidate can be made to depend on without closing a cycle, and the rest. -/
def splitAcyclicBlockingIds (tasks : List Task) (candidateId : Nat) (blockingTaskIds : List Nat) :
    List Nat × List Nat :=
  blockingTaskIds.partition fun id => !(dependencyGraph tasks).searches candidateId id

/-! ### What they find -/

/-- `taskId` depends on `depId`, through however many tasks. -/
def DependsOn (tasks : List Task) (taskId depId : Nat) : Prop :=
  Relation.ReflTransGen (dependencyGraph tasks).Edge taskId depId

theorem mem_splitAcyclicBlockingIds {tasks : List Task} {candidateId id : Nat} {ids : List Nat} :
    id ∈ (splitAcyclicBlockingIds tasks candidateId ids).1 ↔
      id ∈ ids ∧ ¬ DependsOn tasks id candidateId := by
  rw [splitAcyclicBlockingIds, List.partition_eq_filter_filter, List.mem_filter, DependsOn,
    ← Graph.searches_iff, Bool.not_eq_true', Bool.not_eq_true]

theorem lt_of_mem_blockingTaskIds {conflicts : List OverlapConflict} {id : Nat}
    (h : id ∈ blockingTaskIds conflicts) : id < 2 ^ 32 := by
  rw [blockingTaskIds, mem_sortedIds, List.mem_filterMap] at h
  obtain ⟨conflict, -, hparse⟩ := h
  exact Text.lt_of_parseU32 hparse

end Batty
