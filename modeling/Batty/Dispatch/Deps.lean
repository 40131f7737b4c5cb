import Batty.Dispatch.Termination
import Batty.Foundation.Cycles

/-!
# Cycles of dependencies

A task waits for the tasks that it depends on, and tasks on a cycle of dependencies wait for each
other. Before the dependencies of a board are shown, they are searched for a cycle; and before
overlapping tasks are made to wait, `splitAcyclicBlockingIds` leaves out the dependencies that would
close one.

* `detectCycleForTasks_none_iff`: a cycle is found if there is one, and what is found is one.
* `splitAcyclicBlockingIds_partitions`: all that is kept can be written at once, and each id that is
  left out would close a cycle by itself.
-/

namespace Batty

/-! ### The graph of a board -/

/-- A task lists the id among its dependencies. -/
def Lists (tasks : List Task) (id depId : Nat) : Prop :=
  ∃ task ∈ tasks, task.id = id ∧ depId ∈ task.dependsOn

/-- Dependencies on the tasks that there are. -/
def ListsTask (tasks : List Task) (id depId : Nat) : Prop :=
  Lists tasks id depId ∧ ∃ task ∈ tasks, task.id = depId

/-- The cycle that a search from all ids in ascending order comes to first. -/
def detectCycleForTasks (tasks : List Task) : Option (List Nat) :=
  match (dependencyGraph tasks).findCycle [] [] (sortedIds (tasks.map Task.id)) with
  | .error cycle => some cycle
  | .ok _ => none

section

variable {tasks : List Task} (hids : (tasks.map Task.id).Nodup)

theorem isSome_neighbors?_dependencyGraph {id : Nat} :
    ((dependencyGraph tasks).neighbors? id).isSome ↔ ∃ task ∈ tasks, task.id = id := by
  simp [Graph.neighbors?, dependencyGraph]

include hids

theorem neighbors?_dependencyGraph {id : Nat} {depIds : List Nat} :
    (dependencyGraph tasks).neighbors? id = some depIds ↔
      ∃ task ∈ tasks, task.id = id ∧ task.dependsOn = depIds := by
  constructor
  · intro h
    obtain ⟨⟨id', depIds'⟩, hfind, rfl⟩ := Option.map_eq_some_iff.mp h
    have hmem := List.mem_reverse.mp (List.mem_of_find?_eq_some hfind)
    obtain rfl : id' = id := by simpa using List.find?_some hfind
    obtain ⟨task, htask, heq⟩ := List.mem_map.mp hmem
    obtain ⟨hid, hdeps⟩ := Prod.mk.inj heq
    exact ⟨task, htask, hid, hdeps⟩
  · rintro ⟨task, htask, rfl, rfl⟩
    have hsome : ((dependencyGraph tasks).neighbors? task.id).isSome :=
      isSome_neighbors?_dependencyGraph.mpr ⟨task, htask, rfl⟩
    obtain ⟨depIds, h⟩ := Option.isSome_iff_exists.mp hsome
    obtain ⟨⟨id', depIds'⟩, hfind, rfl⟩ := Option.map_eq_some_iff.mp h
    have hmem := List.mem_reverse.mp (List.mem_of_find?_eq_some hfind)
    obtain rfl : id' = task.id := by simpa using List.find?_some hfind
    obtain ⟨other, hother, heq⟩ := List.mem_map.mp hmem
    obtain ⟨hid, rfl⟩ := Prod.mk.inj heq
    rw [h, List.inj_on_of_nodup_map hids hother htask hid]

theorem edge_dependencyGraph {id depId : Nat} :
    (dependencyGraph tasks).Edge id depId ↔ Lists tasks id depId := by
  constructor
  · rintro ⟨depIds, hdeps, hmem⟩
    obtain ⟨task, htask, hid, rfl⟩ := (neighbors?_dependencyGraph hids).mp hdeps
    exact ⟨task, htask, hid, hmem⟩
  · rintro ⟨task, htask, hid, hmem⟩
    exact ⟨_, (neighbors?_dependencyGraph hids).mpr ⟨task, htask, hid, rfl⟩, hmem⟩

theorem links_dependencyGraph {id depId : Nat} :
    (dependencyGraph tasks).Links id depId ↔ ListsTask tasks id depId :=
  and_congr (edge_dependencyGraph hids) isSome_neighbors?_dependencyGraph

end

/-! ### Finding a cycle -/

/-- **Cycles.** None is found exactly if there is none, and what is found goes along dependencies
from a task back to it, and past no other task twice. -/
theorem detectCycleForTasks_none_iff (tasks : List Task) (hids : (tasks.map Task.id).Nodup) :
    (detectCycleForTasks tasks = none ↔ ∀ walk, ¬ ClosedWalk (ListsTask tasks) walk) ∧
      ∀ cycle ∈ detectCycleForTasks tasks,
        ClosedWalk (ListsTask tasks) cycle ∧ cycle.dropLast.Nodup := by
  have hlinks : (dependencyGraph tasks).Links = ListsTask tasks := by
    funext id depId
    exact propext (links_dependencyGraph hids)
  -- The search starts with an empty path, so its invariant holds for nothing.
  have hfound : ∀ cycle ∈ detectCycleForTasks tasks,
      ClosedWalk (ListsTask tasks) cycle ∧ cycle.dropLast.Nodup := by
    intro cycle hcycle
    rw [detectCycleForTasks] at hcycle
    split at hcycle
    · rename_i found herror
      obtain rfl := Option.some.inj hcycle
      rw [← hlinks]
      exact Graph.closedWalk_of_findCycle herror List.nodup_nil List.isChain_nil nofun
    · cases hcycle
  refine ⟨⟨fun hnone walk hwalk => ?_, fun hacyclic => ?_⟩, hfound⟩
  · rw [detectCycleForTasks] at hnone
    split at hnone
    · cases hnone
    · rename_i visited hok
      obtain ⟨-, hends⟩ := Graph.ends_of_findCycle hok nofun
      obtain ⟨node, walk, rfl⟩ := List.exists_cons_of_ne_nil hwalk.ne_nil
      rw [← hlinks] at hwalk
      -- a walk starts at a task, and from every task the search has started or passed
      obtain ⟨next, hedge, -⟩ := Relation.TransGen.head'_iff.mp hwalk.transGen
      obtain ⟨depIds, hdeps, -⟩ := hedge.1
      obtain ⟨task, htask, rfl, -⟩ := (neighbors?_dependencyGraph hids).mp hdeps
      refine hwalk.not_acc (hends task.id ?_ (by rw [hdeps]; rfl))
      exact mem_sortedIds.mpr (List.mem_map_of_mem htask)
  · by_contra hsome
    obtain ⟨cycle, hcycle⟩ := Option.ne_none_iff_exists'.mp hsome
    exact hacyclic cycle (hfound cycle hcycle).1

/-- A task with these dependencies, and nothing else of interest. -/
def taskDependingOn (id : Nat) (dependsOn : List Nat) : Task where
  id
  title := s!"Task {id}"
  status := "todo"
  priority := "medium"
  assignee := none
  claimedBy := none
  claimedAt := none
  blocked := none
  tags := []
  dependsOn
  reviewOwner := none
  blockedOn := none
  worktreePath := none
  branch := none
  scheduledFor := none
  description := ""
  sourcePath := s!"{id}.md"

/-- The second and the third task wait for each other; there is no task with the id 9. -/
def waitingTasks : List Task :=
  [taskDependingOn 1 [2], taskDependingOn 2 [9, 3], taskDependingOn 3 [2]]

/-- Two tasks that wait for each other. -/
theorem detectCycleForTasks_waiting : ∃ cycle, detectCycleForTasks waitingTasks = some cycle ∧
    ClosedWalk (ListsTask waitingTasks) cycle ∧ cycle.dropLast.Nodup := by
  obtain ⟨hnone, hfound⟩ := detectCycleForTasks_none_iff waitingTasks (by decide)
  have hwalk : ClosedWalk (ListsTask waitingTasks) [2, 3, 2] := by
    refine ⟨by decide, rfl, ?_⟩
    simp [ListsTask, Lists, waitingTasks, taskDependingOn]
  obtain ⟨cycle, hcycle⟩ := Option.ne_none_iff_exists'.mp fun h => hnone.mp h _ hwalk
  exact ⟨cycle, hcycle, hfound cycle hcycle⟩

/-! ### Dependencies that close none -/

/-- The dependencies with those of one task added to. -/
def ListsOrAdds (tasks : List Task) (candidateId : Nat) (ids : List Nat) (id depId : Nat) : Prop :=
  Lists tasks id depId ∨ id = candidateId ∧ depId ∈ ids

/-- **Splitting.** All that is kept can be added at once and no cycle is closed; what is left out
would each close one by itself; and nothing is lost or changes its place. -/
theorem splitAcyclicBlockingIds_partitions (tasks : List Task) (hids : (tasks.map Task.id).Nodup)
    (candidateId : Nat) (blockingTaskIds : List Nat) :
    let (safe, rejected) := splitAcyclicBlockingIds tasks candidateId blockingTaskIds
    (∀ walk, ClosedWalk (ListsOrAdds tasks candidateId safe) walk →
        ClosedWalk (Lists tasks) walk) ∧
      (∀ id ∈ rejected, ∃ walk,
        ClosedWalk (ListsOrAdds tasks candidateId [id]) (candidateId :: id :: walk)) ∧
      ∃ isSafe : Nat → Bool, safe = blockingTaskIds.filter isSafe ∧
        rejected = blockingTaskIds.filter fun id => !isSafe id := by
  have hedge : (dependencyGraph tasks).Edge = Lists tasks := by
    funext id depId
    exact propext (edge_dependencyGraph hids)
  have hsearches : ∀ {id}, (dependencyGraph tasks).searches candidateId id = true ↔
      Relation.ReflTransGen (Lists tasks) id candidateId := by
    intro id
    rw [Graph.searches_iff, hedge]
  rw [splitAcyclicBlockingIds, List.partition_eq_filter_filter]
  refine ⟨fun walk hwalk => ?_, fun id hid => ?_, _, rfl, rfl⟩
  · refine hwalk.of_adds (fun _ _ h => h) fun id hid hback => ?_
    -- A way back from what is kept would have been found.
    have hsafe := (List.mem_filter.mp hid).2
    rw [hsearches.mpr hback] at hsafe
    cases hsafe
  · have hback : Relation.ReflTransGen (Lists tasks) id candidateId := by
      have hrejected := (List.mem_filter.mp hid).2
      simp only [Function.comp_apply, Bool.not_not] at hrejected
      exact hsearches.mp hrejected
    have hkept : Lists tasks ≤ ListsOrAdds tasks candidateId [id] := fun _ _ => Or.inl
    refine exists_closedWalk_of_reflTransGen (.inr ⟨rfl, List.mem_singleton_self id⟩) ?_
    exact Relation.ReflTransGen.mono hkept _ _ hback

/-- The first task may wait for the second, but the third may not wait for itself. -/
theorem splitAcyclicBlockingIds_waiting :
    let (safe, rejected) := splitAcyclicBlockingIds waitingTasks 3 [1, 2, 3]
    (∀ walk, ClosedWalk (ListsOrAdds waitingTasks 3 safe) walk →
        ClosedWalk (Lists waitingTasks) walk) ∧
      (∀ id ∈ rejected, ∃ walk, ClosedWalk (ListsOrAdds waitingTasks 3 [id]) (3 :: id :: walk)) ∧
      ∃ isSafe : Nat → Bool, safe = [1, 2, 3].filter isSafe ∧
        rejected = [1, 2, 3].filter fun id => !isSafe id :=
  splitAcyclicBlockingIds_partitions waitingTasks (by decide) 3 [1, 2, 3]

end Batty
