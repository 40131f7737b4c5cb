import Mathlib.Data.List.Basic
import Mathlib.Logic.Relation

/-!
# Depth-first search

A search for a target through a graph that is given by the out-neighbours of finitely many nodes;
a node that is not listed has none. The search keeps a stack of nodes to look at and the list of
nodes it has seen.

**Correctness.** `Graph.searches` answers whether the target can be reached
(`Graph.searches_iff`). The invariant is `Graph.Explored`: the target is not next to a node that
was seen, and what is next to such a node was seen or waits on the stack. When the stack is
empty the nodes seen are closed under the edges, so that the target is out of reach.
-/

namespace Batty

/-- The out-neighbours of the listed nodes. -/
abbrev Graph (α : Type) := List (α × List α)

namespace Graph

variable {α : Type} [DecidableEq α] {graph : Graph α} {target node : α}
  {visited stack : List α}

/-- The last entry for a node counts. -/
def neighbors? (graph : Graph α) (node : α) : Option (List α) :=
  (graph.reverse.find? fun entry => entry.1 = node).map Prod.snd

/-- There is an edge from the node to its neighbour. -/
def Edge (graph : Graph α) (node next : α) : Prop :=
  ∃ neighbors, graph.neighbors? node = some neighbors ∧ next ∈ neighbors

/-- The number of entries whose node has not been seen. -/
def unseen (graph : Graph α) (visited : List α) : Nat :=
  (graph.filter fun entry => entry.1 ∉ visited).length

theorem unseen_cons_le (graph : Graph α) (node : α) (visited : List α) :
    graph.unseen (node :: visited) ≤ graph.unseen visited := by
  refine List.Sublist.length_le (List.monotone_filter_right graph fun entry h => ?_)
  simp only [List.mem_cons, not_or, decide_eq_true_eq] at h ⊢
  exact h.2

theorem unseen_cons_lt {neighbors : List α} (hnode : graph.neighbors? node = some neighbors)
    (hnew : node ∉ visited) : graph.unseen (node :: visited) < graph.unseen visited := by
  obtain ⟨entry, hfind, -⟩ := Option.map_eq_some_iff.mp hnode
  have hmem := List.mem_reverse.mp (List.mem_of_find?_eq_some hfind)
  obtain rfl : entry.1 = node := by simpa using List.find?_some hfind
  have hfilter : (graph.filter fun other => other.1 ∉ entry.1 :: visited) =
      (graph.filter fun other => other.1 ∉ visited).filter fun other => other.1 ≠ entry.1 := by
    rw [List.filter_filter]
    refine List.filter_congr fun other _ => ?_
    simp only [List.mem_cons, not_or, Bool.decide_and, ne_eq]
  rw [unseen, unseen, hfilter]
  refine List.length_filter_lt_length_iff_exists.mpr ⟨entry, ?_, by simp⟩
  exact List.mem_filter.mpr ⟨hmem, by simpa using hnew⟩

/-- The search, from the nodes on the stack. -/
def search (graph : Graph α) (target : α) (visited : List α) : List α → Bool
  | [] => false
  | node :: stack =>
    if node ∈ visited then graph.search target visited stack
    else
      match _hlisted : graph.neighbors? node with
      | none => graph.search target (node :: visited) stack
      | some neighbors =>
        if target ∈ neighbors then true
        else graph.search target (node :: visited)
          ((neighbors.filter fun next => next ∉ node :: visited).reverse ++ stack)
termination_by stack => (graph.unseen visited, stack.length)
decreasing_by
  · exact Prod.Lex.right _ (by simp)
  · rcases Nat.lt_or_eq_of_le (graph.unseen_cons_le node visited) with hlt | heq
    · exact Prod.Lex.left _ _ hlt
    · rw [heq]
      exact Prod.Lex.right _ (by simp)
  · exact Prod.Lex.left _ _ (unseen_cons_lt _hlisted ‹_›)

/-- Whether the target can be reached from the node. -/
def searches (graph : Graph α) (target node : α) : Bool :=
  node = target || graph.search target [] [node]

/-- The invariant of the search. -/
def Explored (graph : Graph α) (target : α) (visited stack : List α) : Prop :=
  ∀ node ∈ visited, ∀ next, graph.Edge node next →
    next ≠ target ∧ (next ∈ visited ∨ next ∈ stack)

/-- **The search is sound.** -/
theorem exists_of_search (h : graph.search target visited stack = true) :
    ∃ node ∈ stack, Relation.TransGen graph.Edge node target := by
  fun_induction search graph target visited stack with
  | case1 => cases h
  | case2 visited node stack hseen ih =>
    obtain ⟨start, hmem, hpath⟩ := ih h
    exact ⟨start, List.mem_cons_of_mem _ hmem, hpath⟩
  | case3 visited node stack hnew hnone ih =>
    obtain ⟨start, hmem, hpath⟩ := ih h
    exact ⟨start, List.mem_cons_of_mem _ hmem, hpath⟩
  | case4 visited node stack hnew neighbors hneighbors htarget =>
    exact ⟨node, List.mem_cons_self, .single ⟨neighbors, hneighbors, htarget⟩⟩
  | case5 visited node stack hnew neighbors hneighbors htarget ih =>
    obtain ⟨start, hmem, hpath⟩ := ih h
    rcases List.mem_append.mp hmem with hmem | hmem
    · have hnext := (List.mem_filter.mp (List.mem_reverse.mp hmem)).1
      exact ⟨node, List.mem_cons_self, .head ⟨neighbors, hneighbors, hnext⟩ hpath⟩
    · exact ⟨start, List.mem_cons_of_mem _ hmem, hpath⟩

/-- **The search is complete.** If it does not find the target, all it could come to is closed
under the edges and does not lead to the target. -/
theorem exists_closed_of_search (h : graph.search target visited stack = false)
    (hexplored : graph.Explored target visited stack) :
    ∃ seen : List α, visited ⊆ seen ∧ stack ⊆ seen ∧ graph.Explored target seen [] := by
  fun_induction search graph target visited stack with
  | case1 visited =>
    exact ⟨visited, List.Subset.refl _, List.nil_subset _, hexplored⟩
  | case2 visited node stack hseen ih =>
    obtain ⟨seen, hvisited, hstack, hclosed⟩ := ih h fun start hstart next hedge => by
      obtain ⟨hne, hmem | hmem⟩ := hexplored start hstart next hedge
      · exact ⟨hne, .inl hmem⟩
      · rcases List.mem_cons.mp hmem with rfl | hmem
        · exact ⟨hne, .inl hseen⟩
        · exact ⟨hne, .inr hmem⟩
    exact ⟨seen, hvisited, List.cons_subset.mpr ⟨hvisited hseen, hstack⟩, hclosed⟩
  | case3 visited node stack hnew hnone ih =>
    obtain ⟨seen, hvisited, hstack, hclosed⟩ := ih h fun start hstart next hedge => by
      rcases List.mem_cons.mp hstart with rfl | hstart
      · obtain ⟨neighbors, hneighbors, -⟩ := hedge
        rw [hnone] at hneighbors
        cases hneighbors
      · obtain ⟨hne, hmem⟩ := hexplored start hstart next hedge
        exact ⟨hne, by rw [List.mem_cons] at hmem ⊢; tauto⟩
    obtain ⟨hnode, hvisited⟩ := List.cons_subset.mp hvisited
    exact ⟨seen, hvisited, List.cons_subset.mpr ⟨hnode, hstack⟩, hclosed⟩
  | case4 visited node stack hnew neighbors hneighbors htarget => cases h
  | case5 visited node stack hnew neighbors hneighbors htarget ih =>
    obtain ⟨seen, hvisited, hstack, hclosed⟩ := ih h fun start hstart next hedge => by
      rcases List.mem_cons.mp hstart with rfl | hstart
      · obtain ⟨neighbors', hneighbors', hnext⟩ := hedge
        obtain rfl := Option.some.inj (hneighbors.symm.trans hneighbors')
        refine ⟨fun heq => htarget (heq ▸ hnext), ?_⟩
        by_cases hmem : next ∈ start :: visited
        · exact .inl hmem
        · refine .inr (List.mem_append_left _ (List.mem_reverse.mpr ?_))
          exact List.mem_filter.mpr ⟨hnext, by simpa using hmem⟩
      · obtain ⟨hne, hmem⟩ := hexplored start hstart next hedge
        refine ⟨hne, ?_⟩
        rw [List.mem_cons, List.mem_append]
        rw [List.mem_cons] at hmem
        tauto
    obtain ⟨hnode, hvisited⟩ := List.cons_subset.mp hvisited
    refine ⟨seen, hvisited, List.cons_subset.mpr ⟨hnode, ?_⟩, hclosed⟩
    exact List.Subset.trans (List.subset_append_right _ _) hstack

/-- A closed set without the target is not left. -/
theorem Explored.not_reaches {seen : List α} (h : graph.Explored target seen [])
    (hnode : node ∈ seen) : ¬ Relation.TransGen graph.Edge node target := by
  have hclosed : ∀ next, Relation.TransGen graph.Edge node next → next ∈ seen ∧ next ≠ target := by
    intro next hpath
    have hstep : ∀ {start next}, start ∈ seen → graph.Edge start next → next ∈ seen ∧ next ≠ target :=
      fun hstart hedge => ⟨(h _ hstart _ hedge).2.resolve_right (List.not_mem_nil), (h _ hstart _ hedge).1⟩
    induction hpath with
    | single hedge => exact hstep hnode hedge
    | tail _ hedge ih => exact hstep ih.1 hedge
  exact fun hpath => (hclosed target hpath).2 rfl

/-- **The search answers whether the target can be reached.** -/
theorem searches_iff : graph.searches target node = true ↔
    Relation.ReflTransGen graph.Edge node target := by
  rw [searches, Bool.or_eq_true, decide_eq_true_eq, Relation.reflTransGen_iff_eq_or_transGen,
    eq_comm]
  refine or_congr Iff.rfl ⟨fun h => ?_, fun hpath => ?_⟩
  · obtain ⟨start, hmem, hpath⟩ := exists_of_search h
    rwa [List.mem_singleton.mp hmem] at hpath
  · by_contra hsearch
    rw [Bool.not_eq_true] at hsearch
    obtain ⟨seen, -, hstack, hclosed⟩ := exists_closed_of_search hsearch
      fun _ hmem => absurd hmem List.not_mem_nil
    exact hclosed.not_reaches (hstack List.mem_cons_self) hpath

end Graph

end Batty
