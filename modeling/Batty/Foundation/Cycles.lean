import Batty.Foundation.Search
import Mathlib.Data.List.Chain
import Mathlib.Data.List.Nodup

/-!
# Cycles

A closed walk goes along the edges of a relation from a node back to itself. Some node is on one
exactly if it comes after itself in the transitive closure (`exists_closedWalk_iff`), and edges to
nodes that do not lead back add none (`ClosedWalk.of_adds`).

**Finding one.** `Graph.findCycle` goes depth first through a graph, and keeps the path that it has
come down and the nodes that it has visited. A node on the path that comes next again closes a walk
(`closedWalk_of_findCycle`). If there is none, every node that it has left for good is accessible
along the edges, so that no walk through it closes (`acc_of_findCycle`).
-/

namespace Batty

/-! ### Closed walks -/

/-- Along the edges from a node back to itself. -/
structure ClosedWalk {α : Type} (edge : α → α → Prop) (walk : List α) : Prop where
  length : 2 ≤ walk.length
  closes : walk.head? = walk.getLast?
  chain : walk.IsChain edge

section

variable {α : Type} {edge edge' : α → α → Prop} {walk : List α} {node : α}

theorem closedWalk_cons_iff : ClosedWalk edge (node :: walk) ↔
    walk.getLast? = some node ∧ (node :: walk).IsChain edge := by
  constructor
  · rintro ⟨hlength, hcloses, hchain⟩
    cases walk with
    | nil => simp at hlength
    | cons next walk =>
      rw [List.head?_cons, List.getLast?_cons_cons] at hcloses
      exact ⟨hcloses.symm, hchain⟩
  · rintro ⟨hlast, hchain⟩
    cases walk with
    | nil => cases hlast
    | cons next walk =>
      refine ⟨by simp, ?_, hchain⟩
      rw [List.head?_cons, List.getLast?_cons_cons, hlast]

theorem ClosedWalk.transGen (h : ClosedWalk edge (node :: walk)) :
    Relation.TransGen edge node node := by
  obtain ⟨hlast, hchain⟩ := closedWalk_cons_iff.mp h
  cases walk with
  | nil => cases hlast
  | cons next walk =>
    obtain ⟨hedge, hchain⟩ := List.isChain_cons_cons.mp hchain
    refine .head' hedge (List.relationReflTransGen_of_exists_isChain_cons walk hchain ?_)
    rw [List.getLast?_eq_some_getLast (List.cons_ne_nil _ _)] at hlast
    exact Option.some.inj hlast

theorem exists_closedWalk_of_reflTransGen {next : α} (hedge : edge node next)
    (hback : Relation.ReflTransGen edge next node) :
    ∃ walk, ClosedWalk edge (node :: next :: walk) := by
  obtain ⟨walk, hchain, hlast⟩ := List.exists_isChain_cons_of_relationReflTransGen hback
  refine ⟨walk, closedWalk_cons_iff.mpr ⟨?_, List.isChain_cons_cons.mpr ⟨hedge, hchain⟩⟩⟩
  rw [List.getLast?_eq_some_getLast (List.cons_ne_nil _ _), hlast]

/-- A node is the start of a closed walk exactly if it comes after itself. -/
theorem exists_closedWalk_iff :
    (∃ walk, ClosedWalk edge (node :: walk)) ↔ Relation.TransGen edge node node := by
  constructor
  · rintro ⟨walk, hwalk⟩
    exact hwalk.transGen
  · intro h
    obtain ⟨next, hedge, hback⟩ := Relation.TransGen.head'_iff.mp h
    obtain ⟨walk, hwalk⟩ := exists_closedWalk_of_reflTransGen hedge hback
    exact ⟨next :: walk, hwalk⟩

theorem ClosedWalk.ne_nil (h : ClosedWalk edge walk) : walk ≠ [] := by
  rintro rfl
  simpa using h.length

/-- A node from which every way comes to an end is on no closed walk. -/
theorem ClosedWalk.not_acc (h : ClosedWalk edge (node :: walk)) :
    ¬ Acc (fun next node => edge node next) node := by
  intro hacc
  induction hacc generalizing walk with
  | intro node _ ih =>
    obtain ⟨next, hedge, hback⟩ := Relation.TransGen.head'_iff.mp h.transGen
    obtain ⟨walk, hwalk⟩ := exists_closedWalk_iff.mpr (.tail' hback hedge)
    exact ih next hedge hwalk

/-- On a closed walk there is a way back along every edge. -/
theorem ClosedWalk.back {next : α} {before after : List α}
    (h : ClosedWalk edge (before ++ node :: next :: after)) :
    Relation.ReflTransGen edge next node := by
  obtain ⟨hbefore, -, hafter⟩ := List.isChain_append_cons_cons.mp h.chain
  have hne : before ++ [node] ≠ [] := by simp
  have hcloses : (next :: after).getLast (List.cons_ne_nil _ _) = (before ++ [node]).head hne := by
    have hends := h.closes
    rw [show before ++ node :: next :: after = (before ++ [node]) ++ next :: after by simp,
      List.head?_append_of_ne_nil _ hne, List.getLast?_append_of_ne_nil _ (List.cons_ne_nil _ _),
      List.head?_eq_some_head hne, List.getLast?_eq_some_getLast (List.cons_ne_nil _ _)] at hends
    exact (Option.some.inj hends).symm
  have hout := List.relationReflTransGen_of_exists_isChain_cons after hafter hcloses
  have hback := List.relationReflTransGen_of_exists_isChain _ hbefore hne
  rw [List.getLast_append_singleton] at hback
  exact hout.trans hback

/-- **Adding edges.** Edges from one node to nodes that do not lead back to it are on no closed
walk, however many are added. -/
theorem ClosedWalk.of_adds {source : α} {targets : List α}
    (hadds : ∀ node next, edge' node next → edge node next ∨ node = source ∧ next ∈ targets)
    (hsafe : ∀ target ∈ targets, ¬ Relation.ReflTransGen edge target source)
    (h : ClosedWalk edge' walk) : ClosedWalk edge walk := by
  -- up to its first new edge a way goes along old ones, and then it is back at the source
  have hold : ∀ {node}, Relation.ReflTransGen edge' node source →
      Relation.ReflTransGen edge node source := by
    intro node hway
    induction hway using Relation.ReflTransGen.head_induction_on with
    | refl => exact .refl
    | head hedge _ ih =>
      rcases hadds _ _ hedge with hedge | ⟨rfl, -⟩
      · exact ih.head hedge
      · exact .refl
  refine ⟨h.length, h.closes, List.isChain_iff_forall_rel_of_append_cons_cons.mpr ?_⟩
  rintro node next before after rfl
  have hedge := List.isChain_iff_forall_rel_of_append_cons_cons.mp h.chain rfl
  refine (hadds node next hedge).resolve_right ?_
  rintro ⟨rfl, hnext⟩
  exact hsafe next hnext (hold h.back)

end

/-! ### Finding a cycle -/

namespace Graph

variable {α : Type} [DecidableEq α] {graph : Graph α} {path visited ids cycle : List α} {node : α}

/-- An edge between two nodes that are listed. -/
def Links (graph : Graph α) (node next : α) : Prop :=
  graph.Edge node next ∧ (graph.neighbors? next).isSome

theorem unseen_concat (graph : Graph α) (path : List α) (node : α) :
    graph.unseen (path ++ [node]) = graph.unseen (node :: path) := by
  have hmem : ∀ other, other ∈ path ++ [node] ↔ other ∈ node :: path := by simp [or_comm]
  simp only [unseen, hmem]

/-- Go depth first through the nodes `ids` that come after the path. The answer is a cycle, or else
the nodes that have been visited. -/
def findCycle (graph : Graph α) (path visited : List α) : List α → Except (List α) (List α)
  | [] => .ok visited
  | id :: ids =>
    match _hlisted : graph.neighbors? id with
    | none => graph.findCycle path visited ids
    | some neighbors =>
      if id ∈ path then .error (path.dropWhile (· ≠ id) ++ [id])
      else if id ∈ visited then graph.findCycle path visited ids
      else
        match graph.findCycle (path ++ [id]) (id :: visited) neighbors with
        | .error cycle => .error cycle
        | .ok visited => graph.findCycle path visited ids
termination_by ids => (graph.unseen path, ids.length)
decreasing_by
  · exact Prod.Lex.right _ (by simp)
  · exact Prod.Lex.right _ (by simp)
  · rw [unseen_concat]
    exact Prod.Lex.left _ _ (unseen_cons_lt _hlisted ‹_›)
  · exact Prod.Lex.right _ (by simp)

/-- What comes after a node on a path without repetitions closes a cycle at it. -/
theorem closedWalk_of_mem_path (hnode : node ∈ path) (hnodup : path.Nodup)
    (hchain : path.IsChain graph.Links) (hlast : ∀ last ∈ path.getLast?, graph.Links last node) :
    ClosedWalk graph.Links (path.dropWhile (· ≠ node) ++ [node]) ∧
      (path.dropWhile (· ≠ node) ++ [node]).dropLast.Nodup := by
  -- The node is on the path once, so what is dropped is all before it.
  obtain ⟨before, after, rfl⟩ := List.append_of_mem hnode
  have hbefore : ∀ other ∈ before, other ≠ node := by
    rintro other hother rfl
    exact List.disjoint_of_nodup_append hnodup hother List.mem_cons_self
  have hdrop : (before ++ node :: after).dropWhile (· ≠ node) = node :: after := by
    rw [List.dropWhile_append_of_pos (by simpa using hbefore), List.dropWhile_cons_of_neg (by simp)]
  rw [hdrop]
  constructor
  · rw [List.cons_append, closedWalk_cons_iff]
    refine ⟨by simp, ?_⟩
    rw [← List.cons_append, List.isChain_append]
    refine ⟨(List.isChain_append.mp hchain).2.1, .singleton _, ?_⟩
    rintro last hmem _ hnext
    obtain rfl : node = _ := by simpa using hnext
    refine hlast last ?_
    rwa [List.getLast?_append_of_ne_nil _ (List.cons_ne_nil _ _)]
  · rw [List.dropLast_concat]
    exact hnodup.of_append_right

/-- **What is found is a cycle.** -/
theorem closedWalk_of_findCycle (h : graph.findCycle path visited ids = .error cycle)
    (hnodup : path.Nodup) (hchain : path.IsChain graph.Links)
    (hnext : ∀ last ∈ path.getLast?, ∀ id ∈ ids, graph.Edge last id) :
    ClosedWalk graph.Links cycle ∧ cycle.dropLast.Nodup := by
  fun_induction findCycle graph path visited ids with
  | case1 => cases h
  | case2 path visited id ids hnone ih =>
    exact ih h hnodup hchain fun last hlast next hmem =>
      hnext last hlast next (List.mem_cons_of_mem _ hmem)
  | case3 path visited id ids neighbors hneighbors hmem =>
    obtain rfl := Except.error.inj h
    refine closedWalk_of_mem_path hmem hnodup hchain fun last hlast => ?_
    -- The end of the path leads to the id, and it is listed.
    exact ⟨hnext last hlast id List.mem_cons_self, by rw [hneighbors]; rfl⟩
  | case4 path visited id ids neighbors hneighbors hnew hseen ih =>
    exact ih h hnodup hchain fun last hlast next hmem =>
      hnext last hlast next (List.mem_cons_of_mem _ hmem)
  | case5 path visited id ids neighbors hneighbors hnew hunseen cycle hfound ih =>
    obtain rfl := Except.error.inj h
    -- The path is one longer in the search below; it ends at the id now.
    refine ih hfound ?_ ?_ ?_
    · exact List.nodup_append.mpr ⟨hnodup, List.nodup_singleton _, by
        rintro other hother _ hid rfl
        exact hnew (List.mem_singleton.mp hid ▸ hother)⟩
    · rw [List.isChain_append]
      refine ⟨hchain, .singleton _, ?_⟩
      rintro last hlast _ hid
      obtain rfl : id = _ := by simpa using hid
      exact ⟨hnext last hlast id List.mem_cons_self, by rw [hneighbors]; rfl⟩
    · rintro last hlast next hmem
      obtain rfl : id = last := by simpa using hlast
      exact ⟨neighbors, hneighbors, hmem⟩
  | case6 path visited id ids neighbors hneighbors hnew hunseen visited' hnone ih₁ ih₂ =>
    exact ih₂ h hnodup hchain fun last hlast next hmem =>
      hnext last hlast next (List.mem_cons_of_mem _ hmem)

/-- From the node every way along the edges comes to an end. -/
abbrev Ends (graph : Graph α) (node : α) : Prop := Acc (fun next node => graph.Links node next) node

/-- **What is left is on no cycle.** The invariant is that from the nodes that have been visited and
are not on the path every way ends. -/
theorem ends_of_findCycle {visited' : List α} (h : graph.findCycle path visited ids = .ok visited')
    (hends : ∀ node ∈ visited, node ∉ path → graph.Ends node) :
    (∀ node ∈ visited', node ∉ path → graph.Ends node) ∧
      ∀ id ∈ ids, (graph.neighbors? id).isSome → graph.Ends id := by
  fun_induction findCycle graph path visited ids generalizing visited' with
  | case1 =>
    obtain rfl := Except.ok.inj h
    exact ⟨hends, nofun⟩
  | case2 path visited id ids hnone ih =>
    obtain ⟨hvisited, hids⟩ := ih h hends
    exact ⟨hvisited, List.forall_mem_cons.mpr ⟨by simp [hnone], hids⟩⟩
  | case3 => cases h
  | case4 path visited id ids neighbors hneighbors hnew hseen ih =>
    obtain ⟨hvisited, hids⟩ := ih h hends
    exact ⟨hvisited, List.forall_mem_cons.mpr ⟨fun _ => hends id hseen hnew, hids⟩⟩
  | case5 => cases h
  | case6 path visited id ids neighbors hneighbors hnew hunseen visited₁ hnone ih₁ ih₂ =>
    obtain ⟨hbelow, hdeps⟩ := ih₁ hnone fun node hnode hpath => by
      rw [List.mem_append, List.mem_singleton, not_or] at hpath
      exact hends node ((List.mem_cons.mp hnode).resolve_left hpath.2) hpath.1
    -- all that comes after `id` has been gone through
    have hid : graph.Ends id := by
      refine ⟨_, fun next hlinks => ?_⟩
      obtain ⟨⟨neighbors', hneighbors', hnext⟩, hlisted⟩ := hlinks
      obtain rfl := Option.some.inj (hneighbors.symm.trans hneighbors')
      exact hdeps next hnext hlisted
    obtain ⟨hvisited, hids⟩ := ih₂ h fun node hnode hpath => by
      by_cases hsame : node = id
      · rw [hsame]
        exact hid
      · refine hbelow node hnode ?_
        rw [List.mem_append, List.mem_singleton]
        exact fun hmem => hmem.elim hpath hsame
    exact ⟨hvisited, List.forall_mem_cons.mpr ⟨fun _ => hid, hids⟩⟩

end Graph

end Batty
