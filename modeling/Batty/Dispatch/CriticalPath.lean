import Batty.Dispatch.Deps
import Batty.Foundation.Loops

/-!
# The critical path

Of the chains in which each open task waits for the next one, the longest is shown with the
dependencies of a board. It is looked for from every task, and what is found from a task is kept in
a table, so that no task is gone through twice.

**What it finds.** On a board without cycles the search comes to an end, the table changes nothing
of what is found, and no chain is longer (`findCriticalPath_longest`).
-/

namespace Batty

/-! ### The search -/

/-- The task of an id. The last one counts if there are several. -/
def nodeOf (tasks : List Task) (id : Nat) : Option Task :=
  tasks.reverse.find? fun task => task.id = id

def Task.isIncomplete (task : Task) : Bool := task.status ≠ "done"

/-- The chains found from the ids that were gone through. -/
abbrev PathMemo := Nat → Option (List Nat)

/-- The longer of two chains; the first one if they are equally long. -/
def longerPath (best path : List Nat) : List Nat :=
  if best.length < path.length then path else best

/-- The longest of the chains that are found from the ids, the first if there are several. -/
def longestOf {m : Type → Type} [Monad m] (find : Nat → m (List Nat)) (ids : List Nat) :
    m (List Nat) :=
  ids.foldlM (fun best id => longerPath best <$> find id) []

/-- The dependencies that are on the board. -/
def nodeDependencies (tasks : List Task) (node : Task) : List Nat :=
  node.dependsOn.filter fun dep => (nodeOf tasks dep).isSome

/-- Without fuel the search gives up; on a cycle the recursion has no end. -/
def longestPath (tasks : List Task) : Nat → Nat → EStateM Unit PathMemo (List Nat)
  | 0, _ => throw ()
  | fuel + 1, id => do
    match (← get) id with
    | some cached => return cached
    | none =>
      match nodeOf tasks id with
      | none => return []
      | some node =>
        if !node.isIncomplete then
          modify fun memo => Function.update memo id (some [])
          return []
        else
          let bestChild ← longestOf (longestPath tasks fuel) (nodeDependencies tasks node)
          modify fun memo => Function.update memo id (some (id :: bestChild))
          return id :: bestChild

def findCriticalPath (fuel : Nat) (tasks : List Task) : EStateM Unit PathMemo (List Nat) :=
  longestOf (longestPath tasks fuel) (sortedIds (tasks.map Task.id))

/-- The same recursion without a table. -/
def plainLongestPath (tasks : List Task) : Nat → Nat → Option (List Nat)
  | 0, _ => none
  | fuel + 1, id =>
    match nodeOf tasks id with
    | none => some []
    | some node =>
      if !node.isIncomplete then some []
      else (longestOf (plainLongestPath tasks fuel) (nodeDependencies tasks node)).map (id :: ·)

def plainCriticalPath (fuel : Nat) (tasks : List Task) : Option (List Nat) :=
  longestOf (plainLongestPath tasks fuel) (sortedIds (tasks.map Task.id))

/-! ### Chains of open tasks -/

/-- The id is that of an open task. -/
def IsOpen (tasks : List Task) (id : Nat) : Prop :=
  ∃ node, nodeOf tasks id = some node ∧ node.isIncomplete = true

/-- Open tasks, each of which depends on the next one. -/
structure OpenChain (tasks : List Task) (chain : List Nat) : Prop where
  opens : ∀ id ∈ chain, IsOpen tasks id
  depends : chain.IsChain (dependencyGraph tasks).Links

/-- A longest chain among those that start at the id. -/
structure LongestFrom (tasks : List Task) (id : Nat) (path : List Nat) : Prop where
  chain : OpenChain tasks path
  head : ∀ first ∈ path.head?, first = id
  longest : ∀ rest, OpenChain tasks (id :: rest) → rest.length + 1 ≤ path.length

section

variable {tasks : List Task} {id dep fuel : Nat} {node : Task} {path path' : List Nat}

theorem neighbors?_eq (tasks : List Task) (id : Nat) :
    (dependencyGraph tasks).neighbors? id = (nodeOf tasks id).map Task.dependsOn := by
  simp [Graph.neighbors?, dependencyGraph, nodeOf, ← List.map_reverse, List.find?_map,
    Function.comp_def]

theorem links_iff (hnode : nodeOf tasks id = some node) :
    (dependencyGraph tasks).Links id dep ↔
      dep ∈ node.dependsOn ∧ (nodeOf tasks dep).isSome = true := by
  simp [Graph.Links, Graph.Edge, neighbors?_eq, hnode]

theorem OpenChain.tail {first : Nat} (h : OpenChain tasks (first :: path)) :
    OpenChain tasks path :=
  ⟨fun id hid => h.opens id (List.mem_cons_of_mem _ hid), h.depends.tail⟩

/-- A chain that starts at the id goes on at one of the dependencies that there are. -/
theorem OpenChain.cons_iff (hnode : nodeOf tasks id = some node)
    (hopen : node.isIncomplete = true) : OpenChain tasks (id :: path) ↔ OpenChain tasks path ∧
      ∀ dep ∈ path.head?, dep ∈ node.dependsOn ∧ (nodeOf tasks dep).isSome = true := by
  constructor
  · intro h
    refine ⟨h.tail, fun dep hdep => ?_⟩
    obtain ⟨rest, rfl⟩ := List.head?_eq_some_iff.mp hdep
    exact (links_iff hnode).mp (List.isChain_cons_cons.mp h.depends).1
  · rintro ⟨hpath, hhead⟩
    refine ⟨List.forall_mem_cons.mpr ⟨⟨node, hnode, hopen⟩, hpath.opens⟩, ?_⟩
    exact List.isChain_cons.mpr
      ⟨fun dep hdep => (links_iff hnode).mpr (hhead dep hdep), hpath.depends⟩

/-! ### The longest of several -/

theorem length_le_longerPath (best path : List Nat) :
    best.length ≤ (longerPath best path).length ∧ path.length ≤ (longerPath best path).length := by
  unfold longerPath
  split <;> constructor <;> omega

section

variable {find find' : Nat → Option (List Nat)} {ids best best' : List Nat}

theorem foldlM_longer
    (h : ids.foldlM (fun best id => longerPath best <$> find id) best = some best') :
    best.length ≤ best'.length ∧ (∀ id ∈ ids, ∃ path ∈ find id, path.length ≤ best'.length) ∧
      (best' = best ∨ ∃ id ∈ ids, find id = some best') := by
  induction ids generalizing best with
  | nil =>
    obtain rfl := Option.some.inj h
    exact ⟨le_rfl, nofun, .inl rfl⟩
  | cons id ids ih =>
    rw [List.foldlM_cons] at h
    obtain ⟨next, hnext, h⟩ := Option.bind_eq_some_iff.mp h
    obtain ⟨path, hpath, rfl⟩ := Option.map_eq_some_iff.mp hnext
    obtain ⟨hle, hall, hfrom⟩ := ih h
    obtain ⟨hbest, hlength⟩ := length_le_longerPath best path
    refine ⟨hbest.trans hle, List.forall_mem_cons.mpr ⟨⟨path, hpath, hlength.trans hle⟩, hall⟩, ?_⟩
    rcases hfrom with rfl | ⟨other, hother, hfind⟩
    · unfold longerPath
      split
      · exact .inr ⟨id, List.mem_cons_self, hpath⟩
      · exact .inl rfl
    · exact .inr ⟨other, List.mem_cons_of_mem _ hother, hfind⟩

theorem longestOf_eq_some (h : longestOf find ids = some path) :
    (∀ id ∈ ids, ∃ found ∈ find id, found.length ≤ path.length) ∧
      (path = [] ∨ ∃ id ∈ ids, find id = some path) :=
  (foldlM_longer h).2

/-- What is found is the same if each of the chains is. -/
theorem longestOf_mono (h : ∀ id ∈ ids, ∀ path ∈ find id, find' id = some path)
    (hlongest : longestOf find ids = some path) : longestOf find' ids = some path := by
  have hfold : ∀ {best}, ids.foldlM (fun best id => longerPath best <$> find id) best = some path →
      ids.foldlM (fun best id => longerPath best <$> find' id) best = some path := by
    clear hlongest
    induction ids with
    | nil => exact id
    | cons id ids ih =>
      intro best hbest
      obtain ⟨hid, hids⟩ := List.forall_mem_cons.mp h
      rw [List.foldlM_cons] at hbest ⊢
      obtain ⟨next, hnext, hbest⟩ := Option.bind_eq_some_iff.mp hbest
      obtain ⟨found, hfound, rfl⟩ := Option.map_eq_some_iff.mp hnext
      rw [hid found hfound]
      exact ih hids hbest
  exact hfold hlongest

theorem exists_longestOf (h : ∀ id ∈ ids, ∃ path, find id = some path) :
    ∃ path, longestOf find ids = some path := by
  have hfold : ∀ best, ∃ path,
      ids.foldlM (fun best id => longerPath best <$> find id) best = some path := by
    induction ids with
    | nil => exact fun best => ⟨best, rfl⟩
    | cons id ids ih =>
      intro best
      obtain ⟨⟨found, hfound⟩, hids⟩ := List.forall_mem_cons.mp h
      rw [List.foldlM_cons, hfound]
      exact ih hids _
  exact hfold []

end

/-! ### The recursion without a table -/

theorem plainLongestPath_succ (h : plainLongestPath tasks fuel id = some path) :
    plainLongestPath tasks (fuel + 1) id = some path := by
  induction fuel generalizing id path with
  | zero => cases h
  | succ fuel ih =>
    rw [plainLongestPath] at h ⊢
    cases hnode : nodeOf tasks id with
    | none => rwa [hnode] at h
    | some node =>
      rw [hnode] at h
      dsimp only at h ⊢
      split at h
      · rwa [if_pos ‹_›]
      · obtain ⟨best, hbest, rfl⟩ := Option.map_eq_some_iff.mp h
        rw [if_neg ‹_›, longestOf_mono (fun _ _ _ hfound => ih hfound) hbest]
        rfl

/-- More fuel changes nothing of what was found. -/
theorem plainLongestPath_unique {fuel' : Nat} (h : plainLongestPath tasks fuel id = some path)
    (h' : plainLongestPath tasks fuel' id = some path') : path = path' := by
  have hmono : ∀ {fuel more found}, plainLongestPath tasks fuel id = some found →
      plainLongestPath tasks (fuel + more) id = some found := by
    intro fuel more found hfound
    induction more with
    | zero => exact hfound
    | succ more ih => exact plainLongestPath_succ ih
  have hboth := @hmono fuel fuel' path h
  rw [Nat.add_comm, hmono h', Option.some_inj] at hboth
  exact hboth.symm

/-- **What the recursion finds** is a longest chain. -/
theorem longestFrom_of_plain (h : plainLongestPath tasks fuel id = some path) :
    LongestFrom tasks id path := by
  induction fuel generalizing id path with
  | zero => cases h
  | succ fuel ih =>
    rw [plainLongestPath] at h
    cases hnode : nodeOf tasks id with
    | none =>
      rw [hnode] at h
      obtain rfl := Option.some.inj h
      refine ⟨⟨nofun, .nil⟩, nofun, fun rest hrest => ?_⟩
      obtain ⟨node, hsome, -⟩ := hrest.opens id List.mem_cons_self
      cases hnode.symm.trans hsome
    | some node =>
      rw [hnode] at h
      dsimp only at h
      split at h
      · rename_i hdone
        obtain rfl := Option.some.inj h
        refine ⟨⟨nofun, .nil⟩, nofun, fun rest hrest => ?_⟩
        obtain ⟨other, hsome, hopen⟩ := hrest.opens id List.mem_cons_self
        obtain rfl := Option.some.inj (hnode.symm.trans hsome)
        rw [hopen] at hdone
        cases hdone
      · rename_i hopen
        obtain ⟨best, hbest, rfl⟩ := Option.map_eq_some_iff.mp h
        obtain ⟨hall, hfrom⟩ := longestOf_eq_some hbest
        have hopen : node.isIncomplete = true := by simpa using hopen
        refine ⟨?_, fun first hfirst => (Option.some.inj hfirst).symm, fun rest hrest => ?_⟩
        · rw [OpenChain.cons_iff hnode hopen]
          rcases hfrom with rfl | ⟨dep, hdep, hfound⟩
          · exact ⟨⟨nofun, .nil⟩, nofun⟩
          · refine ⟨(ih hfound).chain, fun first hfirst => ?_⟩
            rw [(ih hfound).head first hfirst]
            exact List.mem_filter.mp hdep
        · -- A chain through a dependency is no longer than the one found from it.
          obtain ⟨hchain, hhead⟩ := (OpenChain.cons_iff hnode hopen).mp hrest
          cases rest with
          | nil => simp
          | cons dep rest =>
            obtain ⟨found, hfound, hle⟩ := hall dep (List.mem_filter.mpr (hhead dep rfl))
            have hlongest := (ih hfound).longest rest hchain
            simp only [List.length_cons]
            omega

/-! ### The table -/

/-- What is in the table is what the recursion finds. -/
def PathMemo.Sound (tasks : List Task) (memo : PathMemo) : Prop :=
  ∀ id, ∀ path ∈ memo id, ∃ fuel, plainLongestPath tasks fuel id = some path

theorem PathMemo.Sound.update {memo : PathMemo} (h : memo.Sound tasks)
    (hpath : plainLongestPath tasks fuel id = some path) :
    PathMemo.Sound tasks (Function.update memo id (some path)) := by
  intro other found hfound
  by_cases hother : other = id
  · subst hother
    rw [Function.update_self] at hfound
    exact ⟨fuel, hpath.trans hfound⟩
  · rw [Function.update_of_ne hother] at hfound
    exact h other found hfound

/-- A search of several agrees with the recursion if each of them does. -/
theorem after_longestOf {find : Nat → EStateM Unit PathMemo (List Nat)}
    {plain : Nat → Option (List Nat)} {ids : List Nat} {memo : PathMemo}
    (hfind : ∀ id found memo, PathMemo.Sound tasks memo → plain id = some found →
      After (find id) memo (fun path memo => path = found ∧ memo.Sound tasks) fun _ _ => False)
    (hmemo : memo.Sound tasks) (hpath : longestOf plain ids = some path) :
    After (longestOf find ids) memo (fun found memo => found = path ∧ memo.Sound tasks)
      fun _ _ => False := by
  -- What is left of the list leads the recursion on to the same chain.
  have hloop := @after_foldlM Unit PathMemo Nat (List Nat)
    (fun best id => longerPath best <$> find id) ids [] memo
    (fun left best memo => memo.Sound tasks ∧
      left.foldlM (fun best id => longerPath best <$> plain id) best = some path)
    (fun _ _ => False) ⟨hmemo, hpath⟩ ?_
  · refine hloop.mono (fun best memo h => ⟨?_, h.1⟩) fun _ _ h => h
    exact Option.some.inj h.2
  · rintro id left best memo ⟨hmemo, hleft⟩
    rw [List.foldlM_cons] at hleft
    obtain ⟨next, hnext, hleft⟩ := Option.bind_eq_some_iff.mp hleft
    obtain ⟨found, hfound, rfl⟩ := Option.map_eq_some_iff.mp hnext
    rw [after_map]
    refine (hfind id found memo hmemo hfound).mono ?_ fun _ _ h => h
    rintro _ memo' ⟨rfl, hmemo'⟩
    exact ⟨hmemo', hleft⟩

/-- **The table changes nothing** of what is found. -/
theorem after_longestPath {memo : PathMemo} (hmemo : memo.Sound tasks)
    (hpath : plainLongestPath tasks fuel id = some path) :
    After (longestPath tasks fuel id) memo (fun found memo => found = path ∧ memo.Sound tasks)
      fun _ _ => False := by
  induction fuel generalizing id path memo with
  | zero => cases hpath
  | succ fuel ih =>
    simp only [longestPath, after_bind, after_get]
    have hplain := hpath
    rw [plainLongestPath] at hpath
    -- What is in the table is right already, and what is added to it is found with less fuel.
    cases hcached : memo id with
    | some cached =>
      obtain ⟨fuel', hfound⟩ := hmemo id cached hcached
      exact ⟨plainLongestPath_unique hfound hplain, hmemo⟩
    | none =>
      dsimp only
      cases hnode : nodeOf tasks id with
      | none =>
        rw [hnode] at hpath
        exact ⟨Option.some.inj hpath, hmemo⟩
      | some node =>
        rw [hnode] at hpath
        dsimp only at hpath ⊢
        split at hpath
        · obtain rfl := Option.some.inj hpath
          rw [if_pos ‹_›]
          exact ⟨rfl, hmemo.update hplain⟩
        · obtain ⟨best, hbest, rfl⟩ := Option.map_eq_some_iff.mp hpath
          rw [if_neg ‹_›, after_bind]
          refine (after_longestOf (fun _ _ _ hmemo hfound => ih hmemo hfound) hmemo hbest).mono ?_
            fun _ _ h => h
          rintro _ memo' ⟨rfl, hmemo'⟩
          exact ⟨rfl, hmemo'.update hplain⟩

/-! ### Boards without cycles -/

/-- Without cycles no chain comes back to where it was. -/
theorem nodup_of_acyclic {edge : Nat → Nat → Prop} {chain : List Nat}
    (hacyclic : ∀ walk, ¬ ClosedWalk edge walk) (h : chain.IsChain edge) : chain.Nodup := by
  have hpairs : chain.Pairwise (Relation.TransGen edge) :=
    List.isChain_iff_pairwise.mp (h.imp fun _ _ hedge => .single hedge)
  refine hpairs.imp ?_
  rintro id _ hback rfl
  obtain ⟨walk, hwalk⟩ := exists_closedWalk_iff.mpr hback
  exact hacyclic _ hwalk

/-- The ids that were gone through lead to the next one, so it is none of them. -/
theorem exists_plainLongestPath
    (hacyclic : ∀ walk, ¬ ClosedWalk (dependencyGraph tasks).Links walk) {above : List Nat}
    (habove : ∀ other ∈ above, Relation.TransGen (dependencyGraph tasks).Links other id)
    (hfuel : (dependencyGraph tasks).unseen above < fuel) :
    ∃ path, plainLongestPath tasks fuel id = some path := by
  induction fuel generalizing id above with
  | zero => exact absurd hfuel (Nat.not_lt_zero _)
  | succ fuel ih =>
    rw [plainLongestPath]
    cases hnode : nodeOf tasks id with
    | none => exact ⟨[], rfl⟩
    | some node =>
      dsimp only
      split
      · exact ⟨[], rfl⟩
      · have hnew : id ∉ above := fun hmem => by
          obtain ⟨walk, hwalk⟩ := exists_closedWalk_iff.mpr (habove id hmem)
          exact hacyclic _ hwalk
        have hneighbors : (dependencyGraph tasks).neighbors? id = some node.dependsOn := by
          rw [neighbors?_eq, hnode, Option.map_some]
        have hless := Graph.unseen_cons_lt hneighbors hnew
        obtain ⟨best, hbest⟩ := @exists_longestOf (plainLongestPath tasks fuel)
          (nodeDependencies tasks node) fun dep hdep => by
            have hlinks := (links_iff hnode).mpr (List.mem_filter.mp hdep)
            refine @ih dep (id :: above) (List.forall_mem_cons.mpr ⟨.single hlinks, ?_⟩) (by omega)
            exact fun other hother => (habove other hother).tail hlinks
        exact ⟨_, by rw [hbest]; rfl⟩

/-- The search comes to an end, with the table as without it. -/
theorem exists_findCriticalPath
    (hacyclic : ∀ walk, ¬ ClosedWalk (dependencyGraph tasks).Links walk)
    (hfuel : tasks.length < fuel) : ∃ path memo,
      findCriticalPath fuel tasks (fun _ => none) = .ok path memo ∧
        plainCriticalPath fuel tasks = some path := by
  have hplain : ∀ id, ∃ path, plainLongestPath tasks fuel id = some path := fun id => by
    refine @exists_plainLongestPath tasks id fuel hacyclic [] nofun (Nat.lt_of_le_of_lt ?_ hfuel)
    exact (List.length_filter_le _ _).trans_eq (List.length_map _)
  obtain ⟨path, hpath⟩ := @exists_longestOf (plainLongestPath tasks fuel)
    (sortedIds (tasks.map Task.id)) fun id _ => hplain id
  have hrun : After (findCriticalPath fuel tasks) (fun _ => none)
      (fun found memo => found = path ∧ memo.Sound tasks) fun _ _ => False :=
    after_longestOf (fun _ _ _ hmemo hfound => after_longestPath hmemo hfound) nofun hpath
  obtain ⟨found, memo, hreturns, rfl, -⟩ := returns_of_after hrun
  exact ⟨found, memo, hreturns, hpath⟩

/-- **The critical path is a longest chain** of open tasks, and the table does not change it. -/
theorem findCriticalPath_longest (tasks : List Task)
    (hacyclic : ∀ walk, ¬ ClosedWalk (dependencyGraph tasks).Links walk) (fuel : Nat)
    (hfuel : tasks.length < fuel) :
    ∃ path memo, findCriticalPath fuel tasks (fun _ => none) = .ok path memo ∧
      plainCriticalPath fuel tasks = some path ∧ OpenChain tasks path ∧ path.Nodup ∧
      ∀ chain, OpenChain tasks chain → chain.length ≤ path.length := by
  obtain ⟨path, memo, hreturns, hpath⟩ := exists_findCriticalPath hacyclic hfuel
  obtain ⟨hall, hfrom⟩ := longestOf_eq_some hpath
  have hchain : OpenChain tasks path := by
    rcases hfrom with rfl | ⟨id, -, hfound⟩
    · exact ⟨nofun, .nil⟩
    · exact (longestFrom_of_plain hfound).chain
  refine ⟨path, memo, hreturns, hpath, hchain, nodup_of_acyclic hacyclic hchain.depends,
    fun chain hother => ?_⟩
  cases chain with
  | nil => exact Nat.zero_le _
  | cons id rest =>
    obtain ⟨node, hnode, -⟩ := hother.opens id List.mem_cons_self
    have hid : id ∈ sortedIds (tasks.map Task.id) := by
      rw [mem_sortedIds]
      have hmem := List.mem_reverse.mp (List.mem_of_find?_eq_some hnode)
      obtain rfl : node.id = id := by simpa using List.find?_some hnode
      exact List.mem_map_of_mem hmem
    obtain ⟨found, hfound, hle⟩ := hall id hid
    exact ((longestFrom_of_plain hfound).longest rest hother).trans hle

end

/-- Where every task depends on later ones only there are no cycles. -/
theorem acyclic_of_lt {tasks : List Task}
    (h : ∀ node ∈ tasks, ∀ dep ∈ node.dependsOn, node.id < dep) :
    ∀ walk, ¬ ClosedWalk (dependencyGraph tasks).Links walk := by
  intro walk hwalk
  have hlt : ∀ {id dep}, (dependencyGraph tasks).Links id dep → id < dep := by
    rintro id dep ⟨⟨deps, hdeps, hmem⟩, -⟩
    rw [neighbors?_eq] at hdeps
    obtain ⟨node, hnode, rfl⟩ := Option.map_eq_some_iff.mp hdeps
    obtain rfl : node.id = id := by simpa using List.find?_some hnode
    exact h node (List.mem_reverse.mp (List.mem_of_find?_eq_some hnode)) dep hmem
  obtain ⟨id, walk, rfl⟩ := List.exists_cons_of_ne_nil hwalk.ne_nil
  have hback : Relation.TransGen (· < ·) id id :=
    Relation.TransGen.mono (fun _ _ => hlt) _ _ hwalk.transGen
  rw [Relation.transGen_eq_self] at hback
  exact Nat.lt_irrefl id hback

/-- The first task waits for the second, which is done, and for the third, which waits for the
fourth; there is no task with the id 9. -/
def branchingTasks : List Task :=
  [taskDependingOn 1 [2, 3], { taskDependingOn 2 [] with status := "done" },
    taskDependingOn 3 [9, 4], taskDependingOn 4 []]

/-- Of two branches the longer one is found. -/
theorem findCriticalPath_longest_branching : ∃ path memo,
    findCriticalPath 5 branchingTasks (fun _ => none) = .ok path memo ∧
      plainCriticalPath 5 branchingTasks = some path ∧ OpenChain branchingTasks path ∧
      path.Nodup ∧ ∀ chain, OpenChain branchingTasks chain → chain.length ≤ path.length :=
  findCriticalPath_longest branchingTasks (acyclic_of_lt (by decide)) 5 (by decide)

end Batty
