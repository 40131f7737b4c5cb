import Batty.Dispatch.CriticalPath
import Batty.Foundation.Bytes
import Batty.Foundation.Fallible

/-!
# Dependencies on the screen

The dependencies of a board are shown as a tree, as a list of pairs, or as a graph in the language
of a drawing tool. Titles are cut to a number of bytes first, which goes wrong in the middle of a
character. In the tree the indentation is handed down from task to task, but it starts empty, and
below an empty indentation it stays empty. In the graph a title is put between quotes, and its
quotes are escaped, though not its backslashes.

* `DrawsFaithfully`: all three are shown, in the tree each task is indented by its depth, and in the
  graph every label is one quoted text.
* `drawsFaithfully_iff`: which boards without cycles are shown so. No task may depend on another
  task of the board.
-/

namespace Batty

/-! ### The nodes -/

/-- A failure with a message, a text that is cut in the middle of a character, or a recursion that
ran out of fuel. -/
inductive RenderError where
  | failed (message : String) | panicked | exhausted

def nodeIds (tasks : List Task) : List Nat := sortedIds (tasks.map Task.id)

def nodes (tasks : List Task) : List Task := (nodeIds tasks).filterMap (nodeOf tasks)

def truncatedTitle (node : Task) (maxLen : Nat) : Except RenderError (List Char) :=
  if byteLength node.title.toList ≤ maxLen then .ok node.title.toList
  else
    match splitAtByte (maxLen - 3) node.title.toList with
    | some (before, _) => .ok (before ++ "...".toList)
    | none => .error .panicked

def statusIndicator (status : String) : List Char :=
  match status with
  | "done" => ['[', 'x', ']']
  | "in-progress" => ['[', '>', ']']
  | "review" => ['[', 'R', ']']
  | "todo" => ['[', ' ', ']']
  | "backlog" => ['[', '-', ']']
  | "blocked" => ['[', '!', ']']
  | _ => ['[', '?', ']']

def idText (id : Nat) : List Char := '#' :: (toString id).toList

/-! ### The tree -/

/-- The tasks that depend on the task. -/
def childIds (tasks : List Task) (id : Nat) : List Nat :=
  (nodeIds tasks).filter fun child =>
    (nodeOf tasks child).any fun node => id ∈ nodeDependencies tasks node

def hasParent (tasks : List Task) (id : Nat) : Bool :=
  (nodeOf tasks id).any fun node => nodeDependencies tasks node ≠ []

def treeRoots (tasks : List Task) : List Nat := (nodeIds tasks).filter fun id => !hasParent tasks id

def nodeText (node : Task) (title : List Char) : List Char :=
  statusIndicator node.status ++ ' ' :: idText node.id ++ ' ' :: title ++
    if node.priority = "" then [] else " (".toList ++ node.priority.toList ++ [')']

/-- The ids, each with whether it is the last one. -/
def markLast (ids : List Nat) : List (Nat × Bool) :=
  ids.zipIdx.map fun (id, i) => (id, i = ids.length - 1)

def renderTreeNode (tasks : List Task) :
    Nat → Nat → List Char → Bool → Except RenderError (List (List Char))
  | 0, _, _, _ => .error .exhausted
  | fuel + 1, id, indent, isLast =>
    match nodeOf tasks id with
    | none => .ok []
    | some node => do
      let connector :=
        if indent = [] then [] else if isLast then "└── ".toList else "├── ".toList
      let title ← truncatedTitle node 50
      let childIndent :=
        if indent = [] then []
        else if isLast then indent ++ "    ".toList else indent ++ "│   ".toList
      let below ← (markLast (childIds tasks id)).mapM fun child =>
        renderTreeNode tasks fuel child.1 childIndent child.2
      return (indent ++ connector ++ nodeText node title) :: below.flatten

/-- Open tasks, each with an open task that it depends on, in order. -/
def findBlockedChains (tasks : List Task) : List (Nat × Nat) :=
  (((nodes tasks).filter Task.isIncomplete).flatMap fun node =>
    (node.dependsOn.filter fun dep => (nodeOf tasks dep).any Task.isIncomplete).map fun dep =>
      (node.id, dep)).insertionSort fun chain chain' =>
        chain.1 < chain'.1 ∨ chain.1 = chain'.1 ∧ chain.2 ≤ chain'.2

def chainPart (tasks : List Task) (id : Nat) : Except RenderError (List Char) :=
  match nodeOf tasks id with
  | none => .error .panicked
  | some node => do
    let title ← truncatedTitle node 30
    return idText id ++ ' ' :: title

def blockedChainLines (tasks : List Task) : Except RenderError (List (List Char)) :=
  if findBlockedChains tasks = [] then .ok []
  else do
    let lines ← (findBlockedChains tasks).mapM fun chain => do
      let waiting ← chainPart tasks chain.1
      let dep ← chainPart tasks chain.2
      return "  ".toList ++ waiting ++ " -> ".toList ++ dep ++ " (waiting)".toList
    return "Blocked chains:".toList :: lines ++ [[]]

def criticalPathLines (fuel : Nat) (tasks : List Task) : Except RenderError (List (List Char)) :=
  match findCriticalPath fuel tasks (fun _ => none) with
  | .error _ _ => .error .exhausted
  | .ok critical _ =>
    if 1 < critical.length then
      .ok ["Critical path (".toList ++ (toString critical.length).toList ++ "): ".toList ++
        " -> ".toList.intercalate (critical.map idText), []]
    else .ok []

def renderTree (fuel : Nat) (tasks : List Task) : Except RenderError (List (List Char)) :=
  if treeRoots tasks = [] ∧ nodes tasks ≠ [] then .ok ["(no root tasks found)".toList]
  else do
    let blocked ← blockedChainLines tasks
    let critical ← criticalPathLines fuel tasks
    let trees ← (treeRoots tasks).mapM fun root => renderTreeNode tasks fuel root [] true
    return blocked ++ critical ++ "Dependency tree:".toList :: trees.flatten

/-! ### The pairs and the graph -/

def renderFlat (tasks : List Task) : List (List Char) :=
  let pairs := (nodes tasks).flatMap fun node =>
    (nodeDependencies tasks node).map fun dep => idText node.id ++ " -> ".toList ++ idText dep
  if pairs = [] then ["(no dependencies)".toList] else pairs

def dotColor (status : String) : String :=
  match status with
  | "done" => "green"
  | "in-progress" => "yellow"
  | "review" => "orange"
  | "todo" => "white"
  | "backlog" => "white"
  | _ => "gray"

/-- The tasks that depend on some task, or some task on them. -/
def dotNodes (tasks : List Task) : List Task :=
  (nodes tasks).filter fun node =>
    !(node.dependsOn = [] && !(nodes tasks).any fun other => node.id ∈ other.dependsOn)

def escapeQuotes (text : List Char) : List Char :=
  text.flatMap fun c => if c = '"' then ['\\', '"'] else [c]

def dotNodeLine (node : Task) (label : List Char) : List Char :=
  "  t".toList ++ (toString node.id).toList ++ " [label=\"".toList ++ label ++
    "\" style=filled fillcolor=".toList ++ (dotColor node.status).toList ++ "];".toList

def renderDotNode (node : Task) : Except RenderError (List Char) := do
  let title ← truncatedTitle node 30
  return dotNodeLine node (idText node.id ++ ' ' :: escapeQuotes title)

def dotHeader : List (List Char) :=
  ["digraph deps \x7b".toList, "  rankdir=BT;".toList, "  node [shape=box];".toList]

def dotFooter (tasks : List Task) : List (List Char) :=
  [] :: ((nodes tasks).flatMap fun node => (nodeDependencies tasks node).map fun dep =>
    "  t".toList ++ (toString node.id).toList ++ " -> t".toList ++ (toString dep).toList ++ [';'])
    ++ ["\x7d".toList]

def renderDot (tasks : List Task) : Except RenderError (List (List Char)) := do
  let lines ← (dotNodes tasks).mapM renderDotNode
  return dotHeader ++ lines ++ dotFooter tasks

/-- How the graph of dependencies is printed. -/
inductive DepsFormat where
  | tree | flat | dot

/-- The lines of the output. -/
def renderDeps (fuel : Nat) (tasks : List Task) (format : DepsFormat) :
    Except RenderError (List (List Char)) :=
  match detectCycleForTasks tasks with
  | some cycle => .error (.failed ("dependency cycle detected: " ++
      " -> ".intercalate (cycle.map fun id => "#" ++ toString id)))
  | none =>
    match format with
    | .tree => renderTree fuel tasks
    | .flat => .ok (renderFlat tasks)
    | .dot => renderDot tasks

/-! ### What is to be shown -/

/-- The ids in the order in which the tree comes to them, each with its depth below the root. -/
def treeVisits (tasks : List Task) : Nat → Nat → Nat → List (Nat × Nat)
  | 0, _, _ => []
  | fuel + 1, depth, id =>
    if (nodeOf tasks id).isSome then
      (depth, id) :: (childIds tasks id).flatMap (treeVisits tasks fuel (depth + 1))
    else []

/-- The indentation of a task: a branch below segments of four columns for the tasks between. -/
inductive Indentation : Nat → List Char → Prop where
  | root : Indentation 0 []
  | last : Indentation 1 "└── ".toList
  | branch : Indentation 1 "├── ".toList
  | blank {depth : Nat} {indent : List Char} :
    Indentation (depth + 1) indent → Indentation (depth + 2) ("    ".toList ++ indent)
  | bar {depth : Nat} {indent : List Char} :
    Indentation (depth + 1) indent → Indentation (depth + 2) ("│   ".toList ++ indent)

/-- The line of a task that the tree comes to. -/
def IsTreeLine (tasks : List Task) (visit : Nat × Nat) (line : List Char) : Prop :=
  ∃ node indent title, nodeOf tasks visit.2 = some node ∧ truncatedTitle node 50 = .ok title ∧
    Indentation visit.1 indent ∧ line = indent ++ nodeText node title

/-- The output ends with the lines of the tasks, and every task is among them. -/
def ShowsTree (fuel : Nat) (tasks : List Task) (out : List (List Char)) : Prop :=
  ∃ above lines, out = above ++ lines ∧
    List.Forall₂ (IsTreeLine tasks) ((treeRoots tasks).flatMap (treeVisits tasks fuel 0)) lines ∧
    ∀ id ∈ nodeIds tasks, ∃ depth,
      (depth, id) ∈ (treeRoots tasks).flatMap (treeVisits tasks fuel 0)

/-- The text between two quotes is all that the quotes enclose: none in it is bare, and the
closing one is not escaped. A backslash escapes what comes after it. -/
def wellQuoted : List Char → Bool
  | [] => true
  | '\\' :: _ :: text => wellQuoted text
  | ['\\'] => false
  | '"' :: _ => false
  | _ :: text => wellQuoted text

def ShowsGraph (tasks : List Task) (out : List (List Char)) : Prop :=
  ∃ lines, out = dotHeader ++ lines ++ dotFooter tasks ∧
    List.Forall₂ (fun node line => ∃ label, line = dotNodeLine node label ∧
      wellQuoted label = true) (dotNodes tasks) lines

/-- All three formats are shown, and as they should be. -/
structure DrawsFaithfully (fuel : Nat) (tasks : List Task) : Prop where
  tree : ∃ out, renderDeps fuel tasks .tree = .ok out ∧ ShowsTree fuel tasks out
  flat : ∃ out, renderDeps fuel tasks .flat = .ok out
  dot : ∃ out, renderDeps fuel tasks .dot = .ok out ∧ ShowsGraph tasks out

/-! ### Titles -/

/-- The title is shown as it is, or else as what comes before a place that lies three bytes below
the limit and between two characters. -/
def ShownAs (maxLen : Nat) (title shown : List Char) : Prop :=
  (byteLength title ≤ maxLen ∧ shown = title) ∨
    maxLen < byteLength title ∧ ∃ before after, title = before ++ after ∧
      byteLength before = maxLen - 3 ∧ shown = before ++ "...".toList

/-- Before each quote, and at the end, there is an even number of backslashes in a row. `odd` says
that there is an odd number of them before the text. -/
def evenBackslashes : Bool → List Char → Bool
  | odd, [] => !odd
  | odd, c :: text =>
    if c = '\\' then evenBackslashes (!odd) text
    else if c = '"' then !odd && evenBackslashes false text
    else evenBackslashes false text

/-- What it takes. -/
structure DrawsPlainly (tasks : List Task) : Prop where
  independent : ∀ node ∈ nodes tasks, nodeDependencies tasks node = []
  tree : ∀ node ∈ nodes tasks, ∃ shown, ShownAs 50 node.title.toList shown
  dot : ∀ node ∈ nodes tasks, node.dependsOn ≠ [] →
    ∃ shown, ShownAs 30 node.title.toList shown ∧ evenBackslashes false shown = true

theorem truncatedTitle_eq_ok_iff {node : Task} {maxLen : Nat} {shown : List Char} :
    truncatedTitle node maxLen = .ok shown ↔ ShownAs maxLen node.title.toList shown := by
  unfold truncatedTitle ShownAs
  split
  · rename_i hfits
    simp only [Except.ok.injEq, hfits, true_and, Nat.not_lt.mpr hfits, false_and, or_false]
    exact eq_comm
  · rename_i hlong
    simp only [hlong, false_and, false_or, Nat.lt_of_not_le hlong, true_and]
    constructor
    · intro h
      split at h
      · rename_i before after hsplit
        obtain ⟨htitle, hbytes⟩ := splitAtByte_eq_some_iff.mp hsplit
        exact ⟨before, after, htitle, hbytes, (Except.ok.inj h).symm⟩
      · cases h
    · rintro ⟨before, after, htitle, hbytes, rfl⟩
      rw [splitAtByte_eq_some_iff.mpr ⟨htitle, hbytes⟩]

theorem escapeQuotes_cons (c : Char) (text : List Char) :
    escapeQuotes (c :: text) = (if c = '"' then ['\\', '"'] else [c]) ++ escapeQuotes text :=
  List.flatMap_cons

theorem wellQuoted_cons {c : Char} (hescape : c ≠ '\\') (hquote : c ≠ '"') (text : List Char) :
    wellQuoted (c :: text) = wellQuoted text := by
  rw [wellQuoted]
  · exact fun _ _ h _ => hescape h
  · exact fun h _ => hescape h
  · exact hquote

/-- With its quotes escaped the text is well quoted if its backslashes come in pairs. -/
theorem wellQuoted_escapeQuotes (text : List Char) :
    wellQuoted (escapeQuotes text) = evenBackslashes false text ∧
      wellQuoted ('\\' :: escapeQuotes text) = evenBackslashes true text := by
  induction text with
  | nil => exact ⟨rfl, rfl⟩
  | cons c text ih =>
    rw [escapeQuotes_cons, evenBackslashes, evenBackslashes]
    by_cases hescape : c = '\\'
    · subst hescape
      exact ⟨ih.2, ih.1⟩
    · by_cases hquote : c = '"'
      · subst hquote
        exact ⟨ih.1, rfl⟩
      · simp only [if_neg hescape, if_neg hquote, List.singleton_append]
        exact ⟨(wellQuoted_cons hescape hquote _).trans ih.1, ih.1⟩

/-- The number of a task needs no escaping. -/
theorem wellQuoted_idText_append (id : Nat) (text : List Char) :
    wellQuoted (idText id ++ ' ' :: text) = wellQuoted text := by
  have hplain : ∀ {chars : List Char}, (∀ c ∈ chars, c ≠ '\\' ∧ c ≠ '"') →
      wellQuoted (chars ++ text) = wellQuoted text := by
    intro chars hchars
    induction chars with
    | nil => rfl
    | cons c chars ih =>
      obtain ⟨⟨hescape, hquote⟩, hchars⟩ := List.forall_mem_cons.mp hchars
      rw [List.cons_append, wellQuoted_cons hescape hquote, ih hchars]
  rw [← List.singleton_append, ← List.append_assoc]
  refine hplain fun c hmem => ?_
  rw [idText, List.mem_append, List.mem_cons, List.mem_singleton, Nat.toString_eq_repr,
    Nat.toList_repr] at hmem
  rcases hmem with (rfl | hmem) | rfl
  · decide
  · have hdigit := Nat.isDigit_of_mem_toDigits (by decide) (by decide) hmem
    exact ⟨by rintro rfl; exact absurd hdigit (by decide),
      by rintro rfl; exact absurd hdigit (by decide)⟩
  · decide

/-! ### Lists of results -/

section

variable {α β γ ε : Type}

theorem forall₂_flatMap {R : β → γ → Prop} {g : α → List β} {as : List α} {lists : List (List γ)}
    (h : List.Forall₂ (fun a list => List.Forall₂ R (g a) list) as lists) :
    List.Forall₂ R (as.flatMap g) lists.flatten := by
  induction h with
  | nil => exact .nil
  | cons hhead _ ih => exact List.rel_append hhead ih

/-- What holds line by line holds of the line of a visit. -/
theorem exists_of_forall₂ {R S : α → β → Prop} {as : List α} {bs : List β} {a : α}
    (hR : List.Forall₂ R as bs) (hS : List.Forall₂ S as bs) (hmem : a ∈ as) :
    ∃ b, R a b ∧ S a b := by
  induction hR with
  | nil => cases hmem
  | cons hhead _ ih =>
    obtain ⟨hS, hrest⟩ := List.forall₂_cons.mp hS
    rcases List.mem_cons.mp hmem with rfl | hmem
    · exact ⟨_, hhead, hS⟩
    · exact ih hrest hmem

end

/-! ### Boards without cycles -/

section

variable {tasks : List Task} {id fuel depth : Nat} {node : Task} {lines : List (List Char)}

theorem mem_nodeIds : id ∈ nodeIds tasks ↔ (nodeOf tasks id).isSome = true := by
  rw [nodeIds, mem_sortedIds, nodeOf, List.find?_isSome]
  simp

theorem mem_nodes : node ∈ nodes tasks ↔ nodeOf tasks node.id = some node := by
  rw [nodes, List.mem_filterMap]
  constructor
  · rintro ⟨id, -, hnode⟩
    obtain rfl : node.id = id := by simpa using List.find?_some hnode
    exact hnode
  · intro hnode
    exact ⟨node.id, mem_nodeIds.mpr (by rw [hnode, Option.isSome_some]), hnode⟩

/-- Without cycles none is found, and from every task the ways along dependencies end. -/
theorem detectCycleForTasks_of_acyclic
    (hacyclic : ∀ walk, ¬ ClosedWalk (dependencyGraph tasks).Links walk) :
    detectCycleForTasks tasks = none ∧
      ∀ id, (nodeOf tasks id).isSome = true → (dependencyGraph tasks).Ends id := by
  unfold detectCycleForTasks
  split
  · rename_i cycle hfound
    have hclosed := Graph.closedWalk_of_findCycle hfound List.nodup_nil List.isChain_nil
      fun _ h => by cases h
    exact absurd hclosed.1 (hacyclic cycle)
  · rename_i visited hok
    have hends := (Graph.ends_of_findCycle hok fun _ h => by cases h).2
    refine ⟨rfl, fun id hid => hends id (mem_nodeIds.mpr hid) ?_⟩
    rwa [neighbors?_eq, Option.isSome_map]

/-- From every task that depends on another, a task with one that waits for it can be reached that
waits for none itself. -/
theorem exists_root_with_child (hends : (dependencyGraph tasks).Ends id)
    (hparent : hasParent tasks id = true) :
    ∃ root ∈ treeRoots tasks, ∃ child, child ∈ childIds tasks root := by
  induction hends with
  | intro id _ ih =>
    obtain ⟨node, hnode, hdeps⟩ := (Option.any_eq_true _ _).mp hparent
    obtain ⟨dep, hdep⟩ := List.exists_mem_of_ne_nil _ (of_decide_eq_true hdeps)
    have hlinks : (dependencyGraph tasks).Links id dep :=
      (links_iff hnode).mpr (List.mem_filter.mp hdep)
    by_cases hdepParent : hasParent tasks dep = true
    · exact ih dep hlinks hdepParent
    · refine ⟨dep, List.mem_filter.mpr ⟨mem_nodeIds.mpr (List.mem_filter.mp hdep).2, ?_⟩, id,
        List.mem_filter.mpr ⟨mem_nodeIds.mpr (by rw [hnode, Option.isSome_some]), ?_⟩⟩
      · simpa using hdepParent
      · rw [hnode, Option.any_some]
        exact decide_eq_true hdep

/-! ### Trees without indentation -/

theorem map_fst_markLast (ids : List Nat) : (markLast ids).map Prod.fst = ids := by
  rw [markLast, List.map_map]
  exact List.zipIdx_map_fst _ _

theorem flatMap_markLast {β : Type} (g : Nat → List β) (ids : List Nat) :
    (markLast ids).flatMap (fun child => g child.1) = ids.flatMap g := by
  conv_rhs => rw [← map_fst_markLast ids, List.flatMap_map]

theorem renderTreeNode_eq_ok_iff {isLast : Bool} (hnode : nodeOf tasks id = some node) :
    renderTreeNode tasks (fuel + 1) id [] isLast = .ok lines ↔
      ∃ title below, truncatedTitle node 50 = .ok title ∧
        (markLast (childIds tasks id)).mapM
          (fun child => renderTreeNode tasks fuel child.1 [] child.2) = .ok below ∧
        lines = nodeText node title :: below.flatten := by
  simp only [renderTreeNode, hnode, if_true, List.nil_append, bind_eq_ok_iff, exists_and_left]
  refine exists_congr fun title => and_congr_right fun _ => exists_congr fun below =>
    and_congr_right fun _ => ?_
  exact ⟨fun h => (Except.ok.inj h).symm, fun h => h ▸ rfl⟩

/-- A tree that starts without indentation has none anywhere. -/
theorem forall₂_renderTreeNode {isLast : Bool} (depth : Nat)
    (h : renderTreeNode tasks fuel id [] isLast = .ok lines) :
    List.Forall₂ (fun visit line => ∃ node title, nodeOf tasks visit.2 = some node ∧
        truncatedTitle node 50 = .ok title ∧ line = nodeText node title)
      (treeVisits tasks fuel depth id) lines := by
  induction fuel generalizing id isLast lines depth with
  | zero => cases h
  | succ fuel ih =>
    rw [treeVisits]
    cases hnode : nodeOf tasks id with
    | none =>
      rw [renderTreeNode, hnode] at h
      obtain rfl := Except.ok.inj h
      exact .nil
    | some node =>
      obtain ⟨title, below, htitle, hbelow, rfl⟩ := (renderTreeNode_eq_ok_iff hnode).mp h
      rw [if_pos (by rfl), ← flatMap_markLast]
      refine .cons ⟨node, title, hnode, htitle, rfl⟩ (forall₂_flatMap ?_)
      exact (mapM_eq_ok_iff.mp hbelow).imp fun child _ hchild => ih (depth + 1) hchild

/-- What a task is shown as is not indented. -/
theorem not_indented_nodeText {node' : Task} {indent title title' : List Char}
    (hindent : Indentation (depth + 1) indent) :
    nodeText node title ≠ indent ++ nodeText node' title' := by
  have hstart : ∃ rest, nodeText node title = '[' :: rest := by
    unfold nodeText statusIndicator
    split <;> exact ⟨_, rfl⟩
  obtain ⟨rest, hrest⟩ := hstart
  rw [hrest]
  cases hindent <;> exact fun h => absurd (List.cons.inj h).1 (by decide)

/-- The last lines of the output are those of the tasks, without indentation. -/
theorem forall₂_of_renderTree {out above : List (List Char)} (hroots : treeRoots tasks ≠ [])
    (hout : renderTree fuel tasks = .ok out) (hlines : out = above ++ lines)
    (hlength : ((treeRoots tasks).flatMap (treeVisits tasks fuel 0)).length = lines.length) :
    List.Forall₂ (fun visit line => ∃ node title, nodeOf tasks visit.2 = some node ∧
        truncatedTitle node 50 = .ok title ∧ line = nodeText node title)
      ((treeRoots tasks).flatMap (treeVisits tasks fuel 0)) lines := by
  rw [renderTree, if_neg fun h => hroots h.1] at hout
  simp only [bind_eq_ok_iff] at hout
  obtain ⟨blocked, -, critical, -, trees, htrees, heq⟩ := hout
  have hplain := forall₂_flatMap ((mapM_eq_ok_iff.mp htrees).imp fun root _ hroot =>
    forall₂_renderTreeNode 0 hroot)
  obtain rfl := Except.ok.inj heq
  rw [List.append_cons] at hlines
  rwa [List.append_inj_right' hlines (hplain.length_eq.symm.trans hlength)] at hplain

theorem mem_treeVisits_self {isLast : Bool} (hid : id ∈ nodeIds tasks)
    (h : renderTreeNode tasks fuel id [] isLast = .ok lines) :
    (depth, id) ∈ treeVisits tasks fuel depth id := by
  cases fuel with
  | zero => cases h
  | succ fuel =>
    rw [treeVisits, if_pos (mem_nodeIds.mp hid)]
    exact List.mem_cons_self

/-- The tree comes to what depends on a root. -/
theorem mem_treeVisits_child {out : List (List Char)} {root child : Nat}
    (hout : renderTree fuel tasks = .ok out) (hroot : root ∈ treeRoots tasks)
    (hchild : child ∈ childIds tasks root) :
    (1, child) ∈ (treeRoots tasks).flatMap (treeVisits tasks fuel 0) := by
  rw [renderTree, if_neg fun h => List.ne_nil_of_mem hroot h.1] at hout
  simp only [bind_eq_ok_iff] at hout
  obtain ⟨_, -, _, -, trees, htrees, -⟩ := hout
  have htrees := mapM_eq_ok_iff.mp htrees
  obtain ⟨tree, htree, -⟩ := exists_of_forall₂ htrees htrees hroot
  have hsome := mem_nodeIds.mp (List.mem_filter.mp hroot).1
  obtain ⟨node, hnode⟩ := Option.isSome_iff_exists.mp hsome
  refine List.mem_flatMap.mpr ⟨root, hroot, ?_⟩
  cases fuel with
  | zero => cases htree
  | succ fuel =>
    obtain ⟨-, below, -, hbelow, -⟩ := (renderTreeNode_eq_ok_iff hnode).mp htree
    rw [treeVisits, if_pos hsome]
    refine List.mem_cons_of_mem _ (List.mem_flatMap.mpr ⟨child, hchild, ?_⟩)
    obtain ⟨⟨_, isLast⟩, hmark, rfl⟩ := List.mem_map.mp
      ((map_fst_markLast (childIds tasks root)).symm ▸ hchild)
    have hbelow := mapM_eq_ok_iff.mp hbelow
    obtain ⟨subtree, hsubtree, -⟩ := exists_of_forall₂ hbelow hbelow hmark
    exact mem_treeVisits_self (List.mem_filter.mp hchild).1 hsubtree

end

/-! ### Which boards are drawn faithfully -/

section

variable {tasks : List Task} {fuel : Nat}

theorem drawsPlainly_of_drawsFaithfully
    (hacyclic : ∀ walk, ¬ ClosedWalk (dependencyGraph tasks).Links walk)
    (h : DrawsFaithfully fuel tasks) : DrawsPlainly tasks := by
  obtain ⟨hcycle, hends⟩ := detectCycleForTasks_of_acyclic hacyclic
  obtain ⟨out, hout, above, lines, hlines, hdrawn, hall⟩ := h.tree
  obtain ⟨dotOut, hdotOut, dotLines, hdotLines, hgraph⟩ := h.dot
  simp only [renderDeps, hcycle] at hout hdotOut
  have hindependent : ∀ node ∈ nodes tasks, nodeDependencies tasks node = [] := by
    intro node hnode
    by_contra hdeps
    have hid : nodeOf tasks node.id = some node := mem_nodes.mp hnode
    obtain ⟨root, hroot, child, hchild⟩ := exists_root_with_child
      (hends node.id (by rw [hid, Option.isSome_some])) (by simp [hasParent, hid, hdeps])
    have hplain := forall₂_of_renderTree (List.ne_nil_of_mem hroot) hout hlines hdrawn.length_eq
    obtain ⟨line, ⟨other, indent, title, -, -, hindent, rfl⟩, node', title', -, -, heq⟩ :=
      exists_of_forall₂ hdrawn hplain (mem_treeVisits_child hout hroot hchild)
    exact not_indented_nodeText hindent heq.symm
  refine ⟨hindependent, fun node hnode => ?_, fun node hnode hdeps => ?_⟩
  · have hid : nodeOf tasks node.id = some node := mem_nodes.mp hnode
    obtain ⟨depth, hvisit⟩ := hall node.id (mem_nodeIds.mpr (by rw [hid, Option.isSome_some]))
    obtain ⟨line, ⟨other, indent, title, hother, htitle, -⟩, -⟩ :=
      exists_of_forall₂ hdrawn hdrawn hvisit
    obtain rfl := Option.some.inj (hid.symm.trans hother)
    exact ⟨title, truncatedTitle_eq_ok_iff.mp htitle⟩
  · obtain ⟨nodeLines, hnodeLines, hrest⟩ := bind_eq_ok_iff.mp hdotOut
    obtain rfl := Except.ok.inj hrest
    rw [List.append_left_inj, List.append_right_inj] at hdotLines
    subst hdotLines
    have hshown : node ∈ dotNodes tasks := by
      rw [dotNodes, List.mem_filter]
      simp [hnode, hdeps]
    obtain ⟨line, hline, label, hlabel, hquoted⟩ :=
      exists_of_forall₂ (mapM_eq_ok_iff.mp hnodeLines) hgraph hshown
    obtain ⟨title, htitle, htext⟩ := bind_eq_ok_iff.mp hline
    obtain rfl := Except.ok.inj htext
    refine ⟨title, truncatedTitle_eq_ok_iff.mp htitle, ?_⟩
    unfold dotNodeLine at hlabel
    simp only [List.append_left_inj, List.append_right_inj] at hlabel
    rw [← hlabel, wellQuoted_idText_append, (wellQuoted_escapeQuotes title).1] at hquoted
    exact hquoted

/-! ### A board without dependencies -/

section

variable (hindependent : ∀ node ∈ nodes tasks, nodeDependencies tasks node = [])
include hindependent

theorem nodeDependencies_of_nodeOf {id : Nat} {node : Task} (hnode : nodeOf tasks id = some node) :
    nodeDependencies tasks node = [] := by
  obtain rfl : node.id = id := by simpa using List.find?_some hnode
  exact hindependent node (mem_nodes.mpr hnode)

/-- Every task is a root by itself. -/
theorem treeRoots_of_independent : treeRoots tasks = nodeIds tasks := by
  refine List.filter_eq_self.mpr fun id _ => ?_
  cases hnode : nodeOf tasks id with
  | none => simp [hasParent, hnode]
  | some node => simp [hasParent, hnode, nodeDependencies_of_nodeOf hindependent hnode]

theorem childIds_of_independent (id : Nat) : childIds tasks id = [] := by
  refine List.filter_eq_nil_iff.mpr fun child _ => ?_
  cases hnode : nodeOf tasks child with
  | none => simp
  | some node => simp [nodeDependencies_of_nodeOf hindependent hnode]

theorem blockedChainLines_of_independent : blockedChainLines tasks = .ok [] := by
  refine if_pos ?_
  rw [findBlockedChains, List.eq_nil_iff_forall_not_mem]
  intro chain hmem
  obtain ⟨node, hnode, hchain⟩ := List.mem_flatMap.mp ((List.mem_insertionSort _).mp hmem)
  obtain ⟨dep, hdep, -⟩ := List.mem_map.mp hchain
  obtain ⟨hmem, hopen⟩ := List.mem_filter.mp hdep
  have hlisted : dep ∈ nodeDependencies tasks node :=
    List.mem_filter.mpr ⟨hmem, Option.isSome_of_any hopen⟩
  rw [hindependent node (List.mem_filter.mp hnode).1] at hlisted
  cases hlisted

end

theorem exists_criticalPathLines
    (hacyclic : ∀ walk, ¬ ClosedWalk (dependencyGraph tasks).Links walk)
    (hfuel : tasks.length < fuel) : ∃ lines, criticalPathLines fuel tasks = .ok lines := by
  obtain ⟨path, memo, hpath, -⟩ := exists_findCriticalPath hacyclic hfuel
  rw [criticalPathLines, hpath]
  dsimp only
  split
  · exact ⟨_, rfl⟩
  · exact ⟨_, rfl⟩

/-- The tree of a root is the root. -/
theorem exists_renderTreeNode_of_drawsPlainly (h : DrawsPlainly tasks) {root : Nat}
    (hroot : root ∈ treeRoots tasks) :
    ∃ node title, nodeOf tasks root = some node ∧ truncatedTitle node 50 = .ok title ∧
      treeVisits tasks (fuel + 1) 0 root = [(0, root)] ∧
      renderTreeNode tasks (fuel + 1) root [] true = .ok [nodeText node title] := by
  have hsome := mem_nodeIds.mp (treeRoots_of_independent h.independent ▸ hroot)
  obtain ⟨node, hnode⟩ := Option.isSome_iff_exists.mp hsome
  obtain rfl : node.id = root := by simpa using List.find?_some hnode
  obtain ⟨title, htitle⟩ := h.tree node (mem_nodes.mpr hnode)
  have htitle := truncatedTitle_eq_ok_iff.mpr htitle
  refine ⟨node, title, hnode, htitle, ?_, ?_⟩
  · rw [treeVisits, if_pos hsome, childIds_of_independent h.independent]
    rfl
  · rw [renderTreeNode_eq_ok_iff hnode, childIds_of_independent h.independent]
    exact ⟨title, [], htitle, rfl, rfl⟩

theorem showsTree_of_drawsPlainly
    (hacyclic : ∀ walk, ¬ ClosedWalk (dependencyGraph tasks).Links walk)
    (hfuel : tasks.length < fuel) (h : DrawsPlainly tasks) :
    ∃ out, renderTree fuel tasks = .ok out ∧ ShowsTree fuel tasks out := by
  have hroots := treeRoots_of_independent h.independent
  have hblocked := blockedChainLines_of_independent h.independent
  obtain ⟨critical, hcritical⟩ := exists_criticalPathLines hacyclic hfuel
  obtain ⟨fuel, rfl⟩ := Nat.exists_eq_succ_of_ne_zero (Nat.ne_of_gt (Nat.zero_lt_of_lt hfuel))
  obtain ⟨trees, htrees⟩ := exists_mapM_eq_ok fun root hroot => by
    obtain ⟨node, title, -, -, -, hlines⟩ :=
      @exists_renderTreeNode_of_drawsPlainly tasks fuel h root hroot
    exact ⟨_, hlines⟩
  refine ⟨[] ++ critical ++ "Dependency tree:".toList :: trees.flatten, ?_,
    [] ++ critical ++ ["Dependency tree:".toList], trees.flatten, by simp, ?_, ?_⟩
  · rw [renderTree, if_neg]
    · exact bind_eq_ok_iff.mpr ⟨[], hblocked, bind_eq_ok_iff.mpr ⟨critical, hcritical,
        bind_eq_ok_iff.mpr ⟨trees, htrees, rfl⟩⟩⟩
    · rintro ⟨hnone, hsome⟩
      rw [hroots] at hnone
      rw [nodes, hnone] at hsome
      exact hsome rfl
  · refine forall₂_flatMap (forall₂_mapM htrees fun root hroot lines hlines => ?_)
    obtain ⟨node, title, hnode, htitle, hvisits, hshown⟩ :=
      @exists_renderTreeNode_of_drawsPlainly tasks fuel h root hroot
    obtain rfl := Except.ok.inj (hlines.symm.trans hshown)
    rw [hvisits]
    exact .cons ⟨node, [], title, hnode, htitle, .root, rfl⟩ .nil
  · intro id hid
    rw [← hroots] at hid
    obtain ⟨-, -, -, -, hvisits, -⟩ := @exists_renderTreeNode_of_drawsPlainly tasks fuel h id hid
    exact ⟨0, List.mem_flatMap.mpr ⟨id, hid, by rw [hvisits]; exact List.mem_cons_self⟩⟩

/-- A task that the graph shows lists a dependency, which is not on the board. -/
theorem exists_title_of_mem_dotNodes (h : DrawsPlainly tasks) {node : Task}
    (hnode : node ∈ dotNodes tasks) :
    ∃ title, truncatedTitle node 30 = .ok title ∧ evenBackslashes false title = true := by
  obtain ⟨hmem, hlinked⟩ := List.mem_filter.mp hnode
  have hsome : node.dependsOn ≠ [] := by
    intro hnone
    rw [hnone] at hlinked
    obtain ⟨other, hother, hdep⟩ : ∃ other ∈ nodes tasks, node.id ∈ other.dependsOn := by
      simpa using hlinked
    have hlisted : node.id ∈ nodeDependencies tasks other := by
      refine List.mem_filter.mpr ⟨hdep, ?_⟩
      rw [mem_nodes.mp hmem, Option.isSome_some]
    rw [h.independent other hother] at hlisted
    cases hlisted
  obtain ⟨title, htitle, heven⟩ := h.dot node hmem hsome
  exact ⟨title, truncatedTitle_eq_ok_iff.mpr htitle, heven⟩

theorem showsGraph_of_drawsPlainly (h : DrawsPlainly tasks) :
    ∃ out, renderDot tasks = .ok out ∧ ShowsGraph tasks out := by
  have hlines : ∃ lines, (dotNodes tasks).mapM renderDotNode = .ok lines := by
    refine exists_mapM_eq_ok fun node hnode => ?_
    obtain ⟨title, htitle, -⟩ := exists_title_of_mem_dotNodes h hnode
    exact ⟨_, bind_eq_ok_iff.mpr ⟨title, htitle, rfl⟩⟩
  obtain ⟨lines, hlines⟩ := hlines
  refine ⟨dotHeader ++ lines ++ dotFooter tasks, bind_eq_ok_iff.mpr ⟨lines, hlines, rfl⟩, lines,
    rfl, ?_⟩
  refine forall₂_mapM hlines fun node hnode line hline => ?_
  obtain ⟨title, htitle, heven⟩ := exists_title_of_mem_dotNodes h hnode
  obtain ⟨_, htitle', heq⟩ := bind_eq_ok_iff.mp hline
  obtain rfl := Except.ok.inj (htitle.symm.trans htitle')
  refine ⟨_, (Except.ok.inj heq).symm, ?_⟩
  rw [wellQuoted_idText_append, (wellQuoted_escapeQuotes title).1, heven]

theorem drawsFaithfully_of_drawsPlainly
    (hacyclic : ∀ walk, ¬ ClosedWalk (dependencyGraph tasks).Links walk)
    (hfuel : tasks.length < fuel) (h : DrawsPlainly tasks) : DrawsFaithfully fuel tasks := by
  obtain ⟨hcycle, -⟩ := detectCycleForTasks_of_acyclic hacyclic
  refine ⟨?_, ⟨renderFlat tasks, by simp only [renderDeps, hcycle]⟩, ?_⟩
  · simpa only [renderDeps, hcycle] using showsTree_of_drawsPlainly hacyclic hfuel h
  · simpa only [renderDeps, hcycle] using showsGraph_of_drawsPlainly h

/-- **Which boards** are drawn faithfully. -/
theorem drawsFaithfully_iff (tasks : List Task)
    (hacyclic : ∀ walk, ¬ ClosedWalk (dependencyGraph tasks).Links walk) (fuel : Nat)
    (hfuel : tasks.length < fuel) : DrawsFaithfully fuel tasks ↔ DrawsPlainly tasks :=
  ⟨drawsPlainly_of_drawsFaithfully hacyclic, drawsFaithfully_of_drawsPlainly hacyclic hfuel⟩

end

/-- A task with a long title, of one byte and then of characters of two, that waits for a task that
is not there. -/
def longTitled : Task :=
  { taskDependingOn 1 [9] with title := "→ \"résumé\" ééééééééééééééééééééééé" }

/-- The long title is cut in the tree and in the graph, and its quotes are escaped. -/
theorem drawsFaithfully_iff_longTitled :
    DrawsFaithfully 4 [longTitled, taskDependingOn 2 [], taskDependingOn 3 []] := by
  refine (drawsFaithfully_iff _ (acyclic_of_lt (by decide)) 4 (by decide)).mpr ?_
  have hnodes : nodes [longTitled, taskDependingOn 2 [], taskDependingOn 3 []] =
      [longTitled, taskDependingOn 2 [], taskDependingOn 3 []] := rfl
  constructor <;> rw [hnodes] <;> simp only [List.forall_mem_cons]
  · exact ⟨rfl, rfl, rfl, List.forall_mem_nil _⟩
  · refine ⟨⟨_, .inr ⟨by decide, _, _, (List.take_append_drop 27 _).symm, by decide, rfl⟩⟩,
      ⟨_, .inl ⟨by decide, rfl⟩⟩, ⟨_, .inl ⟨by decide, rfl⟩⟩, List.forall_mem_nil _⟩
  · refine ⟨fun _ => ⟨_, .inr ⟨by decide, _, _, (List.take_append_drop 17 _).symm, by decide, rfl⟩,
      by decide⟩, fun hdeps => absurd rfl hdeps, fun hdeps => absurd rfl hdeps,
      List.forall_mem_nil _⟩

/-- A task that waits for another one has no branch in the tree. -/
theorem not_drawsFaithfully : ¬ ∀ tasks : List Task,
    (∀ walk, ¬ ClosedWalk (dependencyGraph tasks).Links walk) → ∀ fuel, tasks.length < fuel →
      DrawsFaithfully fuel tasks := by
  intro h
  have hacyclic := @acyclic_of_lt [taskDependingOn 1 [2], taskDependingOn 2 []] (by decide)
  have hplain := drawsPlainly_of_drawsFaithfully hacyclic (h _ hacyclic 3 (by decide))
  exact absurd (hplain.independent (taskDependingOn 1 [2]) (mem_nodes.mpr rfl)) (by decide)

end Batty
