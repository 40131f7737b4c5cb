import Mathlib.Data.List.Basic

/-!
# Search patterns

A pattern is searched for from left to right, and at each place in the order in which it is
written: the first branch of a choice before the second, one more repetition before stopping where
the repetition is eager, and after it where it is not. `ways` lists all that a pattern can take at a
place in this order; the search takes the first of the first place that has one.

What a group of a pattern captures was taken by the body of that group (`captures_of_mem_groups`).
-/

namespace Batty

/-- A regular expression over signs, with groups and lazy repetition. -/
inductive Pattern (α : Type) where
  | empty
  | start
  | finish
  | sign (p : α → Bool)
  | seq (first second : Pattern α)
  | choice (first second : Pattern α)
  | many (eager : Bool) (body : Pattern α)
  | group (index : Nat) (body : Pattern α)

namespace Pattern

/-- What was taken, what the groups captured of it, and what is left. -/
structure Found (α : Type) where
  matched : List α
  groups : List (Nat × List α)
  rest : List α

variable {α : Type}

namespace Found

def nothing (s : List α) : Found α := { matched := [], groups := [], rest := s }

/-- Two findings in a row. -/
def andThen (found next : Found α) : Found α where
  matched := found.matched ++ next.matched
  groups := found.groups ++ next.groups
  rest := next.rest

def capture (index : Nat) (found : Found α) : Found α :=
  { found with groups := found.groups ++ [(index, found.matched)] }

/-- The text of a group; of its last repetition, where there are several. -/
def get? (found : Found α) (index : Nat) : Option (List α) :=
  (found.groups.reverse.find? fun entry => entry.1 = index).map Prod.snd

end Found

/-- A repetition that took nothing is not repeated. -/
def repeats (body : Bool → List α → List (Found α)) (eager : Bool) :
    Nat → Bool → List α → List (Found α)
  | 0, _, s => [.nothing s]
  | fuel + 1, atStart, s =>
    let further := (body atStart s).flatMap fun found =>
      if found.matched.isEmpty then []
      else (repeats body eager fuel false found.rest).map found.andThen
    if eager then further ++ [.nothing s] else .nothing s :: further

/-- Every way to take the pattern at a place, in the order of the search. -/
def ways : Pattern α → Bool → List α → List (Found α)
  | empty, _, s => [.nothing s]
  | start, atStart, s => if atStart then [.nothing s] else []
  | finish, _, s => if s.isEmpty then [.nothing s] else []
  | sign _, _, [] => []
  | sign p, _, c :: s => if p c then [{ matched := [c], groups := [], rest := s }] else []
  | seq first second, atStart, s =>
    (first.ways atStart s).flatMap fun found =>
      (second.ways (atStart && found.matched.isEmpty) found.rest).map found.andThen
  | choice first second, atStart, s => first.ways atStart s ++ second.ways atStart s
  | many eager body, atStart, s => repeats body.ways eager s.length atStart s
  | group index body, atStart, s => (body.ways atStart s).map (Found.capture index)

def findFrom (pattern : Pattern α) : Bool → List α → Option (Found α)
  | atStart, [] => (pattern.ways atStart []).head?
  | atStart, c :: s => (pattern.ways atStart (c :: s)).head? <|> pattern.findFrom false s

/-- The first place where the pattern can be taken. -/
def find (pattern : Pattern α) (s : List α) : Option (Found α) := pattern.findFrom true s

def findAllFrom (pattern : Pattern α) : Nat → Bool → List α → List (Found α)
  | 0, _, _ => []
  | fuel + 1, atStart, s =>
    match pattern.findFrom atStart s with
    | none => []
    | some found => found :: pattern.findAllFrom fuel false found.rest

/-- One finding after the other, each behind the last. -/
def findAll (pattern : Pattern α) (s : List α) : List (Found α) :=
  pattern.findAllFrom (s.length + 1) true s

/-! ### Composed patterns -/

def literal [DecidableEq α] (word : List α) : Pattern α :=
  word.foldr (fun c pattern => seq (sign fun d => d = c) pattern) empty

def some1 (eager : Bool) (body : Pattern α) : Pattern α := seq body (many eager body)

def opt (body : Pattern α) : Pattern α := choice body empty

/-- The patterns one after the other. -/
def chain (patterns : List (Pattern α)) : Pattern α := patterns.foldr seq empty

/-! ### What is taken -/

section

variable {pattern first second body : Pattern α} {p : α → Bool} {atStart eager : Bool}
  {s : List α} {found : Found α}

theorem mem_ways_seq : found ∈ (seq first second).ways atStart s ↔
    ∃ fst ∈ first.ways atStart s,
      ∃ snd ∈ second.ways (atStart && fst.matched.isEmpty) fst.rest, fst.andThen snd = found := by
  simp [ways]

theorem mem_ways_group {index : Nat} : found ∈ (group index body).ways atStart s ↔
    ∃ inner ∈ body.ways atStart s, inner.capture index = found := by
  simp [ways]

/-- **Repetition**: what holds of nothing, and of one more repetition in front of what it holds of,
holds of all that a repeated pattern takes. -/
theorem repeats_induction {ways : Bool → List α → List (Found α)} {motive : List α → Found α → Prop}
    (hnothing : ∀ s, motive s (.nothing s))
    (hfurther : ∀ atStart s, ∀ once ∈ ways atStart s, ∀ more, motive once.rest more →
      motive s (once.andThen more)) :
    ∀ fuel atStart s, ∀ found ∈ repeats ways eager fuel atStart s, motive s found := by
  intro fuel
  induction fuel with
  | zero =>
    intro atStart s found hfound
    rw [repeats, List.mem_singleton] at hfound
    exact hfound ▸ hnothing s
  | succ fuel ih =>
    intro atStart s found hfound
    have hcases : found = .nothing s ∨ ∃ once ∈ ways atStart s,
        ∃ more ∈ repeats ways eager fuel false once.rest, once.andThen more = found := by
      rw [repeats] at hfound
      cases eager <;> simp only [List.mem_append, List.mem_flatMap, List.mem_cons,
        List.not_mem_nil, or_false, Bool.false_eq_true, if_false, if_true] at hfound
      · refine hfound.imp id fun ⟨once, honce, hmore⟩ => ⟨once, honce, ?_⟩
        split at hmore
        · exact absurd hmore List.not_mem_nil
        · exact List.mem_map.mp hmore
      · refine hfound.symm.imp id fun ⟨once, honce, hmore⟩ => ⟨once, honce, ?_⟩
        split at hmore
        · exact absurd hmore List.not_mem_nil
        · exact List.mem_map.mp hmore
    rcases hcases with rfl | ⟨once, honce, more, hmore, rfl⟩
    · exact hnothing s
    · exact hfurther atStart s once honce more (ih false once.rest more hmore)

theorem matched_some1_sign (h : found ∈ (some1 eager (sign p)).ways atStart s) :
    ∀ c ∈ found.matched, p c = true := by
  have hsign : ∀ atStart s, ∀ once ∈ (sign p).ways atStart s, ∀ c ∈ once.matched, p c = true := by
    intro atStart s once honce c hc
    cases s with
    | nil => exact absurd honce List.not_mem_nil
    | cons d s =>
      rw [ways, List.mem_ite_nil_right, List.mem_singleton] at honce
      rw [honce.2, List.mem_singleton] at hc
      exact hc ▸ honce.1
  obtain ⟨fst, hfst, snd, hsnd, rfl⟩ := mem_ways_seq.mp h
  have hmany : ∀ c ∈ snd.matched, p c = true :=
    repeats_induction (motive := fun _ found => ∀ c ∈ found.matched, p c = true)
      (fun s c hc => absurd hc List.not_mem_nil)
      (fun atStart s once honce more hmore c hc => (List.mem_append.mp hc).elim
        (hsign atStart s once honce c) (hmore c)) _ _ _ _ hsnd
  intro c hc
  exact (List.mem_append.mp hc).elim (hsign _ _ fst hfst c) (hmany c)

/-! ### What is captured -/

/-- The groups that are written in the pattern. -/
def bodies : Pattern α → List (Nat × Pattern α)
  | seq first second => first.bodies ++ second.bodies
  | choice first second => first.bodies ++ second.bodies
  | many _ body => body.bodies
  | group index body => body.bodies ++ [(index, body)]
  | _ => []

/-- The body of a group of that number takes the text. -/
def Captures (pattern : Pattern α) (entry : Nat × List α) : Prop :=
  ∃ body, (entry.1, body) ∈ pattern.bodies ∧
    ∃ atStart s, ∃ found ∈ body.ways atStart s, found.matched = entry.2

theorem Found.mem_groups_of_get? {index : Nat} {text : List α}
    (h : found.get? index = some text) : (index, text) ∈ found.groups := by
  obtain ⟨entry, hfind, rfl⟩ := Option.map_eq_some_iff.mp h
  have hindex := List.find?_some hfind
  rw [decide_eq_true_eq] at hindex
  rw [← hindex]
  exact List.mem_reverse.mp (List.mem_of_find?_eq_some hfind)

theorem captures_of_mem_groups (h : found ∈ pattern.ways atStart s) :
    ∀ entry ∈ found.groups, pattern.Captures entry := by
  induction pattern generalizing atStart s found with
  | empty =>
    rw [ways, List.mem_singleton] at h
    simp [h, Found.nothing]
  | start =>
    rw [ways, List.mem_ite_nil_right, List.mem_singleton] at h
    simp [h.2, Found.nothing]
  | finish =>
    rw [ways, List.mem_ite_nil_right, List.mem_singleton] at h
    simp [h.2, Found.nothing]
  | sign p =>
    cases s with
    | nil => exact absurd h List.not_mem_nil
    | cons c s =>
      rw [ways, List.mem_ite_nil_right, List.mem_singleton] at h
      simp [h.2]
  | seq first second ihFirst ihSecond =>
    obtain ⟨fst, hfst, snd, hsnd, rfl⟩ := mem_ways_seq.mp h
    intro entry hentry
    rcases List.mem_append.mp hentry with hentry | hentry
    · obtain ⟨body, hbody, htaken⟩ := ihFirst hfst entry hentry
      exact ⟨body, List.mem_append_left _ hbody, htaken⟩
    · obtain ⟨body, hbody, htaken⟩ := ihSecond hsnd entry hentry
      exact ⟨body, List.mem_append_right _ hbody, htaken⟩
  | choice first second ihFirst ihSecond =>
    intro entry hentry
    rcases List.mem_append.mp h with h | h
    · obtain ⟨body, hbody, htaken⟩ := ihFirst h entry hentry
      exact ⟨body, List.mem_append_left _ hbody, htaken⟩
    · obtain ⟨body, hbody, htaken⟩ := ihSecond h entry hentry
      exact ⟨body, List.mem_append_right _ hbody, htaken⟩
  | many eager body ih =>
    exact repeats_induction (motive := fun _ found => ∀ entry ∈ found.groups, body.Captures entry)
      (fun s entry hentry => absurd hentry List.not_mem_nil)
      (fun atStart s once honce more hmore entry hentry => (List.mem_append.mp hentry).elim
        (ih honce entry) (hmore entry)) _ _ _ _ h
  | group index body ih =>
    obtain ⟨inner, hinner, rfl⟩ := mem_ways_group.mp h
    intro entry hentry
    rcases List.mem_append.mp hentry with hentry | hentry
    · obtain ⟨body', hbody, htaken⟩ := ih hinner entry hentry
      exact ⟨body', List.mem_append_left _ hbody, htaken⟩
    · rw [List.mem_singleton.mp hentry]
      exact ⟨body, List.mem_append_right _ (List.mem_singleton.mpr rfl), atStart, s, inner, hinner,
        rfl⟩

end

/-! ### Searching -/

section

variable {pattern : Pattern α} {s : List α} {found : Found α}

/-- What was passed over stands in front of the finding. -/
theorem exists_ways_of_findFrom {atStart : Bool} (h : pattern.findFrom atStart s = some found) :
    ∃ before after atStart, s = before ++ after ∧ found ∈ pattern.ways atStart after := by
  induction s generalizing atStart with
  | nil => exact ⟨[], [], atStart, rfl, List.mem_of_head? h⟩
  | cons c s ih =>
    rw [findFrom] at h
    cases hhead : (pattern.ways atStart (c :: s)).head? with
    | none =>
      rw [hhead] at h
      obtain ⟨before, after, atStart, rfl, hfound⟩ := ih h
      exact ⟨c :: before, after, atStart, rfl, hfound⟩
    | some found' =>
      rw [hhead] at h
      obtain rfl : found' = found := Option.some.inj h
      exact ⟨[], c :: s, atStart, rfl, List.mem_of_head? hhead⟩

theorem exists_ways_of_mem_findAll (h : found ∈ pattern.findAll s) :
    ∃ atStart s, found ∈ pattern.ways atStart s := by
  have hall : ∀ fuel atStart s, ∀ found ∈ pattern.findAllFrom fuel atStart s,
      ∃ atStart s, found ∈ pattern.ways atStart s := by
    intro fuel
    induction fuel with
    | zero => exact fun _ _ found hfound => absurd hfound List.not_mem_nil
    | succ fuel ih =>
      intro atStart s found hfound
      rw [findAllFrom] at hfound
      split at hfound
      · exact absurd hfound List.not_mem_nil
      · rename_i first hfirst
        rcases List.mem_cons.mp hfound with rfl | hfound
        · obtain ⟨-, after, atStart, -, hways⟩ := exists_ways_of_findFrom hfirst
          exact ⟨atStart, after, hways⟩
        · exact ih false first.rest found hfound
  exact hall _ _ _ found h

/-- The first of all findings is the one that a single search has. -/
theorem head?_findAll (pattern : Pattern α) (s : List α) :
    (pattern.findAll s).head? = pattern.find s := by
  rw [findAll, findAllFrom, find]
  split <;> simp [*]

end

end Pattern

end Batty
