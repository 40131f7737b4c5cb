import Mathlib.Data.List.Infix

/-!
# The first occurrence

A sequence is cut at the first place where another one stands in it. What is found is an
occurrence (`eq_of_splitOnce`), nothing is found only if there is none (`splitOnce_eq_none_iff`),
and a sequence that was put together around a mark is cut at that mark if the mark does not stand
in what comes before it (`splitOnce_append`).
-/

namespace Batty

variable {α : Type} [DecidableEq α]

/-- What comes before the first occurrence of `sub`, and what comes after it. -/
def splitOnce (sub : List α) : List α → Option (List α × List α)
  | [] => if sub = [] then some ([], []) else none
  | c :: s =>
    if sub <+: c :: s then some ([], (c :: s).drop sub.length)
    else (splitOnce sub s).map fun (before, after) => (c :: before, after)

section

variable {sub s before after : List α}

theorem eq_of_splitOnce (h : splitOnce sub s = some (before, after)) :
    s = before ++ sub ++ after := by
  induction s generalizing before with
  | nil =>
    rw [splitOnce, Option.ite_none_right_eq_some] at h
    obtain ⟨rfl, h⟩ := h
    cases h
    rfl
  | cons c s ih =>
    rw [splitOnce] at h
    split at h
    · rename_i hsub
      cases h
      exact (List.prefix_iff_eq_append.mp hsub).symm
    · obtain ⟨⟨before, after⟩, hrest, heq⟩ := Option.map_eq_some_iff.mp h
      cases heq
      rw [ih hrest, List.cons_append, List.cons_append]

theorem splitOnce_eq_none_iff : splitOnce sub s = none ↔ ¬ sub <:+: s := by
  induction s with
  | nil => simp [splitOnce]
  | cons c s ih =>
    rw [splitOnce, List.infix_cons_iff]
    by_cases hsub : sub <+: c :: s <;> simp [hsub, ih]

omit [DecidableEq α] in
/-- What begins with a sign of its own does not begin in a text without it. -/
theorem infix_append_of_not_mem {d : α} {tail : List α} (hd : d ∉ before) :
    d :: tail <:+: before ++ after ↔ d :: tail <:+: after := by
  induction before with
  | nil => rfl
  | cons c before ih =>
    obtain ⟨hne, hd⟩ := not_or.mp fun h => hd (List.mem_cons.mpr h)
    rw [List.cons_append, List.infix_cons_iff, List.cons_prefix_cons, ih hd]
    exact or_iff_right fun h => hne h.1

/-- The occurrence that is found is the first one. -/
theorem length_le_of_splitOnce (h : splitOnce sub s = some (before, after))
    {before' after' : List α} (heq : s = before' ++ sub ++ after') :
    before.length ≤ before'.length := by
  induction s generalizing before before' with
  | nil =>
    have hbefore := eq_of_splitOnce h
    simp_all
  | cons c s ih =>
    rw [splitOnce] at h
    split at h
    · cases h
      exact Nat.zero_le _
    · rename_i hsub
      obtain ⟨⟨before, after⟩, hrest, hpair⟩ := Option.map_eq_some_iff.mp h
      cases hpair
      cases before' with
      | nil => exact absurd (heq ▸ List.prefix_append _ _) hsub
      | cons c' before' =>
        rw [List.cons_append, List.cons_append] at heq
        exact Nat.succ_le_succ (ih hrest (List.cons.inj heq).2)

/-- What follows any occurrence follows the first one too. -/
theorem suffix_of_splitOnce (h : splitOnce sub s = some (before, after))
    {before' after' : List α} (heq : s = before' ++ sub ++ after') : after' <:+ after := by
  have hlength := length_le_of_splitOnce h heq
  have hboth := (eq_of_splitOnce h).symm.trans heq
  rcases List.append_eq_append_iff.mp hboth with ⟨rest, hfront, hafter⟩ | ⟨rest, hfront, hafter⟩
  · exact ⟨rest, hafter.symm⟩
  · have hnone : rest = [] := by
      have hlengths := congrArg List.length hfront
      simp only [List.length_append] at hlengths
      exact List.length_eq_zero_iff.mp (by omega)
    rw [hafter, hnone, List.nil_append]

theorem not_infix_of_splitOnce (h : splitOnce sub s = some (before, after)) (hne : sub ≠ []) :
    ¬ sub <:+: before := by
  rintro ⟨before', after', rfl⟩
  have heq : s = before' ++ sub ++ (after' ++ sub ++ after) := by
    rw [eq_of_splitOnce h]
    simp
  have hle := length_le_of_splitOnce h heq
  have hpos := List.length_pos_of_ne_nil hne
  simp only [List.length_append] at hle
  omega

/-- Two occurrences that are as early as each other are the same. -/
theorem splitOnce_eq_some_iff : splitOnce sub s = some (before, after) ↔
    s = before ++ sub ++ after ∧
      ∀ before' after', s = before' ++ sub ++ after' → before.length ≤ before'.length := by
  refine ⟨fun h => ⟨eq_of_splitOnce h, fun _ _ => length_le_of_splitOnce h⟩,
    fun ⟨heq, hfirst⟩ => ?_⟩
  cases hsplit : splitOnce sub s with
  | none =>
    exact absurd ⟨before, after, heq.symm⟩ (splitOnce_eq_none_iff.mp hsplit)
  | some found =>
    obtain ⟨before', after'⟩ := found
    have hfound := eq_of_splitOnce hsplit
    have hlength := Nat.le_antisymm (length_le_of_splitOnce hsplit heq) (hfirst _ _ hfound)
    rw [heq, List.append_assoc, List.append_assoc] at hfound
    obtain ⟨rfl, hrest⟩ := List.append_inj hfound hlength.symm
    rw [List.append_cancel_left hrest]

/-- **Cutting at a mark** that begins with a sign of its own. -/
theorem splitOnce_append {d : α} {tail : List α} (hd : d ∉ tail) (h : ¬ d :: tail <:+: before) :
    splitOnce (d :: tail) (before ++ d :: tail ++ after) = some (before, after) := by
  rw [splitOnce_eq_some_iff]
  refine ⟨rfl, fun before' after' heq => Nat.le_of_not_lt fun hlt => ?_⟩
  rw [List.append_assoc, List.append_assoc] at heq
  obtain ⟨between, rfl, hrest⟩ := (List.append_eq_append_iff.mp heq).resolve_left
    fun ⟨between, hbefore', _⟩ => by
      rw [hbefore', List.length_append] at hlt
      omega
  -- An earlier occurrence stands before the mark, or the mark's own sign stands in its tail.
  rcases List.append_eq_append_iff.mp hrest with ⟨rest, rfl, -⟩ | ⟨rest, hmark, hafter⟩
  · exact h ⟨before', rest, by simp⟩
  · cases between with
    | nil => simp at hlt
    | cons c between =>
      obtain ⟨rfl, rfl⟩ := List.cons.inj hmark
      cases rest with
      | nil => exact h ⟨before', [], by simp⟩
      | cons c' rest =>
        obtain ⟨rfl, -⟩ := List.cons.inj hafter
        exact hd (List.mem_append_right _ List.mem_cons_self)

/-- The cut at a mark that was put behind a text is there, or at a mark inside of the text. -/
theorem eq_or_isPrefix_of_splitOnce {d : α} {tail between : List α} (hd : d ∉ tail)
    (h : splitOnce (d :: tail) (s ++ d :: tail ++ between) = some (before, after)) :
    before = s ∨ before ++ d :: tail <+: s := by
  by_cases hstands : d :: tail <:+: s
  · obtain ⟨start, rest, hs⟩ := hstands
    have heq := eq_of_splitOnce h
    have hstart : s ++ d :: tail ++ between =
        start ++ d :: tail ++ (rest ++ (d :: tail ++ between)) := by simp [← hs]
    have hle : before.length ≤ start.length := length_le_of_splitOnce h hstart
    refine .inr (List.prefix_of_prefix_length_le (heq ▸ List.prefix_append _ after) ?_ ?_)
    · rw [List.append_assoc]
      exact List.prefix_append _ _
    · rw [← hs]
      simp only [List.length_append]
      omega
  · rw [splitOnce_append hd hstands] at h
    cases h
    exact .inl rfl

theorem splitOnce_self_append (hne : sub ≠ []) :
    splitOnce sub (sub ++ after) = some ([], after) := by
  cases sub with
  | nil => exact absurd rfl hne
  | cons c sub =>
    have hprefix : c :: sub <+: c :: (sub ++ after) := List.prefix_append (c :: sub) after
    rw [List.cons_append, splitOnce, if_pos hprefix]
    simp

/-- **A sign of another kind** stands in no occurrence, so that the search begins anew behind it. -/
theorem splitOnce_gap {c : α} (hne : sub ≠ []) (hc : c ∉ sub) (h : ¬ sub <:+: before) :
    splitOnce sub (before ++ c :: after) =
      (splitOnce sub after).map fun found => (before ++ c :: found.1, found.2) := by
  induction before with
  | nil =>
    have hsub : ¬ sub <+: c :: after := by
      cases sub with
      | nil => exact absurd rfl hne
      | cons d sub =>
        intro hprefix
        exact hc ((List.cons_prefix_cons.mp hprefix).1 ▸ List.mem_cons_self)
    rw [List.nil_append, splitOnce, if_neg hsub]
    rfl
  | cons d before ih =>
    have hsub : ¬ sub <+: d :: (before ++ c :: after) := by
      rw [← List.cons_append]
      intro hprefix
      rcases List.prefix_or_prefix_of_prefix hprefix (List.prefix_append _ _) with hshort | hlong
      · exact h hshort.isInfix
      · obtain ⟨rest, rfl⟩ := hlong
        have hrest := (List.prefix_append_right_inj _).mp hprefix
        cases rest with
        | nil => exact h (by rw [List.append_nil])
        | cons e rest =>
          rw [(List.cons_prefix_cons.mp hrest).1] at hc
          exact hc (List.mem_append_right _ List.mem_cons_self)
    have hrest : ¬ sub <:+: before := fun hsub =>
      h (List.IsInfix.trans hsub (List.suffix_cons d before).isInfix)
    rw [List.cons_append, splitOnce, if_neg hsub, ih hrest, Option.map_map]
    rfl

theorem splitOnce_skip (hne : sub ≠ []) (hskip : ∀ c ∈ before, c ∉ sub) :
    splitOnce sub (before ++ after) =
      (splitOnce sub after).map fun found => (before ++ found.1, found.2) := by
  induction before with
  | nil => simp
  | cons c before ih =>
    obtain ⟨hc, hskip⟩ := List.forall_mem_cons.mp hskip
    have hgap : splitOnce sub ([] ++ c :: (before ++ after)) =
        (splitOnce sub (before ++ after)).map fun found => ([] ++ c :: found.1, found.2) :=
      splitOnce_gap hne hc (by simpa using hne)
    rw [List.nil_append] at hgap
    rw [List.cons_append, hgap, ih hskip, Option.map_map]
    rfl

end

end Batty
