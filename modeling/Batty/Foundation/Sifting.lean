import Mathlib.Data.List.Basic

/-!
# Sifting a list

Of the elements of a list those are kept that are not blocked and clash with no other. There are
two ways to do it: an element is compared with those before it that were kept, or with all that
come before it.

* `Sifted`: the first way, as a relation. Its result is a sublist without clashes, and every
  element that is left out is blocked or clashes with one that is kept before it.
* `firstsFrom`: the second way, as a function.
* `sifted_firstsFrom_iff`: when the two agree, for a clash of the one kind and of the other.
-/

namespace Batty

variable {α : Type}

/-- The list is gone through with what was kept so far. -/
inductive Sifted (Clash : α → α → Prop) (Blocked : α → Prop) :
    List α → List α → List α → Prop where
  | nil (kept) : Sifted Clash Blocked kept [] []
  | keep {kept x xs out} : ¬ Blocked x → (∀ y ∈ kept, ¬ Clash y x) →
    Sifted Clash Blocked (kept ++ [x]) xs out → Sifted Clash Blocked kept (x :: xs) (x :: out)
  | drop {kept x xs out} : (Blocked x ∨ ∃ y ∈ kept, Clash y x) →
    Sifted Clash Blocked kept xs out → Sifted Clash Blocked kept (x :: xs) out

/-- The elements that are not blocked and clash with nothing before them, `seen` being what came
before the list. -/
def firstsFrom (clash : α → α → Bool) (blocked : α → Bool) (seen : List α) : List α → List α
  | [] => []
  | x :: xs =>
    if blocked x || seen.any (clash · x) then firstsFrom clash blocked (seen ++ [x]) xs
    else x :: firstsFrom clash blocked (seen ++ [x]) xs

section

variable {Clash : α → α → Prop} {Blocked : α → Prop} {kept xs out : List α}

theorem Sifted.sublist (h : Sifted Clash Blocked kept xs out) : out.Sublist xs := by
  induction h with
  | nil => exact .refl _
  | keep _ _ _ ih => exact ih.cons_cons _
  | drop _ _ ih => exact ih.cons _

theorem Sifted.fresh (h : Sifted Clash Blocked kept xs out) :
    ∀ x ∈ out, ¬ Blocked x ∧ ∀ y ∈ kept, ¬ Clash y x := by
  induction h with
  | nil => exact nofun
  | keep hblocked hclash _ ih =>
    refine List.forall_mem_cons.mpr ⟨⟨hblocked, hclash⟩, fun y hy => ⟨(ih y hy).1, fun z hz => ?_⟩⟩
    exact (ih y hy).2 z (List.mem_append_left _ hz)
  | drop _ _ ih => exact ih

theorem Sifted.pairwise (h : Sifted Clash Blocked kept xs out) :
    out.Pairwise fun y x => ¬ Clash y x := by
  induction h with
  | nil => exact .nil
  | keep _ _ hrest ih =>
    exact List.pairwise_cons.mpr ⟨fun x hx => (hrest.fresh x hx).2 _ (by simp), ih⟩
  | drop _ _ ih => exact ih

end

section

variable {clash : α → α → Bool} {blocked : α → Bool} {seen xs : List α}

theorem firstsFrom_sublist : (firstsFrom clash blocked seen xs).Sublist xs := by
  induction xs generalizing seen with
  | nil => exact .refl _
  | cons x xs ih =>
    rw [firstsFrom]
    split
    · exact ih.cons _
    · exact ih.cons_cons _

theorem mem_firstsFrom {x : α} (h : x ∈ firstsFrom clash blocked seen xs) :
    blocked x = false ∧ ∀ y ∈ seen, clash y x = false := by
  induction xs generalizing seen with
  | nil => cases h
  | cons x' xs ih =>
    rw [firstsFrom] at h
    split at h
    · exact (ih h).imp id fun hseen y hy => hseen y (List.mem_append_left _ hy)
    · rename_i hfirst
      rw [Bool.or_eq_true, not_or, Bool.not_eq_true, Bool.not_eq_true, List.any_eq_false] at hfirst
      rcases List.mem_cons.mp h with rfl | h
      · exact ⟨hfirst.1, fun y hy => by simpa using hfirst.2 y hy⟩
      · exact (ih h).imp id fun hseen y hy => hseen y (List.mem_append_left _ hy)

/-- What is kept stays if it is gone through once more. -/
theorem firstsFrom_firstsFrom {seen' : List α} (hseen : ∀ y ∈ seen', y ∈ seen) :
    firstsFrom clash blocked seen' (firstsFrom clash blocked seen xs) =
      firstsFrom clash blocked seen xs := by
  induction xs generalizing seen seen' with
  | nil => rfl
  | cons x xs ih =>
    rw [firstsFrom]
    split
    · exact ih fun y hy => List.mem_append_left _ (hseen y hy)
    · rename_i hfirst
      rw [Bool.or_eq_true, not_or, Bool.not_eq_true, Bool.not_eq_true, List.any_eq_false] at hfirst
      have hagain : (blocked x || seen'.any (clash · x)) = false := by
        rw [Bool.or_eq_false_iff, List.any_eq_false]
        exact ⟨hfirst.1, fun y hy => hfirst.2 y (hseen y hy)⟩
      rw [firstsFrom, hagain, if_neg Bool.false_ne_true, ih]
      intro y hy
      rcases List.mem_append.mp hy with hy | hy
      · exact List.mem_append_left _ (hseen y hy)
      · exact List.mem_append_right _ hy

/-- Of every place in a list: of the first one, and of the others. -/
theorem forall_split_cons_iff {x : α} (P : List α → α → Prop) :
    (∀ before x' after, x :: xs = before ++ x' :: after → P before x') ↔
      P [] x ∧ ∀ before x' after, xs = before ++ x' :: after → P (x :: before) x' := by
  constructor
  · exact fun h => ⟨h [] x xs rfl, fun before x' after heq => h _ x' after (by rw [heq]; rfl)⟩
  · rintro ⟨hhead, htail⟩ before x' after heq
    cases before with
    | nil =>
      obtain ⟨rfl, -⟩ := List.cons.inj heq
      exact hhead
    | cons y before =>
      obtain ⟨rfl, hxs⟩ := List.cons.inj heq
      exact htail before x' after hxs

/-- **The two ways agree** exactly if every element that comes first is one to be kept, and every
other one is to be left out. -/
theorem sifted_firstsFrom_iff {Clash : α → α → Prop} {Blocked : α → Prop} {kept : List α}
    (hrefl : ∀ x, clash x x = true) :
    Sifted Clash Blocked kept xs (firstsFrom clash blocked seen xs) ↔
      ∀ before x after, xs = before ++ x :: after →
        ((blocked x || (seen ++ before).any (clash · x)) = true ↔
          Blocked x ∨ ∃ y ∈ kept ++ firstsFrom clash blocked seen before, Clash y x) := by
  induction xs generalizing kept seen with
  | nil => exact ⟨fun _ before x after h => by simp at h, fun _ => .nil _⟩
  | cons x xs ih =>
    -- The first element is decided, and the others with it among those that are seen.
    rw [forall_split_cons_iff fun before x' => ((blocked x' || (seen ++ before).any (clash · x')) = true ↔
      Blocked x' ∨ ∃ y ∈ kept ++ firstsFrom clash blocked seen before, Clash y x')]
    simp only [firstsFrom, List.append_nil]
    by_cases hfirst : (blocked x || seen.any (clash · x)) = true
    · simp only [hfirst, if_true, true_iff]
      have hrest := @ih (seen ++ [x]) kept
      simp only [List.append_assoc, List.singleton_append] at hrest
      rw [← hrest]
      constructor
      · intro h
        generalize hout : firstsFrom clash blocked (seen ++ [x]) xs = out at h
        cases h with
        | keep hblocked hclash h =>
          -- Whatever is kept later does not clash with the element, which it is itself.
          have hmem := mem_firstsFrom (hout ▸ List.mem_cons_self : x ∈ firstsFrom clash blocked
            (seen ++ [x]) xs)
          have hself := hmem.2 x (by simp)
          rw [hrefl] at hself
          cases hself
        | drop hclash h => exact ⟨hclash, h⟩
      · exact fun ⟨hclash, h⟩ => .drop hclash h
    · simp only [hfirst, if_false, false_iff, Bool.false_eq_true]
      have hrest := @ih (seen ++ [x]) (kept ++ [x])
      simp only [List.append_assoc, List.singleton_append] at hrest
      rw [← hrest, not_or, not_exists]
      constructor
      · intro h
        cases h with
        | keep hblocked hclash h => exact ⟨⟨hblocked, fun y hy => hclash y hy.1 hy.2⟩, h⟩
        | drop hclash h =>
          obtain ⟨hblocked, hnone⟩ := h.fresh x List.mem_cons_self
          exact absurd hclash (not_or.mpr ⟨hblocked, fun ⟨y, hy, hclash⟩ => hnone y hy hclash⟩)
      · exact fun ⟨⟨hblocked, hclash⟩, h⟩ => .keep hblocked (fun y hy hc => hclash y ⟨hy, hc⟩) h

end

end Batty
