import Mathlib.Data.List.Basic

/-!
# Lines of a stream that comes in pieces

A stream over any type is cut behind each element that ends a line. Of what came so far, the lines
that are ended are complete, and the rest is a fragment of a line that is under way.
`cutFrom_append`: cutting can go on with the fragment when the next piece comes, and the complete
lines are the same as if all had come at once.
-/

namespace Batty

variable {α : Type} {ends : α → Bool} {current s t : List α}

/-- The complete lines, and the fragment behind them; `current` is the line under way. -/
def cutFrom (ends : α → Bool) (current : List α) : List α → List (List α) × List α
  | [] => ([], current)
  | a :: s =>
    if ends a then
      let (lines, fragment) := cutFrom ends [] s
      ((current ++ [a]) :: lines, fragment)
    else cutFrom ends (current ++ [a]) s

def completeLines (ends : α → Bool) (s : List α) : List (List α) := (cutFrom ends [] s).1

def fragment (ends : α → Bool) (s : List α) : List α := (cutFrom ends [] s).2

theorem cutFrom_append (current s t : List α) : cutFrom ends current (s ++ t) =
    ((cutFrom ends current s).1 ++ (cutFrom ends (cutFrom ends current s).2 t).1,
      (cutFrom ends (cutFrom ends current s).2 t).2) := by
  induction s generalizing current with
  | nil => rfl
  | cons a s ih =>
    simp only [List.cons_append, cutFrom]
    split <;> simp [ih]

/-- Nothing is lost. -/
theorem flatten_cutFrom (current s : List α) :
    (cutFrom ends current s).1.flatten ++ (cutFrom ends current s).2 = current ++ s := by
  induction s generalizing current with
  | nil => simp [cutFrom]
  | cons a s ih =>
    simp only [cutFrom]
    split
    · have hrest := ih []
      rw [List.nil_append] at hrest
      simp [hrest]
    · rw [ih, List.append_assoc, List.singleton_append]

theorem cutFrom_of_forall {s : List α} (h : ∀ a ∈ s, ends a = false) (current : List α) :
    cutFrom ends current s = ([], current ++ s) := by
  induction s generalizing current with
  | nil => simp [cutFrom]
  | cons a s ih =>
    obtain ⟨ha, hs⟩ := List.forall_mem_cons.mp h
    rw [cutFrom, if_neg (by simp [ha]), ih hs, List.append_assoc, List.singleton_append]

/-- No line ends in a fragment. -/
theorem ends_of_mem_cutFrom (hcurrent : ∀ a ∈ current, ends a = false) :
    ∀ a ∈ (cutFrom ends current s).2, ends a = false := by
  induction s generalizing current with
  | nil => exact hcurrent
  | cons a s ih =>
    rw [cutFrom]
    split
    · exact ih nofun
    · rename_i ha
      refine ih fun b hb => ?_
      rcases List.mem_append.mp hb with hb | hb
      · exact hcurrent b hb
      · rw [List.mem_singleton.mp hb]
        simpa using ha

theorem ends_of_mem_fragment : ∀ a ∈ fragment ends s, ends a = false := ends_of_mem_cutFrom nofun

theorem flatten_completeLines (ends : α → Bool) (s : List α) :
    (completeLines ends s).flatten ++ fragment ends s = s :=
  flatten_cutFrom [] s

theorem cutFrom_fragment (s : List α) :
    cutFrom ends [] (cutFrom ends [] s).2 = ([], (cutFrom ends [] s).2) :=
  cutFrom_of_forall ends_of_mem_fragment []

/-- **The next piece.** It goes on from the fragment. -/
theorem completeLines_append (s t : List α) : completeLines ends (s ++ t) =
    completeLines ends s ++ completeLines ends (fragment ends s ++ t) := by
  simp only [completeLines, fragment, cutFrom_append, cutFrom_fragment, List.nil_append]

theorem fragment_append (s t : List α) :
    fragment ends (s ++ t) = fragment ends (fragment ends s ++ t) := by
  simp only [fragment, cutFrom_append, cutFrom_fragment]

theorem cutFrom_fst_eq_nil_iff : (cutFrom ends current s).1 = [] ↔ ∀ a ∈ s, ends a = false := by
  constructor
  · intro h
    induction s generalizing current with
    | nil => exact nofun
    | cons a s ih =>
      rw [cutFrom] at h
      split at h
      · simp at h
      · rename_i ha
        exact List.forall_mem_cons.mpr ⟨by simpa using ha, ih h⟩
  · exact fun h => by rw [cutFrom_of_forall h]

/-- A piece that ends no line completes none. -/
theorem completeLines_fragment_append_eq_nil_iff :
    completeLines ends (fragment ends s ++ t) = [] ↔ ∀ a ∈ t, ends a = false := by
  rw [completeLines, cutFrom_fst_eq_nil_iff]
  constructor
  · exact fun h a ha => h a (List.mem_append_right _ ha)
  · intro h a ha
    rcases List.mem_append.mp ha with ha | ha
    · exact ends_of_mem_fragment a ha
    · exact h a ha

/-- There is no fragment exactly if the last element ends a line. -/
theorem fragment_eq_nil_iff : fragment ends s = [] ↔ ∀ a ∈ s.getLast?, ends a = true := by
  rcases List.eq_nil_or_concat s with rfl | ⟨s, a, rfl⟩
  · simp [fragment, cutFrom]
  · rw [List.concat_eq_append, fragment, cutFrom_append]
    simp only [cutFrom]
    split
    · rename_i ha
      simpa using ha
    · rename_i ha
      simpa using ha

theorem fragment_append_of_forall (h : ∀ a ∈ t, ends a = false) :
    fragment ends (s ++ t) = fragment ends s ++ t := by
  rw [fragment, cutFrom_append, cutFrom_of_forall h, ← fragment]

/-- Complete lines put together leave no fragment. -/
theorem fragment_flatten_completeLines (s : List α) :
    fragment ends (completeLines ends s).flatten = [] := by
  have hwhole : fragment ends s =
      fragment ends (completeLines ends s).flatten ++ fragment ends s := by
    rw [← fragment_append_of_forall ends_of_mem_fragment, flatten_completeLines]
  exact List.self_eq_append_left.mp hwhole

end Batty
