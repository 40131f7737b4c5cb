import Batty.Foundation.Fallible

/-!
# Loops over a list

A loop that threads an accumulator through the elements of a list is `List.foldlM`. Each round
runs the body on the next element; a failing body ends the loop, and with it the program around
it.

**Taking a loop apart.** `Visits f xs b s ys c t` says that the loop over `xs` with body `f`,
started with accumulator `b` in state `s`, comes to a point where `ys` is left to do, the
accumulator is `c` and the state is `t`. A loop returns exactly what it has when nothing is left
(`foldlM_returns_iff`), and fails exactly where it visits an element whose body fails
(`foldlM_fails_iff`). What a round preserves, every visited point has (`Visits.invariant`).
-/

namespace Batty

variable {ε σ : Type} {α β : Type}

/-- The loop over `xs` comes to the point `ys`, `c`, `t`. -/
inductive Visits (f : β → α → EStateM ε σ β) (xs : List α) (b : β) (s : σ) :
    List α → β → σ → Prop where
  | start : Visits f xs b s xs b s
  | round {x ys c t d u} : Visits f xs b s (x :: ys) c t → f c x t = .ok d u →
      Visits f xs b s ys d u

variable {f : β → α → EStateM ε σ β} {xs ys : List α} {b c : β} {s t : σ}

/-- **Invariants.** What holds at the start and is preserved by every round holds wherever the
loop comes. -/
theorem Visits.invariant {I : List α → β → σ → Prop} (h : Visits f xs b s ys c t)
    (hstart : I xs b s)
    (hround : ∀ {x ys c t d u}, Visits f xs b s (x :: ys) c t → I (x :: ys) c t →
      f c x t = .ok d u → I ys d u) : I ys c t := by
  induction h with
  | start => exact hstart
  | round hvisit hbody ih => exact hround hvisit ih hbody

/-- The rest of the loop, run from a visited point, is what is left of the loop. -/
theorem Visits.foldlM_eq (h : Visits f xs b s ys c t) : xs.foldlM f b s = ys.foldlM f c t := by
  induction h with
  | start => rfl
  | round _ hbody ih =>
    rw [ih, List.foldlM_cons]
    simp only [bind, EStateM.bind, hbody]

theorem Visits.cons {x : α} {d : β} {u : σ} (hbody : f b x s = .ok d u)
    (h : Visits f xs d u ys c t) : Visits f (x :: xs) b s ys c t := by
  induction h with
  | start => exact .round .start hbody
  | round _ hbody' ih => exact .round ih hbody'

/-- The elements still to do are the last ones of the list. -/
theorem Visits.suffix (h : Visits f xs b s ys c t) : ys <:+ xs := by
  induction h with
  | start => exact List.suffix_refl xs
  | round _ _ ih => exact (List.suffix_cons _ _).trans ih

/-- Where everything is still to do, the loop is at its start. -/
theorem Visits.eq_start (h : Visits f xs b s ys c t) (hlength : xs.length ≤ ys.length) :
    ys = xs ∧ c = b ∧ t = s := by
  cases h with
  | start => exact ⟨rfl, rfl, rfl⟩
  | round hvisit _ =>
    have hshorter := hvisit.suffix.length_le
    rw [List.length_cons] at hshorter
    omega

theorem foldlM_returns_iff : xs.foldlM f b s = .ok c t ↔ Visits f xs b s [] c t := by
  refine ⟨fun h => ?_, fun h => h.foldlM_eq⟩
  induction xs generalizing b s with
  | nil =>
    obtain ⟨rfl, rfl⟩ := by simpa [pure, EStateM.pure] using h
    exact .start
  | cons x xs ih =>
    rw [List.foldlM_cons, returns_bind_iff] at h
    obtain ⟨d, u, hbody, hrest⟩ := h
    exact (ih hrest).cons hbody

theorem foldlM_fails_iff {e : ε} : xs.foldlM f b s = .error e t ↔
    ∃ x ys c u, Visits f xs b s (x :: ys) c u ∧ f c x u = .error e t := by
  constructor
  · intro h
    induction xs generalizing b s with
    | nil => simp [pure, EStateM.pure] at h
    | cons x xs ih =>
      rw [List.foldlM_cons, fails_bind_iff] at h
      rcases h with hbody | ⟨d, u, hbody, hrest⟩
      · exact ⟨x, xs, b, s, .start, hbody⟩
      · obtain ⟨y, ys, c, v, hvisit, hfail⟩ := ih hrest
        exact ⟨y, ys, c, v, hvisit.cons hbody, hfail⟩
  · rintro ⟨x, ys, c, u, hvisit, hbody⟩
    rw [hvisit.foldlM_eq, List.foldlM_cons, fails_bind_iff]
    exact .inl hbody

/-- The forward rule: an invariant that every round preserves, or whose failure meets `E`. -/
theorem after_foldlM {I : List α → β → σ → Prop} {E : ε → σ → Prop} (hstart : I xs b s)
    (hround : ∀ x ys c t, I (x :: ys) c t → After (f c x) t (fun d u => I ys d u) E) :
    After (xs.foldlM f b) s (fun c t => I [] c t) E := by
  induction xs generalizing b s with
  | nil => exact hstart
  | cons x xs ih =>
    rw [List.foldlM_cons, after_bind]
    exact (hround x xs b s hstart).mono (fun d u hu => ih hu) (fun _ _ he => he)

/-- The same, for an invariant that is preserved where the loop comes. -/
theorem after_foldlM_visits {I : List α → β → σ → Prop} {E : ε → σ → Prop} (hstart : I xs b s)
    (hround : ∀ x ys c t, Visits f xs b s (x :: ys) c t → I (x :: ys) c t →
      After (f c x) t (fun d u => I ys d u) E) :
    After (xs.foldlM f b) s (fun c t => I [] c t) E := by
  refine (after_foldlM (I := fun ys c t => Visits f xs b s ys c t ∧ I ys c t)
    ⟨.start, hstart⟩ fun x ys c t h => ?_).mono (fun _ _ h => h.2) fun _ _ he => he
  exact ((after_run (f c x) t).and (hround x ys c t h.1 h.2)).mono
    (fun d u hbody => ⟨h.1.round hbody.1, hbody.2⟩) fun _ _ hbody => hbody.2

theorem moves_foldlM_of_mem {R : σ → σ → Prop} [IsPreorder σ R]
    (h : ∀ x ∈ xs, ∀ b, Moves R (f b x)) (b : β) : Moves R (xs.foldlM f b) := by
  intro s
  refine (after_foldlM (I := fun ys _ t => ys ⊆ xs ∧ R s t)
    ⟨List.Subset.refl xs, refl_of R s⟩ fun x ys c t hpoint => ?_).mono (fun _ _ h => h.2)
      fun _ _ he => he
  obtain ⟨hsubset, ht⟩ := hpoint
  rw [List.cons_subset] at hsubset
  exact (h x hsubset.1 c t).mono (fun _ _ hu => ⟨hsubset.2, trans_of R ht hu⟩)
    fun _ _ hu => trans_of R ht hu

end Batty
