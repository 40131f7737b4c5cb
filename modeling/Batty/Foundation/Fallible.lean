import Mathlib.Logic.Basic
import Mathlib.Data.List.Basic
import Mathlib.Data.List.Forall2
import Mathlib.Order.Defs.Unbundled

/-!
# Stateful computations that may fail

A program that mutates a state and may stop with an error is an `EStateM ε σ α`: an error
carries the state in which it was raised, so whatever was written before the failure stays
written. This file collects what the rest of the development needs to reason about such
programs without unfolding the monad.

**Two views.** `After m s Q E` is the forward reading: run from `s`, the program either
returns into `Q` or fails into `E`. The equations `returns_bind_iff` and `fails_bind_iff` are
the backward reading: a finished run is taken apart into the runs of its parts.

**Frames.** `Moves R m` says that `m` moves the state only along the preorder `R`, whether it
returns or fails; it is closed under everything programs are built from. With `R` the equality
of some part of the state, it says that `m` leaves that part alone.
-/

namespace Batty

universe u

variable {ε ε' σ : Type} {α β : Type}

/-! ### The forward judgment -/

/-- Run from `s`, the program `m` returns a value and a state in `Q`, or fails with an error
and a state in `E`. -/
def After (m : EStateM ε σ α) (s : σ) (Q : α → σ → Prop) (E : ε → σ → Prop) : Prop :=
  match m s with
  | .ok a s' => Q a s'
  | .error e s' => E e s'

variable {m : EStateM ε σ α} {s s' : σ} {Q : α → σ → Prop} {E : ε → σ → Prop}

theorem after_of_returns {a : α} (h : m s = .ok a s') : After m s Q E ↔ Q a s' := by
  simp only [After, h]

theorem after_of_fails {e : ε} (h : m s = .error e s') : After m s Q E ↔ E e s' := by
  simp only [After, h]

instance [∀ a t, Decidable (Q a t)] [∀ e t, Decidable (E e t)] : Decidable (After m s Q E) :=
  match h : m s with
  | .ok a t => decidable_of_iff (Q a t) (after_of_returns h).symm
  | .error e t => decidable_of_iff (E e t) (after_of_fails h).symm

theorem returns_of_after (h : After m s Q fun _ _ => False) : ∃ a t, m s = .ok a t ∧ Q a t := by
  unfold After at h
  cases hrun : m s with
  | ok a t => exact ⟨a, t, rfl, by simpa only [hrun] using h⟩
  | error e t => simp only [hrun] at h

theorem fails_of_after (h : After m s (fun _ _ => False) E) :
    ∃ e t, m s = .error e t ∧ E e t := by
  unfold After at h
  cases hrun : m s with
  | ok a t => simp only [hrun] at h
  | error e t => exact ⟨e, t, rfl, by simpa only [hrun] using h⟩

@[simp] theorem after_pure (a : α) : After (pure a) s Q E ↔ Q a s := Iff.rfl

@[simp] theorem after_throw (e : ε) : After (throw e) s Q E ↔ E e s := Iff.rfl

@[simp] theorem after_get {Q : σ → σ → Prop} : After get s Q E ↔ Q s s := Iff.rfl

@[simp] theorem after_set {Q : PUnit → σ → Prop} (t : σ) : After (set t) s Q E ↔ Q ⟨⟩ t := Iff.rfl

@[simp] theorem after_map {g : α → β} {Q : β → σ → Prop} :
    After (g <$> m) s Q E ↔ After m s (fun a => Q (g a)) E := by
  simp only [After, Functor.map, EStateM.map]
  cases m s <;> rfl

theorem after_discard {Q : Unit → σ → Prop} :
    After (discard m) s Q E ↔ After m s (fun _ t => Q () t) E := by
  show After ((fun _ => ()) <$> m) s Q E ↔ _
  rw [after_map]

@[simp] theorem after_modify {Q : PUnit → σ → Prop} (f : σ → σ) :
    After (modify f) s Q E ↔ Q ⟨⟩ (f s) := Iff.rfl

/-- **Sequencing.** A failure of the first part is a failure of the whole, in the state the
first part left. -/
@[simp] theorem after_bind {f : α → EStateM ε σ β} {Q : β → σ → Prop} :
    After (m >>= f) s Q E ↔ After m s (fun a t => After (f a) t Q E) E := by
  simp only [After, bind, EStateM.bind]
  cases m s <;> rfl

theorem After.mono {Q' : α → σ → Prop} {E' : ε → σ → Prop} (h : After m s Q E)
    (hQ : ∀ a t, Q a t → Q' a t) (hE : ∀ e t, E e t → E' e t) : After m s Q' E' := by
  unfold After at h ⊢
  split <;> simp_all

theorem After.and {Q' : α → σ → Prop} {E' : ε → σ → Prop} (h : After m s Q E)
    (h' : After m s Q' E') : After m s (fun a t => Q a t ∧ Q' a t) (fun e t => E e t ∧ E' e t) := by
  unfold After at h h' ⊢
  split <;> simp_all

/-- What is known of a run decides a judgment of it. -/
theorem after_iff_of {Q' : α → σ → Prop} {E' : ε → σ → Prop} {P : Prop} (h : After m s Q' E')
    (hQ : ∀ a t, Q' a t → (Q a t ↔ P)) (hE : ∀ e t, E' e t → (E e t ↔ P)) : After m s Q E ↔ P := by
  unfold After at h ⊢
  cases hrun : m s with
  | ok a t =>
    rw [hrun] at h
    exact hQ a t h
  | error e t =>
    rw [hrun] at h
    exact hE e t h

/-- The state in which a run of `m` ends, returned or failed. -/
def endState (m : EStateM ε σ α) (s : σ) : σ :=
  match m s with
  | .ok _ s' => s'
  | .error _ s' => s'

theorem endState_of_returns {a : α} (h : m s = .ok a s') : endState m s = s' := by
  rw [endState, h]

theorem endState_of_fails {e : ε} (h : m s = .error e s') : endState m s = s' := by
  rw [endState, h]

/-- A run ends where it ends. -/
theorem after_run (m : EStateM ε σ α) (s : σ) :
    After m s (fun a t => m s = .ok a t) (fun e t => m s = .error e t) := by
  unfold After
  split <;> assumption

/-- A judgment whose two postconditions speak of the state alone is about the end state. -/
theorem after_iff_endState {P : σ → Prop} :
    After m s (fun _ => P) (fun _ => P) ↔ P (endState m s) := by
  simp only [After, endState]
  cases m s <;> rfl

/-! ### Taking a finished run apart -/

theorem returns_bind_iff {f : α → EStateM ε σ β} {b : β} :
    (m >>= f) s = .ok b s' ↔ ∃ a t, m s = .ok a t ∧ f a t = .ok b s' := by
  simp only [bind, EStateM.bind]
  cases m s <;> simp

theorem fails_bind_iff {f : α → EStateM ε σ β} {e : ε} :
    (m >>= f) s = .error e s' ↔
      m s = .error e s' ∨ ∃ a t, m s = .ok a t ∧ f a t = .error e s' := by
  simp only [bind, EStateM.bind]
  cases m s <;> simp

/-! ### Errors as values -/

/-- Run `m` and hand its error, if any, to the caller as a value; what `m` wrote before it
failed stays written. -/
def attempt (m : EStateM ε σ α) : EStateM ε' σ (Except ε α) := fun s =>
  match m s with
  | .ok a s' => .ok (.ok a) s'
  | .error e s' => .ok (.error e) s'

/-- Go on with the value, or fail with the error: the `?` of the source language. -/
def orFail : Except ε α → EStateM ε σ α
  | .ok a => pure a
  | .error e => throw e

@[simp] theorem after_orFail_ok (a : α) : After (orFail (.ok a)) s Q E ↔ Q a s := Iff.rfl

@[simp] theorem after_orFail_error (e : ε) : After (orFail (.error e)) s Q E ↔ E e s := Iff.rfl

@[simp] theorem after_attempt {Q : Except ε α → σ → Prop} {E : ε' → σ → Prop} :
    After (attempt m) s Q E ↔ After m s (fun a => Q (.ok a)) (fun e => Q (.error e)) := by
  simp only [After, attempt]
  cases m s <;> rfl

/-! ### Frames -/

/-- Whether it returns or fails, `m` ends in a state that `R` allows from the one it began in. -/
def Moves (R : σ → σ → Prop) (m : EStateM ε σ α) : Prop :=
  ∀ s, After m s (fun _ t => R s t) (fun _ t => R s t)

theorem Moves.mono {R R' : σ → σ → Prop} (h : Moves R m) (hR : ∀ s t, R s t → R' s t) :
    Moves R' m := fun s =>
  (h s).mono (fun _ t => hR s t) fun _ t => hR s t

section

variable {R : σ → σ → Prop} [IsPreorder σ R]

theorem moves_pure (a : α) : Moves R (pure a : EStateM ε σ α) := fun s => refl_of R s

theorem moves_throw (e : ε) : Moves R (throw e : EStateM ε σ α) := fun s => refl_of R s

theorem moves_get : Moves R (get : EStateM ε σ σ) := fun s => refl_of R s

omit [IsPreorder σ R] in
theorem moves_modify {g : σ → σ} (h : ∀ s, R s (g s)) : Moves R (modify g : EStateM ε σ PUnit) :=
  fun s => h s

theorem Moves.bind {k : α → EStateM ε σ β} (hm : Moves R m) (hk : ∀ a, Moves R (k a)) :
    Moves R (m >>= k) := by
  intro s
  rw [after_bind]
  refine (hm s).mono (fun a t ht => ?_) (fun _ _ ht => ht)
  exact (hk a t).mono (fun _ _ hu => trans_of R ht hu) (fun _ _ hu => trans_of R ht hu)

omit [IsPreorder σ R] in
theorem Moves.map {g : α → β} (hm : Moves R m) : Moves R (g <$> m) := fun s =>
  after_map.mpr (hm s)

omit [IsPreorder σ R] in
theorem Moves.attempt (hm : Moves R m) : Moves R (Batty.attempt m : EStateM ε' σ _) := fun s =>
  after_attempt.mpr (hm s)

theorem moves_orFail (result : Except ε α) : Moves R (orFail result) := by
  cases result with
  | ok a => exact moves_pure a
  | error e => exact moves_throw e

theorem moves_foldlM {f : β → α → EStateM ε σ β} (h : ∀ b x, Moves R (f b x)) (xs : List α)
    (b : β) : Moves R (xs.foldlM f b) := by
  induction xs generalizing b with
  | nil => exact moves_pure b
  | cons x xs ih =>
    rw [List.foldlM_cons]
    exact (h b x).bind fun c => ih c

end

/-! ### Results without a state -/

theorem bind_eq_ok_iff {x : Except ε α} {f : α → Except ε β} {b : β} :
    (x >>= f) = .ok b ↔ ∃ a, x = .ok a ∧ f a = .ok b := by
  cases x <;> simp [bind, Except.bind]

theorem mapM_eq_ok_iff {f : α → Except ε β} {as : List α} {bs : List β} :
    as.mapM f = .ok bs ↔ List.Forall₂ (fun a b => f a = .ok b) as bs := by
  induction as generalizing bs with
  | nil =>
    rw [List.mapM_nil, List.forall₂_nil_left_iff]
    exact ⟨fun h => (Except.ok.inj h).symm, fun h => h ▸ rfl⟩
  | cons a as ih =>
    rw [List.mapM_cons]
    cases hhead : f a with
    | error e =>
      refine iff_of_false (fun h => by cases h) fun h => ?_
      obtain ⟨b, bs, hb, -, -⟩ := List.forall₂_cons_left_iff.mp h
      rw [hhead] at hb
      cases hb
    | ok b =>
      cases htail : as.mapM f with
      | error e =>
        refine iff_of_false (fun h => by cases h) fun h => ?_
        obtain ⟨b, bs, -, hbs, -⟩ := List.forall₂_cons_left_iff.mp h
        rw [ih.mpr hbs] at htail
        cases htail
      | ok bs' =>
        rw [List.forall₂_cons_left_iff]
        constructor
        · intro h
          obtain rfl := Except.ok.inj h
          exact ⟨b, bs', hhead, ih.mp htail, rfl⟩
        · rintro ⟨b', bs, hb, hbs, rfl⟩
          rw [hhead] at hb
          rw [ih.mpr hbs] at htail
          cases hb
          cases htail
          rfl

theorem exists_mapM_eq_ok {f : α → Except ε β} {as : List α} (h : ∀ a ∈ as, ∃ b, f a = .ok b) :
    ∃ bs, as.mapM f = .ok bs := by
  induction as with
  | nil => exact ⟨[], rfl⟩
  | cons a as ih =>
    obtain ⟨⟨b, hb⟩, has⟩ := List.forall_mem_cons.mp h
    obtain ⟨bs, hbs⟩ := ih has
    exact ⟨b :: bs, mapM_eq_ok_iff.mpr (.cons hb (mapM_eq_ok_iff.mp hbs))⟩

/-- What holds of each result of a list holds line by line. -/
theorem forall₂_mapM {f : α → Except ε β} {R : α → β → Prop} {as : List α} {bs : List β}
    (h : as.mapM f = .ok bs) (hR : ∀ a ∈ as, ∀ b, f a = .ok b → R a b) : List.Forall₂ R as bs := by
  have hall := (List.forall₂_and_left (p := (· ∈ as)) as bs).mpr
    ⟨fun _ hmem => hmem, mapM_eq_ok_iff.mp h⟩
  exact hall.imp fun a b hab => hR a hab.1 b hab.2

theorem mapM_eq_some_iff {f : α → Option β} {as : List α} {bs : List β} :
    as.mapM f = some bs ↔ List.Forall₂ (fun a b => f a = some b) as bs := by
  induction as generalizing bs with
  | nil => simp [eq_comm]
  | cons a as ih =>
    rw [List.mapM_cons, List.forall₂_cons_left_iff]
    simp only [Option.bind_eq_bind, Option.bind_eq_some_iff, Option.pure_def, Option.some.injEq, ih]
    constructor
    · rintro ⟨b, hb, bs', hbs, rfl⟩
      exact ⟨b, bs', hb, hbs, rfl⟩
    · rintro ⟨b, bs', hb, hbs, rfl⟩
      exact ⟨b, hb, bs', hbs, rfl⟩

end Batty
