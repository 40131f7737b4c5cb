import Mathlib.Data.List.Basic

/-!
# Runs

A system that goes from state to state, one event at a time. A law that each event either keeps or
breaks, as a condition on the state before it tells, holds all along a run exactly if the condition
is met at each event (`always_iff_eachStep`).
-/

namespace Batty

variable {σ ε : Type}

/-- The law holds in the state after each of the first events, the start included. -/
def Always (step : σ → ε → σ) (law : σ → Prop) (start : σ) (events : List ε) : Prop :=
  ∀ before, before <+: events → law (before.foldl step start)

/-- The condition is met at each event, in the state that it comes in. -/
def EachStep (step : σ → ε → σ) (meets : σ → ε → Prop) : σ → List ε → Prop
  | _, [] => True
  | state, event :: events =>
    meets state event ∧ EachStep step meets (step state event) events

section

variable {step : σ → ε → σ} {law : σ → Prop} {meets : σ → ε → Prop} {initial : σ} {events : List ε}

theorem Always.start (h : Always step law initial events) : law initial := h [] List.nil_prefix

theorem always_nil : Always step law initial [] ↔ law initial := by
  refine ⟨Always.start, fun h before hbefore => ?_⟩
  rwa [List.prefix_nil.mp hbefore]

theorem always_cons {event : ε} : Always step law initial (event :: events) ↔
    law initial ∧ Always step law (step initial event) events := by
  constructor
  · refine fun h => ⟨h.start, fun before hbefore => ?_⟩
    exact h (event :: before) (List.cons_prefix_cons.mpr ⟨rfl, hbefore⟩)
  · rintro ⟨hstart, hrest⟩ before hbefore
    cases before with
    | nil => exact hstart
    | cons first before =>
      obtain ⟨rfl, htail⟩ := List.cons_prefix_cons.mp hbefore
      exact hrest before htail

/-- **A law that is kept where the condition is met.** -/
theorem always_of_eachStep (hkeeps : ∀ state event, law state → meets state event →
    law (step state event)) (hstart : law initial) (h : EachStep step meets initial events) :
    Always step law initial events := by
  induction events generalizing initial with
  | nil => exact always_nil.mpr hstart
  | cons event events ih =>
    exact always_cons.mpr ⟨hstart, ih (hkeeps initial event hstart h.1) h.2⟩

/-- **A law that is kept exactly where the condition is met**, as long as an invariant holds that
the condition keeps together with what the events promise. -/
theorem always_iff_eachStep_of {inv : σ → Prop} {promised : σ → ε → Prop}
    (hlaw : ∀ state, inv state → law state)
    (hkeeps : ∀ state event, inv state → promised state event →
      (law (step state event) ↔ meets state event))
    (hinv : ∀ state event, inv state → promised state event → meets state event →
      inv (step state event))
    (hstart : inv initial) (hpromised : EachStep step promised initial events) :
    Always step law initial events ↔ EachStep step meets initial events := by
  induction events generalizing initial with
  | nil => exact iff_of_true (always_nil.mpr (hlaw initial hstart)) trivial
  | cons event events ih =>
    rw [always_cons, and_iff_right (hlaw initial hstart)]
    -- Both sides say that the first event meets the condition.
    have hfirst := hkeeps initial event hstart hpromised.1
    constructor
    · intro h
      have hmeets := hfirst.mp h.start
      exact ⟨hmeets, (ih (hinv initial event hstart hpromised.1 hmeets) hpromised.2).mp h⟩
    · rintro ⟨hmeets, hrest⟩
      exact (ih (hinv initial event hstart hpromised.1 hmeets) hpromised.2).mpr hrest

theorem eachStep_true (initial : σ) (events : List ε) :
    EachStep step (fun _ _ => True) initial events := by
  induction events generalizing initial with
  | nil => trivial
  | cons event events ih => exact ⟨trivial, ih _⟩

/-- A law that needs no invariant beside it. -/
theorem always_iff_eachStep
    (hkeeps : ∀ state event, law state → (law (step state event) ↔ meets state event))
    (hstart : law initial) : Always step law initial events ↔ EachStep step meets initial events :=
  always_iff_eachStep_of (fun _ h => h) (fun state event h _ => hkeeps state event h)
    (fun state event h _ hmeets => (hkeeps state event h).mpr hmeets) hstart
    (eachStep_true initial events)

end

end Batty
