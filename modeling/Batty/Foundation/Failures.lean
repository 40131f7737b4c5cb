import Batty.Foundation.Threads

/-!
# Writes that fail

What a section leaves behind if one of its writes fails, the others do not, and no other thread
comes between: `Machine.failures` reads it off the acts, write by write.
-/

namespace Batty

variable {State Input Kind Point Line Event : Type}
  (machine : Machine State Input Kind Point Line Event)

/-- The state after the section that follows a failed write, if one does. -/
def Machine.rollBack (state : State) (failed : List Event × Option Point) : State :=
  failed.2.elim state fun point => (machine.resume point state).1

/-- The state after acts of which no write fails. -/
def Machine.carriedOut : State → List (Act Kind Point Line Event) → State
  | state, [] | state, .stop :: _ => state
  | state, .lock point :: _ => (machine.resume point state).1
  | state, .send _ :: acts | state, .write _ _ :: acts | state, .fork _ _ _ _ :: acts =>
    Machine.carriedOut state acts

/-- The writes among the acts, and the state after the acts if it is this one that fails. -/
def Machine.failures : State → List (Act Kind Point Line Event) → List (Line × State)
  | _, [] | _, .stop :: _ | _, .lock _ :: _ => []
  | state, .send _ :: acts => Machine.failures state acts
  | state, .write line failed :: acts =>
    (line, failed.elim (machine.carriedOut state acts) (machine.rollBack state)) ::
      Machine.failures state acts
  | state, .fork _ line failed next :: acts =>
    (line, machine.carriedOut (failed.elim state (machine.rollBack state)) acts) ::
      (next, machine.carriedOut state acts) :: Machine.failures state acts

/-- If a write of the section fails, the state after it is as described. -/
def Machine.FailsTo (P : Line → State → Prop)
    (result : State × List (Act Kind Point Line Event)) : Prop :=
  ∀ failure ∈ machine.failures result.1 result.2, P failure.1 failure.2

variable {machine} {P : Line → State → Prop} {state : State}

@[simp] theorem Machine.failures_nil :
    machine.failures state ([] : List (Act Kind Point Line Event)) = [] := rfl

@[simp] theorem Machine.failures_send (event : Event) (acts : List (Act Kind Point Line Event)) :
    machine.failures state (.send event :: acts) = machine.failures state acts := rfl

@[simp] theorem Machine.failures_stop (acts : List (Act Kind Point Line Event)) :
    machine.failures state (.stop :: acts) = [] := rfl

@[simp] theorem Machine.failures_sends (events : List Event)
    (acts : List (Act Kind Point Line Event)) :
    machine.failures state (events.map .send ++ acts) = machine.failures state acts := by
  induction events with
  | nil => rfl
  | cons event events ih => exact ih

@[simp] theorem Machine.failures_map (events : List Event) :
    machine.failures state (events.map .send : List (Act Kind Point Line Event)) = [] := by
  rw [← List.append_nil (events.map _), Machine.failures_sends]
  rfl

theorem failsTo_of_quiet {result : State × List (Act Kind Point Line Event)}
    (h : machine.failures result.1 result.2 = []) : machine.FailsTo P result :=
  fun failure hfailure => absurd hfailure (by simp [h])

/-- A section whose only write comes first. -/
theorem failsTo_written {line : Line} {failed : List Event × Option Point} {events : List Event}
    {acts : List (Act Kind Point Line Event)} (hacts : machine.failures state acts = [])
    (h : P line (machine.rollBack state failed)) :
    machine.FailsTo P (state, [.write line (some failed)] ++ events.map .send ++ acts) := by
  rw [Machine.FailsTo, List.append_assoc, List.singleton_append, Machine.failures,
    Machine.failures_sends, hacts]
  exact List.forall_mem_singleton.mpr h

theorem failsTo_sends (events : List Event) :
    machine.FailsTo P (state, (events.map .send : List (Act Kind Point Line Event))) :=
  failsTo_of_quiet (Machine.failures_map events)

end Batty
