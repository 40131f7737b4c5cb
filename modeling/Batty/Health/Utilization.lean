import Batty.Foundation.Runs
import Batty.Health.Interventions
import Batty.Resolver

/-!
# Telling architects of unused engineers

When less than half of the engineers work while there is something to do, each idle architect is
told so, unless nothing has changed since the last time.

Nothing forgets that last time, though: when engineers have worked meanwhile and the same gap comes
back, it is taken for the one that the architect was told of. `utilization_fires_iff` says when an
architect is told of a gap that lasts for two ticks: if it is in one of them another one than that
of the last time.
-/

namespace Batty

/-- What a tick sees. The entries of the engineers are kept by another intervention. -/
structure UtilizationLook extends TeamLook where
  architectUtilizationInterventions : Bool := true
  nudgeDisabled : Bool := false
  resolver : Except String (Board × Calendar)
  engineerEntries : String → Option OwnedTaskInterventionState := fun _ => none
  isSupervisoryLaneStalled : String → Bool := fun _ => false
  utilizationRecoveryIntervalSecs : Nat := 1200

/-- A gap: what the architect is told of. -/
structure Utilization where
  workingEngineers : List String
  idleActiveEngineers : List (String × List Nat)
  idleUnassignedEngineers : List String
  unassignedOpenTasks : List Task

/-- Tasks that a phase gate holds back, and why. -/
structure PhaseGateDispatchBlock where
  taskIds : List Nat
  reasons : List String

def declaresPhaseGate (text : String) : Bool :=
  let normalized := text.toList.map fun ch => if ch = '-' || ch = '_' then ' ' else ch.toLower
  ["phase gate", "phase gated", "gated by phase"].any fun phrase =>
    !(Text.occurrences phrase.toList normalized).isEmpty

def phaseGateReason (task : Task) : Option String :=
  match (task.blocked.toList ++ task.blockedOn.toList).find? declaresPhaseGate with
  | some reason => some reason
  | none =>
    if task.tags.any declaresPhaseGate then some "phase-gate tag"
    else if declaresPhaseGate task.description then some "description declares phase gate"
    else none

def phaseGateBlocksDispatch (tasks : List Task) (dispatchableTaskIds : List Nat) :
    Option PhaseGateDispatchBlock :=
  if dispatchableTaskIds ≠ [] then none
  else
    let gated := tasks.filterMap fun task =>
      if task.status = "todo" || task.status = "backlog" || task.status = "runnable" then
        if task.claimedBy.isSome then none
        else (phaseGateReason task).map fun reason => (task.id, reason)
      else none
    if gated = [] then none
    else some
      { taskIds := (gated.map Prod.fst).insertionSort (· ≤ ·)
        reasons := ((gated.map Prod.snd).insertionSort (· ≤ ·)).dedup }

def architectUtilizationInterventionKey (memberName : String) : String :=
  "utilization::" ++ memberName

/-- What distinguishes one gap from another. -/
def Utilization.signature (utilization : Utilization) : String :=
  let working := utilization.workingEngineers.map fun engineer => s!"working:{engineer}"
  let idleActive := utilization.idleActiveEngineers.map fun (engineer, taskIds) =>
    let ids := ",".intercalate (taskIds.map toString)
    s!"idle-active:{engineer}:{ids}"
  let idleFree := utilization.idleUnassignedEngineers.map fun engineer => s!"idle-free:{engineer}"
  let opened := utilization.unassignedOpenTasks.map fun task => s!"open:{task.id}:{task.status}"
  "|".intercalate ((working ++ idleActive ++ idleFree ++ opened).insertionSort (· ≤ ·))

namespace UtilizationLook

variable (look : UtilizationLook)

def dispatchableTaskIds : Except String (List Nat) :=
  look.resolver.map fun (board, calendar) =>
    (engineerDispatchableTasks board calendar look.members).map Task.id

def workingEngineers : List String :=
  look.engineerNames.filter fun name => !look.isMemberIdle name

/-- Idle engineers with open tasks, unless they have just been asked themselves. -/
def idleActiveEngineers (tasks : List Task) : List (String × List Nat) :=
  (look.engineerNames.filter fun name => look.isMemberIdle name &&
      (look.engineerEntries name).all OwnedTaskInterventionState.escalationSent).filterMap
    fun name =>
      let taskIds := (tasks.filter fun task => task.isOwnedBy name).map Task.id
      if taskIds = [] then none else some (name, taskIds)

def utilization (tasks : List Task) (dispatchableTaskIds : List Nat) : Utilization where
  workingEngineers := look.workingEngineers
  idleActiveEngineers := look.idleActiveEngineers tasks
  idleUnassignedEngineers := look.idleUnassignedEngineers tasks
  unassignedOpenTasks := tasks.filter fun task => dispatchableTaskIds.contains task.id

/-- Whether there is a gap. -/
def check : GapCheck Utilization :=
  if !look.architectUtilizationInterventions || look.paused || look.nudgeDisabled then .quiet
  else
    match look.tasks with
    | .error _ => .quiet
    | .ok tasks =>
      if look.engineerNames = [] then .quiet
      else if allEngineersHaveActiveTasks look.engineerNames tasks then .noGap
      else
        match look.dispatchableTaskIds with
        | .error _ => .quiet
        | .ok dispatchableTaskIds =>
          let found := look.utilization tasks dispatchableTaskIds
          let someIdle := found.idleActiveEngineers ≠ [] || found.idleUnassignedEngineers ≠ []
          if someIdle && (phaseGateBlocksDispatch tasks dispatchableTaskIds).isSome then .noGap
          else if found.idleActiveEngineers = [] &&
              (found.idleUnassignedEngineers = [] || found.unassignedOpenTasks = []) then .noGap
          else if found.workingEngineers.length ≥ (look.engineerNames.length + 1) / 2 then .noGap
          else .gap found

/-- The architects that somebody reports to, in the turns of the loop. -/
def turns : List (String × Nat) :=
  ((look.architects.filter fun architect =>
    look.members.any fun member => member.reportsTo = some architect.name).map
      MemberInstance.name).zipIdx

/-- Whether an architect can be told in a turn of the loop. -/
def canBeTold (turn : Nat) (architect : String) : Bool :=
  look.isSupervisoryLaneStalled architect ||
    (look.isMemberIdle architect && look.readyForIdleAutomation turn architect)

/-- One turn of the loop over the architects. -/
def tellArchitect (found : Utilization) (watch : InterventionWatch) (architect : String × Nat) :
    InterventionWatch :=
  if !look.canBeTold architect.2 architect.1 then watch
  else
    let key := architectUtilizationInterventionKey architect.1
    let cooldown := fromSecs look.utilizationRecoveryIntervalSecs
    if (watch.ownedTaskInterventions key).any fun state => state.signature = found.signature then
      watch
    else if watch.onCooldown key cooldown (look.checkedAt architect.2) then watch
    else
      watch.attempt look.toTeamLook architect.2 key cooldown
        { idleEpoch := (look.triageIdleEpochs architect.1).getD 0
          signature := found.signature
          detectedAt := look.firedAt architect.2
          escalationSent := false }

end UtilizationLook

def InterventionWatch.maybeInterveneArchitectUtilization (watch : InterventionWatch)
    (look : UtilizationLook) : InterventionWatch :=
  match look.check with
  | .gap found => look.turns.foldl (look.tellArchitect found) watch
  | _ => watch

/-! ### What a turn and a tick do -/

/-- The gap is the one that the architect was told of last. -/
def Utilization.IsKnown (found : Utilization) (watch : InterventionWatch) (architect : String) :
    Prop :=
  ((watch.ownedTaskInterventions (architectUtilizationInterventionKey architect)).any
    fun state => state.signature = found.signature) = true

namespace UtilizationLook

/-- The architect has a turn, and in each that it has it can be told and is past the cooldown. -/
def Free (look : UtilizationLook) (architect : String) (watch : InterventionWatch) : Prop :=
  architect ∈ look.turns.map Prod.fst ∧ ∀ turn, (architect, turn) ∈ look.turns →
    look.canBeTold turn architect = true ∧
      watch.onCooldown (architectUtilizationInterventionKey architect)
        (fromSecs look.utilizationRecoveryIntervalSecs) (look.checkedAt turn) = false

section

variable {look : UtilizationLook} {found : Utilization} {watch : InterventionWatch}
  {architect : String}

theorem key_injective : Function.Injective architectUtilizationInterventionKey :=
  fun _ _ h => (String.append_right_inj "utilization::").mp h

/-- **A turn** does nothing, or makes an attempt that has waited for the cooldown. -/
theorem tellArchitect_cases (look : UtilizationLook) (found : Utilization)
    (watch : InterventionWatch) (architect : String) (turn : Nat) :
    look.tellArchitect found watch (architect, turn) = watch ∨
      watch.onCooldown (architectUtilizationInterventionKey architect)
          (fromSecs look.utilizationRecoveryIntervalSecs) (look.checkedAt turn) = false ∧
        ∃ entry, look.tellArchitect found watch (architect, turn) =
          watch.attempt look.toTeamLook turn (architectUtilizationInterventionKey architect)
            (fromSecs look.utilizationRecoveryIntervalSecs) entry := by
  unfold tellArchitect
  split
  · exact .inl rfl
  · dsimp only
    split
    · exact .inl rfl
    · split
      · exact .inl rfl
      · rename_i hcooldown
        exact .inr ⟨Bool.eq_false_of_not_eq_true hcooldown, _, rfl⟩

theorem spaced_tellArchitect (look : UtilizationLook) (found : Utilization)
    (watch : InterventionWatch) (architect : String) (turn : Nat)
    (h : watch.Spaced (look.checkedAt turn)) :
    (look.tellArchitect found watch (architect, turn)).Spaced (look.firedAt turn) := by
  rcases look.tellArchitect_cases found watch architect turn with hsame | ⟨hcooldown, entry, htold⟩
  · rw [hsame]
    exact h.mono ((look.checked_le turn).trans (look.delivered_le turn))
  · rw [htold]
    exact h.attempt hcooldown

theorem sameUnder_tellArchitect (look : UtilizationLook) (found : Utilization)
    (watch : InterventionWatch) (turn : String × Nat) (hne : architect ≠ turn.1) :
    watch.SameUnder (architectUtilizationInterventionKey architect)
      (look.tellArchitect found watch turn) := by
  obtain ⟨other, turn⟩ := turn
  rcases look.tellArchitect_cases found watch other turn with hsame | ⟨-, entry, htold⟩
  · rw [hsame]
    exact .refl _ _
  · rw [htold]
    exact InterventionWatch.sameUnder_attempt fun heq => hne (key_injective heq)

theorem tellArchitect_of_isKnown {turn : Nat} (h : found.IsKnown watch architect) :
    look.tellArchitect found watch (architect, turn) = watch := by
  unfold tellArchitect
  split
  · rfl
  · exact if_pos h

theorem triesOf_le_tellArchitect (architect : String × Nat) (key : String) :
    watch.triesOf key ≤ (look.tellArchitect found watch architect).triesOf key := by
  rcases look.tellArchitect_cases found watch architect.1 architect.2 with hsame | ⟨-, entry, htold⟩
  · exact (congrArg (fun next => next.triesOf key) hsame).ge
  · exact (Nat.le_add_right _ _).trans
      ((InterventionWatch.triesOf_attempt key).symm.trans
        (congrArg (fun next => next.triesOf key) htold).symm).le

/-- **An architect who was told of the gap** is not told again. -/
theorem sameUnder_turns (h : found.IsKnown watch architect) (turns : List (String × Nat)) :
    watch.SameUnder (architectUtilizationInterventionKey architect)
      (turns.foldl (look.tellArchitect found) watch) := by
  induction turns generalizing watch with
  | nil => exact .refl _ _
  | cons turn turns ih =>
    rw [List.foldl_cons]
    rcases eq_or_ne architect turn.1 with rfl | hne
    · rw [show look.tellArchitect found watch turn = watch from tellArchitect_of_isKnown h]
      exact ih h
    · have hsame := look.sameUnder_tellArchitect found watch turn hne
      refine hsame.trans (ih ?_)
      rw [Utilization.IsKnown, hsame.entry]
      exact h

theorem triesOf_lt_tellArchitect {turn : Nat} (h : ¬ found.IsKnown watch architect)
    (hcan : look.canBeTold turn architect = true)
    (hcooldown : watch.onCooldown (architectUtilizationInterventionKey architect)
      (fromSecs look.utilizationRecoveryIntervalSecs) (look.checkedAt turn) = false) :
    watch.triesOf (architectUtilizationInterventionKey architect) <
      (look.tellArchitect found watch (architect, turn)).triesOf
        (architectUtilizationInterventionKey architect) := by
  have htold : ∃ entry, look.tellArchitect found watch (architect, turn) =
      watch.attempt look.toTeamLook turn (architectUtilizationInterventionKey architect)
        (fromSecs look.utilizationRecoveryIntervalSecs) entry := by
    rw [tellArchitect, if_neg (by rw [hcan]; exact Bool.false_ne_true)]
    rw [Utilization.IsKnown] at h
    dsimp only
    rw [if_neg h, if_neg (by rw [hcooldown]; exact Bool.false_ne_true)]
    exact ⟨_, rfl⟩
  obtain ⟨entry, htold⟩ := htold
  rw [htold, InterventionWatch.triesOf_attempt, if_pos rfl]
  exact Nat.lt_succ_self _

/-- **An architect who was not**, and can be, is told. -/
theorem triesOf_lt_turns (h : ¬ found.IsKnown watch architect) (hfree : look.Free architect watch) :
    watch.triesOf (architectUtilizationInterventionKey architect) <
      (look.turns.foldl (look.tellArchitect found) watch).triesOf
        (architectUtilizationInterventionKey architect) := by
  refine InterventionWatch.triesOf_lt_foldl (fun _ turn => triesOf_le_tellArchitect turn _)
    (fun watch turn hne => look.sameUnder_tellArchitect found watch turn hne) hfree.1
    fun now turn hsame hturn => ?_
  obtain ⟨hcan, hcooldown⟩ := hfree.2 turn hturn
  refine triesOf_lt_tellArchitect ?_ hcan ?_
  · rwa [Utilization.IsKnown, hsame.entry]
  · rwa [hsame.onCooldown]

end

end UtilizationLook

namespace InterventionWatch

section

variable {watch : InterventionWatch} {look : UtilizationLook} {found : Utilization}
  {architect : String}

theorem spaced_utilization (watch : InterventionWatch) (look : UtilizationLook)
    (h : watch.Spaced look.startedAt) :
    (watch.maybeInterveneArchitectUtilization look).Spaced look.endedAt := by
  unfold maybeInterveneArchitectUtilization
  split
  · exact h.turns (look.spaced_tellArchitect _) _
  · exact h.mono look.started_le_ended

theorem triesOf_le_utilization (key : String) (watch : InterventionWatch)
    (look : UtilizationLook) :
    watch.triesOf key ≤ (watch.maybeInterveneArchitectUtilization look).triesOf key := by
  unfold maybeInterveneArchitectUtilization
  split
  · exact triesOf_le_foldl (fun _ turn => UtilizationLook.triesOf_le_tellArchitect turn key) _ _
  · exact le_rfl

/-- **A tick with a gap** that the architect was told of changes nothing for it. -/
theorem sameUnder_utilization (hgap : look.check = .gap found)
    (hknown : found.IsKnown watch architect) :
    watch.SameUnder (architectUtilizationInterventionKey architect)
      (watch.maybeInterveneArchitectUtilization look) := by
  rw [maybeInterveneArchitectUtilization, hgap]
  exact UtilizationLook.sameUnder_turns hknown _

/-- **A tick with another gap** makes an attempt. -/
theorem triesOf_lt_utilization (hgap : look.check = .gap found)
    (hfree : look.Free architect watch) (hnew : ¬ found.IsKnown watch architect) :
    watch.triesOf (architectUtilizationInterventionKey architect) <
      (watch.maybeInterveneArchitectUtilization look).triesOf
        (architectUtilizationInterventionKey architect) := by
  rw [maybeInterveneArchitectUtilization, hgap]
  exact UtilizationLook.triesOf_lt_turns hnew hfree

end

/-- A gap of the utilization that comes back. -/
abbrev UtilizationBack (architect : String) (looks : List UtilizationLook) : Type :=
  ComesBack maybeInterveneArchitectUtilization UtilizationLook.check
    (fun watch look => look.Free architect watch) looks

/-- **The architect is told of a gap that comes back** exactly if it was told of one since, or at one
of the ticks the gap is another one than that which it was told of last. -/
theorem utilization_fires_iff {architect : String} {looks : List UtilizationLook}
    (back : UtilizationBack architect looks) :
    back.Fires (architectUtilizationInterventionKey architect) ↔
      back.Fired (architectUtilizationInterventionKey architect) ∨
        ¬ (back.found.IsKnown back.watch architect ∧
          back.found'.IsKnown back.watch architect) := by
  have hle := back.start_le (triesOf_le_utilization (architectUtilizationInterventionKey architect))
  have hmono := triesOf_le_utilization (architectUtilizationInterventionKey architect)
  unfold ComesBack.Fires ComesBack.Fired
  by_cases hknown : back.found.IsKnown back.watch architect
  · have hsame := sameUnder_utilization back.there hknown
    by_cases hknown' : back.found'.IsKnown back.watch architect
    -- The first tick was quiet, so the second finds the entry that was there before it.
    · have hknown'' : back.found'.IsKnown
          (back.watch.maybeInterveneArchitectUtilization back.first) architect := by
        rw [Utilization.IsKnown, hsame.entry]
        exact hknown'
      rw [(sameUnder_utilization back.stays hknown'').tries, hsame.tries]
      simp [hknown, hknown']
    · refine iff_of_true (Nat.lt_of_le_of_lt (hsame.tries.symm ▸ hle) ?_)
        (.inr fun h => hknown' h.2)
      refine triesOf_lt_utilization back.stays ⟨back.free_second.1, fun turn hturn => ?_⟩ ?_
      · rw [hsame.onCooldown]
        exact back.free_second.2 turn hturn
      · rw [Utilization.IsKnown, hsame.entry]
        exact hknown'
  -- The gap was new at the first of the two ticks, and tries are never taken back.
  · refine iff_of_true ?_ (.inr fun h => hknown h.1)
    exact Nat.lt_of_lt_of_le (Nat.lt_of_le_of_lt hle
      (triesOf_lt_utilization back.there back.free_first hknown)) (hmono _ _)

end InterventionWatch

end Batty
