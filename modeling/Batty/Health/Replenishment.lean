import Batty.Health.OwnedTasks
import Batty.Health.Utilization

/-!
# Telling architects of an empty board

When there are more idle engineers than tasks that they could take, for two ticks alike, each idle
architect is told to fill the board, and told again after a quarter of an hour. What was seen is
forgotten as soon as the gap is gone, and a gap that comes back is told of (`replenishment_fires`),
other than that of the utilization; `InterventionWatch.reintervenes` is about both.
-/

namespace Batty

def boardReplenishmentStreakRequired : Nat := 2

def boardReplenishmentRequestIntervalSecs : Nat := 15 * 60

def workingGraceSecs : Nat := 300

/-- What a tick sees, and whether it comes to asking for reviews first. -/
structure ReplenishmentLook extends TeamLook where
  autoReplenish : Bool := true
  nudgeDisabled : Bool := false
  resolver : Except String (Board × Calendar)
  emitsReviewDrain : Except String Bool := .ok false
  secsSinceStateChange : String → Option Nat := fun _ => none

/-- A gap: what the architect is told of. -/
structure Replenishment where
  idleEngineers : List String
  unblockedTodoTasks : List Task
  todoCount : Nat
  inProgressCount : Nat
  doneCount : Nat

def boardReplenishmentInterventionKey (memberName : String) : String :=
  "replenishment::" ++ memberName

def Replenishment.signature (found : Replenishment) : String :=
  let counts := s!"counts:{found.todoCount}:{found.inProgressCount}:{found.doneCount}"
  let idle := s!"idle:{found.idleEngineers.length}"
  let idleFree := found.idleEngineers.map fun engineer => s!"idle-free:{engineer}"
  let todo := found.unblockedTodoTasks.map fun task => s!"todo:{task.id}:{task.title}"
  "|".intercalate (([counts, idle] ++ idleFree ++ todo).insertionSort (· ≤ ·))

namespace ReplenishmentLook

variable (look : ReplenishmentLook)

def replenishment (tasks : List Task) (dispatchableTaskIds : List Nat) : Replenishment where
  idleEngineers := look.idleUnassignedEngineers tasks
  unblockedTodoTasks := tasks.filter fun task => dispatchableTaskIds.contains task.id
  todoCount := (tasks.filter fun task => task.status = "todo").length
  inProgressCount := (tasks.filter fun task =>
    task.status = "in-progress" || task.status = "in_progress").length
  doneCount := (tasks.filter fun task => task.status = "done" || task.status = "archived").length

/-- Whether there is a gap. -/
def check : GapCheck Replenishment :=
  if look.paused || !look.autoReplenish || look.nudgeDisabled then .quiet
  else
    match look.tasks, look.resolver with
    | .error _, _ | _, .error _ => .quiet
    | .ok tasks, .ok (board, calendar) =>
      let dispatchable := engineerDispatchableTasks board calendar look.members
      if look.architects.isEmpty || look.engineerNames.isEmpty then .quiet
      else if allEngineersHaveActiveTasks look.engineerNames tasks then .noGap
      else
        let found := look.replenishment tasks (dispatchable.map Task.id)
        if found.idleEngineers = [] then .noGap
        else if found.idleEngineers.length ≤ found.unblockedTodoTasks.length then .noGap
        else
          match look.emitsReviewDrain with
          | .error _ => .quiet
          | .ok true => .noGap
          | .ok false => .gap found

def turns : List (String × Nat) := (look.architects.map MemberInstance.name).zipIdx

/-- Whether an architect can be told in a turn of the loop; who has been working for long may have
come to rest unnoticed. -/
def canBeTold (turn : Nat) (architect : String) : Bool :=
  if look.isMemberIdle architect then look.readyForIdleAutomation turn architect
  else (look.secsSinceStateChange architect).any fun secs => decide (workingGraceSecs < secs)

/-- How often the same gap has been seen, this time included. -/
def streak (found : Replenishment) (watch : InterventionWatch) (key : String) : Nat :=
  let prior := ((watch.ownedTaskInterventions key).filter fun state =>
    state.signature = found.signature).map OwnedTaskInterventionState.idleEpoch
  min (prior.getD 0 + 1) (2 ^ 64 - 1)

/-- One turn of the loop over the architects. -/
def tellArchitect (found : Replenishment) (watch : InterventionWatch) (architect : String × Nat) :
    InterventionWatch :=
  if !look.canBeTold architect.2 architect.1 then watch
  else
    let key := boardReplenishmentInterventionKey architect.1
    let cooldown := fromSecs boardReplenishmentRequestIntervalSecs
    let streak := streak found watch key
    let entry : OwnedTaskInterventionState :=
      { idleEpoch := streak
        signature := found.signature
        detectedAt := look.checkedAt architect.2
        escalationSent := false }
    let watch := watch.setEntry key (some entry)
    if streak < boardReplenishmentStreakRequired then watch
    else if watch.onCooldown key cooldown (look.checkedAt architect.2) then watch
    else
      watch.attempt look.toTeamLook architect.2 key cooldown
        { entry with detectedAt := look.firedAt architect.2, escalationSent := true }

end ReplenishmentLook

namespace InterventionWatch

def clearBoardReplenishmentStreaks (watch : InterventionWatch) (keys : List String) :
    InterventionWatch :=
  keys.foldl (fun watch key => watch.setEntry key none) watch

def maybeInterveneBoardReplenishment (watch : InterventionWatch) (look : ReplenishmentLook) :
    InterventionWatch :=
  match look.check with
  | .quiet => watch
  | .noGap => watch.clearBoardReplenishmentStreaks
      (look.architects.map fun architect => boardReplenishmentInterventionKey architect.name)
  | .gap found => look.turns.foldl (look.tellArchitect found) watch

end InterventionWatch

/-! ### What a turn and a tick do -/

/-- The gap is the one that was seen at the last look. -/
def Replenishment.IsNoted (found : Replenishment) (watch : InterventionWatch) (architect : String) :
    Prop :=
  ∃ entry, watch.ownedTaskInterventions (boardReplenishmentInterventionKey architect) = some entry ∧
    entry.signature = found.signature ∧ 1 ≤ entry.idleEpoch

namespace ReplenishmentLook

/-- The architect has a turn, and in each that it has it can be told and is past the cooldown. -/
def Free (look : ReplenishmentLook) (architect : String) (watch : InterventionWatch) : Prop :=
  architect ∈ look.turns.map Prod.fst ∧ ∀ turn, (architect, turn) ∈ look.turns →
    look.canBeTold turn architect = true ∧
      watch.onCooldown (boardReplenishmentInterventionKey architect)
        (fromSecs boardReplenishmentRequestIntervalSecs) (look.checkedAt turn) = false

section

variable {look : ReplenishmentLook} {found : Replenishment} {watch : InterventionWatch}
  {architect : String} {turn : Nat}

theorem key_injective : Function.Injective boardReplenishmentInterventionKey :=
  fun _ _ h => (String.append_right_inj "replenishment::").mp h

theorem one_le_streak (key : String) : 1 ≤ streak found watch key := by
  unfold streak
  dsimp only
  omega

theorem two_le_streak (h : found.IsNoted watch architect) :
    2 ≤ streak found watch (boardReplenishmentInterventionKey architect) := by
  obtain ⟨entry, hentry, hsignature, hepoch⟩ := h
  unfold streak
  rw [hentry]
  simp only [hsignature, decide_true, Option.filter_some, if_true, Option.map_some, Option.getD_some]
  omega

/-- **A turn** of an architect who can be told notes the gap, and tells of it if it was noted before,
unless it has to wait. -/
theorem tellArchitect_of_canBeTold (found : Replenishment) (watch : InterventionWatch)
    (h : look.canBeTold turn architect = true) :
    let key := boardReplenishmentInterventionKey architect
    let cooldown := fromSecs boardReplenishmentRequestIntervalSecs
    ∃ entry noted : OwnedTaskInterventionState, entry.signature = found.signature ∧
      1 ≤ entry.idleEpoch ∧ noted.signature = found.signature ∧ 1 ≤ noted.idleEpoch ∧
      look.tellArchitect found watch (architect, turn) =
        if streak found watch key < boardReplenishmentStreakRequired ∨
            watch.onCooldown key cooldown (look.checkedAt turn) = true then
          watch.setEntry key (some noted)
        else (watch.setEntry key (some noted)).attempt look.toTeamLook turn key cooldown entry := by
  refine ⟨{ idleEpoch := streak found watch (boardReplenishmentInterventionKey architect)
            signature := found.signature
            detectedAt := look.firedAt turn
            escalationSent := true },
    { idleEpoch := streak found watch (boardReplenishmentInterventionKey architect)
      signature := found.signature
      detectedAt := look.checkedAt turn
      escalationSent := false },
    rfl, one_le_streak _, rfl, one_le_streak _, ?_⟩
  rw [tellArchitect, if_neg (by rw [h]; exact Bool.false_ne_true)]
  dsimp only
  -- To note a gap does not touch the time of the last intervention.
  have hcooldown : ∀ entry, (watch.setEntry (boardReplenishmentInterventionKey architect)
      entry).onCooldown (boardReplenishmentInterventionKey architect)
        (fromSecs boardReplenishmentRequestIntervalSecs) (look.checkedAt turn) =
      watch.onCooldown (boardReplenishmentInterventionKey architect)
        (fromSecs boardReplenishmentRequestIntervalSecs) (look.checkedAt turn) := fun _ => rfl
  rw [hcooldown]
  split
  · rw [if_pos (.inl ‹_›)]
  · split
    · rw [if_pos (.inr ‹_›)]
    · rw [if_neg (by rintro (h | h) <;> contradiction)]

theorem tellArchitect_of_not_canBeTold (h : look.canBeTold turn architect = false) :
    look.tellArchitect found watch (architect, turn) = watch := by
  rw [tellArchitect, if_pos (by rw [h]; rfl)]

theorem spaced_tellArchitect (look : ReplenishmentLook) (found : Replenishment)
    (watch : InterventionWatch) (architect : String) (turn : Nat)
    (h : watch.Spaced (look.checkedAt turn)) :
    (look.tellArchitect found watch (architect, turn)).Spaced (look.firedAt turn) := by
  have hle := (look.checked_le turn).trans (look.delivered_le turn)
  cases hcan : look.canBeTold turn architect with
  | false =>
    rw [tellArchitect_of_not_canBeTold hcan]
    exact h.mono hle
  | true =>
    obtain ⟨entry, noted, -, -, -, -, htold⟩ :=
      tellArchitect_of_canBeTold found watch hcan
    rw [htold]
    split
    · exact h.setEntry.mono hle
    · rename_i hnot
      exact h.setEntry.attempt (Bool.eq_false_of_not_eq_true fun hon => hnot (.inr hon))

theorem sameUnder_tellArchitect (look : ReplenishmentLook) (found : Replenishment)
    (watch : InterventionWatch) (turn : String × Nat) (hne : architect ≠ turn.1) :
    watch.SameUnder (boardReplenishmentInterventionKey architect)
      (look.tellArchitect found watch turn) := by
  obtain ⟨other, turn⟩ := turn
  have hkey := key_injective.ne hne
  cases hcan : look.canBeTold turn other with
  | false =>
    rw [tellArchitect_of_not_canBeTold hcan]
    exact .refl _ _
  | true =>
    obtain ⟨entry, noted, -, -, -, -, htold⟩ :=
      tellArchitect_of_canBeTold found watch hcan
    rw [htold]
    split
    · exact InterventionWatch.sameUnder_setEntry hkey
    · exact (InterventionWatch.sameUnder_setEntry hkey).trans
        (InterventionWatch.sameUnder_attempt hkey)

/-- What is noted of a gap in a turn stays noted. -/
theorem isNoted_tellArchitect (hcan : look.canBeTold turn architect = true) :
    found.IsNoted (look.tellArchitect found watch (architect, turn)) architect := by
  obtain ⟨entry, noted, hsignature, hepoch, hsignature', hepoch', htold⟩ :=
    tellArchitect_of_canBeTold found watch hcan
  have hset : found.IsNoted
      (watch.setEntry (boardReplenishmentInterventionKey architect) (some noted)) architect :=
    ⟨noted, by simp [InterventionWatch.setEntry], hsignature', hepoch'⟩
  rw [htold]
  split
  · exact hset
  · unfold InterventionWatch.attempt
    cases look.deliver turn with
    | error error => exact hset
    | ok _ => exact ⟨entry, by simp [InterventionWatch.setEntry], hsignature, hepoch⟩

/-- In a turn either an attempt is made or the time of the last intervention stays. -/
theorem triesOf_tellArchitect (found : Replenishment) (watch : InterventionWatch)
    (architect : String) (turn : Nat) :
    let key := boardReplenishmentInterventionKey architect
    let next := look.tellArchitect found watch (architect, turn)
    watch.triesOf key < next.triesOf key ∨
      next.triesOf key = watch.triesOf key ∧
        next.interventionCooldowns key = watch.interventionCooldowns key := by
  dsimp only
  cases hcan : look.canBeTold turn architect with
  | false =>
    rw [tellArchitect_of_not_canBeTold hcan]
    exact .inr ⟨rfl, rfl⟩
  | true =>
    obtain ⟨entry, noted, -, -, -, -, htold⟩ :=
      tellArchitect_of_canBeTold found watch hcan
    rw [htold]
    split
    · exact .inr ⟨rfl, rfl⟩
    · refine .inl ?_
      rw [InterventionWatch.triesOf_attempt, if_pos rfl]
      exact Nat.lt_succ_self _

/-! ### The loop -/

/-- The time of the last intervention stays, unless an attempt is made. -/
theorem triesOf_turns (look : ReplenishmentLook) (found : Replenishment)
    (watch : InterventionWatch) (architect : String) (turns : List (String × Nat)) :
    let key := boardReplenishmentInterventionKey architect
    let next := turns.foldl (look.tellArchitect found) watch
    watch.triesOf key < next.triesOf key ∨
      next.triesOf key = watch.triesOf key ∧
        next.interventionCooldowns key = watch.interventionCooldowns key := by
  induction turns generalizing watch with
  | nil => exact .inr ⟨rfl, rfl⟩
  | cons turn turns ih =>
    have hone : watch.triesOf (boardReplenishmentInterventionKey architect) <
          (look.tellArchitect found watch turn).triesOf
            (boardReplenishmentInterventionKey architect) ∨
        (look.tellArchitect found watch turn).triesOf
            (boardReplenishmentInterventionKey architect) =
          watch.triesOf (boardReplenishmentInterventionKey architect) ∧
        (look.tellArchitect found watch turn).interventionCooldowns
            (boardReplenishmentInterventionKey architect) =
          watch.interventionCooldowns (boardReplenishmentInterventionKey architect) := by
      -- The turns of the other architects are about keys of their own.
      rcases eq_or_ne architect turn.1 with rfl | hne
      · exact triesOf_tellArchitect found watch turn.1 turn.2
      · have hsame := look.sameUnder_tellArchitect found watch turn hne
        exact .inr ⟨hsame.tries, hsame.cooldown⟩
    have hrest := ih (look.tellArchitect found watch turn)
    dsimp only at hrest ⊢
    rw [List.foldl_cons]
    rcases hone with hlt | ⟨htries, hcooldown⟩
    · rcases hrest with hlt' | ⟨htries', -⟩
      · exact .inl (hlt.trans hlt')
      · exact .inl (htries' ▸ hlt)
    · rw [← htries, ← hcooldown]
      exact hrest

/-- **A gap is noted** by a loop in which the architect can be told. -/
theorem isNoted_turns (look : ReplenishmentLook) (found : Replenishment)
    (watch : InterventionWatch) {turns : List (String × Nat)}
    (hmem : architect ∈ turns.map Prod.fst ∨ found.IsNoted watch architect)
    (hcan : ∀ turn, (architect, turn) ∈ turns → look.canBeTold turn architect = true) :
    found.IsNoted (turns.foldl (look.tellArchitect found) watch) architect := by
  induction turns generalizing watch with
  | nil => exact hmem.resolve_left (List.not_mem_nil)
  | cons turn turns ih =>
    rw [List.foldl_cons]
    refine ih _ ?_ fun number hnumber => hcan number (List.mem_cons_of_mem _ hnumber)
    rcases eq_or_ne architect turn.1 with rfl | hne
    · exact .inr (isNoted_tellArchitect (hcan turn.2 List.mem_cons_self))
    · rcases hmem with hmem | ⟨entry, hentry, hnoted⟩
      · exact .inl ((List.mem_cons.mp hmem).resolve_left hne)
      · refine .inr ⟨entry, ?_, hnoted⟩
        rw [← hentry]
        exact (look.sameUnder_tellArchitect found watch turn hne).entry

theorem triesOf_le_tellArchitect (found : Replenishment) (architect : String)
    (watch : InterventionWatch) (turn : String × Nat) :
    watch.triesOf (boardReplenishmentInterventionKey architect) ≤
      (look.tellArchitect found watch turn).triesOf
        (boardReplenishmentInterventionKey architect) := by
  rcases look.triesOf_turns found watch architect [turn] with hlt | ⟨hsame, -⟩
  · exact hlt.le
  · exact hsame.ge

theorem triesOf_lt_tellArchitect (h : found.IsNoted watch architect)
    (hcan : look.canBeTold turn architect = true)
    (hcooldown : watch.onCooldown (boardReplenishmentInterventionKey architect)
      (fromSecs boardReplenishmentRequestIntervalSecs) (look.checkedAt turn) = false) :
    watch.triesOf (boardReplenishmentInterventionKey architect) <
      (look.tellArchitect found watch (architect, turn)).triesOf
        (boardReplenishmentInterventionKey architect) := by
  obtain ⟨entry, noted, -, -, -, -, htold⟩ := tellArchitect_of_canBeTold found watch hcan
  have hnot : ¬ (streak found watch (boardReplenishmentInterventionKey architect) <
        boardReplenishmentStreakRequired ∨
      watch.onCooldown (boardReplenishmentInterventionKey architect)
        (fromSecs boardReplenishmentRequestIntervalSecs) (look.checkedAt turn) = true) := by
    rintro (hless | hon)
    · exact absurd hless (Nat.not_lt.mpr (two_le_streak h))
    · rw [hcooldown] at hon
      cases hon
  rw [htold, if_neg hnot, InterventionWatch.triesOf_attempt, if_pos rfl]
  exact Nat.lt_succ_self _

/-- **An architect who can be told of a gap that was noted** is told. -/
theorem triesOf_lt_turns (h : found.IsNoted watch architect) (hfree : look.Free architect watch) :
    watch.triesOf (boardReplenishmentInterventionKey architect) <
      (look.turns.foldl (look.tellArchitect found) watch).triesOf
        (boardReplenishmentInterventionKey architect) := by
  refine InterventionWatch.triesOf_lt_foldl (triesOf_le_tellArchitect found architect)
    (fun watch turn hne => look.sameUnder_tellArchitect found watch turn hne) hfree.1
    fun now turn hsame hturn => ?_
  obtain ⟨hcan, hcooldown⟩ := hfree.2 turn hturn
  obtain ⟨entry, hentry, hnoted⟩ := h
  refine triesOf_lt_tellArchitect ⟨entry, hsame.entry.trans hentry, hnoted⟩ hcan ?_
  rwa [hsame.onCooldown]

end

end ReplenishmentLook

namespace InterventionWatch

section

variable {watch : InterventionWatch} {look : ReplenishmentLook} {found : Replenishment}
  {architect : String}

theorem clearBoardReplenishmentStreaks_eq (watch : InterventionWatch) (keys : List String) :
    (watch.clearBoardReplenishmentStreaks keys).attempts = watch.attempts ∧
      (watch.clearBoardReplenishmentStreaks keys).interventionCooldowns =
        watch.interventionCooldowns := by
  unfold clearBoardReplenishmentStreaks
  induction keys generalizing watch with
  | nil => exact ⟨rfl, rfl⟩
  | cons key keys ih => exact ih (watch.setEntry key none)

theorem spaced_replenishment (watch : InterventionWatch) (look : ReplenishmentLook)
    (h : watch.Spaced look.startedAt) :
    (watch.maybeInterveneBoardReplenishment look).Spaced look.endedAt := by
  unfold maybeInterveneBoardReplenishment
  split
  · exact h.mono look.started_le_ended
  · obtain ⟨hattempts, hcooldowns⟩ := watch.clearBoardReplenishmentStreaks_eq
      (look.architects.map fun architect => boardReplenishmentInterventionKey architect.name)
    have hspaced := h.mono look.started_le_ended
    refine ⟨?_, ?_, ?_⟩
    · rw [Apart, hattempts]
      exact hspaced.apart
    · rw [hattempts]
      exact hspaced.past
    · rw [hattempts, hcooldowns]
      exact hspaced.noted
  · exact h.turns (look.spaced_tellArchitect _) _

theorem triesOf_le_replenishment (architect : String) (watch : InterventionWatch)
    (look : ReplenishmentLook) :
    watch.triesOf (boardReplenishmentInterventionKey architect) ≤
      (watch.maybeInterveneBoardReplenishment look).triesOf
        (boardReplenishmentInterventionKey architect) := by
  unfold maybeInterveneBoardReplenishment
  split
  · exact le_rfl
  · rw [triesOf, triesOf, (watch.clearBoardReplenishmentStreaks_eq _).1]
  · rcases look.triesOf_turns _ watch architect look.turns with hlt | ⟨hsame, -⟩
    · exact hlt.le
    · exact hsame.ge

/-- A gap of the board that comes back. -/
abbrev ReplenishmentBack (architect : String) (looks : List ReplenishmentLook) : Type :=
  ComesBack maybeInterveneBoardReplenishment ReplenishmentLook.check
    (fun watch look => look.Free architect watch) looks

/-- **The architect is told of a gap that comes back** and is the same for two ticks, or is the one
that was noted at the last look. -/
theorem replenishment_fires {looks : List ReplenishmentLook}
    (back : ReplenishmentBack architect looks)
    (hstable : back.found.signature = back.found'.signature ∨
      back.found.IsNoted back.watch architect) :
    back.Fires (boardReplenishmentInterventionKey architect) := by
  have hmono := triesOf_le_replenishment architect
  have hle := back.start_le hmono
  set key := boardReplenishmentInterventionKey architect
  have hfirst : back.watch.maybeInterveneBoardReplenishment back.first =
      back.first.turns.foldl (back.first.tellArchitect back.found) back.watch := by
    rw [maybeInterveneBoardReplenishment, back.there]
  -- It is enough that there is an attempt at one of the two ticks.
  suffices heither : back.watch.triesOf key <
        (back.watch.maybeInterveneBoardReplenishment back.first).triesOf key ∨
      (back.watch.maybeInterveneBoardReplenishment back.first).triesOf key <
        ((back.watch.maybeInterveneBoardReplenishment back.first).maybeInterveneBoardReplenishment
          back.second).triesOf key by
    rcases heither with hlt | hlt
    · exact Nat.lt_of_lt_of_le (Nat.lt_of_le_of_lt hle hlt) (hmono _ _)
    · exact Nat.lt_of_le_of_lt (hle.trans (hmono _ _)) hlt
  rcases hstable with hsame | hnoted
  · rcases back.first.triesOf_turns back.found back.watch architect back.first.turns with hlt | ⟨-, hcooldown⟩
    · exact .inl (hfirst ▸ hlt)
    · refine .inr ?_
      have hnoted := back.first.isNoted_turns back.found back.watch
        (.inl back.free_first.1) fun turn hturn => (back.free_first.2 turn hturn).1
      rw [← hfirst] at hnoted hcooldown
      have hnoted' : back.found'.IsNoted
          (back.watch.maybeInterveneBoardReplenishment back.first) architect := by
        obtain ⟨entry, hentry, hsignature, hepoch⟩ := hnoted
        exact ⟨entry, hentry, hsignature.trans hsame, hepoch⟩
      have hsecond : ∀ watch : InterventionWatch,
          watch.maybeInterveneBoardReplenishment back.second =
            back.second.turns.foldl (back.second.tellArchitect back.found') watch := fun watch => by
        rw [maybeInterveneBoardReplenishment, back.stays]
      rw [hsecond]
      refine ReplenishmentLook.triesOf_lt_turns hnoted' ⟨back.free_second.1, fun turn hturn => ?_⟩
      rw [onCooldown, hcooldown]
      exact back.free_second.2 turn hturn
  · refine .inl ?_
    rw [hfirst]
    exact ReplenishmentLook.triesOf_lt_turns hnoted back.free_first

end

/-! ### Whole runs -/

/-- **Interventions are a cooldown apart**, and a gap that comes back is told of: that of the
utilization exactly if an architect was told of one since, or at one of two ticks it is another one
than that which the architect was told of last; that of the board if it is the same at two ticks, or
the one that was noted at the last look. -/
theorem reintervenes (architect : String) (looks : List UtilizationLook)
    (boardLooks : List ReplenishmentLook) :
    (Chronological UtilizationLook.toTeamLook looks →
        (looks.foldl maybeInterveneArchitectUtilization {}).Apart) ∧
      (Chronological ReplenishmentLook.toTeamLook boardLooks →
        (boardLooks.foldl maybeInterveneBoardReplenishment {}).Apart) ∧
      (∀ back : UtilizationBack architect looks,
        back.Fires (architectUtilizationInterventionKey architect) ↔
          back.Fired (architectUtilizationInterventionKey architect) ∨
            ¬ (back.found.IsKnown back.watch architect ∧
              back.found'.IsKnown back.watch architect)) ∧
      ∀ back : ReplenishmentBack architect boardLooks,
        back.found.signature = back.found'.signature ∨
            back.found.IsNoted back.watch architect →
          back.Fires (boardReplenishmentInterventionKey architect) :=
  ⟨apart_of_ticks spaced_utilization, apart_of_ticks spaced_replenishment, utilization_fires_iff,
    replenishment_fires⟩

theorem fromSecs_le_self (secs : Nat) : fromSecs secs ≤ fromSecs secs := le_rfl

/-- A look at a team of an architect and two engineers, who are all idle or are as is said. -/
def sampleLook (secs : Nat) (engineers : Option WatcherState) : UtilizationLook where
  members := [⟨"arch", "architect", .architect, none, false⟩,
    ⟨"eng-1", "engineer", .engineer, some "arch", false⟩,
    ⟨"eng-2", "engineer", .engineer, some "arch", false⟩]
  tasks := .ok (waitingBoard 2).tasks
  watchers := fun name => if name = "arch" then none else engineers
  idleStartedAt := fun _ => some 0
  startedAt := fromSecs secs
  -- The look takes no time.
  started_le := fromSecs_le_self secs
  checked_le := fun _ => fromSecs_le_self secs
  delivered_le := fun _ => fromSecs_le_self secs
  fired_le := fun _ => fromSecs_le_self secs
  ended_le := fun _ => fromSecs_le_self secs
  resolver := .ok (waitingBoard 2, undated)

def sampleLooks : List UtilizationLook :=
  [sampleLook 100 none, sampleLook 200 (some .active), sampleLook 2000 none, sampleLook 2010 none]

theorem free_sampleLook {watch : InterventionWatch} {secs : Nat} {engineers : Option WatcherState}
    (hready : (sampleLook secs engineers).canBeTold 0 "arch" = true)
    (hcooldown : watch.onCooldown (architectUtilizationInterventionKey "arch") (fromSecs 1200)
      (fromSecs secs) = false) : (sampleLook secs engineers).Free "arch" watch := by
  have hturns : (sampleLook secs engineers).turns = [("arch", 0)] := rfl
  refine ⟨by rw [hturns]; decide, fun turn hturn => ?_⟩
  rw [hturns] at hturn
  cases List.mem_singleton.mp hturn
  exact ⟨hready, hcooldown⟩

/-- The engineers have worked and are idle again, with the same task open. -/
def sampleBack : UtilizationBack "arch" sampleLooks where
  before := [sampleLook 100 none]
  recovered := sampleLook 200 (some .active)
  between := []
  first := sampleLook 2000 none
  second := sampleLook 2010 none
  after := []
  found := (sampleLook 2000 none).utilization (waitingBoard 2).tasks [1]
  found' := (sampleLook 2010 none).utilization (waitingBoard 2).tasks [1]
  split := rfl
  gone := rfl
  there := rfl
  stays := rfl
  free_first := free_sampleLook (by decide) (by decide)
  free_second := free_sampleLook (by decide) (by decide)

/-- The architect is not told of it again. -/
theorem not_fires_sampleBack :
    ¬ ∀ (architect : String) (looks : List UtilizationLook)
      (back : UtilizationBack architect looks),
      back.Fires (architectUtilizationInterventionKey architect) := by
  intro h
  have hfires := h "arch" sampleLooks sampleBack
  unfold ComesBack.Fires at hfires
  revert hfires
  decide

/-- The same look for the board. -/
def sampleBoardLook (secs : Nat) (engineers : Option WatcherState) : ReplenishmentLook :=
  { (sampleLook secs engineers).toTeamLook with resolver := .ok (waitingBoard 2, undated) }

def sampleBoardLooks : List ReplenishmentLook :=
  [sampleBoardLook 100 none, sampleBoardLook 110 none, sampleBoardLook 200 (some .active),
    sampleBoardLook 2000 none, sampleBoardLook 2010 none]

theorem free_sampleBoardLook {watch : InterventionWatch} {secs : Nat}
    {engineers : Option WatcherState}
    (hready : (sampleBoardLook secs engineers).canBeTold 0 "arch" = true)
    (hcooldown : watch.onCooldown (boardReplenishmentInterventionKey "arch") (fromSecs (15 * 60))
      (fromSecs secs) = false) : (sampleBoardLook secs engineers).Free "arch" watch := by
  have hturns : (sampleBoardLook secs engineers).turns = [("arch", 0)] := rfl
  refine ⟨by rw [hturns]; decide, fun turn hturn => ?_⟩
  rw [hturns] at hturn
  cases List.mem_singleton.mp hturn
  exact ⟨hready, hcooldown⟩

def sampleBoardBack : ReplenishmentBack "arch" sampleBoardLooks where
  before := [sampleBoardLook 100 none, sampleBoardLook 110 none]
  recovered := sampleBoardLook 200 (some .active)
  between := []
  first := sampleBoardLook 2000 none
  second := sampleBoardLook 2010 none
  after := []
  found := (sampleBoardLook 2000 none).replenishment (waitingBoard 2).tasks [1]
  found' := (sampleBoardLook 2010 none).replenishment (waitingBoard 2).tasks [1]
  split := rfl
  gone := rfl
  there := rfl
  stays := rfl
  free_first := free_sampleBoardLook (by decide) (by decide)
  free_second := free_sampleBoardLook (by decide) (by decide)

/-- Both runs keep the cooldown, and the architect is told of the empty board again. -/
theorem reintervenes_sampleLooks :
    (sampleLooks.foldl maybeInterveneArchitectUtilization {}).Apart ∧
      (sampleBoardLooks.foldl maybeInterveneBoardReplenishment {}).Apart ∧
      sampleBoardBack.Fires (boardReplenishmentInterventionKey "arch") := by
  have h := reintervenes "arch" sampleLooks sampleBoardLooks
  refine ⟨h.1 ?_, h.2.1 ?_, h.2.2.2 sampleBoardBack (.inl rfl)⟩
  · unfold Chronological
    decide
  · unfold Chronological
    decide

end InterventionWatch

end Batty
