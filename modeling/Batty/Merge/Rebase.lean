import Mathlib.Algebra.Order.Ring.Int
import Batty.Merge.Additive
import Batty.Foundation.Fallible
import Mathlib.Data.List.Nodup

/-!
# Conflicts of a rebase

When an engineer's branch does not go onto the trunk, the conflicts are resolved without anybody
being asked if each is in a file that the daemon manages, of which the trunk's version is to be
taken, or in one of a few files that are only added to.

Of the managed files the wrong version is taken. In a rebase `--theirs` is the commit that is put
onto the trunk, so that the engineer's version of the file goes to the trunk; and when there is no
such version, or the checkout fails, the file goes there as the conflict left it
(`not_resolvesSoundly_managed`). `resolvesSoundly_iff_harmlessConflicts` says for which conflicts
this does no harm.
-/

namespace Batty

/-! ### Conflicts -/

abbrev Content := List Char

/-- A path that two sides have changed. There may be no version of it on a side. -/
structure Conflict where
  path : String
  base : Option Content
  /-- The trunk's version, stage 2. -/
  ours : Option Content
  /-- The version of the commit that is being replayed, stage 3. -/
  theirs : Option Content
  /-- What is in the file meanwhile. -/
  worktree : Option Content

/-- Batty-managed configs and generated files. -/
def autoResolvable (path : String) : Bool :=
  path = ".cargo/config.toml" || ".cargo/config.toml".toList.isSuffixOf path.toList ||
    "src/team/templates/batty_".toList.isPrefixOf path.toList

def additiveConflictAutoResolveFence : List String :=
  ["src/team/task_loop.rs", "src/team/review.rs"]

/-- The conflicts at which a rebase stops, one for a path. -/
structure Round where
  conflicts : List Conflict
  nodup : (conflicts.map Conflict.path).Nodup

/-- A conflicted path on the way to its resolution. -/
structure Slot where
  conflict : Conflict
  file : Option Content
  staged : Option (Option Content) := none

def Conflict.slot (conflict : Conflict) : Slot := { conflict, file := conflict.worktree }

/-- The other side's version in the file, if there is one. -/
def Slot.takeTheirs (slot : Slot) : Slot :=
  match slot.conflict.theirs with
  | some text => { slot with file := some text }
  | none => slot

/-- A rebase that has stopped: the conflicts of the present commit, those of the commits to come,
and how those before were resolved. -/
structure Rebase where
  slots : List Slot
  rounds : List Round
  resolved : List (Conflict × Option Content) := []
  commands : Nat := 0
  aborted : Bool := false

/-- How the commands fail, each by its number. -/
structure GitFaults where
  /-- Git cannot be run, to list the conflicts or to go on. -/
  runs : Nat → Bool
  lists : Nat → Bool
  checksOut : Nat → Bool
  adds : Nat → Bool
  reads : Nat → Bool
  writes : Nat → Bool
  goesOn : Nat → Bool

abbrev RebaseAction := EStateM String Rebase

def Rebase.update (rebase : Rebase) (path : String) (f : Slot → Slot) : Rebase :=
  { rebase with slots := rebase.slots.map fun slot =>
      if slot.conflict.path = path then f slot else slot }

namespace GitFaults

variable (faults : GitFaults)

/-- Give the command its number. -/
def command : RebaseAction Nat := do
  let rebase ← get
  set { rebase with commands := rebase.commands + 1 }
  return rebase.commands

/-- The paths that are still in conflict; none if git cannot be run. -/
def listConflicts : RebaseAction (Option (List String)) := do
  let n ← command
  if !faults.runs n then return none
  else if !faults.lists n then return some []
  else
    let rebase ← get
    return some ((rebase.slots.filter fun slot => slot.staged.isNone).map fun slot =>
      slot.conflict.path)

def checkoutTheirs (path : String) : RebaseAction Unit := do
  let n ← command
  if !faults.checksOut n then return ()
  else modify fun rebase => rebase.update path Slot.takeTheirs

def add (path : String) : RebaseAction Bool := do
  let n ← command
  if !faults.adds n then return false
  else
    modify fun rebase => rebase.update path fun slot => { slot with staged := some slot.file }
    return true

/-- A version of the file, if it is a text. -/
def readConflictStage (stage : Conflict → Option Content) (path : String) :
    RebaseAction (Option Content) := do
  let n ← command
  if !faults.reads n then return none
  else
    let rebase ← get
    return ((rebase.slots.find? fun slot => slot.conflict.path = path).bind fun slot =>
      stage slot.conflict).filter fun text => !text.contains '\x00'

def writeFile (path : String) (text : Content) : RebaseAction Bool := do
  let n ← command
  if !faults.writes n then return false
  else
    modify fun rebase => rebase.update path fun slot => { slot with file := some text }
    return true

/-- Go on with the next commit, when nothing is in conflict any more; `false` says that the rebase
has stopped once more, and there is nothing if git cannot be run. -/
def continueRebase : RebaseAction (Option Bool) := do
  let n ← command
  if !faults.runs n then return none
  else
    let rebase ← get
    if !faults.goesOn n || rebase.slots.any fun slot => slot.staged.isNone then return some false
    else
      let resolved := rebase.resolved ++
        rebase.slots.map fun slot => (slot.conflict, slot.staged.join)
      match rebase.rounds with
      | [] =>
        set { rebase with slots := [], resolved }
        return some true
      | round :: rounds =>
        set { rebase with slots := round.conflicts.map Conflict.slot, rounds, resolved }
        return some false

/-- Keep both sides of a conflict in which both only add. -/
def tryAutoResolveAdditiveConflict (path : String) : RebaseAction Bool := do
  if !additiveConflictAutoResolveFence.contains path then return false
  else
    match ← faults.readConflictStage Conflict.base path with
    | none => return false
    | some base =>
      match ← faults.readConflictStage Conflict.ours path with
      | none => return false
      | some current =>
        match ← faults.readConflictStage Conflict.theirs path with
        | none => return false
        | some incoming =>
          match mergeAdditiveOnlyText base current incoming with
          | none => return false
          | some merged =>
            if ← faults.writeFile path merged then faults.add path else return false

/-- Whether the checkout and the staging of a managed file succeed is not looked at. -/
def resolveConflict (path : String) : RebaseAction Bool := do
  if autoResolvable path then
    faults.checkoutTheirs path
    let _ ← faults.add path
    return true
  else faults.tryAutoResolveAdditiveConflict path

def resolveConflicts : List String → RebaseAction Bool
  | [] => return true
  | path :: paths => do
    if ← faults.resolveConflict path then resolveConflicts paths else return false

/-- Continue the rebase, which may stop again and again. -/
def continueRounds : Nat → RebaseAction Bool
  | 0 => return false
  | fuel + 1 => do
    match ← faults.continueRebase with
    | none => return false
    | some true => return true
    | some false =>
      match ← faults.listConflicts with
      | none => return false
      | some remaining =>
        if remaining = [] then continueRounds fuel
        else if ← faults.resolveConflicts remaining then continueRounds fuel
        else return false

def tryAutoResolveRebase : RebaseAction Bool := do
  match ← faults.listConflicts with
  | none => return false
  | some conflicts =>
    if conflicts = [] then return false
    else if ← faults.resolveConflicts conflicts then faults.continueRounds 20
    else return false

/-- What the merge of a branch does when its rebase has stopped. -/
def resolveOrAbort : RebaseAction Bool := do
  if ← faults.tryAutoResolveRebase then return true
  else
    modify fun rebase => { rebase with aborted := true }
    return false

end GitFaults

/-! ### What a resolution is to be -/

/-- A rebase that has stopped at the first of some rounds. -/
def Rebase.stopped : List Round → Rebase
  | [] => { slots := [], rounds := [] }
  | round :: rounds => { slots := round.conflicts.map Conflict.slot, rounds }

/-- The texts that are merged, if all versions are texts. -/
def Conflict.merged (conflict : Conflict) : Option Content :=
  let isText := fun text : Content => !text.contains '\x00'
  (conflict.base.filter isText).bind fun base => (conflict.ours.filter isText).bind fun current =>
    (conflict.theirs.filter isText).bind fun incoming =>
      mergeAdditiveOnlyText base current incoming

/-- The trunk's version of a managed file, or the merge of a fenced one. -/
def Conflict.SoundBy (conflict : Conflict) (content : Option Content) : Prop :=
  autoResolvable conflict.path = true ∧ content = conflict.ours ∨
    conflict.path ∈ additiveConflictAutoResolveFence ∧
      ∃ merged ∈ conflict.merged, content = some merged

/-- However the commands fail: when the conflicts are said to be resolved the rebase is complete
and every conflict of every round is resolved soundly, and otherwise it is aborted. -/
def ResolvesSoundly (rounds : List Round) : Prop :=
  ∀ faults : GitFaults, After faults.resolveOrAbort (Rebase.stopped rounds)
    (fun resolved rebase =>
      if resolved then
        rebase.slots = [] ∧ rebase.rounds = [] ∧
          rebase.resolved.map Prod.fst = rounds.flatMap Round.conflicts ∧
            ∀ resolution ∈ rebase.resolved, resolution.1.SoundBy resolution.2
      else rebase.aborted = true)
    (fun _ _ => False)

/-- The conflict is of those that are resolved without asking. -/
def Conflict.isResolvable (conflict : Conflict) : Bool :=
  autoResolvable conflict.path ||
    (additiveConflictAutoResolveFence.contains conflict.path && conflict.merged.isSome)

/-- Both sides have the same version of each managed file, and that is what is in the file, in a
rebase in which nothing else stops the resolution. -/
def HarmlessConflicts (rounds : List Round) : Prop :=
  rounds.length ≤ 20 → (∃ round ∈ rounds.head?, round.conflicts ≠ []) →
    (∀ round ∈ rounds, ∀ conflict ∈ round.conflicts, conflict.isResolvable = true) →
      ∀ round ∈ rounds, ∀ conflict ∈ round.conflicts, autoResolvable conflict.path = true →
        conflict.worktree = conflict.ours ∧ ∀ text ∈ conflict.theirs, conflict.ours = some text

/-! ### What a resolution comes to -/

/-- What can be staged: of a managed file the other version than that of the trunk, if there is one
and it can be checked out. -/
def Conflict.Settled (conflict : Conflict) (content : Option Content) : Prop :=
  autoResolvable conflict.path = true ∧
      (content = conflict.worktree ∨ ∃ text ∈ conflict.theirs, content = some text) ∨
    conflict.path ∈ additiveConflictAutoResolveFence ∧
      ∃ merged ∈ conflict.merged, content = some merged

/-- The state of a rebase of which `all` are the rounds and `rounds` are still to come. -/
structure Rebase.Follows (rebase : Rebase) (all rounds : List Round) : Prop where
  remaining : rebase.rounds = rounds
  covers : rebase.resolved.map Prod.fst ++ (rebase.slots.map Slot.conflict ++
    rounds.flatMap Round.conflicts) = all.flatMap Round.conflicts
  nodup : (rebase.slots.map fun slot => slot.conflict.path).Nodup
  file : ∀ slot ∈ rebase.slots, autoResolvable slot.conflict.path = true →
    slot.file = slot.conflict.worktree ∨ ∃ text ∈ slot.conflict.theirs, slot.file = some text
  staged : ∀ slot ∈ rebase.slots, ∀ content ∈ slot.staged, slot.conflict.Settled content
  resolved : ∀ resolution ∈ rebase.resolved, resolution.1.Settled resolution.2

section

variable {rebase : Rebase} {all rounds : List Round} {faults : GitFaults} {path : String}

theorem Rebase.Follows.command (h : rebase.Follows all rounds) (commands : Nat) :
    { rebase with commands }.Follows all rounds :=
  ⟨h.remaining, h.covers, h.nodup, h.file, h.staged, h.resolved⟩

theorem Slot.conflict_takeTheirs (slot : Slot) : slot.takeTheirs.conflict = slot.conflict := by
  unfold takeTheirs
  split <;> rfl

theorem Slot.staged_takeTheirs (slot : Slot) : slot.takeTheirs.staged = slot.staged := by
  unfold takeTheirs
  split <;> rfl

theorem Slot.file_takeTheirs (slot : Slot) : slot.takeTheirs.file = slot.file ∨
    ∃ text ∈ slot.conflict.theirs, slot.takeTheirs.file = some text := by
  unfold takeTheirs
  split
  · rename_i text htheirs
    exact .inr ⟨text, htheirs, rfl⟩
  · exact .inl rfl

/-- An edit of what is in the file, or staged, for one path. -/
theorem Rebase.Follows.update (h : rebase.Follows all rounds) {f : Slot → Slot}
    (hconflict : ∀ slot, (f slot).conflict = slot.conflict)
    (hfile : ∀ slot ∈ rebase.slots, slot.conflict.path = path →
      autoResolvable slot.conflict.path = true →
        (f slot).file = slot.conflict.worktree ∨
          ∃ text ∈ slot.conflict.theirs, (f slot).file = some text)
    (hstaged : ∀ slot ∈ rebase.slots, slot.conflict.path = path → ∀ content ∈ (f slot).staged,
      slot.conflict.Settled content) : (rebase.update path f).Follows all rounds := by
  have hconflicts : (rebase.update path f).slots.map Slot.conflict =
      rebase.slots.map Slot.conflict := by
    rw [Rebase.update, List.map_map]
    refine List.map_congr_left fun slot _ => ?_
    dsimp only [Function.comp_apply]
    split
    · exact hconflict slot
    · rfl
  refine ⟨h.remaining, ?_, ?_, ?_, ?_, h.resolved⟩
  · rw [hconflicts]
    exact h.covers
  · have hpaths := congrArg (List.map Conflict.path) hconflicts
    rw [List.map_map, List.map_map] at hpaths
    exact hpaths.symm ▸ h.nodup
  · intro slot' hmem'
    obtain ⟨slot, hmem, rfl⟩ := List.mem_map.mp hmem'
    split
    · rename_i hpath
      rw [hconflict]
      exact hfile slot hmem hpath
    · exact h.file slot hmem
  · intro slot' hmem'
    obtain ⟨slot, hmem, rfl⟩ := List.mem_map.mp hmem'
    split
    · rename_i hpath
      rw [hconflict]
      exact hstaged slot hmem hpath
    · exact h.staged slot hmem

theorem after_listConflicts (h : rebase.Follows all rounds) :
    After faults.listConflicts rebase
      (fun paths next => next.Follows all rounds ∧ (paths.any (· ≠ []) = true → rebase.slots ≠ []))
      (fun _ _ => False) := by
  simp only [GitFaults.listConflicts, GitFaults.command, after_bind, after_get, after_set,
    after_pure]
  split
  · exact ⟨h.command _, by rintro ⟨⟩⟩
  · split
    · exact ⟨h.command _, by rintro ⟨⟩⟩
    · refine ⟨h.command _, ?_⟩
      cases rebase.slots with
      | nil => exact fun h => by cases h
      | cons slot slots => exact fun _ => List.cons_ne_nil _ _

theorem after_checkoutTheirs (h : rebase.Follows all rounds) :
    After (faults.checkoutTheirs path) rebase (fun _ next => next.Follows all rounds)
      (fun _ _ => False) := by
  simp only [GitFaults.checkoutTheirs, GitFaults.command, after_bind, after_get, after_set,
    after_pure]
  split
  · exact h.command _
  · rw [after_modify]
    refine (h.command _).update (fun slot => slot.conflict_takeTheirs) (fun slot hmem _ hauto => ?_)
      fun slot hmem _ => ?_
    · rcases slot.file_takeTheirs with hfile | htheirs
      · rw [hfile]
        exact h.file slot hmem hauto
      · exact .inr htheirs
    · rw [slot.staged_takeTheirs]
      exact h.staged slot hmem

theorem after_add (h : rebase.Follows all rounds)
    (hsettled : ∀ slot ∈ rebase.slots, slot.conflict.path = path →
      slot.conflict.Settled slot.file) :
    After (faults.add path) rebase (fun _ next => next.Follows all rounds) (fun _ _ => False) := by
  simp only [GitFaults.add, GitFaults.command, after_bind, after_get, after_set, after_pure]
  split
  · exact h.command _
  · rw [after_bind, after_modify]
    refine (h.command _).update (fun _ => rfl) (fun slot hmem _ hauto => h.file slot hmem hauto) ?_
    rintro slot hmem hpath _ ⟨⟩
    exact hsettled slot hmem hpath

theorem after_readConflictStage (stage : Conflict → Option Content) :
    After (faults.readConflictStage stage path) rebase
      (fun text next => (∃ commands, next = { rebase with commands }) ∧ ∀ version ∈ text,
        ∃ slot ∈ rebase.slots, slot.conflict.path = path ∧
          version ∈ (stage slot.conflict).filter fun text => !text.contains '\x00')
      (fun _ _ => False) := by
  simp only [GitFaults.readConflictStage, GitFaults.command, after_bind, after_get, after_set,
    after_pure]
  split
  · exact ⟨⟨_, rfl⟩, fun _ => by rintro ⟨⟩⟩
  · refine ⟨⟨_, rfl⟩, fun version hversion => ?_⟩
    obtain ⟨hfind, htext⟩ := Option.mem_filter_iff.mp hversion
    obtain ⟨slot, hslot, hstage⟩ := Option.bind_eq_some_iff.mp hfind
    exact ⟨slot, List.mem_of_find?_eq_some hslot, by simpa using List.find?_some hslot,
      Option.mem_filter_iff.mpr ⟨hstage, htext⟩⟩

/-- With one slot for a path, what is said of some slot of the path is said of each. -/
theorem Rebase.Follows.eq_of_path (h : rebase.Follows all rounds) {slot slot' : Slot}
    (hmem : slot ∈ rebase.slots) (hmem' : slot' ∈ rebase.slots)
    (hpath : slot.conflict.path = slot'.conflict.path) : slot = slot' :=
  List.inj_on_of_nodup_map h.nodup hmem hmem' hpath

theorem not_autoResolvable_of_mem_fence (h : path ∈ additiveConflictAutoResolveFence) :
    autoResolvable path = false := by
  rw [additiveConflictAutoResolveFence, List.mem_pair] at h
  rcases h with rfl | rfl <;> decide

theorem after_tryAutoResolveAdditiveConflict (h : rebase.Follows all rounds) :
    After (faults.tryAutoResolveAdditiveConflict path) rebase
      (fun _ next => next.Follows all rounds) (fun _ _ => False) := by
  rw [GitFaults.tryAutoResolveAdditiveConflict]
  split
  · exact h
  · rename_i hfence
    have hfence : path ∈ additiveConflictAutoResolveFence := by simpa using hfence
    rw [after_bind]
    refine (after_readConflictStage Conflict.base).mono ?_ fun _ _ h => h
    rintro base _ ⟨⟨commands, rfl⟩, hbase⟩
    cases base with
    | none => exact h.command _
    | some base =>
      dsimp only
      rw [after_bind]
      refine (after_readConflictStage Conflict.ours).mono ?_ fun _ _ h => h
      rintro current _ ⟨⟨commands, rfl⟩, hcurrent⟩
      cases current with
      | none => exact h.command _
      | some current =>
        dsimp only
        rw [after_bind]
        refine (after_readConflictStage Conflict.theirs).mono ?_ fun _ _ h => h
        rintro incoming _ ⟨⟨commands, rfl⟩, hincoming⟩
        cases incoming with
        | none => exact h.command _
        | some incoming =>
          dsimp only
          cases hmerged : mergeAdditiveOnlyText base current incoming with
          | none => exact h.command _
          | some merged =>
            -- The three stages were read from the one slot of the path.
            have hsettled : ∀ slot ∈ rebase.slots, slot.conflict.path = path →
                slot.conflict.Settled (some merged) := by
              intro slot hmem hpath
              obtain ⟨slot', hmem', hpath', hbase⟩ := hbase base rfl
              obtain rfl := h.eq_of_path hmem hmem' (hpath.trans hpath'.symm)
              obtain ⟨slot', hmem', hpath', hcurrent⟩ := hcurrent current rfl
              obtain rfl := h.eq_of_path hmem hmem' (hpath.trans hpath'.symm)
              obtain ⟨slot', hmem', hpath', hincoming⟩ := hincoming incoming rfl
              obtain rfl := h.eq_of_path hmem hmem' (hpath.trans hpath'.symm)
              refine .inr ⟨hpath ▸ hfence, merged, ?_, rfl⟩
              rw [Conflict.merged, Option.mem_def.mp hbase, Option.bind_some,
                Option.mem_def.mp hcurrent, Option.bind_some, Option.mem_def.mp hincoming,
                Option.bind_some]
              exact hmerged
            simp only [GitFaults.writeFile, GitFaults.command, after_bind, after_get, after_set,
              after_pure]
            split
            · exact h.command _
            · rw [after_bind, after_modify, after_pure, if_pos rfl]
              refine after_add ((h.command _).update (fun _ => rfl)
                (fun slot hmem hpath hauto => ?_) fun slot hmem _ => h.staged slot hmem) ?_
              · rw [hpath, not_autoResolvable_of_mem_fence hfence] at hauto
                cases hauto
              · rintro slot' hmem' hpath'
                obtain ⟨slot, hmem, rfl⟩ := List.mem_map.mp hmem'
                split at hpath'
                · rename_i hpath
                  rw [if_pos hpath]
                  exact hsettled slot hmem hpath
                · rename_i hne
                  exact absurd hpath' hne

theorem after_resolveConflict (h : rebase.Follows all rounds) :
    After (faults.resolveConflict path) rebase (fun _ next => next.Follows all rounds)
      (fun _ _ => False) := by
  rw [GitFaults.resolveConflict]
  split
  · rename_i hauto
    rw [after_bind]
    refine (after_checkoutTheirs h).mono (fun _ next hnext => ?_) fun _ _ h => h
    rw [after_bind]
    refine (after_add hnext fun slot hmem hpath => ?_).mono (fun _ _ h => h) fun _ _ h => h
    exact .inl ⟨hpath ▸ hauto, hnext.file slot hmem (hpath ▸ hauto)⟩
  · exact after_tryAutoResolveAdditiveConflict h

theorem after_resolveConflicts (h : rebase.Follows all rounds) (paths : List String) :
    After (faults.resolveConflicts paths) rebase (fun _ next => next.Follows all rounds)
      (fun _ _ => False) := by
  induction paths generalizing rebase with
  | nil => exact h
  | cons path paths ih =>
    rw [GitFaults.resolveConflicts, after_bind]
    refine (after_resolveConflict h).mono (fun resolved next hnext => ?_) fun _ _ h => h
    cases resolved with
    | true => exact ih hnext
    | false => exact hnext

/-- A rebase that is complete. -/
structure Rebase.Completes (rebase : Rebase) (all : List Round) : Prop where
  slots : rebase.slots = []
  rounds : rebase.rounds = []
  covers : rebase.resolved.map Prod.fst = all.flatMap Round.conflicts
  resolved : ∀ resolution ∈ rebase.resolved, resolution.1.Settled resolution.2

theorem after_continueRebase (h : rebase.Follows all rounds) :
    After faults.continueRebase rebase
      (fun goesOn next => match goesOn with
        | some true => next.Completes all ∧ rounds = []
        | some false => ∃ rounds', next.Follows all rounds' ∧ rounds.length ≤ rounds'.length + 1
        | none => True)
      (fun _ _ => False) := by
  simp only [GitFaults.continueRebase, GitFaults.command, after_bind, after_get, after_set,
    after_pure]
  split
  · trivial
  · rw [after_bind, after_get]
    split
    · exact ⟨rounds, h.command _, Nat.le_succ _⟩
    · rename_i hstaged
      rw [Bool.or_eq_true, not_or] at hstaged
      -- Git goes on only when something is staged for each conflict.
      have hall : ∀ slot ∈ rebase.slots, ∃ content, slot.staged = some content := by
        intro slot hmem
        have hnone := hstaged.2
        simp only [List.any_eq_true, not_exists, not_and, Bool.not_eq_true] at hnone
        exact Option.isSome_iff_exists.mp (Option.isNone_eq_false_iff.mp (hnone slot hmem))
      have hfst : (rebase.resolved ++ rebase.slots.map fun slot =>
          (slot.conflict, slot.staged.join)).map Prod.fst =
            rebase.resolved.map Prod.fst ++ rebase.slots.map Slot.conflict := by
        rw [List.map_append, List.map_map]
        rfl
      have hsettled : ∀ resolution ∈ rebase.resolved ++ rebase.slots.map fun slot =>
          (slot.conflict, slot.staged.join), resolution.1.Settled resolution.2 := by
        intro resolution hmem
        rcases List.mem_append.mp hmem with hmem | hmem
        · exact h.resolved resolution hmem
        · obtain ⟨slot, hslot, rfl⟩ := List.mem_map.mp hmem
          obtain ⟨content, hcontent⟩ := hall slot hslot
          dsimp only
          rw [hcontent]
          exact h.staged slot hslot content hcontent
      have hremaining := h.remaining
      have hcovers := h.covers
      rw [← List.append_assoc, ← hfst] at hcovers
      cases hrounds : rebase.rounds with
      | nil =>
        obtain rfl : rounds = [] := hremaining.symm.trans hrounds
        rw [List.flatMap_nil, List.append_nil] at hcovers
        exact ⟨⟨rfl, rfl, hcovers, hsettled⟩, rfl⟩
      | cons round rounds' =>
        obtain rfl : rounds = round :: rounds' := hremaining.symm.trans hrounds
        have hslots : (round.conflicts.map Conflict.slot).map Slot.conflict = round.conflicts := by
          rw [List.map_map]
          exact List.map_id _
        refine ⟨rounds', ⟨rfl, ?_, ?_, ?_, ?_, hsettled⟩, by simp⟩
        · rw [hslots]
          exact hcovers
        · rw [List.map_map]
          exact round.nodup
        · intro slot hmem _
          obtain ⟨conflict, -, rfl⟩ := List.mem_map.mp hmem
          exact .inl rfl
        · intro slot hmem
          obtain ⟨conflict, -, rfl⟩ := List.mem_map.mp hmem
          exact fun _ h => by cases h

theorem after_continueRounds (h : rebase.Follows all rounds) (fuel : Nat) :
    After (faults.continueRounds fuel) rebase
      (fun resolved next => resolved = true → next.Completes all ∧ rounds.length < fuel)
      (fun _ _ => False) := by
  induction fuel generalizing rebase rounds with
  | zero => exact nofun
  | succ fuel ih =>
    rw [GitFaults.continueRounds, after_bind]
    refine (after_continueRebase h).mono ?_ fun _ _ h => h
    intro goesOn next hnext
    match goesOn, hnext with
    | none, _ => exact nofun
    | some true, ⟨hcompletes, hrounds⟩ =>
      exact fun _ => ⟨hcompletes, by rw [hrounds]; exact Nat.succ_pos _⟩
    | some false, ⟨rounds', hfollows, hlength⟩ =>
      have hgo : ∀ {next}, next.Follows all rounds' → After (faults.continueRounds fuel) next
          (fun resolved next => resolved = true → next.Completes all ∧ rounds.length < fuel + 1)
          (fun _ _ => False) := by
        intro next hnext
        refine (ih hnext).mono (fun _ _ h hresolved => ?_) fun _ _ h => h
        obtain ⟨hcompletes, hlt⟩ := h hresolved
        exact ⟨hcompletes, by omega⟩
      dsimp only
      rw [after_bind]
      refine (after_listConflicts hfollows).mono ?_ fun _ _ h => h
      rintro remaining next ⟨hnext, -⟩
      cases remaining with
      | none => exact nofun
      | some remaining =>
        dsimp only
        split
        · exact hgo hnext
        · rw [after_bind]
          refine (after_resolveConflicts hnext remaining).mono (fun resolved next hnext => ?_)
            fun _ _ h => h
          cases resolved with
          | true => exact hgo hnext
          | false => exact nofun

theorem follows_stopped (round : Round) (rounds : List Round) :
    (Rebase.stopped (round :: rounds)).Follows (round :: rounds) rounds := by
  have hslots : (round.conflicts.map Conflict.slot).map Slot.conflict = round.conflicts := by
    rw [List.map_map]
    exact List.map_id _
  refine ⟨rfl, ?_, ?_, ?_, ?_, nofun⟩
  · rw [Rebase.stopped, hslots]
    rfl
  · rw [Rebase.stopped, List.map_map]
    exact round.nodup
  · intro slot hmem _
    obtain ⟨conflict, -, rfl⟩ := List.mem_map.mp hmem
    exact .inl rfl
  · intro slot hmem
    obtain ⟨conflict, -, rfl⟩ := List.mem_map.mp hmem
    exact nofun

/-- **A resolution**, however the commands fail. -/
theorem after_tryAutoResolveRebase (rounds : List Round) :
    After faults.tryAutoResolveRebase (Rebase.stopped rounds)
      (fun resolved next => resolved = true → next.Completes rounds ∧ rounds.length ≤ 20 ∧
        ∃ round ∈ rounds.head?, round.conflicts ≠ [])
      (fun _ _ => False) := by
  rw [GitFaults.tryAutoResolveRebase, after_bind]
  cases rounds with
  | nil =>
    have hempty : (Rebase.stopped []).Follows [] [] :=
      ⟨rfl, rfl, List.nodup_nil, nofun, nofun, nofun⟩
    refine (after_listConflicts hempty).mono ?_ fun _ _ h => h
    rintro conflicts next ⟨-, hslots⟩
    cases conflicts with
    | none => exact nofun
    | some conflicts =>
      dsimp only
      split
      · exact nofun
      · rename_i hne
        exact absurd rfl (hslots (decide_eq_true hne))
  | cons round rounds =>
    refine (after_listConflicts (follows_stopped round rounds)).mono ?_ fun _ _ h => h
    rintro conflicts next ⟨hnext, hslots⟩
    cases conflicts with
    | none => exact nofun
    | some conflicts =>
      dsimp only
      split
      · exact nofun
      · rename_i hne
        have hround : round.conflicts ≠ [] := fun hnil =>
          hslots (decide_eq_true hne) (by rw [Rebase.stopped, hnil]; rfl)
        rw [after_bind]
        refine (after_resolveConflicts hnext conflicts).mono (fun resolved next hnext => ?_)
          fun _ _ h => h
        cases resolved with
        | false => exact nofun
        | true =>
          refine (after_continueRounds hnext 20).mono (fun _ _ h hresolved => ?_) fun _ _ h => h
          obtain ⟨hcompletes, hlt⟩ := h hresolved
          exact ⟨hcompletes, hlt, round, rfl, hround⟩

end

theorem Conflict.Settled.isResolvable {conflict : Conflict} {content : Option Content}
    (h : conflict.Settled content) : conflict.isResolvable = true := by
  rw [Conflict.isResolvable, Bool.or_eq_true]
  rcases h with ⟨hauto, -⟩ | ⟨hfence, merged, hmerged, -⟩
  · exact .inl hauto
  · rw [Option.mem_def.mp hmerged]
    exact .inr (by simpa using hfence)

theorem resolvesSoundly_of_harmlessConflicts {rounds : List Round}
    (hharmless : HarmlessConflicts rounds) :
    ResolvesSoundly rounds := by
  intro faults
  rw [GitFaults.resolveOrAbort, after_bind]
  refine (after_tryAutoResolveRebase rounds).mono (fun resolved next hnext => ?_) fun _ _ h => h
  cases resolved with
  | false => exact rfl
  | true =>
    obtain ⟨hcompletes, hlength, hfirst⟩ := hnext rfl
    refine ⟨hcompletes.slots, hcompletes.rounds, hcompletes.covers, fun resolution hmem => ?_⟩
    have hmem_rounds : ∀ {conflict}, conflict ∈ rounds.flatMap Round.conflicts →
        conflict.isResolvable = true := by
      intro conflict hconflict
      rw [← hcompletes.covers] at hconflict
      obtain ⟨resolution, hmem, rfl⟩ := List.mem_map.mp hconflict
      exact (hcompletes.resolved resolution hmem).isResolvable
    rcases hcompletes.resolved resolution hmem with ⟨hauto, hcontent⟩ | hmerged
    · have hconflict : resolution.1 ∈ rounds.flatMap Round.conflicts :=
        hcompletes.covers ▸ List.mem_map_of_mem hmem
      obtain ⟨round, hround, hin⟩ := List.mem_flatMap.mp hconflict
      obtain ⟨hworktree, htheirs⟩ := hharmless hlength hfirst (fun round hround conflict hin =>
        hmem_rounds (List.mem_flatMap.mpr ⟨round, hround, hin⟩)) round hround _ hin hauto
      refine .inl ⟨hauto, ?_⟩
      rcases hcontent with hcontent | ⟨text, htext, hcontent⟩
      · rw [hcontent, hworktree]
      · rw [hcontent, htheirs text htext]
    · exact .inr hmerged

/-! ### When nothing stops the resolution -/

/-- Every command succeeds, except that checkouts may all fail. -/
def GitFaults.steady (checksOut : Bool) : GitFaults where
  runs _ := true
  lists _ := true
  checksOut _ := checksOut
  adds _ := true
  reads _ := true
  writes _ := true
  goesOn _ := true

/-- What is staged for a conflict then. -/
def Conflict.outcome (checksOut : Bool) (conflict : Conflict) : Option Content :=
  if autoResolvable conflict.path then
    if checksOut then conflict.theirs.or conflict.worktree else conflict.worktree
  else conflict.merged

section

variable {rebase : Rebase} {checksOut : Bool} {conflict : Conflict}
  {before after : List Slot}

theorem Rebase.slots_update {path : String} {slot : Slot} (f : Slot → Slot)
    (hslots : rebase.slots = before ++ slot :: after) (hpath : slot.conflict.path = path)
    (hbefore : ∀ other ∈ before, other.conflict.path ≠ path)
    (hafter : ∀ other ∈ after, other.conflict.path ≠ path) :
    (rebase.update path f).slots = before ++ f slot :: after := by
  have hsame : ∀ {slots : List Slot}, (∀ other ∈ slots, other.conflict.path ≠ path) →
      slots.map (fun other => if other.conflict.path = path then f other else other) = slots := by
    intro slots hne
    refine (List.map_congr_left fun other hmem => ?_).trans (List.map_id _)
    rw [if_neg (hne other hmem), id]
  rw [Rebase.update, hslots]
  dsimp only
  rw [List.map_append, List.map_cons, hsame hbefore, hsame hafter, if_pos hpath]

theorem find?_slot {path : String} {slot : Slot} (hslots : rebase.slots = before ++ slot :: after)
    (hpath : slot.conflict.path = path)
    (hbefore : ∀ other ∈ before, other.conflict.path ≠ path) :
    (rebase.slots.find? fun other => other.conflict.path = path) = some slot := by
  have hnone : before.find? (fun other => other.conflict.path = path) = none :=
    List.find?_eq_none.mpr fun other hmem => by simpa using hbefore other hmem
  rw [hslots, List.find?_append, hnone, Option.none_or]
  exact List.find?_cons_of_pos (decide_eq_true hpath)

theorem after_add_steady (path : String) : After ((GitFaults.steady checksOut).add path) rebase
    (fun added next => added = true ∧ next = { rebase with commands := rebase.commands + 1 }.update
      path fun slot => { slot with staged := some slot.file })
    (fun _ _ => False) :=
  ⟨rfl, rfl⟩

theorem after_checkoutTheirs_steady (path : String) :
    After ((GitFaults.steady checksOut).checkoutTheirs path) rebase
      (fun _ next => next.rounds = rebase.rounds ∧ next.resolved = rebase.resolved ∧
        next.slots = if checksOut then (rebase.update path Slot.takeTheirs).slots else rebase.slots)
      (fun _ _ => False) := by
  cases checksOut with
  | false => exact ⟨rfl, rfl, rfl⟩
  | true => exact ⟨rfl, rfl, rfl⟩

theorem after_readConflictStage_steady {stage : Conflict → Option Content} {version : Content}
    (hslots : rebase.slots = before ++ conflict.slot :: after)
    (hbefore : ∀ other ∈ before, other.conflict.path ≠ conflict.path)
    (hversion : ((stage conflict).filter fun text => !text.contains '\x00') = some version) :
    After ((GitFaults.steady checksOut).readConflictStage stage conflict.path) rebase
      (fun text next => text = some version ∧
        next = { rebase with commands := rebase.commands + 1 })
      (fun _ _ => False) := by
  refine ⟨?_, rfl⟩
  have hfind : (rebase.slots.find? fun slot => slot.conflict.path = conflict.path) =
      some conflict.slot := find?_slot hslots rfl hbefore
  show ((rebase.slots.find? fun slot => slot.conflict.path = conflict.path).bind fun slot =>
    stage slot.conflict).filter _ = _
  rw [hfind]
  exact hversion

/-- **One conflict** that is of those to be resolved. -/
theorem after_resolveConflict_steady
    (hslots : rebase.slots = before ++ conflict.slot :: after)
    (hbefore : ∀ other ∈ before, other.conflict.path ≠ conflict.path)
    (hafter : ∀ other ∈ after, other.conflict.path ≠ conflict.path)
    (hresolvable : conflict.isResolvable = true) :
    After ((GitFaults.steady checksOut).resolveConflict conflict.path) rebase
      (fun resolved next => resolved = true ∧ next.rounds = rebase.rounds ∧
        next.resolved = rebase.resolved ∧ ∃ slot, next.slots = before ++ slot :: after ∧
          slot.conflict = conflict ∧ slot.staged = some (conflict.outcome checksOut))
      (fun _ _ => False) := by
  rw [GitFaults.resolveConflict]
  split
  · rename_i hauto
    rw [after_bind]
    refine (after_checkoutTheirs_steady conflict.path).mono ?_ fun _ _ h => h
    rintro _ mid ⟨hrounds, hresolved, hmid⟩
    rw [after_bind]
    refine (after_add_steady conflict.path).mono ?_ fun _ _ h => h
    rintro _ _ ⟨-, rfl⟩
    refine ⟨rfl, hrounds, hresolved, ?_⟩
    rw [Conflict.outcome, if_pos hauto]
    -- A checkout that fails is not noticed: what is staged is the file as it was.
    cases checksOut with
    | false =>
      refine ⟨{ conflict.slot with staged := some conflict.worktree }, ?_, rfl, rfl⟩
      exact Rebase.slots_update _ (hmid.trans hslots) rfl hbefore hafter
    | true =>
      have htaken : mid.slots = before ++ conflict.slot.takeTheirs :: after :=
        hmid.trans (Rebase.slots_update _ hslots rfl hbefore hafter)
      have hconflict : conflict.slot.takeTheirs.conflict = conflict :=
        conflict.slot.conflict_takeTheirs
      refine ⟨{ conflict.slot.takeTheirs with staged := some conflict.slot.takeTheirs.file }, ?_,
        hconflict, ?_⟩
      · exact Rebase.slots_update _ (by exact htaken) (congrArg Conflict.path hconflict) hbefore
          hafter
      · show some conflict.slot.takeTheirs.file = some (conflict.theirs.or conflict.worktree)
        rw [Slot.takeTheirs]
        cases htheirs : conflict.slot.conflict.theirs with
        | none => rw [show conflict.theirs = none from htheirs]; rfl
        | some text => rw [show conflict.theirs = some text from htheirs]; rfl
  · rename_i hauto
    rw [Conflict.isResolvable, Bool.eq_false_iff.mpr hauto, Bool.false_or, Bool.and_eq_true]
      at hresolvable
    obtain ⟨hfence, hmerged⟩ := hresolvable
    obtain ⟨merged, hmerged⟩ := Option.isSome_iff_exists.mp hmerged
    obtain ⟨base, hbase, hmerge⟩ := Option.bind_eq_some_iff.mp hmerged
    obtain ⟨current, hcurrent, hmerge⟩ := Option.bind_eq_some_iff.mp hmerge
    obtain ⟨incoming, hincoming, hmerge⟩ := Option.bind_eq_some_iff.mp hmerge
    rw [GitFaults.tryAutoResolveAdditiveConflict, hfence, Bool.not_true, if_neg Bool.false_ne_true,
      after_bind]
    refine (after_readConflictStage_steady hslots hbefore hbase).mono ?_ fun _ _ h => h
    rintro _ _ ⟨rfl, rfl⟩
    dsimp only
    rw [after_bind]
    refine (after_readConflictStage_steady (by exact hslots) hbefore hcurrent).mono ?_
      fun _ _ h => h
    rintro _ _ ⟨rfl, rfl⟩
    dsimp only
    rw [after_bind]
    refine (after_readConflictStage_steady (by exact hslots) hbefore hincoming).mono ?_
      fun _ _ h => h
    rintro _ _ ⟨rfl, rfl⟩
    dsimp only
    rw [hmerge, Conflict.outcome, if_neg hauto, hmerged]
    have hwritten := Rebase.slots_update (fun slot => { slot with file := some merged }) hslots rfl
      hbefore hafter
    refine ⟨rfl, rfl, rfl, { conflict.slot with file := some merged, staged := some (some merged) },
      ?_, rfl, rfl⟩
    exact Rebase.slots_update (fun slot => { slot with staged := some slot.file })
      (by exact hwritten) rfl hbefore hafter

/-- The conflict has been resolved, with what is staged for it. -/
def Slot.entry (slot : Slot) : Conflict × Option (Option Content) := (slot.conflict, slot.staged)

/-- **The conflicts of a commit**, one after the other. -/
theorem after_resolveConflicts_steady {conflicts : List Conflict}
    (hslots : rebase.slots = before ++ conflicts.map Conflict.slot)
    (hnodup : (conflicts.map Conflict.path).Nodup)
    (hbefore : ∀ other ∈ before, ∀ conflict ∈ conflicts, other.conflict.path ≠ conflict.path)
    (hresolvable : ∀ conflict ∈ conflicts, conflict.isResolvable = true) :
    After ((GitFaults.steady checksOut).resolveConflicts (conflicts.map Conflict.path)) rebase
      (fun resolved next => resolved = true ∧ next.rounds = rebase.rounds ∧
        next.resolved = rebase.resolved ∧ next.slots.map Slot.entry = before.map Slot.entry ++
          conflicts.map fun conflict => (conflict, some (conflict.outcome checksOut)))
      (fun _ _ => False) := by
  induction conflicts generalizing rebase before with
  | nil => exact ⟨rfl, rfl, rfl, by rw [hslots]; simp⟩
  | cons conflict conflicts ih =>
    rw [List.map_cons, List.nodup_cons] at hnodup
    rw [List.forall_mem_cons] at hresolvable
    have hne : ∀ other ∈ conflicts, other.path ≠ conflict.path := fun other hmem heq =>
      hnodup.1 (heq ▸ List.mem_map_of_mem hmem)
    rw [List.map_cons, GitFaults.resolveConflicts, after_bind]
    refine (after_resolveConflict_steady hslots
      (fun other hmem => hbefore other hmem conflict List.mem_cons_self) ?_ hresolvable.1).mono ?_
        fun _ _ h => h
    · intro other hmem
      obtain ⟨later, hlater, rfl⟩ := List.mem_map.mp hmem
      exact hne later hlater
    · rintro _ mid ⟨rfl, hrounds, hresolved, slot, hmid, hconflict, hstaged⟩
      have hmid : mid.slots = (before ++ [slot]) ++ conflicts.map Conflict.slot := by
        rw [hmid, List.append_assoc]
        rfl
      refine (ih hmid hnodup.2 ?_ hresolvable.2).mono ?_ fun _ _ h => h
      · intro other hmem later hlater
        rcases List.mem_append.mp hmem with hmem | hmem
        · exact hbefore other hmem later (List.mem_cons_of_mem _ hlater)
        · obtain rfl := List.mem_singleton.mp hmem
          rw [hconflict]
          exact (hne later hlater).symm
      · rintro resolved next ⟨hres, hrounds', hresolved', hentries⟩
        refine ⟨hres, hrounds'.trans hrounds, hresolved'.trans hresolved, ?_⟩
        rw [hentries, List.map_append, List.append_assoc, List.map_singleton, Slot.entry, hconflict,
          hstaged]
        rfl

/-- What is staged for the conflicts of some rounds. -/
def outcomes (checksOut : Bool) (rounds : List Round) : List (Conflict × Option Content) :=
  (rounds.flatMap Round.conflicts).map fun conflict => (conflict, conflict.outcome checksOut)

theorem after_continueRebase_steady {round : Round}
    (hslots : rebase.slots.map Slot.entry =
      round.conflicts.map fun conflict => (conflict, some (conflict.outcome checksOut))) :
    After (GitFaults.steady checksOut).continueRebase rebase
      (fun goesOn next => next.resolved = rebase.resolved ++ outcomes checksOut [round] ∧
        match rebase.rounds with
        | [] => goesOn = some true
        | later :: rounds => goesOn = some false ∧ next.rounds = rounds ∧
          next.slots = later.conflicts.map Conflict.slot)
      (fun _ _ => False) := by
  have hnone : (rebase.slots.any fun slot => slot.staged.isNone) = false := by
    have hany : (rebase.slots.any fun slot => slot.staged.isNone) =
        (rebase.slots.map Slot.entry).any fun entry => entry.2.isNone := by
      rw [List.any_map]
      rfl
    rw [hany, hslots, List.any_map]
    exact List.any_eq_false.mpr fun _ _ => Bool.false_ne_true
  have hresolved : (rebase.slots.map fun slot => (slot.conflict, slot.staged.join)) =
      outcomes checksOut [round] := by
    have hmap : (rebase.slots.map fun slot => (slot.conflict, slot.staged.join)) =
        (rebase.slots.map Slot.entry).map fun entry => (entry.1, entry.2.join) := by
      rw [List.map_map]
      rfl
    rw [hmap, hslots, List.map_map, outcomes, List.flatMap_singleton]
    rfl
  simp only [GitFaults.continueRebase, GitFaults.command, GitFaults.steady, after_bind, after_get,
    after_set, after_pure, Bool.not_true, Bool.false_eq_true, if_false, Bool.false_or, hnone,
    hresolved]
  cases rebase.rounds with
  | nil => exact ⟨rfl, rfl⟩
  | cons later rounds => exact ⟨rfl, rfl, rfl, rfl⟩

theorem after_listConflicts_steady {conflicts : List Conflict}
    (hslots : rebase.slots = conflicts.map Conflict.slot) :
    After (GitFaults.steady checksOut).listConflicts rebase
      (fun paths next => paths = some (conflicts.map Conflict.path) ∧
        ∃ commands, next = { rebase with commands })
      (fun _ _ => False) := by
  refine ⟨?_, _, rfl⟩
  show some ((rebase.slots.filter fun slot => slot.staged.isNone).map fun slot =>
    slot.conflict.path) = _
  have hall : ∀ slot ∈ conflicts.map Conflict.slot, slot.staged.isNone = true := by
    intro slot hmem
    obtain ⟨conflict, -, rfl⟩ := List.mem_map.mp hmem
    rfl
  rw [hslots, List.filter_eq_self.mpr hall, List.map_map]
  rfl

/-- **The rounds**, one after the other. -/
theorem after_continueRounds_steady {round : Round} {rounds : List Round} {fuel : Nat}
    (hslots : rebase.slots.map Slot.entry =
      round.conflicts.map fun conflict => (conflict, some (conflict.outcome checksOut)))
    (hrounds : rebase.rounds = rounds) (hfuel : rounds.length < fuel)
    (hresolvable : ∀ round ∈ rounds, ∀ conflict ∈ round.conflicts, conflict.isResolvable = true) :
    After ((GitFaults.steady checksOut).continueRounds fuel) rebase
      (fun resolved next => resolved = true ∧
        next.resolved = rebase.resolved ++ outcomes checksOut (round :: rounds))
      (fun _ _ => False) := by
  induction rounds generalizing rebase round fuel with
  | nil =>
    obtain ⟨fuel, rfl⟩ := Nat.exists_eq_add_one.mpr hfuel
    rw [GitFaults.continueRounds, after_bind]
    refine (after_continueRebase_steady hslots).mono ?_ fun _ _ h => h
    rw [hrounds]
    rintro _ next ⟨hresolved, rfl⟩
    exact ⟨rfl, hresolved⟩
  | cons later rounds ih =>
    obtain ⟨fuel, rfl⟩ := Nat.exists_eq_add_one.mpr (Nat.zero_lt_of_lt hfuel)
    rw [List.forall_mem_cons] at hresolvable
    rw [GitFaults.continueRounds, after_bind]
    refine (after_continueRebase_steady hslots).mono ?_ fun _ _ h => h
    rw [hrounds]
    rintro _ mid ⟨hresolved, rfl, hmidRounds, hmidSlots⟩
    have hgo : ∀ {next : Rebase}, next.rounds = rounds → next.resolved = mid.resolved →
        next.slots.map Slot.entry =
          later.conflicts.map (fun conflict => (conflict, some (conflict.outcome checksOut))) →
        After ((GitFaults.steady checksOut).continueRounds fuel) next
          (fun resolved final => resolved = true ∧
            final.resolved = rebase.resolved ++ outcomes checksOut (round :: later :: rounds))
          (fun _ _ => False) := by
      intro next hnextRounds hnextResolved hnextSlots
      refine (ih hnextSlots hnextRounds (Nat.lt_of_succ_lt_succ hfuel) hresolvable.2).mono ?_
        fun _ _ h => h
      rintro _ final ⟨rfl, hfinal⟩
      refine ⟨rfl, ?_⟩
      rw [hfinal, hnextResolved, hresolved, List.append_assoc]
      simp only [outcomes, List.flatMap_cons, List.flatMap_nil, List.map_append, List.append_nil]
    dsimp only
    rw [after_bind]
    refine (after_listConflicts_steady hmidSlots).mono ?_ fun _ _ h => h
    rintro _ _ ⟨rfl, commands, rfl⟩
    dsimp only
    split
    · rename_i hnil
      refine hgo hmidRounds rfl ?_
      rw [hmidSlots, List.map_eq_nil_iff.mp hnil]
      rfl
    · rw [after_bind]
      have hstart : { mid with commands }.slots = [] ++ later.conflicts.map Conflict.slot :=
        hmidSlots
      refine (after_resolveConflicts_steady hstart later.nodup nofun hresolvable.1).mono ?_
        fun _ _ h => h
      rintro _ next ⟨rfl, hnextRounds, hnextResolved, hnextSlots⟩
      exact hgo (hnextRounds.trans hmidRounds) hnextResolved hnextSlots

/-- **A rebase** of which all conflicts are of those to be resolved. -/
theorem after_resolveOrAbort_steady {round : Round} {rounds : List Round}
    (hlength : (round :: rounds).length ≤ 20) (hfirst : round.conflicts ≠ [])
    (hresolvable : ∀ other ∈ round :: rounds, ∀ conflict ∈ other.conflicts,
      conflict.isResolvable = true) :
    After (GitFaults.steady checksOut).resolveOrAbort (Rebase.stopped (round :: rounds))
      (fun resolved next => resolved = true ∧
        next.resolved = outcomes checksOut (round :: rounds))
      (fun _ _ => False) := by
  rw [List.forall_mem_cons] at hresolvable
  rw [GitFaults.resolveOrAbort, GitFaults.tryAutoResolveRebase, after_bind, after_bind]
  have hslots : (Rebase.stopped (round :: rounds)).slots = round.conflicts.map Conflict.slot := rfl
  refine (after_listConflicts_steady hslots).mono ?_ fun _ _ h => h
  rintro _ _ ⟨rfl, commands, rfl⟩
  dsimp only
  rw [if_neg (fun hnil => hfirst (List.map_eq_nil_iff.mp hnil)), after_bind]
  have hstart : { Rebase.stopped (round :: rounds) with commands }.slots =
    [] ++ round.conflicts.map Conflict.slot := rfl
  refine (after_resolveConflicts_steady hstart round.nodup nofun hresolvable.1).mono ?_
    fun _ _ h => h
  rintro _ mid ⟨rfl, hrounds, hresolved, hentries⟩
  refine (after_continueRounds_steady hentries hrounds hlength hresolvable.2).mono ?_
    fun _ _ h => h
  rintro _ next ⟨rfl, hnext⟩
  exact ⟨rfl, by rw [hnext, hresolved]; rfl⟩

end

theorem harmlessConflicts_of_resolvesSoundly {rounds : List Round}
    (hsound : ResolvesSoundly rounds) :
    HarmlessConflicts rounds := by
  rintro hlength ⟨first, hhead, hfirst⟩ hresolvable round hround conflict hmem hauto
  obtain ⟨rest, rfl⟩ := List.head?_eq_some_iff.mp hhead
  have houtcome : ∀ checksOut, conflict.outcome checksOut = conflict.ours := by
    intro checksOut
    have hrun := (hsound (.steady checksOut)).and
      (after_resolveOrAbort_steady hlength hfirst hresolvable)
    obtain ⟨_, next, -, hresolvedSoundly, rfl, hresolved⟩ :=
      returns_of_after (hrun.mono (fun _ _ h => h) fun _ _ h => h.1)
    have hin : (conflict, conflict.outcome checksOut) ∈ next.resolved := by
      rw [hresolved]
      exact List.mem_map_of_mem (List.mem_flatMap.mpr ⟨round, hround, hmem⟩)
    rcases hresolvedSoundly.2.2.2 _ hin with ⟨-, hours⟩ | ⟨hfence, -⟩
    · exact hours
    · rw [not_autoResolvable_of_mem_fence hfence] at hauto
      cases hauto
  have hworktree := houtcome false
  have htheirs := houtcome true
  rw [Conflict.outcome, if_pos hauto] at hworktree htheirs
  refine ⟨hworktree, fun text htext => ?_⟩
  rw [if_pos rfl, Option.mem_def.mp htext, Option.some_or] at htheirs
  exact htheirs.symm

/-- **Conflicts are resolved soundly** if and only if the managed files in conflict are the same on
both sides, or something else keeps the rebase from being resolved. -/
theorem resolvesSoundly_iff_harmlessConflicts (rounds : List Round) :
    ResolvesSoundly rounds ↔ HarmlessConflicts rounds :=
  ⟨harmlessConflicts_of_resolvesSoundly, resolvesSoundly_of_harmlessConflicts⟩

/-- Both sides have changed the configuration of the build. -/
def managedRound : Round where
  conflicts := [{
    path := ".cargo/config.toml"
    base := some "jobs = 1".toList
    ours := some "jobs = 2".toList
    theirs := some "jobs = 4".toList
    worktree := some "<<<<<<< jobs = 2 ======= jobs = 4 >>>>>>>".toList }]
  nodup := List.nodup_singleton _

/-- The engineer's configuration goes to the trunk. -/
theorem not_resolvesSoundly_managed : ¬ ResolvesSoundly [managedRound] := by
  intro hsound
  have hharmless := harmlessConflicts_of_resolvesSoundly hsound
  have hours := (hharmless (by decide) ⟨managedRound, rfl, List.cons_ne_nil _ _⟩ (by decide)
    managedRound (List.mem_singleton_self _) _ (List.mem_singleton_self _) (by decide)).2 _ rfl
  exact absurd hours (by decide)

end Batty
