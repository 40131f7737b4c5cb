import Mathlib.Data.List.Basic
import Batty.Dispatch.Daemon

/-!
# Smoke tests of the main branch

From time to time a command is run on the main branch. When it fails and the daemon may revert,
the commit at the head of the branch is reverted, whichever it is.

No commit is reverted twice, as a revert is a new head. But when the branch stays broken, the next
failing run finds the revert at the head and reverts that: the daemon takes its own commit back and
the broken one is in again (`not_neverFightsItself_stillBroken`). It does not happen if and only if
a commit has landed before each revert since the one before
(`neverFightsItself_through_iff_revertsApart`).
-/

namespace Batty

/-! ### The branch -/

/-- A commit, by its place in the branch also known by a number. -/
structure Commit where
  hash : String
  parents : List String
  /-- The number of the commit that the daemon made this one to revert. -/
  reverts : Option Nat := none

/-- The commits of a branch, the oldest first. -/
structure Branch where
  head : Commit
  history : List Commit
  older : ∀ (number : Nat) (commit : Commit), (history ++ [head])[number]? = some commit →
    ∀ target ∈ commit.reverts, target < number

namespace Branch

variable (branch : Branch)

def commits : List Commit := branch.history ++ [branch.head]

/-- A new head. -/
def push (commit : Commit) (hreverts : ∀ target ∈ commit.reverts, target < branch.commits.length) :
    Branch where
  head := commit
  history := branch.commits
  older := by
    intro number other hother
    rcases Nat.lt_trichotomy number branch.commits.length with hlt | rfl | hgt
    · rw [List.getElem?_append_left hlt] at hother
      exact branch.older number other hother
    · rw [List.getElem?_concat_length, Option.some.injEq] at hother
      exact hother ▸ hreverts
    · have hlength : (branch.commits ++ [commit]).length ≤ number := by
        rw [List.length_append, List.length_singleton]
        omega
      rw [List.getElem?_eq_none hlength] at hother
      cases hother

/-- A commit lands that is not a revert of the daemon. -/
def land (hash : String) (parents : List String) : Branch :=
  branch.push { hash, parents } nofun

/-- The commit at the head is reverted by a new one. -/
def revertHead (hash : String) : Branch :=
  branch.push { hash, parents := [branch.head.hash], reverts := some branch.history.length } <| by
    rintro _ ⟨⟩
    simp [commits]

/-- Each commit is reverted at most once, and a revert never. -/
structure NeverFightsItself : Prop where
  once : (branch.commits.filterMap Commit.reverts).Nodup
  spares : ∀ commit ∈ branch.commits, ∀ number ∈ commit.reverts,
    ∀ reverted ∈ branch.commits[number]?, reverted.reverts = none

end Branch

/-! ### The smoke test -/

/-- When main is tested, and what its failure stops. -/
structure MainSmokePolicy where
  enabled : Bool
  intervalSecs : Nat
  command : String
  pauseDispatchOnFailure : Bool
  autoRevert : Bool

/-- What is kept of the last test of main. -/
structure MainSmokeState where
  broken : Bool
  pauseDispatch : Bool
  lastRunAt : Nat
  lastSuccessCommit : Option String
  brokenCommit : Option String
  suspects : List String
  summary : Option String

/-- The two events of the test. -/
inductive MainSmokeEvent where
  | mainBroken (commit : String) (suspects : List String) (summary : String)
  | mainSmokeRecovered (commit command : String)

/-- The part of the daemon that has to do with the main branch. -/
structure MainSmokeDaemon where
  projectRoot : String
  policy : MainSmokePolicy
  isGitRepo : Bool
  isMultiRepo : Bool
  main : Branch
  lastMainSmokeCheck : Nat
  mainSmokeState : Option MainSmokeState := none
  actions : List String := []
  events : List MainSmokeEvent := []

abbrev MainSmokeAction := EStateM String MainSmokeDaemon

/-- What a run of the command gave. -/
structure SmokeRun where
  passed : Bool
  output : String

/-- What `git revert` ended with. -/
structure RevertRun where
  success : Bool
  stderr : String

/-- What a tick meets with: the clocks, the command's run, and how git does. -/
structure SmokeLook where
  elapsedAt : Nat
  checkedAt : Nat
  unixNow : Nat
  head : Except String Unit
  testRun : Except String SmokeRun
  suspects : Except String (List String)
  parents : Except String Unit
  revert : List String → Except String RevertRun
  revertHash : String
  newHead : Except String Unit

/-- A text without the colours of a terminal; `escaped` says that a colour is being read. -/
def stripAnsi (escaped : Bool) : List Char → List Char
  | [] => []
  | c :: s =>
    if escaped then stripAnsi (!c.isAlpha) s
    else if c = '\x1b' && s.head? = some '[' then stripAnsi true s
    else c :: stripAnsi false s

/-- The first line that is not about the progress of the build. -/
def summarizeSmokeOutput (output : String) : String :=
  let progress := ["Compiling ", "Checking ", "Blocking waiting for file lock", "Finished ",
    "Running "]
  let summary := ((Text.lines output.toList).map fun line => Text.trim (stripAnsi false line)).find?
    fun line => !line.isEmpty && !progress.any fun start => start.toList.isPrefixOf line
  String.ofList ((summary.getD "main smoke command failed".toList).take 240)

def MainSmokeDaemon.recordOrchestratorAction (action : String) : MainSmokeAction Unit :=
  modify fun daemon => { daemon with actions := daemon.actions ++ [action] }

def MainSmokeDaemon.emitEvent (event : MainSmokeEvent) : MainSmokeAction Unit :=
  modify fun daemon => { daemon with events := daemon.events ++ [event] }

/-- The result, or an error that tells what was tried. -/
def withContext {α : Type} (error : String) : Except String α → Except String α
  | .ok a => .ok a
  | .error _ => .error error

/-- The words of a text. -/
def splitWhitespace (s : List Char) : List (List Char) :=
  (s.splitOnP Text.isWhitespace).filter fun word => !word.isEmpty

/-- The options for a revert: of a merge, only what came by its first parent stays. -/
def revertArgs (head : Commit) : List String :=
  let parentLine := " ".intercalate (head.hash :: head.parents)
  let parentCount := (splitWhitespace parentLine.toList).length - 1
  if parentCount > 1 then ["revert", "-m", "1", "--no-edit", "HEAD"]
  else ["revert", "--no-edit", "HEAD"]

open MainSmokeDaemon

namespace SmokeLook

variable (look : SmokeLook)

def shortHeadCommit (result : Except String Unit) : MainSmokeAction String := do
  orFail result
  return String.ofList ((← get).main.head.hash.toList.take 7)

/-- Revert the merge that broke main, if the policy says so. -/
def maybeAutoRevertBrokenMain (brokenCommit : String) : MainSmokeAction Unit := do
  orFail (withContext s!"failed to inspect parents for broken main commit {brokenCommit}"
    look.parents)
  let output ← orFail (withContext
    s!"failed to launch auto-revert for broken main commit {brokenCommit}"
    (look.revert (revertArgs (← get).main.head)))
  if output.success then
    modify fun daemon => { daemon with main := daemon.main.revertHead look.revertHash }
    let revertedTo ← shortHeadCommit look.newHead
    recordOrchestratorAction
      s!"main smoke: auto-reverted broken commit {brokenCommit}; main is now {revertedTo}"
  else
    let stderr := String.ofList (Text.trim output.stderr.toList)
    recordOrchestratorAction s!"main smoke: auto-revert failed for {brokenCommit} ({stderr})"

/-- The command has passed. -/
def notePassed (command head : String) : MainSmokeAction Unit := do
  let daemon ← get
  let wasBroken := daemon.mainSmokeState.any MainSmokeState.broken
  let state : MainSmokeState := {
    broken := false
    pauseDispatch := daemon.policy.pauseDispatchOnFailure
    lastRunAt := look.unixNow
    lastSuccessCommit := some head
    brokenCommit := none
    suspects := []
    summary := some s!"`{command}` passed on {head}" }
  set { daemon with mainSmokeState := some state }
  if wasBroken then
    emitEvent (.mainSmokeRecovered head command)
    recordOrchestratorAction s!"main smoke: recovered on {head}; dispatch gate cleared"
  else return ()

/-- The command has failed. -/
def noteBroken (head : String) (testRun : SmokeRun) : MainSmokeAction Unit := do
  let suspects ← orFail look.suspects
  let summary := summarizeSmokeOutput testRun.output
  let daemon ← get
  let shouldEmit := daemon.mainSmokeState.all fun state =>
    state.brokenCommit ≠ some head || state.summary ≠ some summary
  let state : MainSmokeState := {
    broken := true
    pauseDispatch := daemon.policy.pauseDispatchOnFailure
    lastRunAt := look.unixNow
    lastSuccessCommit := daemon.mainSmokeState.bind MainSmokeState.lastSuccessCommit
    brokenCommit := some head
    suspects := suspects
    summary := some summary }
  set { daemon with mainSmokeState := some state }
  if shouldEmit then emitEvent (.mainBroken head suspects summary) else pure ()
  let suspectList := ", ".intercalate suspects
  recordOrchestratorAction s!"main smoke: BROKEN at {head}; suspects [{suspectList}]; {summary}"

/-- A run of the command, and what follows from it. -/
def runMainSmoke (command : String) : MainSmokeAction Unit := do
  let daemon ← get
  let head ← shortHeadCommit look.head
  recordOrchestratorAction s!"main smoke: running `{command}` at {head}"
  let testRun ← orFail (withContext
    s!"failed while running main smoke command `{command}` in {daemon.projectRoot}" look.testRun)
  if testRun.passed then look.notePassed command head
  else
    look.noteBroken head testRun
    if daemon.policy.autoRevert then look.maybeAutoRevertBrokenMain head else return ()

/-- Test main if it is time, and note what came out. -/
def maybeRunMainSmoke : MainSmokeAction Unit := do
  let daemon ← get
  if !daemon.policy.enabled then return ()
  else if look.elapsedAt - daemon.lastMainSmokeCheck < fromSecs daemon.policy.intervalSecs then
    return ()
  else
    set { daemon with lastMainSmokeCheck := look.checkedAt }
    if !daemon.isGitRepo || daemon.isMultiRepo then return ()
    else if (Text.trim daemon.policy.command.toList).isEmpty then return ()
    else look.runMainSmoke (String.ofList (Text.trim daemon.policy.command.toList))

def revertSucceeds (head : Commit) : Bool :=
  match look.revert (revertArgs head) with
  | .ok output => output.success
  | .error _ => false

/-- The command fails, and the head is reverted for it. -/
def blames (daemon : MainSmokeDaemon) : Bool :=
  look.head.isOk &&
    (match look.testRun with
      | .ok testRun => !testRun.passed
      | .error _ => false) &&
    look.suspects.isOk && daemon.policy.autoRevert && look.parents.isOk &&
      look.revertSucceeds daemon.main.head

/-- It is time for a run of the command. -/
def runs (daemon : MainSmokeDaemon) : Bool :=
  daemon.policy.enabled &&
    !(look.elapsedAt - daemon.lastMainSmokeCheck < fromSecs daemon.policy.intervalSecs : Bool) &&
      !(!daemon.isGitRepo || daemon.isMultiRepo) &&
        !(Text.trim daemon.policy.command.toList).isEmpty

/-- The tick reverts the head. -/
def reverts (daemon : MainSmokeDaemon) : Bool := look.runs daemon && look.blames daemon

end SmokeLook

/-! ### Runs -/

/-- What happens to the main branch: a commit lands, or it is time for a tick. -/
inductive MainStep where
  | land (hash : String) (parents : List String)
  | tick (look : SmokeLook)

namespace MainSmokeDaemon

variable (daemon : MainSmokeDaemon)

def step : MainStep → MainSmokeDaemon
  | .land hash parents => { daemon with main := daemon.main.land hash parents }
  | .tick look => endState look.maybeRunMainSmoke daemon

/-- One step after another; an error ends a tick, and what it did stays done. -/
def through (steps : List MainStep) : MainSmokeDaemon := steps.foldl step daemon

/-- A tick reverts only if a commit has landed since the last revert; `landed` says so of the steps
to come. -/
def RevertsApart (daemon : MainSmokeDaemon) (landed : Bool) : List MainStep → Prop
  | [] => True
  | .land hash parents :: steps => RevertsApart (daemon.step (.land hash parents)) true steps
  | .tick look :: steps =>
    (look.reverts daemon = true → landed = true) ∧
      RevertsApart (daemon.step (.tick look)) (landed && !look.reverts daemon) steps

end MainSmokeDaemon

/-! ### What a step does to the branch -/

section

variable {look : SmokeLook} {daemon : MainSmokeDaemon}

theorem after_shortHeadCommit {result : Except String Unit}
    {Q : String → MainSmokeDaemon → Prop} {E : String → MainSmokeDaemon → Prop}
    (hok : result.isOk = true → ∀ head, Q head daemon)
    (herror : result.isOk = false → ∀ error, E error daemon) :
    After (SmokeLook.shortHeadCommit result) daemon Q E := by
  rw [SmokeLook.shortHeadCommit, after_bind]
  cases result with
  | ok _ => exact hok rfl _
  | error error => exact herror rfl error

theorem after_maybeAutoRevertBrokenMain (brokenCommit : String) :
    After (look.maybeAutoRevertBrokenMain brokenCommit) daemon
      (fun _ next => next.main = bif look.parents.isOk && look.revertSucceeds daemon.main.head then
        daemon.main.revertHead look.revertHash else daemon.main)
      (fun _ next => next.main = bif look.parents.isOk && look.revertSucceeds daemon.main.head then
        daemon.main.revertHead look.revertHash else daemon.main) := by
  rw [SmokeLook.maybeAutoRevertBrokenMain, after_bind]
  cases look.parents with
  | error error => rfl
  | ok _ =>
    rw [withContext, after_orFail_ok, after_bind, after_get, after_bind]
    cases hrevert : look.revert (revertArgs daemon.main.head) with
    | error error =>
      rw [SmokeLook.revertSucceeds, hrevert]
      rfl
    | ok output =>
      rw [withContext, after_orFail_ok, SmokeLook.revertSucceeds, hrevert]
      dsimp only [Except.isOk, Except.toBool]
      cases output.success with
      | true =>
        refine after_bind.mpr (after_bind.mpr ?_)
        exact after_shortHeadCommit (fun _ _ => rfl) (fun _ _ => rfl)
      | false => rfl

theorem after_notePassed (command head : String) :
    After (look.notePassed command head) daemon (fun _ next => next.main = daemon.main)
      (fun _ next => next.main = daemon.main) := by
  simp only [SmokeLook.notePassed, after_bind, after_get, after_set]
  split
  · rfl
  · rfl

theorem after_noteBroken (head : String) (testRun : SmokeRun) :
    After (look.noteBroken head testRun) daemon
      (fun _ next => next.main = daemon.main ∧ look.suspects.isOk = true)
      (fun _ next => next.main = daemon.main ∧ look.suspects.isOk = false) := by
  rw [SmokeLook.noteBroken, after_bind]
  cases look.suspects with
  | error error => exact ⟨rfl, rfl⟩
  | ok suspects =>
    simp only [after_orFail_ok, after_bind, after_get, after_set]
    split
    · exact ⟨rfl, rfl⟩
    · exact ⟨rfl, rfl⟩

theorem after_runMainSmoke (command : String) :
    After (look.runMainSmoke command) daemon
      (fun _ next => next.main = bif look.blames daemon then
        daemon.main.revertHead look.revertHash else daemon.main)
      (fun _ next => next.main = bif look.blames daemon then
        daemon.main.revertHead look.revertHash else daemon.main) := by
  rw [SmokeLook.runMainSmoke, after_bind, after_get, after_bind]
  refine after_shortHeadCommit (fun hok head => ?_) fun herror _ => ?_
  · rw [after_bind, MainSmokeDaemon.recordOrchestratorAction, after_modify, after_bind]
    cases htestRun : look.testRun with
    | error error => simp [withContext, SmokeLook.blames, htestRun]
    | ok testRun =>
      rw [withContext, after_orFail_ok]
      split
      · rename_i hpassed
        have hblames : look.blames daemon = false := by
          simp [SmokeLook.blames, htestRun, hpassed]
        rw [hblames]
        exact after_notePassed command head
      · rename_i hfailed
        rw [after_bind]
        refine (after_noteBroken head testRun).mono ?_ ?_
        · rintro _ next ⟨hmain, hsuspects⟩
          have hblames : look.blames daemon = (daemon.policy.autoRevert &&
              (look.parents.isOk && look.revertSucceeds next.main.head)) := by
            simp [SmokeLook.blames, htestRun, hfailed, hok, hsuspects, hmain, Bool.and_assoc]
          rw [hblames, ← hmain]
          split
          · rename_i hauto
            rw [hauto, Bool.true_and]
            exact after_maybeAutoRevertBrokenMain head
          · rename_i hauto
            rw [Bool.eq_false_iff.mpr hauto]
            rfl
        · rintro _ next ⟨hmain, hsuspects⟩
          have hblames : look.blames daemon = false := by
            simp [SmokeLook.blames, hsuspects]
          rw [hblames, hmain]
          rfl
  · have hblames : look.blames daemon = false := by simp [SmokeLook.blames, herror]
    rw [hblames]
    rfl

/-- **One tick** reverts the head, or it leaves the branch as it is. -/
theorem main_step_tick : (daemon.step (.tick look)).main =
    bif look.reverts daemon then daemon.main.revertHead look.revertHash else daemon.main := by
  refine (after_iff_endState (P := fun next : MainSmokeDaemon => next.main =
    bif look.reverts daemon then daemon.main.revertHead look.revertHash else daemon.main)).mp ?_
  rw [SmokeLook.maybeRunMainSmoke, after_bind, after_get, SmokeLook.reverts, SmokeLook.runs]
  split
  · rename_i henabled
    rw [(Bool.not_eq_true' _).mp henabled]
    rfl
  · rename_i henabled
    rw [Bool.not_eq_true', Bool.not_eq_false] at henabled
    rw [henabled]
    split
    · rename_i hearly
      rw [decide_eq_true hearly]
      rfl
    · rename_i hdue
      rw [decide_eq_false hdue, after_bind, after_set]
      split
      · rename_i hrepo
        rw [hrepo]
        rfl
      · rename_i hrepo
        rw [Bool.eq_false_iff.mpr hrepo]
        split
        · rename_i hcommand
          rw [hcommand]
          rfl
        · rename_i hcommand
          rw [Bool.eq_false_iff.mpr hcommand]
          exact after_runMainSmoke _

end

/-! ### Which commits are reverted -/

section

variable {branch : Branch} {commit : Commit} {number : Nat}

/-- What is reverted is older than the head. -/
theorem Branch.lt_of_reverts (hmem : commit ∈ branch.commits) (hreverts : number ∈ commit.reverts) :
    number < branch.history.length := by
  obtain ⟨i, hi, rfl⟩ := List.getElem_of_mem hmem
  have hlt := branch.older i _ (List.getElem?_eq_getElem hi) number hreverts
  rw [commits, List.length_append, List.length_singleton] at hi
  omega

theorem Branch.getElem?_commits_head : branch.commits[branch.history.length]? = some branch.head :=
  List.getElem?_concat_length

/-- A number in a longer branch. -/
theorem Branch.getElem?_push (hreverts) (hlt : number < branch.commits.length) :
    (branch.push commit hreverts).commits[number]? = branch.commits[number]? :=
  List.getElem?_append_left hlt

theorem Branch.neverFightsItself_push_iff (hreverts) :
    (branch.push commit hreverts).NeverFightsItself ↔ branch.NeverFightsItself ∧
      ∀ number ∈ commit.reverts, (∀ other ∈ branch.commits, number ∉ other.reverts) ∧
        ∀ reverted ∈ branch.commits[number]?, reverted.reverts = none := by
  have hcommits : (branch.push commit hreverts).commits = branch.commits ++ [commit] := rfl
  have hlt : ∀ other ∈ branch.commits, ∀ number ∈ other.reverts,
      number < branch.commits.length := by
    intro other hmem number hnumber
    have hhistory := lt_of_reverts hmem hnumber
    rw [commits, List.length_append]
    omega
  constructor
  · rintro ⟨honce, hspares⟩
    rw [hcommits, List.filterMap_append, List.nodup_append] at honce
    rw [hcommits, List.forall_mem_append] at hspares
    refine ⟨⟨honce.1, fun other hmem number hnumber => ?_⟩, fun number hnumber => ⟨?_, ?_⟩⟩
    · rw [← getElem?_push hreverts (hlt other hmem number hnumber)]
      exact hspares.1 other hmem number hnumber
    · intro other hmem hother
      refine honce.2.2 number (List.mem_filterMap.mpr ⟨other, hmem, hother⟩) number ?_ rfl
      exact List.mem_filterMap.mpr ⟨commit, List.mem_singleton_self _, hnumber⟩
    · rw [← getElem?_push hreverts (hreverts number hnumber)]
      exact hspares.2 commit (List.mem_singleton_self _) number hnumber
  · rintro ⟨⟨honce, hspares⟩, hnew⟩
    refine ⟨?_, ?_⟩
    · rw [hcommits, List.filterMap_append, List.nodup_append]
      refine ⟨honce, ?_, ?_⟩
      · cases hcommit : commit.reverts <;> simp [hcommit]
      · rintro number hnumber _ hnumber' rfl
        obtain ⟨other, hmem, hother⟩ := List.mem_filterMap.mp hnumber
        obtain ⟨_, hsingle, hcommit⟩ := List.mem_filterMap.mp hnumber'
        obtain rfl := List.mem_singleton.mp hsingle
        exact (hnew number hcommit).1 other hmem hother
    · rw [hcommits, List.forall_mem_append]
      refine ⟨fun other hmem number hnumber => ?_, fun other hmem number hnumber => ?_⟩
      · rw [← hcommits, getElem?_push hreverts (hlt other hmem number hnumber)]
        exact hspares other hmem number hnumber
      · obtain rfl := List.mem_singleton.mp hmem
        rw [← hcommits, getElem?_push hreverts (hreverts number hnumber)]
        exact (hnew number hnumber).2

theorem Branch.neverFightsItself_land_iff {hash : String} {parents : List String} :
    (branch.land hash parents).NeverFightsItself ↔ branch.NeverFightsItself := by
  rw [land, neverFightsItself_push_iff]
  exact and_iff_left nofun

/-- Reverting the head is harmful if it is a revert. -/
theorem Branch.neverFightsItself_revertHead_iff {hash : String} :
    (branch.revertHead hash).NeverFightsItself ↔
      branch.NeverFightsItself ∧ branch.head.reverts = none := by
  rw [revertHead, neverFightsItself_push_iff]
  refine and_congr_right fun _ => ⟨fun h => ?_, ?_⟩
  · exact (h _ rfl).2 branch.head getElem?_commits_head
  · rintro hhead _ ⟨⟩
    refine ⟨fun other hmem hother => (lt_of_reverts hmem hother).false, ?_⟩
    rw [getElem?_commits_head]
    rintro _ ⟨⟩
    exact hhead

end

/-! ### Whole runs -/

/-- From whatever branch, as nothing of what is done to it is undone. -/
theorem MainSmokeDaemon.neverFightsItself_through (daemon : MainSmokeDaemon)
    (steps : List MainStep) : (daemon.through steps).main.NeverFightsItself ↔
      daemon.main.NeverFightsItself ∧
        daemon.RevertsApart daemon.main.head.reverts.isNone steps := by
  induction steps generalizing daemon with
  | nil => exact (and_iff_left trivial).symm
  | cons step steps ih =>
    have hthrough : daemon.through (step :: steps) = (daemon.step step).through steps := rfl
    rw [hthrough, ih]
    cases step with
    | land hash parents =>
      exact and_congr_left fun _ => Branch.neverFightsItself_land_iff
    | tick look =>
      rw [RevertsApart, main_step_tick]
      cases look.reverts daemon with
      | true =>
        rw [cond_true, Branch.neverFightsItself_revertHead_iff, and_assoc, Bool.not_true,
          Bool.and_false, forall_prop_of_true rfl, Option.isNone_iff_eq_none]
        rfl
      | false => simp

/-- **Reverts do not fight each other** if and only if a commit lands before each revert since the
one before. -/
theorem neverFightsItself_through_iff_revertsApart (daemon : MainSmokeDaemon)
    (steps : List MainStep) (hmain : daemon.main.NeverFightsItself) :
    (daemon.through steps).main.NeverFightsItself ↔
      daemon.RevertsApart daemon.main.head.reverts.isNone steps := by
  rw [daemon.neverFightsItself_through]
  exact and_iff_right hmain

/-! ### A branch that stays broken -/

/-- A run of the command that fails when git does what it is asked. -/
def failingLook (time : Nat) (hash : String) : SmokeLook where
  elapsedAt := fromSecs time
  checkedAt := fromSecs time
  unixNow := time
  head := .ok ()
  testRun := .ok { passed := false, output := "error: no space left on device" }
  suspects := .ok []
  parents := .ok ()
  revert := fun _ => .ok { success := true, stderr := "" }
  revertHash := hash
  newHead := .ok ()

def revertingDaemon : MainSmokeDaemon where
  projectRoot := "/repo"
  policy := {
    enabled := true
    intervalSecs := 600
    command := "cargo check"
    pauseDispatchOnFailure := true
    autoRevert := true }
  isGitRepo := true
  isMultiRepo := false
  main := Branch.mk { hash := "a1", parents := ["a0"] } [] <| by
    intro number commit hcommit target htarget
    obtain rfl := List.mem_singleton.mp (List.mem_of_getElem? hcommit)
    cases htarget
  lastMainSmokeCheck := 0

theorem neverFightsItself_revertingDaemon : revertingDaemon.main.NeverFightsItself := by
  refine ⟨List.nodup_nil, fun commit hmem number hnumber => ?_⟩
  obtain rfl := List.mem_singleton.mp hmem
  cases hnumber

/-- Two ticks: the second reverts the revert of the first. -/
theorem not_neverFightsItself_stillBroken : revertingDaemon.main.NeverFightsItself ∧
    ¬ (revertingDaemon.through [.tick (failingLook 600 "b1"),
      .tick (failingLook 1200 "b2")]).main.NeverFightsItself := by
  refine ⟨neverFightsItself_revertingDaemon, ?_⟩
  rw [revertingDaemon.neverFightsItself_through]
  rintro ⟨-, -, hsecond, -⟩
  have hfirst : (failingLook 600 "b1").reverts revertingDaemon = true := by decide +kernel
  have hreverts : (failingLook 1200 "b2").reverts
      (revertingDaemon.step (.tick (failingLook 600 "b1"))) = true := by decide +kernel
  have hlanded := hsecond hreverts
  rw [hfirst, Bool.not_true, Bool.and_false] at hlanded
  cases hlanded

/-- Two reverts with a commit between them. -/
theorem neverFightsItself_through_iff_revertsApart_landed :
    (revertingDaemon.through [.tick (failingLook 600 "b1"), .land "c1" ["b1"],
      .tick (failingLook 1200 "b2")]).main.NeverFightsItself :=
  (neverFightsItself_through_iff_revertsApart revertingDaemon _
    neverFightsItself_revertingDaemon).mpr ⟨fun _ => rfl, fun _ => rfl, trivial⟩

end Batty
