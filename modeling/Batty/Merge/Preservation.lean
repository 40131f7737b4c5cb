import Batty.Foundation.Fallible
import Batty.Foundation.LineEnds

/-!
# Saving a worktree by a commit

Before a worktree is taken away from a task, all that was changed in it is staged and committed. If
that fails, what was staged for it is taken back: the paths that are staged now and were not before
are reset.

So a path that was staged before stays as the commit was to have it. Its entry in the index is gone
where the file had been changed again, or where it lies in a directory that is unstaged
(`not_leavesIndexAlone`). And a path is reset by the name that git lists, which is not its own if
git quotes it, and is missing if the file was moved. `leavesIndexAlone_iff` is the exact condition.
-/

namespace Batty

namespace Preservation

open Text

abbrev Path := List Char

variable {Blob : Type} [DecidableEq Blob]

/-! ### Repositories -/

/-- The last commit, the index and the files; no other path than the listed ones has any. -/
structure Repo (Blob : Type) where
  paths : List Path
  head : Path → Option Blob
  index : Path → Option Blob
  worktree : Path → Option Blob
  ignored : Path → Bool
  complete : ∀ path ∉ paths, head path = none ∧ index path = none ∧ worktree path = none

/-- How git speaks of paths. -/
structure Git (Blob : Type) where
  /-- The path as it is listed, in quotes where git puts them. -/
  shown : Path → List Char
  /-- In a status, quotes are put around blanks as well. -/
  shownInStatus : Path → List Char
  /-- The path is taken for the former name of a file, which is listed by its new name. -/
  moved : (Path → Option Blob) → (Path → Option Blob) → Path → Bool
  /-- The path is meant by an argument: its own name, a directory, or a pattern. -/
  selects : List Char → Path → Bool

namespace Repo

def Staged (repo : Repo Blob) (path : Path) : Prop := repo.index path ≠ repo.head path

instance (repo : Repo Blob) (path : Path) : Decidable (repo.Staged path) :=
  inferInstanceAs (Decidable (_ ≠ _))

/-- `git add -A`. Ignored files that are not in the index stay out of it. -/
def addAll (repo : Repo Blob) : Repo Blob where
  paths := repo.paths
  head := repo.head
  index := fun path =>
    if repo.index path = none ∧ repo.ignored path = true then none else repo.worktree path
  worktree := repo.worktree
  ignored := repo.ignored
  complete := fun path hpath => by simp [repo.complete path hpath]

/-- `git reset -q --`, for the paths that are meant. -/
def reset (selected : Path → Bool) (repo : Repo Blob) : Repo Blob where
  paths := repo.paths
  head := repo.head
  index := fun path => if selected path then repo.head path else repo.index path
  worktree := repo.worktree
  ignored := repo.ignored
  complete := fun path hpath => by simp [repo.complete path hpath]

/-- `git commit`. -/
def commit (repo : Repo Blob) : Repo Blob where
  paths := repo.paths
  head := repo.index
  index := repo.index
  worktree := repo.worktree
  ignored := repo.ignored
  complete := fun path hpath => by simp [repo.complete path hpath]

end Repo

/-- The letter for a change. -/
def changeCode (old new : Option Blob) : Char :=
  if old = new then ' '
  else
    match old, new with
    | none, _ => 'A'
    | _, none => 'D'
    | _, _ => 'M'

/-- The lines of `git status --porcelain=v1` about a path. -/
def Git.statusLines (git : Git Blob) (repo : Repo Blob) (path : Path) : List (List Char) :=
  let inIndex := changeCode (repo.head path) (repo.index path)
  let inFile := if repo.index path = none then ' '
    else changeCode (repo.index path) (repo.worktree path)
  (if inIndex = ' ' ∧ inFile = ' ' then [] else [[inIndex, inFile, ' '] ++ git.shownInStatus path]) ++
    if repo.index path = none ∧ repo.worktree path ≠ none ∧ repo.ignored path = false then
      ["?? ".toList ++ git.shownInStatus path]
    else []

/-! ### Commands -/

def managedDirs : List (List Char) := [".batty", ".cargo", ".batty-target"].map String.toList

def Git.managed (git : Git Blob) (path : Path) : Bool := managedDirs.any fun dir => git.selects dir path

/-- How a command goes. One that is killed may have done its work. -/
inductive Outcome where
  | succeeds
  | fails
  | killed
deriving DecidableEq

/-- How the commands go, in their order. -/
structure Course where
  inspects : Bool
  lists : Bool
  adds : Outcome
  unstages : Outcome
  relists : Bool
  commits : Outcome
  rollbackLists : Bool
  rollsBack : Outcome

abbrev PreserveAction (Blob : Type) := EStateM String (Repo Blob)

def parseStatusPaths (status : List Char) : List (List Char) :=
  (lines status).filterMap fun line =>
    if line.length < 4 then none
    else
      let path := trim (line.drop 3)
      if path = [] then none else some path

/-- What is changed outside of the managed directories. -/
def Git.changedNames (git : Git Blob) (repo : Repo Blob) : List (List Char) :=
  parseStatusPaths (unlines
    ((repo.paths.filter fun path => !git.managed path).flatMap (git.statusLines repo)))

/-- In a directory with several repositories the lists of these are put together; there the next
command fails, and nothing is staged. -/
def currentWorktreeUserChangePaths (git : Git Blob) (works : Bool) :
    PreserveAction Blob (List (List Char)) := do
  if !works then throw "failed to inspect worktree status"
  return git.changedNames (← get)

/-- What `git diff --cached --name-only` lists. -/
def Git.stagedNames (git : Git Blob) (repo : Repo Blob) : List (List Char) :=
  let paths := repo.paths.filter fun path =>
    decide (repo.Staged path) && !git.moved repo.head repo.index path
  ((lines (unlines (paths.map git.shown))).map trim).filter fun name => name ≠ []

def currentStagedChangePaths (git : Git Blob) (works : Bool) :
    PreserveAction Blob (List (List Char)) := do
  if !works then throw "failed to inspect staged worktree changes"
  return git.stagedNames (← get)

def runGitWithTimeout (args : String) (outcome : Outcome) (effect : Repo Blob → Repo Blob) :
    PreserveAction Blob Unit := do
  match outcome with
  | .succeeds => modify effect
  | .fails => throw s!"`git {args}` failed"
  | .killed => do
    modify effect
    throw s!"`git {args}` timed out"

/-- Warnings are left out. -/
def rollbackNewlyStagedPaths (git : Git Blob) (course : Course) (original : List (List Char)) :
    PreserveAction Blob Unit := do
  if !course.rollbackLists then return ()
  let names := (git.stagedNames (← get)).filter fun name => name ∉ original
  if names.isEmpty then return ()
  if course.rollsBack = .fails then return ()
  modify (Repo.reset fun path => names.any fun name => git.selects name path)

def stageAndCommit (git : Git Blob) (course : Course) : PreserveAction Blob Bool := do
  runGitWithTimeout "add -A" course.adds Repo.addAll
  runGitWithTimeout "reset -q -- .batty .cargo .batty-target" course.unstages
    (Repo.reset git.managed)
  let stagedPaths ← currentStagedChangePaths git course.relists
  if stagedPaths.isEmpty then return false
  runGitWithTimeout "commit" course.commits Repo.commit
  return true

/-- Commit what the engineer has changed; if that fails, unstage what it staged. -/
def preserveWorktreeWithCommitFor (git : Git Blob) (course : Course) :
    PreserveAction Blob Bool := do
  let dirtyPaths ← currentWorktreeUserChangePaths git course.inspects
  if dirtyPaths.isEmpty then return false
  let originalStagedPaths ← currentStagedChangePaths git course.lists
  match ← attempt (stageAndCommit git course) with
  | .ok committed => return committed
  | .error error => do
    rollbackNewlyStagedPaths git course originalStagedPaths
    throw error

/-! ### What is claimed -/

/-- The path is listed as changed. -/
def Git.Changed (git : Git Blob) (repo : Repo Blob) (path : Path) : Prop :=
  git.statusLines repo path ≠ []

/-- A failure leaves the index and the files as they were; a success has saved the files. -/
structure LeavesIndexAlone (git : Git Blob) (course : Course) (repo : Repo Blob) : Prop where
  failed : ∀ error repo', preserveWorktreeWithCommitFor git course repo = .error error repo' →
    repo'.index = repo.index ∧ repo'.worktree = repo.worktree
  saved : ∀ repo', preserveWorktreeWithCommitFor git course repo = .ok true repo' →
    ∀ path, git.Changed repo path → git.managed path = false →
      repo'.head path = repo.worktree path

/-! ### When it holds -/

/-- The rollback resets the path, by a name that is listed now and was not before. -/
def RolledBack (git : Git Blob) (course : Course) (before now : Repo Blob) (path : Path) : Prop :=
  course.rollbackLists = true ∧ course.rollsBack ≠ .fails ∧
    ∃ name ∈ git.stagedNames now, name ∉ git.stagedNames before ∧ git.selects name path = true

/-- What was staged is still so and stays, and of the rest what was staged since is reset. -/
structure Recovers (git : Git Blob) (course : Course) (before now : Repo Blob) : Prop where
  staged : ∀ path, before.Staged path →
    now.index path = before.index path ∧ ¬ RolledBack git course before now path
  others : ∀ path, ¬ before.Staged path →
    now.index path = before.index path ∨ RolledBack git course before now path

/-- What the last command that worked has left, if one fails. -/
def leftByFailure (git : Git Blob) (course : Course) (repo : Repo Blob) : Option (Repo Blob) :=
  let staged := repo.addAll
  let unstaged := staged.reset git.managed
  match course.adds with
  | .fails => some repo
  | .killed => some staged
  | .succeeds =>
    match course.unstages with
    | .fails => some staged
    | .killed => some unstaged
    | .succeeds =>
      if !course.relists then some unstaged
      else if (git.stagedNames unstaged).isEmpty then none
      else
        match course.commits with
        | .fails => some unstaged
        | .killed => some unstaged.commit
        | .succeeds => none

/-- There is something to save, and git can list it. -/
def Begins (git : Git Blob) (course : Course) (repo : Repo Blob) : Prop :=
  course.inspects = true ∧ git.changedNames repo ≠ [] ∧ course.lists = true

/-- No file is still there, ignored, of which the deletion is staged. -/
def NoneKept (git : Git Blob) (repo : Repo Blob) : Prop :=
  ∀ path, git.managed path = false → repo.index path = none → repo.ignored path = true →
    repo.head path ≠ none → repo.worktree path = none

/-- If a command fails, the rollback makes up for what was staged; if none does, a deletion that is
staged is one of the file. -/
structure Harmless (git : Git Blob) (course : Course) (repo : Repo Blob) : Prop where
  failed : Begins git course repo → ∀ now ∈ leftByFailure git course repo,
    Recovers git course repo now
  saved : Begins git course repo → leftByFailure git course repo = none →
    git.stagedNames (repo.addAll.reset git.managed) ≠ [] → NoneKept git repo

/-! ### The commands -/

section

variable {git : Git Blob} {course : Course} {repo before now : Repo Blob}

omit [DecidableEq Blob] in
theorem runGitWithTimeout_eq (args : String) (outcome : Outcome) (effect : Repo Blob → Repo Blob)
    (repo : Repo Blob) : runGitWithTimeout args outcome effect repo =
      match outcome with
      | .succeeds => .ok () (effect repo)
      | .fails => .error s!"`git {args}` failed" repo
      | .killed => .error s!"`git {args}` timed out" (effect repo) := by
  cases outcome <;> rfl

theorem currentStagedChangePaths_eq (works : Bool) : currentStagedChangePaths git works repo =
    if works then .ok (git.stagedNames repo) repo
    else .error "failed to inspect staged worktree changes" repo := by
  cases works <;> rfl

/-- **Until a command fails.** -/
theorem stageAndCommit_run (git : Git Blob) (course : Course) (repo : Repo Blob) :
    (∀ now, leftByFailure git course repo = some now →
      ∃ error, stageAndCommit git course repo = .error error now) ∧
    (leftByFailure git course repo = none → stageAndCommit git course repo =
      if git.stagedNames (repo.addAll.reset git.managed) = [] then
        .ok false (repo.addAll.reset git.managed)
      else .ok true (repo.addAll.reset git.managed).commit) := by
  simp only [stageAndCommit, leftByFailure, bind, EStateM.bind, runGitWithTimeout_eq]
  cases course.adds with
  | fails | killed => exact ⟨fun now h => ⟨_, by cases h; rfl⟩, fun h => nomatch h⟩
  | succeeds =>
    cases course.unstages with
    | fails | killed => exact ⟨fun now h => ⟨_, by cases h; rfl⟩, fun h => nomatch h⟩
    | succeeds =>
      simp only [currentStagedChangePaths_eq]
      cases course.relists with
      | false => exact ⟨fun now h => ⟨_, by cases h; rfl⟩, fun h => nomatch h⟩
      | true =>
        by_cases hempty : git.stagedNames (repo.addAll.reset git.managed) = []
        · refine ⟨fun now h => ?_, fun _ => ?_⟩
          · simp [hempty] at h
          · simp [hempty]
            rfl
        · have hfalse : (git.stagedNames (repo.addAll.reset git.managed)).isEmpty = false := by
            simpa using hempty
          rw [if_neg hempty]
          simp only [hfalse, if_true, Bool.not_true, Bool.false_eq_true, if_false]
          cases course.commits with
          | fails | killed => exact ⟨fun now h => ⟨_, by cases h; rfl⟩, fun h => nomatch h⟩
          | succeeds => exact ⟨fun now h => (nomatch h), fun _ => rfl⟩

/-- **The rollback** resets what it finds to the last commit. -/
theorem rollback_run (git : Git Blob) (course : Course) (before now : Repo Blob) :
    ∃ now', rollbackNewlyStagedPaths git course (git.stagedNames before) now = .ok () now' ∧
      now'.worktree = now.worktree ∧
      (∀ path, RolledBack git course before now path → now'.index path = now.head path) ∧
      (∀ path, ¬ RolledBack git course before now path → now'.index path = now.index path) := by
  have hidle (h : ∀ path, ¬ RolledBack git course before now path) :
      now.worktree = now.worktree ∧
      (∀ path, RolledBack git course before now path → now.index path = now.head path) ∧
      (∀ path, ¬ RolledBack git course before now path → now.index path = now.index path) :=
    ⟨rfl, fun path hback => absurd hback (h path), fun _ _ => rfl⟩
  let names := (git.stagedNames now).filter fun name => name ∉ git.stagedNames before
  have hback (path : Path) : RolledBack git course before now path ↔ course.rollbackLists = true ∧
      course.rollsBack ≠ .fails ∧ (names.any fun name => git.selects name path) = true := by
    simp [RolledBack, names]
  have hrun : rollbackNewlyStagedPaths git course (git.stagedNames before) now =
      if course.rollbackLists = false ∨ names = [] ∨ course.rollsBack = .fails then .ok () now
      else .ok () (now.reset fun path => names.any fun name => git.selects name path) := by
    cases hlists : course.rollbackLists with
    | false =>
      rw [rollbackNewlyStagedPaths, hlists]
      rfl
    | true =>
      have hnames : rollbackNewlyStagedPaths git course (git.stagedNames before) now =
          (if names.isEmpty then pure ()
          else if course.rollsBack = .fails then pure ()
          else modify (Repo.reset fun path => names.any fun name => git.selects name path) :
            PreserveAction Blob Unit) now := by
        rw [rollbackNewlyStagedPaths, hlists]
        rfl
      rw [hnames]
      by_cases hempty : names = []
      · simp [hempty]
        rfl
      · by_cases hfails : course.rollsBack = .fails
        · simp [hempty, hfails]
          rfl
        · simp [hempty, hfails]
          rfl
  rw [hrun]
  split
  · rename_i hnot
    refine ⟨now, rfl, hidle fun path h => ?_⟩
    obtain ⟨hlists, hfails, hany⟩ := (hback path).mp h
    rcases hnot with hnot | hnot | hnot
    · rw [hlists] at hnot
      cases hnot
    · rw [hnot] at hany
      cases hany
    · exact hfails hnot
  · rename_i hworks
    obtain ⟨hlists, hempty, hfails⟩ := not_or.mp hworks |>.imp_right not_or.mp
    refine ⟨_, rfl, rfl, fun path h => ?_, fun path h => ?_⟩
    · exact if_pos ((hback path).mp h).2.2
    · exact if_neg fun hany => h ((hback path).mpr ⟨by simpa using hlists, hfails, hany⟩)

theorem stagedNames_commit (git : Git Blob) (repo : Repo Blob) : git.stagedNames repo.commit = [] := by
  have hnone : repo.commit.paths.filter (fun path => decide (repo.commit.Staged path) &&
      !git.moved repo.commit.head repo.commit.index path) = [] := by
    refine List.filter_eq_nil_iff.mpr fun path _ => ?_
    simp [Repo.Staged, Repo.commit]
  rw [Git.stagedNames, hnone]
  rfl

/-- What a failure has left has the old commit, or lists nothing as staged. -/
theorem head_of_leftByFailure (h : leftByFailure git course repo = some now) :
    now.worktree = repo.worktree ∧ (now.head = repo.head ∨ git.stagedNames now = []) := by
  revert h
  unfold leftByFailure
  cases course.adds with
  | fails | killed =>
    rintro ⟨⟩
    exact ⟨rfl, .inl rfl⟩
  | succeeds =>
    cases course.unstages with
    | fails | killed =>
      rintro ⟨⟩
      exact ⟨rfl, .inl rfl⟩
    | succeeds =>
      cases course.relists with
      | false =>
        rintro ⟨⟩
        exact ⟨rfl, .inl rfl⟩
      | true =>
        by_cases hempty : (git.stagedNames (repo.addAll.reset git.managed)).isEmpty = true
        · simp [hempty]
        · simp only [Bool.not_true, Bool.false_eq_true, if_false, hempty]
          cases course.commits with
          | fails =>
            rintro ⟨⟩
            exact ⟨rfl, .inl rfl⟩
          | killed =>
            rintro ⟨⟩
            exact ⟨rfl, .inr (stagedNames_commit git _)⟩
          | succeeds => exact fun h => nomatch h

/-! ### Runs -/

theorem currentWorktreeUserChangePaths_eq (works : Bool) :
    currentWorktreeUserChangePaths git works repo =
      if works then .ok (git.changedNames repo) repo
      else .error "failed to inspect worktree status" repo := by
  cases works <;> rfl

/-- Where nothing is begun, nothing is changed. -/
theorem preserve_of_not_begins (h : ¬ Begins git course repo) :
    (∃ error, preserveWorktreeWithCommitFor git course repo = .error error repo) ∨
      preserveWorktreeWithCommitFor git course repo = .ok false repo := by
  simp only [preserveWorktreeWithCommitFor, bind, EStateM.bind, currentWorktreeUserChangePaths_eq]
  cases hinspects : course.inspects with
  | false => exact .inl ⟨_, rfl⟩
  | true =>
    by_cases hnames : git.changedNames repo = []
    · exact .inr (by simp [hnames, pure, EStateM.pure])
    · cases hlists : course.lists with
      | false => exact .inl ⟨_, by simp [hnames]; rfl⟩
      | true => exact absurd ⟨hinspects, hnames, hlists⟩ h

/-- A failure is one of the commands, and then there is the rollback. -/
theorem preserve_of_begins (h : Begins git course repo) :
    preserveWorktreeWithCommitFor git course repo =
      match stageAndCommit git course repo with
      | .ok committed now => .ok committed now
      | .error error now =>
        (rollbackNewlyStagedPaths git course (git.stagedNames repo) >>= fun _ => throw error) now := by
  obtain ⟨hinspects, hnames, hlists⟩ := h
  have hempty : (git.changedNames repo).isEmpty = false := by simpa using hnames
  simp only [preserveWorktreeWithCommitFor, bind, EStateM.bind, currentWorktreeUserChangePaths_eq,
    currentStagedChangePaths_eq, hinspects, hlists, hempty, if_true, Bool.false_eq_true, if_false,
    attempt]
  cases stageAndCommit git course repo <;> rfl

/-- **After a failure** the rollback has reset some paths, and left the others as they were. -/
theorem preserve_of_left (h : Begins git course repo) (hleft : leftByFailure git course repo = some now) :
    ∃ error repo', preserveWorktreeWithCommitFor git course repo = .error error repo' ∧
      repo'.worktree = repo.worktree ∧
      (∀ path, RolledBack git course repo now path → repo'.index path = now.head path) ∧
      (∀ path, ¬ RolledBack git course repo now path → repo'.index path = now.index path) := by
  obtain ⟨error, hrun⟩ := (stageAndCommit_run git course repo).1 now hleft
  obtain ⟨repo', hback, hworktree, hreset, hkept⟩ := rollback_run git course repo now
  refine ⟨error, repo', ?_, hworktree.trans (head_of_leftByFailure hleft).1, hreset, hkept⟩
  rw [preserve_of_begins h, hrun]
  simp only [bind, EStateM.bind, hback]
  rfl

theorem index_eq_iff_recovers {repo' : Repo Blob} (hhead : now.head = repo.head ∨ git.stagedNames now = [])
    (hreset : ∀ path, RolledBack git course repo now path → repo'.index path = now.head path)
    (hkept : ∀ path, ¬ RolledBack git course repo now path → repo'.index path = now.index path) :
    repo'.index = repo.index ↔ Recovers git course repo now := by
  have hback : ∀ path, RolledBack git course repo now path → repo'.index path = repo.head path := by
    intro path hback
    rw [hreset path hback]
    refine congrFun (hhead.resolve_right fun hnone => ?_) path
    obtain ⟨-, -, name, hname, -⟩ := hback
    rw [hnone] at hname
    cases hname
  constructor
  · intro hindex
    refine ⟨fun path hstaged => ?_, fun path _ => ?_⟩
    · have hnot : ¬ RolledBack git course repo now path := fun h =>
        hstaged ((congrFun hindex path).symm.trans (hback path h))
      exact ⟨(hkept path hnot).symm.trans (congrFun hindex path), hnot⟩
    · by_cases h : RolledBack git course repo now path
      · exact .inr h
      · exact .inl ((hkept path h).symm.trans (congrFun hindex path))
  · intro hrecovers
    funext path
    by_cases hstaged : repo.Staged path
    · obtain ⟨hsame, hnot⟩ := hrecovers.staged path hstaged
      rw [hkept path hnot, hsame]
    · have hclean : repo.index path = repo.head path := not_not.mp hstaged
      by_cases h : RolledBack git course repo now path
      · rw [hback path h, hclean]
      · rw [hkept path h, (hrecovers.others path hstaged).resolve_right h]

theorem changeCode_eq_blank_iff {old new : Option Blob} : changeCode old new = ' ' ↔ old = new := by
  unfold changeCode
  split
  · exact iff_of_true rfl ‹_›
  · rename_i hne
    refine iff_of_false ?_ hne
    split <;> decide

/-- Of an ignored file that is not in the index only the deletion is listed. -/
theorem changed_iff_of_ignored {path : Path} (hindex : repo.index path = none)
    (hignored : repo.ignored path = true) : git.Changed repo path ↔ repo.head path ≠ none := by
  have hlines : git.statusLines repo path =
      if repo.head path = none then []
      else [[changeCode (repo.head path) none, ' ', ' '] ++ git.shownInStatus path] := by
    simp [Git.statusLines, hindex, hignored, changeCode_eq_blank_iff]
  rw [Git.Changed, hlines]
  split <;> simp [*]

/-- What is committed is what is in the files, apart from deletions of files that are kept. -/
theorem saved_iff (git : Git Blob) (repo : Repo Blob) :
    (∀ path, git.Changed repo path → git.managed path = false →
      (repo.addAll.reset git.managed).index path = repo.worktree path) ↔ NoneKept git repo := by
  have hindex : ∀ path, git.managed path = false → (repo.addAll.reset git.managed).index path =
      if repo.index path = none ∧ repo.ignored path = true then none else repo.worktree path := by
    intro path hmanaged
    simp [Repo.reset, Repo.addAll, hmanaged]
  constructor
  · intro hsaved path hmanaged hnone hignored hhead
    rw [← hsaved path ((changed_iff_of_ignored hnone hignored).mpr hhead) hmanaged,
      hindex path hmanaged, if_pos ⟨hnone, hignored⟩]
  · intro hkept path hchanged hmanaged
    rw [hindex path hmanaged]
    split
    · rename_i hdropped
      exact (hkept path hmanaged hdropped.1 hdropped.2
        ((changed_iff_of_ignored hdropped.1 hdropped.2).mp hchanged)).symm
    · rfl

end

/-- **The index is left alone** by a failure, and a success saves the files, exactly if the rollback
makes up for what was staged, and no deletion that is staged is one of a file that was kept. -/
theorem leavesIndexAlone_iff (git : Git Blob) (course : Course) (repo : Repo Blob) :
    LeavesIndexAlone git course repo ↔ Harmless git course repo := by
  by_cases hbegins : Begins git course repo
  · cases hleft : leftByFailure git course repo with
    | some now =>
      obtain ⟨error, repo', hrun, hworktree, hreset, hkept⟩ := preserve_of_left hbegins hleft
      have hrecovers := index_eq_iff_recovers (head_of_leftByFailure hleft).2 hreset hkept
      constructor
      · intro hleaves
        refine ⟨fun _ now' hnow => ?_, fun _ hnone => ?_⟩
        · cases hleft.symm.trans hnow
          exact hrecovers.mp (hleaves.failed _ _ hrun).1
        · cases hleft.symm.trans hnone
      · intro hharmless
        refine ⟨fun error' repo'' hrun' => ?_, fun repo'' hrun' => ?_⟩
        · cases hrun.symm.trans hrun'
          exact ⟨hrecovers.mpr (hharmless.failed hbegins now hleft), hworktree⟩
        · cases hrun.symm.trans hrun'
    | none =>
      have hrun := preserve_of_begins hbegins
      rw [(stageAndCommit_run git course repo).2 hleft] at hrun
      by_cases hempty : git.stagedNames (repo.addAll.reset git.managed) = []
      · rw [if_pos hempty] at hrun
        refine iff_of_true ⟨fun _ _ hrun' => ?_, fun _ hrun' => ?_⟩
          ⟨fun _ _ hnow => ?_, fun _ _ hne => absurd hempty hne⟩
        · cases hrun.symm.trans hrun'
        · cases hrun.symm.trans hrun'
        · cases hleft.symm.trans hnow
      · rw [if_neg hempty] at hrun
        constructor
        · intro hleaves
          refine ⟨fun _ _ hnow => (nomatch hleft.symm.trans hnow), fun _ _ _ => ?_⟩
          exact (saved_iff git repo).mp (hleaves.saved _ hrun)
        · intro hharmless
          refine ⟨fun _ _ hrun' => (nomatch hrun.symm.trans hrun'), fun repo' hrun' => ?_⟩
          cases hrun.symm.trans hrun'
          exact (saved_iff git repo).mpr (hharmless.saved hbegins hleft hempty)
  · refine iff_of_true ⟨fun error' repo' hrun' => ?_, fun repo' hrun' => ?_⟩
      ⟨fun h => absurd h hbegins, fun h => absurd h hbegins⟩
    · rcases preserve_of_not_begins hbegins with ⟨error, hrun⟩ | hrun
      · cases hrun.symm.trans hrun'
        exact ⟨rfl, rfl⟩
      · cases hrun.symm.trans hrun'
    · rcases preserve_of_not_begins hbegins with ⟨error, hrun⟩ | hrun
      · cases hrun.symm.trans hrun'
      · cases hrun.symm.trans hrun'

/-- A file is staged, and changed once more. -/
def changedTwice : Repo Nat where
  paths := ["a.rs".toList]
  head := fun path => if path = "a.rs".toList then some 0 else none
  index := fun path => if path = "a.rs".toList then some 1 else none
  worktree := fun path => if path = "a.rs".toList then some 2 else none
  ignored := fun _ => false
  complete := fun path hpath => by
    have hne : path ≠ "a.rs".toList := fun h => hpath (h ▸ List.mem_cons_self)
    rw [if_neg hne, if_neg hne, if_neg hne]
    exact ⟨rfl, rfl, rfl⟩

def literalNames : Git Nat where
  shown := id
  shownInStatus := id
  moved := fun _ _ _ => false
  selects := fun name path => name = path || (name ++ ['/']).isPrefixOf path

def commitFails : Course where
  inspects := true
  lists := true
  adds := .succeeds
  unstages := .succeeds
  relists := true
  commits := .fails
  rollbackLists := true
  rollsBack := .succeeds

/-- What was staged is gone from the index. -/
theorem not_leavesIndexAlone : ¬ ∀ (git : Git Nat) course repo, LeavesIndexAlone git course repo := by
  intro h
  obtain ⟨error, repo', hrun, hentry⟩ : ∃ error repo',
      preserveWorktreeWithCommitFor literalNames commitFails changedTwice = .error error repo' ∧
        repo'.index "a.rs".toList = some 2 := ⟨_, _, rfl, by decide +kernel⟩
  have hindex := (h literalNames commitFails changedTwice).failed error repo' hrun
  rw [hindex.1] at hentry
  revert hentry
  decide +kernel

end Preservation

end Batty
