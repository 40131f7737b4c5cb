import Batty.Foundation.Text
import Batty.Foundation.Words

/-!
# Conflicts and other failures of git

A git command that fails is tried again if its failure is taken for one that passes: if what it
writes to stderr mentions a lock, a time-out, or a connection or resource that was not to be had.
Git also quotes there the subjects of commits and the paths of files. A conflict in a commit that
updates `Cargo.lock` is therefore taken for a failure that passes, and the rebase is started again
in the middle of itself (`not_stopsAtConflict`). A conflict is returned as what it is, at once,
if and only if none of the names it quotes mentions one of the phrases (`conflictsKept_iff`).
-/

namespace Batty

namespace GitErrors

open Text

/-! ### Errors -/

/-- `std::io::ErrorKind`, of which only these matter. -/
inductive ErrorKind where
  | notFound
  | timedOut
  | interrupted
  | wouldBlock
  | other
deriving DecidableEq

/-- Why a git command failed. -/
inductive GitError where
  | transient (message stderr : String)
  | permanent (message stderr : String)
  | rebaseFailed (branch stderr : String)
  | mergeFailed (branch stderr : String)
  | revParseFailed (spec stderr : String)
  | invalidRevListCount (range output : String)
  | exec (command : String) (source : ErrorKind)
deriving DecidableEq

/-- Whether an error is safe to retry. -/
class Retryable (ε : Type) where
  isTransient : ε → Bool

def GitError.isTransient : GitError → Bool
  | .transient _ _ => true
  | .exec _ source =>
    source = .notFound || source = .timedOut || source = .interrupted || source = .wouldBlock
  | _ => false

instance : Retryable GitError := ⟨GitError.isTransient⟩

/-- What a git command printed. -/
structure GitOutput where
  stdout : String
  stderr : String
deriving DecidableEq

def transientPhrases : List String :=
  ["lock", "index.lock", "unable to create", "connection refused", "timeout", "could not read",
    "resource temporarily unavailable"]

/-- Whether a text mentions what marks a failure that passes. -/
def mentionsPhrase (text : List Char) : Bool :=
  transientPhrases.any fun phrase => phrase.toList <:+: toAsciiLowercase text

def classifyError (stderr : String) : GitError :=
  let message := String.ofList (trim stderr.toList)
  if mentionsPhrase stderr.toList then .transient message stderr else .permanent message stderr

def formatGitCommand (repoDir : String) (args : List String) : String :=
  " ".intercalate (["git", "-C", repoDir] ++ args)

/-! ### What git writes -/

/-- Git's own text around what it quotes: it mentions none of the phrases, and none reaches over its
ends. -/
def IsFixed (text : List Char) : Prop :=
  ∀ phrase ∈ transientPhrases, Apart phrase.toList (toAsciiLowercase text)

instance (text : List Char) : Decidable (IsFixed text) :=
  inferInstanceAs (Decidable (∀ phrase ∈ transientPhrases, _))

/-- What git quotes: the abbreviated id of a commit, or a subject, a path or a branch. -/
inductive Quoted where
  | commit (id : List (Fin 16))
  | name (text : String)

def Quoted.chars : Quoted → List Char
  | .commit id => id.map fun digit => digit.val.digitChar
  | .name text => text.toList

/-- What git quotes, and its own text after that. -/
structure Passage where
  quoted : Quoted
  text : String
  isFixed : IsFixed text.toList

def Passage.chars (passage : Passage) : List Char := passage.quoted.chars ++ passage.text.toList

/-- What git writes to stderr when it stops because of a conflict. The `lead` begins a line. -/
structure ConflictReport where
  lead : String
  passages : List Passage
  isFixed : IsFixed ('\n' :: lead.toList)

namespace ConflictReport

def stderr (report : ConflictReport) : String :=
  String.ofList (report.lead.toList ++ report.passages.flatMap Passage.chars)

/-- The subjects, paths and branches in a report. -/
def names (report : ConflictReport) : List String :=
  report.passages.filterMap fun passage => match passage.quoted with
    | .commit _ => none
    | .name text => some text

end ConflictReport

/-- What comes of a git command. -/
inductive GitRun where
  | done (output : GitOutput)
  | unstarted (source : ErrorKind)
  /-- A lock or a connection could not be had. -/
  | denied (stderr : String)
  | conflicted (report : ConflictReport)
  /-- Any other failure. -/
  | failed (stderr : String)

/-- Whether it failed to start, or to obtain a lock or a connection. -/
def GitRun.Blocked : GitRun → Prop
  | .unstarted _ | .denied _ => True
  | _ => False

def runGit (repoDir : String) (args : List String) : GitRun → Except GitError GitOutput
  | .done output => .ok output
  | .unstarted source => .error (.exec (formatGitCommand repoDir args) source)
  | .denied stderr | .failed stderr => .error (classifyError stderr)
  | .conflicted report => .error (classifyError report.stderr)

/-- A permanent error under another name. -/
def GitError.named (name : String → GitError) : GitError → GitError
  | .permanent _ stderr => name stderr
  | error => error

/-- A command whose permanent errors go by another name. -/
def runNamed (failure : String → GitError) (repo : String) (args : List String) (run : GitRun) :
    Except GitError Unit :=
  ((runGit repo args run).map fun _ => ()).mapError (GitError.named failure)

namespace GitCmd

def rebase (repo onto : String) : GitRun → Except GitError Unit :=
  runNamed (.rebaseFailed onto) repo ["rebase", onto]

def merge (repo branch : String) : GitRun → Except GitError Unit :=
  runNamed (.mergeFailed branch) repo ["merge", branch, "--no-edit"]

end GitCmd

/-! ### Retries -/

/-- How often a command is repeated, and after which waits. -/
structure RetryConfig where
  maxRetries : Nat
  baseDelayMs : Nat
  maxDelayMs : Nat
  jitter : Bool

def RetryConfig.default : RetryConfig := ⟨3, 100, 5000, true⟩

def RetryConfig.fast : RetryConfig := ⟨2, 50, 500, true⟩

/-- The result of an operation that was retried, and how many times it was attempted. -/
structure Retried (ε α : Type) where
  result : Except ε α
  attempts : Nat
deriving DecidableEq

section

variable {ε α : Type} [Retryable ε]

/-- The attempts from `attempt` on, with so many retries left. The waits between them are left out:
what an attempt comes to is open. -/
def retryFrom (operation : Nat → Except ε α) (attempt : Nat) : Nat → Retried ε α
  | 0 => ⟨operation attempt, attempt + 1⟩
  | retries + 1 => match operation attempt with
    | .ok value => ⟨.ok value, attempt + 1⟩
    | .error error =>
      if !Retryable.isTransient error then ⟨.error error, attempt + 1⟩
      else retryFrom operation (attempt + 1) retries

def retrySync (config : RetryConfig) (operation : Nat → Except ε α) : Retried ε α :=
  retryFrom operation 0 config.maxRetries

end

/-! ### What is claimed -/

/-- The outcomes of the attempts, the first of which stops because of a conflict. -/
def stopped (report : ConflictReport) (later : Nat → GitRun) : Nat → GitRun
  | 0 => .conflicted report
  | attempt + 1 => later attempt

/-- A conflict is returned as the failure it is, and nothing is attempted after it. -/
def StopsAtConflict (git : GitRun → Except GitError Unit) (failure : String → GitError)
    (config : RetryConfig) (report : ConflictReport) (later : Nat → GitRun) : Prop :=
  git (.conflicted report) = .error (failure report.stderr) ∧
    (retrySync config fun attempt => git (stopped report later attempt)) =
      ⟨.error (failure report.stderr), 1⟩

/-- After an attempt there is another one only if it failed to start, or to obtain a lock or a
connection. -/
def RetriesOnlyBlocked (git : GitRun → Except GitError Unit) (config : RetryConfig)
    (runs : Nat → GitRun) : Prop :=
  ∀ n, n + 1 < (retrySync config fun attempt => git (runs attempt)).attempts → (runs n).Blocked

/-- No name in the report mentions one of the phrases. -/
def ConflictReport.Harmless (report : ConflictReport) : Prop :=
  ∀ name ∈ report.names, mentionsPhrase name.toList = false

/-- Whether it failed and is taken for a failure that passes. -/
def GitRun.transient : GitRun → Bool
  | .done _ => false
  | .unstarted source => (GitError.exec "" source).isTransient
  | .denied stderr | .failed stderr => mentionsPhrase stderr.toList
  | .conflicted report => report.names.any fun name => mentionsPhrase name.toList

/-! ### Reports -/

theorem mentionsPhrase_iff {text : List Char} : mentionsPhrase text = true ↔
    ∃ phrase ∈ transientPhrases, phrase.toList <:+: toAsciiLowercase text := by
  simp [mentionsPhrase]

theorem not_mentionsPhrase_nil : mentionsPhrase [] = false := by decide

/-- Each phrase has a letter that is no hexadecimal digit. -/
theorem not_mentionsPhrase_commit (id : List (Fin 16)) :
    mentionsPhrase (Quoted.commit id).chars = false := by
  rw [Bool.eq_false_iff, Ne, mentionsPhrase_iff]
  rintro ⟨phrase, hphrase, hfound⟩
  have hdigits : ∀ digit : Fin 16, digit.val.digitChar.toLower ≠ 'o' ∧
      digit.val.digitChar.toLower ≠ 't' := by decide
  have hletter : ∀ phrase ∈ transientPhrases, 'o' ∈ phrase.toList ∨ 't' ∈ phrase.toList := by decide
  have hmem : ∀ c ∈ phrase.toList, c ≠ 'o' ∧ c ≠ 't' := by
    intro c hc
    have hid := hfound.subset hc
    simp only [Quoted.chars, toAsciiLowercase, List.map_map, List.mem_map] at hid
    obtain ⟨digit, -, rfl⟩ := hid
    exact hdigits digit
  rcases hletter phrase hphrase with h | h
  · exact (hmem _ h).1 rfl
  · exact (hmem _ h).2 rfl

/-- What git says itself mentions no phrase, and cuts none off. -/
theorem mentionsPhrase_append_fixed {fixed : List Char} (hfixed : IsFixed fixed)
    (before after : List Char) : mentionsPhrase (before ++ (fixed ++ after)) =
      (mentionsPhrase before || mentionsPhrase after) := by
  have hside : ∀ phrase ∈ transientPhrases,
      (phrase.toList <:+: toAsciiLowercase (before ++ (fixed ++ after)) ↔
        phrase.toList <:+: toAsciiLowercase before ∨ phrase.toList <:+: toAsciiLowercase after) := by
    intro phrase hphrase
    have hapart := hfixed phrase hphrase
    simp only [toAsciiLowercase, List.map_append] at hapart ⊢
    exact hapart.infix_append_iff
  rw [Bool.eq_iff_iff, Bool.or_eq_true]
  simp only [mentionsPhrase_iff]
  constructor
  · rintro ⟨phrase, hphrase, hfound⟩
    rcases (hside phrase hphrase).mp hfound with h | h
    · exact .inl ⟨phrase, hphrase, h⟩
    · exact .inr ⟨phrase, hphrase, h⟩
  · rintro (⟨phrase, hphrase, h⟩ | ⟨phrase, hphrase, h⟩)
    · exact ⟨phrase, hphrase, (hside phrase hphrase).mpr (.inl h)⟩
    · exact ⟨phrase, hphrase, (hside phrase hphrase).mpr (.inr h)⟩

/-- No phrase begins with a line feed. -/
theorem mentionsPhrase_newline (text : List Char) :
    mentionsPhrase ('\n' :: text) = mentionsPhrase text := by
  have hphrases : ∀ phrase ∈ transientPhrases,
      '\n' ∉ phrase.toList.head? ∧ phrase.toList ≠ [] := by decide
  rw [Bool.eq_iff_iff]
  simp only [mentionsPhrase_iff]
  refine exists_congr fun phrase => and_congr_right fun hphrase => ⟨fun hfound => ?_, fun hfound => ?_⟩
  · exact infix_of_infix_cons (hphrases phrase hphrase).1 (hphrases phrase hphrase).2 hfound
  · exact hfound.trans (List.suffix_cons _ _).isInfix

theorem mentionsPhrase_passages (passages : List Passage) :
    mentionsPhrase (passages.flatMap Passage.chars) =
      passages.any fun passage => mentionsPhrase passage.quoted.chars := by
  induction passages with
  | nil => exact not_mentionsPhrase_nil
  | cons passage passages ih =>
    rw [List.flatMap_cons, Passage.chars, List.append_assoc,
      mentionsPhrase_append_fixed passage.isFixed, ih, List.any_cons]

/-- **What a report mentions** is mentioned in a name. -/
theorem mentionsPhrase_report (report : ConflictReport) :
    mentionsPhrase report.stderr.toList =
      report.names.any fun name => mentionsPhrase name.toList := by
  have hlead := mentionsPhrase_append_fixed report.isFixed [] (report.passages.flatMap Passage.chars)
  rw [List.nil_append, List.cons_append, mentionsPhrase_newline, not_mentionsPhrase_nil,
    Bool.false_or, mentionsPhrase_passages] at hlead
  rw [ConflictReport.stderr, String.toList_ofList, hlead, ConflictReport.names, List.any_filterMap]
  congr 1
  funext ⟨quoted, text, isFixed⟩
  cases quoted with
  | commit id => exact not_mentionsPhrase_commit id
  | name text => rfl

theorem isTransient_classifyError (stderr : String) :
    (classifyError stderr).isTransient = mentionsPhrase stderr.toList := by
  rw [classifyError]
  cases mentionsPhrase stderr.toList <;> rfl

theorem named_classifyError (failure : String → GitError) (stderr : String) :
    (classifyError stderr).named failure =
      if mentionsPhrase stderr.toList then classifyError stderr else failure stderr := by
  rw [classifyError]
  cases mentionsPhrase stderr.toList <;> rfl

/-! ### Commands -/

section

variable {failure : String → GitError} {repo : String} {args : List String}

/-- What a failed command comes to. -/
theorem runNamed_failed {run : GitRun} {stderr : String}
    (hrun : runGit repo args run = .error (classifyError stderr)) :
    runNamed failure repo args run =
      .error (if mentionsPhrase stderr.toList then classifyError stderr else failure stderr) := by
  rw [runNamed, hrun, ← named_classifyError]
  rfl

/-- Whether an attempt is followed by another one. -/
def Passes (outcome : Except GitError Unit) : Prop :=
  ∃ error, outcome = .error error ∧ error.isTransient = true

theorem passes_named_iff (hfailure : ∀ stderr, (failure stderr).isTransient = false)
    (stderr : String) :
    Passes (.error (if mentionsPhrase stderr.toList then classifyError stderr else failure stderr)) ↔
      mentionsPhrase stderr.toList = true := by
  have hclass := isTransient_classifyError stderr
  cases hmentions : mentionsPhrase stderr.toList with
  | false => simp [Passes, hfailure]
  | true => simp [Passes, hclass, hmentions]

/-- **Which attempts are repeated.** -/
theorem passes_runNamed_iff (hfailure : ∀ stderr, (failure stderr).isTransient = false)
    (run : GitRun) : Passes (runNamed failure repo args run) ↔ run.transient = true := by
  cases run with
  | done output => simp [Passes, runNamed, runGit, Except.map, Except.mapError, GitRun.transient]
  | unstarted source =>
    simp [Passes, runNamed, runGit, Except.map, Except.mapError, GitRun.transient, GitError.named,
      GitError.isTransient]
  | denied stderr =>
    rw [runNamed_failed rfl, passes_named_iff hfailure]
    rfl
  | conflicted report =>
    rw [runNamed_failed rfl, passes_named_iff hfailure, mentionsPhrase_report]
    rfl
  | failed stderr =>
    rw [runNamed_failed rfl, passes_named_iff hfailure]
    rfl

theorem runNamed_conflicted_iff (hfailure : ∀ stderr, (failure stderr).isTransient = false)
    (report : ConflictReport) :
    runNamed failure repo args (.conflicted report) = .error (failure report.stderr) ↔
      report.Harmless := by
  have hharmless : report.Harmless ↔ mentionsPhrase report.stderr.toList = false := by
    rw [mentionsPhrase_report, List.any_eq_false]
    simp [ConflictReport.Harmless]
  rw [runNamed_failed rfl, hharmless]
  cases hmentions : mentionsPhrase report.stderr.toList with
  | false => simp
  | true =>
    simp only [if_true, Bool.true_eq_false, iff_false, Except.error.injEq]
    intro heq
    have hclass := isTransient_classifyError report.stderr
    rw [heq, hfailure, hmentions] at hclass
    exact Bool.false_ne_true hclass

end

/-! ### Retries -/

section

variable {operation : Nat → Except GitError Unit}

/-- An attempt that is not repeated is the last one. -/
theorem retryFrom_of_not_passes {attempt : Nat} (h : ¬ Passes (operation attempt)) (retries : Nat) :
    retryFrom operation attempt retries = ⟨operation attempt, attempt + 1⟩ := by
  cases retries with
  | zero => rfl
  | succ retries =>
    rw [retryFrom]
    cases hresult : operation attempt with
    | ok value => rfl
    | error error =>
      have hpermanent : Retryable.isTransient error = false := by
        rw [Bool.eq_false_iff]
        exact fun htransient => h ⟨error, hresult, htransient⟩
      simp [hpermanent]

theorem retryFrom_of_passes {attempt : Nat} (h : Passes (operation attempt)) (retries : Nat) :
    retryFrom operation attempt (retries + 1) = retryFrom operation (attempt + 1) retries := by
  obtain ⟨error, hresult, htransient⟩ := h
  have hagain : Retryable.isTransient error = true := htransient
  rw [retryFrom, hresult]
  simp [hagain]

theorem lt_attempts_retryFrom (attempt retries : Nat) :
    attempt < (retryFrom operation attempt retries).attempts := by
  induction retries generalizing attempt with
  | zero => exact Nat.lt_succ_self attempt
  | succ retries ih =>
    by_cases hpasses : Passes (operation attempt)
    · rw [retryFrom_of_passes hpasses]
      exact Nat.lt_of_succ_lt (ih (attempt + 1))
    · rw [retryFrom_of_not_passes hpasses]
      exact Nat.lt_succ_self attempt

/-- **How far the attempts go**: on and on while they fail in passing, for so many retries. -/
theorem lt_attempts_retryFrom_iff (attempt retries n : Nat) :
    attempt + n + 1 < (retryFrom operation attempt retries).attempts ↔
      n < retries ∧ ∀ m ≤ n, Passes (operation (attempt + m)) := by
  induction retries generalizing attempt n with
  | zero =>
    have hone : (retryFrom operation attempt 0).attempts = attempt + 1 := rfl
    rw [hone]
    exact iff_of_false (by omega) fun h => absurd h.1 (Nat.not_lt_zero n)
  | succ retries ih =>
    by_cases hpasses : Passes (operation attempt)
    · rw [retryFrom_of_passes hpasses]
      cases n with
      | zero =>
        refine iff_of_true (lt_attempts_retryFrom _ _) ⟨Nat.succ_pos _, fun m hm => ?_⟩
        rw [Nat.le_zero.mp hm]
        exact hpasses
      | succ n =>
        rw [show attempt + (n + 1) + 1 = attempt + 1 + n + 1 by omega, ih]
        refine and_congr (by omega) ⟨fun h m hm => ?_, fun h m hm => ?_⟩
        · cases m with
          | zero => exact hpasses
          | succ m =>
            rw [show attempt + (m + 1) = attempt + 1 + m by omega]
            exact h m (by omega)
        · rw [show attempt + 1 + m = attempt + (m + 1) by omega]
          exact h (m + 1) (by omega)
    · have hone : (retryFrom operation attempt (retries + 1)).attempts = attempt + 1 := by
        rw [retryFrom_of_not_passes hpasses]
      rw [hone]
      exact iff_of_false (by omega) fun h => hpasses (h.2 0 (Nat.zero_le n))

end

section

variable {failure : String → GitError} {repo : String} {args : List String}

theorem stopsAtConflict_iff (hfailure : ∀ stderr, (failure stderr).isTransient = false)
    (config : RetryConfig) (report : ConflictReport) (later : Nat → GitRun) :
    StopsAtConflict (runNamed failure repo args) failure config report later ↔
      report.Harmless := by
  have hresult_iff : runNamed failure repo args (.conflicted report) =
      .error (failure report.stderr) ↔ report.Harmless := runNamed_conflicted_iff hfailure report
  have hlast : ¬ Passes (.error (failure report.stderr)) := by
    rintro ⟨error, heq, htransient⟩
    cases heq
    rw [hfailure] at htransient
    exact Bool.false_ne_true htransient
  rw [StopsAtConflict, ← hresult_iff]
  refine and_iff_left_of_imp fun hresult => ?_
  let operation attempt := runNamed failure repo args (stopped report later attempt)
  have hfirst : operation 0 = .error (failure report.stderr) := hresult
  have honce : ¬ Passes (operation 0) := hfirst ▸ hlast
  exact (retryFrom_of_not_passes honce config.maxRetries).trans (by rw [hfirst])

theorem retriesOnlyBlocked_iff (hfailure : ∀ stderr, (failure stderr).isTransient = false)
    (config : RetryConfig) (runs : Nat → GitRun) :
    RetriesOnlyBlocked (runNamed failure repo args) config runs ↔
      ∀ n < config.maxRetries, (∀ m ≤ n, (runs m).transient = true) → (runs n).Blocked := by
  refine forall_congr' fun n => ?_
  have hattempts : 0 + n + 1 < (retrySync config fun attempt =>
        runNamed failure repo args (runs attempt)).attempts ↔
      n < config.maxRetries ∧ ∀ m ≤ n, Passes (runNamed failure repo args (runs (0 + m))) :=
    lt_attempts_retryFrom_iff 0 config.maxRetries n
  simp only [Nat.zero_add, passes_runNamed_iff hfailure] at hattempts
  rw [hattempts, and_imp]

end

/-- **Conflicts are never mistaken for failures that pass**, and nothing else is, if and only if the
names a conflict quotes mention none of the phrases, and no failure that is reached by retries and
mentions one is of another kind. -/
theorem conflictsKept_iff (config : RetryConfig) (repo target : String) (report : ConflictReport)
    (later runs : Nat → GitRun) :
    (StopsAtConflict (GitCmd.rebase repo target) (.rebaseFailed target) config report later ↔
      report.Harmless) ∧
    (StopsAtConflict (GitCmd.merge repo target) (.mergeFailed target) config report later ↔
      report.Harmless) ∧
    (RetriesOnlyBlocked (GitCmd.rebase repo target) config runs ↔
      ∀ n < config.maxRetries, (∀ m ≤ n, (runs m).transient = true) → (runs n).Blocked) ∧
    (RetriesOnlyBlocked (GitCmd.merge repo target) config runs ↔
      ∀ n < config.maxRetries, (∀ m ≤ n, (runs m).transient = true) → (runs n).Blocked) :=
  ⟨stopsAtConflict_iff (fun _ => rfl) config report later,
    stopsAtConflict_iff (fun _ => rfl) config report later,
    retriesOnlyBlocked_iff (fun _ => rfl) config runs,
    retriesOnlyBlocked_iff (fun _ => rfl) config runs⟩

/-! ### A lock file -/

/-- A rebase stops at a commit that updates `Cargo.lock`. -/
def lockReport : ConflictReport where
  lead := "error: could not apply "
  passages := [⟨.commit [3, 15, 2, 10, 1, 11, 0], "... ", by decide +kernel⟩,
    ⟨.name "Update Cargo.lock", "\nhint: Resolve all conflicts manually", by decide +kernel⟩]
  isFixed := by decide +kernel

/-- The rebase is started again, and fails for another reason. -/
theorem not_stopsAtConflict : ¬ ∀ config repo onto report later,
    StopsAtConflict (GitCmd.rebase repo onto) (.rebaseFailed onto) config report later := by
  intro h
  have hstops := (h .fast "." "main" lockReport
    fun _ => .failed "fatal: It seems that there is already a rebase-merge directory").2
  have hattempts := congrArg Retried.attempts hstops
  revert hattempts
  decide +kernel

end GitErrors

end Batty
