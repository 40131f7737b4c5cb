import Batty.Config.Hierarchy
import Batty.Delivery.Assign
import Mathlib.Data.List.Dedup
import Mathlib.Data.List.Sort
import Mathlib.Data.List.TakeWhile

/-!
# References to tasks

Before a finished task goes to review, the branch and the commit messages are searched for the
ids of other tasks: for `#7`, for `task-7`, and for a number at the start or behind a slash, as
branches have it.

The branch of a task refers to it, and to no other one unless the engineer's own name does. In
messages, though, the last pattern finds dates, fractions and the numbers of directories too, and
takes them for tasks (`not_accusesOnlyMismatches`). `accusesOnlyMismatches_iff` says for which names
and messages the accusations are right.
-/

namespace Batty

/-- The branch is named after the task's id, or after `slug`, which is new each time. -/
def Worktree.engineerTaskBranchName (engineer task : String) (taskId : Option Nat)
    (slug : String) : String :=
  engineer ++ "/" ++ ((effectiveTaskId taskId task).map toString).getD slug

namespace TaskReferences

open Text

/-! ### Searching -/

/-- What the search patterns count as digits, and as signs of a word. -/
structure CharClasses where
  isDigit : Char → Bool
  isWord : Char → Bool
  isWord_of_isDigit : ∀ c, isDigit c = true → isWord c = true
  isDigit_ascii : ∀ c, c.toNat < 128 → isDigit c = c.isDigit
  isWord_ascii : ∀ c, c.toNat < 128 → isWord c = (c.isAlphanum || c = '_')

/-- What a pattern captures, at each place where it stands. It goes by the sign in front, too. -/
def captures (matchAt : Option Char → List Char → Option (List Char)) :
    Option Char → List Char → List (List Char)
  | front, [] => (matchAt front []).toList
  | front, c :: rest => (matchAt front (c :: rest)).toList ++ captures matchAt (some c) rest

section

variable (classes : CharClasses)

/-- `(\d+)\b` -/
def numberAt (text : List Char) : Option (List Char) :=
  let digits := text.takeWhile classes.isDigit
  if digits = [] || (text.dropWhile classes.isDigit).head?.any classes.isWord then none
  else some digits

/-- The signs that are the same but for their case. -/
def taskLetters : List (List Char) :=
  [['t', 'T'], ['a', 'A'], ['s', 'S', '\u017f'], ['k', 'K', '\u212a']]

def isTaskWord (word : List Char) : Bool :=
  word.length = 4 && (word.zip taskLetters).all fun (c, letters) => c ∈ letters

def taskSeparators : List Char := ['-', '_', ' ', '/']

/-- A number behind a sign. -/
def numberBehind (sign : Char) : List Char → Option (List Char)
  | [] => none
  | c :: rest => if c = sign then numberAt classes rest else none

/-- `#(\d+)\b` -/
def hashAt (_front : Option Char) (text : List Char) : Option (List Char) :=
  numberBehind classes '#' text

/-- `[-_ /]?(\d+)\b` -/
def separatedAt : List Char → Option (List Char)
  | [] => none
  | c :: rest =>
    (if c ∈ taskSeparators then numberAt classes rest else none).or (numberAt classes (c :: rest))

/-- `(?i)\btask[-_ /]?(\d+)\b` -/
def taskAt (front : Option Char) (text : List Char) : Option (List Char) :=
  if front.any classes.isWord || !isTaskWord (text.take 4) then none
  else separatedAt classes (text.drop 4)

/-- `(?:^|/)(\d+)\b` -/
def suffixAt (front : Option Char) (text : List Char) : Option (List Char) :=
  (if front.isNone then numberAt classes text else none).or (numberBehind classes '/' text)

/-- In no match does another one begin. -/
def capturedNumbers (text : List Char) : List (List Char) :=
  captures (hashAt classes) none text ++ captures (taskAt classes) none text ++
    captures (suffixAt classes) none text

def extractTaskIds (text : String) : List Nat :=
  (((capturedNumbers classes text.toList).filterMap parseU32).insertionSort (· ≤ ·)).dedup

def formatTaskIdList (taskIds : List Nat) : String :=
  ", ".intercalate (taskIds.map fun taskId => s!"#{taskId}")

/-! ### Blockers -/

def branchBlocker (expectedTaskId : Nat) (branchName : String) : Option String :=
  let branchTaskIds := extractTaskIds classes branchName
  if !branchTaskIds.isEmpty && !branchTaskIds.contains expectedTaskId then
    some ("branch `" ++ branchName ++ "` references task(s) " ++ formatTaskIdList branchTaskIds ++
      s!" but assigned task is #{expectedTaskId}")
  else none

def commitBlocker (expectedTaskId : Nat) (commitMessages : List String) : Option String :=
  let commitTaskIds :=
    ((commitMessages.flatMap (extractTaskIds classes)).insertionSort (· ≤ ·)).dedup
  if !commitTaskIds.isEmpty && !commitTaskIds.contains expectedTaskId then
    some ("commit messages reference task(s) " ++ formatTaskIdList commitTaskIds ++
      s!" but assigned task is #{expectedTaskId}")
  else none

def taskReferenceMismatchBlockers (expectedTaskId : Nat) (branchName : String)
    (commitMessages : List String) : List String :=
  (branchBlocker classes expectedTaskId branchName).toList ++
    (commitBlocker classes expectedTaskId commitMessages).toList

/-! ### What refers to a task -/

/-- Digits in front of a text that does not go on with the word. -/
structure IsNumber (digits after : List Char) : Prop where
  nonempty : digits ≠ []
  digits : ∀ c ∈ digits, classes.isDigit c = true
  ends : after.head?.any classes.isWord = false

/-- A `#` and a number. -/
def HashReference (text digits : List Char) : Prop :=
  ∃ before after, text = before ++ '#' :: (digits ++ after) ∧ IsNumber classes digits after

/-- The word task, perhaps a separator, and a number. -/
def TaskReference (text digits : List Char) : Prop :=
  ∃ before word separator after, text = before ++ (word ++ (separator ++ (digits ++ after))) ∧
    before.getLast?.any classes.isWord = false ∧ isTaskWord word = true ∧
    (separator = [] ∨ ∃ c ∈ taskSeparators, separator = [c]) ∧ IsNumber classes digits after

/-- A number at the start or behind a slash. -/
def PathReference (text digits : List Char) : Prop :=
  ∃ before after, text = before ++ (digits ++ after) ∧
    (before = [] ∨ before.getLast? = some '/') ∧ IsNumber classes digits after

def ExplicitReference (text digits : List Char) : Prop :=
  HashReference classes text digits ∨ TaskReference classes text digits

end

/-! ### What is found -/

section

variable {classes : CharClasses} {text digits : List Char}

theorem getLast?_cons_or (c : Char) (before : List Char) (front : Option Char) :
    (c :: before).getLast?.or front = before.getLast?.or (some c) := by
  rw [List.getLast?_cons, Option.some_or]
  cases before.getLast? <;> rfl

theorem mem_captures_iff {matchAt : Option Char → List Char → Option (List Char)}
    {front : Option Char} : digits ∈ captures matchAt front text ↔
      ∃ before after, text = before ++ after ∧
        matchAt (before.getLast?.or front) after = some digits := by
  induction text generalizing front with
  | nil =>
    rw [captures, Option.mem_toList]
    constructor
    · exact fun h => ⟨[], [], rfl, h⟩
    · rintro ⟨before, after, heq, h⟩
      obtain ⟨rfl, rfl⟩ := List.append_eq_nil_iff.mp heq.symm
      exact h
  | cons c rest ih =>
    rw [captures, List.mem_append, Option.mem_toList, ih]
    constructor
    · rintro (h | ⟨before, after, rfl, h⟩)
      · exact ⟨[], c :: rest, rfl, h⟩
      · exact ⟨c :: before, after, rfl, by rw [getLast?_cons_or, h]⟩
    · rintro ⟨before, after, heq, h⟩
      cases before with
      | nil =>
        rw [List.nil_append] at heq
        exact .inl (heq ▸ h)
      | cons d before =>
        obtain ⟨rfl, rfl⟩ := List.cons.inj heq
        rw [getLast?_cons_or] at h
        exact .inr ⟨before, after, rfl, h⟩

theorem CharClasses.isDigit_of_ends (classes : CharClasses) {after : List Char}
    (h : after.head?.any classes.isWord = false) : after.head?.any classes.isDigit = false := by
  cases after with
  | nil => rfl
  | cons c after =>
    have hword : classes.isWord c = false := h
    refine Bool.eq_false_iff.mpr fun hdigit => ?_
    rw [classes.isWord_of_isDigit c hdigit] at hword
    exact Bool.false_ne_true hword.symm

theorem takeWhile_append_of_ends {p : Char → Bool} {front after : List Char}
    (hfront : ∀ c ∈ front, p c = true) (hafter : after.head?.any p = false) :
    (front ++ after).takeWhile p = front ∧ (front ++ after).dropWhile p = after := by
  have hnone : after.takeWhile p = [] ∧ after.dropWhile p = after := by
    cases after with
    | nil => exact ⟨rfl, rfl⟩
    | cons c after =>
      have hc : p c = false := hafter
      simp [hc]
  rw [List.takeWhile_append_of_pos hfront, List.dropWhile_append_of_pos hfront, hnone.1, hnone.2,
    List.append_nil]
  exact ⟨rfl, rfl⟩

theorem numberAt_eq_some_iff : numberAt classes text = some digits ↔
    ∃ after, text = digits ++ after ∧ IsNumber classes digits after := by
  constructor
  · intro h
    simp only [numberAt, Option.ite_none_left_eq_some, Bool.or_eq_true, decide_eq_true_eq,
      not_or, Option.some.injEq] at h
    obtain ⟨⟨hne, hends⟩, rfl⟩ := h
    exact ⟨text.dropWhile classes.isDigit, (List.takeWhile_append_dropWhile).symm,
      hne, fun c => List.mem_takeWhile_imp, Bool.eq_false_iff.mpr hends⟩
  · rintro ⟨after, rfl, hne, hdigits, hends⟩
    obtain ⟨htake, hdrop⟩ := takeWhile_append_of_ends hdigits (classes.isDigit_of_ends hends)
    rw [numberAt, htake, hdrop, hends]
    simp [hne]

/-- The number of a branch, and of any text with a slash after it. -/
theorem numberAt_append_slash (hslash : classes.isWord '/' = false) (rest : List Char) :
    numberAt classes (text ++ '/' :: rest) = numberAt classes text := by
  have hstop : ∀ after : List Char, (after ++ '/' :: rest).head?.any classes.isWord =
      after.head?.any classes.isWord := by
    intro after
    cases after with
    | nil => exact hslash
    | cons c after => rfl
  have hdigit : classes.isDigit '/' = false := by
    have hnone : ('/' :: rest).head?.any classes.isWord = false := hslash
    exact classes.isDigit_of_ends hnone
  have hboth : (text ++ '/' :: rest).takeWhile classes.isDigit = text.takeWhile classes.isDigit ∧
      (text ++ '/' :: rest).dropWhile classes.isDigit =
        text.dropWhile classes.isDigit ++ '/' :: rest := by
    induction text with
    | nil => simp [hdigit]
    | cons c text ih =>
      by_cases hc : classes.isDigit c = true
      · simpa [hc] using ih
      · simp [hc]
  rw [numberAt, hboth.1, hboth.2, hstop]
  rfl

theorem numberBehind_eq_some_iff {sign : Char} : numberBehind classes sign text = some digits ↔
    ∃ after, text = sign :: (digits ++ after) ∧ IsNumber classes digits after := by
  cases text with
  | nil => simp [numberBehind]
  | cons c rest =>
    rw [numberBehind, Option.ite_none_right_eq_some, numberAt_eq_some_iff]
    simp only [List.cons.injEq, and_assoc, exists_and_left]

theorem numberAt_cons_eq_none {c : Char} (hc : classes.isDigit c = false) :
    numberAt classes (c :: text) = none := by
  simp [numberAt, hc]

theorem suffixAt_eq_some_iff {front : Option Char} (hslash : classes.isDigit '/' = false) :
    suffixAt classes front text = some digits ↔
      ∃ after, (front = none ∧ text = digits ++ after ∨ text = '/' :: (digits ++ after)) ∧
        IsNumber classes digits after := by
  have hfront : (if front.isNone then numberAt classes text else none) = some digits ↔
      ∃ after, (front = none ∧ text = digits ++ after) ∧ IsNumber classes digits after := by
    rw [Option.ite_none_right_eq_some, Option.isNone_iff_eq_none, numberAt_eq_some_iff]
    simp only [and_assoc, exists_and_left]
  have hnone : (if front.isNone then numberAt classes text else none) = none ∨
      numberBehind classes '/' text = none := by
    cases text with
    | nil => exact .inr rfl
    | cons c rest =>
      by_cases hc : c = '/'
      · exact .inl (by rw [hc, numberAt_cons_eq_none hslash, ite_self])
      · exact .inr (by rw [numberBehind, if_neg hc])
  have hboth : suffixAt classes front text = some digits ↔
      (if front.isNone then numberAt classes text else none) = some digits ∨
        numberBehind classes '/' text = some digits := by
    rw [suffixAt]
    rcases hnone with h | h
    · rw [h, Option.none_or]
      simp only [reduceCtorEq, false_or]
    · rw [h, Option.or_none]
      simp only [reduceCtorEq, or_false]
  rw [hboth, hfront, numberBehind_eq_some_iff, ← exists_or]
  simp only [or_and_right]

/-- A separator is no digit, so that the number can only be behind it. -/
theorem separatedAt_eq_some_iff (hseparators : ∀ c ∈ taskSeparators, classes.isDigit c = false) :
    separatedAt classes text = some digits ↔ ∃ separator after,
      text = separator ++ (digits ++ after) ∧
        (separator = [] ∨ ∃ c ∈ taskSeparators, separator = [c]) ∧ IsNumber classes digits after := by
  constructor
  · intro h
    cases text with
    | nil => cases h
    | cons c rest =>
      rcases Option.or_eq_some_iff.mp h with h | ⟨-, h⟩
      · obtain ⟨hsep, h⟩ := Option.ite_none_right_eq_some.mp h
        obtain ⟨after, rfl, hnumber⟩ := numberAt_eq_some_iff.mp h
        exact ⟨[c], after, rfl, .inr ⟨c, hsep, rfl⟩, hnumber⟩
      · obtain ⟨after, heq, hnumber⟩ := numberAt_eq_some_iff.mp h
        exact ⟨[], after, heq, .inl rfl, hnumber⟩
  · rintro ⟨separator, after, rfl, hsep, hnumber⟩
    have hfound : numberAt classes (digits ++ after) = some digits :=
      numberAt_eq_some_iff.mpr ⟨after, rfl, hnumber⟩
    rcases hsep with rfl | ⟨c, hc, rfl⟩
    · obtain ⟨d, digits, rfl⟩ := List.exists_cons_of_ne_nil hnumber.nonempty
      have hd : d ∉ taskSeparators := fun hmem => by
        have hdigit := hnumber.digits d List.mem_cons_self
        rw [hseparators d hmem] at hdigit
        exact Bool.false_ne_true hdigit
      rw [List.nil_append, List.cons_append, separatedAt, if_neg hd, Option.none_or]
      exact hfound
    · rw [List.cons_append, List.nil_append, separatedAt, if_pos hc, hfound]
      rfl

theorem length_of_isTaskWord {word : List Char} (h : isTaskWord word = true) : word.length = 4 :=
  of_decide_eq_true (Bool.and_eq_true_iff.mp h).1

theorem taskAt_eq_some_iff_separatedAt {front : Option Char} :
    taskAt classes front text = some digits ↔ front.any classes.isWord = false ∧
      isTaskWord (text.take 4) = true ∧ separatedAt classes (text.drop 4) = some digits := by
  simp only [taskAt, Option.ite_none_left_eq_some, Bool.or_eq_true, Bool.not_eq_true', not_or,
    Bool.not_eq_true, Bool.not_eq_false, and_assoc]

theorem taskAt_eq_some_iff {front : Option Char}
    (hseparators : ∀ c ∈ taskSeparators, classes.isDigit c = false) :
    taskAt classes front text = some digits ↔
      front.any classes.isWord = false ∧ ∃ word separator after,
        text = word ++ (separator ++ (digits ++ after)) ∧ isTaskWord word = true ∧
          (separator = [] ∨ ∃ c ∈ taskSeparators, separator = [c]) ∧
            IsNumber classes digits after := by
  rw [taskAt_eq_some_iff_separatedAt, separatedAt_eq_some_iff hseparators]
  refine and_congr_right fun _ => ⟨?_, ?_⟩
  · rintro ⟨hword, separator, after, hdrop, hsep, hnumber⟩
    exact ⟨text.take 4, separator, after, by rw [← hdrop, List.take_append_drop], hword, hsep,
      hnumber⟩
  · rintro ⟨word, separator, after, rfl, hword, hsep, hnumber⟩
    rw [← length_of_isTaskWord hword, List.take_left, List.drop_left]
    exact ⟨hword, separator, after, rfl, hsep, hnumber⟩

theorem isDigit_signs (classes : CharClasses) :
    classes.isDigit '/' = false ∧ ∀ c ∈ taskSeparators, classes.isDigit c = false := by
  have hall : (taskSeparators.all fun c => decide (c.toNat < 128) && !c.isDigit) = true := by decide
  have hascii : ∀ c ∈ taskSeparators, c.toNat < 128 ∧ c.isDigit = false := by simpa using hall
  refine ⟨?_, fun c hc => ?_⟩
  · rw [classes.isDigit_ascii '/' (by decide)]
    rfl
  · rw [classes.isDigit_ascii c (hascii c hc).1, (hascii c hc).2]

theorem explicitReference_iff : ExplicitReference classes text digits ↔
    digits ∈ captures (hashAt classes) none text ++ captures (taskAt classes) none text := by
  simp only [List.mem_append, mem_captures_iff, Option.or_none, hashAt, numberBehind_eq_some_iff,
    taskAt_eq_some_iff (isDigit_signs classes).2]
  refine or_congr ?_ ?_
  · constructor
    · rintro ⟨before, after, rfl, hnumber⟩
      exact ⟨before, _, rfl, after, rfl, hnumber⟩
    · rintro ⟨before, _, rfl, after, rfl, hnumber⟩
      exact ⟨before, after, rfl, hnumber⟩
  · constructor
    · rintro ⟨before, word, separator, after, rfl, hfront, hword, hsep, hnumber⟩
      exact ⟨before, _, rfl, hfront, word, separator, after, rfl, hword, hsep, hnumber⟩
    · rintro ⟨before, _, rfl, hfront, word, separator, after, rfl, hword, hsep, hnumber⟩
      exact ⟨before, word, separator, after, rfl, hfront, hword, hsep, hnumber⟩

theorem pathReference_iff : PathReference classes text digits ↔
    digits ∈ captures (suffixAt classes) none text := by
  simp only [mem_captures_iff, Option.or_none, suffixAt_eq_some_iff (isDigit_signs classes).1]
  constructor
  · rintro ⟨before, after, rfl, rfl | hlast, hnumber⟩
    · exact ⟨[], _, rfl, after, .inl ⟨rfl, rfl⟩, hnumber⟩
    · obtain ⟨before, rfl⟩ := List.getLast?_eq_some_iff.mp hlast
      exact ⟨before, _, by rw [List.append_assoc]; rfl, after, .inr rfl, hnumber⟩
  · rintro ⟨before, _, rfl, after, ⟨hstart, rfl⟩ | rfl, hnumber⟩
    · exact ⟨before, after, rfl, .inl (List.getLast?_eq_none_iff.mp hstart), hnumber⟩
    · exact ⟨before ++ ['/'], after, by simp, .inr (by simp), hnumber⟩

/-- **What is captured** is what the text refers to. -/
theorem mem_capturedNumbers_iff : digits ∈ capturedNumbers classes text ↔
    ExplicitReference classes text digits ∨ PathReference classes text digits := by
  rw [capturedNumbers, List.mem_append, explicitReference_iff, pathReference_iff]

/-! ### Branches -/

section

variable {name number : List Char}

/-- What is captured in a branch begins in the name, or at the slash behind it. -/
theorem mem_captures_branch_iff {matchAt : Option Char → List Char → Option (List Char)}
    (hnone : ∀ c text, (∀ d ∈ text, d.isDigit = true) → matchAt (some c) text = none)
    (hnumber : ∀ d ∈ number, d.isDigit = true) {front : Option Char} :
    digits ∈ captures matchAt front (name ++ '/' :: number) ↔
      ∃ before after, name = before ++ after ∧
        matchAt (before.getLast?.or front) (after ++ '/' :: number) = some digits := by
  rw [mem_captures_iff]
  constructor
  · rintro ⟨before, after, heq, h⟩
    rcases List.append_eq_append_iff.mp heq with ⟨rest, rfl, hrest⟩ | ⟨rest, rfl, rfl⟩
    · cases rest with
      | nil => exact ⟨name, [], by simp, by simpa [hrest] using h⟩
      | cons c rest =>
        -- A match behind the slash would begin with a digit.
        obtain ⟨rfl, rfl⟩ := List.cons.inj hrest
        have hafter : ∀ d ∈ after, d.isDigit = true := fun d hd =>
          hnumber d (List.mem_append_right _ hd)
        obtain ⟨last, hlast⟩ := Option.isSome_iff_exists.mp
          (show (name ++ '/' :: rest).getLast?.isSome = true by simp)
        rw [hlast, Option.some_or, hnone last after hafter] at h
        cases h
    · exact ⟨before, rest, rfl, h⟩
  · rintro ⟨before, after, rfl, h⟩
    exact ⟨before, _, List.append_assoc _ _ _, h⟩

theorem numberBehind_digits {sign : Char} (hsign : sign.isDigit = false)
    (hdigits : ∀ d ∈ text, d.isDigit = true) : numberBehind classes sign text = none := by
  cases text with
  | nil => rfl
  | cons c rest =>
    have hc : c ≠ sign := by
      rintro rfl
      rw [hdigits c List.mem_cons_self] at hsign
      exact Bool.false_ne_true hsign.symm
    rw [numberBehind, if_neg hc]

theorem isTaskWord_eq_true_iff {word : List Char} : isTaskWord word = true ↔
    ∃ t a s k, word = [t, a, s, k] ∧ t ∈ ['t', 'T'] ∧ a ∈ ['a', 'A'] ∧ s ∈ ['s', 'S', '\u017f'] ∧
      k ∈ ['k', 'K', '\u212a'] := by
  constructor
  · intro h
    obtain ⟨hlength, hall⟩ := Bool.and_eq_true_iff.mp h
    obtain ⟨t, a, s, k, rfl⟩ : ∃ t a s k, word = [t, a, s, k] :=
      List.length_eq_four.mp (of_decide_eq_true hlength)
    refine ⟨t, a, s, k, rfl, ?_⟩
    simpa [taskLetters] using hall
  · rintro ⟨t, a, s, k, rfl, ht, ha, hs, hk⟩
    simp [isTaskWord, taskLetters, ht, ha, hs, hk]

theorem taskAt_digits {front : Option Char} (hdigits : ∀ d ∈ text, d.isDigit = true) :
    taskAt classes front text = none := by
  have hword : isTaskWord (text.take 4) = false := by
    refine Bool.eq_false_iff.mpr fun h => ?_
    obtain ⟨t, a, s, k, htake, ht, -⟩ := isTaskWord_eq_true_iff.mp h
    have hdigit := hdigits t (List.mem_of_mem_take (htake ▸ List.mem_cons_self))
    rcases List.mem_pair.mp ht with rfl | rfl <;> exact absurd hdigit (by decide)
  rw [taskAt, hword]
  simp

theorem numberBehind_append_slash {sign : Char} (hsign : sign ≠ '/')
    (hslash : classes.isWord '/' = false) (rest : List Char) :
    numberBehind classes sign (text ++ '/' :: rest) = numberBehind classes sign text := by
  cases text with
  | nil => exact if_neg hsign.symm
  | cons c text =>
    rw [List.cons_append, numberBehind, numberBehind, numberAt_append_slash hslash]

theorem suffixAt_append_slash {front : Option Char} (hslash : classes.isWord '/' = false)
    (hnumber : IsNumber classes number []) :
    suffixAt classes front (text ++ '/' :: number) = some digits ↔
      suffixAt classes front text = some digits ∨ text = [] ∧ digits = number := by
  have hfound : numberAt classes number = some number :=
    numberAt_eq_some_iff.mpr ⟨[], (List.append_nil _).symm, hnumber⟩
  rw [suffixAt, suffixAt, numberAt_append_slash hslash]
  cases text with
  | nil =>
    have hnone : (if front.isNone then numberAt classes [] else none) = none := ite_self _
    have hbehind : numberBehind classes '/' ('/' :: number) = some number := by
      rw [numberBehind, if_pos rfl, hfound]
    rw [hnone, Option.none_or, Option.none_or, List.nil_append, hbehind]
    simp [numberBehind, eq_comm]
  | cons c text =>
    rw [List.cons_append, numberBehind, numberBehind, numberAt_append_slash hslash]
    simp

theorem slash_not_mem_of_isTaskWord {word : List Char} (h : isTaskWord word = true) :
    '/' ∉ word := by
  obtain ⟨t, a, s, k, rfl, ht, ha, hs, hk⟩ := isTaskWord_eq_true_iff.mp h
  intro hmem
  simp only [List.mem_cons, List.not_mem_nil, or_false] at hmem
  rcases hmem with rfl | rfl | rfl | rfl
  · exact absurd ht (by decide)
  · exact absurd ha (by decide)
  · exact absurd hs (by decide)
  · exact absurd hk (by decide)

/-- No slash is in the word, so that it lies in front of the slash. -/
theorem isTaskWord_take_append_slash :
    isTaskWord ((text ++ '/' :: number).take 4) = true ↔ isTaskWord (text.take 4) = true := by
  by_cases hlength : text.length < 4
  · refine iff_of_false (fun h => ?_) fun h => ?_
    · refine slash_not_mem_of_isTaskWord h ?_
      obtain ⟨n, hn⟩ : ∃ n, 4 - text.length = n + 1 := ⟨3 - text.length, by omega⟩
      rw [List.take_append, hn]
      exact List.mem_append_right _ List.mem_cons_self
    · have hfour := length_of_isTaskWord h
      rw [List.length_take] at hfour
      omega
  · rw [List.take_append_of_le_length (by omega)]

theorem taskAt_append_slash {front : Option Char} (hslash : classes.isWord '/' = false)
    (hnumber : IsNumber classes number []) :
    taskAt classes front (text ++ '/' :: number) = some digits ↔
      taskAt classes front text = some digits ∨
        front.any classes.isWord = false ∧ isTaskWord text = true ∧ digits = number := by
  have hfound : numberAt classes number = some number :=
    numberAt_eq_some_iff.mpr ⟨[], (List.append_nil _).symm, hnumber⟩
  simp only [taskAt_eq_some_iff_separatedAt, isTaskWord_take_append_slash, ← and_or_left]
  refine and_congr_right fun _ => ?_
  by_cases hword : isTaskWord (text.take 4) = true
  · have hlength : 4 ≤ text.length := by
      have hfour := length_of_isTaskWord hword
      rw [List.length_take] at hfour
      omega
    rw [List.drop_append_of_le_length hlength]
    cases hrest : text.drop 4 with
    | nil =>
      have htext : text.take 4 = text := by
        rw [← List.take_append_drop 4 text, hrest, List.append_nil, List.take_take, Nat.min_self]
      rw [htext] at hword
      have hseparated : separatedAt classes ('/' :: number) = some number := by
        rw [separatedAt, if_pos (by decide), hfound]
        rfl
      rw [List.nil_append, hseparated, htext]
      simp [hword, separatedAt, eq_comm]
    | cons c rest =>
      have htext : isTaskWord text = false := by
        refine Bool.eq_false_iff.mpr fun h => ?_
        have hfour := length_of_isTaskWord h
        rw [← hfour, List.drop_length] at hrest
        cases hrest
      rw [List.cons_append, separatedAt, ← List.cons_append, numberAt_append_slash hslash,
        numberAt_append_slash hslash, htext]
      simp [separatedAt]
  · have htext : isTaskWord text = false := by
      refine Bool.eq_false_iff.mpr fun h => hword ?_
      rw [List.take_of_length_le (length_of_isTaskWord h).le]
      exact h
    simp [hword, htext]

theorem isWord_slash (classes : CharClasses) : classes.isWord '/' = false := by
  rw [classes.isWord_ascii '/' (by decide)]
  rfl

theorem isNumber_of_isDigit (classes : CharClasses) (hne : number ≠ [])
    (hnumber : ∀ d ∈ number, d.isDigit = true) : IsNumber classes number [] := by
  refine ⟨hne, fun d hd => ?_, rfl⟩
  have hascii : d.toNat < 128 := by
    have hdigit := hnumber d hd
    simp only [Char.isDigit, Bool.and_eq_true, decide_eq_true_eq, ge_iff_le, UInt32.le_iff_toNat_le]
      at hdigit
    have hle : d.val.toNat ≤ 57 := hdigit.2
    exact lt_of_le_of_lt hle (by decide)
  rw [classes.isDigit_ascii d hascii, hnumber d hd]

/-- **Branches.** A branch refers to its task, and to what the name refers to. -/
theorem mem_capturedNumbers_branch_iff (hne : number ≠ [])
    (hnumber : ∀ d ∈ number, d.isDigit = true) :
    digits ∈ capturedNumbers classes (name ++ '/' :: number) ↔
      digits ∈ capturedNumbers classes name ∨ digits = number := by
  have hslash := isWord_slash classes
  have hhash : '#' ≠ '/' := by decide
  have hbehind := isNumber_of_isDigit classes hne hnumber
  simp only [capturedNumbers, List.mem_append]
  rw [mem_captures_branch_iff (fun _ _ h => numberBehind_digits rfl h) hnumber,
    mem_captures_branch_iff (fun _ _ h => taskAt_digits h) hnumber,
    mem_captures_branch_iff (fun _ _ h => Option.or_eq_none_iff.mpr
      ⟨rfl, numberBehind_digits rfl h⟩) hnumber]
  simp only [mem_captures_iff, hashAt, numberBehind_append_slash hhash hslash,
    taskAt_append_slash hslash hbehind, suffixAt_append_slash hslash hbehind]
  constructor
  · rintro ((h | ⟨before, after, heq, h | h⟩) | ⟨before, after, heq, h | h⟩)
    · exact .inl (.inl (.inl h))
    · exact .inl (.inl (.inr ⟨before, after, heq, h⟩))
    · exact .inr h.2.2
    · exact .inl (.inr ⟨before, after, heq, h⟩)
    · exact .inr h.2
  · rintro (((h | ⟨before, after, heq, h⟩) | ⟨before, after, heq, h⟩) | rfl)
    · exact .inl (.inl h)
    · exact .inl (.inr ⟨before, after, heq, .inl h⟩)
    · exact .inr ⟨before, after, heq, .inl h⟩
    · exact .inr ⟨name, [], (List.append_nil name).symm, .inr ⟨rfl, rfl⟩⟩

end

theorem mem_extractTaskIds_iff {text : String} {taskId : Nat} :
    taskId ∈ extractTaskIds classes text ↔
      ∃ digits ∈ capturedNumbers classes text.toList, parseU32 digits = some taskId := by
  rw [extractTaskIds, List.mem_dedup, List.mem_insertionSort, List.mem_filterMap]

end

/-! ### What is claimed -/

section

variable (classes : CharClasses)

/-- A text that refers to a task by its id. -/
def RefersTo (text : String) (taskId : Nat) : Prop :=
  ∃ digits, (ExplicitReference classes text.toList digits ∨ PathReference classes text.toList digits) ∧
    parseU32 digits = some taskId

/-- No hash and no word task has a number. -/
def Unlabeled (messages : List String) : Prop :=
  ∀ message ∈ messages, ∀ digits, ¬ ExplicitReference classes message.toList digits

/-- A message has a task id at its start or behind a slash. -/
def HasPath (messages : List String) (taskId : Nat) : Prop :=
  ∃ message ∈ messages, ∃ digits, PathReference classes message.toList digits ∧
    parseU32 digits = some taskId

/-- The branch of the task itself is not blamed and that of another one is; messages without an
explicit reference are not blamed. -/
structure AccusesOnlyMismatches (engineer : String) (taskId taskId' : UInt32)
    (commitMessages : List String) : Prop where
  own : ∀ task explicitTaskId slug, effectiveTaskId explicitTaskId task = some taskId.toNat →
    taskReferenceMismatchBlockers classes taskId.toNat
      (Worktree.engineerTaskBranchName engineer task explicitTaskId slug) [] = []
  other : taskId' ≠ taskId → ∀ task explicitTaskId slug,
    effectiveTaskId explicitTaskId task = some taskId'.toNat →
      taskReferenceMismatchBlockers classes taskId.toNat
        (Worktree.engineerTaskBranchName engineer task explicitTaskId slug) [] ≠ []
  quiet : Unlabeled classes commitMessages → ∀ branchName,
    taskReferenceMismatchBlockers classes taskId.toNat branchName commitMessages =
      taskReferenceMismatchBlockers classes taskId.toNat branchName []

variable {classes}

theorem mem_extractTaskIds_iff_refersTo {text : String} {taskId : Nat} :
    taskId ∈ extractTaskIds classes text ↔ RefersTo classes text taskId := by
  simp only [mem_extractTaskIds_iff, mem_capturedNumbers_iff, RefersTo]

theorem blocker_eq_none_iff {ids : List Nat} {taskId : Nat} {blocker : String} :
    (if !ids.isEmpty && !ids.contains taskId then some blocker else none) = none ↔
      ids = [] ∨ taskId ∈ ids := by
  by_cases hempty : ids = [] <;> by_cases hmem : taskId ∈ ids <;> simp [hempty, hmem]

/-- Without messages there is the branch alone to blame. -/
theorem blockers_nil (classes : CharClasses) (taskId : Nat) (branchName : String) :
    taskReferenceMismatchBlockers classes taskId branchName [] =
      (branchBlocker classes taskId branchName).toList :=
  List.append_nil _

theorem blockers_eq_blockers_nil_iff {taskId : Nat} {branchName : String} {messages : List String} :
    taskReferenceMismatchBlockers classes taskId branchName messages =
      taskReferenceMismatchBlockers classes taskId branchName [] ↔
        commitBlocker classes taskId messages = none := by
  rw [blockers_nil, taskReferenceMismatchBlockers, List.append_right_eq_self, Option.toList_eq_nil_iff]

/-- A branch that is generated for a task. -/
theorem mem_extractTaskIds_branch_iff {engineer task slug : String} {explicitTaskId : Option Nat}
    {taskId : UInt32} {id : Nat} (h : effectiveTaskId explicitTaskId task = some taskId.toNat) :
    id ∈ extractTaskIds classes
        (Worktree.engineerTaskBranchName engineer task explicitTaskId slug) ↔
      RefersTo classes engineer id ∨ id = taskId.toNat := by
  have hdigits : ∀ d ∈ Nat.toDigits 10 taskId.toNat, d.isDigit = true := fun d hd =>
    Nat.isDigit_of_mem_toDigits (by decide) (by decide) hd
  have hbranch : (Worktree.engineerTaskBranchName engineer task explicitTaskId slug).toList =
      engineer.toList ++ '/' :: Nat.toDigits 10 taskId.toNat := by
    rw [Worktree.engineerTaskBranchName, h, Option.map_some, Option.getD_some, String.toList_append,
      String.toList_append, Nat.toString_eq_repr, Nat.toList_repr, List.append_assoc]
    rfl
  rw [mem_extractTaskIds_iff, hbranch, ← mem_extractTaskIds_iff_refersTo, mem_extractTaskIds_iff]
  have hparse : parseU32 (Nat.toDigits 10 taskId.toNat) = some taskId.toNat :=
    parseU32_toDigits taskId.toNat_lt
  simp only [mem_capturedNumbers_branch_iff Nat.toDigits_ne_nil hdigits, or_and_right, exists_or,
    exists_eq_left, hparse, Option.some.injEq, eq_comm]

theorem branchBlocker_eq_none_iff {engineer task slug : String} {explicitTaskId : Option Nat}
    {taskId taskId' : UInt32}
    (h : effectiveTaskId explicitTaskId task = some taskId'.toNat) :
    branchBlocker classes taskId.toNat
        (Worktree.engineerTaskBranchName engineer task explicitTaskId slug) = none ↔
      RefersTo classes engineer taskId.toNat ∨ taskId = taskId' := by
  have hmem : ∀ id, id ∈ extractTaskIds classes
      (Worktree.engineerTaskBranchName engineer task explicitTaskId slug) ↔
        RefersTo classes engineer id ∨ id = taskId'.toNat := fun id =>
    mem_extractTaskIds_branch_iff h
  have hne : extractTaskIds classes
      (Worktree.engineerTaskBranchName engineer task explicitTaskId slug) ≠ [] :=
    List.ne_nil_of_mem ((hmem _).mpr (.inr rfl))
  rw [branchBlocker, blocker_eq_none_iff, or_iff_right hne, hmem, UInt32.toNat_inj]

/-- Without explicit references only numbers in paths are blamed. -/
theorem commitBlocker_eq_none_iff {taskId : Nat} {messages : List String}
    (h : Unlabeled classes messages) : commitBlocker classes taskId messages = none ↔
      (∀ id, ¬ HasPath classes messages id) ∨ HasPath classes messages taskId := by
  have hids : ∀ id, id ∈ ((messages.flatMap (extractTaskIds classes)).insertionSort (· ≤ ·)).dedup ↔
      HasPath classes messages id := by
    intro id
    rw [List.mem_dedup, List.mem_insertionSort, List.mem_flatMap]
    refine exists_congr fun message => and_congr_right fun hmessage => ?_
    rw [mem_extractTaskIds_iff_refersTo]
    refine exists_congr fun digits => and_congr_left' ?_
    exact or_iff_right (h message hmessage digits)
  rw [commitBlocker, blocker_eq_none_iff, hids, List.eq_nil_iff_forall_not_mem]
  simp only [hids]

end

/-- **The accusations are right** if and only if the name of the engineer refers to no task itself,
and of the numbers in paths in messages none is taken for a task, or one is the task's own. -/
theorem accusesOnlyMismatches_iff (classes : CharClasses) (engineer : String)
    (taskId taskId' : UInt32) (commitMessages : List String) :
    AccusesOnlyMismatches classes engineer taskId taskId' commitMessages ↔
      (taskId' ≠ taskId → ¬ RefersTo classes engineer taskId.toNat) ∧
        (Unlabeled classes commitMessages →
          (∀ id, ¬ HasPath classes commitMessages id) ∨
            HasPath classes commitMessages taskId.toNat) := by
  constructor
  · intro h
    refine ⟨fun hne hrefers => ?_, fun hunlabeled => ?_⟩
    · refine h.other hne "" (some taskId'.toNat) "" rfl ?_
      rw [blockers_nil, Option.toList_eq_nil_iff]
      exact (branchBlocker_eq_none_iff rfl).mpr (.inl hrefers)
    · exact (commitBlocker_eq_none_iff hunlabeled).mp
        (blockers_eq_blockers_nil_iff.mp (h.quiet hunlabeled ""))
  · rintro ⟨hname, hpaths⟩
    refine ⟨fun task explicitTaskId slug heffective => ?_,
      fun hne task explicitTaskId slug heffective hnone => ?_, fun hunlabeled branchName => ?_⟩
    · rw [blockers_nil, Option.toList_eq_nil_iff]
      exact (branchBlocker_eq_none_iff heffective).mpr (.inr rfl)
    · rw [blockers_nil, Option.toList_eq_nil_iff] at hnone
      rcases (branchBlocker_eq_none_iff heffective).mp hnone with hrefers | heq
      · exact hname hne hrefers
      · exact hne heq.symm
    · exact blockers_eq_blockers_nil_iff.mpr
        ((commitBlocker_eq_none_iff hunlabeled).mpr (hpaths hunlabeled))

/-! ### A date -/

def asciiClasses : CharClasses where
  isDigit := Char.isDigit
  isWord c := c.isAlphanum || c = '_'
  isWord_of_isDigit c h := by simp [Char.isAlphanum, h]
  isDigit_ascii _ _ := rfl
  isWord_ascii _ _ := rfl

/-- A commit that begins with the year is blamed for task 2024. -/
theorem not_accusesOnlyMismatches : ¬ ∀ classes config members,
    Config.resolveHierarchy config = .ok members → ∀ member ∈ members,
      member.roleType = .engineer → ∀ taskId taskId' commitMessages,
        AccusesOnlyMismatches classes member.name taskId taskId' commitMessages := by
  intro h
  have hengineer : ∃ member ∈ Config.allMembers Config.ordinaryTeam,
      member.roleType = .engineer := by decide
  obtain ⟨member, hmember, hrole⟩ := hengineer
  have hquiet := (h asciiClasses Config.ordinaryTeam _ rfl member hmember hrole 7 7
    ["2024-05-01 refactor"]).quiet
  have hunlabeled : Unlabeled asciiClasses ["2024-05-01 refactor"] := by
    intro message hmessage digits hexplicit
    rw [List.mem_singleton.mp hmessage, explicitReference_iff] at hexplicit
    have hnone : captures (hashAt asciiClasses) none "2024-05-01 refactor".toList ++
        captures (taskAt asciiClasses) none "2024-05-01 refactor".toList = [] := by decide
    rw [hnone] at hexplicit
    exact List.not_mem_nil hexplicit
  have hnone := blockers_eq_blockers_nil_iff.mp (hquiet hunlabeled "")
  rw [commitBlocker, blocker_eq_none_iff] at hnone
  revert hnone
  decide +kernel

end TaskReferences

end Batty
