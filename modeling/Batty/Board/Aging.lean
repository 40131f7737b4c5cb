import Batty.Board.Archive
import Batty.Board.Timestamps

/-!
# Finished tasks by their age

Which finished tasks are old enough for the archive is decided by an age that is given as a number
and a unit. The number is multiplied in 64 bits, and the age is taken from the time by a library for
dates that knows no spans beyond a bound; an age beyond it is taken for none.

`selectsByAge_iff`: ages are read exactly and a greater age selects fewer tasks, if the product fits
in 64 bits and the age is not beyond the bound, or no finished task lies in the past.

A build with overflow checks panics where one without them goes on with the rest of the product.
Ages are nanoseconds, and so are instants.
-/

namespace Batty

/-! ### Reading an age -/

def mulU64 (checks : Bool) (a b : Nat) : Except Failure Nat :=
  if a * b < 2 ^ 64 then .ok (a * b)
  else if checks then .error .panicked
  else .ok (a * b % 2 ^ 64)

/-- What the number is multiplied by for a suffix, one factor after the other. -/
def unitFactors : List Char → Option (List Nat)
  | ['s'] => some []
  | ['m'] => some [60]
  | ['h'] => some [3600]
  | ['d'] => some [86400]
  | ['w'] => some [86400, 7]
  | _ => none

def parseAgeThreshold (checks : Bool) (threshold : List Char) : Except Failure Nat :=
  let threshold := Text.trim threshold
  let digits := threshold.takeWhile Char.isDigit
  let suffix := threshold.dropWhile Char.isDigit
  let text := String.ofList threshold
  if threshold.isEmpty then .error (.error "empty age threshold")
  else if digits.isEmpty then .error (.error s!"invalid age threshold: {text}")
  else
    match Text.parseU64 digits with
    | none => .error (.error s!"invalid age threshold: {text}")
    | some value =>
      match unitFactors suffix with
      | some factors => factors.foldlM (mulU64 checks) value
      | none => .error (.error
          s!"invalid age threshold suffix: {text} (expected s, m, h, d, or w)")

/-! ### Selecting the tasks -/

/-- The bounds of the library for dates: of instants, and of the spans between them. -/
structure DateLimits where
  earliest : Int
  latest : Int
  maxDelta : Nat
  fits : latest - earliest ≤ maxDelta

/-- An instant within the bounds. -/
def DateLimits.Instant (limits : DateLimits) : Type :=
  { nanos : Int // limits.earliest ≤ nanos ∧ nanos ≤ limits.latest }

/-- How dates are read, and when a file was written. -/
structure Dates (limits : DateLimits) where
  parseCompletedDate : String → Option limits.Instant
  modified : String → Option limits.Instant

variable {limits : DateLimits}

/-- The age as a span; one that is too great is taken for none. -/
def DateLimits.delta (limits : DateLimits) (maxAge : Nat) : Nat :=
  if maxAge ≤ limits.maxDelta then maxAge else 0

/-- Taking a span from an instant panics where that leads out of the bounds. -/
def DateLimits.cutoff (limits : DateLimits) (now : limits.Instant) (maxAge : Nat) :
    Except Failure Int :=
  if limits.earliest ≤ now.val - limits.delta maxAge then .ok (now.val - limits.delta maxAge)
  else .error .panicked

/-- When the task was finished: the date in its file if there is one, else the time of the file. -/
def finishedAt (dates : Dates limits) (board : Board) (task : Task) : Option limits.Instant :=
  match board.completed task.sourcePath with
  | some completed => dates.parseCompletedDate completed
  | none => dates.modified task.sourcePath

/-- `path` may be no directory, and the tasks in a directory may not load. -/
def doneTasksOlderThan (dates : Dates limits) (path : String)
    (tasksDir : Option (Except String Board)) (now : limits.Instant) (maxAge : Nat) :
    Except Failure (List Task) :=
  match tasksDir with
  | none => .error (.error s!"no tasks directory found at {path}")
  | some (.error message) => .error (.error message)
  | some (.ok board) => do
    let cutoff ← limits.cutoff now maxAge
    return (board.tasks.filter fun task => task.status = "done").filter fun task =>
      maxAge = 0 || (finishedAt dates board task).any fun finished => finished.val < cutoff

/-! ### What the ages do -/

/-- The seconds in a unit. -/
def unitSeconds : Char → Option Nat
  | 's' => some 1
  | 'm' => some 60
  | 'h' => some 3600
  | 'd' => some 86400
  | 'w' => some 604800
  | _ => none

def Selected (dates : Dates limits) (path : String) (tasksDir : Option (Except String Board))
    (now : limits.Instant) (maxAge : Nat) (task : Task) : Prop :=
  ∃ selected, doneTasksOlderThan dates path tasksDir now maxAge = .ok selected ∧ task ∈ selected

/-- **Selecting by age.** A threshold is read exactly or rejected; what is selected with the greater
age is with the smaller one; and what is selected with an age was finished longer ago than that. -/
structure SelectsByAge (checks : Bool) (threshold : List Char) (dates : Dates limits)
    (path : String) (tasksDir : Option (Except String Board)) (now : limits.Instant)
    (smaller greater : Nat) : Prop where
  exact : (∃ message, parseAgeThreshold checks threshold = .error (.error message)) ∨
    ∃ digits suffix unit, Text.trim threshold = digits ++ [suffix] ∧
      unitSeconds suffix = some unit ∧
      parseAgeThreshold checks threshold = .ok (Nat.ofDigitChars 10 digits 0 * unit)
  antitone : ∀ task, Selected dates path tasksDir now greater task →
    Selected dates path tasksDir now smaller task
  recent : ∀ board, tasksDir = some (.ok board) → ∀ task,
    Selected dates path tasksDir now greater task → greater ≠ 0 →
      ∃ finished, finishedAt dates board task = some finished ∧ finished.val + greater < now.val

/-- The product of the number and the unit fits in 64 bits if the number does. -/
def ThresholdFits (threshold : List Char) : Prop :=
  ∀ digits suffix unit, Text.trim threshold = digits ++ [suffix] → digits ≠ [] →
    (∀ c ∈ digits, c.isDigit = true) → unitSeconds suffix = some unit →
    Nat.ofDigitChars 10 digits 0 < 2 ^ 64 → Nat.ofDigitChars 10 digits 0 * unit < 2 ^ 64

/-- The age is one that the library knows, or no finished task lies in the past. -/
def AgeFits (dates : Dates limits) (tasksDir : Option (Except String Board))
    (now : limits.Instant) (maxAge : Nat) : Prop :=
  maxAge ≤ limits.maxDelta ∨ ∀ board, tasksDir = some (.ok board) → ∀ task ∈ board.tasks,
    task.status = "done" → ∀ finished ∈ finishedAt dates board task, now.val ≤ finished.val

section

variable {checks : Bool} {threshold digits : List Char} {dates : Dates limits} {path : String}
  {tasksDir : Option (Except String Board)} {board : Board} {now : limits.Instant} {task : Task}
  {maxAge smaller greater : Nat}

theorem mulU64_of_lt {a b : Nat} (h : a * b < 2 ^ 64) : mulU64 checks a b = .ok (a * b) :=
  if_pos h

/-- The product, where it is not one of 64 bits, is replaced by one that is, or is not had. -/
theorem mulU64_bounded (checks : Bool) (a b : Nat) :
    mulU64 checks a b = .error .panicked ∨ ∃ n < 2 ^ 64, mulU64 checks a b = .ok n := by
  rw [mulU64]
  split
  · rename_i hlt
    exact .inr ⟨_, hlt, rfl⟩
  · split
    · exact .inl rfl
    · exact .inr ⟨_, Nat.mod_lt _ (by decide), rfl⟩

theorem foldlM_mulU64_of_lt {factors : List Nat} {value : Nat}
    (hpos : ∀ factor ∈ factors, 0 < factor) (h : value * factors.prod < 2 ^ 64) :
    factors.foldlM (mulU64 checks) value = .ok (value * factors.prod) := by
  induction factors generalizing value with
  | nil => simp [pure, Except.pure]
  | cons factor factors ih =>
    obtain ⟨-, hfactors⟩ := List.forall_mem_cons.mp hpos
    rw [List.prod_cons, ← Nat.mul_assoc] at h ⊢
    have hprod : 0 < factors.prod := List.prod_pos_iff_forall_pos_nat.mpr hfactors
    have hfactor : value * factor < 2 ^ 64 := (Nat.le_mul_of_pos_right _ hprod).trans_lt h
    rw [List.foldlM_cons, mulU64_of_lt hfactor]
    exact ih hfactors h

theorem foldlM_mulU64_bounded (checks : Bool) (factors : List Nat) {value : Nat}
    (h : value < 2 ^ 64) :
    factors.foldlM (mulU64 checks) value = .error .panicked ∨
      ∃ n < 2 ^ 64, factors.foldlM (mulU64 checks) value = .ok n := by
  induction factors generalizing value with
  | nil => exact .inr ⟨value, h, rfl⟩
  | cons factor factors ih =>
    rw [List.foldlM_cons]
    rcases mulU64_bounded checks value factor with hpanics | ⟨n, hn, hproduct⟩
    · rw [hpanics]
      exact .inl rfl
    · rw [hproduct]
      exact ih hn

theorem not_isDigit_of_unitSeconds {suffix : Char} {unit : Nat}
    (h : unitSeconds suffix = some unit) : suffix.isDigit = false := by
  unfold unitSeconds at h
  split at h <;> first | rfl | cases h

theorem exists_unitFactors {suffix : Char} {unit : Nat} (h : unitSeconds suffix = some unit) :
    ∃ factors, unitFactors [suffix] = some factors ∧ factors.prod = unit ∧
      ∀ factor ∈ factors, 0 < factor := by
  unfold unitSeconds at h
  split at h <;> cases h
  · exact ⟨[], rfl, rfl, by decide⟩
  · exact ⟨[60], rfl, rfl, by decide⟩
  · exact ⟨[3600], rfl, rfl, by decide⟩
  · exact ⟨[86400], rfl, rfl, by decide⟩
  · exact ⟨[86400, 7], rfl, rfl, by decide⟩

/-- A suffix that is known names a unit. -/
theorem exists_unitSeconds {suffix : List Char} {factors : List Nat}
    (h : unitFactors suffix = some factors) :
    ∃ c unit, suffix = [c] ∧ unitSeconds c = some unit := by
  unfold unitFactors at h
  split at h
  · exact ⟨'s', 1, rfl, rfl⟩
  · exact ⟨'m', 60, rfl, rfl⟩
  · exact ⟨'h', 3600, rfl, rfl⟩
  · exact ⟨'d', 86400, rfl, rfl⟩
  · exact ⟨'w', 604800, rfl, rfl⟩
  · cases h

/-- A threshold that names a number and a unit. -/
structure NamesAge (threshold digits : List Char) (suffix : Char) (unit : Nat) : Prop where
  trim : Text.trim threshold = digits ++ [suffix]
  nonempty : digits ≠ []
  isDigit : ∀ c ∈ digits, c.isDigit = true
  unit : unitSeconds suffix = some unit
  bounded : Nat.ofDigitChars 10 digits 0 < 2 ^ 64

theorem exists_namesAge (checks : Bool) (threshold : List Char) :
    (∃ message, parseAgeThreshold checks threshold = .error (.error message)) ∨
      ∃ digits suffix unit, NamesAge threshold digits suffix unit := by
  have hparts := List.takeWhile_append_dropWhile (p := Char.isDigit) (l := Text.trim threshold)
  have hdigits : ∀ c ∈ (Text.trim threshold).takeWhile Char.isDigit, c.isDigit = true :=
    List.all_eq_true.mp List.all_takeWhile
  simp only [parseAgeThreshold]
  generalize (Text.trim threshold).takeWhile Char.isDigit = digits at *
  generalize (Text.trim threshold).dropWhile Char.isDigit = suffix at *
  split
  · exact .inl ⟨_, rfl⟩
  split
  · exact .inl ⟨_, rfl⟩
  rename_i hne
  have hne : digits ≠ [] := by simpa using hne
  split
  · exact .inl ⟨_, rfl⟩
  rename_i value hvalue
  rw [Text.parseU64_of_digits hne hdigits] at hvalue
  have hlt : Nat.ofDigitChars 10 digits 0 < 2 ^ 64 := by
    obtain ⟨hsome, hlt⟩ := Option.mem_filter_iff.mp hvalue
    obtain rfl := Option.some.inj hsome
    simpa using hlt
  cases hfactors : unitFactors suffix with
  | none => exact .inl ⟨_, rfl⟩
  | some factors =>
    obtain ⟨c, unit, rfl, hunit⟩ := exists_unitSeconds hfactors
    exact .inr ⟨digits, c, unit, hparts.symm, hne, hdigits, hunit, hlt⟩

theorem NamesAge.parseAgeThreshold {suffix : Char} {unit : Nat}
    (h : NamesAge threshold digits suffix unit) (checks : Bool) : ∃ factors : List Nat,
      parseAgeThreshold checks threshold =
        factors.foldlM (mulU64 checks) (Nat.ofDigitChars 10 digits 0) ∧
      factors.prod = unit ∧ ∀ factor ∈ factors, 0 < factor := by
  obtain ⟨factors, hfactors, hprod, hpos⟩ := exists_unitFactors h.unit
  refine ⟨factors, ?_, hprod, hpos⟩
  have hsuffix := not_isDigit_of_unitSeconds h.unit
  have htake : (Text.trim threshold).takeWhile Char.isDigit = digits := by
    rw [h.trim, List.takeWhile_append_of_pos h.isDigit]
    simp [hsuffix]
  have hdrop : (Text.trim threshold).dropWhile Char.isDigit = [suffix] := by
    rw [h.trim, List.dropWhile_append_of_pos h.isDigit]
    simp [hsuffix]
  have hempty : (Text.trim threshold).isEmpty = false := by simp [h.trim]
  have hempty' : digits.isEmpty = false := by simpa using h.nonempty
  have hvalue : Text.parseU64 digits = some (Nat.ofDigitChars 10 digits 0) := by
    rw [Text.parseU64_of_digits h.nonempty h.isDigit]
    simpa using h.bounded
  simp only [Batty.parseAgeThreshold, htake, hdrop, hempty, hempty', hvalue, hfactors,
    Bool.false_eq_true, if_false]

theorem parseAgeThreshold_exact_iff (checks : Bool) (threshold : List Char) :
    ((∃ message, parseAgeThreshold checks threshold = .error (.error message)) ∨
      ∃ digits suffix unit, Text.trim threshold = digits ++ [suffix] ∧
        unitSeconds suffix = some unit ∧
        parseAgeThreshold checks threshold = .ok (Nat.ofDigitChars 10 digits 0 * unit)) ↔
      ThresholdFits threshold := by
  constructor
  · intro h digits suffix unit htrim hne hdigits hunit hlt
    by_contra hover
    have hnames : NamesAge threshold digits suffix unit := ⟨htrim, hne, hdigits, hunit, hlt⟩
    obtain ⟨factors, hfactors, -, -⟩ := hnames.parseAgeThreshold checks
    have hparse := foldlM_mulU64_bounded checks factors hlt
    rw [← hfactors] at hparse
    rcases h with ⟨message, herror⟩ | ⟨digits', suffix', unit', htrim', hunit', hexact⟩
    · rw [herror] at hparse
      simp at hparse
    · obtain ⟨rfl, hsuffix⟩ := List.append_inj' (htrim.symm.trans htrim') rfl
      obtain rfl := List.singleton_injective hsuffix
      obtain rfl := Option.some.inj (hunit.symm.trans hunit')
      rw [hexact] at hparse
      obtain ⟨n, hn, heq⟩ := hparse.resolve_left nofun
      exact hover (Except.ok.inj heq ▸ hn)
  · intro hfits
    refine (exists_namesAge checks threshold).imp_right ?_
    rintro ⟨digits, suffix, unit, h⟩
    have hlt := hfits digits suffix unit h.trim h.nonempty h.isDigit h.unit h.bounded
    obtain ⟨factors, hparse, rfl, hpos⟩ := h.parseAgeThreshold checks
    exact ⟨digits, suffix, factors.prod, h.trim, h.unit,
      hparse.trans (foldlM_mulU64_of_lt hpos hlt)⟩

theorem selected_iff : Selected dates path (some (.ok board)) now maxAge task ↔
    limits.earliest ≤ now.val - limits.delta maxAge ∧ task ∈ board.tasks ∧ task.status = "done" ∧
      (maxAge = 0 ∨ ∃ finished, finishedAt dates board task = some finished ∧
        finished.val < now.val - limits.delta maxAge) := by
  by_cases hcutoff : limits.earliest ≤ now.val - limits.delta maxAge
  · simp [Selected, doneTasksOlderThan, DateLimits.cutoff, hcutoff, bind, Except.bind, pure,
      Except.pure, Option.any_eq_true]
    exact fun _ => and_comm
  · simp [Selected, doneTasksOlderThan, DateLimits.cutoff, hcutoff, bind, Except.bind]

/-- What is selected is a task of a board that could be read. -/
theorem exists_of_selected (h : Selected dates path tasksDir now maxAge task) :
    ∃ board, tasksDir = some (.ok board) := by
  obtain ⟨selected, hselected, -⟩ := h
  unfold doneTasksOlderThan at hselected
  split at hselected
  · cases hselected
  · cases hselected
  · exact ⟨_, rfl⟩

/-- All that lies in the past is closer than any age that the library does not know. -/
theorem not_fits_of_selected (hage : ¬ maxAge ≤ limits.maxDelta) {finished : limits.Instant} :
    ¬ finished.val + maxAge < now.val := by
  have hnow := now.property.2
  have hfinished := finished.property.1
  have hfits := limits.fits
  omega

theorem ageFits_of_recent
    (h : ∀ board, tasksDir = some (.ok board) → ∀ task,
      Selected dates path tasksDir now maxAge task → maxAge ≠ 0 →
        ∃ finished, finishedAt dates board task = some finished ∧
          finished.val + maxAge < now.val) :
    AgeFits dates tasksDir now maxAge := by
  refine or_iff_not_imp_left.mpr fun hage board hboard task hmem hdone finished hfinished => ?_
  subst hboard
  by_contra hpast
  -- An age that is taken for none selects whatever was finished before now.
  have hdelta : limits.delta maxAge = 0 := if_neg hage
  have hselected : Selected dates path (some (.ok board)) now maxAge task := by
    rw [selected_iff, hdelta]
    refine ⟨by simpa using now.property.1, hmem, hdone, .inr ⟨finished, hfinished, ?_⟩⟩
    simpa using hpast
  obtain ⟨finished', -, hlong⟩ := h board rfl task hselected (by omega)
  exact not_fits_of_selected hage hlong

/-- With an age that fits, what is selected was finished before that age. -/
theorem recent_of_ageFits (hfits : AgeFits dates (some (.ok board)) now maxAge)
    (h : Selected dates path (some (.ok board)) now maxAge task) (hpos : maxAge ≠ 0) :
    maxAge ≤ limits.maxDelta ∧ ∃ finished, finishedAt dates board task = some finished ∧
      finished.val + maxAge < now.val := by
  obtain ⟨-, hmem, hdone, hage⟩ := selected_iff.mp h
  obtain ⟨finished, hfinished, hlt⟩ := hage.resolve_left hpos
  have hknown : maxAge ≤ limits.maxDelta := by
    by_contra hage
    have hlate := hfits.resolve_left hage board rfl task hmem hdone finished hfinished
    rw [DateLimits.delta, if_neg hage] at hlt
    omega
  rw [DateLimits.delta, if_pos hknown] at hlt
  exact ⟨hknown, finished, hfinished, by omega⟩

theorem antitone_of_ageFits (hle : smaller ≤ greater)
    (hfits : AgeFits dates (some (.ok board)) now greater)
    (h : Selected dates path (some (.ok board)) now greater task) :
    Selected dates path (some (.ok board)) now smaller task := by
  by_cases hpos : greater = 0
  · obtain rfl : smaller = greater := by omega
    exact h
  obtain ⟨hknown, finished, hfinished, hlt⟩ := recent_of_ageFits hfits h hpos
  obtain ⟨hcutoff, hmem, hdone, -⟩ := selected_iff.mp h
  rw [DateLimits.delta, if_pos hknown] at hcutoff
  rw [selected_iff, DateLimits.delta, if_pos (hle.trans hknown)]
  exact ⟨by omega, hmem, hdone, .inr ⟨finished, hfinished, by omega⟩⟩

/-- **Selecting by age** works exactly for the thresholds and the ages that fit. -/
theorem selectsByAge_iff (checks : Bool) (threshold : List Char) (dates : Dates limits)
    (path : String) (tasksDir : Option (Except String Board)) (now : limits.Instant)
    (smaller greater : Nat) (hle : smaller ≤ greater) :
    SelectsByAge checks threshold dates path tasksDir now smaller greater ↔
      ThresholdFits threshold ∧ AgeFits dates tasksDir now greater := by
  constructor
  · intro h
    exact ⟨(parseAgeThreshold_exact_iff checks threshold).mp h.exact, ageFits_of_recent h.recent⟩
  · rintro ⟨hthreshold, hage⟩
    refine ⟨(parseAgeThreshold_exact_iff checks threshold).mpr hthreshold, fun task h => ?_, ?_⟩
    · obtain ⟨board, rfl⟩ := exists_of_selected h
      exact antitone_of_ageFits hle hage h
    · rintro board rfl task h hpos
      exact (recent_of_ageFits hage h hpos).2

end

/-! ### An age of very many weeks -/

/-- The library's own limits. -/
def chronoLimits : DateLimits where
  earliest := -8334601228800 * 10 ^ 9
  latest := 8210266876799 * 10 ^ 9 + 999999999
  maxDelta := (2 ^ 63 - 1) * 10 ^ 6
  fits := by decide

/-- A moment in 2026, of which no date is read. -/
def spring : chronoLimits.Instant := ⟨1775000000 * 10 ^ 9, by decide, by decide⟩

def noDates : Dates chronoLimits where
  parseCompletedDate _ := none
  modified _ := some spring

def finishedFile (name : String) (id : Int) (completed : String) : TaskFile where
  name
  fenceNewline := true
  frontmatter := .ofList [(.id, .number id), (.title, .string "Report"), (.status, .string "done"),
    (.completed, .string completed)]
  body := ""

/-- A task that was finished in winter, and one that was on the same day. -/
def finishedBoard : Board where
  files := [finishedFile "001-old.md" 1 "winter", finishedFile "002-new.md" 2 "spring"]
  nodup := by simp [finishedFile]

def seasons : Dates chronoLimits where
  parseCompletedDate season :=
    if season = "winter" then some ⟨1765000000 * 10 ^ 9, by decide, by decide⟩ else some spring
  modified _ := none

/-- The age of two weeks, on a board with a finished task. -/
theorem selectsByAge_iff_fortnight : SelectsByAge false "2w".toList seasons "tasks"
    (some (.ok finishedBoard)) spring (7 * 86400 * 10 ^ 9) (14 * 86400 * 10 ^ 9) := by
  refine (selectsByAge_iff false "2w".toList seasons "tasks" _ spring _ _ (by decide)).mpr
    ⟨fun digits suffix unit htrim _ _ hunit _ => ?_, .inl (by decide)⟩
  have htwo : digits = ['2'] ∧ suffix = 'w' := by
    have hsplit : ['2'] ++ ['w'] = digits ++ [suffix] := htrim
    obtain ⟨hdigits, hsuffix⟩ := List.append_inj' hsplit rfl
    exact ⟨hdigits.symm, (List.singleton_inj.mp hsuffix).symm⟩
  obtain ⟨rfl, rfl⟩ := htwo
  obtain rfl := Option.some.inj hunit
  decide

/-- Of the two the old one is selected. -/
example : (doneTasksOlderThan seasons "tasks" (some (.ok finishedBoard)) spring
    (14 * 86400 * 10 ^ 9)).map (·.map Task.id) = .ok [1] := by decide

/-- So many weeks are read as less than one. -/
example : parseAgeThreshold false "30500568904944w".toList = .ok 579584 := by decide

/-- A number of weeks whose seconds do not fit. -/
theorem not_selectsByAge : ¬ ∀ (limits : DateLimits) (checks : Bool) (threshold : List Char)
    (dates : Dates limits) (path : String) (tasksDir : Option (Except String Board))
    (now : limits.Instant) (smaller greater : Nat), smaller ≤ greater →
      SelectsByAge checks threshold dates path tasksDir now smaller greater := by
  intro h
  have hselects :=
    h chronoLimits false "30500568904944w".toList noDates "tasks" none spring 0 0 le_rfl
  have hdigits : "30500568904944".toList.all Char.isDigit = true := by decide
  have hfits := (parseAgeThreshold_exact_iff _ _).mp hselects.exact
    "30500568904944".toList 'w' 604800 (by decide) (by decide) (List.all_eq_true.mp hdigits) rfl
    (by decide)
  exact absurd hfits (by decide)

end Batty
