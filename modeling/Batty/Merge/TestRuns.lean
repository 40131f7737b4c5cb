import Batty.Foundation.LineEnds
import Batty.Merge.TestResults
import Mathlib.Algebra.BigOperators.Group.List.Basic
import Mathlib.Algebra.Order.BigOperators.Group.List
import Mathlib.Algebra.Order.Ring.Nat

/-!
# Test results and the run

A run of tests may print one summary for each binary, captured output of any kind, and numbers of
any size. `resultsAgree_iff` says for which outputs the results agree with it: the first summary
has to stand for all of them, with numbers that fit, and no block of captured output may be added to
by what is printed behind it.
-/

namespace Batty

open Text Pattern

/-! ### What the results are for -/

/-- A block of captured output: the lines from its header up to the next one. -/
structure TestBlock where
  name : List Char
  lines : List (List Char)

def testBlocks : List (List Char) → List TestBlock
  | [] => []
  | line :: lines =>
    match blockHeader line with
    | some name =>
      { name, lines := lines.takeWhile fun line => (blockHeader line).isNone } :: testBlocks lines
    | none => testBlocks lines

def endsBlocks (line : List Char) : Bool := trim line = "failures:".toList

/-- The lines of the block itself. Behind the last block the names of the failures are listed. -/
def TestBlock.own (block : TestBlock) : List (List Char) :=
  block.lines.takeWhile fun line => !endsBlocks line

def TestBlock.behind (block : TestBlock) : List (List Char) :=
  block.lines.dropWhile fun line => !endsBlocks line

section

variable (alphabet : Alphabet) (commandText output : List Char) (passed : Bool)

/-- The number that is written in decimal signs. -/
def Alphabet.number (digits : List Char) : Nat :=
  digits.foldl (fun n c => 10 * n + alphabet.value c) 0

def cargoSummaries : List (Found Char) := (cargoSummaryPattern alphabet).findAll output

def cargoSum (index : Nat) : Nat :=
  ((cargoSummaries alphabet output).map fun found => alphabet.number (found.text index)).sum

/-- A run that failed has failures, and the total is that of the counts. -/
def TestResults.Consistent (results : TestResults) (passed : Bool) : Prop :=
  (passed = false → 1 ≤ results.failed) ∧
    ∀ total ∈ results.total, total = results.passed + results.failed + results.ignored

/-- The results tell what the run of the tests has printed. -/
def ResultsAgree : Prop :=
  ∃ results, parseTestOutput alphabet commandText output passed = some results ∧
    results.Consistent passed ∧
    (testFramework commandText = .cargo →
      (cargoSummaries alphabet output ≠ [] →
        results.passed = cargoSum alphabet output 1 ∧
        results.failed = cargoSum alphabet output 2 ∧
        results.ignored = cargoSum alphabet output 3) ∧
      results.failures = (testBlocks (lines output)).map fun block =>
        failureOf block.name (block.own.foldl Noted.line .nothing))

/-! ### When they do -/

def panicLocation (line : List Char) : Option (List Char) :=
  (parseCargoPanicLine (trim line)).map Prod.fst

/-- The message that a line has for a block that is without one. -/
def offeredMessage (line : List Char) : Option (List Char) :=
  match parseCargoPanicLine (trim line) with
  | some (_, message) => message
  | none => if isMessageLine (trim line) then some (normalizeMessage (trim line)) else none

/-- What stands behind a block adds nothing to it: no message where it has none itself, and as the
last place of a panic only its own. -/
structure TestBlock.ClosedOff (block : TestBlock) : Prop where
  message : block.own.findSome? offeredMessage = none →
    ∀ line ∈ block.behind, offeredMessage line = none
  location : ∀ place, block.behind.reverse.findSome? panicLocation = some place →
    block.own.reverse.findSome? panicLocation = some place

/-- The counts of the first summary stand for all. -/
structure FirstSummaryTells (first : Found Char) (others : List (Found Char)) : Prop where
  read : ∀ index ∈ [1, 2, 3],
    countOf (first.text index) = alphabet.number (first.text index)
  only : ∀ index ∈ [1, 2, 3], ∀ other ∈ others, alphabet.number (other.text index) = 0
  fits : alphabet.number (first.text 1) + alphabet.number (first.text 2) +
    alphabet.number (first.text 3) < 2 ^ 32
  blocks : (testBlocks (lines output)).length % 2 ^ 32 ≤ alphabet.number (first.text 2)
  exit : passed = true ∨ 1 ≤ alphabet.number (first.text 2)

def CargoTells : Prop :=
  (∀ block ∈ testBlocks (lines output), block.ClosedOff) ∧
    ∀ first others, cargoSummaries alphabet output = first :: others →
      FirstSummaryTells alphabet output passed first others

/-- A count of a pytest summary with the word behind it. -/
def pytestEntry (chunk : List Char) : Option (List Char × Nat) :=
  match splitWhitespace chunk with
  | digits :: word :: _ => some (word, countOf digits)
  | _ => none

def pytestCounts (summaryText : List Char) : List (List Char × Nat) :=
  (summaryText.splitOn ',').filterMap pytestEntry

/-- The last count for a word. -/
def lastCount (word : String) (counts : List (List Char × Nat)) (otherwise : Nat) : Nat :=
  ((counts.reverse.find? fun entry => entry.1 = word.toList).map Prod.snd).getD otherwise

def ignoredSum (counts : List (List Char × Nat)) : Nat :=
  ((counts.filter fun entry => isIgnoredWord entry.1).map Prod.snd).sum

def pytestHeadings : Nat :=
  (lines output).countP fun line => (pytestHeading line).isSome

def PytestTells : Prop :=
  ∀ found, (pytestSummaryPattern alphabet).find output = some found →
    let counts := pytestCounts (found.text 1)
    let failed := lastCount "failed" counts (if passed then 0 else 1)
    lastCount "passed" counts 0 + failed + ignoredSum counts < 2 ^ 32 ∧
      pytestHeadings output % 2 ^ 32 ≤ failed ∧ (passed = true ∨ 1 ≤ failed)

def jestFailLines : Nat :=
  (lines output).countP fun line => (jestSuite line).isNone && (jestFailLine alphabet line).isSome

def JestTells : Prop :=
  ∀ found, (jestSummaryPattern alphabet).find output = some found →
    let failed := (parseU32 (found.text 1)).getD (if passed then 0 else 1)
    let ignored := ((found.get? 2).bind parseU32).getD 0
    let ran := ((found.get? 3).bind parseU32).getD 0
    let seen := max failed (jestFailLines alphabet output % 2 ^ 32)
    ran + failed + ignored < 2 ^ 32 ∧
      ((found.get? 4).bind parseU32).getD (ran + failed + ignored) = ran + seen + ignored ∧
      (passed = true ∨ 1 ≤ seen)

/-- When the results agree with the run, by the framework that the command is taken for. -/
def ResultsTell : Prop :=
  match testFramework commandText with
  | .pytest => PytestTells alphabet output passed
  | .jest => JestTells alphabet output passed
  | .cargo => CargoTells alphabet output passed

end

/-! ### Reading the blocks -/

section

variable {noted : Noted} {scan : CargoScan} {line : List Char} {lines' : List (List Char)}

theorem Noted.line_eq : noted.line line =
    { message := noted.message.or (offeredMessage line)
      location := (panicLocation line).or noted.location } := by
  obtain ⟨message, location⟩ := noted
  simp only [Noted.line, offeredMessage, panicLocation]
  cases parseCargoPanicLine (trim line) with
  | some panic => cases message <;> simp
  | none => cases message <;> cases isMessageLine (trim line) <;> simp

theorem Noted.foldl_line : lines'.foldl Noted.line noted =
    { message := noted.message.or (lines'.findSome? offeredMessage)
      location := (lines'.reverse.findSome? panicLocation).or noted.location } := by
  induction lines' generalizing noted with
  | nil => simp
  | cons line lines' ih =>
    have hlast : [line].findSome? panicLocation = panicLocation line := by
      cases hpanic : panicLocation line <;> simp [hpanic]
    rw [List.foldl_cons, ih, Noted.line_eq, List.findSome?_cons, List.reverse_cons,
      List.findSome?_append, hlast, Option.or_assoc, Option.or_assoc]
    cases offeredMessage line <;> simp

theorem CargoScan.flush_foldl (hnoted : scan.currentName = none → scan.noted = .nothing) :
    (lines'.foldl CargoScan.line scan).flush.failures =
      scan.failures ++
        (scan.currentName.toList.map fun name => failureOf name
          ((lines'.takeWhile fun line => (blockHeader line).isNone).foldl Noted.line scan.noted)) ++
        (testBlocks lines').map fun block =>
          failureOf block.name (block.lines.foldl Noted.line .nothing) := by
  induction lines' generalizing scan with
  | nil => cases hname : scan.currentName <;> simp [CargoScan.flush, hname, testBlocks]
  | cons line lines' ih =>
    rw [List.foldl_cons, testBlocks]
    cases hheader : blockHeader line with
    | some name =>
      -- What is pending is taken as it is, and the new block begins with nothing noted.
      have hline : scan.line line = { scan.flush with currentName := some name } := by
        rw [CargoScan.line, hheader]
      have hflushed : scan.flush.noted = .nothing := by
        unfold CargoScan.flush
        cases hname : scan.currentName with
        | none => exact hnoted hname
        | some name => rfl
      rw [hline, ih fun h => by cases h]
      simp only [hflushed]
      cases hname : scan.currentName <;> simp [CargoScan.flush, hname, hheader]
    | none =>
      cases hname : scan.currentName with
      | none =>
        have hline : scan.line line = scan := by
          rw [CargoScan.line, hheader]
          simp [hname]
        rw [hline, ih hnoted, hname]
        simp
      | some name =>
        have hline : scan.line line = { scan with noted := scan.noted.line line } := by
          rw [CargoScan.line, hheader]
          simp [hname]
        rw [hline, ih fun h => by rw [hname] at h; cases h]
        simp [hname, hheader]

theorem cargoFailures_eq (output : List Char) : cargoFailures output =
    (testBlocks (lines output)).map fun block =>
      failureOf block.name (block.lines.foldl Noted.line .nothing) := by
  rw [cargoFailures, CargoScan.flush_foldl fun _ => rfl]
  simp

theorem lengthU32_cargoFailures (output : List Char) :
    lengthU32 (cargoFailures output) = (testBlocks (lines output)).length % 2 ^ 32 := by
  rw [cargoFailures_eq, lengthU32, List.length_map]

theorem or_eq_left_iff {α : Type} {a b : Option α} : a.or b = a ↔ (a = none → b = none) := by
  cases a <;> simp

theorem or_eq_right_iff {α : Type} {a b : Option α} :
    a.or b = b ↔ ∀ x, a = some x → b = some x := by
  cases a with
  | none => simp
  | some x => simp [eq_comm]

theorem closedOff_iff (block : TestBlock) : block.ClosedOff ↔
    block.lines.foldl Noted.line .nothing = block.own.foldl Noted.line .nothing := by
  have hlines : block.lines = block.own ++ block.behind :=
    List.takeWhile_append_dropWhile.symm
  rw [hlines, List.foldl_append, Noted.foldl_line, Noted.foldl_line, Noted.mk.injEq]
  simp only [Noted.nothing, Option.none_or, Option.or_none]
  have hnone : block.behind.findSome? offeredMessage = none ↔
      ∀ line ∈ block.behind, offeredMessage line = none := List.findSome?_eq_none_iff
  rw [or_eq_left_iff, or_eq_right_iff, hnone]
  exact ⟨fun h => ⟨h.message, h.location⟩, fun h => ⟨h.1, h.2⟩⟩

theorem failureOf_inj {name : List Char} {noted' : Noted} :
    failureOf name noted = failureOf name noted' ↔ noted = noted' := by
  cases noted
  cases noted'
  simp [failureOf]

/-- **The failures are those of the blocks themselves** where every block is closed off. -/
theorem cargoFailures_eq_own_iff (output : List Char) :
    (cargoFailures output = (testBlocks (lines output)).map fun block =>
      failureOf block.name (block.own.foldl Noted.line .nothing)) ↔
        ∀ block ∈ testBlocks (lines output), block.ClosedOff := by
  rw [cargoFailures_eq, List.map_inj_left]
  simp only [failureOf_inj, closedOff_iff]

end

/-! ### Reading the summary -/

section

variable {alphabet : Alphabet} {output digits : List Char} {passed : Bool}

theorem number_of_parseU32 {n : Nat} (hdecimal : ∀ c ∈ digits, alphabet.isDecimal c = true)
    (h : parseU32 digits = some n) : n = alphabet.number digits := by
  have hsign : ∀ rest, digits ≠ '+' :: rest := fun rest hdigits => by
    have hplus := hdecimal '+' (hdigits ▸ List.mem_cons_self)
    rw [alphabet.plus] at hplus
    cases hplus
  have hfold : ∀ init, (∀ c ∈ digits, c.isDigit = true) →
      Nat.ofDigitChars 10 digits init =
        digits.foldl (fun n c => 10 * n + alphabet.value c) init := by
    intro init hdigits
    rw [Nat.ofDigitChars]
    exact List.foldl_ext _ _ _ fun n c hc => by rw [alphabet.digit c (hdigits c hc)]
  unfold parseU32 at h
  split at h
  · exact absurd rfl (hsign _)
  · simp only [Option.ite_none_left_eq_some, Option.ite_none_right_eq_some, Option.some.injEq,
      Bool.or_eq_true, Bool.not_eq_true', not_or, Bool.not_eq_false, List.all_eq_true] at h
    obtain ⟨⟨-, hdigits⟩, -, rfl⟩ := h
    exact hfold 0 hdigits

theorem countOf_eq_or (hdecimal : ∀ c ∈ digits, alphabet.isDecimal c = true) :
    countOf digits = alphabet.number digits ∨ countOf digits = 0 := by
  unfold countOf
  cases hparse : parseU32 digits with
  | none => exact .inr rfl
  | some n => exact .inl (number_of_parseU32 hdecimal hparse)

theorem bodies_theWord (word : String) : (theWord word).bodies = [] := by
  unfold theWord literal
  generalize word.toList = signs
  induction signs with
  | nil => rfl
  | cons c signs ih => simpa [bodies] using ih

/-- The groups of a summary capture decimal signs only. -/
theorem isDecimal_of_mem_cargoSummaries {found : Found Char}
    (h : found ∈ cargoSummaries alphabet output) (index : Nat) :
    ∀ c ∈ found.text index, alphabet.isDecimal c = true := by
  obtain ⟨atStart, s, hways⟩ := exists_ways_of_mem_findAll h
  intro c hc
  unfold Found.text at hc
  cases hget : found.get? index with
  | none =>
    rw [hget] at hc
    exact absurd hc List.not_mem_nil
  | some digits =>
    rw [hget] at hc
    obtain ⟨body, hbody, atStart, s, inner, hinner, htaken⟩ :=
      captures_of_mem_groups hways _ (Found.mem_groups_of_get? hget)
    have hdecimals : body = decimals alphabet := by
      simp only [cargoSummaryPattern, chain, List.foldr_cons, List.foldr_nil, bodies,
        bodies_theWord, blanks, some1, decimals, List.nil_append, List.append_nil,
        List.mem_append, List.mem_singleton, Prod.mk.injEq] at hbody
      rcases hbody with ⟨-, hbody⟩ | ⟨-, hbody⟩ | ⟨-, hbody⟩ <;> exact hbody
    subst hdecimals
    have hall := matched_some1_sign hinner
    rw [htaken] at hall
    exact hall c hc

end

/-! ### Counting -/

section

theorem checkedTotal_eq (passed failed ignored : Nat) : checkedTotal passed failed ignored =
    if passed + failed + ignored < 2 ^ 32 then some (passed + failed + ignored) else none := by
  unfold checkedTotal checkedAdd
  by_cases hran : passed + failed < 2 ^ 32
  · rw [if_pos hran]
    rfl
  · rw [if_neg hran, if_neg (by omega)]
    rfl

variable {alphabet : Alphabet} {output : List Char} {passed : Bool} {first : Found Char}
  {others : List (Found Char)}

theorem cargoSum_cons (h : cargoSummaries alphabet output = first :: others) (index : Nat) :
    cargoSum alphabet output index = alphabet.number (first.text index) +
      (others.map fun found => alphabet.number (found.text index)).sum := by
  rw [cargoSum, h, List.map_cons, List.sum_cons]

/-- The count of the first summary is the sum over all of them only if it is read for what it is
and the others have nothing to add. -/
theorem countOf_eq_cargoSum_iff (h : cargoSummaries alphabet output = first :: others)
    (index : Nat) : countOf (first.text index) = cargoSum alphabet output index ↔
      countOf (first.text index) = alphabet.number (first.text index) ∧
        ∀ other ∈ others, alphabet.number (other.text index) = 0 := by
  have hfirst : first ∈ cargoSummaries alphabet output := h ▸ List.mem_cons_self
  -- A count that is not read is 0, which no sum makes good.
  have hor := countOf_eq_or (isDecimal_of_mem_cargoSummaries hfirst index)
  have hzero : (others.map fun found => alphabet.number (found.text index)).sum = 0 ↔
      ∀ other ∈ others, alphabet.number (other.text index) = 0 := by
    rw [List.sum_eq_zero_iff]
    simp
  rw [cargoSum_cons h, ← hzero]
  omega

theorem parseCargoTest_nil (h : cargoSummaries alphabet output = []) :
    parseCargoTest alphabet output passed =
      some ((TestResults.unread "cargo" passed).withFailures (cargoFailures output)) := by
  have hfind : (cargoSummaryPattern alphabet).find output = none := by
    rw [← head?_findAll, ← cargoSummaries, h]
    rfl
  rw [parseCargoTest, hfind]
  rfl

theorem parseCargoTest_cons (h : cargoSummaries alphabet output = first :: others) :
    parseCargoTest alphabet output passed =
      if countOf (first.text 1) + countOf (first.text 2) + countOf (first.text 3) < 2 ^ 32 then
        some
          { framework := "cargo"
            total := some
              (countOf (first.text 1) + countOf (first.text 2) + countOf (first.text 3))
            passed := countOf (first.text 1)
            failed := max (countOf (first.text 2)) (lengthU32 (cargoFailures output))
            ignored := countOf (first.text 3), failures := cargoFailures output
            summary := some first.matched }
      else none := by
  have hfind : (cargoSummaryPattern alphabet).find output = some first := by
    rw [← head?_findAll, ← cargoSummaries, h]
    rfl
  simp only [parseCargoTest, hfind, checkedTotal_eq]
  split <;> rfl

theorem lastCount_cons (word : String) (entry : List Char × Nat)
    (counts : List (List Char × Nat)) (otherwise : Nat) :
    lastCount word (entry :: counts) otherwise =
      lastCount word counts (if entry.1 = word.toList then entry.2 else otherwise) := by
  unfold lastCount
  rw [List.reverse_cons, List.find?_append]
  cases counts.reverse.find? fun entry => entry.1 = word.toList with
  | some found => rfl
  | none =>
    by_cases hword : entry.1 = word.toList <;> simp [hword]

theorem ignoredSum_cons (entry : List Char × Nat) (counts : List (List Char × Nat)) :
    ignoredSum (entry :: counts) =
      (if isIgnoredWord entry.1 then entry.2 else 0) + ignoredSum counts := by
  unfold ignoredSum
  by_cases hword : isIgnoredWord entry.1 = true <;> simp [hword]

end

/-! ### The counts of pytest and jest -/

section

variable {alphabet : Alphabet} {results : TestResults} {chunk : List Char}

theorem chunk_none (h : pytestEntry chunk = none) : results.chunk chunk = some results := by
  rcases hwords : splitWhitespace chunk with - | ⟨digits, - | ⟨word, rest⟩⟩
  · simp only [TestResults.chunk, hwords]
  · simp only [TestResults.chunk, hwords]
  · simp [pytestEntry, hwords] at h

theorem chunk_some {word : List Char} {count : Nat} (h : pytestEntry chunk = some (word, count))
    (hignored : results.ignored < 2 ^ 32) : results.chunk chunk =
      if results.ignored + (if isIgnoredWord word then count else 0) < 2 ^ 32 then
        some { results with
          passed := if word = "passed".toList then count else results.passed
          failed := if word = "failed".toList then count else results.failed
          ignored := results.ignored + if isIgnoredWord word then count else 0 }
      else none := by
  rcases hwords : splitWhitespace chunk with - | ⟨digits, - | ⟨word', rest⟩⟩
  · simp [pytestEntry, hwords] at h
  · simp [pytestEntry, hwords] at h
  · simp only [pytestEntry, hwords, Option.some.injEq, Prod.mk.injEq] at h
    obtain ⟨rfl, rfl⟩ := h
    simp only [TestResults.chunk, hwords]
    -- No word is one of two kinds.
    by_cases hpassed : word' = "passed".toList
    · have hfailed : ¬ word' = "failed".toList := by
        rw [hpassed]
        decide
      have hword : isIgnoredWord word' = false := by
        rw [hpassed]
        decide
      simp only [if_pos hpassed, if_neg hfailed, hword, Bool.false_eq_true, if_false,
        Nat.add_zero, if_pos hignored]
    · by_cases hfailed : word' = "failed".toList
      · have hword : isIgnoredWord word' = false := by
          rw [hfailed]
          decide
        simp only [if_neg hpassed, if_pos hfailed, hword, Bool.false_eq_true, if_false,
          Nat.add_zero, if_pos hignored]
      · cases hword : isIgnoredWord word' with
        | true =>
          simp only [if_neg hpassed, if_neg hfailed, if_true, checkedAdd]
          by_cases hfits : results.ignored + countOf digits < 2 ^ 32
          · rw [if_pos hfits, if_pos hfits]
            rfl
          · rw [if_neg hfits, if_neg hfits]
            rfl
        | false =>
          simp only [if_neg hpassed, if_neg hfailed, Bool.false_eq_true, if_false, Nat.add_zero,
            if_pos hignored]

/-- **A pytest summary** ends with the last count for a word, and with the sum of those that count
as ignored. -/
theorem foldlM_chunk (chunks : List (List Char)) (hignored : results.ignored < 2 ^ 32) :
    chunks.foldlM TestResults.chunk results =
      if results.ignored + ignoredSum (chunks.filterMap pytestEntry) < 2 ^ 32 then
        some { results with
          passed := lastCount "passed" (chunks.filterMap pytestEntry) results.passed
          failed := lastCount "failed" (chunks.filterMap pytestEntry) results.failed
          ignored := results.ignored + ignoredSum (chunks.filterMap pytestEntry) }
      else none := by
  -- The results so far are the counts that stand where no later one is found.
  induction chunks generalizing results with
  | nil =>
    have hsum : ignoredSum [] = 0 := rfl
    rw [List.foldlM_nil, List.filterMap_nil, hsum, Nat.add_zero, if_pos hignored]
    rfl
  | cons chunk chunks ih =>
    rw [List.foldlM_cons]
    cases hentry : pytestEntry chunk with
    | none =>
      rw [chunk_none hentry, List.filterMap_cons_none hentry]
      exact ih hignored
    | some entry =>
      obtain ⟨word, count⟩ := entry
      rw [chunk_some hentry hignored, List.filterMap_cons_some hentry, lastCount_cons,
        lastCount_cons, ignoredSum_cons, ← Nat.add_assoc]
      by_cases hfits : results.ignored + (if isIgnoredWord word then count else 0) < 2 ^ 32
      · rw [if_pos hfits, Option.bind_eq_bind, Option.bind_some, ih hfits]
      · rw [if_neg hfits, if_neg fun h => hfits (Nat.lt_of_le_of_lt (Nat.le_add_right _ _) h)]
        rfl

theorem length_flush_pytest {scan : PytestScan} (lines' : List (List Char)) :
    (lines'.foldl (PytestScan.line alphabet) scan).flush.failures.length =
      scan.failures.length + scan.current.toList.length +
        lines'.countP fun line => (pytestHeading line).isSome := by
  induction lines' generalizing scan with
  | nil => simp [PytestScan.flush]
  | cons line lines' ih =>
    rw [List.foldl_cons, ih, PytestScan.line]
    cases hheading : pytestHeading line with
    | some name =>
      simp [PytestScan.flush, hheading]
      omega
    | none => cases scan.current <;> simp [hheading]

theorem length_jest {scan : JestScan} (lines' : List (List Char)) :
    (lines'.foldl (JestScan.line alphabet) scan).failures.length =
      scan.failures.length + lines'.countP fun line =>
        (jestSuite line).isNone && (jestFailLine alphabet line).isSome := by
  induction lines' generalizing scan with
  | nil => simp
  | cons line lines' ih =>
    rw [List.foldl_cons, ih, JestScan.line]
    cases hsuite : jestSuite line with
    | some suite => simp [hsuite]
    | none =>
      cases hfail : jestFailLine alphabet line with
      | none => simp [hsuite, hfail]
      | some name =>
        simp [hsuite, hfail]
        omega

theorem lengthU32_pytestFailures (output : List Char) :
    lengthU32 (pytestFailures alphabet output) = pytestHeadings output % 2 ^ 32 := by
  rw [lengthU32, pytestFailures, length_flush_pytest, pytestHeadings]
  simp

theorem lengthU32_jestFailures (output : List Char) :
    lengthU32 (jestFailures alphabet output) = jestFailLines alphabet output % 2 ^ 32 := by
  rw [lengthU32, jestFailures, length_jest, jestFailLines]
  simp

end

/-! ### Agreement -/

section

variable {alphabet : Alphabet} {output : List Char} {passed : Bool}

/-- Without a summary the exit status stands in for it, and no total is told. -/
theorem consistent_unread (framework : String) (passed : Bool) (failures : List TestFailure) :
    ((TestResults.unread framework passed).withFailures failures).Consistent passed := by
  refine ⟨?_, fun total htotal => nomatch htotal⟩
  rintro rfl
  exact le_max_left _ _

theorem parsePytest_eq (alphabet : Alphabet) (output : List Char) (passed : Bool) :
    parsePytest alphabet output passed =
      match (pytestSummaryPattern alphabet).find output with
      | some found =>
        let counts := pytestCounts (found.text 1)
        let ran := lastCount "passed" counts 0
        let failed := lastCount "failed" counts (if passed then 0 else 1)
        if ran + failed + ignoredSum counts < 2 ^ 32 then
          some
            { framework := "pytest", total := some (ran + failed + ignoredSum counts), passed := ran
              failed := max failed (pytestHeadings output % 2 ^ 32)
              ignored := ignoredSum counts, failures := pytestFailures alphabet output
              summary := some (found.text 1) }
        else none
      | none =>
        some ((TestResults.unread "pytest" passed).withFailures
          (pytestFailures alphabet output)) := by
  simp only [parsePytest, readPytestSummary]
  cases (pytestSummaryPattern alphabet).find output with
  | none => rfl
  | some found =>
    have hignored : ({ TestResults.unread "pytest" passed with
        summary := some (found.text 1) } : TestResults).ignored < 2 ^ 32 := Nat.two_pow_pos 32
    dsimp only
    rw [foldlM_chunk _ hignored, ← pytestCounts]
    simp only [TestResults.unread, TestResults.withFailures, lengthU32_pytestFailures,
      Nat.zero_add, checkedTotal_eq]
    generalize lastCount "failed" (pytestCounts (found.text 1)) (if passed then 0 else 1) = failed
    by_cases hsum : ignoredSum (pytestCounts (found.text 1)) < 2 ^ 32
    · rw [if_pos hsum]
      simp only [Option.bind_eq_bind, Option.bind_some]
      split <;> rfl
    · rw [if_neg hsum, if_neg (by omega)]
      rfl

theorem pytest_consistent_iff : (∃ results, parsePytest alphabet output passed = some results ∧
    results.Consistent passed) ↔ PytestTells alphabet output passed := by
  rw [parsePytest_eq, PytestTells]
  cases (pytestSummaryPattern alphabet).find output with
  | none => simpa using consistent_unread "pytest" passed (pytestFailures alphabet output)
  | some found =>
    simp only [Option.some.injEq, forall_eq']
    generalize pytestCounts (found.text 1) = counts
    generalize lastCount "failed" counts (if passed then 0 else 1) = failed
    split
    · rename_i hfits
      simp only [Option.some.injEq, exists_eq_left', TestResults.Consistent, Option.mem_def,
        forall_eq', hfits, true_and]
      cases passed with
      | false =>
        simp
        omega
      | true => simp
    · rename_i hfits
      exact ⟨fun ⟨_, hnone, _⟩ => (nomatch hnone), fun h => absurd h.1 hfits⟩

theorem parseJest_eq (alphabet : Alphabet) (output : List Char) (passed : Bool) :
    parseJest alphabet output passed =
      match (jestSummaryPattern alphabet).find output with
      | some found =>
        let failed := (parseU32 (found.text 1)).getD (if passed then 0 else 1)
        let ignored := ((found.get? 2).bind parseU32).getD 0
        let ran := ((found.get? 3).bind parseU32).getD 0
        if ran + failed + ignored < 2 ^ 32 then
          some
            { framework := "jest"
              total := some (((found.get? 4).bind parseU32).getD (ran + failed + ignored))
              passed := ran, failed := max failed (jestFailLines alphabet output % 2 ^ 32)
              ignored, failures := jestFailures alphabet output
              summary := some found.matched }
        else none
      | none =>
        some ((TestResults.unread "jest" passed).withFailures (jestFailures alphabet output)) := by
  simp only [parseJest, readJestSummary]
  cases (jestSummaryPattern alphabet).find output with
  | none => rfl
  | some found =>
    simp only [TestResults.unread, TestResults.withFailures, lengthU32_jestFailures,
      checkedTotal_eq]
    generalize (parseU32 (found.text 1)).getD (if passed then 0 else 1) = failed
    split <;> rfl

theorem jest_consistent_iff : (∃ results, parseJest alphabet output passed = some results ∧
    results.Consistent passed) ↔ JestTells alphabet output passed := by
  rw [parseJest_eq, JestTells]
  cases (jestSummaryPattern alphabet).find output with
  | none => simpa using consistent_unread "jest" passed (jestFailures alphabet output)
  | some found =>
    simp only [Option.some.injEq, forall_eq']
    generalize (parseU32 (found.text 1)).getD (if passed then 0 else 1) = failed
    split
    · rename_i hfits
      simp only [Option.some.injEq, exists_eq_left', TestResults.Consistent, Option.mem_def,
        forall_eq', hfits, true_and]
      cases passed <;> simp [and_comm]
    · rename_i hfits
      exact ⟨fun ⟨_, hnone, _⟩ => (nomatch hnone), fun h => absurd h.1 hfits⟩

/-- The first summary tells all where its counts, as they are read, are the sums. -/
theorem firstSummaryTells_iff {first : Found Char} {others : List (Found Char)}
    (h : cargoSummaries alphabet output = first :: others) :
    FirstSummaryTells alphabet output passed first others ↔
      (countOf (first.text 1) = cargoSum alphabet output 1 ∧
        countOf (first.text 2) = cargoSum alphabet output 2 ∧
        countOf (first.text 3) = cargoSum alphabet output 3) ∧
      countOf (first.text 1) + countOf (first.text 2) + countOf (first.text 3) < 2 ^ 32 ∧
      (testBlocks (lines output)).length % 2 ^ 32 ≤ countOf (first.text 2) ∧
      (passed = true ∨ 1 ≤ countOf (first.text 2)) := by
  rw [countOf_eq_cargoSum_iff h, countOf_eq_cargoSum_iff h, countOf_eq_cargoSum_iff h]
  constructor
  · intro htells
    have hread1 := htells.read 1 (by simp)
    have hread2 := htells.read 2 (by simp)
    have hread3 := htells.read 3 (by simp)
    rw [hread1, hread2, hread3]
    exact ⟨⟨⟨rfl, htells.only 1 (by simp)⟩, ⟨rfl, htells.only 2 (by simp)⟩,
      rfl, htells.only 3 (by simp)⟩, htells.fits, htells.blocks, htells.exit⟩
  · rintro ⟨⟨⟨hread1, honly1⟩, ⟨hread2, honly2⟩, hread3, honly3⟩, hfits, hblocks, hexit⟩
    rw [hread1, hread2, hread3] at hfits
    rw [hread2] at hblocks hexit
    refine ⟨?_, ?_, hfits, hblocks, hexit⟩
    · simp [hread1, hread2, hread3]
    · simpa using ⟨honly1, honly2, honly3⟩

theorem cargo_agree_cons_iff {first : Found Char} {others : List (Found Char)}
    (h : cargoSummaries alphabet output = first :: others) :
    (∃ results, parseCargoTest alphabet output passed = some results ∧
      results.Consistent passed ∧
      (results.passed = cargoSum alphabet output 1 ∧
        results.failed = cargoSum alphabet output 2 ∧
        results.ignored = cargoSum alphabet output 3) ∧
      results.failures = (testBlocks (lines output)).map fun block =>
        failureOf block.name (block.own.foldl Noted.line .nothing)) ↔
      (∀ block ∈ testBlocks (lines output), block.ClosedOff) ∧
        FirstSummaryTells alphabet output passed first others := by
  rw [firstSummaryTells_iff h, parseCargoTest_cons h, lengthU32_cargoFailures,
    ← cargoFailures_eq_own_iff]
  constructor
  · rintro ⟨results, hresults, ⟨hexit, htotal⟩, ⟨hpassed, hfailed, hignored⟩, hfailures⟩
    split at hresults
    · rename_i hfits
      obtain rfl := Option.some.inj hresults
      have htotal := htotal _ rfl
      dsimp only at hexit htotal hpassed hfailed hignored hfailures
      -- The total was taken before the blocks were counted.
      have hblocks : (testBlocks (lines output)).length % 2 ^ 32 ≤ countOf (first.text 2) := by
        omega
      rw [max_eq_left hblocks] at hexit hfailed
      exact ⟨hfailures, ⟨hpassed, hfailed, hignored⟩, hfits, hblocks,
        (Bool.eq_false_or_eq_true passed).imp id hexit⟩
    · cases hresults
  · rintro ⟨hfailures, ⟨hpassed, hfailed, hignored⟩, hfits, hblocks, hexit⟩
    rw [max_eq_left hblocks]
    refine ⟨_, if_pos hfits, ⟨?_, ?_⟩, ⟨hpassed, hfailed, hignored⟩, hfailures⟩
    · rintro rfl
      exact hexit.resolve_left Bool.false_ne_true
    · rintro total htotal
      exact (Option.some.inj htotal).symm

/-- **The results agree with the run** exactly where the first summary tells all there is, in
numbers that fit, and nothing behind a block adds to it. -/
theorem resultsAgree_iff (alphabet : Alphabet) (commandText output : List Char) (passed : Bool) :
    ResultsAgree alphabet commandText output passed ↔
      ResultsTell alphabet commandText output passed := by
  unfold ResultsAgree ResultsTell parseTestOutput
  cases testFramework commandText with
  | pytest => simpa using pytest_consistent_iff
  | jest => simpa using jest_consistent_iff
  | cargo =>
    simp only [true_implies]
    cases hsummaries : cargoSummaries alphabet output with
    | nil =>
      have hconsistent := consistent_unread "cargo" passed (cargoFailures output)
      rw [parseCargoTest_nil hsummaries, CargoTells, hsummaries, ← cargoFailures_eq_own_iff]
      simp [hconsistent]
    | cons first others =>
      have hne : first :: others ≠ [] := List.cons_ne_nil first others
      simp only [hne, true_implies, ne_eq, not_false_eq_true]
      rw [cargo_agree_cons_iff hsummaries, CargoTells, hsummaries]
      simp

end

def asciiAlphabet : Alphabet where
  isDecimal := Char.isDigit
  isWordSign := fun c => c.isAlphanum || c = '_'
  value := fun c => c.toNat - '0'.toNat
  plus := by decide
  digit := fun _ _ => rfl

/-- The unit tests pass, and a test of the documentation does not. -/
def twoBinaries : List Char :=
  ("test result: ok. 1 passed; 0 failed; 0 ignored;\n" ++
    "test result: FAILED. 0 passed; 1 failed; 0 ignored;\n").toList

/-- The second of two binaries fails, and the first one is reported. -/
theorem not_resultsAgree :
    ¬ ResultsAgree asciiAlphabet "cargo test".toList twoBinaries false := by
  rintro ⟨results, hresults, ⟨hexit, -⟩, -⟩
  have hfailed : (parseTestOutput asciiAlphabet "cargo test".toList twoBinaries false).map
      TestResults.failed = some 0 := by decide +kernel
  rw [hresults] at hfailed
  have hexit := hexit rfl
  rw [Option.some.inj hfailed] at hexit
  exact absurd hexit (by decide)

end Batty
