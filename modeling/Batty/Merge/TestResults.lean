import Batty.Foundation.Patterns
import Batty.Foundation.Substrings
import Batty.Foundation.Text
import Batty.Merge.MainSmoke

/-!
# Test results

What a test command has printed is read in three ways, by the name of the command. The counts come
from the first summary that is found, the failures from the lines, and where there is no summary
the exit status stands in for the count of failures.
-/

namespace Batty

open Text Pattern

/-- A test that failed. -/
structure TestFailure where
  testName : List Char
  message : Option (List Char)
  location : Option (List Char)

/-- What a framework reported. -/
structure TestResults where
  framework : String
  total : Option Nat
  passed : Nat
  failed : Nat
  ignored : Nat
  failures : List TestFailure
  summary : Option (List Char)

/-! ### Patterns -/

/-- The classes of signs that the patterns know of, and what a decimal sign is worth. -/
structure Alphabet where
  isDecimal : Char → Bool
  isWordSign : Char → Bool
  value : Char → Nat
  plus : isDecimal '+' = false
  digit : ∀ c, c.isDigit = true → value c = c.toNat - '0'.toNat

section

variable (alphabet : Alphabet)

def blanks : Pattern Char := some1 true (sign isWhitespace)

def decimals : Pattern Char := some1 true (sign alphabet.isDecimal)

/-- Any signs of one line, as few of them as will do. -/
def fewSigns : Pattern Char := some1 false (sign fun c => c ≠ '\n')

def theWord (word : String) : Pattern Char := literal word.toList

def cargoSummaryPattern : Pattern Char :=
  chain [theWord "test result:", blanks, choice (theWord "ok") (theWord "FAILED"), theWord ".",
    blanks, group 1 (decimals alphabet), blanks, theWord "passed;",
    blanks, group 2 (decimals alphabet), blanks, theWord "failed;",
    blanks, group 3 (decimals alphabet), blanks, theWord "ignored;"]

def blockHeaderPattern : Pattern Char :=
  chain [start, theWord "----", blanks, group 1 fewSigns, blanks, theWord "stdout", blanks,
    theWord "----", finish]

def pytestSummaryPattern : Pattern Char :=
  let equals := some1 true (sign fun c => c = '=')
  let entry := chain [decimals alphabet, blanks, some1 true (sign alphabet.isWordSign),
    opt (chain [theWord ",", many true (sign isWhitespace)])]
  chain [equals, blanks, group 1 (some1 true entry), blanks, theWord "in", blanks,
    some1 true (sign fun c => c.isDigit || c = '.'), theWord "s", blanks, equals]

def pytestFailurePattern : Pattern Char :=
  let underscores := chain [theWord "_", some1 true (theWord "_")]
  chain [start, underscores, blanks, group 1 fewSigns, blanks, underscores, finish]

def pytestLocationPattern : Pattern Char :=
  chain [start, group 1 fewSigns, theWord ":", group 2 (decimals alphabet), theWord ":", blanks,
    choice (theWord "AssertionError") (chain [theWord "E", blanks])]

def jestSummaryPattern : Pattern Char :=
  let more (index : Nat) (word : String) :=
    opt (chain [theWord ",", blanks, group index (decimals alphabet), blanks, theWord word])
  chain [theWord "Tests:", blanks, group 1 (decimals alphabet), blanks, theWord "failed",
    more 2 "skipped", more 3 "passed", more 4 "total"]

def jestFailLinePattern : Pattern Char :=
  let anyBlanks := many true (sign isWhitespace)
  chain [start, anyBlanks, sign fun c => c = 'x' || c = 'X', blanks, group 1 fewSigns, blanks,
    theWord "(", group 2 (decimals alphabet), anyBlanks, theWord "ms)", anyBlanks, finish]

def jestSuitePattern : Pattern Char :=
  chain [start, theWord "FAIL", blanks, group 1 (some1 true (sign fun c => c ≠ '\n')), finish]

end

/-- A group that always takes part in a finding. -/
def Pattern.Found.text (found : Found Char) (index : Nat) : List Char :=
  (found.get? index).getD []

/-! ### Cargo -/

def normalizeMessage (message : List Char) : List Char :=
  [' '].intercalate (splitWhitespace message)

/-- The last occurrence is the first one from behind. -/
def rsplitOnce (sub s : List Char) : Option (List Char × List Char) :=
  (splitOnce sub.reverse s.reverse).map fun found => (found.2.reverse, found.1.reverse)

def stripSuffix (suffix s : List Char) : Option (List Char) :=
  if suffix <:+ s then some (s.take (s.length - suffix.length)) else none

def looksLikeLocation (value : List Char) : Bool :=
  match (value.splitOn ':').reverse with
  | column :: line :: _ => column.all Char.isDigit && line.all Char.isDigit
  | _ => false

def parseCargoPanicLine (line : List Char) : Option (List Char × Option (List Char)) := do
  let (_, after) ← splitOnce "panicked at ".toList line
  let rest := trim after
  let withMessage := (rsplitOnce ", ".toList rest).bind fun (message, location) =>
    let quote (c : Char) : Bool := c = '\''
    let normalized := normalizeMessage (trimEndMatches quote (trimStartMatches quote message))
    if normalized ≠ [] ∧ looksLikeLocation location then some (trim location, some normalized)
    else none
  let location := trim ((stripSuffix [':'] rest).getD rest)
  withMessage <|> if looksLikeLocation location then some (location, none) else none

/-- What is noted of the block under way. -/
structure Noted where
  message : Option (List Char)
  location : Option (List Char)
deriving DecidableEq

def Noted.nothing : Noted := { message := none, location := none }

def isMessageLine (trimmed : List Char) : Bool :=
  !trimmed.isEmpty && !"stack backtrace:".toList.isPrefixOf trimmed &&
    !"note:".toList.isPrefixOf trimmed && !"failures:".toList.isPrefixOf trimmed

def Noted.line (noted : Noted) (line : List Char) : Noted :=
  let trimmed := trim line
  match parseCargoPanicLine trimmed with
  | some (location, message) =>
    { message := if noted.message.isNone then message else noted.message
      location := some location }
  | none =>
    if noted.message.isNone && isMessageLine trimmed then
      { noted with message := some (normalizeMessage trimmed) }
    else noted

/-- The state between two lines of cargo. -/
structure CargoScan where
  failures : List TestFailure
  currentName : Option (List Char)
  noted : Noted

def blockHeader (line : List Char) : Option (List Char) :=
  (blockHeaderPattern.find (trim line)).map fun found => trim (found.text 1)

def failureOf (name : List Char) (noted : Noted) : TestFailure :=
  { testName := name, message := noted.message, location := noted.location }

/-- What is pending is taken, where a name is. -/
def CargoScan.flush (scan : CargoScan) : CargoScan :=
  match scan.currentName with
  | some name =>
    { failures := scan.failures ++ [failureOf name scan.noted], currentName := none
      noted := .nothing }
  | none => scan

def CargoScan.line (scan : CargoScan) (line : List Char) : CargoScan :=
  match blockHeader line with
  | some name => { scan.flush with currentName := some name }
  | none =>
    if scan.currentName.isNone then scan
    else { scan with noted := scan.noted.line line }

def cargoFailures (output : List Char) : List TestFailure :=
  let scan : CargoScan := { failures := [], currentName := none, noted := .nothing }
  ((lines output).foldl CargoScan.line scan).flush.failures

/-- A number that is not read counts as none. -/
def countOf (digits : List Char) : Nat := (parseU32 digits).getD 0

/-- The sum in 32 bits: there is none where it does not fit. -/
def checkedAdd (a b : Nat) : Option Nat := if a + b < 2 ^ 32 then some (a + b) else none

def checkedTotal (passed failed ignored : Nat) : Option Nat := do
  let ran ← checkedAdd passed failed
  checkedAdd ran ignored

/-- The count of a list as a number of 32 bits. -/
def lengthU32 (failures : List TestFailure) : Nat := failures.length % 2 ^ 32

/-- Read the output of cargo, line by line. -/
def parseCargoTest (alphabet : Alphabet) (output : List Char) (passed : Bool) :
    Option TestResults :=
  let failures := cargoFailures output
  match (cargoSummaryPattern alphabet).find output with
  | some found => do
    let passedCount := countOf (found.text 1)
    let failedCount := countOf (found.text 2)
    let ignoredCount := countOf (found.text 3)
    let total ← checkedTotal passedCount failedCount ignoredCount
    return {
      framework := "cargo", total := some total, passed := passedCount
      failed := max failedCount (lengthU32 failures), ignored := ignoredCount, failures
      summary := some found.matched }
  | none =>
    some
      { framework := "cargo", total := none, passed := 0
        failed := max (if passed then 0 else 1) (lengthU32 failures), ignored := 0, failures
        summary := none }

/-! ### Pytest -/

/-- The results before anything is read. -/
def TestResults.unread (framework : String) (passed : Bool) : TestResults where
  framework := framework
  total := none
  passed := 0
  failed := if passed then 0 else 1
  ignored := 0
  failures := []
  summary := none

def isIgnoredWord (word : List Char) : Bool :=
  word = "skipped".toList || word = "xfailed".toList || word = "xpassed".toList

def TestResults.chunk (results : TestResults) (chunk : List Char) : Option TestResults :=
  match splitWhitespace chunk with
  | digits :: word :: _ =>
    if word = "passed".toList then some { results with passed := countOf digits }
    else if word = "failed".toList then some { results with failed := countOf digits }
    else if isIgnoredWord word then
      (checkedAdd results.ignored (countOf digits)).map fun ignored => { results with ignored }
    else some results
  | _ => some results

/-- The state between two lines of pytest. -/
structure PytestScan where
  failures : List TestFailure
  current : Option TestFailure

def PytestScan.flush (scan : PytestScan) : PytestScan :=
  { failures := scan.failures ++ scan.current.toList, current := none }

def trimStartErrors : List Char → List Char
  | 'E' :: ' ' :: s => trimStartErrors s
  | s => s

def pytestHeading (line : List Char) : Option (List Char) :=
  (pytestFailurePattern.find (trimEndMatches isWhitespace line)).map fun found =>
    trim (found.text 1)

def TestFailure.pytestLine (alphabet : Alphabet) (failure : TestFailure) (line : List Char) :
    TestFailure :=
  let trimmed := trimEndMatches isWhitespace line
  let location :=
    if failure.location.isNone then (pytestLocationPattern alphabet).find trimmed else none
  match location with
  | some found => { failure with location := some (trim (found.text 1) ++ ':' :: found.text 2) }
  | none =>
    if failure.message.isNone && "E ".toList.isPrefixOf trimmed then
      { failure with message := some (normalizeMessage (trimStartErrors trimmed)) }
    else failure

def PytestScan.line (alphabet : Alphabet) (scan : PytestScan) (line : List Char) : PytestScan :=
  match pytestHeading line with
  | some name =>
    { scan.flush with current := some { testName := name, message := none, location := none } }
  | none =>
    { scan with current := scan.current.map fun failure => failure.pytestLine alphabet line }

def pytestFailures (alphabet : Alphabet) (output : List Char) : List TestFailure :=
  let scan : PytestScan := { failures := [], current := none }
  ((lines output).foldl (PytestScan.line alphabet) scan).flush.failures

def readPytestSummary (alphabet : Alphabet) (output : List Char) (results : TestResults) :
    Option TestResults :=
  match (pytestSummaryPattern alphabet).find output with
  | some found => do
    let summaryText := found.text 1
    let counted ← (summaryText.splitOn ',').foldlM TestResults.chunk
      { results with summary := some summaryText }
    let total ← checkedTotal counted.passed counted.failed counted.ignored
    return { counted with total := some total }
  | none => some results

/-- There are at least as many failures as were listed. -/
def TestResults.withFailures (results : TestResults) (failures : List TestFailure) : TestResults :=
  { results with failures, failed := max results.failed (lengthU32 failures) }

@[simp] theorem TestResults.failures_withFailures (results : TestResults)
    (failures : List TestFailure) : (results.withFailures failures).failures = failures := rfl

def parsePytest (alphabet : Alphabet) (output : List Char) (passed : Bool) :
    Option TestResults :=
  (readPytestSummary alphabet output (.unread "pytest" passed)).map fun results =>
    results.withFailures (pytestFailures alphabet output)

/-! ### Jest -/

/-- The state between two lines of jest. -/
structure JestScan where
  failures : List TestFailure
  currentSuite : Option (List Char)

def jestSuite (line : List Char) : Option (List Char) :=
  (jestSuitePattern.find (trimEndMatches isWhitespace line)).map fun found => trim (found.text 1)

def jestFailLine (alphabet : Alphabet) (line : List Char) : Option (List Char) :=
  ((jestFailLinePattern alphabet).find (trimEndMatches isWhitespace line)).map fun found =>
    trim (found.text 1)

def JestScan.line (alphabet : Alphabet) (scan : JestScan) (line : List Char) : JestScan :=
  match jestSuite line, jestFailLine alphabet line with
  | some suite, _ => { scan with currentSuite := some suite }
  | none, some name =>
    let testName := match scan.currentSuite with
      | some suite => suite ++ " :: ".toList ++ name
      | none => name
    { scan with failures := scan.failures ++ [{ testName, message := none, location := none }] }
  | none, none => scan

def jestFailures (alphabet : Alphabet) (output : List Char) : List TestFailure :=
  let scan : JestScan := { failures := [], currentSuite := none }
  ((lines output).foldl (JestScan.line alphabet) scan).failures

def readJestSummary (alphabet : Alphabet) (output : List Char) (results : TestResults) :
    Option TestResults :=
  match (jestSummaryPattern alphabet).find output with
  | some found => do
    let failed := (parseU32 (found.text 1)).getD results.failed
    let ignored := ((found.get? 2).bind parseU32).getD 0
    let passed := ((found.get? 3).bind parseU32).getD 0
    -- The sum is taken even where a total is printed.
    let sum ← checkedTotal passed failed ignored
    let total := ((found.get? 4).bind parseU32).getD sum
    return { results with
      failed, ignored, passed, total := some total, summary := some found.matched }
  | none => some results

def parseJest (alphabet : Alphabet) (output : List Char) (passed : Bool) :
    Option TestResults :=
  (readJestSummary alphabet output (.unread "jest" passed)).map fun results =>
    results.withFailures (jestFailures alphabet output)

/-! ### The three ways -/

/-- The frameworks whose output is read. -/
inductive TestFramework where
  | pytest
  | jest
  | cargo

def testFramework (commandText : List Char) : TestFramework :=
  let command := toAsciiLowercase commandText
  if "pytest".toList <:+: command then .pytest
  else if "jest".toList <:+: command then .jest
  else .cargo

def parseTestOutput (alphabet : Alphabet) (commandText output : List Char) (passed : Bool) :
    Option TestResults :=
  match testFramework commandText with
  | .pytest => parsePytest alphabet output passed
  | .jest => parseJest alphabet output passed
  | .cargo => parseCargoTest alphabet output passed

end Batty
