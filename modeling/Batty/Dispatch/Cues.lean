import Batty.Foundation.Text

/-!
# Cues in a task's body

Two things are read from the prose of a task: the role that owns it (`parseBodyOwnerRole`) and
the tasks it waits for (`parseBodyDependencyIds`). Both go line by line through the body and
stop at the first find.
-/

namespace Batty

/-- Hyphenated lowercase words that are descriptions, not engineer roles. -/
def nonRoleHyphenTokens : List String :=
  ["role-flexible", "strategic-analysis", "narrative-audit", "north-star", "any-engineer"]

/-- The maximal runs of lowercase letters and hyphens that start with a letter; `run` is the one
being read. -/
def roleRuns (run : List Char) : List Char → List (List Char)
  | [] => if run = [] then [] else [run]
  | c :: text =>
    if run = [] then
      if c.isLower then roleRuns [c] text else roleRuns [] text
    else if c.isLower || c = '-' then roleRuns (run ++ [c]) text
    else run :: roleRuns [] text

/-- The first run that looks like a role name, without the hyphens at its end. -/
def firstRoleTokenAfter (text : List Char) : Option String :=
  ((roleRuns [] text).map fun run =>
      String.ofList (Text.trimEndMatches (· = '-') run)).find? fun token =>
    token.toList.contains '-' && token.toList.head? != some '-' &&
      !nonRoleHyphenTokens.contains token

def routingCues : List String :=
  ["Owner:", "OWNER:", "Route:", "Primary:", "Owner routing", "route to", "dispatch to",
    "assign to"]

/-- A cue counts at the start of a line or behind a separator, not inside a longer word. -/
def cueBoundary (before : List Char) : Bool :=
  match before.getLast? with
  | none => true
  | some c => Text.isWhitespace c || "-*_([.;:,".toList.contains c

/-- The role a body names as the owner of its task. -/
def parseBodyOwnerRole (body : String) : Option String :=
  (Text.lines body.toList).findSome? fun line =>
    routingCues.findSome? fun cue =>
      (Text.occurrences cue.toList line).findSome? fun (before, after) =>
        if cueBoundary before then firstRoleTokenAfter after else none

/-- The text of a dependency line. -/
def bodyDependencyReference (line : List Char) : Option (List Char) :=
  let trimmed := Text.trim (Text.trimStartMatches (· = '-') (Text.trim line))
  let lower := Text.toAsciiLowercase trimmed
  if "blocked on:".toList.isPrefixOf lower || "depends on:".toList.isPrefixOf lower then
    some trimmed
  else none

/-- The task ids of the first dependency line; the list is empty when the line names a blocker
that is no task, and there is none when there is no such line. -/
def parseBodyDependencyIds (body : String) : Option (List Nat) :=
  ((Text.lines body.toList).findSome? bodyDependencyReference).map fun reference =>
    ((reference.splitOn '#').drop 1).filterMap fun piece =>
      Text.parseU32 (piece.takeWhile Char.isDigit)

example : parseBodyDependencyIds "- Blocked on: #65, #66" = some [65, 66] := by decide

end Batty
