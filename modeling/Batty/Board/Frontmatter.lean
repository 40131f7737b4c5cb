import Mathlib.Algebra.Order.Ring.Int
import Mathlib.Logic.Function.Basic
import Batty.Foundation.Text

/-!
# Task frontmatter

A task file is a YAML mapping followed by a Markdown body. The mapping is edited key by key
(`insert`, `remove`) and read through typed views; this file holds the mapping, the editing
primitives of the source and the decoders from which the typed views are built.

A decoder fails on a value of the wrong shape, and a view fails when one of its fields does:
a file whose `claimed_by` is a number is no task at all. The laws below say what an edit of one
key does to the reading of another, namely nothing.
-/

namespace Batty

/-- The frontmatter keys the daemon reads or writes; any further key is `other`. -/
inductive Key where
  | id | title | status | priority | assignee
  | claimedBy | claimedAt | claimTtlSecs | claimExpiresAt | lastProgressAt
  | claimWarningSentAt | claimExtensions | lastOutputBytes
  | blocked | blockReason | blockedOn
  | tags | dependsOn | reviewOwner | worktreePath | branch | commit | artifacts | nextAction
  | scheduledFor | cronSchedule | cronLastRun | completed
  | changedPaths | testsRun | testsPassed | testResults | outcome | reviewBlockers
  | executionOwner
  | other (name : String)
deriving DecidableEq

/-- A YAML value. Of a nested mapping only `wellFormed` is kept: whether the reader of its key
accepts it. -/
inductive Value where
  | null
  | bool (value : Bool)
  | number (value : Int)
  | string (value : String)
  | sequence (values : List Value)
  | nested (wellFormed : Bool)

abbrev Mapping := Key → Option Value

namespace Mapping

/-- The mapping with the given entries. -/
def ofList (entries : List (Key × Value)) : Mapping := fun key =>
  (entries.find? fun entry => entry.1 = key).map Prod.snd

def insert (mapping : Mapping) (key : Key) (value : Value) : Mapping :=
  Function.update mapping key (some value)

def remove (mapping : Mapping) (key : Key) : Mapping :=
  Function.update mapping key none

@[simp] theorem insert_self (mapping : Mapping) (key : Key) (value : Value) :
    mapping.insert key value key = some value :=
  Function.update_self ..

@[simp] theorem insert_of_ne (mapping : Mapping) {key key' : Key} (value : Value)
    (h : key' ≠ key) : mapping.insert key value key' = mapping key' :=
  Function.update_of_ne h ..

@[simp] theorem remove_self (mapping : Mapping) (key : Key) : mapping.remove key key = none :=
  Function.update_self ..

@[simp] theorem remove_of_ne (mapping : Mapping) {key key' : Key} (h : key' ≠ key) :
    mapping.remove key key' = mapping key' :=
  Function.update_of_ne h ..

def setOptionalString (mapping : Mapping) (key : Key) : Option String → Mapping
  | some value => mapping.insert key (.string value)
  | none => mapping.remove key

def setOptionalU64 (mapping : Mapping) (key : Key) : Option Nat → Mapping
  | some value => mapping.insert key (.number value)
  | none => mapping.remove key

@[simp] theorem setOptionalString_of_ne (mapping : Mapping) {key key' : Key}
    (value : Option String) (h : key' ≠ key) :
    mapping.setOptionalString key value key' = mapping key' := by
  cases value <;> simp [setOptionalString, h]

@[simp] theorem setOptionalU64_of_ne (mapping : Mapping) {key key' : Key} (value : Option Nat)
    (h : key' ≠ key) : mapping.setOptionalU64 key value key' = mapping key' := by
  cases value <;> simp [setOptionalU64, h]

@[simp] theorem setOptionalString_self (mapping : Mapping) (key : Key) (value : Option String) :
    mapping.setOptionalString key value key = value.map .string := by
  cases value <;> simp [setOptionalString]

@[simp] theorem setOptionalU64_self (mapping : Mapping) (key : Key) (value : Option Nat) :
    mapping.setOptionalU64 key value key = value.map fun n => .number n := by
  cases value <;> simp [setOptionalU64]

end Mapping

/-! ### Decoders -/

namespace Value

def asString : Value → Option String
  | string value => some value
  | _ => none

def asBool : Value → Option Bool
  | bool value => some value
  | _ => none

/-- A number below `bound`, as the unsigned types of the source read it. -/
def asUnsigned (bound : Nat) : Value → Option Nat
  | number value => if 0 ≤ value ∧ value < bound then some value.toNat else none
  | _ => none

def asU32 : Value → Option Nat := asUnsigned (2 ^ 32)

def asU64 : Value → Option Nat := asUnsigned (2 ^ 64)

/-- A sequence of which every entry decodes. A key without a value reads as an empty sequence. -/
def asVec {α : Type} (decode : Value → Option α) : Value → Option (List α)
  | sequence values => values.mapM decode
  | null => some []
  | _ => none

end Value

namespace Mapping

/-- A field without a default. -/
def required {α : Type} (mapping : Mapping) (key : Key) (decode : Value → Option α) : Option α :=
  (mapping key).bind decode

/-- A field whose absence means `default`. -/
def orDefault {α : Type} (mapping : Mapping) (key : Key) (decode : Value → Option α)
    (default : α) : Option α :=
  match mapping key with
  | none => some default
  | some value => decode value

/-- An optional field: absence and an explicit null mean `none`. -/
def optional {α : Type} (mapping : Mapping) (key : Key) (decode : Value → Option α) :
    Option (Option α) :=
  match mapping key with
  | none => some none
  | some .null => some none
  | some value => (decode value).map some

/-- An optional text reads back as it was set. -/
@[simp] theorem optional_setOptionalString_self (mapping : Mapping) (key : Key)
    (value : Option String) :
    (mapping.setOptionalString key value).optional key Value.asString = some value := by
  cases value <;> simp [optional, Value.asString]

theorem required_congr {α : Type} {mapping mapping' : Mapping} {key : Key}
    {decode : Value → Option α} (h : mapping key = mapping' key) :
    mapping.required key decode = mapping'.required key decode := by
  simp only [required, h]

theorem optional_congr {α : Type} {mapping mapping' : Mapping} {key : Key}
    {decode : Value → Option α} (h : mapping key = mapping' key) :
    mapping.optional key decode = mapping'.optional key decode := by
  simp only [optional, h]

theorem orDefault_congr {α : Type} {mapping mapping' : Mapping} {key : Key}
    {decode : Value → Option α} {default : α} (h : mapping key = mapping' key) :
    mapping.orDefault key decode default = mapping'.orDefault key decode default := by
  simp only [orDefault, h]

end Mapping

end Batty
