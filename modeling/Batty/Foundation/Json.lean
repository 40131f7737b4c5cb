import Mathlib.Algebra.Order.Ring.Int

/-!
# JSON values

What a document of JSON holds, and how a reader that expects a shape looks at it: a field of
something that is no object is not there, and neither is a number that a type cannot hold.
-/

namespace Batty

/-- A value of JSON. -/
inductive Json where
  | null
  | bool (value : Bool)
  | integer (value : Int)
  /-- A number that is not a whole one. -/
  | decimal
  | string (value : String)
  | array (items : List Json)
  | object (fields : List (String × Json))

namespace Json

def get? (key : String) : Json → Option Json
  | object fields => (fields.find? fun field => field.1 = key).map Prod.snd
  | _ => none

def asStr : Json → Option String
  | string value => some value
  | _ => none

def asU64 : Json → Option Nat
  | integer value => if 0 ≤ value ∧ value.toNat < 2 ^ 64 then some value.toNat else none
  | _ => none

def asArray : Json → Option (List Json)
  | array items => some items
  | _ => none

def asObject : Json → Option (List (String × Json))
  | object fields => some fields
  | _ => none

end Json

end Batty
