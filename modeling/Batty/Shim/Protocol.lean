import Mathlib.Data.List.Basic

/-!
# What a shim says

A shim runs one agent. It reports its state and answers every message it is sent under the id
that the message carries. The type of ids is left open.
-/

namespace Batty

/-- What a shim reports of its agent. -/
inductive ShimState where
  | starting | idle | working | dead | contextExhausted
deriving DecidableEq

def ShimState.isTerminal (state : ShimState) : Bool := state = .dead || state = .contextExhausted

/-- An event on the channel from a shim, as far as states and messages go. -/
inductive ShimEvent (Id : Type) where
  | ready
  | stateChanged (source target : ShimState)
  | messageDelivered (id : Id)
  | deliveryFailed (id : Id) (reason : String)
  | completion (messageId : Option Id)
  | warning (message : String)
  | error (command reason : String)
  | quotaBlocked (message : String)
  | authRequired (message : String)
deriving DecidableEq

end Batty
