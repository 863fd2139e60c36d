import DataAccess.Error

/-!
# Who is told of a failure

A failure of the service is told to listeners: first to the one that belongs to the store or
query, if it has one, then to the one that is installed in the shared slot by then, if any. Whoever
is told may change what is in the slot.

- `Listener`, `Reaction`: who is told, and what becomes of the slot then.
- `Listener.leave`: the slot after a listener was told.
- `Notice`: one listener told of one error.
- `Escalation`: what a store or query knows about its listeners.
-/

namespace DataAccess

/-- What a listener does with the shared slot once it was told of an error. -/
inductive Reaction where
  /-- nothing -/
  | keep
  /-- it empties the slot -/
  | clear
  /-- it installs another listener in the slot -/
  | install (name : String) (reaction : Reaction)
  deriving DecidableEq

/-- Someone who is told of failures. -/
structure Listener where
  name : String
  reaction : Reaction := .keep
  deriving DecidableEq

/-- What is in the slot after a listener was told. -/
def Listener.leave (listener : Listener) (slot : Option Listener) : Option Listener :=
  match listener.reaction with
  | .keep => slot
  | .clear => none
  | .install name reaction => some { name, reaction }

/-- One listener told of one error. -/
structure Notice where
  listener : Listener
  error : Error
  deriving DecidableEq

/-- The line that a notice writes into a log. -/
def Notice.line (n : Notice) : String := n.listener.name ++ ": " ++ n.error.message

/-- What a store or query knows about its listeners. -/
structure Escalation where
  /-- its own listener -/
  own : Option Listener := none
  /-- whether it also looks into the shared slot; otherwise it has a slot of its own, in which
  nothing is ever installed -/
  followsShared : Bool := true
  deriving DecidableEq

/-- What a store or query finds in its slot while the shared one holds `slot`. -/
def Escalation.installed (escalation : Escalation) (slot : Option Listener) : Option Listener :=
  if escalation.followsShared then slot else none

end DataAccess
