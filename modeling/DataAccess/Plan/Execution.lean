import DataAccess.Action
import DataAccess.Plan.Basic
import DataAccess.Query.Evaluation

/-!
# Asking a planned query

- `Loaded`: the rows delivered, and what is told about all of them.
- `Plan.load`, `Plan.count`: asks a service for the rows, or for their number. Every failure of
  the service is told to the listeners of the plan.
- `Plan.unsupported`, `Plan.groupBy`: operations that plans offer by name only.
- `Script`: a service that answers from a prepared list.
-/

namespace DataAccess

/-- What is told about all rows, beyond the rows delivered. -/
structure Extra where
  /-- how many rows there are -/
  total : Option Nat := none
  deriving DecidableEq

/-- Whether nothing is told. -/
def Extra.isEmpty (extra : Extra) : Bool := extra.total.isNone

/-- The rows delivered. -/
structure Loaded where
  rows : List Value
  extra : Extra := {}
  deriving DecidableEq

/-- The answer of a service as the result of loading. -/
def Response.toLoaded (r : Response) : Loaded := ⟨r.rows, ⟨r.total⟩⟩

namespace Plan

variable {σ : Type}

/-- Asks for the rows. -/
def load (execute : Query → σ → Except Error Response × σ) (plan : Plan) : Action σ Loaded :=
  plan.escalation.guard do
    let response ← Action.serve (execute plan.toQuery)
    return response.toLoaded

/-- Asks for the number of rows. -/
def count (execute : Query → σ → Except Error Response × σ) (plan : Plan) : Action σ Nat :=
  plan.escalation.guard do
    let response ← Action.serve (execute plan.toCountQuery)
    match response.total with
    | some n => return n
    | none => throw .totalMissing

/-- An operation that plans offer by name only. -/
def unsupported {α : Type} (operation : String) : Except Error α :=
  .error (.notSupported operation)

/-- Groups the rows by a field. It would give a plan, and is offered by name only. -/
def groupBy (_plan : Plan) (_field : String) : Except Error Plan := unsupported "group_by"

end Plan

/-- A service that answers from a list: each request takes the next answer, the last answer
stays, and an empty list delivers no rows. -/
structure Script where
  /-- the answers still to come -/
  answers : List (Except Error Response)
  /-- the queries asked so far -/
  sent : List Query := []

/-- Answers a query from the list. -/
def Script.execute (q : Query) (script : Script) : Except Error Response × Script :=
  let sent := script.sent ++ [q]
  match script.answers with
  | [] => (.ok ⟨[], none⟩, { script with sent })
  | [answer] => (answer, { script with sent })
  | answer :: rest => (answer, { answers := rest, sent })

end DataAccess
