import DataAccess.Proofs.Store.Service

/-!
# Calls and runs

Several stores may share one service. Their calls come in any order, and in between the service
may become unreachable and reachable again.

- `Call`, `Answer`, `Store.call`: the calls that a store offers, and what it answers.
- `Event`, `Context.step`, `Context.run`: what happens to a service, one thing after the other.
- `Context.Throughout`: what is true of the service at any time of a run.
- `Session.Moved`, `Store.moved`: what a call can do to a session. Calls that read leave no trace
  but the queries they ask; calls that change do one of the changes that sessions know, or nothing.
-/

namespace DataAccess

/-- A call that a store offers. -/
inductive Call where
  | load (request : LoadRequest)
  | count (request : LoadRequest)
  | findRow (wanted : Value)
  | insert (values : Record)
  | update (wanted : Value) (values : Record)
  | remove (wanted : Value)
  | commit (entities : List Entity)

/-- Whether a call reads only. -/
def Call.reads : Call → Bool
  | load _ | count _ | findRow _ => true
  | insert _ | update .. | remove _ | commit _ => false

/-- What a store answers to a call. -/
inductive Answer where
  | loaded (rows : Loaded)
  | total (count : Nat)
  | row (row : Option Value)
  | inserted (values : Record) (key : Value)
  | updated (key : Value) (values : Record)
  | removed (key : Value)
  | saved (entities : List Entity)

/-- What a store does when it is called. -/
def Store.call (store : Store) : Call → Action Session Answer
  | .load request => do return .loaded (← store.load request)
  | .count request => do return .total (← store.count request)
  | .findRow wanted => do return .row (← store.findRow wanted)
  | .insert values => do
    let (values, key) ← store.insert values
    return .inserted values key
  | .update wanted values => do
    let (key, values) ← store.update wanted values
    return .updated key values
  | .remove wanted => do return .removed (← store.remove wanted)
  | .commit entities => do return .saved (← store.commit entities)

/-- What can happen to a service in memory. -/
inductive Event where
  /-- a store calls -/
  | call (store : Store) (call : Call)
  /-- the service cannot be reached any more -/
  | outage (text : String)
  /-- the service can be reached again -/
  | recovery
  /-- from now on the tracked entities are listed in another sequence -/
  | rearranged (listing : Listing)

namespace Context

/-- The state after an event, whatever a call was answered. -/
def step (c : Context Session) : Event → Context Session
  | .call store call => ((store.call call).perform c).2
  | .outage text => { c with service := { c.service with outage := some text } }
  | .recovery => { c with service := { c.service with outage := none } }
  | .rearranged listing => { c with service := { c.service with listing } }

/-- The state after several events, the first one first. -/
def run (c : Context Session) (events : List Event) : Context Session := events.foldl step c

@[simp] theorem run_nil (c : Context Session) : c.run [] = c := rfl

@[simp] theorem run_cons (c : Context Session) (event : Event) (events : List Event) :
    c.run (event :: events) = (c.step event).run events := rfl

/-- The service is of some kind before the first event, between any two, and after the last. -/
def Throughout (kind : Session → Prop) (c : Context Session) : List Event → Prop
  | [] => kind c.service
  | event :: events => kind c.service ∧ Throughout kind (c.step event) events

instance decidableThroughout (kind : Session → Prop) [DecidablePred kind] :
    (c : Context Session) → (events : List Event) → Decidable (c.Throughout kind events)
  | c, [] => inferInstanceAs (Decidable (kind c.service))
  | c, event :: events =>
    have : Decidable ((c.step event).Throughout kind events) :=
      decidableThroughout kind (c.step event) events
    inferInstanceAs (Decidable (kind c.service ∧ (c.step event).Throughout kind events))

end Context

/-! ## Reading -/

namespace Session

/-- Answering a query changes the list of queries and nothing else. -/
theorem execute_snd (q : Query) (s : Session) :
    (s.execute q).2 = { s with sent := s.sent ++ [q] } := by
  unfold execute
  dsimp only
  split
  · rfl
  · split <;> rfl

end Session

namespace Escalation

/-- Under guard an action does the same to the service. -/
@[simp] theorem service_guard {σ α : Type} (escalation : Escalation) (x : Action σ α)
    (c : Context σ) :
    ((escalation.guard x).perform c).2.service = (x.perform c).2.service := by
  cases h : x.perform c with
  | mk r c' =>
    cases r with
    | ok a => rw [escalation.guard_ok h]
    | error e =>
      rw [escalation.guard_error h]
      exact escalation.service_reject e c'

end Escalation

namespace Store

variable {store : Store} {c : Context Session}

/-- Loading asks the one query that the plan for the request leads to. -/
theorem service_load_ok {request : LoadRequest} {plan : Plan}
    (h : store.loadPlan request = .ok plan) (c : Context Session) :
    ((store.load request).perform c).2.service =
      { c.service with sent := c.service.sent ++ [plan.toQuery] } := by
  unfold load
  rw [h, Action.perform_bind_ok (Action.perform_ofExcept _ _)]
  unfold Plan.load
  rw [Escalation.service_guard, Action.service_bind fun _ _ => rfl]
  exact Session.execute_snd _ _

theorem service_load (store : Store) (request : LoadRequest) (c : Context Session) :
    ∃ sent, ((store.load request).perform c).2.service = { c.service with sent } := by
  cases hplan : store.loadPlan request with
  | error e =>
    unfold load
    rw [hplan]
    exact ⟨c.service.sent, rfl⟩
  | ok plan => exact ⟨c.service.sent ++ [plan.toQuery], service_load_ok hplan c⟩

theorem service_count (store : Store) (request : LoadRequest) (c : Context Session) :
    ∃ sent, ((store.count request).perform c).2.service = { c.service with sent } := by
  unfold count
  cases hplan : store.prepare request with
  | error e => exact ⟨c.service.sent, rfl⟩
  | ok plan =>
    refine ⟨c.service.sent ++ [plan.toCountQuery], ?_⟩
    rw [Action.perform_bind_ok (Action.perform_ofExcept _ _)]
    unfold Plan.count
    rw [Escalation.service_guard, Action.service_bind]
    · exact Session.execute_snd _ _
    · intro response c'
      cases response.total <;> rfl

theorem service_findRow (store : Store) (wanted : Value) (c : Context Session) :
    ∃ sent, ((store.findRow wanted).perform c).2.service = { c.service with sent } := by
  unfold findRow
  rw [Action.perform_bind_ok (Action.perform_inspect _ _)]
  cases hkey : store.keyOrError c.service.schema with
  | error e => exact ⟨c.service.sent, rfl⟩
  | ok key =>
    refine ⟨c.service.sent ++ [store.ownQuery.restrict (keyPredicate key wanted)], ?_⟩
    rw [Action.perform_bind_ok (Action.perform_ofExcept _ _), Action.service_bind fun _ _ => rfl,
      Escalation.service_guard]
    exact Session.execute_snd _ _

/-! ## Calls that change nothing -/

theorem typeOrError_of_none {schema : Schema} (h : store.typeName? schema = none) :
    store.typeOrError schema = .error (.configuration (.resourceWithoutType store.resource)) := by
  unfold typeOrError
  rw [h]

theorem insert_of_none (h : store.typeName? c.service.schema = none) (values : Record) :
    ((store.insert values).perform c).2.service = c.service := by
  unfold insert
  rw [Action.perform_bind_ok (Action.perform_inspect _ _), typeOrError_of_none h]
  rfl

theorem findEntity_of_none (h : store.typeName? c.service.schema = none) (wanted : Value) :
    (store.findEntity wanted).perform c =
      (.error (.configuration (.resourceWithoutType store.resource)), c) := by
  unfold findEntity
  rw [Action.perform_bind_ok (Action.perform_inspect _ _), typeOrError_of_none h]
  rfl

end Store

/-! ## What a call can do to a session -/

/-- What becomes of a session when a store is called. -/
inductive Session.Moved (s : Session) : Call → Session → Prop where
  /-- nothing: there is no type behind the resource of the store -/
  | refused {call : Call} : Moved s call s
  /-- queries were asked -/
  | asked {call : Call} (hreads : call.reads = true) (sent : List Query) :
      Moved s call { s with sent }
  /-- an entity was made -/
  | entered (policy : Policy) (type : String) (values : Record) :
      Moved s (.insert values) (s.enter policy type values)
  /-- fields of an entity were set -/
  | updated (policy : Policy) (type : String) (wanted : Value) (values : Record) :
      Moved s (.update wanted values) (s.edit policy type wanted (·.setFields values))
  /-- an entity was removed -/
  | removed (policy : Policy) (type : String) (wanted : Value) :
      Moved s (.remove wanted) (s.edit policy type wanted Entity.markDeleted)
  /-- entities were saved, as far as possible -/
  | saved (entities : List Entity) : Moved s (.commit entities) (s.save entities).2

/-- A call does one of these things to the session. -/
theorem Store.moved (store : Store) (call : Call) (c : Context Session) :
    c.service.Moved call ((store.call call).perform c).2.service := by
  cases call with
  | load request =>
    obtain ⟨sent, h⟩ := service_load store request c
    unfold Store.call
    rw [Action.service_bind fun _ _ => rfl, h]
    exact .asked rfl sent
  | count request =>
    obtain ⟨sent, h⟩ := service_count store request c
    unfold Store.call
    rw [Action.service_bind fun _ _ => rfl, h]
    exact .asked rfl sent
  | findRow wanted =>
    obtain ⟨sent, h⟩ := service_findRow store wanted c
    unfold Store.call
    rw [Action.service_bind fun _ _ => rfl, h]
    exact .asked rfl sent
  | insert values =>
    unfold Store.call
    rw [Action.service_bind fun _ _ => rfl]
    cases htype : store.typeName? c.service.schema with
    | none =>
      rw [insert_of_none htype]
      exact .refused
    | some type =>
      rw [service_insert htype]
      exact .entered store.policy type values
  | update wanted values =>
    unfold Store.call
    rw [Action.service_bind fun _ _ => rfl]
    cases htype : store.typeName? c.service.schema with
    | none =>
      unfold update
      rw [Action.perform_bind_error (findEntity_of_none htype wanted)]
      exact .refused
    | some type =>
      rw [service_update htype]
      exact .updated store.policy type wanted values
  | remove wanted =>
    unfold Store.call
    rw [Action.service_bind fun _ _ => rfl]
    cases htype : store.typeName? c.service.schema with
    | none =>
      unfold remove
      rw [Action.perform_bind_error (findEntity_of_none htype wanted)]
      exact .refused
    | some type =>
      rw [service_remove htype]
      exact .removed store.policy type wanted
  | commit entities =>
    unfold Store.call
    rw [Action.service_bind fun _ _ => rfl, service_commit]
    exact .saved entities

end DataAccess
