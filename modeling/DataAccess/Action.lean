import DataAccess.Notify

/-!
# Actions

An action asks a service and may fail; whether it fails or not, the service may have changed and
listeners may have been told of failures.

- `Context`: the state in which an action runs: the service, the slot of the shared listener, and
  the notices given so far.
- `Action`: the actions; they keep the state also when they fail.
- `Action.serve`: one request to the service.
- `Context.notify`, `Escalation.inform`, `Escalation.tell`: the listeners are told of an error, one
  after the other.
- `Escalation.guard`: tells the listeners when an action fails and makes the failure one of the
  service.
-/

namespace DataAccess

/-- The state in which an action runs. -/
structure Context (σ : Type) where
  /-- the service asked -/
  service : σ
  /-- the listener in the shared slot -/
  shared : Option Listener := none
  /-- the notices given so far, the oldest first -/
  notices : List Notice := []

/-- What may fail, and changes the state in either case. -/
abbrev Action (σ α : Type) := ExceptT Error (StateM (Context σ)) α

namespace Action

variable {σ α β : Type}

/-- Runs an action. -/
def perform (x : Action σ α) (c : Context σ) : Except Error α × Context σ := x.run.run c

/-- The action that does what a function on states says. -/
def ofFunction (f : Context σ → Except Error α × Context σ) : Action σ α := ExceptT.mk f

/-- One request to the service. -/
def serve (f : σ → Except Error α × σ) : Action σ α :=
  ofFunction fun c => ((f c.service).1, { c with service := (f c.service).2 })

/-- A result that was found without the service. -/
def ofExcept (r : Except Error α) : Action σ α := ofFunction fun c => (r, c)

/-- What the service looks like. -/
def inspect (f : σ → α) : Action σ α := ofFunction fun c => (.ok (f c.service), c)

/-! ## Lemmas -/

@[simp] theorem perform_ofFunction (f : Context σ → Except Error α × Context σ) (c : Context σ) :
    (ofFunction f).perform c = f c := rfl

@[simp] theorem perform_pure (a : α) (c : Context σ) :
    (pure a : Action σ α).perform c = (.ok a, c) := rfl

/-- One action after another: the second runs where the first succeeds. -/
theorem perform_bind (x : Action σ α) (f : α → Action σ β) (c : Context σ) :
    (x >>= f).perform c =
      match x.perform c with
      | (.ok a, c') => (f a).perform c'
      | (.error e, c') => (.error e, c') := by
  show (StateT.bind x (ExceptT.bindCont f) c : Except Error β × Context σ) = _
  unfold StateT.bind
  show (match x c with | (a, s) => ExceptT.bindCont f a s) = _
  unfold perform
  cases h : (x c : Except Error α × Context σ) with
  | mk r c' =>
    have hx : (x.run.run c : Except Error α × Context σ) = (r, c') := h
    rw [hx]
    cases r <;> rfl

end Action

/-- The state after a listener, if there is one, was told of an error. -/
def Context.notify {σ : Type} (c : Context σ) (listener? : Option Listener) (error : Error) :
    Context σ :=
  match listener? with
  | some listener =>
    { c with notices := c.notices ++ [⟨listener, error⟩], shared := listener.leave c.shared }
  | none => c

namespace Escalation

variable {σ α : Type}

/-- The state after the listeners were told of an error. The slot is looked into when the own
listener was told already. -/
def inform (escalation : Escalation) (error : Error) (c : Context σ) : Context σ :=
  let c := c.notify escalation.own error
  c.notify (escalation.installed c.shared) error

/-- Tells the listeners of an error. -/
def tell (escalation : Escalation) (error : Error) : Action σ Unit :=
  .ofFunction fun c => (.ok (), escalation.inform error c)

/-- The state after a failure was handed back: the listeners were told of it as a failure of the
service. Nobody is told that a request was broken off. -/
def reject (escalation : Escalation) (error : Error) (c : Context σ) : Context σ :=
  if error = .unsortable then c else escalation.inform error.toRemote c

/-- Tells the listeners when an action fails, and makes the failure one of the service. -/
def guard (escalation : Escalation) (x : Action σ α) : Action σ α :=
  .ofFunction fun c =>
    match x.perform c with
    | (.ok a, c') => (.ok a, c')
    | (.error e, c') => (.error e.toRemote, escalation.reject e c')

end Escalation

end DataAccess
