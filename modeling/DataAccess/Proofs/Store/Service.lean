import DataAccess.Store.Actions

/-!
# What stores ask of a session

Each operation of a store, seen from the session: which requests it makes, and what follows from
the answers. Notices are left aside here.

- `Action.perform_bind_ok`, `Action.perform_bind_error`: how actions go on after a success and
  stop at a failure; `Escalation.guard_ok`, `Escalation.guard_error`: what a guard makes of either.
- `Session.enter`, `Session.edit`: what a new entity, or a change to an entity, does to a session.
- `Store.service_insert`, `Store.service_update`, `Store.service_remove`, `Store.service_commit`:
  the session after each operation.
-/

namespace DataAccess

namespace Action

variable {σ α β : Type}

theorem perform_bind_ok {x : Action σ α} {f : α → Action σ β} {c c' : Context σ} {a : α}
    (h : x.perform c = (.ok a, c')) : (x >>= f).perform c = (f a).perform c' := by
  rw [perform_bind, h]

theorem perform_bind_error {x : Action σ α} {f : α → Action σ β} {c c' : Context σ} {e : Error}
    (h : x.perform c = (.error e, c')) : (x >>= f).perform c = (.error e, c') := by
  rw [perform_bind, h]

/-- What comes after an action may leave the service alone. -/
theorem service_bind {x : Action σ α} {f : α → Action σ β}
    (hf : ∀ a c, ((f a).perform c).2.service = c.service) (c : Context σ) :
    ((x >>= f).perform c).2.service = (x.perform c).2.service := by
  cases h : x.perform c with
  | mk r c' =>
    cases r with
    | ok a => rw [perform_bind_ok h, hf]
    | error e => rw [perform_bind_error h]

@[simp] theorem perform_serve (f : σ → Except Error α × σ) (c : Context σ) :
    (serve f).perform c = ((f c.service).1, { c with service := (f c.service).2 }) := rfl

@[simp] theorem perform_inspect (f : σ → α) (c : Context σ) :
    (inspect f).perform c = (.ok (f c.service), c) := rfl

@[simp] theorem perform_ofExcept (r : Except Error α) (c : Context σ) :
    (ofExcept r : Action σ α).perform c = (r, c) := rfl

end Action

namespace Escalation

variable {σ α : Type} (escalation : Escalation)

theorem guard_ok {x : Action σ α} {c c' : Context σ} {a : α} (h : x.perform c = (.ok a, c')) :
    (escalation.guard x).perform c = (.ok a, c') := by
  unfold guard
  rw [Action.perform_ofFunction, h]

theorem guard_error {x : Action σ α} {c c' : Context σ} {e : Error}
    (h : x.perform c = (.error e, c')) :
    (escalation.guard x).perform c = (.error e.toRemote, escalation.reject e c') := by
  unfold guard
  rw [Action.perform_ofFunction, h]

/-- Listeners are told, and may change the slot; the service is left alone. -/
@[simp] theorem service_notify (c : Context σ) (listener? : Option Listener) (e : Error) :
    (c.notify listener? e).service = c.service := by
  cases listener? <;> rfl

@[simp] theorem service_inform (e : Error) (c : Context σ) :
    (escalation.inform e c).service = c.service := by
  simp [inform]

@[simp] theorem service_reject (e : Error) (c : Context σ) :
    (escalation.reject e c).service = c.service := by
  unfold reject
  split
  · rfl
  · exact escalation.service_inform _ _

/-- A request that is answered is answered the same under guard. -/
theorem guard_serve_ok {f : σ → Except Error α × σ} {c : Context σ} {a : α} {s : σ}
    (h : f c.service = (.ok a, s)) :
    (escalation.guard (.serve f)).perform c = (.ok a, { c with service := s }) := by
  refine escalation.guard_ok ?_
  rw [Action.perform_serve, h]

/-- A request that fails is told to the listeners and fails as one of the service. -/
theorem guard_serve_error {f : σ → Except Error α × σ} {c : Context σ} {e : Error} {s : σ}
    (h : f c.service = (.error e, s)) :
    (escalation.guard (.serve f)).perform c =
      (.error e.toRemote, escalation.reject e { c with service := s }) := by
  refine escalation.guard_error ?_
  rw [Action.perform_serve, h]

end Escalation

namespace Session

/-- Makes a new entity. It is saved at once, or stays under the care of the unit of work. -/
def enter (policy : Policy) (type : String) (values : Record) (s : Session) : Session :=
  match s.create type values with
  | (.ok e, s) => if policy.saveAtOnce then (s.save [e]).2 else s
  | (.error _, s) => s

/-- Changes the entity with a key, if there is one. It is saved at once, or taken into care. -/
def edit (policy : Policy) (type : String) (wanted : Value) (change : Entity → Entity)
    (s : Session) : Session :=
  match s.fetch type wanted policy.preferTracked with
  | (.ok (some e), s) =>
    if policy.saveAtOnce then (s.save [change e]).2 else (s.attach (change e)).2
  | (_, s) => s

end Session

namespace Store

variable {store : Store} {c : Context Session} {type : String}

theorem typeOrError_of_typeName? {schema : Schema} (h : store.typeName? schema = some type) :
    store.typeOrError schema = .ok type := by
  unfold typeOrError
  rw [h]

/-- A store works with the key of the type behind its resource. -/
theorem key?_of_typeName? {schema : Schema} {key : Key}
    (htype : store.typeName? schema = some type) (hkey : schema.keyOf? type = some key) :
    store.key? schema = some key := by
  obtain ⟨t, ht, hfields⟩ := Option.bind_eq_some_iff.1 hkey
  have hserved : schema.typeServedBy? store.resource = some t := by
    show (store.typeName? schema).bind schema.types.get? = some t
    rw [htype]
    exact ht
  have hknown : schema.isEmpty = false := by
    refine Bool.eq_false_iff.2 fun hempty => ?_
    have hmem := Keyed.mem_entries_iff.2 ht
    rw [List.isEmpty_iff.1 hempty] at hmem
    cases hmem
  unfold key?
  rw [hknown, hserved, Option.bind_some, hfields]
  rfl

theorem keyOrError_of_typeName? {schema : Schema} {key : Key}
    (htype : store.typeName? schema = some type) (hkey : schema.keyOf? type = some key) :
    store.keyOrError schema = .ok key := by
  unfold keyOrError
  rw [key?_of_typeName? htype hkey]

theorem keyOf_of_typeName? {schema : Schema} {key : Key}
    (htype : store.typeName? schema = some type) (hkey : schema.keyOf? type = some key)
    (values : Record) : store.keyOf schema values = .ok (key.valueOf values) := by
  unfold keyOf
  rw [keyOrError_of_typeName? htype hkey]

/-! ## Finding an entity -/

theorem findEntity_found (htype : store.typeName? c.service.schema = some type) {wanted : Value}
    {e : Entity} {s : Session}
    (h : c.service.fetch type wanted store.policy.preferTracked = (.ok (some e), s)) :
    (store.findEntity wanted).perform c = (.ok e, { c with service := s }) := by
  unfold findEntity
  rw [Action.perform_bind_ok (Action.perform_inspect _ _), typeOrError_of_typeName? htype,
    Action.perform_bind_ok (Action.perform_ofExcept _ _),
    Action.perform_bind_ok (store.escalation.guard_serve_ok h)]
  rfl

theorem findEntity_missing (htype : store.typeName? c.service.schema = some type) {wanted : Value}
    {s : Session}
    (h : c.service.fetch type wanted store.policy.preferTracked = (.ok none, s)) :
    (store.findEntity wanted).perform c =
      (.error .notFound, store.escalation.inform .notFound { c with service := s }) := by
  unfold findEntity
  rw [Action.perform_bind_ok (Action.perform_inspect _ _), typeOrError_of_typeName? htype,
    Action.perform_bind_ok (Action.perform_ofExcept _ _),
    Action.perform_bind_ok (store.escalation.guard_serve_ok h)]
  rfl

theorem findEntity_failed (htype : store.typeName? c.service.schema = some type) {wanted : Value}
    {err : Error} {s : Session}
    (h : c.service.fetch type wanted store.policy.preferTracked = (.error err, s)) :
    (store.findEntity wanted).perform c =
      (.error err.toRemote, store.escalation.reject err { c with service := s }) := by
  unfold findEntity
  rw [Action.perform_bind_ok (Action.perform_inspect _ _), typeOrError_of_typeName? htype,
    Action.perform_bind_ok (Action.perform_ofExcept _ _),
    Action.perform_bind_error (store.escalation.guard_serve_error h)]

/-! ## Saving -/

theorem commit_ok {es saved : List Entity} {s : Session}
    (h : c.service.save es = (.ok saved, s)) :
    (store.commit es).perform c = (.ok saved, { c with service := s }) :=
  store.escalation.guard_serve_ok h

@[simp] theorem service_commit (store : Store) (es : List Entity) (c : Context Session) :
    ((store.commit es).perform c).2.service = (c.service.save es).2 := by
  cases h : c.service.save es with
  | mk r s =>
    cases r with
    | ok saved => rw [commit_ok h]
    | error err =>
      unfold commit
      rw [store.escalation.guard_serve_error h]
      exact store.escalation.service_reject _ _

/-! ## Changes -/

/-- Working out the key of a record leaves the session alone. -/
theorem service_keyOf_bind {α : Type} (schema : Schema) (values : Record) (f : Value → α)
    (c : Context Session) :
    (((Action.ofExcept (store.keyOf schema values) : Action Session Value) >>= fun key =>
      pure (f key)).perform c).2.service = c.service :=
  Action.service_bind (fun _ _ => rfl) c

/-- The session after fields of an entity were set. -/
theorem service_update (htype : store.typeName? c.service.schema = some type) (wanted : Value)
    (values : Record) :
    ((store.update wanted values).perform c).2.service =
      c.service.edit store.policy type wanted (·.setFields values) := by
  unfold update Session.edit
  cases hf : c.service.fetch type wanted store.policy.preferTracked with
  | mk r s =>
    cases r with
    | error err =>
      rw [Action.perform_bind_error (findEntity_failed htype hf)]
      exact store.escalation.service_reject _ _
    | ok found =>
      cases found with
      | none =>
        rw [Action.perform_bind_error (findEntity_missing htype hf)]
        exact store.escalation.service_inform _ _
      | some e =>
        rw [Action.perform_bind_ok (findEntity_found htype hf)]
        dsimp only
        split
        · rw [Action.service_bind, service_commit]
          intro saved c'
          cases saved with
          | nil => rfl
          | cons first rest => exact service_keyOf_bind c'.service.schema first.values _ c'
        · rw [Action.service_bind fun _ _ => rfl]
          rfl

/-- The session after an entity was removed. -/
theorem service_remove (htype : store.typeName? c.service.schema = some type) (wanted : Value) :
    ((store.remove wanted).perform c).2.service =
      c.service.edit store.policy type wanted Entity.markDeleted := by
  unfold remove Session.edit
  cases hf : c.service.fetch type wanted store.policy.preferTracked with
  | mk r s =>
    cases r with
    | error err =>
      rw [Action.perform_bind_error (findEntity_failed htype hf)]
      exact store.escalation.service_reject _ _
    | ok found =>
      cases found with
      | none =>
        rw [Action.perform_bind_error (findEntity_missing htype hf)]
        exact store.escalation.service_inform _ _
      | some e =>
        rw [Action.perform_bind_ok (findEntity_found htype hf)]
        dsimp only
        split
        · rw [Action.service_bind fun _ _ => rfl, service_commit]
        · rw [Action.service_bind fun _ _ => rfl]
          rfl

/-- The session after an entity was made. -/
theorem service_insert (htype : store.typeName? c.service.schema = some type) (values : Record) :
    ((store.insert values).perform c).2.service = c.service.enter store.policy type values := by
  have hcreate := Action.perform_serve (Session.create type values) c
  unfold insert Session.enter
  rw [Action.perform_bind_ok (Action.perform_inspect _ _), typeOrError_of_typeName? htype,
    Action.perform_bind_ok (Action.perform_ofExcept _ _)]
  cases hc : c.service.create type values with
  | mk r s =>
    rw [hc] at hcreate
    cases r with
    | error err => rw [Action.perform_bind_error hcreate]
    | ok e =>
      rw [Action.perform_bind_ok hcreate]
      dsimp only
      split
      · rw [Action.service_bind, service_commit]
        intro saved c'
        exact service_keyOf_bind c.service.schema (saved.headD e).values _ c'
      · exact service_keyOf_bind c.service.schema e.values _ _

end Store

end DataAccess
