import DataAccess.Proofs.Session.Creating
import DataAccess.Proofs.Store.Calls

/-!
# What a failed insertion leaves behind

To insert is to make an entity and, if the store saves at once, to save it. The entity is in the
care of the unit of work as soon as it is made. If it is to be saved then and the service cannot
be reached, the insertion fails and yet the entity waits to be saved, like one that was inserted by
a store that does not save at once.

- `Store.insert_refused`, `Store.insert_kept`, `Store.insert_saved`, `Store.insert_unsaved`: the
  ways in which an insertion can go.
- `Store.Strands`: the insertions that fail after the entity was made.
- `Store.insert_error`: what is saved and pending after a failed insertion.
- `Store.insert_error_saved_later`: an entity whose insertion failed is saved all the same.
- `Session.edit_of_outage`, `Store.update_remove_of_outage`: other changes that fail leave no trace.
-/

namespace DataAccess

namespace Store

variable {store : Store} {c c' : Context Session} {type : String} {key : Key} {values : Record}
  {e : Entity} {err : Error} {s : Session}

/-! ## The ways in which an insertion can go -/

theorem insert_untyped (h : store.typeName? c.service.schema = none) (values : Record) :
    (store.insert values).perform c =
      (.error (.configuration (.resourceWithoutType store.resource)), c) := by
  unfold insert
  rw [Action.perform_bind_ok (Action.perform_inspect _ _), typeOrError_of_none h]
  rfl

/-- No entity is made. -/
theorem insert_refused (htype : store.typeName? c.service.schema = some type)
    (hcreate : c.service.create type values = (.error err, s)) :
    (store.insert values).perform c = (.error err, { c with service := s }) := by
  have hserve := Action.perform_serve (Session.create type values) c
  rw [hcreate] at hserve
  unfold insert
  rw [Action.perform_bind_ok (Action.perform_inspect _ _), typeOrError_of_typeName? htype,
    Action.perform_bind_ok (Action.perform_ofExcept _ _), Action.perform_bind_error hserve]

/-- Where an entity is made, the rest depends on whether the store saves at once. -/
theorem insert_of_made (htype : store.typeName? c.service.schema = some type)
    (hcreate : c.service.create type values = (.ok e, s)) :
    (store.insert values).perform c =
      (if store.policy.saveAtOnce then do
          let saved ← store.commit [e]
          let k ← Action.ofExcept (store.keyOf c.service.schema (saved.headD e).values)
          return (values, k)
        else do
          let k ← Action.ofExcept (store.keyOf c.service.schema e.values)
          return (values, k) : Action Session (Record × Value)).perform
        { c with service := s } := by
  have hserve := Action.perform_serve (Session.create type values) c
  rw [hcreate] at hserve
  unfold insert
  rw [Action.perform_bind_ok (Action.perform_inspect _ _), typeOrError_of_typeName? htype,
    Action.perform_bind_ok (Action.perform_ofExcept _ _), Action.perform_bind_ok hserve]

/-- The entity is kept for later. -/
theorem insert_kept (htype : store.typeName? c.service.schema = some type)
    (hkey : c.service.schema.keyOf? type = some key)
    (hcreate : c.service.create type values = (.ok e, s))
    (hwaits : store.policy.saveAtOnce = false) :
    (store.insert values).perform c =
      (.ok (values, key.valueOf e.values), { c with service := s }) := by
  rw [insert_of_made htype hcreate, hwaits, keyOf_of_typeName? htype hkey]
  rfl

/-- The entity is saved at once. -/
theorem insert_saved (htype : store.typeName? c.service.schema = some type)
    (hkey : c.service.schema.keyOf? type = some key)
    (hcreate : c.service.create type values = (.ok e, s))
    (hatOnce : store.policy.saveAtOnce = true) {s' : Session}
    (hsave : s.save [e] = (.ok [e.accepted], s')) :
    (store.insert values).perform c =
      (.ok (values, key.valueOf e.values), { c with service := s' }) := by
  have hcommit : (store.commit [e]).perform { c with service := s } =
      (.ok [e.accepted], { c with service := s' }) := commit_ok hsave
  rw [insert_of_made htype hcreate, hatOnce, if_pos rfl, Action.perform_bind_ok hcommit,
    List.headD_cons, keyOf_of_typeName? htype hkey]
  rfl

/-- The entity was to be saved at once, and that failed. -/
theorem insert_unsaved (htype : store.typeName? c.service.schema = some type)
    (hcreate : c.service.create type values = (.ok e, s))
    (hatOnce : store.policy.saveAtOnce = true) {s' : Session}
    (hsave : s.save [e] = (.error err, s')) :
    (store.insert values).perform c =
      (.error err.toRemote, store.escalation.reject err { c with service := s' }) := by
  have hcommit : (store.commit [e]).perform { c with service := s } = _ :=
    store.escalation.guard_serve_error hsave
  rw [insert_of_made htype hcreate, hatOnce, if_pos rfl, Action.perform_bind_error hcommit]

/-! ## Failed insertions -/

/-- The insertion of these values makes an entity that it cannot save: the store saves at once, and
the service cannot be reached. -/
def Strands (store : Store) (s : Session) (values : Record) (e : Entity) : Prop :=
  store.policy.saveAtOnce = true ∧ s.outage ≠ none ∧
    ∃ type, store.typeName? s.schema = some type ∧ (s.create type values).1 = .ok e

/-- **What a failed insertion leaves behind.** Whatever made an insertion fail, the saved rows of
every type are what they were. The session as a whole is what it was, and with it the pending
entities, unless the store made an entity that it could not save at once. That entity is pending
then, in the place of whatever was kept under its key, beside everything else that was pending. -/
theorem insert_error (h : (store.insert values).perform c = (.error err, c')) :
    (∀ other, c'.service.rows other = c.service.rows other) ∧
      ((∀ e, ¬store.Strands c.service values e) → c'.service = c.service) ∧
      ∀ e, store.Strands c.service values e →
        ∃ key, c.service.schema.keyOf? e.type = some key ∧
          c'.service.pending.Perm (e :: (c.service.forget (key.valueOf e.values) e).pending) := by
  cases htype : store.typeName? c.service.schema with
  | none =>
    rw [insert_untyped htype] at h
    cases h
    refine ⟨fun _ => rfl, fun _ => rfl, ?_⟩
    rintro e ⟨-, -, type, htype', -⟩
    rw [htype] at htype'
    cases htype'
  | some type =>
    have hmade : ∀ e, store.Strands c.service values e →
        (c.service.create type values).1 = .ok e := by
      rintro e ⟨-, -, type', htype', hmade⟩
      rw [htype, Option.some.injEq] at htype'
      rwa [← htype'] at hmade
    have hcreated := c.service.created type values
    cases hcreate : c.service.create type values with
    | mk r s =>
      rw [hcreate] at hcreated hmade
      cases hcreated with
      | refused hkey =>
        rw [insert_refused htype hcreate] at h
        cases h
        refine ⟨fun _ => rfl, fun _ => rfl, fun e he => ?_⟩
        cases hmade e he
      | made issued hkey =>
        rename_i key
        -- an entity was made, so that only saving it can have failed
        cases hatOnce : store.policy.saveAtOnce with
        | false =>
          rw [insert_kept htype hkey hcreate hatOnce] at h
          cases h
        | true =>
          cases hout : c.service.outage with
          | none =>
            rw [insert_saved htype hkey hcreate hatOnce
              (Session.save_singleton hout hkey)] at h
            cases h
          | some text =>
            rw [insert_unsaved htype hcreate hatOnce (Session.save_of_outage hout)] at h
            cases h
            rw [Escalation.service_reject]
            refine ⟨fun _ => rfl, fun hnone => ?_, fun e he => ?_⟩
            · have hreach : c.service.outage ≠ none := by simp [hout]
              refine absurd ⟨hatOnce, hreach, type, htype, ?_⟩
                (hnone (c.service.newEntity type key values))
              rw [hcreate]
            · cases hmade e he
              exact Session.pending_create hcreate

/-- Two customers were changed, and the changes wait. Then the service cannot be reached. -/
def strandedRun : List Event :=
  let waiting : Store := { resource := "customers" }
  [.call waiting (.update (.string "c1") [("city", .string "Bergen")]),
    .call waiting (.update (.string "c2") [("city", .string "Quito")]),
    .outage "down"]

/-- The entity that cannot be saved has the key of one of the customers: it is pending in place of
the change to that customer, while the change to the other one still waits. -/
theorem insert_error_shop :
    let c : Context Session := ({ service := Session.shop } : Context Session).run strandedRun
    let direct : Store := { resource := "customers", policy := { saveAtOnce := true } }
    let values : Record := [("city", .string "Paris"), ("id", .string "c1")]
    let e : Entity := { type := "Customer", values, state := .added }
    ∃ c', (direct.insert values).perform c = (.error (.remote "down"), c') ∧
      direct.Strands c.service values e ∧
      (∀ other, c'.service.rows other = c.service.rows other) ∧
      c'.service.pending.Perm
        [e, { type := "Customer", values := [("city", .string "Quito"), ("id", .string "c2")],
              state := .modified }] := by
  intro c direct values e
  have hinsert : (direct.insert values).perform c =
      (.error (.remote "down"), ((direct.insert values).perform c).2) := rfl
  have hstrands : direct.Strands c.service values e := ⟨rfl, by decide, "Customer", rfl, rfl⟩
  obtain ⟨hrows, -, hpending⟩ := insert_error hinsert
  obtain ⟨key, hkey, hperm⟩ := hpending e hstrands
  have hid : key = .single "id" := (Option.some.inj hkey).symm
  have hothers : (c.service.forget (.string "c1") e).pending =
      [{ type := "Customer", values := [("city", .string "Quito"), ("id", .string "c2")],
         state := .modified }] := by
    decide +kernel
  rw [hid] at hperm
  refine ⟨_, hinsert, hstrands, hrows, ?_⟩
  rw [← hothers]
  exact hperm

/-- A customer is entered while the service cannot be reached, and the insertion fails. Nothing was
pending before, the customer is pending now, and the next commit saves it. -/
theorem insert_error_saved_later :
    let direct : Store := { resource := "customers", policy := { saveAtOnce := true } }
    let values : Record := [("city", .string "Paris"), ("id", .string "c3")]
    let c : Context Session := { service := { Session.shop with outage := some "down" } }
    let failed := (direct.insert values).perform c
    let committed := (direct.commit []).perform (failed.2.step .recovery)
    failed.1.isOk = false ∧ c.service.pending = [] ∧
      failed.2.service.pending = [{ type := "Customer", values, state := .added }] ∧
      committed.1.isOk = true ∧
      (c.service.rows "Customer").find? (.single "id") (.string "c3") = none ∧
      (committed.2.service.rows "Customer").find? (.single "id") (.string "c3") = some values := by
  decide +kernel

end Store

/-! ## The other changes -/

namespace Session

/-- A change that is to be saved at once is made to a copy of the entity. While the service cannot
be reached the session stays as it is. -/
theorem edit_of_outage {s : Session} {policy : Policy} {text : String}
    (hatOnce : policy.saveAtOnce = true) (hout : s.outage = some text) (type : String)
    (wanted : Value) (change : Entity → Entity) : s.edit policy type wanted change = s := by
  have houtage : s.outageError? = some (.remote text) := congrArg (Option.map Error.remote) hout
  unfold edit fetch
  cases s.preferred? type wanted policy.preferTracked with
  | none =>
    dsimp only
    rw [houtage]
  | some e =>
    dsimp only
    rw [if_pos hatOnce, save_of_outage hout]

end Session

namespace Store

/-- So an update or a removal that fails in this way leaves no trace, unlike an insertion. -/
theorem update_remove_of_outage {store : Store} {c : Context Session} {text : String}
    (hatOnce : store.policy.saveAtOnce = true) (hout : c.service.outage = some text)
    (wanted : Value) (values : Record) :
    ((store.update wanted values).perform c).2.service = c.service ∧
      ((store.remove wanted).perform c).2.service = c.service := by
  cases htype : store.typeName? c.service.schema with
  | none =>
    unfold update remove
    rw [Action.perform_bind_error (findEntity_of_none htype wanted),
      Action.perform_bind_error (findEntity_of_none htype wanted)]
    exact ⟨rfl, rfl⟩
  | some type =>
    rw [service_update htype, service_remove htype]
    exact ⟨Session.edit_of_outage hatOnce hout type wanted _,
      Session.edit_of_outage hatOnce hout type wanted _⟩

end Store

end DataAccess
