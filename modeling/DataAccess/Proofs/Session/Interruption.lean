import DataAccess.Proofs.Session.Saving

/-!
# Where a failed save stops

A save either does nothing, because the service cannot be reached, or it saves its batch entity by
entity until it meets one whose type has no key. Nothing is taken back then: the entities before
that one are saved, and the others are not.

- `Session.batch`: the entities that a save is about.
- `Session.saveEach_error`: the part of a batch that is saved before a failure.
- `Session.save_error`: what a failed save leaves behind.
- `Session.save_stops_midway`: a failed save that leaves half of its batch saved.
-/

namespace DataAccess

namespace Session

variable {s s' : Session} {e : Entity} {es : List Entity} {err : Error}

/-! ## Entity by entity -/

/-- A batch that fails after its first entity was saved fails in what comes after. -/
theorem saveEach_of_cons_error {key : Key} (h : s.schema.keyOf? e.type = some key)
    (hfail : saveEach (e :: es) s = (.error err, s')) :
    saveEach es (s.saveOne e).2 = (.error err, s') := by
  rw [saveEach, saveOne_ok h] at hfail
  dsimp only at hfail
  cases hrest : saveEach es (s.saveOne e).2 with
  | mk r s'' =>
    rw [hrest] at hfail
    cases r with
    | ok saved => cases hfail
    | error err' => exact hfail

/-- A batch fails at the first entity whose type has no key, and everything before that entity is
saved. -/
theorem saveEach_error (h : saveEach es s = (.error err, s')) :
    ∃ done stuck rest, es = done ++ stuck :: rest ∧
      (∀ e ∈ done, ∃ key, s.schema.keyOf? e.type = some key) ∧
      s.schema.keyOf? stuck.type = none ∧ err = .configuration (.unknownType stuck.type) ∧
      saveEach done s = (.ok (done.map Entity.accepted), s') := by
  induction es generalizing s with
  | nil => cases h
  | cons e es ih =>
    cases hkey : s.schema.keyOf? e.type with
    | none =>
      rw [saveEach, saveOne_of_none hkey] at h
      cases h
      exact ⟨[], e, es, rfl, fun _ he => (List.not_mem_nil he).elim, hkey, rfl, rfl⟩
    | some key =>
      obtain ⟨done, stuck, rest, rfl, hkeyed, hstuck, herr, hdone⟩ :=
        ih (saveEach_of_cons_error hkey h)
      rw [schema_saveOne] at hkeyed hstuck
      refine ⟨e :: done, stuck, rest, rfl, fun e' he' => ?_, hstuck, herr,
        saveEach_cons_ok hkey hdone⟩
      rcases List.mem_cons.1 he' with rfl | he'
      · exact ⟨key, hkey⟩
      · exact hkeyed e' he'

/-! ## A save as a whole -/

/-- The entities that a save is about: the given ones, or everything pending if none are given. -/
def batch (s : Session) (es : List Entity) : List Entity := if es.isEmpty then s.pending else es

theorem save_of_reachable (h : s.outage = none) : s.save es = saveEach (s.batch es) s := by
  unfold save
  rw [outageError?_of_none h]
  rfl

/-- **What a failed save leaves behind.** If the service cannot be reached, nothing has changed.
Otherwise the batch holds an entity whose type has no key, and the session is what saving just the
entities before the first such one would have made of it: if there are none before it, nothing has
changed either, and else these are saved and no other. -/
theorem save_error (h : s.save es = (.error err, s')) :
    (∃ text, s.outage = some text ∧ err = .remote text ∧ s' = s) ∨
      ∃ done stuck rest, s.batch es = done ++ stuck :: rest ∧
        (∀ e ∈ done, ∃ key, s.schema.keyOf? e.type = some key) ∧
        s.schema.keyOf? stuck.type = none ∧ err = .configuration (.unknownType stuck.type) ∧
        (done = [] ∧ s' = s ∨ done ≠ [] ∧ s.save done = (.ok (done.map Entity.accepted), s')) := by
  cases hout : s.outage with
  | some text =>
    rw [save_of_outage hout] at h
    cases h
    exact .inl ⟨text, rfl, rfl, rfl⟩
  | none =>
    rw [save_of_reachable hout] at h
    obtain ⟨done, stuck, rest, hbatch, hkeyed, hstuck, herr, hdone⟩ := saveEach_error h
    refine .inr ⟨done, stuck, rest, hbatch, hkeyed, hstuck, herr, ?_⟩
    cases done with
    | nil =>
      cases hdone
      exact .inl ⟨rfl, rfl⟩
    | cons first others =>
      have hne : first :: others ≠ [] := List.cons_ne_nil first others
      exact .inr ⟨hne, (save_of_ne_nil hout hne).trans hdone⟩

/-- An entity of a type that the shop does not know. -/
def strayOrder : Entity := { type := "Order", values := [("id", .nat 1)], state := .added }

/-- The stray entity stands among others: what comes before it is saved. -/
theorem save_error_shop :
    let es := shopBatch.take 2 ++ strayOrder :: shopBatch.drop 2
    shop.save es = (.error (.configuration (.unknownType "Order")), (shop.save es).2) ∧
      ∃ done stuck rest, es = done ++ stuck :: rest ∧ stuck.type = "Order" ∧
        (done = [] ∧ (shop.save es).2 = shop ∨
          done ≠ [] ∧ shop.save done = (.ok (done.map Entity.accepted), (shop.save es).2)) := by
  intro es
  have hfail : shop.save es =
      (.error (.configuration (.unknownType "Order")), (shop.save es).2) := rfl
  rcases save_error hfail with ⟨text, hout, -⟩ | ⟨done, stuck, rest, hbatch, -, -, herr, hdone⟩
  · cases hout
  · have htype := (Misconfiguration.unknownType.inj (Error.configuration.inj herr)).symm
    exact ⟨hfail, done, stuck, rest, hbatch, htype, hdone⟩

/-- A customer moves, and an entity of an unknown type comes after. The save fails, and yet the
move is saved. -/
theorem save_stops_midway :
    let es : List Entity :=
      [{ type := "Customer", values := [("city", .string "Bergen"), ("id", .string "c1")],
         state := .modified }, strayOrder]
    (shop.save es).1 = .error (.configuration (.unknownType "Order")) ∧
      (shop.rows "Customer").find? (.single "id") (.string "c1") =
        some [("city", .string "Oslo"), ("id", .string "c1")] ∧
      ((shop.save es).2.rows "Customer").find? (.single "id") (.string "c1") =
        some [("city", .string "Bergen"), ("id", .string "c1")] := by
  refine ⟨rfl, ?_, ?_⟩ <;> decide

end Session

end DataAccess
