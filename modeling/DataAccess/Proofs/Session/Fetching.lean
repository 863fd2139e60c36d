import DataAccess.Proofs.Session.Lookup
import DataAccess.Store.Actions

/-!
# What fetching does to a session

Fetching looks among the tracked entities, if these are preferred, and else asks the service for
the saved row. Only in the second case does it write: the row comes into the care of the unit of
work, in the place of whatever was kept there.

- `Session.Fetched`: the ways in which fetching can go, with what it answers and leaves behind.
- `Session.pending_fetch`: the entities that are pending afterwards. They are those from before,
  except that a saved row that was fetched past the tracked entities takes the place of the one
  that is tracked under its key.
- `Session.fetch_forgets_update`: a change that waits is lost this way.
-/

namespace DataAccess

namespace Session

variable {s : Session} {type : String} {wanted : Value} {preferTracked : Bool}

/-! ## The ways in which fetching can go -/

/-- What fetching the entity of a type with a key answers, and the session that it leaves
behind. -/
inductive Fetched (s : Session) (type : String) (wanted : Value) (preferTracked : Bool) :
    Except Error (Option Entity) → Session → Prop where
  /-- tracked entities are preferred, and one is tracked there -/
  | tracked {e : Entity} (hprefer : preferTracked = true)
      (htracked : s.tracked.get? (trackingKey type wanted) = some e) :
      Fetched s type wanted preferTracked (.ok (some e)) s
  /-- the service cannot be reached, or it knows no key of the type -/
  | failed (err : Error) : Fetched s type wanted preferTracked (.error err) s
  /-- no saved row has the key -/
  | missing : Fetched s type wanted preferTracked (.ok none) s
  /-- a saved row has the key; it is taken into care -/
  | saved {key : Key} {row : Record}
      (hnot : preferTracked = true → s.tracked.get? (trackingKey type wanted) = none)
      (hkey : s.schema.keyOf? type = some key)
      (hrow : (s.rows type).find? key wanted = some row) :
      Fetched s type wanted preferTracked (.ok (some { type, values := row }))
        (s.track wanted { type, values := row })

theorem preferred?_eq_none (h : s.preferred? type wanted preferTracked = none) :
    preferTracked = true → s.tracked.get? (trackingKey type wanted) = none := by
  rintro rfl
  exact h

theorem preferred?_eq_some {e : Entity} (h : s.preferred? type wanted preferTracked = some e) :
    preferTracked = true ∧ s.tracked.get? (trackingKey type wanted) = some e := by
  cases preferTracked with
  | true => exact ⟨rfl, h⟩
  | false => cases h

theorem keyOf?_of_keyOf {key : Key} (h : s.keyOf type = .ok key) :
    s.schema.keyOf? type = some key := by
  unfold keyOf at h
  split at h
  · rename_i hkey
    cases h
    exact hkey
  · cases h

/-- Fetching goes one of these ways. -/
theorem fetched (s : Session) (type : String) (wanted : Value) (preferTracked : Bool) :
    Fetched s type wanted preferTracked (s.fetch type wanted preferTracked).1
      (s.fetch type wanted preferTracked).2 := by
  unfold fetch
  cases hp : s.preferred? type wanted preferTracked with
  | some e =>
    obtain ⟨hprefer, htracked⟩ := preferred?_eq_some hp
    exact .tracked hprefer htracked
  | none =>
    cases s.outageError? with
    | some err => exact .failed err
    | none =>
      cases hkey : s.keyOf type with
      | error err => exact .failed err
      | ok key =>
        cases hrow : (s.rows type).find? key wanted with
        | none =>
          simp only [hrow]
          exact .missing
        | some row =>
          simp only [hrow]
          exact .saved (preferred?_eq_none hp) (keyOf?_of_keyOf hkey) hrow

/-! ## Pending entities -/

/-- An entity with nothing to save takes the place of a pending one as if that was dismissed. -/
theorem pending_track {e : Entity} (h : e.isPending = false) (k : Value) :
    (s.track k e).pending = (s.forget k e).pending := by
  have hvalues : (s.track k e).tracked.values.filter (·.isPending) =
      (s.forget k e).tracked.values.filter (·.isPending) :=
    s.tracked.filter_values_insert h _
  unfold pending
  rw [hvalues]
  rfl

/-- Where nothing is tracked there is nothing to dismiss. -/
theorem pending_forget {e : Entity} {k : Value}
    (h : s.tracked.get? (trackingKey e.type k) = none) : (s.forget k e).pending = s.pending := by
  have hvalues : (s.forget k e).tracked.values = s.tracked.values :=
    Keyed.values_erase_of_get?_eq_none h
  unfold pending
  rw [hvalues]
  rfl

/-- **What is pending after fetching.** As long as tracked entities are preferred, or no saved row
is found, exactly the same entities are pending as before, with their values and states. A saved
row that is fetched although tracked entities are not preferred replaces what is tracked under its
key: if that was pending, it no longer is, and all other pending entities are as before. -/
theorem pending_fetch (s : Session) (type : String) (wanted : Value) (preferTracked : Bool) :
    (s.fetch type wanted preferTracked).2.pending =
      match preferTracked, (s.fetch type wanted preferTracked).1 with
      | false, .ok (some e) => (s.forget wanted e).pending
      | _, _ => s.pending := by
  have h := s.fetched type wanted preferTracked
  generalize (s.fetch type wanted preferTracked).1 = r at h
  generalize (s.fetch type wanted preferTracked).2 = s' at h
  cases h with
  | tracked hprefer htracked =>
    subst hprefer
    rfl
  | failed err => cases preferTracked <;> rfl
  | missing => cases preferTracked <;> rfl
  | saved hnot hkey hrow =>
    rename_i key row
    have htrack : (s.track wanted { type, values := row }).pending =
        (s.forget wanted { type, values := row }).pending := pending_track rfl wanted
    -- the row takes a free place, unless what is tracked was passed over
    cases preferTracked with
    | false => exact htrack
    | true => exact htrack.trans (pending_forget (hnot rfl))

/-- A customer moved, which is not saved yet. Fetching the customer from the service brings back
the old city, and the move is no longer pending. -/
theorem fetch_forgets_update :
    let update : Action Session (Value × Record) :=
      ({ resource := "customers" } : Store).update (.string "c1") [("city", .string "Bergen")]
    let s : Session := (update.perform { service := shop }).2.service
    s.pending = [{ type := "Customer",
                   values := [("city", .string "Bergen"), ("id", .string "c1")],
                   state := .modified }] ∧
      (s.fetch "Customer" (.string "c1") false).2.pending = [] := by
  decide

end Session

end DataAccess
