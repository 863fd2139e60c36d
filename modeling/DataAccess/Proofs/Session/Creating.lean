import DataAccess.Proofs.Session.Fetching

/-!
# What making an entity does to a session

A new entity comes into the care of the unit of work under its own key value, in the place of
whatever was kept there. The service is not asked, so that an outage makes no difference.

- `Session.Created`: the ways in which making an entity can go, with what is answered and left
  behind.
- `Session.pending_track_perm`, `Session.pending_create`: the entities that are pending once an
  entity with something to save was taken into care, or made.
-/

namespace DataAccess

namespace Session

variable {s s' : Session} {type : String} {values : Record} {key : Key} {e : Entity}

/-! ## The ways in which making an entity can go -/

/-- The entity that is made of some values. -/
def newEntity (s : Session) (type : String) (key : Key) (values : Record) : Entity :=
  { type, values := (s.withGeneratedKey key values).1, state := .added }

/-- What making an entity answers, and the session that it leaves behind. -/
inductive Created (s : Session) (type : String) (values : Record) :
    Except Error Entity → Session → Prop where
  /-- no key of the type is known -/
  | refused (hkey : s.schema.keyOf? type = none) :
      Created s type values (.error (.configuration (.unknownType type))) s
  /-- the entity is taken into care under its own key value -/
  | made {key : Key} (issued : Nat) (hkey : s.schema.keyOf? type = some key) :
      Created s type values (.ok (s.newEntity type key values))
        (({ s with issued } : Session).track (key.valueOf (s.newEntity type key values).values)
          (s.newEntity type key values))

/-- To generate a key value counts as issuing one and does nothing else. -/
theorem withGeneratedKey_snd (s : Session) (key : Key) (values : Record) :
    ∃ issued, (s.withGeneratedKey key values).2 = { s with issued } := by
  cases key with
  | composite names => exact ⟨s.issued, rfl⟩
  | single name =>
    show ∃ issued, (if (values.value name).isNull then
        (_, { s with issued := s.issued + 1 }) else (values, s)).2 = _
    split
    · exact ⟨s.issued + 1, rfl⟩
    · exact ⟨s.issued, rfl⟩

/-- Making an entity goes one of these ways. -/
theorem created (s : Session) (type : String) (values : Record) :
    Created s type values (s.create type values).1 (s.create type values).2 := by
  cases hkey : s.schema.keyOf? type with
  | none =>
    have hcreate : s.create type values = (.error (.configuration (.unknownType type)), s) := by
      unfold create keyOf
      rw [hkey]
    rw [hcreate]
    exact .refused hkey
  | some key =>
    obtain ⟨issued, hissued⟩ := s.withGeneratedKey_snd key values
    have hcreate : s.create type values =
        (.ok (s.newEntity type key values),
          ({ s with issued } : Session).track (key.valueOf (s.newEntity type key values).values)
            (s.newEntity type key values)) := by
      unfold create
      rw [keyOf_of_keyOf? hkey]
      dsimp only
      rw [hissued]
      rfl
    rw [hcreate]
    exact .made issued hkey

/-! ## Pending entities -/

/-- An entity with something to save is pending beside all that was, except for what it took the
place of. -/
theorem pending_track_perm (h : e.isPending = true) (k : Value) :
    (s.track k e).pending.Perm (e :: (s.forget k e).pending) := by
  have hvalues := (s.tracked.values_insert_perm (trackingKey e.type k) e).filter (·.isPending)
  rw [List.filter_cons_of_pos h] at hvalues
  exact (pending_perm _).trans (hvalues.trans ((s.forget k e).pending_perm.symm.cons e))

/-- An entity that was made is pending, and so is all that was, except for what it took the place
of. -/
theorem pending_create (h : s.create type values = (.ok e, s')) :
    ∃ key, s.schema.keyOf? e.type = some key ∧
      s'.pending.Perm (e :: (s.forget (key.valueOf e.values) e).pending) := by
  have hcreated := s.created type values
  rw [h] at hcreated
  cases hcreated with
  | made issued hkey => exact ⟨_, hkey, pending_track_perm rfl _⟩

end Session

end DataAccess
