import DataAccess.Proofs.Session.Creating
import DataAccess.Proofs.Store.Commitment

/-!
# Sequences of requests to a session

Whoever works with a session directly makes entities, attaches, fetches and saves them, with any
arguments and in any order.

- `Request`, `Session.ask`, `Session.askAll`: such requests, one after the other.
- `Session.Invariant.askAll`: what each request keeps, they all keep.
- `Session.invariant_keysDistinct`: no two rows of a type ever come to have the same key value.
- `Session.outage_askAll`: requests do not make the service fail.
-/

namespace DataAccess

/-- What can be asked of a session about entities. -/
inductive Request where
  | create (type : String) (values : Record)
  | attach (e : Entity)
  | fetch (type : String) (wanted : Value) (preferTracked : Bool)
  | save (entities : List Entity)

namespace Session

variable {P : Session → Prop} {s s' : Session}

/-- The session after a request, whatever the answer was. -/
def ask (s : Session) : Request → Session
  | .create type values => (s.create type values).2
  | .attach e => (s.attach e).2
  | .fetch type wanted preferTracked => (s.fetch type wanted preferTracked).2
  | .save entities => (s.save entities).2

/-- The session after several requests, the first one first. -/
def askAll (s : Session) (requests : List Request) : Session := requests.foldl ask s

@[simp] theorem askAll_nil (s : Session) : s.askAll [] = s := rfl

@[simp] theorem askAll_cons (s : Session) (request : Request) (requests : List Request) :
    s.askAll (request :: requests) = (s.ask request).askAll requests := rfl

/-! ## What requests keep -/

namespace Invariant

variable (hP : Invariant P)

include hP

theorem ask (h : P s) (request : Request) : P (s.ask request) := by
  cases request with
  | create type values => exact hP.create type values h
  | attach e => exact hP.attach e h
  | fetch type wanted preferTracked => exact hP.fetch type wanted preferTracked h
  | save entities => exact hP.save h

/-- What each request keeps, any number of them keeps. -/
theorem askAll (h : P s) (requests : List Request) : P (s.askAll requests) := by
  induction requests generalizing s with
  | nil => exact h
  | cons request requests ih => exact ih (hP.ask h request)

end Invariant

/-! ## Keys stay different -/

theorem KeysDistinct.congr (h : s.KeysDistinct) (hschema : s'.schema = s.schema)
    (hrows : ∀ type, s'.rows type = s.rows type) : s'.KeysDistinct := by
  intro type key hkey
  rw [hschema] at hkey
  rw [hrows]
  exact h type key hkey

theorem rows_create (s : Session) (type : String) (values : Record) (other : String) :
    (s.create type values).2.rows other = s.rows other := by
  have h := s.created type values
  generalize s.create type values = answer at h
  obtain ⟨r, s'⟩ := answer
  cases h <;> rfl

theorem rows_attach (s : Session) (e : Entity) (other : String) :
    (s.attach e).2.rows other = s.rows other := by
  unfold attach
  cases s.keyOf e.type <;> rfl

theorem rows_fetch (s : Session) (type : String) (wanted : Value) (preferTracked : Bool)
    (other : String) : (s.fetch type wanted preferTracked).2.rows other = s.rows other := by
  have h := s.fetched type wanted preferTracked
  generalize s.fetch type wanted preferTracked = answer at h
  obtain ⟨r, s'⟩ := answer
  cases h <;> rfl

/-- Only saving writes rows, and it keeps their keys pairwise different. -/
theorem invariant_keysDistinct : Invariant KeysDistinct where
  sent _ h := h
  outage _ h := h
  listing _ h := h
  create type values h := h.congr (schema_create _ type values) (rows_create _ type values)
  attach e h := h.congr (schema_attach _ e) (rows_attach _ e)
  fetch type wanted preferTracked h :=
    h.congr (schema_fetch _ type wanted preferTracked) (rows_fetch _ type wanted preferTracked)
  saveOne e h := h.saveOne e

/-! ## The service stays reachable -/

@[simp] theorem outage_create (s : Session) (type : String) (values : Record) :
    (s.create type values).2.outage = s.outage := by
  have h := s.created type values
  generalize s.create type values = answer at h
  obtain ⟨r, s'⟩ := answer
  cases h <;> rfl

@[simp] theorem outage_saveEach (es : List Entity) (s : Session) :
    (saveEach es s).2.outage = s.outage := by
  induction es generalizing s with
  | nil => rfl
  | cons e es ih =>
    rw [snd_saveEach_cons]
    split
    · exact outage_saveOne s e
    · exact (ih _).trans (outage_saveOne s e)

@[simp] theorem outage_save (es : List Entity) (s : Session) :
    (s.save es).2.outage = s.outage := by
  unfold save
  cases s.outageError? with
  | some err => rfl
  | none => exact outage_saveEach _ s

theorem outage_ask (s : Session) (request : Request) : (s.ask request).outage = s.outage := by
  cases request with
  | create type values => exact outage_create s type values
  | attach e => exact outage_attach s e
  | fetch type wanted preferTracked => exact outage_fetch s type wanted preferTracked
  | save entities => exact outage_save entities s

@[simp] theorem outage_askAll (s : Session) (requests : List Request) :
    (s.askAll requests).outage = s.outage := by
  induction requests generalizing s with
  | nil => rfl
  | cons request requests ih => exact (ih _).trans (s.outage_ask request)

end Session

end DataAccess
