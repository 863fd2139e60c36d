import DataAccess.Proofs.Store.Coherence

/-!
# What every run keeps

Whatever stores ask of a session comes down to a handful of requests. What each of these keeps, a
call keeps, and so does a run.

- `Session.Invariant`: what the requests keep; `Session.Invariant.moved` and
  `Session.Invariant.run` carry this to calls and runs.
- `Session.ChangesFiled`: a tracked entity that does not count as unchanged is kept under its own
  type and key value. No run changes this, whether key values are exact or not.
- `Session.Consistent.filed`: with exact key values every tracked entity is kept there.
- `Context.orderly_run`: sessions are in order after every run.
-/

namespace DataAccess

namespace Session

variable {P : Session → Prop} {s s' : Session}

/-! ## Requests, calls and runs -/

/-- Something that every request to a session keeps, and that does not depend on the queries asked,
on whether the service can be reached and on how tracked entities are listed. -/
structure Invariant (P : Session → Prop) : Prop where
  sent : ∀ {s} queries, P s → P { s with sent := queries }
  outage : ∀ {s} text, P s → P { s with outage := text }
  listing : ∀ {s} listing, P s → P { s with listing := listing }
  create : ∀ {s} type values, P s → P (s.create type values).2
  attach : ∀ {s} e, P s → P (s.attach e).2
  fetch : ∀ {s} type wanted preferTracked, P s → P (s.fetch type wanted preferTracked).2
  saveOne : ∀ {s} e, P s → P (s.saveOne e).2

namespace Invariant

variable (hP : Invariant P)

include hP

theorem saveEach {es : List Entity} (h : P s) : P (Session.saveEach es s).2 := by
  induction es generalizing s with
  | nil => exact h
  | cons e es ih =>
    have hone := hP.saveOne e h
    rw [snd_saveEach_cons]
    split
    · exact hone
    · exact ih hone

theorem save {es : List Entity} (h : P s) : P (s.save es).2 := by
  unfold Session.save
  cases s.outageError? with
  | some err => exact h
  | none => exact hP.saveEach h

theorem enter (policy : Policy) (type : String) (values : Record) (h : P s) :
    P (s.enter policy type values) := by
  have hcreate := hP.create type values h
  unfold Session.enter
  cases hnew : s.create type values with
  | mk r s₁ =>
    rw [hnew] at hcreate
    cases r with
    | error err => exact hcreate
    | ok e =>
      dsimp only
      split
      · exact hP.save hcreate
      · exact hcreate

theorem edit (policy : Policy) (type : String) (wanted : Value) (change : Entity → Entity)
    (h : P s) : P (s.edit policy type wanted change) := by
  have hfetch := hP.fetch type wanted policy.preferTracked h
  unfold Session.edit
  cases hfound : s.fetch type wanted policy.preferTracked with
  | mk r s₁ =>
    rw [hfound] at hfetch
    cases r with
    | error err => exact hfetch
    | ok found =>
      cases found with
      | none => exact hfetch
      | some e =>
        dsimp only
        split
        · exact hP.save hfetch
        · exact hP.attach (change e) hfetch

/-- What every request keeps, a call keeps. -/
theorem moved {call : Call} (h : P s) (hmoved : s.Moved call s') : P s' := by
  cases hmoved with
  | refused => exact h
  | asked hreads queries => exact hP.sent queries h
  | entered policy type values => exact hP.enter policy type values h
  | updated policy type wanted values => exact hP.edit policy type wanted _ h
  | removed policy type wanted => exact hP.edit policy type wanted _ h
  | saved entities => exact hP.save h

theorem step {c : Context Session} (h : P c.service) (event : Event) :
    P (c.step event).service := by
  cases event with
  | call store call => exact hP.moved h (store.moved call c)
  | outage text => exact hP.outage (some text) h
  | recovery => exact hP.outage none h
  | rearranged listing => exact hP.listing listing h

/-- What every request keeps, a run keeps. -/
theorem run {c : Context Session} (h : P c.service) (events : List Event) :
    P (c.run events).service := by
  induction events generalizing c with
  | nil => exact h
  | cons event events ih => exact ih (hP.step h event)

end Invariant

/-! ## The schema -/

@[simp] theorem schema_create (s : Session) (type : String) (values : Record) :
    (s.create type values).2.schema = s.schema := by
  unfold create
  cases s.keyOf type with
  | error err => rfl
  | ok key =>
    show (s.withGeneratedKey key values).2.schema = s.schema
    unfold withGeneratedKey
    split
    · split <;> rfl
    · rfl

@[simp] theorem schema_attach (s : Session) (e : Entity) :
    (s.attach e).2.schema = s.schema := by
  unfold attach
  cases s.keyOf e.type <;> rfl

@[simp] theorem schema_fetch (s : Session) (type : String) (wanted : Value)
    (preferTracked : Bool) : (s.fetch type wanted preferTracked).2.schema = s.schema := by
  have h := s.fetched type wanted preferTracked
  generalize s.fetch type wanted preferTracked = answer at h
  obtain ⟨r, s'⟩ := answer
  cases h <;> rfl

theorem invariant_schema (schema : Schema) : Invariant fun s => s.schema = schema where
  sent _ h := h
  outage _ h := h
  listing _ h := h
  create type values h := (schema_create _ type values).trans h
  attach e h := (schema_attach _ e).trans h
  fetch type wanted preferTracked h := (schema_fetch _ type wanted preferTracked).trans h
  saveOne e h := (schema_saveOne _ e).trans h

/-! ## Changes are filed -/

/-- An entity that the unit of work still looks after once it was saved counts as unchanged. -/
theorem unchanged_of_accepted {e : Entity} (h : e.accepted.state ≠ .detached) :
    e.accepted.state = .unchanged := by
  unfold Entity.accepted at h ⊢
  revert h
  cases e.state <;> simp [Entity.State.afterSave]

/-- The entity belongs in this place: that of its own type and key value. -/
def BelongsAt (s : Session) (place : String × String) (e : Entity) : Prop :=
  ∃ key, s.schema.keyOf? e.type = some key ∧ place = trackingKey e.type (key.valueOf e.values)

/-- Every tracked entity that does not count as unchanged is kept where it belongs. -/
def ChangesFiled (s : Session) : Prop :=
  ∀ place e, s.tracked.get? place = some e → e.state ≠ .unchanged → s.BelongsAt place e

/-- An entity may be taken into care where it belongs, or if it counts as unchanged. -/
theorem ChangesFiled.track (h : s.ChangesFiled) {k : Value} {e : Entity}
    (he : e.state ≠ .unchanged → s.BelongsAt (trackingKey e.type k) e) :
    (s.track k e).ChangesFiled := by
  intro place e' he' hchanged
  rw [get?_tracked_track] at he'
  by_cases hplace : place = trackingKey e.type k
  · rw [if_pos hplace, Option.some.injEq] at he'
    subst he'
    rw [hplace]
    exact he hchanged
  · rw [if_neg hplace] at he'
    exact h place e' he' hchanged

theorem ChangesFiled.create (h : s.ChangesFiled) (type : String) (values : Record) :
    (s.create type values).2.ChangesFiled := by
  have hschema := s.schema_create type values
  unfold Session.create at hschema ⊢
  cases hkey : s.keyOf type with
  | error err => exact h
  | ok key =>
    rw [hkey] at hschema
    -- to generate a key value leaves the tracked entities alone
    have hissued : (s.withGeneratedKey key values).2.ChangesFiled := by
      unfold withGeneratedKey
      split
      · split <;> exact h
      · exact h
    refine hissued.track fun _ => ⟨key, ?_, rfl⟩
    exact (congrArg (·.keyOf? type) hschema).trans (keyOf?_of_keyOf hkey)

theorem ChangesFiled.attach (h : s.ChangesFiled) (e : Entity) :
    (s.attach e).2.ChangesFiled := by
  unfold Session.attach
  cases hkey : s.keyOf e.type with
  | error err => exact h
  | ok key => exact h.track fun _ => ⟨key, keyOf?_of_keyOf hkey, rfl⟩

/-- What is taken into care by fetching counts as unchanged. -/
theorem ChangesFiled.fetch (h : s.ChangesFiled) (type : String) (wanted : Value)
    (preferTracked : Bool) : (s.fetch type wanted preferTracked).2.ChangesFiled := by
  have hfetched := s.fetched type wanted preferTracked
  generalize s.fetch type wanted preferTracked = answer at hfetched
  obtain ⟨r, s'⟩ := answer
  cases hfetched with
  | tracked => exact h
  | failed => exact h
  | missing => exact h
  | saved => exact h.track fun hchanged => absurd rfl hchanged

/-- What is still tracked after it was saved counts as unchanged. -/
theorem ChangesFiled.saveOne (h : s.ChangesFiled) (e : Entity) :
    (s.saveOne e).2.ChangesFiled := by
  cases hkey : s.schema.keyOf? e.type with
  | none =>
    rw [saveOne_of_none hkey]
    exact h
  | some key =>
    intro place e' he' hchanged
    rw [get?_tracked_saveOne hkey] at he'
    by_cases hplace : place = trackingKey e.type (key.valueOf e.values)
    · rw [if_pos hplace] at he'
      split at he'
      · cases he'
      · rename_i hcared
        cases he'
        exact absurd (unchanged_of_accepted hcared) hchanged
    · rw [if_neg hplace] at he'
      unfold BelongsAt
      rw [schema_saveOne]
      exact h place e' he' hchanged

theorem invariant_changesFiled : Invariant ChangesFiled where
  sent _ h := h
  outage _ h := h
  listing _ h := h
  create type values h := h.create type values
  attach e h := h.attach e
  fetch type wanted preferTracked h := h.fetch type wanted preferTracked
  saveOne e h := h.saveOne e

/-- With exact key values every tracked entity is filed: what counts as unchanged is as it was
saved, and what does not is kept where it belongs. -/
theorem Consistent.filed (h : s.Consistent) (hchanges : s.ChangesFiled) (hexact : s.ExactKeys) :
    s.Filed := by
  intro place e he
  have hbelongs : s.BelongsAt place e := by
    by_cases hstate : e.state = .unchanged
    · obtain ⟨k, hplace, key, hkey, hk, -⟩ := h.coherent place e he hstate
      exact ⟨key, hkey, by rw [hplace, hk]⟩
    · exact hchanges place e he hstate
  obtain ⟨key, hkey, hplace⟩ := hbelongs
  exact ⟨key, hkey, hexact.2 (place, e) (Keyed.mem_entries_iff.2 he) key hkey, hplace⟩

end Session

namespace Context

variable {c : Context Session}

/-- What holds throughout a run holds after it. -/
theorem Throughout.last {kind : Session → Prop} {events : List Event}
    (h : c.Throughout kind events) : kind (c.run events).service := by
  induction events generalizing c with
  | nil => exact h
  | cons event events ih => exact ih h.2

@[simp] theorem schema_run (c : Context Session) (events : List Event) :
    (c.run events).service.schema = c.service.schema :=
  (Session.invariant_schema c.service.schema).run rfl events

/-- Where nothing is tracked at first and the rows of every type have pairwise different keys,
sessions are consistent and in order after every run, as long as key values are exact. -/
theorem orderly_run {events : List Event} {type : String} {key : Key}
    (hempty : c.service.tracked = .empty) (hdistinct : c.service.KeysDistinct)
    (hexact : c.Throughout Session.ExactKeys events)
    (hcommit : ∀ store entities, .call store (.commit entities) ∈ events → entities = [])
    (hkey : c.service.schema.keyOf? type = some key) :
    (c.run events).service.Consistent ∧ (c.run events).service.Orderly type key := by
  have hnone : ∀ place e, c.service.tracked.get? place ≠ some e := by
    intro place e he
    rw [hempty] at he
    cases he
  have hstart : c.service.Consistent :=
    ⟨hdistinct, fun place e he => absurd he (hnone place e)⟩
  have hchanges : c.service.ChangesFiled := fun place e he => absurd he (hnone place e)
  have hconsistent := consistent_run hstart hexact hcommit
  have hlast := hexact.last
  have hkey' : (c.run events).service.schema.keyOf? type = some key := by
    rw [schema_run]
    exact hkey
  exact ⟨hconsistent,
    { keyOf? := hkey'
      distinct := hconsistent.distinct type key hkey'
      exact_rows := hlast.exactRows type key hkey'
      filed := hconsistent.filed (Session.invariant_changesFiled.run hchanges events) hlast }⟩

end Context

end DataAccess
