import DataAccess.Proofs.Session.Reordering

/-!
# Histories of a session

Between two looks at a session anything may have happened to it: rows were put into its tables,
entities were made, attached, fetched and saved, with success or without, and the service could not
be reached for a while. Whatever it was, an entity with something to save is kept in its own place,
so that saving everything finds each such entity again and leaves none of them pending.

- `Occurrence`, `Session.after`, `Session.afterAll`: what can happen, one thing after the other.
- `Session.Invariant.afterAll`: what requests and new rows keep, every history keeps.
- `Session.ChangesFiled.seed`, `Session.FiledAlike`, `Session.invariant_filedAlike`: the places in
  which entities are kept.
- `Session.pending_saveEach_of_perm`: nothing is pending after everything pending was saved.
- `Session.save_leaves_none_pending`: so it is after every history.
-/

namespace DataAccess

/-- What can happen to a session. -/
inductive Occurrence where
  /-- rows of a type were put into its table -/
  | seeded (type : String) (values : List Value)
  /-- something was asked -/
  | asked (request : Request)
  /-- the service cannot be reached any more -/
  | outage (text : String)
  /-- the service can be reached again -/
  | recovery
  /-- from now on the tracked entities are listed in another sequence -/
  | rearranged (listing : Listing)

namespace Session

variable {P : Session → Prop} {s : Session} {e e' : Entity} {es : List Entity}

/-- The session after something happened. -/
def after (s : Session) : Occurrence → Session
  | .seeded type values => s.seed type values
  | .asked request => s.ask request
  | .outage text => { s with outage := some text }
  | .recovery => { s with outage := none }
  | .rearranged listing => { s with listing }

/-- The session after a history, the first occurrence first. -/
def afterAll (s : Session) (history : List Occurrence) : Session := history.foldl after s

namespace Invariant

variable (hP : Invariant P) (hseed : ∀ {s} type values, P s → P (s.seed type values))

include hP hseed

theorem after (h : P s) (occurrence : Occurrence) : P (s.after occurrence) := by
  cases occurrence with
  | seeded type values => exact hseed type values h
  | asked request => exact hP.ask h request
  | outage text => exact hP.outage (some text) h
  | recovery => exact hP.outage none h
  | rearranged listing => exact hP.listing listing h

/-- What every request keeps, and new rows keep as well, every history keeps. -/
theorem afterAll (h : P s) (history : List Occurrence) : P (s.afterAll history) := by
  induction history generalizing s with
  | nil => exact h
  | cons occurrence rest ih => exact ih (hP.after hseed h occurrence)

end Invariant

/-! ## The places of entities -/

/-- New rows have nothing to do with the tracked entities. -/
theorem ChangesFiled.seed (h : s.ChangesFiled) (type : String) (values : List Value) :
    (s.seed type values).ChangesFiled := h

/-- Every tracked entity is kept under its type and a key value that is the same as its own. -/
def FiledAlike (s : Session) : Prop :=
  ∀ place e, s.tracked.get? place = some e → ∃ key k, s.schema.keyOf? e.type = some key ∧
    (key.valueOf e.values).same k = true ∧ place = trackingKey e.type k

/-- An entity may be taken into care under a key value that is the same as its own. -/
theorem FiledAlike.track (h : s.FiledAlike) {key : Key} {k : Value}
    (hkey : s.schema.keyOf? e.type = some key) (hk : (key.valueOf e.values).same k = true) :
    (s.track k e).FiledAlike := by
  intro place e' he'
  rw [get?_tracked_track] at he'
  by_cases hplace : place = trackingKey e.type k
  · rw [if_pos hplace, Option.some.injEq] at he'
    subst he'
    exact ⟨key, k, hkey, hk, hplace⟩
  · rw [if_neg hplace] at he'
    exact h place e' he'

theorem FiledAlike.create (h : s.FiledAlike) (type : String) (values : Record) :
    (s.create type values).2.FiledAlike := by
  have hcreated := s.created type values
  generalize s.create type values = answer at hcreated
  obtain ⟨r, s'⟩ := answer
  cases hcreated with
  | refused => exact h
  | made issued hkey =>
    have hissued : ({ s with issued } : Session).FiledAlike := h
    exact hissued.track hkey (Value.same_self _)

theorem FiledAlike.attach (h : s.FiledAlike) (e : Entity) : (s.attach e).2.FiledAlike := by
  unfold Session.attach
  cases hkey : s.keyOf e.type with
  | error err => exact h
  | ok key => exact h.track (keyOf?_of_keyOf hkey) (Value.same_self _)

/-- The row that is found has a key value that is the same as the one looked for. -/
theorem FiledAlike.fetch (h : s.FiledAlike) (type : String) (wanted : Value)
    (preferTracked : Bool) : (s.fetch type wanted preferTracked).2.FiledAlike := by
  have hfetched := s.fetched type wanted preferTracked
  generalize s.fetch type wanted preferTracked = answer at hfetched
  obtain ⟨r, s'⟩ := answer
  cases hfetched with
  | tracked => exact h
  | failed => exact h
  | missing => exact h
  | saved hnot hkey hrow => exact h.track hkey (Table.mem_of_find? hrow).2

theorem FiledAlike.saveOne (h : s.FiledAlike) (e : Entity) : (s.saveOne e).2.FiledAlike := by
  cases hkey : s.schema.keyOf? e.type with
  | none =>
    rw [saveOne_of_none hkey]
    exact h
  | some key =>
    intro place e' he'
    rw [get?_tracked_saveOne hkey] at he'
    rw [schema_saveOne]
    by_cases hplace : place = trackingKey e.type (key.valueOf e.values)
    · rw [if_pos hplace] at he'
      split at he'
      · cases he'
      · cases he'
        exact ⟨key, key.valueOf e.values, hkey, Value.same_self _, hplace⟩
    · rw [if_neg hplace] at he'
      exact h place e' he'

theorem invariant_filedAlike : Invariant FiledAlike where
  sent _ h := h
  outage _ h := h
  listing _ h := h
  create type values h := h.create type values
  attach e h := h.attach e
  fetch type wanted preferTracked h := h.fetch type wanted preferTracked
  saveOne e h := h.saveOne e

/-- Where key values are exact, the one under which an entity is kept is its own. -/
theorem FiledAlike.filed (h : s.FiledAlike) (hexact : s.ExactKeys) : s.Filed := by
  intro place e he
  obtain ⟨key, k, hkey, hsame, hplace⟩ := h place e he
  have hown := hexact.2 (place, e) (Keyed.mem_entries_iff.2 he) key hkey
  refine ⟨key, hkey, hown, ?_⟩
  rw [(Value.same_iff_eq hown k).1 hsame]
  exact hplace

/-! ## Saving everything -/

/-- What the unit of work keeps of an entity that was saved is not pending. -/
theorem isPending_of_kept? (h : e.kept? = some e') : e'.isPending = false := by
  unfold Entity.kept? at h
  split at h <;> cases h
  exact Entity.State.isPending_afterSave e.state

/-- Once everything pending was saved, in whatever order, nothing is pending any more: each entity
is saved in its own place, and only there was it kept. -/
theorem pending_saveEach_of_perm (hfiled : s.ChangesFiled) (hes : es.Perm s.pending) :
    (saveEach es s).2.pending = [] := by
  refine List.eq_nil_iff_forall_not_mem.2 fun e' he' => ?_
  obtain ⟨hpending, place, hplace⟩ := mem_pending.1 he'
  rw [tracked_saveEach_of_perm_pending hfiled hes place] at hplace
  cases hheld : s.tracked.get? place with
  | none =>
    rw [hheld] at hplace
    cases hplace
  | some e =>
    rw [hheld, afterBatch_some] at hplace
    split at hplace
    · rw [isPending_of_kept? hplace] at hpending
      cases hpending
    · -- what was not saved was not pending before
      rename_i hnot
      cases hplace
      exact hnot (hes.mem_iff.2 (mem_pending.2 ⟨hpending, place, hheld⟩))

/-- **Saving everything leaves nothing pending.** Start where nothing is tracked, and let anything
happen: rows come into the tables, entities in any state are attached, made, fetched and saved,
saves fail at the start or half-way, and the service comes and goes. After that every pending
entity is kept under its own type and the text of its own key value, and its type has a key. If the
service can be reached, then saving what is pending, in whatever order it is given, succeeds for
each of these entities, and nothing is pending any more. -/
theorem save_leaves_none_pending (history : List Occurrence) (hempty : s.tracked = .empty) :
    let t := s.afterAll history
    (∀ place e, t.tracked.get? place = some e → e.isPending = true → t.BelongsAt place e) ∧
      (t.outage = none → ∀ es, es = [] ∨ es.Perm t.pending →
        ∃ t', t.save es = (.ok ((t.batch es).map Entity.accepted), t') ∧
          (t.batch es).Perm t.pending ∧ t'.pending = []) := by
  intro t
  have hfiled : t.ChangesFiled := by
    refine invariant_changesFiled.afterAll (fun type values h => h.seed type values) ?_ history
    intro place e he
    rw [hempty] at he
    cases he
  refine ⟨fun place e he hpending => hfiled place e he (changed_of_isPending hpending), ?_⟩
  intro hout es hes
  have hbatch : (t.batch es).Perm t.pending := by
    rcases hes with rfl | hes
    · exact .refl _
    · rw [batch_of_perm_pending hes]
      exact hes
  have hkeyed : ∀ e ∈ t.batch es, ∃ key, t.schema.keyOf? e.type = some key :=
    fun e he => keyOf?_of_mem_pending hfiled (hbatch.mem_iff.1 he)
  obtain ⟨t', hsave, -⟩ := saveEach_ok hkeyed
  have hnone := pending_saveEach_of_perm hfiled hbatch
  rw [hsave] at hnone
  exact ⟨t', (save_of_reachable hout).trans hsave, hbatch, hnone⟩

/-- Positive and negative zero are the same key value and have different texts. -/
def zeroKey (negative : Bool) : Value := .number (.double ⟨negative, 0, Nat.zero_lt_succ _⟩)

/-- A line that was saved under one zero is fetched by the other one; a save cannot reach the
service, another one stops at an entity of an unknown type; and entities in all states come into
care. -/
def shopHistory : List Occurrence :=
  [.seeded "Customer" [.object [("id", zeroKey false)], .null],
    .asked (.fetch "Customer" (zeroKey true) false),
    .asked (.attach { type := "Customer", values := [("id", zeroKey false)], state := .modified }),
    .asked (.create "Customer" [("city", .string "Paris")]),
    .outage "down",
    .asked (.save []),
    .recovery,
    .asked (.save [{ type := "Line", values := [("order", .nat 8), ("position", .nat 1)],
                     state := .added }, strayOrder]),
    .asked (.attach { type := "Line", values := [("order", .nat 7), ("position", .nat 1)],
                      state := .deleted }),
    .asked (.attach { type := "Line", values := [("order", .nat 9), ("position", .nat 1)],
                      state := .detached })]

theorem save_leaves_none_pending_shop :
    let t := shop.afterAll shopHistory
    shop.tracked = .empty ∧ t.outage = none ∧ t.tracked.values.length = 6 ∧
      t.pending.length = 3 ∧
      ∃ t', t.save [] = (.ok (t.pending.map Entity.accepted), t') ∧ t'.pending = [] := by
  intro t
  obtain ⟨-, hsave⟩ := save_leaves_none_pending (s := shop) shopHistory rfl
  have hlength : t.pending.length = 3 := t.pending_perm.length_eq.trans (by decide +kernel)
  obtain ⟨t', hok, -, hnone⟩ := hsave rfl [] (.inl rfl)
  exact ⟨rfl, rfl, by decide +kernel, hlength, t', hok, hnone⟩

end Session

end DataAccess
