import DataAccess.Proofs.Session.Histories
import DataAccess.Proofs.Store.Deferral

/-!
# A change stays in its place

Stores share the saved rows of a service and its unit of work, where what other stores changed may
still wait to be saved. A change that one store makes concerns the entity with the key that the
caller names and the one with the key that is there afterwards. Everything else stays as it is,
whether the change waits or is saved at once, and whether it succeeds or fails.

- `Schema.isElsewhere`: whether a record is none of those that a change is about.
- `Session.SameElsewhere`: everything else is as before.
- `Session.Housed`: where the subjects of a change are kept, nothing else is kept.
- `Session.Confined`: a step after which everything else is as before, and from which the next step
  can start; `Confined.fetch`, `Confined.edit` and `Confined.enter` put changes together from such
  steps.
- `Store.subjects`: what a change is about.
- `Store.sameElsewhere_apply`: a change after any history leaves everything else as it was.
-/

namespace DataAccess

/-- Whether a record of a type is none of some subjects, each of which is a type and a key value.
Where no key of the type is known, there are no subjects of that type. -/
def Schema.isElsewhere (schema : Schema) (subjects : List (String × Value)) (type : String)
    (values : Record) : Bool :=
  match schema.keyOf? type with
  | some key => decide ((type, key.valueOf values) ∉ subjects)
  | none => true

theorem Schema.isElsewhere_eq_false {schema : Schema} {subjects : List (String × Value)}
    {type : String} {key : Key} {values : Record} (hkey : schema.keyOf? type = some key)
    (h : (type, key.valueOf values) ∈ subjects) :
    schema.isElsewhere subjects type values = false := by
  unfold isElsewhere
  rw [hkey]
  exact decide_eq_false (not_not_intro h)

namespace Session

variable {subjects : List (String × Value)} {s s' s'' : Session} {e : Entity} {k : Value}

/-- Whether a tracked entity is none of the subjects. -/
def isElsewhere (s : Session) (subjects : List (String × Value)) (e : Entity) : Bool :=
  s.schema.isElsewhere subjects e.type e.values

/-! ## Everything else is as before -/

/-- Apart from the subjects, the two sessions have the same saved rows of every type, in the same
order, and track the same entities in the same places. -/
structure SameElsewhere (subjects : List (String × Value)) (s s' : Session) : Prop where
  schema : s'.schema = s.schema
  rows : ∀ type, (s'.rows type).filter (s.schema.isElsewhere subjects type) =
    (s.rows type).filter (s.schema.isElsewhere subjects type)
  tracked : ∀ place e, s.isElsewhere subjects e = true →
    (s'.tracked.get? place = some e ↔ s.tracked.get? place = some e)

namespace SameElsewhere

theorem refl (subjects : List (String × Value)) (s : Session) : SameElsewhere subjects s s :=
  ⟨rfl, fun _ => rfl, fun _ _ _ => Iff.rfl⟩

theorem trans (h : SameElsewhere subjects s s') (h' : SameElsewhere subjects s' s'') :
    SameElsewhere subjects s s'' := by
  constructor
  · exact h'.schema.trans h.schema
  · intro type
    have hrows := h'.rows type
    rw [h.schema] at hrows
    exact hrows.trans (h.rows type)
  · intro place e he
    refine (h'.tracked place e ?_).trans (h.tracked place e he)
    unfold isElsewhere
    rwa [h.schema]

/-- What is pending elsewhere is still pending, and nothing else there has come to be. -/
theorem mem_pending_iff (h : SameElsewhere subjects s s') (he : s.isElsewhere subjects e = true) :
    e ∈ s'.pending ↔ e ∈ s.pending := by
  simp only [mem_pending, h.tracked _ e he]

end SameElsewhere

/-! ## Single steps -/

/-- In the places of the subjects nothing is tracked that is none of them. -/
def Housed (subjects : List (String × Value)) (s : Session) : Prop :=
  ∀ subject ∈ subjects, ∀ e, s.tracked.get? (trackingKey subject.1 subject.2) = some e →
    s.isElsewhere subjects e = false

/-- Where every entity is kept under its own exact key value, the places of the subjects are
theirs alone. -/
theorem Filed.housed (h : s.Filed) : s.Housed subjects := by
  rintro ⟨type, k⟩ hsubject e he
  obtain ⟨key, hkey, hexact, hplace⟩ := h _ e he
  obtain ⟨htype, hk⟩ := trackingKey_inj hexact hplace.symm
  refine Schema.isElsewhere_eq_false hkey ?_
  rw [htype, hk]
  exact hsubject

/-- A step that leaves everything else as before, and after which the subjects still have their
places to themselves. -/
structure Confined (subjects : List (String × Value)) (s s' : Session) : Prop where
  same : SameElsewhere subjects s s'
  housed : s'.Housed subjects

namespace Confined

theorem trans (h : Confined subjects s s') (h' : Confined subjects s' s'') :
    Confined subjects s s'' :=
  ⟨h.same.trans h'.same, h'.housed⟩

variable (hhoused : s.Housed subjects)

include hhoused

theorem refl : Confined subjects s s := ⟨.refl subjects s, hhoused⟩

/-- What is tracked may change in the place of a subject, as long as a subject comes there, or
nothing. -/
theorem of_place {place : String × String} {new : Option Entity}
    (hschema : s'.schema = s.schema)
    (hrows : ∀ type, (s'.rows type).filter (s.schema.isElsewhere subjects type) =
      (s.rows type).filter (s.schema.isElsewhere subjects type))
    (htracked : ∀ other, s'.tracked.get? other =
      if other = place then new else s.tracked.get? other)
    (hplace : ∃ subject ∈ subjects, place = trackingKey subject.1 subject.2)
    (hnew : ∀ e, new = some e → s.isElsewhere subjects e = false) : Confined subjects s s' := by
  obtain ⟨own, hown, rfl⟩ := hplace
  refine ⟨⟨hschema, hrows, ?_⟩, ?_⟩
  · intro other e he
    rw [htracked]
    split
    · -- neither what comes nor what goes is elsewhere
      rename_i hother
      subst hother
      constructor
      · intro hcome
        rw [hnew e hcome] at he
        cases he
      · intro hgo
        rw [hhoused own hown e hgo] at he
        cases he
    · exact Iff.rfl
  · intro subject hsubject e he
    unfold isElsewhere
    rw [hschema]
    rw [htracked] at he
    split at he
    · exact hnew e he
    · exact hhoused subject hsubject e he

/-- A subject is taken into care in the place of a subject. -/
theorem track (hsubject : (e.type, k) ∈ subjects) (he : s.isElsewhere subjects e = false) :
    Confined subjects s (s.track k e) := by
  refine of_place hhoused rfl (fun _ => rfl) (get?_tracked_track s k e)
    ⟨(e.type, k), hsubject, rfl⟩ ?_
  rintro e' ⟨⟩
  exact he

variable (hsubject : ∀ key, s.schema.keyOf? e.type = some key →
  (e.type, key.valueOf e.values) ∈ subjects)

include hsubject

theorem attach : Confined subjects s (s.attach e).2 := by
  unfold Session.attach
  cases hkey : s.keyOf e.type with
  | error err => exact refl hhoused
  | ok key =>
    have hkey' := keyOf?_of_keyOf hkey
    have hown := hsubject key hkey'
    exact track hhoused hown (Schema.isElsewhere_eq_false hkey' hown)

/-- A subject is saved. The rows that it can replace or remove are rows of that subject. -/
theorem saveOne (hexact : s.ExactRows) : Confined subjects s (s.saveOne e).2 := by
  cases hkey : s.schema.keyOf? e.type with
  | none =>
    rw [saveOne_of_none hkey]
    exact refl hhoused
  | some key =>
    have hown := hsubject key hkey
    refine of_place hhoused (schema_saveOne s e) ?_ (get?_tracked_saveOne hkey)
      ⟨_, hown, rfl⟩ ?_
    · intro type
      rw [rows_saveOne hkey]
      split
      · rename_i htype
        subst htype
        refine Table.filter_save (Schema.isElsewhere_eq_false hkey hown) ?_
        intro row hrow hsame
        refine Schema.isElsewhere_eq_false hkey ?_
        rwa [(Value.same_iff_eq (hexact e.type key hkey row hrow) _).1 hsame]
      · rfl
    · intro e' he'
      split at he'
      · cases he'
      · cases he'
        exact Schema.isElsewhere_eq_false hkey hown

theorem save_singleton (hexact : s.ExactRows) : Confined subjects s (s.save [e]).2 := by
  cases hout : s.outage with
  | some text =>
    rw [save_of_outage hout]
    exact refl hhoused
  | none =>
    have hone := saveOne hhoused hsubject hexact
    rw [save_of_ne_nil hout (List.cons_ne_nil e []), snd_saveEach_cons]
    split <;> exact hone

end Confined

/-! ## Changes -/

theorem ExactRows.congr (h : s.ExactRows) (hschema : s'.schema = s.schema)
    (hrows : ∀ type, s'.rows type = s.rows type) : s'.ExactRows := by
  intro type key hkey
  rw [hschema] at hkey
  rw [hrows]
  exact h type key hkey

variable {type : String} {wanted : Value} (hfiled : s.Filed) (hexact : s.ExactRows)

include hfiled hexact

/-- What is fetched has the type and the key value that were asked for, where every entity is kept
under its own. -/
theorem eq_of_fetch {preferTracked : Bool}
    (h : (s.fetch type wanted preferTracked).1 = .ok (some e)) :
    ∃ key, s.schema.keyOf? type = some key ∧ e.type = type ∧ key.valueOf e.values = wanted := by
  have hfetched := s.fetched type wanted preferTracked
  rw [h] at hfetched
  generalize (s.fetch type wanted preferTracked).2 = s' at hfetched
  cases hfetched with
  | tracked hprefer htracked =>
    obtain ⟨key, hkey, hown, hplace⟩ := hfiled _ e htracked
    obtain ⟨rfl, hk⟩ := trackingKey_inj hown hplace.symm
    exact ⟨key, hkey, rfl, hk⟩
  | saved hnot hkey hrow =>
    exact ⟨_, hkey, rfl, (Table.eq_of_find? (hexact type _ hkey) hrow).1⟩

/-- Fetching takes nothing into care but an entity with the key that was asked for. -/
theorem Confined.fetch (hwanted : (type, wanted) ∈ subjects) (preferTracked : Bool) :
    Confined subjects s (s.fetch type wanted preferTracked).2 := by
  have hhoused : s.Housed subjects := hfiled.housed
  have hfetched := s.fetched type wanted preferTracked
  generalize s.fetch type wanted preferTracked = answer at hfetched
  obtain ⟨r, s'⟩ := answer
  cases hfetched with
  | tracked => exact refl hhoused
  | failed => exact refl hhoused
  | missing => exact refl hhoused
  | saved hnot hkey hrow =>
    refine track hhoused hwanted (Schema.isElsewhere_eq_false hkey ?_)
    rw [(Table.eq_of_find? (hexact type _ hkey) hrow).1]
    exact hwanted

/-- A change to an entity concerns the key that the caller names and the one that the entity has
afterwards. -/
theorem Confined.edit (policy : Policy) {change : Entity → Entity}
    (hchange : ∀ e, (change e).type = e.type) (hwanted : (type, wanted) ∈ subjects)
    (hchanged : ∀ e key, (s.fetch type wanted policy.preferTracked).1 = .ok (some e) →
      s.schema.keyOf? type = some key → (type, key.valueOf (change e).values) ∈ subjects) :
    Confined subjects s (s.edit policy type wanted change) := by
  have hfetch := Confined.fetch hfiled hexact hwanted policy.preferTracked
  have hrows := s.rows_fetch type wanted policy.preferTracked
  have hschema := s.schema_fetch type wanted policy.preferTracked
  unfold Session.edit
  cases hanswer : s.fetch type wanted policy.preferTracked with
  | mk r s₁ =>
    rw [hanswer] at hfetch hrows hschema hchanged
    cases r with
    | error err => exact hfetch
    | ok found =>
      cases found with
      | none => exact hfetch
      | some e =>
        obtain ⟨-, -, htype, -⟩ := eq_of_fetch hfiled hexact (congrArg Prod.fst hanswer)
        have hsubject : ∀ key, s₁.schema.keyOf? (change e).type = some key →
            ((change e).type, key.valueOf (change e).values) ∈ subjects := by
          intro key hkey
          rw [hschema, hchange, htype] at hkey
          rw [hchange, htype]
          exact hchanged e key rfl hkey
        dsimp only
        split
        · exact hfetch.trans (save_singleton hfetch.housed hsubject (hexact.congr hschema hrows))
        · exact hfetch.trans (attach hfetch.housed hsubject)

/-- A new entity concerns its own key. -/
theorem Confined.enter (policy : Policy) {values : Record}
    (hnew : ∀ key, s.schema.keyOf? type = some key →
      (type, key.valueOf (s.newEntity type key values).values) ∈ subjects) :
    Confined subjects s (s.enter policy type values) := by
  have hhoused : s.Housed subjects := hfiled.housed
  have hcreated := s.created type values
  unfold Session.enter
  generalize s.create type values = answer at hcreated
  obtain ⟨r, s₁⟩ := answer
  cases hcreated with
  | refused => exact refl hhoused
  | made issued hkey =>
    have hissued : Confined subjects s { s with issued } :=
      ⟨⟨rfl, fun _ => rfl, fun _ _ _ => Iff.rfl⟩, hhoused⟩
    have hown := hnew _ hkey
    have he : s.isElsewhere subjects (s.newEntity type _ values) = false :=
      Schema.isElsewhere_eq_false hkey hown
    have htrack := hissued.trans (track hissued.housed hown he)
    dsimp only
    split
    · refine htrack.trans (save_singleton htrack.housed ?_ (hexact.congr rfl fun _ => rfl))
      intro key' hkey'
      cases hkey.symm.trans hkey'
      exact hown
    · exact htrack

end Session

namespace Store

variable {store : Store} {c : Context Session}

/-- What a change is about: the key that the caller names, and the key that the created or updated
entity has. Where no key is known there is nothing that could change. -/
def subjects (store : Store) (s : Session) (change : Change) : List (String × Value) :=
  match store.typeName? s.schema with
  | none => []
  | some type =>
    match change with
    | .insert values =>
      (s.schema.keyOf? type).toList.map fun key =>
        (type, key.valueOf (s.newEntity type key values).values)
    | .update wanted values =>
      (type, wanted) ::
        match (s.fetch type wanted store.policy.preferTracked).1, s.schema.keyOf? type with
        | .ok (some e), some key => [(type, key.valueOf (e.values.overlay values))]
        | _, _ => []
    | .remove wanted => [(type, wanted)]

/-- A change leaves everything else as it was, where tracked entities are filed and the key values
of rows are exact. -/
theorem confined_apply (store : Store) (change : Change) (hfiled : c.service.Filed)
    (hexact : c.service.ExactRows) :
    Session.Confined (store.subjects c.service change) c.service
      (store.apply c change).service := by
  cases htype : store.typeName? c.service.schema with
  | none =>
    have hsame : (store.apply c change).service = c.service := by
      cases change with
      | insert values => exact insert_of_none htype values
      | update wanted values =>
        show ((store.update wanted values).perform c).2.service = c.service
        unfold update
        rw [Action.perform_bind_error (findEntity_of_none htype wanted)]
      | remove wanted =>
        show ((store.remove wanted).perform c).2.service = c.service
        unfold remove
        rw [Action.perform_bind_error (findEntity_of_none htype wanted)]
    rw [hsame]
    exact .refl hfiled.housed
  | some type =>
    unfold subjects
    rw [htype]
    cases change with
    | insert values =>
      unfold apply
      rw [service_insert htype]
      refine .enter hfiled hexact store.policy fun key hkey => ?_
      simp [hkey]
    | update wanted values =>
      unfold apply
      rw [service_update htype]
      refine .edit hfiled hexact store.policy (fun e => e.type_setFields values)
        List.mem_cons_self ?_
      intro e key hfound hkey
      simp [hfound, hkey]
    | remove wanted =>
      unfold apply
      rw [service_remove htype]
      refine .edit hfiled hexact store.policy (fun _ => rfl) List.mem_cons_self ?_
      intro e key hfound hkey
      obtain ⟨key', hkey', -, hown⟩ := Session.eq_of_fetch hfiled hexact hfound
      cases hkey.symm.trans hkey'
      show (type, key.valueOf e.values) ∈ [(type, wanted)]
      rw [hown]
      exact List.mem_singleton_self _

/-- **A change stays in its place.** Let anything have happened to a service that several stores
share: rows came into the tables, entities in any state were attached, made, fetched and saved,
saves failed, and the service came and went. As long as no key value holds a double precision
number, a change that one store makes, however the store works and whether the change succeeds or
fails, leaves all saved rows as they were, in their order, and all tracked entities where they were,
with values and states, except for those of the type of the store with the key that the caller named
or with the key of the created or updated entity. So of all other entities the same are pending as
before: saving at once saves none of them. -/
theorem sameElsewhere_apply (store : Store) (change : Change) (history : List Occurrence)
    (hempty : c.service.tracked = .empty) (hexact : (c.service.afterAll history).ExactKeys) :
    let before : Context Session := { c with service := c.service.afterAll history }
    let after := store.apply before change
    let subjects := store.subjects before.service change
    before.service.SameElsewhere subjects after.service ∧
      ∀ e, before.service.isElsewhere subjects e = true →
        (e ∈ after.service.pending ↔ e ∈ before.service.pending) := by
  intro before after subjects
  have hfiled : before.service.Filed := by
    refine Session.FiledAlike.filed ?_ hexact
    refine Session.invariant_filedAlike.afterAll (fun type values h => h) ?_ history
    intro place e he
    rw [hempty] at he
    cases he
  have hsame := (confined_apply (c := before) store change hfiled hexact.exactRows).same
  exact ⟨hsame, fun e he => hsame.mem_pending_iff he⟩

/-- A customer moved and a line is to be removed, which both wait; a third customer was saved, and
a save failed. -/
def sharedHistory : List Occurrence :=
  [.seeded "Customer" [.object [("city", .string "Lima"), ("id", .string "c3")]],
    .asked (.fetch "Customer" (.string "c2") true),
    .asked (.attach { type := "Customer",
                      values := [("city", .string "Bergen"), ("id", .string "c1")],
                      state := .modified }),
    .asked (.attach { type := "Line", values := [("order", .nat 7), ("position", .nat 1)],
                      state := .deleted }),
    .outage "down",
    .asked (.save []),
    .recovery]

/-- A customer is given another number, which is saved at once. The move of the first customer is
neither saved nor lost. -/
theorem sameElsewhere_apply_shop :
    let store : Store :=
      { resource := "customers", policy := { saveAtOnce := true, preferTracked := false } }
    let change : Change := .update (.string "c2") [("id", .string "c9")]
    let before : Context Session := { service := Session.shop.afterAll sharedHistory }
    let after := store.apply before change
    let subjects := [("Customer", .string "c2"), ("Customer", .string "c9")]
    let move : Entity :=
      { type := "Customer", values := [("city", .string "Bergen"), ("id", .string "c1")],
        state := .modified }
    before.service.ExactKeys ∧ store.subjects before.service change = subjects ∧
      before.service.isElsewhere subjects move = true ∧ move ∈ after.service.pending ∧
      (after.service.rows "Customer").filter
          (before.service.schema.isElsewhere subjects "Customer") =
        [[("city", .string "Oslo"), ("id", .string "c1")],
          [("city", .string "Lima"), ("id", .string "c3")]] := by
  intro store change before after subjects move
  have hexact : before.service.ExactKeys := by decide +kernel
  have hsubjects : store.subjects before.service change = subjects := by decide +kernel
  have helsewhere : before.service.isElsewhere subjects move = true := by decide +kernel
  have hwaiting : move ∈ before.service.pending :=
    Session.mem_pending.2 ⟨rfl, trackingKey "Customer" (.string "c1"), by decide +kernel⟩
  obtain ⟨hsame, hpending⟩ :=
    sameElsewhere_apply (c := { service := Session.shop }) store change sharedHistory rfl hexact
  change before.service.SameElsewhere (store.subjects before.service change) _ at hsame
  change ∀ e, before.service.isElsewhere (store.subjects before.service change) e = true → _
    at hpending
  rw [hsubjects] at hsame hpending
  exact ⟨hexact, hsubjects, helsewhere, (hpending move helsewhere).2 hwaiting,
    (hsame.rows "Customer").trans (by decide +kernel)⟩

end Store

end DataAccess
