import DataAccess.Proofs.Session.Fetching
import DataAccess.Proofs.Store.Calls

/-!
# Unchanged entities are as they were saved

Saved rows are found by key values, tracked entities are kept by the texts of key values. As long
as key values are exact the two agree: what is tracked as unchanged is a saved row, under its own
key. Stores that share a session keep this up between them, whatever they are asked, whatever they
save at once or later, and whenever the service fails.

- `Session.AsSaved`, `Session.Coherent`: what is tracked as unchanged is as it was saved.
- `Session.ExactKeys`: no key value holds a double precision number.
- `Session.Consistent`: the invariant. Besides coherence it says that the tables are maps.
- `Session.Consistent.fetch`, `Session.Consistent.saveOne`, `Session.Consistent.saveEach`: what
  sessions do keeps the invariant; `Session.Consistent.moved` says this of a call.
- `Context.coherent_run`: it holds after every run.
-/

namespace DataAccess

namespace Session

/-! ## The invariant -/

/-- The entity is as the saved row with this key value, which is its own. -/
def AsSaved (s : Session) (k : Value) (e : Entity) : Prop :=
  ∃ key, s.schema.keyOf? e.type = some key ∧ key.valueOf e.values = k ∧
    (s.rows e.type).find? key k = some e.values

/-- Every entity that is tracked as unchanged is kept under its own type and key value, and is as
it was saved. -/
def Coherent (s : Session) : Prop :=
  ∀ place e, s.tracked.get? place = some e → e.state = .unchanged →
    ∃ k, place = trackingKey e.type k ∧ s.AsSaved k e

/-- The tables are maps, and what is tracked as unchanged is as it was saved. -/
structure Consistent (s : Session) : Prop where
  distinct : s.KeysDistinct
  coherent : s.Coherent

/-- The key values of saved rows are exact. -/
def ExactRows (s : Session) : Prop :=
  ∀ type key, s.schema.keyOf? type = some key → ∀ row ∈ s.rows type,
    (key.valueOf row).isExact = true

/-- The key values of saved rows and of tracked entities are exact. -/
def ExactKeys (s : Session) : Prop :=
  (∀ t ∈ s.tables.entries, ∀ key ∈ s.schema.keyOf? t.1, ∀ row ∈ t.2,
    (key.valueOf row).isExact = true) ∧
  ∀ t ∈ s.tracked.entries, ∀ key ∈ s.schema.keyOf? t.2.type,
    (key.valueOf t.2.values).isExact = true

instance : DecidablePred ExactKeys := fun s =>
  inferInstanceAs (Decidable ((∀ t ∈ s.tables.entries, ∀ key ∈ s.schema.keyOf? t.1, ∀ row ∈ t.2,
    (key.valueOf row).isExact = true) ∧
  ∀ t ∈ s.tracked.entries, ∀ key ∈ s.schema.keyOf? t.2.type,
    (key.valueOf t.2.values).isExact = true))

variable {s : Session} {e : Entity} {es : List Entity} {k : Value} {key : Key}

theorem ExactKeys.exactRows (h : s.ExactKeys) : s.ExactRows := by
  intro type key hkey row hrow
  unfold rows at hrow
  cases htable : s.tables.get? type with
  | none =>
    rw [htable] at hrow
    cases hrow
  | some table =>
    rw [htable] at hrow
    exact h.1 (type, table) (Keyed.mem_entries_iff.2 htable) key hkey row hrow

/-- The key value of an entity with something to save is exact, for it is tracked. -/
theorem ExactKeys.of_mem_pending (h : s.ExactKeys) (he : e ∈ s.pending)
    (hkey : s.schema.keyOf? e.type = some key) : (key.valueOf e.values).isExact = true := by
  obtain ⟨-, place, hplace⟩ := mem_pending.1 he
  exact h.2 (place, e) (Keyed.mem_entries_iff.2 hplace) key hkey

theorem AsSaved.eq_valueOf (h : s.AsSaved k e) (hkey : s.schema.keyOf? e.type = some key) :
    k = key.valueOf e.values := by
  obtain ⟨key', hkey', hk, -⟩ := h
  rw [hkey, Option.some.injEq] at hkey'
  rw [hkey', hk]

/-! ## Taking entities into care -/

/-- An entity may be taken into care if it is as it was saved, or does not count as unchanged. -/
theorem Coherent.track (h : s.Coherent) (he : e.state = .unchanged → s.AsSaved k e) :
    (s.track k e).Coherent := by
  intro place e' he' hunchanged
  rw [get?_tracked_track] at he'
  by_cases hplace : place = trackingKey e.type k
  · rw [if_pos hplace, Option.some.injEq] at he'
    subst he'
    exact ⟨k, hplace, he hunchanged⟩
  · rw [if_neg hplace] at he'
    exact h place e' he' hunchanged

theorem Consistent.track (h : s.Consistent) (he : e.state = .unchanged → s.AsSaved k e) :
    (s.track k e).Consistent :=
  ⟨h.distinct, h.coherent.track he⟩

theorem Consistent.attach (h : s.Consistent) (he : e.state = .unchanged → ∃ k, s.AsSaved k e) :
    (s.attach e).2.Consistent := by
  unfold Session.attach
  cases hkey : s.keyOf e.type with
  | error err => exact h
  | ok key =>
    refine h.track fun hunchanged => ?_
    obtain ⟨k, hsaved⟩ := he hunchanged
    rw [← hsaved.eq_valueOf (keyOf?_of_keyOf hkey)]
    exact hsaved

/-- What is fetched as unchanged is as it was saved: it was tracked, or it is a saved row. -/
theorem Consistent.fetch (h : s.Consistent) (hexact : s.ExactRows) (type : String)
    (wanted : Value) (preferTracked : Bool) :
    (s.fetch type wanted preferTracked).2.Consistent ∧
      (s.fetch type wanted preferTracked).2.ExactRows ∧
      ∀ e, (s.fetch type wanted preferTracked).1 = .ok (some e) → e.state = .unchanged →
        ∃ k, (s.fetch type wanted preferTracked).2.AsSaved k e := by
  have hfetched := s.fetched type wanted preferTracked
  generalize s.fetch type wanted preferTracked = answer at hfetched
  obtain ⟨r, s'⟩ := answer
  cases hfetched with
  | tracked hprefer htracked =>
    refine ⟨h, hexact, fun e he hunchanged => ?_⟩
    cases he
    obtain ⟨k, -, hsaved⟩ := h.coherent _ _ htracked hunchanged
    exact ⟨k, hsaved⟩
  | failed err => exact ⟨h, hexact, fun e he => nomatch he⟩
  | missing => exact ⟨h, hexact, fun e he => nomatch he⟩
  | saved hnot hkey hrow =>
    -- as key values of rows are exact, the row that was found has the very key value asked for
    have hsaved : s.AsSaved wanted { type, values := _ } :=
      ⟨_, hkey, (Table.eq_of_find? (hexact type _ hkey) hrow).1, hrow⟩
    refine ⟨h.track fun _ => hsaved, hexact, fun e he _ => ?_⟩
    cases he
    exact ⟨wanted, hsaved⟩

/-- Making an entity takes it into care; it does not count as unchanged. -/
theorem Consistent.create (h : s.Consistent) (hexact : s.ExactRows) (type : String)
    (values : Record) :
    (s.create type values).2.Consistent ∧ (s.create type values).2.ExactRows ∧
      ∀ e, (s.create type values).1 = .ok e → e.state = .added := by
  unfold Session.create
  cases s.keyOf type with
  | error err => exact ⟨h, hexact, fun e he => nomatch he⟩
  | ok key =>
    -- to generate a key value leaves rows and tracked entities alone
    have hissued : (s.withGeneratedKey key values).2.Consistent ∧
        (s.withGeneratedKey key values).2.ExactRows := by
      unfold withGeneratedKey
      split
      · split
        · exact ⟨⟨h.distinct, h.coherent⟩, hexact⟩
        · exact ⟨h, hexact⟩
      · exact ⟨h, hexact⟩
    dsimp only
    refine ⟨hissued.1.track (fun hunchanged => nomatch hunchanged), hissued.2, fun e he => ?_⟩
    cases he
    rfl

/-! ## Saving -/

theorem KeysDistinct.saveOne (h : s.KeysDistinct) (e : Entity) :
    (s.saveOne e).2.KeysDistinct := by
  intro type key hkey
  rw [schema_saveOne] at hkey
  cases hown : s.schema.keyOf? e.type with
  | none =>
    rw [saveOne_of_none hown]
    exact h type key hkey
  | some own =>
    rw [rows_saveOne hown]
    split
    · rename_i htype
      rw [htype, hown, Option.some.injEq] at hkey
      subst hkey
      exact (h type own (htype ▸ hown)).save e
    · exact h type key hkey

theorem ExactRows.saveOne (h : s.ExactRows)
    (hexact : ∀ key, s.schema.keyOf? e.type = some key → (key.valueOf e.values).isExact = true) :
    (s.saveOne e).2.ExactRows := by
  intro type key hkey row hrow
  rw [schema_saveOne] at hkey
  cases hown : s.schema.keyOf? e.type with
  | none =>
    rw [saveOne_of_none hown] at hrow
    exact h type key hkey row hrow
  | some own =>
    rw [rows_saveOne hown] at hrow
    split at hrow
    · rename_i htype
      rw [htype] at hkey
      rw [hown, Option.some.injEq] at hkey
      subst hkey
      rcases Table.mem_save hrow with rfl | hrow
      · exact hexact own hown
      · exact h type own (htype ▸ hown) row hrow
    · exact h type key hkey row hrow

/-- Saving an entity keeps what is tracked as unchanged as it was saved. The entity itself is then
as it was saved, or no longer tracked; every other one has another key, and its row stays. -/
theorem Coherent.saveOne (h : s.Coherent) (hdistinct : s.KeysDistinct) (hexact : s.ExactRows)
    (he : e.state = .unchanged → ∃ k, s.AsSaved k e) : (s.saveOne e).2.Coherent := by
  cases hkey : s.schema.keyOf? e.type with
  | none =>
    rw [saveOne_of_none hkey]
    exact h
  | some key =>
    intro place e' hplace' hunchanged
    rw [get?_tracked_saveOne hkey] at hplace'
    by_cases hplace : place = trackingKey e.type (key.valueOf e.values)
    · -- the entity itself
      rw [if_pos hplace] at hplace'
      split at hplace'
      · cases hplace'
      · rename_i hcared
        cases hplace'
        -- detached entities are dismissed, so this one was saved, or was unchanged before
        have hstate : e.state ≠ .detached := fun hd => hcared (by
          show e.state.afterSave = .detached
          rw [hd]
          rfl)
        have hsaved : e.state = .unchanged →
            (s.rows e.type).find? key (key.valueOf e.values) = some e.values := by
          intro hu
          obtain ⟨k, hk⟩ := he hu
          have hown := hk.eq_valueOf hkey
          obtain ⟨key', hkey', -, hfind⟩ := hk
          rw [hkey, Option.some.injEq] at hkey'
          subst hkey'
          rw [← hown]
          exact hfind
        refine ⟨key.valueOf e.values, hplace, key, ?_, rfl, ?_⟩
        · rw [schema_saveOne]
          exact hkey
        · have hfind := find?_saveOne_self hkey (hdistinct e.type key hkey) hstate hsaved
          rw [Entity.remains_of_accepted hunchanged] at hfind
          exact hfind
    · -- an entity with another key
      rw [if_neg hplace] at hplace'
      obtain ⟨k, hk, key', hkey', hown, hfind⟩ := h place e' hplace' hunchanged
      refine ⟨k, hk, key', ?_, hown, ?_⟩
      · rw [schema_saveOne]
        exact hkey'
      · by_cases htype : e'.type = e.type
        · rw [htype] at hk hkey' hfind ⊢
          rw [hkey, Option.some.injEq] at hkey'
          subst hkey'
          -- the key values differ, for they are kept in different places
          have hkexact := (Table.eq_of_find? (hexact e.type key hkey) hfind).2
          have hsame : (key.valueOf e.values).same k = false := by
            rw [Value.same_comm]
            refine Bool.eq_false_iff.2 fun hs => hplace ?_
            rw [hk, (Value.same_iff_eq hkexact _).1 hs]
          rw [find?_saveOne hkey (hdistinct e.type key hkey), KeyMap.apply_of_not_same _ hsame]
          exact hfind
        · rw [rows_saveOne hkey, if_neg htype]
          exact hfind

theorem Consistent.saveOne (h : s.Consistent) (hexact : s.ExactRows)
    (he : e.state = .unchanged → ∃ k, s.AsSaved k e) : (s.saveOne e).2.Consistent :=
  ⟨h.distinct.saveOne e, h.coherent.saveOne h.distinct hexact he⟩

/-- Entities that do not count as unchanged are saved one after the other; the key values of rows
stay exact on the way. -/
theorem Consistent.saveEach (h : s.Consistent) (hexact : s.ExactRows)
    (hes : ∀ e ∈ es, e.state ≠ .unchanged ∧
      ∀ key, s.schema.keyOf? e.type = some key → (key.valueOf e.values).isExact = true) :
    (Session.saveEach es s).2.Consistent := by
  induction es generalizing s with
  | nil => exact h
  | cons e rest ih =>
    obtain ⟨hstate, hown⟩ := hes e List.mem_cons_self
    have hnext := h.saveOne hexact fun hunchanged => absurd hunchanged hstate
    have hrest : (Session.saveEach rest (s.saveOne e).2).2.Consistent := by
      refine ih hnext (hexact.saveOne hown) fun e' he' => ?_
      rw [schema_saveOne]
      exact hes e' (List.mem_cons_of_mem _ he')
    rw [snd_saveEach_cons]
    split
    · exact hnext
    · exact hrest

/-- Saving everything that is pending. -/
theorem Consistent.save_pending (h : s.Consistent) (hexact : s.ExactKeys) :
    (s.save []).2.Consistent := by
  unfold Session.save
  cases s.outageError? with
  | some err => exact h
  | none =>
    refine h.saveEach hexact.exactRows fun e he =>
      ⟨?_, fun key hkey => hexact.of_mem_pending he hkey⟩
    obtain ⟨hpending, -⟩ := mem_pending.1 he
    intro hunchanged
    unfold Entity.isPending at hpending
    rw [hunchanged] at hpending
    cases hpending

/-- Saving a single entity. -/
theorem Consistent.save_singleton (h : s.Consistent) (hexact : s.ExactRows)
    (he : e.state = .unchanged → ∃ k, s.AsSaved k e) : (s.save [e]).2.Consistent := by
  have hone := h.saveOne hexact he
  unfold Session.save
  cases s.outageError? with
  | some err => exact h
  | none =>
    show (Session.saveEach [e] s).2.Consistent
    rw [snd_saveEach_cons]
    split <;> exact hone

/-! ## Changes -/

theorem Consistent.enter (h : s.Consistent) (hexact : s.ExactRows) (policy : Policy)
    (type : String) (values : Record) : (s.enter policy type values).Consistent := by
  obtain ⟨hnext, hexact', hnew⟩ := h.create hexact type values
  unfold Session.enter
  cases hcreate : s.create type values with
  | mk r s' =>
    rw [hcreate] at hnext hexact' hnew
    cases r with
    | error err => exact hnext
    | ok e =>
      have hadded := hnew e rfl
      dsimp only
      split
      · refine hnext.save_singleton hexact' fun hunchanged => ?_
        rw [hadded] at hunchanged
        cases hunchanged
      · exact hnext

theorem Consistent.edit (h : s.Consistent) (hexact : s.ExactRows) (policy : Policy)
    (type : String) (wanted : Value) {change : Entity → Entity}
    (hidle : ∀ e, (change e).state = .unchanged → change e = e) :
    (s.edit policy type wanted change).Consistent := by
  obtain ⟨hnext, hexact', hfound⟩ := h.fetch hexact type wanted policy.preferTracked
  unfold Session.edit
  cases hfetch : s.fetch type wanted policy.preferTracked with
  | mk r s' =>
    rw [hfetch] at hnext hexact' hfound
    cases r with
    | error err => exact hnext
    | ok found =>
      cases found with
      | none => exact hnext
      | some e =>
        -- what counts as unchanged after the change is what was found
        have hchange : (change e).state = .unchanged → ∃ k, s'.AsSaved k (change e) := by
          intro hunchanged
          have hsame := hidle e hunchanged
          rw [hsame] at hunchanged ⊢
          exact hfound e rfl hunchanged
        dsimp only
        split
        · exact hnext.save_singleton hexact' hchange
        · exact hnext.attach hchange

/-- A call keeps the invariant, if it does not ask to save entities of the caller's choice. -/
theorem Consistent.moved (h : s.Consistent) (hexact : s.ExactKeys) {call : Call} {s' : Session}
    (hcommit : ∀ entities, call = .commit entities → entities = []) (hmoved : s.Moved call s') :
    s'.Consistent := by
  have hrows := hexact.exactRows
  cases hmoved with
  | refused => exact h
  | asked hreads sent => exact ⟨h.distinct, h.coherent⟩
  | entered policy type values => exact h.enter hrows policy type values
  | updated policy type wanted values =>
    exact h.edit hrows policy type wanted fun _ => Entity.setFields_eq_self
  | removed policy type wanted =>
    exact h.edit hrows policy type wanted fun e he => absurd he e.state_markDeleted_ne
  | saved entities =>
    rw [hcommit entities rfl]
    exact h.save_pending hexact

end Session

namespace Context

variable {c : Context Session}

/-- An event keeps the invariant. -/
theorem consistent_step (h : c.service.Consistent) (hexact : c.service.ExactKeys) {event : Event}
    (hcommit : ∀ store entities, event = .call store (.commit entities) → entities = []) :
    (c.step event).service.Consistent := by
  cases event with
  | call store call =>
    refine h.moved hexact (fun entities hcall => ?_) (store.moved call c)
    exact hcommit store entities (by rw [hcall])
  | outage text => exact ⟨h.distinct, h.coherent⟩
  | recovery => exact ⟨h.distinct, h.coherent⟩
  | rearranged listing => exact ⟨h.distinct, h.coherent⟩

/-- Several events keep the invariant. -/
theorem consistent_run {events : List Event} (h : c.service.Consistent)
    (hexact : c.Throughout Session.ExactKeys events)
    (hcommit : ∀ store entities, .call store (.commit entities) ∈ events → entities = []) :
    (c.run events).service.Consistent := by
  induction events generalizing c with
  | nil => exact h
  | cons event events ih =>
    have hstep : (c.step event).service.Consistent := by
      refine consistent_step h hexact.1 fun store entities hevent => ?_
      exact hcommit store entities (hevent ▸ List.mem_cons_self)
    exact ih hstep hexact.2 fun store entities hmem =>
      hcommit store entities (List.mem_cons_of_mem _ hmem)

/-- **Unchanged entities are as they were saved.** Start where nothing is tracked and the rows of
every type have pairwise different keys, and let any stores insert, update, remove, save what is
pending and read, in any order, with outages in between. As long as key values are exact, every
entity that is tracked as unchanged afterwards is kept under its own type and key value, and its
values are those of the saved row with that key, which is there. -/
theorem coherent_run (events : List Event) (hempty : c.service.tracked = .empty)
    (hdistinct : c.service.KeysDistinct) (hexact : c.Throughout Session.ExactKeys events)
    (hcommit : ∀ store entities, .call store (.commit entities) ∈ events → entities = []) :
    (c.run events).service.Coherent := by
  have hstart : c.service.Consistent := by
    refine ⟨hdistinct, fun place e he => ?_⟩
    rw [hempty] at he
    cases he
  exact (consistent_run hstart hexact hcommit).coherent

/-! ## Stores that disturb each other -/

/-- A customer waits to be saved while the service fails and others come and go. A store that does
not look at tracked entities then gives another customer the key of the first one. -/
def shopRun : List Event :=
  let waiting : Store := { resource := "customers" }
  let direct : Store := { resource := "customers", policy := { saveAtOnce := true } }
  let blind : Store := { resource := "customers", policy := { preferTracked := false } }
  [.call waiting (.update (.string "c1") [("city", .string "Bergen")]),
    .outage "down",
    .call waiting (.commit []),
    .recovery,
    .call direct (.insert [("city", .string "Paris"), ("id", .string "c3")]),
    .call blind (.update (.string "c2") [("id", .string "c1")]),
    .call waiting (.remove (.string "c3")),
    .call waiting (.commit []),
    .call direct (.findRow (.string "c1"))]

theorem coherent_run_shop :
    let c : Context Session := { service := Session.shop }
    c.service.tracked = .empty ∧ c.service.KeysDistinct ∧
      c.Throughout Session.ExactKeys shopRun ∧
      (∀ store entities, .call store (.commit entities) ∈ shopRun → entities = []) ∧
      ∃ e, (c.run shopRun).service.tracked.get? (trackingKey "Customer" (.string "c1")) = some e ∧
        e.values = [("city", .string "Rome"), ("id", .string "c1")] ∧
        (c.run shopRun).service.AsSaved (.string "c1") e := by
  intro c
  have hexact : c.Throughout Session.ExactKeys shopRun := by decide +kernel
  have hcommit : ∀ store entities, .call store (.commit entities) ∈ shopRun → entities = [] := by
    simp [shopRun]
  have hcoherent := coherent_run (c := c) shopRun rfl Session.keysDistinct_shop hexact hcommit
  have htracked : (c.run shopRun).service.tracked.get? (trackingKey "Customer" (.string "c1")) =
      some { type := "Customer", values := [("city", .string "Rome"), ("id", .string "c1")] } := by
    decide +kernel
  obtain ⟨k, hk, hsaved⟩ := hcoherent _ _ htracked rfl
  refine ⟨rfl, Session.keysDistinct_shop, hexact, hcommit, _, htracked, rfl, ?_⟩
  exact (trackingKey_inj (k := .string "c1") rfl hk).2 ▸ hsaved

end Context

end DataAccess
