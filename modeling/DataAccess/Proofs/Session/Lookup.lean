import DataAccess.Proofs.Session.Saving
import DataAccess.Proofs.Value.Writing

/-!
# Finding entities by key

A session finds an entity among the tracked ones or else among the saved rows. Tracked entities
are found by the text of a key value and rows by the key value itself, so the two have to fit
together.

- `Session.entityAt`: the entity that is found.
- `Session.Orderly`: the rows of a type have pairwise different exact keys, and every tracked
  entity is kept under its own key. `Orderly.eq_of_entityAt` says that what is found has the key
  that was looked for.
- `Session.fetch_eq`, `Orderly.fetch`: fetching answers with the entity that is found and changes
  nothing about what is found where.
- `Session.entityAt_track`, `Orderly.saveOne_at`: what is found after an entity was taken into care
  or saved.
- `Orderly.save_pending`: the rows that are there after everything pending was saved.
-/

namespace DataAccess

/-- Exact keys are tracked in one place only if they are equal. -/
theorem trackingKey_inj {type other : String} {k k' : Value} (he : k.isExact = true)
    (h : trackingKey type k = trackingKey other k') : type = other ∧ k = k' := by
  obtain ⟨htype, htext⟩ := Prod.mk.inj h
  exact ⟨htype, Value.eq_of_render_eq he htext⟩

namespace Session

/-- The entity that is found under a key: the tracked one, or else the saved row. -/
def entityAt (s : Session) (type : String) (key : Key) (wanted : Value) : Option Entity :=
  match s.tracked.get? (trackingKey type wanted) with
  | some e => some e
  | none => ((s.rows type).find? key wanted).map fun values => { type, values }

/-- Every tracked entity is kept under its own type and key value, which is exact. -/
def Filed (s : Session) : Prop :=
  ∀ place e, s.tracked.get? place = some e → ∃ key, s.schema.keyOf? e.type = some key ∧
    (key.valueOf e.values).isExact = true ∧
    place = trackingKey e.type (key.valueOf e.values)

/-- The rows of a type have pairwise different exact keys, and the tracked entities are filed. -/
structure Orderly (type : String) (key : Key) (s : Session) : Prop where
  keyOf? : s.schema.keyOf? type = some key
  distinct : (s.rows type).Distinct key
  exact_rows : ∀ row ∈ s.rows type, (key.valueOf row).isExact = true
  filed : s.Filed

variable {s : Session} {type : String} {key : Key} {e : Entity}

theorem entityAt_of_tracked {wanted : Value}
    (h : s.tracked.get? (trackingKey type wanted) = some e) :
    s.entityAt type key wanted = some e := by
  unfold entityAt
  rw [h]

theorem entityAt_of_not_tracked {wanted : Value}
    (h : s.tracked.get? (trackingKey type wanted) = none) :
    s.entityAt type key wanted =
      ((s.rows type).find? key wanted).map fun values => { type, values } := by
  unfold entityAt
  rw [h]

/-- A tracked entity is found under its own key. -/
theorem Orderly.tracked_eq (h : s.Orderly type key) {k : Value}
    (he : s.tracked.get? (trackingKey type k) = some e) :
    e.type = type ∧ key.valueOf e.values = k ∧ k.isExact = true := by
  obtain ⟨key', hkey', hexact, hplace⟩ := h.filed _ _ he
  obtain ⟨htype, hk⟩ := trackingKey_inj hexact hplace.symm
  rw [htype, h.keyOf?, Option.some.injEq] at hkey'
  subst hkey'
  exact ⟨htype, hk, hk ▸ hexact⟩

theorem Orderly.row_eq (h : s.Orderly type key) {k : Value} {row : Record}
    (hrow : (s.rows type).find? key k = some row) :
    key.valueOf row = k ∧ k.isExact = true :=
  Table.eq_of_find? h.exact_rows hrow

/-- What is found under a key has that key, and the key is exact. -/
theorem Orderly.eq_of_entityAt (h : s.Orderly type key) {k : Value}
    (he : s.entityAt type key k = some e) :
    e.type = type ∧ key.valueOf e.values = k ∧ k.isExact = true := by
  cases ht : s.tracked.get? (trackingKey type k) with
  | some e' =>
    rw [entityAt_of_tracked ht, Option.some.injEq] at he
    subst he
    exact h.tracked_eq ht
  | none =>
    rw [entityAt_of_not_tracked ht, Option.map_eq_some_iff] at he
    obtain ⟨row, hrow, rfl⟩ := he
    exact ⟨rfl, h.row_eq hrow⟩

/-! ## Fetching -/

@[simp] theorem schema_track (s : Session) (k : Value) (e : Entity) :
    (s.track k e).schema = s.schema := rfl

@[simp] theorem rows_track (s : Session) (k : Value) (e : Entity) (type : String) :
    (s.track k e).rows type = s.rows type := rfl

theorem get?_tracked_track (s : Session) (k : Value) (e : Entity) (place : String × String) :
    (s.track k e).tracked.get? place =
      if place = trackingKey e.type k then some e else s.tracked.get? place :=
  Keyed.get?_insert _ _ _ _

/-- Fetching answers with the entity that is found. It changes nothing, or takes a saved row into
care where nothing was tracked. -/
theorem fetch_eq (hkey : s.schema.keyOf? type = some key) (hout : s.outage = none)
    (wanted : Value) :
    (s.fetch type wanted true).1 = .ok (s.entityAt type key wanted) ∧
      ((s.fetch type wanted true).2 = s ∨
        ∃ row, s.tracked.get? (trackingKey type wanted) = none ∧
          (s.rows type).find? key wanted = some row ∧
          (s.fetch type wanted true).2 = s.track wanted { type, values := row }) := by
  unfold fetch preferred?
  rw [if_pos rfl]
  cases ht : s.tracked.get? (trackingKey type wanted) with
  | some e => exact ⟨by rw [entityAt_of_tracked ht], .inl rfl⟩
  | none =>
    rw [entityAt_of_not_tracked ht, outageError?_of_none hout, keyOf_of_keyOf? hkey]
    dsimp only
    cases hrow : (s.rows type).find? key wanted with
    | none => exact ⟨rfl, .inl rfl⟩
    | some row => exact ⟨rfl, .inr ⟨row, rfl, rfl, rfl⟩⟩

/-- After an entity of an exact key was taken into care it is found under its key, and everything
else is found as before. -/
theorem entityAt_track {k : Value} (hexact : k.isExact = true) (htype : e.type = type)
    (wanted : Value) :
    (s.track k e).entityAt type key wanted =
      if wanted = k then some e else s.entityAt type key wanted := by
  have hplace := get?_tracked_track s k e (trackingKey type wanted)
  by_cases hk : wanted = k
  · rw [if_pos hk]
    rw [hk, htype, if_pos rfl] at hplace
    rw [hk]
    exact entityAt_of_tracked hplace
  · have hne : trackingKey type wanted ≠ trackingKey e.type k := fun h =>
      hk (trackingKey_inj hexact h.symm).2.symm
    rw [if_neg hne] at hplace
    rw [if_neg hk]
    unfold entityAt
    rw [hplace, rows_track]

/-- Taking an entity into care under its own exact key keeps a session in order. -/
theorem Orderly.track (h : s.Orderly type key) (htype : e.type = type)
    (hexact : (key.valueOf e.values).isExact = true) :
    (s.track (key.valueOf e.values) e).Orderly type key := by
  refine { keyOf? := h.keyOf?, distinct := h.distinct, exact_rows := h.exact_rows, filed := ?_ }
  intro place e' he'
  rw [get?_tracked_track] at he'
  by_cases hplace : place = trackingKey e.type (key.valueOf e.values)
  · rw [if_pos hplace, Option.some.injEq] at he'
    subst he'
    refine ⟨key, ?_, hexact, hplace⟩
    rw [htype]
    exact h.keyOf?
  · rw [if_neg hplace] at he'
    exact h.filed place e' he'

/-- Fetching keeps a session in order and changes nothing about what is found where. -/
theorem Orderly.fetch (h : s.Orderly type key) (hout : s.outage = none) (wanted : Value) :
    (s.fetch type wanted true).2.Orderly type key ∧
      (s.fetch type wanted true).2.outage = none ∧
      (∀ other, (s.fetch type wanted true).2.rows other = s.rows other) ∧
      ∀ k, (s.fetch type wanted true).2.entityAt type key k = s.entityAt type key k := by
  obtain ⟨-, hs | ⟨row, hnone, hrow, hs⟩⟩ := fetch_eq h.keyOf? hout wanted
  · rw [hs]
    exact ⟨h, hout, fun _ => rfl, fun _ => rfl⟩
  · obtain ⟨hkey, hexact⟩ := h.row_eq hrow
    rw [hs]
    refine ⟨?_, hout, fun _ => rfl, ?_⟩
    · rw [← hkey]
      exact h.track (e := { type, values := row }) rfl (hkey ▸ hexact)
    · -- the row that was taken into care is what was found before
      intro k
      rw [entityAt_track (e := { type, values := row }) hexact rfl]
      by_cases hk : k = wanted
      · rw [if_pos hk, hk, entityAt_of_not_tracked hnone, hrow]
        rfl
      · rw [if_neg hk]

/-! ## Creating and attaching -/

theorem attach_eq (hkey : s.schema.keyOf? e.type = some key) :
    s.attach e = (.ok (), s.track (key.valueOf e.values) e) := by
  unfold attach
  rw [keyOf_of_keyOf? hkey]

/-- A new entity whose key fields are all given keeps its values. -/
theorem create_eq (hkey : s.schema.keyOf? type = some key) {values : Record}
    (hgiven : ∀ name ∈ key.fields, (values.value name).isNull = false) :
    s.create type values = (.ok { type, values, state := .added },
      s.track (key.valueOf values) { type, values, state := .added }) := by
  have hvalues : s.withGeneratedKey key values = (values, s) := by
    unfold withGeneratedKey
    cases key with
    | single name =>
      have hname := hgiven name (by simp [Key.fields])
      simp [hname]
    | composite names => rfl
  unfold create
  rw [keyOf_of_keyOf? hkey]
  dsimp only
  rw [hvalues]

/-! ## Saving -/

theorem save_singleton (hout : s.outage = none) (hkey : s.schema.keyOf? e.type = some key) :
    s.save [e] = (.ok [e.accepted], (s.saveOne e).2) := by
  rw [save_of_ne_nil hout (by simp)]
  exact saveEach_cons_ok hkey rfl

/-- Saving an entity keeps a session in order. -/
theorem Orderly.saveOne (h : s.Orderly type key) (htype : e.type = type)
    (hexact : (key.valueOf e.values).isExact = true) :
    (s.saveOne e).2.Orderly type key := by
  have hkey : s.schema.keyOf? e.type = some key := htype ▸ h.keyOf?
  have hrows : (s.saveOne e).2.rows type = (s.rows type).save key e := by
    rw [rows_saveOne hkey, if_pos htype.symm]
  constructor
  · rw [schema_saveOne]
    exact h.keyOf?
  · rw [hrows]
    exact h.distinct.save e
  · -- a row is one from before, or it is the entity
    intro row hrow
    rw [hrows] at hrow
    rcases Table.mem_save hrow with rfl | hrow
    · exact hexact
    · exact h.exact_rows row hrow
  · intro place e' he'
    rw [schema_saveOne]
    rw [get?_tracked_saveOne hkey] at he'
    by_cases hplace : place = trackingKey e.type (key.valueOf e.values)
    · rw [if_pos hplace] at he'
      split at he'
      · cases he'
      · cases he'
        exact ⟨key, hkey, hexact, hplace⟩
    · rw [if_neg hplace] at he'
      exact h.filed place e' he'

/-- After an entity was saved, there is under its key what remains of it, both among the rows and
as an entity that is unchanged. Under other keys there is what was there before. -/
theorem Orderly.saveOne_at (h : s.Orderly type key) (htype : e.type = type)
    (hexact : (key.valueOf e.values).isExact = true) (hcared : e.state ≠ .detached)
    (hsaved : e.state = .unchanged →
      (s.rows type).find? key (key.valueOf e.values) = some e.values) (k : Value) :
    ((s.saveOne e).2.rows type).find? key k =
        (if k = key.valueOf e.values then e.remains else (s.rows type).find? key k) ∧
      (s.saveOne e).2.entityAt type key k =
        if k = key.valueOf e.values then e.remains.map fun values => { type, values }
        else s.entityAt type key k := by
  subst htype
  have hkey := h.keyOf?
  have htracked := get?_tracked_saveOne hkey (trackingKey e.type k)
  by_cases hk : k = key.valueOf e.values
  · subst hk
    have hremains := find?_saveOne_self hkey h.distinct hcared hsaved
    rw [if_pos rfl, if_pos rfl]
    refine ⟨hremains, ?_⟩
    -- an entity that was removed is dismissed, so that the rows decide; any other is tracked
    rw [if_pos rfl] at htracked
    by_cases hgone : e.accepted.state = .detached
    · rw [if_pos hgone] at htracked
      rw [entityAt_of_not_tracked htracked, hremains]
    · rw [if_neg hgone] at htracked
      rw [entityAt_of_tracked htracked]
      unfold Entity.remains
      unfold Entity.accepted at hgone ⊢
      revert hgone
      cases e.state <;> simp [Entity.State.afterSave]
  · have hne : trackingKey e.type k ≠ trackingKey e.type (key.valueOf e.values) := fun h =>
      hk (trackingKey_inj hexact h.symm).2.symm
    have hsame : (key.valueOf e.values).same k = false := Bool.eq_false_iff.2 fun hs =>
      hk ((Value.same_iff_eq hexact k).1 hs).symm
    have hfind : ((s.saveOne e).2.rows e.type).find? key k = (s.rows e.type).find? key k := by
      rw [find?_saveOne hkey h.distinct, KeyMap.apply_of_not_same _ hsame]
    rw [if_neg hne] at htracked
    rw [if_neg hk, if_neg hk]
    refine ⟨hfind, ?_⟩
    unfold entityAt
    rw [htracked, hfind]

/-! ## Saving everything that is pending -/

/-- In whatever sequence entities are listed, the tracked ones with something to save are
pending. -/
theorem pending_perm (s : Session) : s.pending.Perm (s.tracked.values.filter (·.isPending)) :=
  s.listing.arrange_perm _

theorem mem_pending :
    e ∈ s.pending ↔ e.isPending = true ∧ ∃ place, s.tracked.get? place = some e := by
  rw [s.pending_perm.mem_iff, List.mem_filter, Keyed.mem_values_iff, and_comm]

/-- Where the tracked entities are filed, everything pending is saved. Under each key there is then
what remains of the entity that was pending there, or else the row from before. -/
theorem Orderly.save_pending (h : s.Orderly type key) (hout : s.outage = none) :
    ∃ s', s.save [] = (.ok (s.pending.map Entity.accepted), s') ∧
      (s'.rows type).Distinct key ∧
      ∀ k, (s'.rows type).find? key k =
        match s.tracked.get? (trackingKey type k) with
        | some e => if e.isPending then e.remains else (s.rows type).find? key k
        | none => (s.rows type).find? key k := by
  have hkeyed : ∀ e ∈ s.pending, ∃ key, s.schema.keyOf? e.type = some key := by
    intro e he
    obtain ⟨-, place, hplace⟩ := mem_pending.1 he
    obtain ⟨key', hkey', -⟩ := h.filed _ _ hplace
    exact ⟨key', hkey'⟩
  obtain ⟨s', hsave, -, -, htables, -⟩ := saveEach_ok hkeyed
  have hrows := htables type key h.keyOf?
  refine ⟨s', ?_, ?_, ?_⟩
  · unfold save
    rw [outageError?_of_none hout]
    exact hsave
  · rw [hrows]
    exact h.distinct.saveAll _
  intro k
  -- a pending entity with the key `k` is the one that is tracked there
  have hfiled : ∀ e ∈ s.pending.filter (·.type = type), (key.valueOf e.values).same k = true →
      s.tracked.get? (trackingKey type k) = some e := by
    intro e he hs
    obtain ⟨hpending, htype⟩ := List.mem_filter.1 he
    obtain ⟨-, place, hplace⟩ := mem_pending.1 hpending
    obtain ⟨key', hkey', hexact, rfl⟩ := h.filed _ _ hplace
    rw [of_decide_eq_true htype] at hkey' hplace
    rw [h.keyOf?, Option.some.injEq] at hkey'
    subst hkey'
    rw [← (Value.same_iff_eq hexact k).1 hs]
    exact hplace
  rw [hrows]
  refine (congrFun (Table.find?_saveAll h.distinct _) k).trans ?_
  have hheld : ∀ e ∈ s.pending.filter (·.type = type), (key.valueOf e.values).same k = true ↔
      s.tracked.get? (trackingKey type k) = some e := by
    intro e he
    refine ⟨hfiled e he, fun ht => ?_⟩
    rw [(h.tracked_eq ht).2.1]
    exact Value.same_self k
  have hpending : ∀ e ∈ s.pending.filter (·.type = type), e.isPending = true :=
    fun e he => (mem_pending.1 (List.mem_filter.1 he).1).1
  rw [KeyMap.foldl_apply_of_held hpending hheld]
  cases ht : s.tracked.get? (trackingKey type k) with
  | none => rfl
  | some e =>
    -- what is tracked there is in the batch if it is pending at all
    have hmem : e ∈ s.pending.filter (·.type = type) ↔ e.isPending = true :=
      ⟨hpending e, fun hp => List.mem_filter.2
        ⟨mem_pending.2 ⟨hp, _, ht⟩, decide_eq_true (h.tracked_eq ht).1⟩⟩
    rw [afterBatch_some]
    simp only [hmem]

end Session

end DataAccess
