import DataAccess.Proofs.Session.TableMap
import DataAccess.Session.Basic

/-!
# Saving writes to a map

The tables of a session are maps from key values to rows as long as no two rows of a table have
the same key value. Saving a batch applies its entities to these maps, one after the other.

- `Session.saveOne_ok`, `Session.rows_saveOne`, `Session.get?_tracked_saveOne`: the answer, the
  saved rows and the tracked entities after one entity was saved. `Session.find?_saveOne_self` says
  what is found under its key.
- `Session.saveEach_ok`: a batch of entities whose types have keys is saved as a whole.
- `Session.KeysDistinct`: the tables are maps.
- `Session.save_refines_keyMap`: what saving a batch does to them.
-/

namespace DataAccess

namespace Session

variable {s : Session} {e : Entity} {es : List Entity} {key : Key}

/-! ## Small facts about sessions -/

theorem keyOf_of_keyOf? {type : String} (h : s.schema.keyOf? type = some key) :
    s.keyOf type = .ok key := by
  unfold keyOf
  rw [h]

theorem outageError?_of_none (h : s.outage = none) : s.outageError? = none := by
  unfold outageError?
  rw [h]
  rfl

/-! ## Saving one entity -/

@[simp] theorem schema_saveOne (s : Session) (e : Entity) :
    (s.saveOne e).2.schema = s.schema := by
  unfold saveOne
  split
  · rfl
  · dsimp only
    split <;> rfl

@[simp] theorem outage_saveOne (s : Session) (e : Entity) :
    (s.saveOne e).2.outage = s.outage := by
  unfold saveOne
  split
  · rfl
  · dsimp only
    split <;> rfl

theorem saveOne_of_none (h : s.schema.keyOf? e.type = none) :
    s.saveOne e = (.error (.configuration (.unknownType e.type)), s) := by
  unfold saveOne keyOf
  rw [h]

/-- Saving an entity of a known type succeeds. -/
theorem saveOne_ok (h : s.schema.keyOf? e.type = some key) :
    s.saveOne e = (.ok e.accepted, (s.saveOne e).2) := by
  have hanswer : (s.saveOne e).1 = .ok e.accepted := by
    unfold saveOne
    rw [keyOf_of_keyOf? h]
  rw [← hanswer]

/-- Saving an entity changes the table of its type. -/
theorem rows_saveOne (h : s.schema.keyOf? e.type = some key) (type : String) :
    (s.saveOne e).2.rows type =
      if type = e.type then (s.rows type).save key e else s.rows type := by
  have htable : (s.saveOne e).2.tables =
      s.tables.insert e.type ((s.rows e.type).save key e) := by
    unfold saveOne
    rw [keyOf_of_keyOf? h]
    dsimp only
    split <;> rfl
  show ((s.saveOne e).2.tables.get? type).getD [] = _
  rw [htable, Keyed.get?_insert]
  by_cases htype : type = e.type
  · rw [if_pos htype, if_pos htype, htype]
    rfl
  · rw [if_neg htype, if_neg htype]
    rfl

/-- Looking up in the table of an entity that was saved is looking up in the map that the entity
was applied to. -/
theorem find?_saveOne (h : s.schema.keyOf? e.type = some key)
    (hdistinct : (s.rows e.type).Distinct key) (k : Value) :
    ((s.saveOne e).2.rows e.type).find? key k =
      KeyMap.apply key (fun k => (s.rows e.type).find? key k) e k := by
  rw [rows_saveOne h, if_pos rfl]
  exact congrFun (Table.find?_save hdistinct e) k

/-- After an entity was saved, there is under its key what remains of it. -/
theorem find?_saveOne_self (h : s.schema.keyOf? e.type = some key)
    (hdistinct : (s.rows e.type).Distinct key) (hcared : e.state ≠ .detached)
    (hsaved : e.state = .unchanged →
      (s.rows e.type).find? key (key.valueOf e.values) = some e.values) :
    ((s.saveOne e).2.rows e.type).find? key (key.valueOf e.values) = e.remains := by
  rw [find?_saveOne h hdistinct]
  cases hstate : e.state with
  | unchanged =>
    -- saving does nothing, and what remains is the row that is there
    unfold KeyMap.apply Entity.remains
    rw [hstate]
    exact hsaved hstate
  | detached => exact absurd hstate hcared
  | _ =>
    refine KeyMap.apply_of_pending _ ?_ (Value.same_self _)
    unfold Entity.isPending
    rw [hstate]
    rfl

/-- An entity that was saved is tracked as unchanged under its key, or not at all if it was
removed. -/
theorem get?_tracked_saveOne (h : s.schema.keyOf? e.type = some key) (place : String × String) :
    (s.saveOne e).2.tracked.get? place =
      if place = trackingKey e.type (key.valueOf e.values) then
        if e.accepted.state = .detached then none else some e.accepted
      else s.tracked.get? place := by
  unfold saveOne
  rw [keyOf_of_keyOf? h]
  dsimp only
  by_cases hd : e.accepted.state = .detached
  · rw [if_pos hd, if_pos hd]
    exact Keyed.get?_erase _ _ _
  · rw [if_neg hd, if_neg hd]
    exact Keyed.get?_insert _ _ _ _

/-! ## Saving a batch -/

/-- A batch goes on after its first entity only if that one was saved. -/
theorem snd_saveEach_cons (s : Session) (e : Entity) (es : List Entity) :
    (saveEach (e :: es) s).2 =
      match (s.saveOne e).1 with
      | .error _ => (s.saveOne e).2
      | .ok _ => (saveEach es (s.saveOne e).2).2 := by
  rw [saveEach]
  cases s.saveOne e with
  | mk r s₁ =>
    cases r with
    | error err => rfl
    | ok saved =>
      dsimp only
      cases saveEach es s₁ with
      | mk r' s₂ => cases r' <;> rfl

/-- A batch succeeds if its first entity is of a known type and the others are saved. -/
theorem saveEach_cons_ok {s' : Session} (h : s.schema.keyOf? e.type = some key)
    {saved : List Entity} (hrest : saveEach es (s.saveOne e).2 = (.ok saved, s')) :
    saveEach (e :: es) s = (.ok (e.accepted :: saved), s') := by
  rw [saveEach, saveOne_ok h]
  dsimp only
  rw [hrest]

/-- A batch of entities whose types have keys is saved as a whole. The batch may mix types, and
every table goes through the entities of its own type. -/
theorem saveEach_ok (h : ∀ e ∈ es, ∃ key, s.schema.keyOf? e.type = some key) :
    ∃ s', saveEach es s = (.ok (es.map Entity.accepted), s') ∧
      s'.schema = s.schema ∧ s'.outage = s.outage ∧
      (∀ type key, s.schema.keyOf? type = some key →
        s'.rows type = (s.rows type).saveAll key (es.filter (·.type = type))) ∧
      ∀ type, (∀ e ∈ es, e.type ≠ type) → s'.rows type = s.rows type := by
  induction es generalizing s with
  | nil => exact ⟨s, rfl, rfl, rfl, fun _ _ _ => rfl, fun _ _ => rfl⟩
  | cons e es ih =>
    obtain ⟨key, hkey⟩ := h e List.mem_cons_self
    have hrows := rows_saveOne hkey
    have hrest : ∀ e' ∈ es, ∃ key, (s.saveOne e).2.schema.keyOf? e'.type = some key := by
      intro e' he'
      rw [schema_saveOne]
      exact h e' (List.mem_cons_of_mem _ he')
    obtain ⟨s', hsave, hschema, houtage, htables, hothers⟩ := ih hrest
    rw [schema_saveOne] at hschema htables
    rw [outage_saveOne] at houtage
    refine ⟨s', saveEach_cons_ok hkey hsave, hschema, houtage, ?_, ?_⟩
    · -- the table of the first entity goes through that one before the others
      intro type key' hkey'
      rw [htables type key' hkey', hrows type]
      by_cases ht : type = e.type
      · subst ht
        rw [hkey, Option.some.injEq] at hkey'
        subst hkey'
        simp
      · simp [ht, Ne.symm ht]
    · intro type htype
      rw [hothers type fun e' he' => htype e' (List.mem_cons_of_mem _ he'), hrows type,
        if_neg fun ht => htype e List.mem_cons_self ht.symm]

theorem save_of_outage {text : String} (h : s.outage = some text) :
    s.save es = (.error (.remote text), s) := by
  unfold save outageError?
  rw [h]
  rfl

/-- While the service can be reached, saving a batch that is not empty saves each of it. -/
theorem save_of_ne_nil (hout : s.outage = none) (hne : es ≠ []) : s.save es = saveEach es s := by
  unfold save
  rw [outageError?_of_none hout]
  simp [List.isEmpty_iff, hne]

/-- No two saved rows of a type have the same key value, which makes every table a map. -/
def KeysDistinct (s : Session) : Prop :=
  ∀ type key, s.schema.keyOf? type = some key → (s.rows type).Distinct key

/-- **Saving a batch refines a sequence of writes to maps.** While the service can be reached, a
batch of entities whose types have keys is saved. Afterwards every table is again a map, namely
the old one with the entities of its type applied from the first to the last; the rows that no
entity of the batch names are still there as they were and in their old order; and the tables of
all other types are what they were. -/
theorem save_refines_keyMap (hout : s.outage = none) (hdistinct : s.KeysDistinct)
    (hne : es ≠ []) (hkeyed : ∀ e ∈ es, ∃ key, s.schema.keyOf? e.type = some key) :
    ∃ s', s.save es = (.ok (es.map Entity.accepted), s') ∧ s'.schema = s.schema ∧
      s'.KeysDistinct ∧
      (∀ type key, s.schema.keyOf? type = some key →
        (fun k => (s'.rows type).find? key k) =
          (es.filter (·.type = type)).foldl (KeyMap.apply key)
            (fun k => (s.rows type).find? key k) ∧
        (s'.rows type).filter (Table.isUntouched key (es.filter (·.type = type))) =
          (s.rows type).filter (Table.isUntouched key (es.filter (·.type = type)))) ∧
      ∀ type, (∀ e ∈ es, e.type ≠ type) → s'.rows type = s.rows type := by
  obtain ⟨s', hsave, hschema, -, htables, hothers⟩ := saveEach_ok hkeyed
  refine ⟨s', (save_of_ne_nil hout hne).trans hsave, hschema, ?_, ?_, hothers⟩
  · intro type key hkey
    rw [hschema] at hkey
    rw [htables type key hkey]
    exact (hdistinct type key hkey).saveAll _
  · intro type key hkey
    rw [htables type key hkey]
    constructor
    · exact Table.find?_saveAll (hdistinct type key hkey) _
    · exact Table.filter_saveAll _ _

/-! ## A batch in which types and keys come in turns -/

/-- Two customers and one line of an order, which is known by its order and its position. -/
def shop : Session where
  schema := (({} : Schema).add ⟨"Customer", ["id"]⟩ "customers").add
    ⟨"Line", ["order", "position"]⟩ "lines"
  tables := (Keyed.empty.insert "Customer"
      [[("city", .string "Oslo"), ("id", .string "c1")],
        [("city", .string "Rome"), ("id", .string "c2")]]).insert "Line"
      [[("order", .nat 7), ("position", .nat 1)]]

/-- A customer is changed, removed and entered anew while lines come and go. -/
def shopBatch : List Entity :=
  [{ type := "Customer", values := [("city", .string "Bergen"), ("id", .string "c1")],
      state := .modified },
    { type := "Line", values := [("order", .nat 7), ("position", .nat 2)], state := .added },
    { type := "Customer", values := [("id", .string "c1")], state := .deleted },
    { type := "Line", values := [("order", .nat 7), ("position", .nat 1)], state := .deleted },
    { type := "Customer", values := [("id", .string "c3")], state := .detached },
    { type := "Customer", values := [("city", .string "Paris"), ("id", .string "c1")],
      state := .added }]

theorem keysDistinct_shop : shop.KeysDistinct := by
  intro type key hkey
  -- there are rows of two types only
  have hrows : type ≠ "Customer" → type ≠ "Line" → shop.rows type = [] := by
    intro hc hl
    simp [rows, shop, Keyed.get?_insert, hc, hl]
  by_cases hc : type = "Customer"
  · subst hc
    have hk : key = .single "id" := (Option.some.inj hkey).symm
    subst hk
    unfold Table.Distinct
    decide
  · by_cases hl : type = "Line"
    · subst hl
      have hk : key = .composite ["order", "position"] := (Option.some.inj hkey).symm
      subst hk
      unfold Table.Distinct
      decide
    · rw [hrows hc hl]
      exact List.Pairwise.nil

theorem save_refines_keyMap_shop :
    shop.outage = none ∧ shop.KeysDistinct ∧ shopBatch ≠ [] ∧
      (∀ e ∈ shopBatch, ∃ key, shop.schema.keyOf? e.type = some key) ∧
      ∃ s', shop.save shopBatch = (.ok (shopBatch.map Entity.accepted), s') ∧
        s'.KeysDistinct ∧
        (s'.rows "Customer").find? (.single "id") (.string "c1") =
          some [("city", .string "Paris"), ("id", .string "c1")] ∧
        (s'.rows "Line").find? (.composite ["order", "position"])
          (.object [("order", .nat 7), ("position", .nat 1)]) = none := by
  have hkeyed : ∀ e ∈ shopBatch, ∃ key, shop.schema.keyOf? e.type = some key := by
    intro e he
    rw [← Option.isSome_iff_exists]
    revert e
    decide
  obtain ⟨s', hsave, -, hdistinct, hmaps, -⟩ :=
    save_refines_keyMap (s := shop) rfl keysDistinct_shop (show shopBatch ≠ [] by decide) hkeyed
  refine ⟨rfl, keysDistinct_shop, by decide, hkeyed, s', hsave, hdistinct, ?_, ?_⟩
  · exact (congrFun (hmaps "Customer" (.single "id") rfl).1 (.string "c1")).trans (by decide)
  · exact (congrFun (hmaps "Line" (.composite ["order", "position"]) rfl).1
      (.object [("order", .nat 7), ("position", .nat 1)])).trans (by decide)

end Session

end DataAccess
