import DataAccess.Proofs.Session.Fetching
import DataAccess.Proofs.Store.Service

/-!
# What an update does to the saved rows

An update that is saved at once finds a saved row by one key and is written by another: the row is
found by the key that the caller names, and the record with the new fields is written under the key
that it has itself. As long as the fields leave the key as it is, the two are one key and the row
changes in its place. Fields that give another key leave the row as it is, and the changed record
becomes the row of the other key.

- `Table.Replaced`: one row gives way to another, and all others stay where they are.
- `Table.replaced_put`, `Table.put_of_find?_none`: where a record is written.
- `Store.update_saved`: an update that is saved at once, with its answer.
- `Store.update_replaces_row`: the saved rows after an update.
- `Store.update_adds_row`: an update after which there is one row more.
-/

namespace DataAccess

/-! ## Writing a record into a table -/

namespace Table

variable {key : Key} {table : Table} {old new : Record}

/-- The second table is the first one with the new row in the place of the old one. -/
def Replaced (old new : Record) (table table' : Table) : Prop :=
  ∃ before after, table = before ++ old :: after ∧ table' = before ++ new :: after

theorem Replaced.length_eq {table' : Table} (h : Replaced old new table table') :
    table'.length = table.length := by
  obtain ⟨before, after, rfl, rfl⟩ := h
  simp

theorem Replaced.cons {table' : Table} (h : Replaced old new table table') (head : Record) :
    Replaced old new (head :: table) (head :: table') := by
  obtain ⟨before, after, rfl, rfl⟩ := h
  exact ⟨head :: before, after, rfl, rfl⟩

/-- A record takes the place of the row that has its key. -/
theorem replaced_put (h : find? key (key.valueOf new) table = some old) :
    Replaced old new table (put key new table) := by
  induction table with
  | nil => cases h
  | cons head rest ih =>
    unfold find? at h
    unfold put
    split at h
    · rename_i hsame
      cases h
      rw [if_pos hsame]
      exact ⟨[], rest, rfl, rfl⟩
    · rename_i hother
      rw [if_neg hother]
      exact (ih h).cons head

/-- A record whose key no row has comes after all rows. -/
theorem put_of_find?_none (h : find? key (key.valueOf new) table = none) :
    put key new table = table ++ [new] := by
  induction table with
  | nil => rfl
  | cons head rest ih =>
    unfold find? at h
    unfold put
    split at h
    · cases h
    · rename_i hother
      rw [if_neg hother, ih h]
      rfl

/-- A row that is written as it is changes nothing. -/
theorem put_of_find? (h : find? key (key.valueOf old) table = some old) :
    put key old table = table := by
  obtain ⟨before, after, htable, hput⟩ := replaced_put h
  rw [hput, ← htable]

/-- Saving a row with fields set writes the row with the fields laid over it, also if there are
none. -/
theorem save_setFields {k : Value} (h : find? key k table = some old) (type : String)
    (values : Record) :
    save key (({ type, values := old } : Entity).setFields values) table =
      put key (old.overlay values) table := by
  have hvalues := ({ type, values := old } : Entity).values_setFields values
  cases values with
  | nil =>
    have hown : find? key (key.valueOf old) table = some old := by
      rw [find?_congr table (mem_of_find? h).2, h]
    exact (put_of_find? hown).symm
  | cons field fields =>
    have hstate :=
      ({ type, values := old } : Entity).state_setFields (List.cons_ne_nil field fields)
    unfold save
    rw [hstate, hvalues]
    rfl

end Table

/-! ## Updates that are saved at once -/

namespace Session

variable {s : Session} {type : String} {key : Key} {k : Value} {row : Record}

/-- A saved row is fetched where nothing is tracked. -/
theorem fetch_row (hout : s.outage = none) (hkey : s.schema.keyOf? type = some key)
    (hrow : (s.rows type).find? key k = some row)
    (hnone : s.tracked.get? (trackingKey type k) = none) (preferTracked : Bool) :
    s.fetch type k preferTracked =
      (.ok (some { type, values := row }), s.track k { type, values := row }) := by
  have hpreferred : s.preferred? type k preferTracked = none := by
    unfold preferred?
    cases preferTracked with
    | true => exact hnone
    | false => rfl
  unfold fetch
  rw [hpreferred, outageError?_of_none hout, keyOf_of_keyOf? hkey]
  dsimp only
  rw [hrow]

end Session

namespace Store

variable {store : Store} {c : Context Session} {type : String} {key : Key} {k : Value}
  {row : Record}

/-- A row is found where nothing is tracked, and its fields are set and saved at once. The answer
names the key that the row has afterwards. -/
theorem update_saved (hatOnce : store.policy.saveAtOnce = true) (hout : c.service.outage = none)
    (htype : store.typeName? c.service.schema = some type)
    (hkey : c.service.schema.keyOf? type = some key)
    (hrow : (c.service.rows type).find? key k = some row)
    (hnone : c.service.tracked.get? (trackingKey type k) = none) (values : Record) :
    ∃ c', (store.update k values).perform c =
        (.ok (key.valueOf (row.overlay values), values), c') ∧
      ∀ other, c'.service.rows other =
        if other = type then (c.service.rows type).put key (row.overlay values)
        else c.service.rows other := by
  let found : Entity := { type, values := row }
  let e := found.setFields values
  let fetched := c.service.track k found
  have hfetch : c.service.fetch type k store.policy.preferTracked = (.ok (some found), fetched) :=
    Session.fetch_row hout hkey hrow hnone _
  have htype' : e.type = type := found.type_setFields values
  have hkey' : fetched.schema.keyOf? e.type = some key := htype'.symm ▸ hkey
  have hsave : fetched.save [e] = (.ok [e.accepted], (fetched.saveOne e).2) :=
    Session.save_singleton hout hkey'
  refine ⟨{ c with service := (fetched.saveOne e).2 }, ?_, fun other => ?_⟩
  · have hschema : (fetched.saveOne e).2.schema = c.service.schema :=
      Session.schema_saveOne fetched e
    have hanswer := keyOf_of_typeName? htype hkey e.accepted.values
    unfold update
    rw [Action.perform_bind_ok (findEntity_found htype hfetch)]
    dsimp only
    rw [if_pos hatOnce, Action.perform_bind_ok (commit_ok hsave)]
    dsimp only [List.head?_cons]
    rw [Action.perform_bind_ok (Action.perform_inspect _ _), hschema, hanswer]
    show (Except.ok (key.valueOf e.values, values), _) = _
    rw [found.values_setFields]
  · show (fetched.saveOne e).2.rows other = _
    rw [Session.rows_saveOne hkey', htype']
    by_cases hother : other = type
    · subst hother
      rw [if_pos rfl, if_pos rfl]
      exact Table.save_setFields hrow _ values
    · rw [if_neg hother, if_neg hother]
      rfl

/-- **What an update does to the saved rows.** Let a saved row have the key that an update names,
with nothing tracked under it, and let the store save at once. Then the update succeeds, and the
tables of other types are what they were. If the row has the same key with the fields laid over it,
there are as many rows as before: that row has changed in its place, and every other one is as it
was. If it has another key with them, it stays as it is, and the changed record takes the place of
the row with that other key, or comes after all rows if there is none. -/
theorem update_replaces_row (hatOnce : store.policy.saveAtOnce = true)
    (hout : c.service.outage = none) (htype : store.typeName? c.service.schema = some type)
    (hkey : c.service.schema.keyOf? type = some key)
    (hrow : (c.service.rows type).find? key k = some row)
    (hnone : c.service.tracked.get? (trackingKey type k) = none) (values : Record) :
    let new := row.overlay values
    ∃ c', (store.update k values).perform c = (.ok (key.valueOf new, values), c') ∧
      (∀ other, other ≠ type → c'.service.rows other = c.service.rows other) ∧
      ((key.valueOf new).same k = true →
        (c'.service.rows type).length = (c.service.rows type).length ∧
          Table.Replaced row new (c.service.rows type) (c'.service.rows type)) ∧
      ((key.valueOf new).same k = false →
        (c'.service.rows type).find? key k = some row ∧
          ((∃ old, (c.service.rows type).find? key (key.valueOf new) = some old ∧
              Table.Replaced old new (c.service.rows type) (c'.service.rows type)) ∨
            (c.service.rows type).find? key (key.valueOf new) = none ∧
              c'.service.rows type = c.service.rows type ++ [new])) := by
  intro new
  obtain ⟨c', hupdate, hrows⟩ := update_saved hatOnce hout htype hkey hrow hnone values
  have hown : c'.service.rows type = (c.service.rows type).put key new := by
    rw [hrows, if_pos rfl]
  refine ⟨c', hupdate, fun other hother => ?_, fun hsame => ?_, fun hother => ?_⟩
  · rw [hrows, if_neg hother]
  · -- the key of the record finds the row that was found
    have hreplaced : Table.Replaced row new (c.service.rows type) (c'.service.rows type) := by
      rw [hown]
      refine Table.replaced_put ?_
      rw [Table.find?_congr _ hsame, hrow]
    exact ⟨hreplaced.length_eq, hreplaced⟩
  · rw [hown]
    constructor
    · rw [Table.find?_put, hother, hrow]
      rfl
    · cases hfind : (c.service.rows type).find? key (key.valueOf new) with
      | some old => exact .inl ⟨old, rfl, Table.replaced_put hfind⟩
      | none => exact .inr ⟨rfl, Table.put_of_find?_none hfind⟩

/-- The fields of a customer are set, the key among them, to the value that it has. -/
theorem update_replaces_row_shop :
    let c : Context Session := { service := Session.shop }
    let store : Store := { resource := "customers", policy := { saveAtOnce := true } }
    let row : Record := [("city", .string "Oslo"), ("id", .string "c1")]
    let values : Record := [("id", .string "c1"), ("city", .string "Bergen")]
    c.service.outage = none ∧ store.typeName? c.service.schema = some "Customer" ∧
      c.service.schema.keyOf? "Customer" = some (.single "id") ∧
      (c.service.rows "Customer").find? (.single "id") (.string "c1") = some row ∧
      c.service.tracked.get? (trackingKey "Customer" (.string "c1")) = none ∧
      ∃ c', (store.update (.string "c1") values).perform c =
          (.ok (.string "c1", values), c') ∧
        (c'.service.rows "Customer").length = 2 ∧
        Table.Replaced row [("city", .string "Bergen"), ("id", .string "c1")]
          (c.service.rows "Customer") (c'.service.rows "Customer") := by
  intro c store row values
  have htype : store.typeName? c.service.schema = some "Customer" := by decide
  have hkey : c.service.schema.keyOf? "Customer" = some (.single "id") := by decide
  have hrow : (c.service.rows "Customer").find? (.single "id") (.string "c1") = some row := by
    decide
  have hnone : c.service.tracked.get? (trackingKey "Customer" (.string "c1")) = none := by decide
  obtain ⟨c', hupdate, -, hreplaces, -⟩ :=
    update_replaces_row (c := c) rfl rfl htype hkey hrow hnone values
  obtain ⟨hlength, hreplaced⟩ := hreplaces (by decide)
  exact ⟨rfl, htype, hkey, hrow, hnone, c', hupdate, hlength, hreplaced⟩

/-- A customer is given a number that no other customer has. The update succeeds, and afterwards
there is one customer more: the row with the old number is still there. -/
theorem update_adds_row :
    let store : Store := { resource := "customers", policy := { saveAtOnce := true } }
    let updated := (store.update (.string "c1") [("id", .string "c3")]).perform
      { service := Session.shop }
    Session.shop.outage = none ∧ Session.shop.KeysDistinct ∧
      Session.shop.tracked.get? (trackingKey "Customer" (.string "c1")) = none ∧
      Session.shop.rows "Customer" =
        [[("city", .string "Oslo"), ("id", .string "c1")],
          [("city", .string "Rome"), ("id", .string "c2")]] ∧
      updated.1.isOk = true ∧
      updated.2.service.rows "Customer" =
        [[("city", .string "Oslo"), ("id", .string "c1")],
          [("city", .string "Rome"), ("id", .string "c2")],
          [("city", .string "Oslo"), ("id", .string "c3")]] := by
  intro store updated
  refine ⟨rfl, Session.keysDistinct_shop, ?_⟩
  decide +kernel

end Store

end DataAccess
