import DataAccess.Proofs.Store.Finding
import DataAccess.Proofs.Store.Paging

/-!
# Rows that are shown can be found

Loading shows the rows that the query of a store lets through, sorted and cut as that query says.
Finding a row asks the same query with the key as a further condition: the same filter, order and
cut, on fewer rows. A row that is shown is among these, so it would be found, were the cut not made
again: as many rows as the query leaves out at the start are now taken away from the few that have
the key. Rows that a sort key of the query finds values of several kinds in are left aside: the
sorting of these may be given up.

- `Store.load_own`: what a request that asks for nothing special is answered.
- `Store.candidates`: the saved rows that could be found under a key.
- `Store.findRow_of_string`: the row that is found is one of these, after the cut.
- `Store.findRow_of_shown`: when a row that is shown can be found. `Store.findRow_misses_shown`
  shows one that cannot.
-/

namespace DataAccess

/-! ## Rows with a text as their key -/

/-- A value compares equal to a text only if it is that text. -/
theorem Value.compare?_string_eq_iff {a : Value} {k : String} :
    a.compare? (.string k) = some .eq ↔ a = .string k := by
  constructor
  · intro h
    cases a with
    | string t => rw [Std.compare_eq_iff_eq.1 (Option.some.inj h)]
    | _ => cases h
  · rintro rfl
    exact congrArg some (Std.compare_eq_iff_eq.2 rfl)

/-- What a record has under a name, where that is a text. -/
theorem Record.value_eq_string_iff {r : Record} {name k : String} :
    r.value name = .string k ↔ (Value.object r).field? name = some (.string k) := by
  show (r.get? name).getD .null = .string k ↔ r.get? name = some (.string k)
  cases r.get? name with
  | none => exact ⟨nofun, nofun⟩
  | some v => exact (Option.some_inj).symm

namespace Store

variable {store : Store} {c : Context Session} {type name k : String}

/-- A request that asks for nothing special is answered with what the query of the store asks
for. -/
theorem load_own (store : Store) (c : Context Session) :
    ((store.load {}).perform c).1 =
      (c.service.execute store.ownQuery).1.map Response.toLoaded := by
  have hplan : store.loadPlan {} = .ok (store.plan {}) := rfl
  have hquery : (store.plan {}).toQuery = store.ownQuery := by
    show (store.sourceOf {}).toQuery = _
    unfold sourceOf ownQuery
    cases store.query <;> rfl
  rw [load_of_loadPlan hplan, hquery]

/-- The saved rows with a key that the query of a store lets through. -/
def candidates (store : Store) (name k : String) (table : Table) : Table :=
  table.filter fun row => store.ownQuery.admits (.object row) && row.value name = .string k

theorem mem_candidates_iff {table : Table} {row : Record} :
    row ∈ store.candidates name k table ↔ row ∈ table ∧
      store.ownQuery.admits (.object row) = true ∧
        (Value.object row).field? name = some (.string k) := by
  unfold candidates
  rw [List.mem_filter, Bool.and_eq_true, decide_eq_true_iff, Record.value_eq_string_iff]

/-- The rows that finding a row asks for are the candidates. -/
theorem matching_restrict (hdots : '.' ∉ name.toList) (table : Table) :
    (store.ownQuery.restrict (keyPredicate (.single name) (.string k))).matching
        (table.map .object) = (store.candidates name k table).map .object := by
  have hdots' : ∀ field ∈ (Key.single name).fields, '.' ∉ field.toList := by
    intro field hfield
    rwa [List.mem_singleton.1 hfield]
  have hholds : ∀ row : Record, (keyPredicate (.single name) (.string k)).holds (.object row) =
      decide (row.value name = .string k) := by
    intro row
    refine Bool.eq_iff_iff.2 ((holds_keyPredicate_iff hdots' _ row).trans ?_)
    rw [decide_eq_true_iff, ← Value.compare?_string_eq_iff]
    exact List.forall_mem_singleton
  unfold Query.matching candidates
  rw [List.filter_map]
  refine congrArg (List.map Value.object) (List.filter_congr fun row _ => ?_)
  show (store.ownQuery.restrict _).admits (.object row) = _
  rw [Query.admits_restrict, hholds]

section

variable (htype : store.typeName? c.service.schema = some type)
  (hkey : c.service.schema.keyOf? type = some (.single name)) (hup : c.service.outage = none)
  (hdots : '.' ∉ name.toList) (hselect : store.ownQuery.select = [])

include htype hkey hup hdots hselect

/-- **The row that is found**, unless no row is wanted at all, is the one of the candidates that
follows those left out at the start. -/
theorem findRow_of_string (htake : store.ownQuery.take ≠ some 0) (k : String) :
    let found := (store.candidates name k (c.service.rows type)).map Value.object
    (((store.findRow (.string k)).perform c).1 = .error .unsortable ∧
      ¬Uniform store.ownQuery.order found) ∨
    ∃ sorted : List Value, sorted.Perm found ∧
      ((store.findRow (.string k)).perform c).1 = .ok sorted[store.ownQuery.skip.getD 0]? := by
  intro found
  let q := store.ownQuery.restrict (keyPredicate (.single name) (.string k))
  have hmatching : q.matching ((c.service.rows type).map .object) = found :=
    matching_restrict hdots _
  -- the further condition changes neither what is selected nor the cut nor the order
  have hselect' : q.select = [] := hselect
  have htake' : q.take ≠ some 0 := htake
  have hfirst := findRow_eq_head? htype hkey hup (.string k)
  rw [Query.answer_of_select_nil hselect', hmatching] at hfirst
  cases hsorted : q.sorted c.service.sorter found with
  | error e =>
    have hmixed := Query.not_uniform_of_sorted hsorted
    cases Query.eq_unsortable_of_sorted hsorted
    rw [hsorted] at hfirst
    exact .inl ⟨hfirst, hmixed⟩
  | ok sorted =>
    rw [hsorted] at hfirst
    exact .inr ⟨sorted, Query.perm_of_sorted hsorted,
      hfirst.trans (congrArg Except.ok (head?_window htake'))⟩

/-- **When rows that are shown can be found.** Let a store start from any query that selects no
parts, and let the key of its type be one field without a point in its name. Loading all that the
query asks for succeeds, unless a sort key of the query finds values of several kinds. For each row
that is shown and has a text as its key, finding the row with that key succeeds as well, again
unless a sort key finds values of several kinds, now in the rows with that key. What it finds has
that key. If the query leaves out no rows at the start, a row is found. Else it is found if and only
if the saved rows with that key that the query lets through are more than the query leaves out. -/
theorem findRow_of_shown :
    (((store.load {}).perform c).1 = .error .unsortable ∧
      ¬Uniform store.ownQuery.order
        (((c.service.rows type).map .object).filter store.ownQuery.admits)) ∨
    ∃ loaded, ((store.load {}).perform c).1 = .ok loaded ∧
      ∀ row ∈ loaded.rows, ∀ k, row.field? name = some (.string k) →
        let candidates := store.candidates name k (c.service.rows type)
        let finding := ((store.findRow (.string k)).perform c).1
        (finding = .error .unsortable ∧ ¬Uniform store.ownQuery.order (candidates.map .object)) ∨
        ∃ found?, finding = .ok found? ∧
          (∀ found ∈ found?, found.field? name = some (.string k)) ∧
          (store.ownQuery.skip.getD 0 = 0 → found?.isSome = true) ∧
          (found?.isSome = true ↔ store.ownQuery.skip.getD 0 < candidates.length) := by
  let q := store.ownQuery
  let rows := (c.service.rows type).map Value.object
  have hresource : q.resource = some store.resource := resource_ownQuery store
  have hload : ((store.load {}).perform c).1 =
      (q.answer c.service.sorter rows).map Response.toLoaded := by
    rw [← Session.execute_served hup (by rw [hresource]; exact htype)]
    exact load_own store c
  rw [Query.answer_of_select_nil hselect] at hload
  cases hsorted : q.sorted c.service.sorter (q.matching rows) with
  | error e =>
    have hmixed := Query.not_uniform_of_sorted hsorted
    cases Query.eq_unsortable_of_sorted hsorted
    rw [hsorted] at hload
    exact .inl ⟨hload, hmixed⟩
  | ok sorted =>
    rw [hsorted] at hload
    refine .inr ⟨_, hload, fun row hrow k hk => ?_⟩
    intro candidates finding
    obtain ⟨hrow, htake⟩ := mem_of_mem_window hrow
    obtain hstopped | ⟨found, hperm, hfound⟩ :=
      findRow_of_string htype hkey hup hdots hselect htake k
    · exact .inl hstopped
    have hlength : found.length = candidates.length := by
      rw [hperm.length_eq, List.length_map]
    -- the row that is shown is a candidate
    have hcandidate : 0 < candidates.length := by
      have hmatching := (Query.perm_of_sorted hsorted).mem_iff.1 hrow
      obtain ⟨hrow, hadmits⟩ := List.mem_filter.1 hmatching
      obtain ⟨saved, hsaved, rfl⟩ := List.mem_map.1 hrow
      exact List.length_pos_of_mem (mem_candidates_iff.2 ⟨hsaved, hadmits, hk⟩)
    have hsome : found[q.skip.getD 0]?.isSome = true ↔ q.skip.getD 0 < candidates.length := by
      rw [← hlength, isSome_getElem?]
    refine .inr ⟨_, hfound, fun row' hrow' => ?_, fun hskip => ?_, hsome⟩
    · have hmem := hperm.mem_iff.1 (List.mem_of_getElem? hrow')
      obtain ⟨saved, hsaved, rfl⟩ := List.mem_map.1 hmem
      exact (mem_candidates_iff.1 hsaved).2.2
    · rw [hsome, hskip]
      exact hcandidate

end

/-- The customers outside of Lima are sorted by city, the last one first, and one of them is shown.
The same one is found by its key. -/
theorem findRow_of_shown_shop :
    let store : Store :=
      { resource := "customers"
        query := some { filter := some (.comparison "city" .ne (.string "Lima"))
                        order := [⟨"city", true⟩], take := some 1 } }
    let c : Context Session := { service := Session.shop }
    let rome : Value := .object [("city", .string "Rome"), ("id", .string "c2")]
    store.typeName? c.service.schema = some "Customer" ∧
      c.service.schema.keyOf? "Customer" = some (.single "id") ∧ c.service.outage = none ∧
      '.' ∉ "id".toList ∧ store.ownQuery.select = [] ∧
      ((store.load {}).perform c).1 = .ok { rows := [rome] } ∧
      ∃ found, ((store.findRow (.string "c2")).perform c).1 = .ok (some found) ∧
        found.field? "id" = some (.string "c2") := by
  intro store c rome
  have hdots : '.' ∉ "id".toList := by decide
  have hrows : ((store.load {}).perform c).1 = .ok { rows := [rome] } := rfl
  have hfinding : ((store.findRow (.string "c2")).perform c).1.isOk = true := rfl
  obtain ⟨hload, -⟩ | ⟨loaded, hload, hfind⟩ :=
    @findRow_of_shown store c _ _ rfl rfl rfl hdots rfl
  · rw [hrows] at hload
    cases hload
  · rw [hrows] at hload
    cases hload
    obtain ⟨hfound, -⟩ | ⟨found?, hfound, hkey, hsome, -⟩ :=
      hfind rome (List.mem_singleton.2 rfl) "c2" rfl
    · rw [hfound] at hfinding
      cases hfinding
    · obtain ⟨found, rfl⟩ := Option.isSome_iff_exists.1 (hsome rfl)
      exact ⟨rfl, rfl, rfl, hdots, rfl, hrows, found, hfound, hkey found rfl⟩

/-- A query that leaves out one row shows the second customer. Asked for that customer alone it
leaves out this one. -/
theorem findRow_misses_shown :
    let store : Store := { resource := "customers", query := some { skip := some 1 } }
    let c : Context Session := { service := Session.shop }
    let rome : Value := .object [("city", .string "Rome"), ("id", .string "c2")]
    store.typeName? c.service.schema = some "Customer" ∧
      c.service.schema.keyOf? "Customer" = some (.single "id") ∧ c.service.outage = none ∧
      '.' ∉ "id".toList ∧ store.ownQuery.select = [] ∧
      ((store.load {}).perform c).1 = .ok { rows := [rome] } ∧
      rome.field? "id" = some (.string "c2") ∧
      ((store.findRow (.string "c2")).perform c).1 = .ok none := by
  intro store c rome
  exact ⟨rfl, rfl, rfl, by decide, rfl, rfl, rfl, rfl⟩

end Store

end DataAccess
