import DataAccess.Proofs.Plan.Answering

/-!
# The order of the rows of an answer

The rows of an answer stand in the order of the sort keys of the query, provided that the values
that each key looks at have a place on one scale: numbers, texts or truth values, with null at the
bottom. Without this the comparison of rows is not transitive, since values of different kinds
count as equal.

- `Value.Before`, `SortItem.Before`, `ComesBefore`, `Tied`: the order that sort keys describe.
- `rowOrder_eq_lt`, `rowOrder_eq_eq`: the comparison of rows decides this order.
- `Value.Fits`, `Uniform`: rows in which each sort key finds values of one scale.
- `transCmp_rowOrder`: on such rows the comparison is transitive.
- `Query.sorted_of_uniform`: sorting such rows is never given up.
- `Query.pairwise_sorted`, `Query.filter_sorted`: rows that were sorted stand in the order, and
  rows that no sort key tells apart keep their sequence.
- `Session.execute_sorts`: what a query without a window and without a selection is answered.
-/

namespace DataAccess

/-! ## Values in ascending order -/

namespace Value

/-- One value comes before another in ascending order. Null comes before everything else; apart
from this, values of different kinds have no order. -/
inductive Before : Value → Value → Prop where
  | null {b : Value} (h : b ≠ null) : Before null b
  | number {m n : Number} (h : m.compare n = .lt) : Before (number m) (number n)
  | text {s t : String} (h : s < t) : Before (string s) (string t)
  | truth : Before (bool false) (bool true)

/-- The comparison for sorting finds the values that come before others. -/
theorem compareNullFirst_eq_lt {a b : Value} : a.compareNullFirst b = .lt ↔ a.Before b := by
  constructor
  · intro h
    cases a with
    | null =>
      refine .null fun hb => ?_
      subst hb
      cases h
    | bool x =>
      cases b <;> first | cases h | skip
      rename_i y
      cases x <;> cases y <;> first | exact .truth | cases h
    | number m =>
      cases b <;> first | cases h | skip
      exact .number h
    | string s =>
      cases b <;> first | cases h | skip
      exact .text (compareOfLessAndEq_eq_lt.1 h)
    | array items => cases b <;> cases h
    | object fields => cases b <;> cases h
  · rintro (h | h | h | _)
    · cases b with
      | null => exact absurd rfl h
      | _ => rfl
    · exact h
    · exact compareOfLessAndEq_eq_lt.2 h
    · rfl

/-- What values are ordered by. -/
inductive Scale where
  | number
  | text
  | truth

/-- A value has a place on a scale. Null stands at the bottom of each of them. -/
inductive Fits : Scale → Value → Prop where
  | null (scale : Scale) : Fits scale null
  | number (n : Number) : Fits .number (number n)
  | text (s : String) : Fits .text (string s)
  | truth (b : Bool) : Fits .truth (bool b)

instance decidableFits : (scale : Scale) → (v : Value) → Decidable (Fits scale v)
  | scale, null => .isTrue (.null scale)
  | .number, number n => .isTrue (.number n)
  | .text, string s => .isTrue (.text s)
  | .truth, bool b => .isTrue (.truth b)
  | .text, number _ | .truth, number _ => .isFalse nofun
  | .number, string _ | .truth, string _ => .isFalse nofun
  | .number, bool _ | .text, bool _ => .isFalse nofun
  | _, array _ | _, object _ => .isFalse nofun

/-- On one scale the comparison for sorting is transitive. -/
theorem isLE_trans_of_fits {scale : Scale} {a b c : Value} (ha : Fits scale a)
    (hb : Fits scale b) (hc : Fits scale c) (hab : (a.compareNullFirst b).isLE = true)
    (hbc : (b.compareNullFirst c).isLE = true) : (a.compareNullFirst c).isLE = true := by
  -- Null on the left is before everything, and only null is before null.
  cases hb with
  | null =>
    cases ha with
    | null => exact hbc
    | _ => cases hab
  | number m =>
    cases ha with
    | null => cases hc <;> rfl
    | number l =>
      cases hc with
      | null => cases hbc
      | number n => exact Std.TransOrd.isLE_trans (α := Int) hab hbc
  | text t =>
    cases ha with
    | null => cases hc <;> rfl
    | text s =>
      cases hc with
      | null => cases hbc
      | text u => exact Std.TransOrd.isLE_trans (α := String) hab hbc
  | truth y =>
    cases ha with
    | null => cases hc <;> rfl
    | truth x =>
      cases hc with
      | null => cases hbc
      | truth z => exact Std.TransOrd.isLE_trans (α := Bool) hab hbc

end Value

/-! ## Rows in the order of sort keys -/

namespace SortItem

/-- One row comes before another by what stands at the path of a sort key. -/
def Before (item : SortItem) (a b : Value) : Prop :=
  if item.descending then (b.atPath item.path).Before (a.atPath item.path)
  else (a.atPath item.path).Before (b.atPath item.path)

theorem compare_swap (item : SortItem) (a b : Value) :
    (item.compare a b).swap = item.compare b a := by
  unfold SortItem.compare
  split
  · exact congrArg Ordering.swap (Value.compareNullFirst_swap _ _)
  · exact Value.compareNullFirst_swap _ _

theorem compare_eq_lt {item : SortItem} {a b : Value} :
    item.compare a b = .lt ↔ item.Before a b := by
  unfold SortItem.compare Before
  split
  · rw [Value.compareNullFirst_swap, Value.compareNullFirst_eq_lt]
  · exact Value.compareNullFirst_eq_lt

theorem compare_eq_eq {item : SortItem} {a b : Value} :
    item.compare a b = .eq ↔ ¬item.Before a b ∧ ¬item.Before b a := by
  rw [← compare_eq_lt, ← compare_eq_lt, ← item.compare_swap a b]
  cases item.compare a b <;> simp

end SortItem

/-- One row comes before another: at the first sort key that tells the two apart. -/
inductive ComesBefore : List SortItem → Value → Value → Prop where
  | here {item : SortItem} {rest : List SortItem} {a b : Value} (h : item.Before a b) :
      ComesBefore (item :: rest) a b
  | later {item : SortItem} {rest : List SortItem} {a b : Value} (hab : ¬item.Before a b)
      (hba : ¬item.Before b a) (h : ComesBefore rest a b) : ComesBefore (item :: rest) a b

/-- No sort key tells two rows apart. -/
def Tied (order : List SortItem) (a b : Value) : Prop :=
  ∀ item ∈ order, ¬item.Before a b ∧ ¬item.Before b a

/-- The comparison of rows finds the rows that come before others. -/
theorem rowOrder_eq_lt {order : List SortItem} {a b : Value} :
    rowOrder order a b = .lt ↔ ComesBefore order a b := by
  induction order with
  | nil => exact ⟨nofun, nofun⟩
  | cons item rest ih =>
    rw [rowOrder, Ordering.then_eq_lt, SortItem.compare_eq_lt, SortItem.compare_eq_eq, ih]
    constructor
    · rintro (h | ⟨⟨hab, hba⟩, h⟩)
      · exact .here h
      · exact .later hab hba h
    · rintro (h | ⟨hab, hba, h⟩)
      · exact .inl h
      · exact .inr ⟨⟨hab, hba⟩, h⟩

/-- The comparison of rows finds the rows that no sort key tells apart. -/
theorem rowOrder_eq_eq {order : List SortItem} {a b : Value} :
    rowOrder order a b = .eq ↔ Tied order a b := by
  induction order with
  | nil => exact ⟨fun _ => nofun, fun _ => rfl⟩
  | cons item rest ih =>
    rw [rowOrder, Ordering.then_eq_eq, SortItem.compare_eq_eq, ih]
    simp only [Tied, List.mem_cons, forall_eq_or_imp]

instance decidableTied (order : List SortItem) (a b : Value) : Decidable (Tied order a b) :=
  decidable_of_iff _ rowOrder_eq_eq

/-! ## Rows with values of one scale -/

/-- Rows in which each of some sort keys finds values of one scale. -/
def Uniform (order : List SortItem) (rows : List Value) : Prop :=
  ∀ item ∈ order, ∃ scale, ∀ row ∈ rows, Value.Fits scale (row.atPath item.path)

theorem Uniform.subset {order : List SortItem} {rows found : List Value} (h : Uniform order rows)
    (hfound : ∀ row ∈ found, row ∈ rows) : Uniform order found := fun item hitem =>
  have ⟨scale, hscale⟩ := h item hitem
  ⟨scale, fun row hrow => hscale row (hfound row hrow)⟩

variable {order : List SortItem} {rows : List Value}

/-- What one sort key finds in such rows is compared transitively. -/
theorem transCmp_compare {item : SortItem} {scale : Value.Scale}
    (h : ∀ row ∈ rows, Value.Fits scale (row.atPath item.path)) :
    Std.TransCmp fun a b : { row // row ∈ rows } => item.compare a.1 b.1 := by
  have ascending : Std.TransCmp fun a b : { row // row ∈ rows } =>
      (a.1.atPath item.path).compareNullFirst (b.1.atPath item.path) :=
    { eq_swap := (Value.compareNullFirst_swap _ _).symm
      isLE_trans := fun {a b c} => Value.isLE_trans_of_fits (h a.1 a.2) (h b.1 b.2) (h c.1 c.2) }
  unfold SortItem.compare
  split
  · simp only [Value.compareNullFirst_swap]
    exact Std.TransCmp.opposite
  · exact ascending

/-- Such rows are compared transitively. -/
theorem transCmp_rowOrder (h : Uniform order rows) :
    Std.TransCmp fun a b : { row // row ∈ rows } => rowOrder order a.1 b.1 := by
  induction order with
  | nil => exact { eq_swap := rfl, isLE_trans := fun _ _ => rfl }
  | cons item rest ih =>
    obtain ⟨⟨scale, hscale⟩, hrest⟩ := List.forall_mem_cons.1 h
    have hfirst := transCmp_compare hscale
    have hlater := ih hrest
    exact inferInstanceAs (Std.TransCmp (compareLex
      (fun a b : { row // row ∈ rows } => item.compare a.1 b.1) fun a b => rowOrder rest a.1 b.1))

/-- Sorting by the comparison of rows is sorting by an order. -/
theorem ordersOn_rowOrder (h : Uniform order rows) :
    OrdersOn (fun a b => rowOrder order a b == .lt) (· ∈ rows) where
  asymm {a b} _ _ hab := by
    rw [← rowOrder_swap, eq_of_beq hab]
    rfl
  trans {a b c} ha hb hc hab hbc := by
    have htrans := transCmp_rowOrder h
    have hge := @Std.TransCmp.isGE_trans _ _ htrans ⟨a, ha⟩ ⟨b, hb⟩ ⟨c, hc⟩
    simp only [beq_eq_false_iff_ne, ne_eq, ← Ordering.isGE_iff_ne_lt] at hab hbc ⊢
    exact hge hab hbc

namespace Query

variable {q : Query} {sorter : Sorter Value} {sorted : List Value}

/-- Rows with values of one scale for each sort key can be sorted, whatever way of sorting is
used. -/
theorem sorted_of_uniform (h : Uniform q.order rows) :
    q.sorted sorter rows = .ok (stableSort (fun a b => rowOrder q.order a b == .lt) rows) :=
  sorted_of_ordersOn (ordersOn_rowOrder h)

/-- Sorting is given up only where a sort key finds values of several kinds. -/
theorem not_uniform_of_sorted {e : Error} (h : q.sorted sorter rows = .error e) :
    ¬Uniform q.order rows := by
  intro huniform
  rw [sorted_of_uniform huniform] at h
  cases h

/-- Rows that were sorted stand in the order of the sort keys. -/
theorem pairwise_sorted (h : Uniform q.order rows) (hsorted : q.sorted sorter rows = .ok sorted) :
    sorted.Pairwise fun a b => ¬ComesBefore q.order b a := by
  rw [sorted_of_uniform h] at hsorted
  cases hsorted
  refine (pairwise_stableSort (ordersOn_rowOrder h)).imp fun hba hbefore => ?_
  rw [rowOrder_eq_lt.2 hbefore] at hba
  cases hba

/-- Rows that no sort key tells apart from a given one keep their sequence. -/
theorem filter_sorted (h : Uniform q.order rows) (hsorted : q.sorted sorter rows = .ok sorted)
    {row : Value} (hrow : row ∈ rows) :
    sorted.filter (Tied q.order row ·) = rows.filter (Tied q.order row ·) := by
  rw [sorted_of_uniform h] at hsorted
  cases hsorted
  refine filter_stableSort fun a ha hatied b hb hbtied => ?_
  have horder := ordersOn_rowOrder h
  have hrowa := rowOrder_eq_eq.2 (of_decide_eq_true hatied)
  have hrowb := rowOrder_eq_eq.2 (of_decide_eq_true hbtied)
  have harow : rowOrder q.order a row = .eq := by
    rw [← rowOrder_swap, hrowa]
    rfl
  refine horder.trans ha hrow hb ?_ ?_
  · rw [harow]
    rfl
  · rw [hrowb]
    rfl

end Query

/-- A query without a window and without a selection is answered with the rows that its filter lets
through: each of them as often as it is saved, in the order of the sort keys, and in the order in
which they were saved where no sort key tells them apart. -/
theorem Session.execute_sorts {s : Session} {q : Query} {type : String} (hup : s.outage = none)
    (htype : s.schema.typeNameServedBy? (q.resource.getD "") = some type)
    (hskip : q.skip = none) (htake : q.take = none) (hselect : q.select = [])
    (huniform : Uniform q.order ((s.rows type).map .object)) :
    let found := ((s.rows type).map Value.object).filter q.admits
    ∃ response, (s.execute q).1 = .ok response ∧
      response.rows.Perm found ∧
      response.rows.Pairwise (fun a b => ¬ComesBefore q.order b a) ∧
      ∀ row ∈ found,
        response.rows.filter (Tied q.order row ·) = found.filter (Tied q.order row ·) := by
  intro found
  have hfound : Uniform q.order found := huniform.subset fun row hrow => (List.mem_filter.1 hrow).1
  obtain ⟨sorted, hsorted⟩ : ∃ sorted, q.sorted s.sorter found = .ok sorted :=
    ⟨_, Query.sorted_of_uniform hfound⟩
  refine ⟨{ rows := sorted, total := q.total found }, ?_, Query.perm_of_sorted hsorted,
    Query.pairwise_sorted hfound hsorted, fun row hrow => Query.filter_sorted hfound hsorted hrow⟩
  rw [s.execute_served hup htype, Query.answer_of_select_nil hselect, hskip, htake]
  exact congrArg (Except.map _) hsorted

/-- Guests are listed by city, the last one in the alphabet first, and by age within a city. A
guest without a city comes last and one without an age first; two guests of the same age and city
stay as they were entered. -/
theorem Session.execute_sorts_guests :
    let guest (id city age : Value) : Record := [("age", age), ("city", city), ("id", id)]
    let s : Session :=
      { schema := ({} : Schema).add ⟨"Guest", ["id"]⟩ "guests"
        tables := Keyed.empty.insert "Guest"
          [guest (.nat 1) (.string "Oslo") (.nat 30), guest (.nat 2) (.string "Rome") (.nat 25),
            guest (.nat 3) .null (.nat 41), guest (.nat 4) (.string "Oslo") (.nat 30),
            guest (.nat 5) (.string "Oslo") .null, guest (.nat 6) (.string "Bergen") (.nat 7)] }
    let q : Query :=
      { resource := some "guests", filter := some (.comparison "id" .ne (.nat 2))
        order := [⟨"city", true⟩, ⟨"age", false⟩] }
    let rows := (s.rows "Guest").map Value.object
    s.outage = none ∧ s.schema.typeNameServedBy? (q.resource.getD "") = some "Guest" ∧
      q.skip = none ∧ q.take = none ∧ q.select = [] ∧ Uniform q.order rows ∧
      ∃ response, (s.execute q).1 = .ok response ∧
        response.rows.map (·.atPath "id") = [.nat 5, .nat 1, .nat 4, .nat 6, .nat 3] ∧
        response.rows.Perm (rows.filter q.admits) ∧
        response.rows.Pairwise fun a b => ¬ComesBefore q.order b a := by
  intro guest s q rows
  have htype : s.schema.typeNameServedBy? (q.resource.getD "") = some "Guest" := by decide
  have hcity : ∀ row ∈ rows, Value.Fits .text (row.atPath "city") := by decide
  have hage : ∀ row ∈ rows, Value.Fits .number (row.atPath "age") := by decide
  have huniform : Uniform q.order rows :=
    List.forall_mem_cons.2 ⟨⟨.text, hcity⟩, List.forall_mem_cons.2 ⟨⟨.number, hage⟩, nofun⟩⟩
  obtain ⟨response, hresponse, hperm, hsorted, -⟩ :=
    Session.execute_sorts (s := s) rfl htype rfl rfl rfl huniform
  have hids : (s.execute q).1.toOption.map (·.rows.map (·.atPath "id")) =
      some [.nat 5, .nat 1, .nat 4, .nat 6, .nat 3] := by decide +kernel
  rw [hresponse] at hids
  exact ⟨rfl, htype, rfl, rfl, rfl, huniform, response, hresponse, Option.some.inj hids, hperm,
    hsorted⟩

end DataAccess
