import DataAccess.Query.Basic
import DataAccess.Sorting

/-!
# Answering a query from rows

- `Response`: what a service answers.
- `rowOrder`: the order of rows that a list of sort keys asks for.
- `window`: the rows that a cut leaves; `length_window`, `head?_window`: how many, and which one is
  the first.
- `Query.answer`: the rows of a table that a query asks for: filtered, sorted, cut and reduced to
  the selected parts, in this sequence. Where the sort keys are an order of the rows, rows with
  equal keys keep their order; where they are none, sorting may be given up.
- `Query.matching`, `Query.sorted`: the first two steps.
- `Query.sorted_of_ordersOn`, `Query.perm_of_sorted`: what is known of sorted rows.
-/

namespace DataAccess

/-- The answer of a service to a query. -/
structure Response where
  /-- the rows delivered -/
  rows : List Value
  /-- how many rows the filter lets through, if asked -/
  total : Option Nat
  deriving DecidableEq

/-- Compares what stands at the path of a sort key. -/
def SortItem.compare (item : SortItem) (a b : Value) : Ordering :=
  let order := (a.atPath item.path).compareNullFirst (b.atPath item.path)
  if item.descending then order.swap else order

/-- Compares two rows by a list of sort keys, the most important first. -/
def rowOrder : List SortItem → Value → Value → Ordering
  | [], _, _ => .eq
  | item :: rest, a, b => (item.compare a b).then (rowOrder rest a b)

/-- The rows from `skip` on, at most `take` of them. -/
def window (skip take : Option Nat) (rows : List Value) : List Value :=
  let rest := rows.drop (skip.getD 0)
  match take with
  | none => rest
  | some n => rest.take n

namespace Query

/-- The rows that the filter of a query lets through. -/
def matching (q : Query) (rows : List Value) : List Value := rows.filter q.admits

/-- Rows in the order that a query asks for. Without sort keys they stay as they are. -/
def sorted (q : Query) (sorter : Sorter Value) (rows : List Value) : Except Error (List Value) :=
  if q.order.isEmpty then .ok rows
  else
    match sorter.sort (fun a b => rowOrder q.order a b == .lt) rows with
    | some sorted => .ok sorted
    | none => .error .unsortable

/-- How many rows there are before the cut, if the query asks for that. -/
def total (q : Query) (found : List Value) : Option Nat :=
  if q.countTotal then some found.length else none

/-- A row reduced to the parts that a query selects. -/
def shape (q : Query) (row : Value) : Value :=
  if q.select.isEmpty then row else .object (Record.pick row q.select)

/-- What a query asks for of a list of rows. -/
def answer (q : Query) (sorter : Sorter Value) (rows : List Value) : Except Error Response :=
  (q.sorted sorter (q.matching rows)).map fun sorted =>
    { rows := (window q.skip q.take sorted).map q.shape, total := q.total (q.matching rows) }

end Query

/-! ## Lemmas -/

@[simp] theorem rowOrder_nil (a b : Value) : rowOrder [] a b = .eq := rfl

/-- Exchanging two rows reverses the comparison. -/
theorem rowOrder_swap (order : List SortItem) (a b : Value) :
    (rowOrder order a b).swap = rowOrder order b a := by
  induction order with
  | nil => rfl
  | cons item rest ih =>
    have h := Value.compareNullFirst_swap (a.atPath item.path) (b.atPath item.path)
    rw [rowOrder, rowOrder, Ordering.swap_then, ih]
    unfold SortItem.compare
    split <;> simp [h]

section

variable (skip take : Option Nat) (rows : List Value)

@[simp] theorem window_none : window skip none rows = rows.drop (skip.getD 0) := rfl

@[simp] theorem window_some (n : Nat) :
    window skip (some n) rows = (rows.drop (skip.getD 0)).take n := rfl

theorem window_map (f : Value → Value) :
    (window skip take rows).map f = window skip take (rows.map f) := by
  cases take with
  | none => rw [window_none, window_none, List.map_drop]
  | some n => rw [window_some, window_some, List.map_take, List.map_drop]

variable {skip take rows}

/-- A cut adds no rows, and one that is to leave no row leaves none. -/
theorem mem_of_mem_window {row : Value} (h : row ∈ window skip take rows) :
    row ∈ rows ∧ take ≠ some 0 := by
  cases take with
  | none => exact ⟨List.mem_of_mem_drop h, nofun⟩
  | some n =>
    rw [window_some] at h
    refine ⟨List.mem_of_mem_drop (List.mem_of_mem_take h), ?_⟩
    rintro ⟨rfl⟩
    rw [List.take_zero] at h
    cases h

/-- Any other cut begins with the row that follows those left out. -/
theorem head?_window (htake : take ≠ some 0) :
    (window skip take rows).head? = rows[skip.getD 0]? := by
  cases take with
  | none => rw [window_none, List.head?_drop]
  | some n =>
    have hpos : n ≠ 0 := fun h => htake (congrArg some h)
    rw [window_some, List.head?_take, if_neg hpos, List.head?_drop]

end

namespace Query

variable {q : Query} {sorter : Sorter Value} {rows sorted : List Value}

/-- Without sort keys nothing is sorted. -/
theorem sorted_of_order_nil (horder : q.order = []) : q.sorted sorter rows = .ok rows := by
  unfold Query.sorted
  rw [horder]
  rfl

/-- Where the sort keys are an order of the rows, it is the order of the sorted rows. -/
theorem sorted_of_ordersOn
    (h : OrdersOn (fun a b => rowOrder q.order a b == .lt) (· ∈ rows)) :
    q.sorted sorter rows = .ok (stableSort (fun a b => rowOrder q.order a b == .lt) rows) := by
  by_cases horder : q.order = []
  · rw [sorted_of_order_nil horder, stableSort_eq_self]
    intro a _ b _
    rw [horder]
    rfl
  · unfold Query.sorted
    rw [if_neg (mt List.isEmpty_iff.1 horder), sorter.sort_of_ordersOn h]

/-- Sorting loses nothing and adds nothing. -/
theorem perm_of_sorted (h : q.sorted sorter rows = .ok sorted) : sorted.Perm rows := by
  unfold Query.sorted at h
  split at h
  · cases h
    exact List.Perm.refl _
  · split at h
    · cases h
      exact sorter.perm_of_sort ‹_›
    · cases h

/-- The only thing that can happen to rows that are to be sorted is that sorting is given up. -/
theorem eq_unsortable_of_sorted {e : Error} (h : q.sorted sorter rows = .error e) :
    e = .unsortable := by
  unfold Query.sorted at h
  split at h
  · cases h
  · split at h
    · cases h
    · exact (Except.error.inj h).symm

/-- A query is answered, unless sorting is given up. -/
theorem answer_eq_error_iff {e : Error} :
    q.answer sorter rows = .error e ↔ q.sorted sorter (q.matching rows) = .error e := by
  unfold answer
  cases q.sorted sorter (q.matching rows) with
  | error e' =>
    constructor
    · rintro ⟨rfl⟩
      rfl
    · rintro ⟨rfl⟩
      rfl
  | ok sorted => exact ⟨nofun, nofun⟩

/-- A query that selects no parts delivers whole rows. -/
theorem answer_of_select_nil (hselect : q.select = []) :
    q.answer sorter rows = (q.sorted sorter (q.matching rows)).map fun sorted =>
      { rows := window q.skip q.take sorted, total := q.total (q.matching rows) } := by
  have hshape : q.shape = fun row => row := by
    unfold shape
    rw [hselect]
    rfl
  unfold answer
  simp only [hshape, List.map_id']

end Query

end DataAccess
