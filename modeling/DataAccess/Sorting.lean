/-!
# Stable sorting

Sorting by a test that says when one element comes before another. Elements are put into place one
after the other, each as far to the end as the test allows.

- `stableSort`: the sort.
- `stableSort_perm`: it loses nothing and adds nothing.
- `pairwise_stableSort`: its result is sorted, where the test orders the elements of the list.
- `filter_stableSort`: elements none of which comes before another keep their sequence.
- `Sorter`: ways of sorting that do as the stable sort does where the test is an order, and may
  give up where it is none; `Sorter.stable` never gives up, `Sorter.cautious` always does then.
-/

namespace DataAccess

variable {α : Type}

/-- Puts an element into place in a list that is held with its last element first. -/
def place (before : α → α → Bool) (x : α) : List α → List α
  | [] => [x]
  | y :: rest => if before x y then y :: place before x rest else x :: y :: rest

/-- Puts the elements of a list into place, one after the other, in a list that is held with its
last element first. -/
def placeAll (before : α → α → Bool) (done : List α) : List α → List α
  | [] => done
  | x :: rest => placeAll before (place before x done) rest

/-- The elements of a list in the order that a test asks for. -/
def stableSort (before : α → α → Bool) (l : List α) : List α := (placeAll before [] l).reverse

/-! ## Nothing is lost -/

theorem place_perm (before : α → α → Bool) (x : α) (done : List α) :
    (place before x done).Perm (x :: done) := by
  induction done with
  | nil => exact List.Perm.refl _
  | cons y rest ih =>
    unfold place
    split
    · exact (ih.cons y).trans (List.Perm.swap x y rest)
    · exact List.Perm.refl _

theorem placeAll_perm (before : α → α → Bool) (done l : List α) :
    (placeAll before done l).Perm (done ++ l) := by
  induction l generalizing done with
  | nil => simp [placeAll]
  | cons x rest ih =>
    have h := (ih (place before x done)).trans ((place_perm before x done).append_right rest)
    exact h.trans List.perm_middle.symm

/-- Sorting loses nothing and adds nothing. -/
theorem stableSort_perm (before : α → α → Bool) (l : List α) : (stableSort before l).Perm l :=
  (List.reverse_perm _).trans (placeAll_perm before [] l)

/-! ## The result is sorted -/

/-- A test orders the elements of a class: no two of them come before each other, and what does
not come before something that does not come before a third does not come before the third. -/
structure OrdersOn (before : α → α → Bool) (S : α → Prop) : Prop where
  asymm : ∀ {a b}, S a → S b → before a b = true → before b a = false
  trans : ∀ {a b c}, S a → S b → S c →
    before a b = false → before b c = false → before a c = false

theorem pairwise_place {before : α → α → Bool} {S : α → Prop} (h : OrdersOn before S) {x : α}
    (hx : S x) {done : List α} (hd : ∀ y ∈ done, S y)
    (hs : done.Pairwise fun a b => before a b = false) :
    (place before x done).Pairwise fun a b => before a b = false := by
  induction done with
  | nil => exact List.pairwise_singleton _ _
  | cons y rest ih =>
    have hp := List.pairwise_cons.1 hs
    have hy : S y := hd y (by simp)
    have hr : ∀ z ∈ rest, S z := fun z hz => hd z (List.mem_cons_of_mem _ hz)
    unfold place
    split
    · rename_i hxy
      refine List.pairwise_cons.2 ⟨fun z hz => ?_, ih hr hp.2⟩
      rcases List.mem_cons.1 ((place_perm before x rest).mem_iff.1 hz) with rfl | hz
      · exact h.asymm hx hy hxy
      · exact hp.1 z hz
    · rename_i hxy
      have hxy : before x y = false := by simpa using hxy
      refine List.pairwise_cons.2 ⟨fun z hz => ?_, hs⟩
      rcases List.mem_cons.1 hz with rfl | hz
      · exact hxy
      · exact h.trans hx hy (hr z hz) hxy (hp.1 z hz)

theorem pairwise_placeAll {before : α → α → Bool} {S : α → Prop} (h : OrdersOn before S)
    {l done : List α} (hl : ∀ x ∈ l, S x) (hd : ∀ y ∈ done, S y)
    (hs : done.Pairwise fun a b => before a b = false) :
    (placeAll before done l).Pairwise fun a b => before a b = false := by
  induction l generalizing done with
  | nil => exact hs
  | cons x rest ih =>
    have hx : S x := hl x (by simp)
    refine ih (fun y hy => hl y (List.mem_cons_of_mem _ hy)) (fun y hy => ?_)
      (pairwise_place h hx hd hs)
    rcases List.mem_cons.1 ((place_perm before x done).mem_iff.1 hy) with rfl | hy
    · exact hx
    · exact hd y hy

/-- In a sorted list no element comes before one to its left. -/
theorem pairwise_stableSort {before : α → α → Bool} {l : List α}
    (h : OrdersOn before (· ∈ l)) :
    (stableSort before l).Pairwise fun a b => before b a = false :=
  List.pairwise_reverse.2 (pairwise_placeAll h (fun _ hx => hx) (by simp) List.Pairwise.nil)

/-! ## Equal elements keep their sequence -/

theorem filter_place {before : α → α → Bool} {p : α → Bool} {x : α} {done : List α}
    (h : p x = true → ∀ y ∈ done, p y = true → before x y = false) :
    (place before x done).filter p = (x :: done).filter p := by
  induction done with
  | nil => rfl
  | cons y rest ih =>
    have ih := ih fun hx z hz => h hx z (List.mem_cons_of_mem _ hz)
    unfold place
    split
    · rename_i hxy
      rw [List.filter_cons, ih]
      by_cases hx : p x = true
      · have hy : ¬p y = true := fun hy => by simp [h hx y (by simp) hy] at hxy
        simp [hx, hy]
      · simp [List.filter_cons, hx]
    · rfl

theorem filter_placeAll {before : α → α → Bool} {p : α → Bool} {l done : List α}
    (h : ∀ x ∈ l, p x = true → ∀ y ∈ done ++ l, p y = true → before x y = false) :
    (placeAll before done l).filter p = (l.filter p).reverse ++ done.filter p := by
  induction l generalizing done with
  | nil => simp [placeAll]
  | cons x rest ih =>
    have hx := h x (by simp)
    have hp : (place before x done).filter p = (x :: done).filter p :=
      filter_place fun hpx y hy => hx hpx y (by simp [hy])
    have hr := @ih (place before x done) fun y hy hpy z hz => by
      refine h y (List.mem_cons_of_mem _ hy) hpy z ?_
      rcases List.mem_append.1 hz with hz | hz
      · rcases List.mem_cons.1 ((place_perm before x done).mem_iff.1 hz) with rfl | hz
        · simp
        · simp [hz]
      · simp [hz]
    rw [placeAll, hr, hp]
    by_cases hpx : p x = true <;> simp [hpx]

/-- Elements of a class none of which comes before another keep their sequence. -/
theorem filter_stableSort {before : α → α → Bool} {p : α → Bool} {l : List α}
    (h : ∀ x ∈ l, p x = true → ∀ y ∈ l, p y = true → before x y = false) :
    (stableSort before l).filter p = l.filter p := by
  rw [stableSort, List.filter_reverse, filter_placeAll (by simpa using h)]
  simp

/-- Where no element comes before another, sorting changes nothing. -/
theorem stableSort_eq_self {before : α → α → Bool} {l : List α}
    (h : ∀ x ∈ l, ∀ y ∈ l, before x y = false) : stableSort before l = l := by
  have hf : (stableSort before l).filter (fun _ => true) = l.filter fun _ => true :=
    filter_stableSort fun x hx _ y hy _ => h x hx y hy
  rwa [List.filter_eq_self.2 fun _ _ => rfl, List.filter_eq_self.2 fun _ _ => rfl] at hf

/-! ## Ways of sorting -/

/-- A way of sorting. Where the test orders the elements of a list it is the stable sort. By a test
that does not it may give up, and if it does not give up it loses nothing and adds nothing; nothing
else is known of it then. -/
structure Sorter (α : Type) where
  /-- the elements of a list in the order that a test asks for, unless sorting is given up -/
  sort : (α → α → Bool) → List α → Option (List α)
  sort_of_ordersOn : ∀ {before : α → α → Bool} {l : List α},
    OrdersOn before (· ∈ l) → sort before l = some (stableSort before l)
  perm_of_sort : ∀ {before : α → α → Bool} {l sorted : List α},
    sort before l = some sorted → sorted.Perm l

/-- The stable sort, by whatever test. -/
def Sorter.stable : Sorter α where
  sort before l := some (stableSort before l)
  sort_of_ordersOn _ := rfl
  perm_of_sort := by
    rintro before l _ ⟨rfl⟩
    exact stableSort_perm before l

instance decidableOrdersOn (before : α → α → Bool) (l : List α) :
    Decidable (OrdersOn before (· ∈ l)) :=
  decidable_of_iff
    ((∀ a ∈ l, ∀ b ∈ l, before a b = true → before b a = false) ∧
      ∀ a ∈ l, ∀ b ∈ l, ∀ c ∈ l,
        before a b = false → before b c = false → before a c = false)
    ⟨fun h => ⟨fun ha hb => h.1 _ ha _ hb, fun ha hb hc => h.2 _ ha _ hb _ hc⟩,
      fun h => ⟨fun _ ha _ hb => h.asymm ha hb, fun _ ha _ hb _ hc => h.trans ha hb hc⟩⟩

/-- The stable sort by tests that are orders; by any other test nothing is sorted. -/
def Sorter.cautious : Sorter α where
  sort before l := if OrdersOn before (· ∈ l) then some (stableSort before l) else none
  sort_of_ordersOn h := if_pos h
  perm_of_sort := by
    intro before l sorted h
    split at h
    · cases h
      exact stableSort_perm before l
    · cases h

end DataAccess
