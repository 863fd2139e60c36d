import DataAccess.Value.Equality

/-!
# Sameness is an equivalence

Rows are found by `Value.same`, which identifies the two zeros and otherwise only equal values. A
table can be read as a map from key values because this relation is an equivalence:

- `Value.same_comm`: it is symmetric.
- `Value.same_congr`: values that are the same are the same as the same values, which is
  transitivity in the form in which searches use it.
- `Value.same_iff_eq`: seen from a value without double precision numbers it is equality.
-/

namespace DataAccess

theorem Number.same_congr {a b : Number} (c : Number) (h : a.same b = true) :
    a.same c = b.same c := by
  cases a <;> cases b <;> cases c <;> simp_all [Number.same]

namespace Value

/-! ## Symmetry -/

mutual

theorem same_comm : (a b : Value) → same a b = same b a
  | null, b => by cases b <;> rfl
  | bool x, b => by
    cases b with
    | bool y => exact Bool.beq_comm
    | _ => rfl
  | number x, b => by
    cases b with
    | number y => exact Number.same_comm x y
    | _ => rfl
  | string x, b => by
    cases b with
    | string y => exact Bool.beq_comm
    | _ => rfl
  | array xs, b => by
    cases b with
    | array ys => exact sameItems_comm xs ys
    | _ => rfl
  | object xs, b => by
    cases b with
    | object ys => exact sameFields_comm xs ys
    | _ => rfl

theorem sameItems_comm : (as bs : List Value) → sameItems as bs = sameItems bs as
  | [], [] => rfl
  | [], _ :: _ => rfl
  | _ :: _, [] => rfl
  | a :: as, b :: bs => by rw [sameItems, sameItems, same_comm a b, sameItems_comm as bs]

theorem sameFields_comm : (as bs : List (String × Value)) → sameFields as bs = sameFields bs as
  | [], [] => rfl
  | [], _ :: _ => rfl
  | _ :: _, [] => rfl
  | (m, a) :: as, (n, b) :: bs => by
    rw [sameFields, sameFields, same_comm a b, sameFields_comm as bs, Bool.beq_comm]

end

/-! ## Transitivity -/

mutual

/-- Values that are the same are the same as the same values. -/
theorem same_congr : (a b c : Value) → same a b = true → same a c = same b c
  | null, b, c => by
    cases b with
    | null => exact fun _ => rfl
    | _ =>
      intro h
      cases h
  | bool x, b, c => by
    cases b with
    | bool y =>
      intro h
      rw [eq_of_beq h]
    | _ =>
      intro h
      cases h
  | number x, b, c => by
    cases b with
    | number y =>
      intro h
      cases c with
      | number z => exact Number.same_congr z h
      | _ => rfl
    | _ =>
      intro h
      cases h
  | string x, b, c => by
    cases b with
    | string y =>
      intro h
      rw [eq_of_beq h]
    | _ =>
      intro h
      cases h
  | array xs, b, c => by
    cases b with
    | array ys =>
      intro h
      cases c with
      | array zs => exact sameItems_congr xs ys zs h
      | _ => rfl
    | _ =>
      intro h
      cases h
  | object xs, b, c => by
    cases b with
    | object ys =>
      intro h
      cases c with
      | object zs => exact sameFields_congr xs ys zs h
      | _ => rfl
    | _ =>
      intro h
      cases h

theorem sameItems_congr : (as bs cs : List Value) → sameItems as bs = true →
    sameItems as cs = sameItems bs cs
  | [], [], _ => fun _ => rfl
  | [], _ :: _, _ => by simp [sameItems]
  | _ :: _, [], _ => by simp [sameItems]
  | _ :: _, _ :: _, [] => fun _ => rfl
  | a :: as, b :: bs, c :: cs => by
    intro h
    rw [sameItems, Bool.and_eq_true] at h
    rw [sameItems, sameItems, same_congr a b c h.1, sameItems_congr as bs cs h.2]

theorem sameFields_congr : (as bs cs : List (String × Value)) → sameFields as bs = true →
    sameFields as cs = sameFields bs cs
  | [], [], _ => fun _ => rfl
  | [], _ :: _, _ => by simp [sameFields]
  | _ :: _, [], _ => by simp [sameFields]
  | _ :: _, _ :: _, [] => fun _ => rfl
  | (m, a) :: as, (n, b) :: bs, (l, c) :: cs => by
    intro h
    rw [sameFields, Bool.and_eq_true, Bool.and_eq_true] at h
    rw [sameFields, sameFields, eq_of_beq h.1.1, same_congr a b c h.1.2,
      sameFields_congr as bs cs h.2]

end

/-- Values that are the same are the same as the same values, on the other side. -/
theorem same_congr_right {b c : Value} (a : Value) (h : same b c = true) :
    same a b = same a c := by
  rw [same_comm a b, same_comm a c, same_congr b c a h]

/-! ## Exact values -/

/-- An exact value is the same only as itself. -/
theorem same_iff_eq {a : Value} (h : a.isExact = true) (b : Value) :
    same a b = true ↔ a = b := by
  constructor
  · exact eq_of_same a b h
  · rintro rfl
    exact same_self a

end Value

end DataAccess
