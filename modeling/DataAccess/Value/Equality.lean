import DataAccess.Value.Basic

/-!
# Equality of values

Two notions. Equality as trees is decidable; it tells the two zeros apart. `Value.same` is the
equality by which rows are found: it agrees with equality as trees except that numbers are
compared by `Number.same`.

- `Value.same`: the equality of keys.
- `Value.same_self`: every value is the same as itself.
- `Value.eq_of_same`: on values without double precision numbers it is equality.
-/

namespace DataAccess

namespace Value

mutual

/-- Decides equality of values. -/
def decEq : (a b : Value) → Decidable (a = b)
  | null, null => isTrue rfl
  | bool a, bool b => decidable_of_iff (a = b) (by simp)
  | number a, number b => decidable_of_iff (a = b) (by simp)
  | string a, string b => decidable_of_iff (a = b) (by simp)
  | array a, array b => have := decEqItems a b; decidable_of_iff (a = b) (by simp)
  | object a, object b => have := decEqFields a b; decidable_of_iff (a = b) (by simp)
  | null, bool _ | null, number _ | null, string _ | null, array _ | null, object _
  | bool _, null | bool _, number _ | bool _, string _ | bool _, array _ | bool _, object _
  | number _, null | number _, bool _ | number _, string _ | number _, array _
  | number _, object _ | string _, null | string _, bool _ | string _, number _
  | string _, array _ | string _, object _ | array _, null | array _, bool _
  | array _, number _ | array _, string _ | array _, object _ | object _, null
  | object _, bool _ | object _, number _ | object _, string _ | object _, array _ =>
    isFalse (by simp)

/-- Decides equality of lists of values. -/
def decEqItems : (a b : List Value) → Decidable (a = b)
  | [], [] => isTrue rfl
  | a :: as, b :: bs =>
    have := decEq a b
    have := decEqItems as bs
    decidable_of_iff (a = b ∧ as = bs) (by simp)
  | [], _ :: _ | _ :: _, [] => isFalse (by simp)

/-- Decides equality of records. -/
def decEqFields : (a b : List (String × Value)) → Decidable (a = b)
  | [], [] => isTrue rfl
  | (m, a) :: as, (n, b) :: bs =>
    have := decEq a b
    have := decEqFields as bs
    decidable_of_iff (m = n ∧ a = b ∧ as = bs) (by simp [and_assoc])
  | [], _ :: _ | _ :: _, [] => isFalse (by simp)

end

instance : DecidableEq Value := decEq

mutual

/-- Whether two values are the same as keys. -/
def same : Value → Value → Bool
  | null, null => true
  | bool a, bool b => a == b
  | number a, number b => a.same b
  | string a, string b => a == b
  | array a, array b => sameItems a b
  | object a, object b => sameFields a b
  | _, _ => false

/-- Whether two lists hold the same values. -/
def sameItems : List Value → List Value → Bool
  | [], [] => true
  | a :: as, b :: bs => same a b && sameItems as bs
  | _, _ => false

/-- Whether two records hold the same values under the same names. -/
def sameFields : List (String × Value) → List (String × Value) → Bool
  | [], [] => true
  | (m, a) :: as, (n, b) :: bs => m == n && same a b && sameFields as bs
  | _, _ => false

end

mutual

/-- No double precision number occurs in the value. -/
def isExact : Value → Bool
  | number (.double _) => false
  | array items => isExactItems items
  | object fields => isExactFields fields
  | _ => true

/-- No double precision number occurs in the values of the list. -/
def isExactItems : List Value → Bool
  | [] => true
  | item :: rest => isExact item && isExactItems rest

/-- No double precision number occurs in the values of the record. -/
def isExactFields : List (String × Value) → Bool
  | [] => true
  | (_, value) :: rest => isExact value && isExactFields rest

end

/-! ## Lemmas -/

mutual

@[simp] theorem same_self : (a : Value) → same a a = true
  | null => rfl
  | bool _ => by simp [same]
  | number _ => by simp [same]
  | string _ => by simp [same]
  | array items => by simp [same, sameItems_self items]
  | object fields => by simp [same, sameFields_self fields]

theorem sameItems_self : (items : List Value) → sameItems items items = true
  | [] => rfl
  | a :: rest => by simp [sameItems, same_self a, sameItems_self rest]

theorem sameFields_self : (fields : List (String × Value)) → sameFields fields fields = true
  | [] => rfl
  | (_, a) :: rest => by simp [sameFields, same_self a, sameFields_self rest]

end

mutual

/-- A value without double precision numbers is the same only as itself. -/
theorem eq_of_same : (a b : Value) → isExact a = true → same a b = true → a = b
  | null, b => by cases b <;> simp [same]
  | bool _, b => by cases b <;> simp [same]
  | number (.int _), b => by
    cases b with
    | number n => cases n <;> simp [same, Number.same]
    | _ => simp [same]
  | number (.double _), b => by simp [isExact]
  | string _, b => by cases b <;> simp [same]
  | array items, b => by
    cases b with
    | array others =>
      intro he hs
      rw [eq_of_sameItems items others he hs]
    | _ => simp [same]
  | object fields, b => by
    cases b with
    | object others =>
      intro he hs
      rw [eq_of_sameFields fields others he hs]
    | _ => simp [same]

theorem eq_of_sameItems : (as bs : List Value) → isExactItems as = true →
    sameItems as bs = true → as = bs
  | [], [] => by simp
  | [], _ :: _ => by simp [sameItems]
  | _ :: _, [] => by simp [sameItems]
  | a :: as, b :: bs => by
    intro he hs
    simp only [isExactItems, sameItems, Bool.and_eq_true] at he hs
    rw [eq_of_same a b he.1 hs.1, eq_of_sameItems as bs he.2 hs.2]

theorem eq_of_sameFields : (as bs : List (String × Value)) → isExactFields as = true →
    sameFields as bs = true → as = bs
  | [], [] => by simp
  | [], _ :: _ => by simp [sameFields]
  | _ :: _, [] => by simp [sameFields]
  | (m, a) :: as, (n, b) :: bs => by
    intro he hs
    simp only [isExactFields, sameFields, Bool.and_eq_true, beq_iff_eq] at he hs
    rw [hs.1.1, eq_of_same a b he.1 hs.1.2, eq_of_sameFields as bs he.2 hs.2]

end

end Value

end DataAccess
