import DataAccess.Filter.Criterion.Grammar

/-!
# Criteria that are written are read back

The arrays in which criteria are written carry no tags. A comparison, a negation and a group are
told apart by the length of the array and by its first two elements alone, although a field may be
called `!`, and a value may be an array that could itself be read as a criterion. All the same
a criterion is read back from what is written for it, if only each of its groups begins with an
operand: a group that does not would be taken for a comparison.

- `Criterion.isWritable`: every group in the criterion begins with an operand.
- `Criterion.ofValue_of_isWritable`: such a criterion is read back.
- `Criterion.isWritable_of_ofValue`: whatever is read is such a criterion.
- `Criterion.ofValue_toValue_iff`: the two together.
-/

namespace DataAccess

namespace Criterion

/-- Whether the items of a group begin with an operand; an empty group does not. -/
def beginsWithOperand : List (GroupElement Criterion) → Bool
  | .operand _ :: _ => true
  | .connective _ :: _ | [] => false

mutual

/-- Whether every group in a criterion, at any depth, begins with an operand. -/
def isWritable : Criterion → Bool
  | leaf _ _ _ => true
  | negation part => part.isWritable
  | group items => beginsWithOperand items && elementsWritable items

/-- Whether every group in the items of a group begins with an operand. -/
def elementsWritable : List (GroupElement Criterion) → Bool
  | [] => true
  | .operand c :: rest => c.isWritable && elementsWritable rest
  | .connective _ :: rest => elementsWritable rest

end

variable {c : Criterion} {items : List (GroupElement Criterion)}

/-! ## Reading what was written -/

/-- Every criterion is written as an array. -/
theorem exists_toValue_eq_array (c : Criterion) : ∃ inner, c.toValue = .array inner := by
  cases c <;> exact ⟨_, rfl⟩

/-- What stands behind an exclamation mark is negated, if it is an array. -/
theorem ofValue_exclamation {inner : List Value} (h : ofValue (.array inner) = .ok c) :
    ofValue (.array [.string "!", .array inner]) = .ok (.negation c) := by
  unfold ofValue
  rw [if_pos (show negates "!" = true by decide), h]

/-- An array that begins with an array is a group. -/
theorem ofValue_group {inner rest : List Value}
    (h : elementsOfValues (.array inner :: rest) = .ok items) :
    ofValue (.array (.array inner :: rest)) = .ok (.group items) := by
  unfold ofValue
  rw [h]

theorem elementsOfValues_operand {inner rest : List Value} (hc : ofValue (.array inner) = .ok c)
    (hrest : elementsOfValues rest = .ok items) :
    elementsOfValues (.array inner :: rest) = .ok (.operand c :: items) := by
  unfold elementsOfValues
  rw [hc, hrest]

theorem elementsOfValues_connective {rest : List Value} (k : Connective)
    (hrest : elementsOfValues rest = .ok items) :
    elementsOfValues (.string k.token :: rest) = .ok (.connective k :: items) := by
  unfold elementsOfValues
  rw [hrest, Connective.ofToken_token]

mutual

/-- A criterion whose groups begin with operands is read back. -/
theorem ofValue_of_isWritable : (c : Criterion) → c.isWritable = true →
    ofValue c.toValue = .ok c
  | leaf field operator value => by
    intro _
    -- three elements of which the first is a text: neither a negation nor a group
    cases value <;> rfl
  | negation part => by
    intro h
    obtain ⟨inner, hinner⟩ := part.exists_toValue_eq_array
    have hpart : ofValue part.toValue = .ok part := ofValue_of_isWritable part h
    show ofValue (.array [.string "!", part.toValue]) = .ok (.negation part)
    rw [hinner] at hpart ⊢
    exact ofValue_exclamation hpart
  | group items => by
    intro h
    obtain ⟨hbegins, hitems⟩ := Bool.and_eq_true_iff.1 h
    have hread := elementsOfValues_of_writable items hitems
    show ofValue (.array (elementValues items)) = .ok (.group items)
    match items, hbegins with
    | .operand first :: rest, _ =>
      obtain ⟨inner, hinner⟩ := first.exists_toValue_eq_array
      unfold elementValues at hread ⊢
      rw [hinner] at hread ⊢
      exact ofValue_group hread

/-- The items of a group are read back if the groups in them begin with operands. -/
theorem elementsOfValues_of_writable : (items : List (GroupElement Criterion)) →
    elementsWritable items = true → elementsOfValues (elementValues items) = .ok items
  | [] => by
    intro _
    rfl
  | .operand c :: rest => by
    intro h
    obtain ⟨hc, hrest⟩ := Bool.and_eq_true_iff.1 h
    obtain ⟨inner, hinner⟩ := c.exists_toValue_eq_array
    have hread : ofValue c.toValue = .ok c := ofValue_of_isWritable c hc
    unfold elementValues
    rw [hinner] at hread ⊢
    exact elementsOfValues_operand hread (elementsOfValues_of_writable rest hrest)
  | .connective k :: rest => by
    intro h
    exact elementsOfValues_connective k (elementsOfValues_of_writable rest h)

end

/-! ## What is read -/

/-- Only comparisons are read as comparisons. -/
theorem isWritable_of_leafOfItems {vs : List Value} (h : leafOfItems vs = .ok c) :
    c.isWritable = true := by
  unfold leafOfItems at h
  split at h <;> cases h <;> rfl

/-- What is read from an array that begins with an array begins with an operand. -/
theorem beginsWithOperand_of_elements {inner rest : List Value}
    (h : elementsOfValues (.array inner :: rest) = .ok items) :
    beginsWithOperand items = true := by
  unfold elementsOfValues at h
  split at h
  · cases h
  · split at h <;> cases h
    rfl

mutual

/-- In a criterion that was read every group begins with an operand. -/
theorem isWritable_of_ofValue : (v : Value) → {c : Criterion} → ofValue v = .ok c →
    c.isWritable = true
  | .array vs => by
    intro h
    have helements : ∀ {items}, elementsOfValues vs = .ok items →
        elementsWritable items = true := elementsWritable_of_elements vs
    unfold ofValue at h
    split at h
    · -- a negation, or a comparison of a field with an array
      rename_i token inner heq
      cases heq
      split at h
      · split at h
        · rename_i part hpart
          cases h
          show part.isWritable = true
          exact isWritable_of_ofValue (.array inner) hpart
        · cases h
      · exact isWritable_of_leafOfItems h
    · -- a group
      rename_i first rest heq
      cases heq
      split at h
      · rename_i items hitems
        cases h
        exact Bool.and_eq_true_iff.2 ⟨beginsWithOperand_of_elements hitems, helements hitems⟩
      · cases h
    · exact isWritable_of_leafOfItems h
    · cases h
  | .null | .bool _ | .number _ | .string _ | .object _ => by
    intro h
    cases h

/-- In the items of a group that were read every group begins with an operand. -/
theorem elementsWritable_of_elements : (vs : List Value) →
    {items : List (GroupElement Criterion)} → elementsOfValues vs = .ok items →
    elementsWritable items = true
  | [] => by
    intro h
    cases h
    rfl
  | v :: rest => by
    intro h
    have hrest : ∀ {items}, elementsOfValues rest = .ok items → elementsWritable items = true :=
      elementsWritable_of_elements rest
    have hfirst : ∀ {c}, ofValue v = .ok c → c.isWritable = true := isWritable_of_ofValue v
    unfold elementsOfValues at h
    split at h
    · -- there is an element
      rename_i heq
      cases heq
    · -- an operand
      rename_i heq
      cases heq
      split at h
      · cases h
      · rename_i hc
        split at h
        · cases h
        · rename_i hmore
          cases h
          exact Bool.and_eq_true_iff.2 ⟨hfirst hc, hrest hmore⟩
    · -- a connective
      rename_i heq
      cases heq
      split at h
      · cases h
      · rename_i more hmore
        cases h
        show elementsWritable more = true
        exact hrest hmore
    · cases h

end

/-- **Writing a criterion and reading it back.** A criterion is read back from what is written for
it exactly if each of its groups, at any depth, begins with an operand; its fields, operators and
values make no difference. Every criterion that was read from a value, whatever that value was, is
of this kind, and so it is read back as well. -/
theorem ofValue_toValue_iff (c : Criterion) :
    (ofValue c.toValue = .ok c ↔ c.isWritable = true) ∧
      ∀ v, ofValue v = .ok c → c.isWritable = true ∧ ofValue c.toValue = .ok c := by
  refine ⟨⟨isWritable_of_ofValue c.toValue, ofValue_of_isWritable c⟩, fun v h => ?_⟩
  have hwritable := isWritable_of_ofValue v h
  exact ⟨hwritable, ofValue_of_isWritable c hwritable⟩

/-- A field called `not`, compared with an array that could be read as a group. -/
example :
    let c : Criterion :=
      .leaf "not" "!" (.array [.array [.string "a", .nat 1], .string "or", .array []])
    ofValue c.toValue = .ok c := rfl

end Criterion

end DataAccess
