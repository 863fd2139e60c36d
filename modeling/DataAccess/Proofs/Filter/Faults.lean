import DataAccess.Filter.Criterion.Grammar
import DataAccess.Proofs.Filter.Group

/-!
# What can be wrong with a criterion

A criterion that cannot be compiled is at fault in one of three ways: it is not written as the
grammar demands, it names no operator, or one of its groups mixes connectives.

- `Error.AboutCriterion`: these three ways.
- `Criterion.malformed_of_ofValue`, `Criterion.aboutCriterion_of_compile`: reading fails in the
  first of them only, and compiling in no way but these.
- `Predicate.aboutCriterion_of_ofCriteria`: the two together.
-/

namespace DataAccess

/-- The errors that say what is wrong with a criterion. -/
inductive Error.AboutCriterion : Error → Prop where
  | malformed (fault : Malformed) : AboutCriterion (.malformed fault)
  | unknownOperator (token : String) : AboutCriterion (.unknownOperator token)
  | mixedConnectives : AboutCriterion .mixedConnectives

namespace Criterion

/-! ## Reading -/

theorem malformed_of_leafOfItems {items : List Value} {e : Error}
    (h : leafOfItems items = .error e) : ∃ fault, e = .malformed fault := by
  unfold leafOfItems at h
  split at h <;> cases h <;> exact ⟨_, rfl⟩

mutual

/-- A criterion that cannot be read is not written as the grammar demands. -/
theorem malformed_of_ofValue : (v : Value) → {e : Error} → ofValue v = .error e →
    ∃ fault, e = .malformed fault
  | .array items => by
    intro h
    have helements : ∀ {e}, elementsOfValues items = .error e →
        ∃ fault, e = .malformed fault := malformed_of_elements items
    unfold ofValue at h
    split at h
    · -- a negation, or a comparison of a field with an array
      rename_i token inner heq
      cases heq
      split at h
      · split at h
        · cases h
        · rename_i hinner
          cases h
          exact malformed_of_ofValue (.array inner) hinner
      · exact malformed_of_leafOfItems h
    · -- a group
      rename_i heq
      cases heq
      split at h
      · cases h
      · rename_i hitems
        cases h
        exact helements hitems
    · exact malformed_of_leafOfItems h
    · cases h
      exact ⟨_, rfl⟩
  | .null | .bool _ | .number _ | .string _ | .object _ => by
    intro h
    cases h
    exact ⟨_, rfl⟩

/-- A list that cannot be read as the elements of a group holds something else, or a criterion
that is not written as the grammar demands. -/
theorem malformed_of_elements : (vs : List Value) → {e : Error} →
    elementsOfValues vs = .error e → ∃ fault, e = .malformed fault
  | [] => by
    intro h
    cases h
  | v :: rest => by
    intro h
    have hrest : ∀ {e}, elementsOfValues rest = .error e →
        ∃ fault, e = .malformed fault := malformed_of_elements rest
    have hfirst : ∀ {e}, ofValue v = .error e → ∃ fault, e = .malformed fault :=
      malformed_of_ofValue v
    unfold elementsOfValues at h
    split at h
    · cases ‹_ = _›
    · -- an operand
      rename_i heq
      cases heq
      split at h
      · rename_i hv
        cases h
        exact hfirst hv
      · split at h
        · rename_i hitems
          cases h
          exact hrest hitems
        · cases h
    · -- a connective
      rename_i heq
      cases heq
      split at h
      · rename_i hitems
        cases h
        exact hrest hitems
      · cases h
    · cases h
      exact ⟨_, rfl⟩

end

/-! ## Compiling -/

theorem aboutCriterion_of_compileLeaf {field operator : String} {value : Value} {e : Error}
    (h : compileLeaf field operator value = .error e) : e.AboutCriterion := by
  unfold compileLeaf Operator.ofToken at h
  dsimp only at h
  split at h
  · cases h
  · split at h
    · cases h
    · rename_i hop
      cases h
      split at hop
      · cases hop
      · cases hop
        exact .unknownOperator _

/-- A criterion that cannot be compiled names no operator, mixes connectives or has an empty
group. -/
theorem aboutCriterion_of_compile (c : Criterion) :
    ∀ {e : Error}, c.compile = .error e → e.AboutCriterion := by
  induction c using Criterion.induction with
  | leaf field operator value =>
    intro e h
    rw [compile] at h
    exact aboutCriterion_of_compileLeaf h
  | negation part ih =>
    intro e h
    rw [compile] at h
    split at h
    · cases h
    · rename_i hpart
      cases h
      exact ih hpart
  | group items ih =>
    intro e h
    obtain rfl | rfl | ⟨c, hc, herror⟩ := error_of_compile_group h
    · exact .mixedConnectives
    · exact .malformed _
    · exact ih c hc herror

end Criterion

/-- A written criterion that leads to no predicate is at fault itself. -/
theorem Predicate.aboutCriterion_of_ofCriteria {v : Value} {e : Error}
    (h : Predicate.ofCriteria v = .error e) : e.AboutCriterion := by
  unfold ofCriteria at h
  split at h
  · exact Criterion.aboutCriterion_of_compile _ h
  · rename_i hread
    cases h
    obtain ⟨fault, rfl⟩ := Criterion.malformed_of_ofValue v hread
    exact .malformed fault

end DataAccess
