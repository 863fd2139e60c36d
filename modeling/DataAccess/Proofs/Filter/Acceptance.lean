import DataAccess.Proofs.Filter.Faults
import DataAccess.Proofs.Filter.Meaning

/-!
# Which values are accepted as criteria

The grammar of criteria has a form for comparisons with two or three elements, one for negations
and one for groups. Whatever it derives is accepted. What is accepted beyond it are comparisons of
more than three elements: the elements after the third are not looked at. Nothing else in a value
is passed over, and what is not accepted is reported as malformed.

- `Criterion.Grammatical`: the grammar.
- `Criterion.heeded`: a value without the elements that are not looked at.
  `Criterion.ofValue_heeded` says that they make no difference.
- `Criterion.Grammatical.exists_ofValue`, `Criterion.Grammatical.heeded_eq`: what the grammar
  derives is accepted and heeded as a whole, by induction on the derivation.
- `Criterion.grammatical_of_ofValue`: what is accepted is grammatical as far as it is heeded, by
  recursion on the value together with the elements of its groups.
- `Criterion.ofValue_accepts_iff`: acceptance and the grammar compared.
- `Criterion.ofValue_ignores_rest`: a filter half of which is passed over.
-/

namespace DataAccess

namespace Criterion

/-! ## The grammar -/

/-- The tokens that stand for negation. -/
def IsNegationToken (token : String) : Prop :=
  token = "!" ∨ token.toList.map Char.toLower = ['n', 'o', 't']

/-- The values that the grammar of criteria derives. -/
inductive Grammatical : Value → Prop where
  /-- a field and a value; behind a negation token an array is never a value -/
  | equality {field : String} {value : Value}
      (h : ∀ inner, value = .array inner → ¬IsNegationToken field) :
      Grammatical (.array [.string field, value])
  /-- a field, an operator and a value -/
  | comparison (field operator : String) (value : Value) :
      Grammatical (.array [.string field, .string operator, value])
  /-- a negation token and a criterion -/
  | negation {token : String} {inner : List Value} (htoken : IsNegationToken token)
      (hinner : Grammatical (.array inner)) :
      Grammatical (.array [.string token, .array inner])
  /-- texts and criteria, with an array at the head -/
  | group {first rest : List Value}
      (hkinds : ∀ v ∈ Value.array first :: rest,
        (∃ token, v = .string token) ∨ ∃ inner, v = .array inner)
      (hoperands : ∀ inner, Value.array inner ∈ Value.array first :: rest →
        Grammatical (.array inner)) :
      Grammatical (.array (.array first :: rest))

/-- The elements of a group: texts, and arrays that are criteria themselves. -/
def GrammaticalElement (v : Value) : Prop :=
  (∃ token, v = .string token) ∨ ∃ inner, v = .array inner ∧ Grammatical (.array inner)

theorem isNegationToken_iff {token : String} : IsNegationToken token ↔ negates token = true :=
  negates_iff.symm

theorem Grammatical.of_elements {first rest : List Value}
    (h : ∀ v ∈ Value.array first :: rest, GrammaticalElement v) :
    Grammatical (.array (.array first :: rest)) := by
  refine .group (fun v hv => ?_) fun inner hinner => ?_
  · obtain htext | ⟨inner, harray, -⟩ := h v hv
    · exact .inl htext
    · exact .inr ⟨inner, harray⟩
  · obtain ⟨token, htoken⟩ | ⟨inner', hinner', hcriterion⟩ := h (.array inner) hinner
    · cases htoken
    · cases hinner'
      exact hcriterion

/-! ## What is looked at -/

mutual

/-- A value without the elements that are not looked at when it is read as a criterion: those of a
comparison after the third. -/
def heeded : Value → Value
  | .array [.string token, .array inner] =>
    if negates token then .array [.string token, heeded (.array inner)]
    else .array [.string token, .array inner]
  | .array (.array first :: rest) => .array (heeded (.array first) :: heededElements rest)
  | .array items => .array (items.take 3)
  | v => v

/-- The elements of a group without the elements in them that are not looked at. -/
def heededElements : List Value → List Value
  | [] => []
  | v :: rest => heeded v :: heededElements rest

end

/-- An array stays an array. -/
theorem exists_heeded_eq_array (items : List Value) :
    ∃ items', heeded (.array items) = .array items' := by
  unfold heeded
  split
  · split <;> exact ⟨_, rfl⟩
  · exact ⟨_, rfl⟩
  · exact ⟨_, rfl⟩
  · exact ⟨_, rfl⟩

/-- Only the first three elements are left of an array that has the shape neither of a negation nor
of a group. -/
theorem heeded_of_plain {items : List Value}
    (hpair : ∀ token inner, items = [.string token, .array inner] → False)
    (hgroup : ∀ first rest, items = .array first :: rest → False) :
    heeded (.array items) = .array (items.take 3) := by
  unfold heeded
  split
  · exact (hpair _ _ (Value.array.inj ‹_›)).elim
  · exact (hgroup _ _ (Value.array.inj ‹_›)).elim
  · cases ‹Value.array _ = _›
    rfl
  · rename_i hnot
    exact (hnot items rfl).elim

/-- Of an array that is no group no more than three elements are looked at. -/
theorem ofValue_take {items : List Value}
    (h : ∀ first rest, items = Value.array first :: rest → False) :
    ofValue (.array (items.take 3)) = ofValue (.array items) := by
  match items with
  | [] | [_] | [_, _] | [_, _, _] => rfl
  | field :: operator :: _ :: _ :: _ =>
    cases field with
    | array first => exact (h _ _ rfl).elim
    | _ => cases operator <;> rfl

mutual

/-- What is not looked at makes no difference to what is read, nor to what is wrong with it. -/
theorem ofValue_heeded : (v : Value) → ofValue (heeded v) = ofValue v
  | .array items => by
    unfold heeded
    split
    · -- a negation, or a comparison of a field with an array
      rename_i token inner heq
      cases heq
      split
      · rename_i hneg
        have hinner := ofValue_heeded (.array inner)
        obtain ⟨inner', harray⟩ := exists_heeded_eq_array inner
        rw [harray] at hinner ⊢
        unfold ofValue
        rw [if_pos hneg, if_pos hneg, hinner]
      · rfl
    · -- a group
      rename_i first rest heq
      cases heq
      have helements := elementsOfValues_heeded (.array first :: rest)
      obtain ⟨first', harray⟩ := exists_heeded_eq_array first
      unfold heededElements at helements
      rw [harray] at helements ⊢
      unfold ofValue
      rw [helements]
    · rename_i heq
      cases heq
      exact ofValue_take ‹_›
    · rfl
  | .null | .bool _ | .number _ | .string _ | .object _ => rfl

/-- Neither does it make a difference to the elements of a group. -/
theorem elementsOfValues_heeded : (vs : List Value) →
    elementsOfValues (heededElements vs) = elementsOfValues vs
  | [] => rfl
  | .array inner :: rest => by
    have hinner := ofValue_heeded (.array inner)
    have hrest := elementsOfValues_heeded rest
    obtain ⟨inner', harray⟩ := exists_heeded_eq_array inner
    unfold heededElements
    rw [harray] at hinner ⊢
    unfold elementsOfValues
    rw [hinner, hrest]
  | .string token :: rest => by
    show elementsOfValues (.string token :: heededElements rest) = _
    unfold elementsOfValues
    rw [elementsOfValues_heeded rest]
  | .null :: _ | .bool _ :: _ | .number _ :: _ | .object _ :: _ => rfl

end

/-! ## What the grammar derives -/

/-- Texts and criteria are the elements of a group. -/
theorem exists_elementsOfValues {vs : List Value}
    (hkinds : ∀ v ∈ vs, (∃ token, v = .string token) ∨ ∃ inner, v = .array inner)
    (hoperands : ∀ inner, Value.array inner ∈ vs → ∃ c, ofValue (.array inner) = .ok c) :
    ∃ items, elementsOfValues vs = .ok items := by
  induction vs with
  | nil => exact ⟨[], rfl⟩
  | cons v rest ih =>
    obtain ⟨items, hitems⟩ := ih (fun v hv => hkinds v (List.mem_cons_of_mem _ hv))
      fun inner hinner => hoperands inner (List.mem_cons_of_mem _ hinner)
    obtain ⟨token, rfl⟩ | ⟨inner, rfl⟩ := hkinds v List.mem_cons_self
    · refine ⟨.connective (Connective.ofToken token) :: items, ?_⟩
      unfold elementsOfValues
      rw [hitems]
    · obtain ⟨c, hc⟩ := hoperands inner List.mem_cons_self
      refine ⟨.operand c :: items, ?_⟩
      unfold elementsOfValues
      rw [hc, hitems]

/-- What the grammar derives is accepted. -/
theorem Grammatical.exists_ofValue {v : Value} (h : Grammatical v) :
    ∃ c, ofValue v = .ok c := by
  induction h with
  | @equality field value hvalue =>
    refine ⟨.leaf field "=" value, ?_⟩
    cases value with
    | array inner =>
      unfold ofValue
      rw [if_neg (mt isNegationToken_iff.2 (hvalue inner rfl))]
      rfl
    | _ => rfl
  | comparison field operator value => exact ⟨.leaf field operator value, rfl⟩
  | negation htoken _ ih =>
    obtain ⟨c, hc⟩ := ih
    refine ⟨.negation c, ?_⟩
    unfold ofValue
    rw [if_pos (isNegationToken_iff.1 htoken), hc]
  | group hkinds _ ih =>
    obtain ⟨items, hitems⟩ := exists_elementsOfValues hkinds ih
    refine ⟨.group items, ?_⟩
    unfold ofValue
    rw [hitems]

theorem heededElements_eq_self {vs : List Value} (h : ∀ v ∈ vs, heeded v = v) :
    heededElements vs = vs := by
  induction vs with
  | nil => rfl
  | cons v rest ih =>
    obtain ⟨hv, hrest⟩ := List.forall_mem_cons.1 h
    unfold heededElements
    rw [hv, ih hrest]

/-- In what the grammar derives there is nothing that is not looked at. -/
theorem Grammatical.heeded_eq {v : Value} (h : Grammatical v) : heeded v = v := by
  induction h with
  | @equality field value hvalue =>
    cases value with
    | array inner =>
      unfold heeded
      rw [if_neg (mt isNegationToken_iff.2 (hvalue inner rfl))]
    | _ => rfl
  | comparison field operator value => rfl
  | negation htoken _ ih =>
    unfold heeded
    rw [if_pos (isNegationToken_iff.1 htoken), ih]
  | @group first rest hkinds _ ih =>
    have helements : heededElements (.array first :: rest) = .array first :: rest := by
      refine heededElements_eq_self fun v hv => ?_
      obtain ⟨token, rfl⟩ | ⟨inner, rfl⟩ := hkinds v hv
      · rfl
      · exact ih inner hv
    unfold heeded
    exact congrArg Value.array helements

/-! ## What is accepted -/

theorem grammatical_of_leafOfItems {items : List Value} {c : Criterion}
    (hpair : ∀ token inner, items = [.string token, .array inner] → False)
    (h : leafOfItems items = .ok c) : Grammatical (.array (items.take 3)) := by
  unfold leafOfItems at h
  split at h
  · cases h
  · cases h
  · rename_i field value
    refine .equality fun inner hinner => ?_
    rw [hinner] at hpair
    exact (hpair field inner rfl).elim
  · exact .comparison _ _ _
  · cases h
  · cases h

mutual

/-- A value that is accepted is grammatical as far as it is looked at. -/
theorem grammatical_of_ofValue : (v : Value) → {c : Criterion} → ofValue v = .ok c →
    Grammatical (heeded v)
  | .array items => by
    intro h
    have helements : ∀ {cs}, elementsOfValues items = .ok cs →
        ∀ v ∈ heededElements items, GrammaticalElement v := grammatical_of_elements items
    unfold ofValue at h
    split at h
    · -- a negation, or a comparison of a field with an array
      rename_i token inner heq
      cases heq
      unfold heeded
      split at h
      · rename_i hneg
        rw [if_pos hneg]
        split at h
        · rename_i part hpart
          have hinner := grammatical_of_ofValue (.array inner) hpart
          obtain ⟨inner', harray⟩ := exists_heeded_eq_array inner
          rw [harray] at hinner ⊢
          exact .negation (isNegationToken_iff.2 hneg) hinner
        · cases h
      · rename_i hneg
        rw [if_neg hneg]
        exact .equality fun _ _ => mt isNegationToken_iff.1 hneg
    · -- a group
      rename_i first rest heq
      cases heq
      split at h
      · rename_i cs hcs
        obtain ⟨first', harray⟩ := exists_heeded_eq_array first
        have hall := helements hcs
        unfold heededElements at hall
        unfold heeded
        rw [harray] at hall ⊢
        exact .of_elements hall
      · cases h
    · -- any other comparison
      rename_i hpair hgroup heq
      cases heq
      rw [heeded_of_plain hpair hgroup]
      exact grammatical_of_leafOfItems hpair h
    · cases h
  | .null | .bool _ | .number _ | .string _ | .object _ => by
    intro h
    cases h

/-- So are the elements of a group. -/
theorem grammatical_of_elements : (vs : List Value) → {cs : List (GroupElement Criterion)} →
    elementsOfValues vs = .ok cs → ∀ v ∈ heededElements vs, GrammaticalElement v
  | [] => fun _ _ hv => nomatch hv
  | v :: rest => by
    intro h
    have hfirst : ∀ {c}, ofValue v = .ok c → Grammatical (heeded v) := grammatical_of_ofValue v
    have hrest : ∀ {cs}, elementsOfValues rest = .ok cs →
        ∀ v ∈ heededElements rest, GrammaticalElement v := grammatical_of_elements rest
    unfold heededElements
    unfold elementsOfValues at h
    split at h
    · rename_i heq
      cases heq
    · -- an operand
      rename_i inner more heq
      cases heq
      split at h
      · cases h
      · rename_i c hc
        split at h
        · cases h
        · rename_i items hitems
          have hinner := hfirst hc
          obtain ⟨inner', harray⟩ := exists_heeded_eq_array inner
          rw [harray] at hinner ⊢
          exact List.forall_mem_cons.2 ⟨.inr ⟨inner', rfl, hinner⟩, hrest hitems⟩
    · -- a connective
      rename_i token more heq
      cases heq
      split at h
      · cases h
      · rename_i items hitems
        exact List.forall_mem_cons.2 ⟨.inl ⟨token, rfl⟩, hrest hitems⟩
    · cases h

end

/-- **What is accepted, and what the grammar derives.** A value is accepted as a criterion exactly
if the grammar derives the part of it that is looked at. The grammar derives it as it stands
exactly if it is accepted and looked at as a whole, that is, if no comparison in it has more than
three elements. What is not accepted is reported as malformed. -/
theorem ofValue_accepts_iff (v : Value) :
    ((∃ c, ofValue v = .ok c) ↔ Grammatical (heeded v)) ∧
      (Grammatical v ↔ (∃ c, ofValue v = .ok c) ∧ heeded v = v) ∧
      ((∃ c, ofValue v = .ok c) ∨ ∃ fault, ofValue v = .error (.malformed fault)) := by
  refine ⟨⟨?_, fun h => ?_⟩, ⟨fun h => ⟨h.exists_ofValue, h.heeded_eq⟩, ?_⟩, ?_⟩
  · rintro ⟨c, hc⟩
    exact grammatical_of_ofValue v hc
  · rw [← ofValue_heeded v]
    exact h.exists_ofValue
  · rintro ⟨⟨c, hc⟩, hwhole⟩
    rw [← hwhole]
    exact grammatical_of_ofValue v hc
  · cases h : ofValue v with
    | ok c => exact .inl ⟨c, rfl⟩
    | error e =>
      obtain ⟨fault, rfl⟩ := malformed_of_ofValue v h
      exact .inr ⟨fault, rfl⟩

/-- Two comparisons that were not put into arrays of their own. The value is no criterion, and yet
it is accepted: as the first comparison alone, so that the second one restricts nothing. -/
theorem ofValue_ignores_rest :
    let v : Value :=
      .array [.string "city", .string "=", .string "Oslo", .string "and",
        .array [.string "age", .string ">", .nat 30]]
    ¬Grammatical v ∧ ofValue v = .ok (.leaf "city" "=" (.string "Oslo")) ∧
      Predicate.ofCriteria v = .ok (.comparison "city" .eq (.string "Oslo")) := by
  refine ⟨fun h => ?_, rfl, rfl⟩
  cases h

end Criterion

end DataAccess
