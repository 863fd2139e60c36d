import DataAccess.Filter.Criterion.Grammar
import DataAccess.Proofs.Filter.Comparisons
import DataAccess.Proofs.Filter.Group

/-!
# What criteria mean

A criterion in the array grammar can be read as a statement about a record without a detour: an
array is a comparison, a negation or a group, as its first elements show. The predicate that the
criterion compiles to says the same.

- `Criterion.leafTruth?`, `Criterion.joinTruths`: what comparisons say, and what the parts of a
  group say together.
- `Criterion.truth?`: what a criterion says about a record, read from the arrays.
- `Criterion.truth?_of_ofValue`: the reading agrees with the predicate, by induction on the arrays.
- `Criterion.truth?_eq_holds`: the two together.
-/

namespace DataAccess

namespace GroupElement

/-- The connectives between neighbouring operands, from left to right. -/
def joints {α : Type} (items : List (GroupElement α)) : List Connective :=
  ((parts items).map Prod.snd).dropLast.map settle

end GroupElement

namespace Criterion

open GroupElement (parts leading settle joints)

/-! ## Reading the arrays -/

/-- What a comparison says about a record. One of two elements tests for equality, and elements
after the third are not looked at. -/
def leafTruth? (record : Value) : List Value → Option Bool
  | [.string field, value] => some (equal (valueAt record field) value)
  | .string field :: .string token :: value :: _ =>
    (comparison? token).map fun related => related (valueAt record field) value
  | _ => none

/-- An element of a group: a text is a connective. -/
def element : Value → GroupElement Value
  | .string token => .connective (if conjoins token then .and else .or)
  | v => .operand v

/-- What several statements say together: a single one what it says, and more of them that all
hold or that one holds, as the connectives between them are. -/
def joinTruths (ks : List Connective) : List Bool → Option Bool
  | [] => none
  | [truth] => some truth
  | truths =>
    if ∀ k ∈ ks, k = .and then some (truths.all id)
    else if ∀ k ∈ ks, k = .or then some (truths.any id)
    else none

mutual

/-- What a criterion says about a record. -/
def truth? (record : Value) : Value → Option Bool
  | .array [.string token, .array inner] =>
    if token = "!" ∨ token.toList.map Char.toLower = ['n', 'o', 't'] then
      (truth? record (.array inner)).map (!·)
    else leafTruth? record [.string token, .array inner]
  | .array (.array first :: rest) =>
    (truths? record (.array first :: rest)).bind
      (joinTruths (joints ((.array first :: rest).map element)))
  | .array items => leafTruth? record items
  | _ => none

/-- What the criteria in a group say about a record. -/
def truths? (record : Value) : List Value → Option (List Bool)
  | [] => some []
  | .array inner :: rest =>
    match truth? record (.array inner), truths? record rest with
    | some truth, some truths => some (truth :: truths)
    | _, _ => none
  | .string _ :: rest => truths? record rest
  | _ :: _ => none

end

/-! ## Comparisons -/

theorem leafTruth?_of_leafOfItems {items : List Value} {c : Criterion} {p : Predicate}
    (hc : leafOfItems items = .ok c) (hp : c.compile = .ok p) (record : Value) :
    leafTruth? record items = some (p.holds record) := by
  unfold leafOfItems at hc
  split at hc
  · cases hc
  · cases hc
  · cases hc
    obtain ⟨related, hrelated, hholds⟩ := comparison?_of_compileLeaf hp
    -- two elements stand for three, with the sign of equality between them
    have hequal : comparison? "=" = some equal := rfl
    rw [hequal] at hrelated
    cases hrelated
    exact congrArg some (hholds record).symm
  · cases hc
    obtain ⟨related, hrelated, hholds⟩ := comparison?_of_compileLeaf hp
    unfold leafTruth?
    split
    · rename_i hitems
      cases hitems
    · rename_i hitems
      cases hitems
      rw [hrelated, hholds record]
      rfl
    · rename_i hno
      exact absurd rfl (hno _ _ _ _)
  · cases hc
  · cases hc

/-! ## Groups -/

/-- The criteria and the connectives of a group come from the elements in the same order. -/
theorem parts_of_elements {vs : List Value} {items : List (GroupElement Criterion)}
    (h : elementsOfValues vs = .ok items) :
    leading items = leading (vs.map element) ∧
      (parts items).map Prod.snd = (parts (vs.map element)).map Prod.snd := by
  induction vs generalizing items with
  | nil =>
    cases h
    exact ⟨rfl, rfl⟩
  | cons v rest ih =>
    cases v with
    | array inner =>
      unfold elementsOfValues at h
      split at h
      · cases h
      · split at h
        · cases h
        · rename_i c hc more hmore
          cases h
          obtain ⟨hleading, hparts⟩ := ih hmore
          constructor
          · rfl
          show leading more :: (parts more).map Prod.snd =
            leading (rest.map element) :: (parts (rest.map element)).map Prod.snd
          rw [hleading, hparts]
    | string token =>
      unfold elementsOfValues at h
      split at h
      · cases h
      · rename_i more hmore
        cases h
        obtain ⟨hleading, hparts⟩ := ih hmore
        refine ⟨?_, hparts⟩
        -- the connective stands before the first criterion of the rest
        show Connective.ofToken token :: leading more =
          (if conjoins token then .and else .or) :: leading (rest.map element)
        rw [hleading, ofToken_eq]
    | _ => cases h

theorem joints_of_elements {vs : List Value} {items : List (GroupElement Criterion)}
    (h : elementsOfValues vs = .ok items) : joints items = joints (vs.map element) := by
  unfold joints
  rw [(parts_of_elements h).2]

/-- The connectives between neighbours are those that join each operand to its left. -/
theorem eq_joint_of_mem_joints {items : List (GroupElement Criterion)} {k : Connective}
    (h : k ∈ joints items) :
    ∃ i, 1 ≤ i ∧ i < (operands items).length ∧ k = joint items i := by
  obtain ⟨ks, hks, rfl⟩ := List.mem_map.1 h
  obtain ⟨i, hi, hget⟩ := List.mem_iff_getElem.1 hks
  rw [List.length_dropLast, List.length_map] at hi
  rw [List.getElem_dropLast, List.getElem_map] at hget
  refine ⟨i + 1, by omega, ?_, ?_⟩
  · rw [operands, List.length_map]
    omega
  · unfold joint
    rw [Nat.add_sub_cancel, List.getElem?_eq_getElem (by omega), ← hget]

theorem joints_ne_nil {items : List (GroupElement Criterion)}
    (h : 2 ≤ (operands items).length) : joints items ≠ [] := by
  intro hnil
  have hlength := congrArg List.length hnil
  rw [operands, List.length_map] at h
  rw [joints, List.length_map, List.length_dropLast, List.length_map, List.length_nil] at hlength
  omega

/-- Statements joined by `and` throughout say that all of them hold. -/
theorem joinTruths_and {ks : List Connective} {truths : List Bool} (hks : ∀ k ∈ ks, k = .and)
    (hlength : 2 ≤ truths.length) : joinTruths ks truths = some (truths.all id) := by
  match truths, hlength with
  | first :: second :: rest, _ =>
    show (if _ then _ else _) = _
    rw [if_pos hks]

/-- Statements joined by `or` throughout say that one of them holds. -/
theorem joinTruths_or {ks : List Connective} {truths : List Bool} (hks : ∀ k ∈ ks, k = .or)
    (hne : ks ≠ []) (hlength : 2 ≤ truths.length) :
    joinTruths ks truths = some (truths.any id) := by
  have hnot : ¬∀ k ∈ ks, k = .and := by
    intro hand
    obtain ⟨k, hk⟩ := List.exists_mem_of_ne_nil ks hne
    have hor := hks k hk
    rw [hand k hk] at hor
    cases hor
  match truths, hlength with
  | first :: second :: rest, _ =>
    show (if _ then _ else if _ then _ else _) = _
    rw [if_neg hnot, if_pos hks]

/-- A group that compiles says what its criteria say together. -/
theorem joinTruths_of_compile {items : List (GroupElement Criterion)} {p : Predicate}
    (h : (group items).compile = .ok p) (record : Value) :
    ∃ ps : List Predicate, (operands items).map compile = ps.map .ok ∧
      joinTruths (joints items) (ps.map fun q => q.holds record) = some (p.holds record) := by
  obtain ⟨ps, hps, hjoin, hjoints⟩ := exists_of_compile_group h
  refine ⟨ps, hps, ?_⟩
  have hlength : (operands items).length = ps.length := by
    have hlengths := congrArg List.length hps
    rwa [List.length_map, List.length_map] at hlengths
  match ps, hjoin, hlength with
  | [], hjoin, _ => cases hjoin
  | [q], hjoin, _ =>
    cases hjoin
    rfl
  | q :: r :: rest, hjoin, hlength =>
    have htwo : 2 ≤ (operands items).length := by
      rw [hlength]
      simp
    have hks : ∀ k ∈ joints items, k = joint items 1 := by
      intro k hk
      obtain ⟨i, hi, hlt, hki⟩ := eq_joint_of_mem_joints hk
      exact hki.trans (hjoints i hi hlt)
    unfold joinParts at hjoin
    cases hjoin
    cases hk : joint items 1 with
    | and =>
      rw [hk] at hks
      rw [joinTruths_and hks (by simp), List.all_map]
      exact congrArg some (Predicate.holds_all _ record).symm
    | or =>
      rw [hk] at hks
      rw [joinTruths_or hks (joints_ne_nil htwo) (by simp), List.any_map]
      exact congrArg some (Predicate.holds_any _ record).symm

/-! ## All criteria -/

theorem negates_iff {token : String} :
    negates token = true ↔
      token = "!" ∨ token.toList.map Char.toLower = ['n', 'o', 't'] := by
  have hnot : "not".toList.map Char.toLower = ['n', 'o', 't'] := by decide
  unfold negates Text.sameBasic
  rw [Bool.or_eq_true, decide_eq_true_iff, beq_iff_eq, hnot]

/-- An array is a negation or a comparison that looks like one, a group, or another comparison. -/
theorem array_cases (record : Value) (items : List Value) :
    (∃ token inner, items = [.string token, .array inner]) ∨
      (∃ first rest, items = .array first :: rest) ∨
      ofValue (.array items) = leafOfItems items ∧
        truth? record (.array items) = leafTruth? record items := by
  match items with
  | [] => exact .inr (.inr ⟨rfl, rfl⟩)
  | .array first :: rest => exact .inr (.inl ⟨first, rest, rfl⟩)
  | [.string token, .array inner] => exact .inl ⟨token, inner, rfl⟩
  | .null :: _ | .bool _ :: _ | .number _ :: _ | .object _ :: _ =>
    exact .inr (.inr ⟨rfl, rfl⟩)
  | [.string _] => exact .inr (.inr ⟨rfl, rfl⟩)
  | [.string _, .null] | [.string _, .bool _] | [.string _, .number _] | [.string _, .string _]
  | [.string _, .object _] => exact .inr (.inr ⟨rfl, rfl⟩)
  | .string _ :: v :: _ :: _ =>
    refine .inr (.inr ?_)
    cases v <;> exact ⟨rfl, rfl⟩

mutual

/-- What a criterion says is what its predicate says. -/
theorem truth?_of_ofValue (record : Value) : (v : Value) → {c : Criterion} → {p : Predicate} →
    ofValue v = .ok c → c.compile = .ok p → truth? record v = some (p.holds record)
  | .array items, c, p, hc, hp => by
    rcases array_cases record items with ⟨token, inner, rfl⟩ | ⟨first, rest, rfl⟩ | ⟨hof, htruth⟩
    · -- a token and an array: a negation, or a comparison with the array
      unfold ofValue at hc
      unfold truth?
      by_cases hneg : negates token = true
      · rw [if_pos hneg] at hc
        rw [if_pos (negates_iff.1 hneg)]
        split at hc
        · rename_i part hpart
          cases hc
          unfold compile at hp
          split at hp
          · rename_i q hq
            cases hp
            rw [truth?_of_ofValue record (.array inner) hpart hq]
            rfl
          · cases hp
        · cases hc
      · rw [if_neg hneg] at hc
        rw [if_neg (mt negates_iff.2 hneg)]
        exact leafTruth?_of_leafOfItems hc hp record
    · -- a group: its criteria agree one by one, and its connectives are those of the array
      unfold ofValue at hc
      unfold truth?
      split at hc
      · rename_i parts hparts
        cases hc
        obtain ⟨ps, hps, hjoin⟩ := joinTruths_of_compile hp record
        rw [truths?_of_elements record (.array first :: rest) hparts hps, Option.bind_some,
          ← joints_of_elements hparts]
        exact hjoin
      · cases hc
    · -- any other comparison
      rw [hof] at hc
      rw [htruth]
      exact leafTruth?_of_leafOfItems hc hp record
  | .null, _, _, hc, _ | .bool _, _, _, hc, _ | .number _, _, _, hc, _ | .string _, _, _, hc, _
  | .object _, _, _, hc, _ => nomatch hc
termination_by v => sizeOf v

/-- What the criteria of a group say is what their predicates say. -/
theorem truths?_of_elements (record : Value) : (vs : List Value) →
    {items : List (GroupElement Criterion)} → {ps : List Predicate} →
    elementsOfValues vs = .ok items → (operands items).map compile = ps.map .ok →
    truths? record vs = some (ps.map fun p => p.holds record)
  | [], _, ps, h, hps => by
    cases h
    cases ps with
    | nil => rfl
    | cons p ps => cases hps
  | .array inner :: rest, _, ps, h, hps => by
    unfold elementsOfValues at h
    split at h
    · cases h
    rename_i c hc
    split at h
    · cases h
    rename_i more hmore
    cases h
    have hps : c.compile :: (operands more).map compile = ps.map .ok := hps
    cases ps with
    | nil => cases hps
    | cons p ps =>
      obtain ⟨hp, hps⟩ := List.cons.inj hps
      unfold truths?
      rw [truth?_of_ofValue record (.array inner) hc hp, truths?_of_elements record rest hmore hps]
      rfl
  | .string _ :: rest, _, ps, h, hps => by
    unfold elementsOfValues at h
    split at h
    · cases h
    rename_i more hmore
    cases h
    exact truths?_of_elements record rest hmore hps
  | .null :: _, _, _, h, _ | .bool _ :: _, _, _, h, _ | .number _ :: _, _, _, h, _
  | .object _ :: _, _, _, h, _ => nomatch h
termination_by vs => sizeOf vs

end

/-- **What a criterion means is preserved.** If a criterion compiles, its predicate holds of a
record exactly if the criterion, read from its arrays, says so of the record. -/
theorem truth?_eq_holds {v : Value} {p : Predicate} (h : Predicate.ofCriteria v = .ok p)
    (record : Value) : truth? record v = some (p.holds record) := by
  unfold Predicate.ofCriteria at h
  split at h
  · rename_i c hc
    exact truth?_of_ofValue record v hc h
  · cases h

/-- Guests of age, or with a guardian that is addressed in a certain way, whose city has a certain
text in its name and who came more than once but less than five times. Operators and connectives are
in mixed case, and two criteria have no connective between them. -/
def nestedCriterion : Value :=
  .array
    [.array [.array [.string "age", .string ">=", .nat 18], .string "OR",
        .array [.string "guardian.name", .string "StartsWith", .string "Mrs"]],
      .string "and",
      .array [.string "NOT", .array [.string "city", .string "NotContains", .string "slo"]],
      .array [.string "visits", .string ">", .nat 1],
      .string "And",
      .array [.string "visits", .string "<", .nat 5]]

/-- The predicate of `nestedCriterion`. -/
def nestedPredicate : Predicate :=
  .all
    [.any
        [.comparison "age" .ge (.nat 18),
          .comparison "guardian.name" .startsWith (.string "Mrs")],
      .negation (.negation (.comparison "city" .contains (.string "slo"))),
      .comparison "visits" .gt (.nat 1), .comparison "visits" .lt (.nat 5)]

/-- A guest came three times, with a guardian and without one, and then a fifth time. -/
theorem truth?_eq_holds_nested :
    let guest (guardian : String) (visits : Nat) : Value :=
      .object
        [("age", .nat 17), ("city", .string "Oslo"),
          ("guardian", .object [("name", .string guardian)]), ("visits", .nat visits)]
    let both (record : Value) : Option Bool × Bool :=
      (truth? record nestedCriterion, nestedPredicate.holds record)
    Predicate.ofCriteria nestedCriterion = .ok nestedPredicate ∧
      both (guest "Mrs Lee" 3) = (some true, true) ∧ both (guest "" 3) = (some false, false) ∧
      both (guest "Mrs Lee" 5) = (some false, false) := by
  intro guest both
  have hcompile : Predicate.ofCriteria nestedCriterion = .ok nestedPredicate := by rfl
  have hboth {record : Value} {truth : Bool} (h : nestedPredicate.holds record = truth) :
      both record = (some truth, truth) := by
    subst h
    exact congrArg (Prod.mk · _) (truth?_eq_holds hcompile record)
  exact ⟨hcompile, hboth (by decide +kernel), hboth (by decide +kernel), hboth (by decide +kernel)⟩

end Criterion

end DataAccess
