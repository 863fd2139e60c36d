import DataAccess.Proofs.Filter.Group
import DataAccess.Proofs.Filter.Reading
import DataAccess.Proofs.Filter.Writing

/-!
# Groups of at least two parts

Predicates can be built whose groups have one part or none. Criteria can be written like that too,
but a group of one operand means what its operand means, and a group without operands means
nothing. So no such group is left when a criterion is compiled, and every predicate without one is
what some criterion means. In its text every pair of parentheses has something in it, and those
around the parts of a group stand beside others.

- `Predicate.groups`, `Predicate.IsBranching`: the groups inside a predicate, and the predicates in
  which each of them has at least two parts.
- `Predicate.IsBranching.and`: conjunction makes no smaller groups, but may keep one.
- `Criterion.isBranching_of_compile`: criteria compile to such predicates.
- `Predicate.toCriterion`, `Predicate.compile_toCriterion`, `Predicate.ofCriteria_toCriterion`: each
  such predicate is what some criterion means, also a criterion that is written as an array.
- `Predicate.FilterText`, `Predicate.filterText_iff`: the texts of such predicates.
-/

namespace DataAccess

namespace Predicate

mutual

/-- The groups inside a predicate, the predicate itself included, each as the list of its parts. -/
def groups : Predicate → List (List Predicate)
  | comparison _ _ _ => []
  | all parts | any parts => parts :: groupsOfParts parts
  | negation part => part.groups

/-- The groups inside the predicates of a list. -/
def groupsOfParts : List Predicate → List (List Predicate)
  | [] => []
  | part :: rest => part.groups ++ groupsOfParts rest

end

/-- Every group inside a predicate, at any depth, has at least two parts. -/
def IsBranching (p : Predicate) : Prop := ∀ parts ∈ p.groups, 2 ≤ parts.length

instance : DecidablePred IsBranching := fun p =>
  inferInstanceAs (Decidable (∀ parts ∈ p.groups, 2 ≤ parts.length))

variable {k : Connective} {p q : Predicate} {parts : List Predicate} {dialect : Dialect}

/-! ## Groups inside a predicate -/

theorem groupsOfParts_eq (parts : List Predicate) : groupsOfParts parts = parts.flatMap groups := by
  induction parts with
  | nil => rfl
  | cons part rest ih => rw [groupsOfParts, ih, List.flatMap_cons]

theorem groups_group (k : Connective) (parts : List Predicate) :
    (group k parts).groups = parts :: parts.flatMap groups := by
  rw [← groupsOfParts_eq]
  cases k <;> rfl

@[simp] theorem isBranching_comparison (field : String) (op : Operator) (value : Value) :
    (comparison field op value).IsBranching := by
  intro parts hparts
  cases hparts

@[simp] theorem isBranching_negation : (negation p).IsBranching ↔ p.IsBranching := Iff.rfl

@[simp] theorem isBranching_group :
    (group k parts).IsBranching ↔ 2 ≤ parts.length ∧ ∀ part ∈ parts, part.IsBranching := by
  unfold IsBranching
  rw [groups_group, List.forall_mem_cons, List.forall_mem_flatMap]

/-- Conjunction makes no group of fewer than two parts. -/
theorem IsBranching.and (hp : p.IsBranching) (hq : q.IsBranching) : (p.and q).IsBranching := by
  have hpair : (group .and [p, q]).IsBranching :=
    isBranching_group.2 ⟨Nat.le_refl 2, by simp [hp, hq]⟩
  cases p with
  | all parts =>
    -- the further part stands beside those that are there
    obtain ⟨htwo, hparts⟩ := isBranching_group (k := .and).1 hp
    refine isBranching_group (k := .and).2 ⟨?_, ?_⟩
    · rw [List.length_append]
      exact Nat.le_add_right_of_le htwo
    · intro part hpart
      rcases List.mem_append.1 hpart with hpart | hpart
      · exact hparts part hpart
      · rwa [List.mem_singleton.1 hpart]
  | comparison field op value => exact hpair
  | any parts => exact hpair
  | negation part => exact hpair

/-- A conjunction without parts that is there from the start becomes one of one part. -/
example : ¬ ((all []).and (comparison "paid" .eq (.bool true))).IsBranching := by decide

/-- Induction over the predicates whose groups have at least two parts; the two kinds of group are
one case. -/
@[elab_as_elim]
theorem IsBranching.induction {motive : (p : Predicate) → p.IsBranching → Prop}
    (comparison : ∀ field op value,
      motive (.comparison field op value) (isBranching_comparison field op value))
    (negation : ∀ part (h : part.IsBranching), motive part h →
      motive (.negation part) (isBranching_negation.2 h))
    (group : ∀ k parts (htwo : 2 ≤ parts.length) (hparts : ∀ part ∈ parts, part.IsBranching),
      (∀ part (hpart : part ∈ parts), motive part (hparts part hpart)) →
      motive (.group k parts) (isBranching_group.2 ⟨htwo, hparts⟩)) :
    {p : Predicate} → (hp : p.IsBranching) → motive p hp
  | .comparison field op value, _ => comparison field op value
  | .negation part, hp =>
    have hpart : part.IsBranching := hp
    negation part hpart (IsBranching.induction comparison negation group hpart)
  | .all parts, hp =>
    have hboth := isBranching_group (k := .and).1 hp
    group .and parts hboth.1 hboth.2 fun part hpart =>
      IsBranching.induction comparison negation group (hboth.2 part hpart)
  | .any parts, hp =>
    have hboth := isBranching_group (k := .or).1 hp
    group .or parts hboth.1 hboth.2 fun part hpart =>
      IsBranching.induction comparison negation group (hboth.2 part hpart)

end Predicate

/-! ## What criteria compile to -/

namespace Criterion

variable {p : Predicate}

theorem isBranching_of_compileLeaf {field operator : String} {value : Value}
    (h : compileLeaf field operator value = .ok p) : p.IsBranching := by
  unfold compileLeaf at h
  dsimp only at h
  split at h
  · cases h
    exact Predicate.isBranching_negation.2 (Predicate.isBranching_comparison _ _ _)
  · split at h
    · cases h
      exact Predicate.isBranching_comparison _ _ _
    · cases h

/-- Parts are joined to a group only where there are two of them. -/
theorem isBranching_of_joinParts {k : Connective} {ps : List Predicate}
    (hps : ∀ q ∈ ps, q.IsBranching) (h : joinParts k ps = .ok p) : p.IsBranching := by
  match ps, hps, h with
  | [q], hps, h =>
    cases h
    exact hps p List.mem_cons_self
  | q :: r :: rest, hps, h =>
    cases h
    exact Predicate.isBranching_group.2 ⟨Nat.le_add_left 2 rest.length, hps⟩

/-- **Criteria compile to predicates whose groups have at least two parts.** -/
theorem isBranching_of_compile (c : Criterion) : ∀ {p}, c.compile = .ok p → p.IsBranching := by
  induction c using Criterion.induction with
  | leaf field operator value =>
    intro p h
    exact isBranching_of_compileLeaf (by rwa [compile] at h)
  | negation part ih =>
    intro p h
    rw [compile] at h
    split at h
    · rename_i q hq
      cases h
      exact Predicate.isBranching_negation.2 (ih hq)
    · cases h
  | group items ih =>
    intro p h
    obtain ⟨ps, hps, hjoin, -⟩ := exists_of_compile_group h
    refine isBranching_of_joinParts (fun q hq => ?_) hjoin
    -- each part is what some operand compiles to
    have hmem : Except.ok q ∈ (operands items).map compile := by
      rw [hps]
      exact List.mem_map_of_mem hq
    obtain ⟨c, hc, hcompile⟩ := List.mem_map.1 hmem
    exact ih c hc hcompile

end Criterion

namespace Predicate

/-! ## The criterion of a predicate -/

mutual

/-- A criterion that means a predicate. -/
def toCriterion : Predicate → Criterion
  | comparison field op value => .leaf field op.name value
  | all parts => .group (joined .and parts)
  | any parts => .group (joined .or parts)
  | negation part => .negation part.toCriterion

/-- Predicates as the operands of a group, with the connective after each of them. After the last
one it stands for nothing. -/
def joined (k : Connective) : List Predicate → List (GroupElement Criterion)
  | [] => []
  | part :: rest => .operand part.toCriterion :: .connective k :: joined k rest

end

variable {k : Connective} {p : Predicate} {parts : List Predicate} {dialect : Dialect}

theorem toCriterion_group (k : Connective) (parts : List Predicate) :
    (group k parts).toCriterion = .group (joined k parts) := by
  cases k <;> rfl

theorem parts_joined (k : Connective) (parts : List Predicate) :
    GroupElement.parts (joined k parts) = parts.map fun part => (part.toCriterion, [k]) := by
  induction parts with
  | nil => rfl
  | cons part rest ih =>
    have hleading : GroupElement.leading (joined k rest) = [] := by
      cases rest <;> rfl
    simp [joined, GroupElement.parts, GroupElement.leading, hleading, ih]

theorem operands_joined (k : Connective) (parts : List Predicate) :
    Criterion.operands (joined k parts) = parts.map toCriterion := by
  unfold Criterion.operands
  rw [parts_joined, List.map_map]
  rfl

theorem joint_joined {i : Nat} (hi : i < parts.length) :
    Criterion.joint (joined k parts) (i + 1) = k := by
  unfold Criterion.joint
  rw [parts_joined, Nat.add_sub_cancel, List.getElem?_map, List.getElem?_eq_getElem hi]
  rfl

/-- A comparison is written with the name of its operator. -/
theorem compileLeaf_name (field : String) (op : Operator) (value : Value) :
    Criterion.compileLeaf field op.name value = .ok (.comparison field op value) := by
  have hlower : Text.lowercase op.name.toList = op.name.toList ∧
      op.name.toList ≠ "notcontains".toList ∧ Criterion.operatorToken op.name.toList = op.name := by
    cases op <;> decide +kernel
  obtain ⟨hlower, hne, htoken⟩ := hlower
  unfold Criterion.compileLeaf
  rw [hlower]
  dsimp only
  rw [if_neg hne, htoken, Operator.ofToken_name]

/-- Nothing is wrong with operands that all compile and are joined by one connective. -/
theorem firstFailure?_joined (h : ∀ part ∈ parts, part.toCriterion.compile = .ok part) :
    Criterion.firstFailure? (joined k parts) = none := by
  unfold Criterion.firstFailure?
  rw [operands_joined, List.findSome?_eq_none_iff]
  rintro ⟨c, i⟩ hmem
  obtain ⟨part, hpart, rfl⟩ := List.mem_map.1 (List.fst_mem_of_mem_zipIdx hmem)
  have hi : i < parts.length := by
    simpa using (List.mem_zipIdx hmem).2.1
  have hjoint : ¬(2 ≤ i ∧ Criterion.joint (joined k parts) i ≠
      Criterion.joint (joined k parts) (i - 1)) := by
    rintro ⟨htwo, hne⟩
    obtain ⟨j, rfl⟩ := Nat.exists_eq_add_of_le' htwo
    exact hne ((joint_joined (by omega)).trans (joint_joined (by omega)).symm)
  show Criterion.failure? (joined k parts) i part.toCriterion = none
  unfold Criterion.failure?
  rw [if_neg hjoint, h part hpart]

theorem compile_joined (htwo : 2 ≤ parts.length)
    (h : ∀ part ∈ parts, part.toCriterion.compile = .ok part) :
    (Criterion.group (joined k parts)).compile = .ok (group k parts) := by
  have hcases := Criterion.compile_group_cases (joined k parts)
  rw [firstFailure?_joined h] at hcases
  obtain ⟨ps, hps, hcompile, -⟩ := hcases
  have hsame : ps = parts := by
    have hcompiled : parts.map (Criterion.compile ∘ toCriterion) = parts.map .ok :=
      List.map_congr_left h
    rw [operands_joined, List.map_map, hcompiled] at hps
    exact ((List.map_inj_right fun _ _ => Except.ok.inj).1 hps).symm
  rw [hcompile, hsame, joint_joined (by omega)]
  match parts, htwo with
  | _ :: _ :: _, _ => rfl

/-- **Every predicate whose groups have at least two parts is what some criterion means.** -/
theorem compile_toCriterion (hp : p.IsBranching) : p.toCriterion.compile = .ok p := by
  induction hp using IsBranching.induction with
  | comparison field op value => exact compileLeaf_name field op value
  | negation part _ ih =>
    rw [toCriterion, Criterion.compile, ih]
  | group k parts htwo _ ih =>
    rw [toCriterion_group]
    exact compile_joined htwo ih

theorem elementsWritable_joined (h : ∀ part ∈ parts, part.toCriterion.isWritable = true) :
    Criterion.elementsWritable (joined k parts) = true := by
  induction parts with
  | nil => rfl
  | cons part rest ih =>
    obtain ⟨hpart, hrest⟩ := List.forall_mem_cons.1 h
    exact Bool.and_eq_true_iff.2 ⟨hpart, ih hrest⟩

theorem isWritable_toCriterion (hp : p.IsBranching) : p.toCriterion.isWritable = true := by
  induction hp using IsBranching.induction with
  | comparison field op value => rfl
  | negation part _ ih => exact ih
  | group k parts htwo _ ih =>
    rw [toCriterion_group]
    refine Bool.and_eq_true_iff.2 ⟨?_, elementsWritable_joined ih⟩
    match parts, htwo with
    | _ :: _ :: _, _ => rfl

/-- The criterion can be written as an array, and it is read back from there. -/
theorem ofCriteria_toCriterion (hp : p.IsBranching) :
    ofCriteria p.toCriterion.toValue = .ok p := by
  unfold ofCriteria
  rw [Criterion.ofValue_of_isWritable _ (isWritable_toCriterion hp)]
  exact compile_toCriterion hp

theorem isBranching_of_ofCriteria {v : Value} (h : ofCriteria v = .ok p) : p.IsBranching := by
  unfold ofCriteria at h
  split at h
  · exact Criterion.isBranching_of_compile _ h
  · cases h

/-! ## The texts of filters -/

/-- A part of a group as it stands in a text. -/
def parenthesized (text : List Char) : List Char := '(' :: (text ++ [')'])

/-- The texts of filters: of a comparison, of a negation, and of a group of at least two parts, each
in parentheses, with the word of one connective between them. What is in parentheses is again
the text of a filter. -/
inductive FilterText (dialect : Dialect) : List Char → Prop
  | comparison (field : String) (op : Operator) (value : Value) :
    FilterText dialect (comparisonChars dialect field op value)
  | negation {text : List Char} (h : FilterText dialect text) :
    FilterText dialect ("not (".toList ++ text ++ [')'])
  | group (k : Connective) {texts : List (List Char)} (htwo : 2 ≤ texts.length)
      (h : ∀ text ∈ texts, FilterText dialect text) :
    FilterText dialect (Text.join (word k) (texts.map parenthesized))

theorem comparisonChars_ne_nil (dialect : Dialect) (field : String) (op : Operator)
    (value : Value) : comparisonChars dialect field op value ≠ [] := by
  cases hop : op.isFunction with
  | true => simp [comparisonChars_of_call hop]
  | false => simp [comparisonChars_of_relation hop]

/-- No text of a filter is empty, so no pair of parentheses in one is. -/
theorem FilterText.ne_nil {text : List Char} (h : FilterText dialect text) : text ≠ [] := by
  cases h with
  | comparison field op value => exact comparisonChars_ne_nil dialect field op value
  | negation h => simp
  | @group k texts htwo h =>
    match texts, htwo with
    | _ :: _ :: _, _ => simp [Text.join, parenthesized]

theorem partChars_eq_join (dialect : Dialect) (word : List Char) (parts : List Predicate) :
    partChars dialect word parts =
      Text.join word ((parts.map (chars dialect)).map parenthesized) := by
  induction parts with
  | nil => rfl
  | cons part rest ih =>
    cases rest with
    | nil => rfl
    | cons next rest =>
      rw [partChars, ih]
      simp [Text.join, parenthesized]

theorem chars_group (k : Connective) (parts : List Predicate) :
    (group k parts).chars dialect =
      Text.join (word k) ((parts.map (chars dialect)).map parenthesized) := by
  rw [← partChars_eq_join]
  cases k with
  | and => exact chars_all dialect parts
  | or => exact chars_any dialect parts

/-- **The text of a predicate whose groups have at least two parts is the text of a filter.** -/
theorem filterText_chars (hp : p.IsBranching) (dialect : Dialect) :
    FilterText dialect (p.chars dialect) := by
  induction hp using IsBranching.induction with
  | comparison field op value => exact .comparison field op value
  | negation part _ ih => exact .negation ih
  | group k parts htwo _ ih =>
    rw [chars_group]
    refine .group k ?_ ?_
    · rwa [List.length_map]
    · intro text htext
      obtain ⟨part, hpart, rfl⟩ := List.mem_map.1 htext
      exact ih part hpart

theorem exists_parts {texts : List (List Char)}
    (h : ∀ text ∈ texts, ∃ p : Predicate, p.IsBranching ∧ p.chars dialect = text) :
    ∃ parts : List Predicate, (∀ part ∈ parts, part.IsBranching) ∧
      parts.map (chars dialect) = texts := by
  induction texts with
  | nil => exact ⟨[], fun part hpart => absurd hpart List.not_mem_nil, rfl⟩
  | cons text rest ih =>
    obtain ⟨⟨p, hp, rfl⟩, hrest⟩ := List.forall_mem_cons.1 h
    obtain ⟨parts, hparts, rfl⟩ := ih hrest
    exact ⟨p :: parts, List.forall_mem_cons.2 ⟨hp, hparts⟩, rfl⟩

/-- The texts of filters are the texts of such predicates, and no others. -/
theorem filterText_iff {text : List Char} :
    FilterText dialect text ↔ ∃ p : Predicate, p.IsBranching ∧ p.chars dialect = text := by
  constructor
  · intro h
    induction h with
    | comparison field op value =>
      exact ⟨.comparison field op value, isBranching_comparison field op value, rfl⟩
    | negation _ ih =>
      obtain ⟨p, hp, rfl⟩ := ih
      exact ⟨.negation p, hp, rfl⟩
    | group k htwo _ ih =>
      obtain ⟨parts, hparts, rfl⟩ := exists_parts ih
      rw [List.length_map] at htwo
      exact ⟨.group k parts, isBranching_group.2 ⟨htwo, hparts⟩, chars_group k parts⟩
  · rintro ⟨p, hp, rfl⟩
    exact filterText_chars hp dialect

end Predicate

end DataAccess
