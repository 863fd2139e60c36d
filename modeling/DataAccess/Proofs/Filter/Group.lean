import DataAccess.Filter.Criterion

/-!
# How groups compile

A group is read from left to right, with two connectives kept in mind. Seen from the outside it
is a list of operands, and between two neighbours stands the connective that joins them.

- `GroupElement.parts`, `Criterion.operands`, `Criterion.joint`: the operands, and what joins an
  operand to the one on its left.
- `Criterion.failure?`, `Criterion.firstFailure?`: what is wrong at an operand, and what is found
  wrong first.
- `Criterion.compileElements_eq`: reading the items is reading the parts.
- `Criterion.Progress`: what is known after some of the parts; `Progress.push` is the step.
- `Criterion.compile_group`: what a group compiles to; `Criterion.exists_of_compile_group` and
  `Criterion.error_of_compile_group` say it the other way round.
- `Criterion.induction`: induction over criteria, with the operands of a group as its parts.
-/

namespace DataAccess

namespace GroupElement

variable {α : Type}

/-- The connectives that come before the first operand. -/
def leading : List (GroupElement α) → List Connective
  | .connective k :: rest => k :: leading rest
  | _ => []

/-- The operands, each with the connectives that stand between it and the next one. -/
def parts : List (GroupElement α) → List (α × List Connective)
  | [] => []
  | .connective _ :: rest => parts rest
  | .operand a :: rest => (a, leading rest) :: parts rest

/-- What several connectives in a row mean: the last one counts, and none at all means `and`. -/
def settle (ks : List Connective) : Connective := ks.getLast?.getD .and

/-- Connectives at the start belong to no operand. -/
@[simp] theorem parts_leading_append (ks : List Connective) (items : List (GroupElement α)) :
    parts (ks.map .connective ++ items) = parts items := by
  induction ks with
  | nil => rfl
  | cons k ks ih => exact ih

end GroupElement

namespace Criterion

open GroupElement (parts leading settle)

/-- The operands of a group, in order. -/
def operands (items : List (GroupElement Criterion)) : List Criterion := (parts items).map Prod.fst

/-- The connective that joins the operand with index `i`, which is not the first, to the one on
its left: the last one that stands between them, or `and` where there is none. -/
def joint (items : List (GroupElement Criterion)) (i : Nat) : Connective :=
  match (parts items)[i - 1]? with
  | some part => settle part.2
  | none => .and

/-- What is wrong at the operand with index `i`. From the third operand on, the connective is
looked at before the operand itself. -/
def failure? (items : List (GroupElement Criterion)) (i : Nat) (c : Criterion) : Option Error :=
  if 2 ≤ i ∧ joint items i ≠ joint items (i - 1) then some .mixedConnectives
  else
    match c.compile with
    | .ok _ => none
    | .error e => some e

/-- What is found wrong first, going through the operands in order. -/
def firstFailure? (items : List (GroupElement Criterion)) : Option Error :=
  (operands items).zipIdx.findSome? fun (c, i) => failure? items i c

/-- What parts that are joined by one connective mean together. -/
def joinParts (k : Connective) : List Predicate → Except Error Predicate
  | [] => .error (.malformed .emptyGroup)
  | [p] => .ok p
  | ps => .ok (.group k ps)

theorem mem_operands {c : Criterion} {items : List (GroupElement Criterion)} :
    c ∈ operands items ↔ .operand c ∈ items := by
  unfold operands
  induction items with
  | nil => simp [parts]
  | cons item rest ih =>
    cases item with
    | connective k => simpa [parts] using ih
    | operand a => simpa [parts] using or_congr_right ih

/-- Induction over criteria. Of the items of a group only the operands count. -/
@[elab_as_elim]
theorem induction {motive : Criterion → Prop}
    (leaf : ∀ field operator value, motive (.leaf field operator value))
    (negation : ∀ part, motive part → motive (.negation part))
    (group : ∀ items, (∀ c ∈ operands items, motive c) → motive (.group items)) :
    (c : Criterion) → motive c
  | .leaf field operator value => leaf field operator value
  | .negation part => negation part (induction leaf negation group part)
  | .group items => group items fun c hc =>
    have _hitem : .operand c ∈ items := mem_operands.1 hc
    induction leaf negation group c
termination_by c => sizeOf c
decreasing_by
  · simp
  · have hsmaller := List.sizeOf_lt_of_mem _hitem
    simp only [GroupElement.operand.sizeOf_spec, Criterion.group.sizeOf_spec] at hsmaller ⊢
    omega

/-! ## Reading the parts -/

/-- The state after several connectives in a row. -/
def GroupState.connectAll (state : GroupState) (ks : List Connective) : GroupState :=
  ks.foldl GroupState.connect state

/-- Reads operands together with the connectives that follow each of them. -/
def compileParts (state : GroupState) : List (Criterion × List Connective) → Except Error GroupState
  | [] => .ok state
  | (c, after) :: rest =>
    if state.mixes then .error .mixedConnectives
    else match c.compile with
      | .ok p => compileParts ((state.push p).connectAll after) rest
      | .error e => .error e

/-- Reading the items of a group is reading its parts, after the connectives at its start. -/
theorem compileElements_eq (state : GroupState) (items : List (GroupElement Criterion)) :
    compileElements state items =
      compileParts (state.connectAll (leading items)) (parts items) := by
  induction items generalizing state with
  | nil => rfl
  | cons item rest ih =>
    cases item with
    | connective k =>
      show compileElements (state.connect k) rest = _
      rw [ih]
      rfl
    | operand c =>
      unfold compileElements
      show _ = compileParts state ((c, leading rest) :: parts rest)
      unfold compileParts
      split
      · rfl
      · cases c.compile with
        | error e => rfl
        | ok p => exact ih (state.push p)

@[simp] theorem operands_connectAll (state : GroupState) (ks : List Connective) :
    (state.connectAll ks).operands = state.operands := by
  induction ks generalizing state with
  | nil => rfl
  | cons k ks ih => exact ih (state.connect k)

@[simp] theorem established_connectAll (state : GroupState) (ks : List Connective) :
    (state.connectAll ks).established = state.established := by
  induction ks generalizing state with
  | nil => rfl
  | cons k ks ih => exact ih (state.connect k)

/-- The last connective counts, and where there is none the one from before does. -/
theorem upcoming_connectAll (state : GroupState) (ks : List Connective) :
    (state.connectAll ks).upcoming = ks.getLast?.or state.upcoming := by
  induction ks generalizing state with
  | nil => rfl
  | cons k ks ih =>
    show ((state.connect k).connectAll ks).upcoming = _
    rw [ih, List.getLast?_cons]
    cases ks.getLast? <;> rfl

/-! ## Progress

The two connectives in the state are known from the operands read so far: `upcoming` joins the
next operand, and `established` joined all of them. -/

/-- What is known when the parts `done` were read without failure and `todo` are left. -/
structure Progress (items : List (GroupElement Criterion))
    (done todo : List (Criterion × List Connective)) (state : GroupState) : Prop where
  split : parts items = done ++ todo
  compiled : done.map (fun part => part.1.compile) = state.operands.map .ok
  upcoming : done ≠ [] → state.upcoming = some (joint items done.length)
  established : 2 ≤ done.length → state.established = some (joint items 1)
  joints : ∀ i, 1 ≤ i → i < done.length → joint items i = joint items 1

variable {items : List (GroupElement Criterion)} {done todo : List (Criterion × List Connective)}
  {state : GroupState} {c : Criterion} {after : List Connective}

theorem joint_length_succ (h : parts items = done ++ (c, after) :: todo) :
    joint items (done.length + 1) = settle after := by
  have hpart : (parts items)[done.length + 1 - 1]? = some (c, after) := by
    rw [h, Nat.add_sub_cancel, List.getElem?_append_right (Nat.le_refl _), Nat.sub_self]
    rfl
  unfold joint
  rw [hpart]

theorem Progress.length_operands (h : Progress items done todo state) :
    state.operands.length = done.length := by
  have hlength := congrArg List.length h.compiled
  rw [List.length_map, List.length_map] at hlength
  exact hlength.symm

/-- The state tells a change of connective exactly where there is one. -/
theorem Progress.mixes_iff (h : Progress items done todo state) :
    state.mixes = true ↔
      2 ≤ done.length ∧ joint items done.length ≠ joint items (done.length - 1) := by
  unfold GroupState.mixes
  rw [h.length_operands, Bool.and_eq_true, decide_eq_true_iff, decide_eq_true_iff]
  refine and_congr_right fun hlength => ?_
  have hne : done ≠ [] := by
    intro hnil
    rw [hnil] at hlength
    cases hlength
  have hleft : joint items (done.length - 1) = joint items 1 :=
    h.joints _ (by omega) (by omega)
  rw [h.upcoming hne, h.established hlength, hleft]
  exact not_congr Option.some_inj

/-- Where something is wrong at the next operand, reading stops there. -/
theorem Progress.stop (h : Progress items done ((c, after) :: todo) state) {e : Error}
    (hfail : failure? items done.length c = some e) :
    compileParts state ((c, after) :: todo) = .error e := by
  unfold failure? at hfail
  unfold compileParts
  split at hfail
  · rename_i hmix
    rw [if_pos (h.mixes_iff.2 hmix)]
    cases hfail
    rfl
  · rename_i hmix
    rw [if_neg (mt h.mixes_iff.1 hmix)]
    split at hfail
    · cases hfail
    · cases hfail
      rfl

/-- Where the connective does not change, the next operand is joined as the second one is. -/
theorem Progress.joint_eq (h : Progress items done todo state)
    (hmix : ¬(2 ≤ done.length ∧ joint items done.length ≠ joint items (done.length - 1)))
    (hlength : 1 ≤ done.length) : joint items done.length = joint items 1 := by
  by_cases hone : done.length = 1
  · rw [hone]
  · have hsame : joint items done.length = joint items (done.length - 1) :=
      Decidable.byContradiction fun hne => hmix ⟨by omega, hne⟩
    rw [hsame]
    exact h.joints _ (by omega) (by omega)

/-- Where nothing is wrong at the next operand, it is compiled and reading goes on. -/
theorem Progress.push (h : Progress items done ((c, after) :: todo) state)
    (hfine : failure? items done.length c = none) :
    ∃ state', compileParts state ((c, after) :: todo) = compileParts state' todo ∧
      Progress items (done ++ [(c, after)]) todo state' := by
  unfold failure? at hfine
  split at hfine
  · cases hfine
  rename_i hmix
  split at hfine
  · rename_i p hcompile
    refine ⟨(state.push p).connectAll after, ?_, ?_⟩
    · rw [compileParts, if_neg (mt h.mixes_iff.1 hmix), hcompile]
    refine { split := ?_, compiled := ?_, upcoming := fun _ => ?_,
             established := fun hlength => ?_, joints := fun i hi hlength => ?_ }
    · rw [h.split, List.append_assoc]
      rfl
    · rw [List.map_append, h.compiled, operands_connectAll]
      show _ ++ [c.compile] = (state.operands ++ [p]).map .ok
      rw [hcompile, List.map_append]
      rfl
    · -- the last connective after the operand counts, or the `and` that the operand brings
      rw [List.length_append, List.length_singleton, joint_length_succ h.split,
        upcoming_connectAll]
      show after.getLast?.or (some .and) = some (settle after)
      unfold settle
      cases after.getLast? <;> rfl
    · -- what joined this operand is now established, and it is what joined the one before
      rw [established_connectAll]
      show state.upcoming = some (joint items 1)
      rw [List.length_append, List.length_singleton] at hlength
      have hne : done ≠ [] := by
        intro hnil
        rw [hnil] at hlength
        simp at hlength
      rw [h.upcoming hne, h.joint_eq hmix (by omega)]
    · -- only the operand that was read now is new
      rw [List.length_append, List.length_singleton] at hlength
      by_cases hlast : i < done.length
      · exact h.joints i hi hlast
      · have hi' : i = done.length := by omega
        rw [hi']
        exact h.joint_eq hmix (hi' ▸ hi)
  · cases hfine

/-- What is found wrong first among the parts that are left decides; if nothing is, all of them
are compiled. -/
theorem Progress.run (h : Progress items done todo state) :
    match (todo.zipIdx done.length).findSome? fun (part, i) => failure? items i part.1 with
    | some e => compileParts state todo = .error e
    | none => ∃ state', compileParts state todo = .ok state' ∧
        Progress items (parts items) [] state' := by
  induction todo generalizing done state with
  | nil =>
    have hsplit : parts items = done := h.split.trans (List.append_nil done)
    rw [hsplit]
    exact ⟨state, rfl, h⟩
  | cons part todo ih =>
    obtain ⟨c, after⟩ := part
    rw [List.zipIdx_cons, List.findSome?_cons]
    dsimp only
    cases hfail : failure? items done.length c with
    | some e => exact h.stop hfail
    | none =>
      obtain ⟨state', hrun, hstate'⟩ := h.push hfail
      have hrest := ih hstate'
      rw [List.length_append, List.length_singleton, ← hrun] at hrest
      exact hrest

/-- Before the first part nothing is known. -/
theorem Progress.start (items : List (GroupElement Criterion)) (ks : List Connective) :
    Progress items [] (parts items) (GroupState.connectAll {} ks) := by
  constructor
  · rfl
  · rw [operands_connectAll]
    rfl
  · intro hne
    exact absurd rfl hne
  · intro hlength
    cases hlength
  · intro i _ hlength
    cases hlength

/-- When all parts are read, the group means what its operands mean together. -/
theorem Progress.finish_eq (h : Progress items (parts items) [] state) :
    state.finish = joinParts (joint items 1) state.operands := by
  have hestablished := h.established
  rw [← h.length_operands] at hestablished
  unfold GroupState.finish joinParts
  match hops : state.operands with
  | [] => rfl
  | [p] => rfl
  | p :: q :: ps =>
    have hk : state.established = some (joint items 1) := by
      refine hestablished ?_
      rw [hops]
      simp
    dsimp only
    rw [hk]
    rfl

/-- What a group compiles to, said of its parts: the failure that comes first, or what the operands
mean together. -/
theorem compile_group_cases (items : List (GroupElement Criterion)) :
    match firstFailure? items with
    | some e => (group items).compile = .error e
    | none => ∃ ps, (operands items).map compile = ps.map .ok ∧
        (group items).compile = joinParts (joint items 1) ps ∧
        ∀ i, 1 ≤ i → i < (operands items).length → joint items i = joint items 1 := by
  have hrun := (Progress.start items (leading items)).run
  have hfirst : firstFailure? items =
      ((parts items).zipIdx 0).findSome? fun (part, i) => failure? items i part.1 := by
    unfold firstFailure? operands
    rw [List.zipIdx_map, List.findSome?_map]
    rfl
  rw [List.length_nil, ← hfirst] at hrun
  unfold compile
  rw [compileElements_eq]
  cases hfail : firstFailure? items with
  | some e =>
    rw [hfail] at hrun
    dsimp only at hrun ⊢
    rw [hrun]
  | none =>
    rw [hfail] at hrun
    obtain ⟨state', hstate', hprogress⟩ := hrun
    refine ⟨state'.operands, ?_, ?_, ?_⟩
    · rw [← hprogress.compiled, operands, List.map_map]
      rfl
    · rw [hstate']
      show state'.finish = _
      exact hprogress.finish_eq
    · intro i hi hlength
      refine hprogress.joints i hi ?_
      rwa [operands, List.length_map] at hlength

/-- What a group means is put together from what its operands mean. -/
theorem exists_of_compile_group {p : Predicate} (h : (group items).compile = .ok p) :
    ∃ ps, (operands items).map compile = ps.map .ok ∧ joinParts (joint items 1) ps = .ok p ∧
      ∀ i, 1 ≤ i → i < (operands items).length → joint items i = joint items 1 := by
  have hcases := compile_group_cases items
  rw [h] at hcases
  split at hcases
  · cases hcases
  · obtain ⟨ps, hps, hjoin, hjoints⟩ := hcases
    exact ⟨ps, hps, hjoin.symm, hjoints⟩

/-- A group that means nothing mixes connectives, has no operands, or has one that means nothing. -/
theorem error_of_compile_group {e : Error} (h : (group items).compile = .error e) :
    e = .mixedConnectives ∨ e = .malformed .emptyGroup ∨
      ∃ c ∈ operands items, c.compile = .error e := by
  have hcases := compile_group_cases items
  rw [h] at hcases
  split at hcases
  · rename_i hfirst
    cases hcases
    obtain ⟨⟨c, i⟩, hmem, hfail⟩ := List.exists_of_findSome?_eq_some hfirst
    replace hfail : failure? items i c = some e := hfail
    unfold failure? at hfail
    split at hfail
    · exact .inl (Option.some.inj hfail).symm
    · split at hfail
      · cases hfail
      · rename_i hc
        cases hfail
        exact .inr (.inr ⟨c, List.fst_mem_of_mem_zipIdx hmem, hc⟩)
  · obtain ⟨ps, -, hjoin, -⟩ := hcases
    unfold joinParts at hjoin
    split at hjoin <;> cases hjoin
    exact .inr (.inl rfl)

/-! ## Connectives at the edges -/

/-- Connectives after the last operand are read, and that is all. -/
theorem compileElements_append_connectives (state : GroupState)
    (items : List (GroupElement Criterion)) (ks : List Connective) :
    compileElements state (items ++ ks.map .connective) =
      match compileElements state items with
      | .ok state' => .ok (state'.connectAll ks)
      | .error e => .error e := by
  induction items generalizing state with
  | nil =>
    rw [List.nil_append]
    induction ks generalizing state with
    | nil => rfl
    | cons k ks ih => exact ih (state.connect k)
  | cons item rest ih =>
    cases item with
    | connective k => exact ih (state.connect k)
    | operand c =>
      rw [List.cons_append, compileElements, compileElements]
      split
      · rfl
      · cases c.compile with
        | error e => rfl
        | ok p => exact ih (state.push p)

theorem finish_connectAll (state : GroupState) (ks : List Connective) :
    (state.connectAll ks).finish = state.finish := by
  unfold GroupState.finish
  rw [operands_connectAll, established_connectAll]

/-- Connectives after the last operand change nothing. -/
theorem compile_group_append (items : List (GroupElement Criterion)) (ks : List Connective) :
    (group (items ++ ks.map .connective)).compile = (group items).compile := by
  unfold compile
  rw [compileElements_append_connectives]
  cases compileElements {} items with
  | error e => rfl
  | ok state => exact finish_connectAll state ks

/-- Connectives before the first operand change nothing. -/
theorem compile_append_group (ks : List Connective) (items : List (GroupElement Criterion)) :
    (group (ks.map .connective ++ items)).compile = (group items).compile := by
  have hparts := GroupElement.parts_leading_append ks items
  have hoperands : operands (ks.map .connective ++ items) = operands items := by
    rw [operands, hparts, operands]
  have hjoint : joint (ks.map .connective ++ items) = joint items := by
    funext i
    rw [joint, hparts, joint]
  have hfirst : firstFailure? (ks.map .connective ++ items) = firstFailure? items := by
    unfold firstFailure? failure?
    rw [hoperands, hjoint]
  -- both groups have the same parts, so the same is known of both
  have hmore := compile_group_cases (ks.map .connective ++ items)
  have hless := compile_group_cases items
  rw [hfirst, hoperands, hjoint] at hmore
  cases hfail : firstFailure? items with
  | some e =>
    rw [hfail] at hmore hless
    exact hmore.trans hless.symm
  | none =>
    rw [hfail] at hmore hless
    obtain ⟨ps, hps, hmore, -⟩ := hmore
    obtain ⟨qs, hqs, hless, -⟩ := hless
    have hsame : ps = qs :=
      (List.map_inj_right fun _ _ => Except.ok.inj).1 (hps.symm.trans hqs)
    rw [hmore, hless, hsame]

/-- **What a group compiles to.** Going through the operands in order, the first failure decides:
from the third operand on, a connective that differs from the one before, and else an operand that
does not compile. If there is none, a group without operands is malformed, a group of one operand
means what that operand means, and of more operands it is their group under the connective before
the second one. Connectives before the first operand and after the last one never matter. -/
theorem compile_group (items : List (GroupElement Criterion)) :
    (match firstFailure? items with
      | some e => (group items).compile = .error e
      | none => ∃ ps, (operands items).map compile = ps.map .ok ∧
          (group items).compile = joinParts (joint items 1) ps) ∧
      ∀ before after : List Connective,
        (group (before.map .connective ++ items ++ after.map .connective)).compile =
          (group items).compile := by
  constructor
  · have hcases := compile_group_cases items
    cases hfail : firstFailure? items with
    | some e =>
      rw [hfail] at hcases
      exact hcases
    | none =>
      rw [hfail] at hcases
      obtain ⟨ps, hps, hcompile, -⟩ := hcases
      exact ⟨ps, hps, hcompile⟩
  · intro before after
    rw [compile_group_append, compile_append_group]

end Criterion

end DataAccess
