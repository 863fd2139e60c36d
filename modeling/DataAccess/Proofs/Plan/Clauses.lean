import DataAccess.Plan.Basic
import DataAccess.Query.Evaluation

/-!
# Which clauses the steps of a plan write

Each step is about one clause of the query. Conditions on rows add up, the counts of a cut replace
each other, and no step changes the resource that is asked.

- `Step.condition?`, `Step.sortKeys?`, `Step.skip?`, `Step.take?`: what a step says about the
  filter, the order and the cut.
- `Plan.build_of_kept`, `Plan.build_of_replaced`: a clause that steps leave alone, or write anew.
- `Plan.filter_build`, `Plan.order_build`, `Plan.skip_build`, `Plan.take_build`: the clauses after
  several steps.
- `Plan.filter_toCountQuery`, `Plan.order_toCountQuery`: rows are counted under the same filter as
  they are loaded, and in the order of the source.
- `Plan.cut`, `Step.arranges`: the steps that cut, and those that sort, select and expand.
-/

namespace DataAccess

namespace Step

/-- The condition on rows that a step adds. -/
def condition? : Step → Option Predicate
  | restrict p => some p
  | orderBy _ | select _ | expand _ | skip _ | take _ => none

/-- The sort keys that a step adds. -/
def sortKeys? : Step → Option (List SortItem)
  | orderBy clause => some (SortItem.listOfText clause)
  | restrict _ | select _ | expand _ | skip _ | take _ => none

/-- How many rows a step wants left out at the start. -/
def skip? : Step → Option Nat
  | skip count => some count
  | orderBy _ | restrict _ | select _ | expand _ | take _ => none

/-- How many rows a step wants at most. -/
def take? : Step → Option Nat
  | take count => some count
  | orderBy _ | restrict _ | select _ | expand _ | skip _ => none

/-- Whether a step sorts the rows, or says what of them is delivered. -/
def arranges : Step → Bool
  | orderBy _ | select _ | expand _ => true
  | restrict _ | skip _ | take _ => false

variable {step : Step}

/-- Steps that arrange rows neither restrict nor cut them. -/
theorem filterMap_of_arranges {steps : List Step} (h : ∀ step ∈ steps, step.arranges = true) :
    steps.filterMap condition? = [] ∧ steps.filterMap skip? = [] ∧ steps.filterMap take? = [] := by
  have hsilent : ∀ step ∈ steps,
      step.condition? = none ∧ step.skip? = none ∧ step.take? = none := by
    intro step hstep
    have harranges := h step hstep
    cases step <;> first | exact ⟨rfl, rfl, rfl⟩ | cases harranges
  simp only [List.filterMap_eq_nil_iff]
  exact ⟨fun step hstep => (hsilent step hstep).1, fun step hstep => (hsilent step hstep).2.1,
    fun step hstep => (hsilent step hstep).2.2⟩

/-- Conditions do not cut. -/
theorem filterMap_map_restrict (conditions : List Predicate) :
    (conditions.map restrict).filterMap condition? = conditions ∧
      (conditions.map restrict).filterMap skip? = [] ∧
      (conditions.map restrict).filterMap take? = [] := by
  induction conditions with
  | nil => exact ⟨rfl, rfl, rfl⟩
  | cons p rest ih => exact ⟨congrArg (p :: ·) ih.1, ih.2⟩

@[simp] theorem resource_apply (step : Step) (q : Query) :
    (step.apply q).resource = q.resource := by
  cases step <;> rfl

theorem countTotal_apply (step : Step) (q : Query) :
    (step.apply q).countTotal = q.countTotal := by
  cases step <;> rfl

theorem order_apply (step : Step) (q : Query) :
    (step.apply q).order = q.order ++ step.sortKeys?.toList.flatten := by
  cases step with
  | orderBy clause => exact congrArg (q.order ++ ·) (List.append_nil _).symm
  | _ => exact (List.append_nil _).symm

theorem skip_apply (step : Step) (q : Query) :
    (step.apply q).skip = step.skip?.or q.skip := by
  cases step <;> rfl

theorem take_apply (step : Step) (q : Query) :
    (step.apply q).take = step.take?.or q.take := by
  cases step <;> rfl

theorem eq_restrict_of_condition? {p : Predicate} (h : step.condition? = some p) :
    step = .restrict p := by
  cases step <;> cases h
  rfl

/-- Only a step that adds a condition changes the filter. -/
theorem filter_apply_of_condition? (h : step.condition? = none) (q : Query) :
    (step.apply q).filter = q.filter := by
  cases step <;> first | rfl | cases h

end Step

namespace Query

/-- The same query with further conditions on rows. -/
def restrictAll (q : Query) (conditions : List Predicate) : Query := conditions.foldl restrict q

/-- What the conditions make of a filter depends on that filter alone. -/
theorem filter_restrictAll_congr {q r : Query} (h : q.filter = r.filter)
    (conditions : List Predicate) :
    (q.restrictAll conditions).filter = (r.restrictAll conditions).filter := by
  induction conditions generalizing q r with
  | nil => exact h
  | cons p rest ih =>
    refine ih ?_
    unfold restrict
    rw [h]

/-- A row is let through by the query as it was and meets the further conditions. -/
theorem admits_restrictAll (q : Query) (conditions : List Predicate) (row : Value) :
    (q.restrictAll conditions).admits row =
      (q.admits row && conditions.all fun p => p.holds row) := by
  induction conditions generalizing q with
  | nil => exact (Bool.and_true _).symm
  | cons p rest ih =>
    show ((q.restrict p).restrictAll rest).admits row = _
    rw [ih, admits_restrict, List.all_cons, Bool.and_assoc]

theorem admits_congr {q r : Query} (h : q.filter = r.filter) (row : Value) :
    q.admits row = r.admits row := by
  unfold admits
  rw [h]

end Query

namespace Plan

variable {α : Type}

/-! ## The clauses after several steps -/

/-- A clause that each step leaves alone is left alone. -/
theorem build_of_kept {clause : Query → α}
    (h : ∀ (step : Step) (q : Query), clause (step.apply q) = clause q) (plan : Plan)
    (steps : List Step) : clause (plan.build steps) = clause plan.source.toQuery := by
  have hgen : ∀ q : Query, clause (steps.foldl (fun q step => step.apply q) q) = clause q := by
    induction steps with
    | nil => exact fun _ => rfl
    | cons step rest ih => exact fun q => (ih (step.apply q)).trans (h step q)
  exact hgen _

/-- Of a clause that steps replace, the last replacement counts. -/
theorem build_of_replaced {clause : Query → Option α} {part : Step → Option α}
    (h : ∀ (step : Step) (q : Query), clause (step.apply q) = (part step).or (clause q))
    (plan : Plan) (steps : List Step) :
    clause (plan.build steps) =
      (steps.filterMap part).getLast?.or (clause plan.source.toQuery) := by
  have hgen : ∀ q : Query, clause (steps.foldl (fun q step => step.apply q) q) =
      (steps.filterMap part).getLast?.or (clause q) := by
    induction steps with
    | nil => exact fun _ => rfl
    | cons step rest ih =>
      intro q
      rw [List.foldl_cons, ih, h, List.filterMap_cons]
      cases part step with
      | none => rfl
      | some value =>
        rw [List.getLast?_cons]
        cases (rest.filterMap part).getLast? <;> rfl
  exact hgen _

theorem resource_build (plan : Plan) (steps : List Step) :
    (plan.build steps).resource = plan.source.toQuery.resource :=
  plan.build_of_kept Step.resource_apply steps

theorem countTotal_build (plan : Plan) (steps : List Step) :
    (plan.build steps).countTotal = plan.source.toQuery.countTotal :=
  plan.build_of_kept Step.countTotal_apply steps

theorem skip_build (plan : Plan) (steps : List Step) :
    (plan.build steps).skip =
      (steps.filterMap Step.skip?).getLast?.or plan.source.toQuery.skip :=
  plan.build_of_replaced Step.skip_apply steps

theorem take_build (plan : Plan) (steps : List Step) :
    (plan.build steps).take =
      (steps.filterMap Step.take?).getLast?.or plan.source.toQuery.take :=
  plan.build_of_replaced Step.take_apply steps

/-- The sort keys that steps add come after those of the source. -/
theorem order_build (plan : Plan) (steps : List Step) :
    (plan.build steps).order =
      plan.source.toQuery.order ++ (steps.filterMap Step.sortKeys?).flatten := by
  have hgen : ∀ q : Query, (steps.foldl (fun q step => step.apply q) q).order =
      q.order ++ (steps.filterMap Step.sortKeys?).flatten := by
    induction steps with
    | nil => exact fun q => (List.append_nil _).symm
    | cons step rest ih =>
      intro q
      rw [List.foldl_cons, ih, Step.order_apply, List.append_assoc, List.filterMap_cons]
      cases step.sortKeys? <;> simp
  exact hgen _

/-- The conditions that steps add are joined to the filter of the source. -/
theorem filter_build (plan : Plan) (steps : List Step) :
    (plan.build steps).filter =
      (plan.source.toQuery.restrictAll (steps.filterMap Step.condition?)).filter := by
  have hgen : ∀ q : Query, (steps.foldl (fun q step => step.apply q) q).filter =
      (q.restrictAll (steps.filterMap Step.condition?)).filter := by
    induction steps with
    | nil => exact fun _ => rfl
    | cons step rest ih =>
      intro q
      rw [List.foldl_cons, ih, List.filterMap_cons]
      cases hcondition : step.condition? with
      | none =>
        exact Query.filter_restrictAll_congr (Step.filter_apply_of_condition? hcondition q) _
      | some p =>
        rw [Step.eq_restrict_of_condition? hcondition]
        rfl
  exact hgen _

/-! ## The two queries of a plan -/

/-- The query for the rows differs from what the steps make in whether the total is asked for. -/
theorem toQuery_eq (plan : Plan) :
    plan.toQuery =
      { plan.build plan.steps with
        countTotal := plan.countTotal || (plan.build plan.steps).countTotal } := by
  unfold toQuery
  cases plan.countTotal <;> rfl

/-- No condition is lost when only the steps are taken that matter for the number of rows. -/
theorem conditions_of_countsFor (steps : List Step) :
    (steps.filter Step.countsFor).filterMap Step.condition? =
      steps.filterMap Step.condition? := by
  induction steps with
  | nil => rfl
  | cons step rest ih =>
    cases step with
    | restrict p => exact congrArg (p :: ·) ih
    | _ => exact ih

/-- Rows are counted under the same filter as they are loaded. -/
theorem filter_toCountQuery (plan : Plan) : plan.toCountQuery.filter = plan.toQuery.filter := by
  rw [toQuery_eq]
  show (plan.build (plan.steps.filter Step.countsFor)).filter = (plan.build plan.steps).filter
  rw [filter_build, filter_build, conditions_of_countsFor]

/-- Rows are counted in the order of the source. -/
theorem order_toCountQuery (plan : Plan) :
    plan.toCountQuery.order = plan.source.toQuery.order := by
  show (plan.build (plan.steps.filter Step.countsFor)).order = _
  have hkeys : (plan.steps.filter Step.countsFor).filterMap Step.sortKeys? = [] := by
    refine List.filterMap_eq_nil_iff.2 fun step hstep => ?_
    have hcounts := (List.mem_filter.1 hstep).2
    cases step <;> first | rfl | cases hcounts
  rw [order_build, hkeys]
  exact List.append_nil _

/-! ## Steps that cut -/

/-- The count that a caller gives, where zero stands for none. -/
def given (count : Option Nat) : Option Nat := count.filter fun n => 0 < n

/-- The steps that cut out a stretch of the rows. -/
def cut (skip take : Option Nat) : List Step :=
  (given skip).toList.map .skip ++ (given take).toList.map .take

theorem slice_eq (plan : Plan) (skip take : Option Nat) :
    plan.slice skip take = plan.andThen (cut skip take) := rfl

theorem condition?_cut (skip take : Option Nat) :
    (cut skip take).filterMap Step.condition? = [] := by
  unfold cut
  cases given skip <;> cases given take <;> rfl

theorem skip?_cut (skip take : Option Nat) :
    (cut skip take).filterMap Step.skip? = (given skip).toList := by
  unfold cut
  cases given skip <;> cases given take <;> rfl

theorem take?_cut (skip take : Option Nat) :
    (cut skip take).filterMap Step.take? = (given take).toList := by
  unfold cut
  cases given skip <;> cases given take <;> rfl

/-! ## Steps that arrange -/

/-- Selecting adds steps that say what is delivered. -/
theorem select_eq (plan : Plan) (fields : List String) :
    ∃ arranging, plan.select fields = plan.andThen arranging ∧
      ∀ step ∈ arranging, step.arranges = true := by
  obtain ⟨-, hselect⟩ | ⟨-, hselect⟩ := plan.select_cases fields
  · exact ⟨_, hselect, by simp [Step.arranges]⟩
  · exact ⟨_, hselect.trans (plan.andThen_andThen _ _), by simp [Step.arranges]⟩

end Plan

end DataAccess
