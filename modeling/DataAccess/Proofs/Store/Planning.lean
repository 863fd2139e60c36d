import DataAccess.Proofs.Filter.Faults
import DataAccess.Proofs.Plan.Clauses
import DataAccess.Store.Basic

/-!
# Planning a request

A store makes a plan of a request before it asks its service. Only the filter of a request can be
at fault: the sort keys of a request come one after the other, so that there is always a sort key
before a further one.

- `Store.sortPlan_eq`: sorting never fails, and adds nothing but steps that sort.
- `LoadRequest.conditions`: what a request asks of rows, or why it cannot be understood.
- `Store.plan_cases`, `Store.prepare_eq`: the plan with the filter.
- `Store.loadPlan_eq`: what the plan for the rows adds to the plan with the filter.
- `Store.aboutCriterion_of_conditions`, `Store.aboutCriterion_of_prepare`,
  `Store.aboutCriterion_of_loadPlan`: what can go wrong.
- `Store.escalation_of_prepare`, `Store.escalation_of_loadPlan`: the plan tells the listeners of
  the store.
-/

namespace DataAccess

/-- What a request asks of rows, beyond what the query that it starts from asks. -/
def LoadRequest.conditions (request : LoadRequest) : Except Error (List Predicate) :=
  match request.filter with
  | none => .ok []
  | some criteria => (Predicate.ofCriteria criteria).map fun p => [p]

namespace Store

variable {store : Store} {request : LoadRequest}

/-! ## Sorting -/

/-- A further sort key is written into the step that sorts already. -/
theorem foldlM_thenBy_eq (plan : Plan) (keys : List SortKey) (clause : String) :
    ∃ clause', keys.foldlM (fun plan key => plan.thenBy key.selector key.descending)
      (plan.andThen [.orderBy clause]) = .ok (plan.andThen [.orderBy clause']) := by
  induction keys generalizing clause with
  | nil => exact ⟨clause, rfl⟩
  | cons key rest ih =>
    obtain ⟨clause', h⟩ := ih (clause ++ "," ++ sortClause key.selector key.descending)
    have hfirst : (plan.andThen [.orderBy clause]).thenBy key.selector key.descending = _ :=
      Plan.thenBy_eq_ok_iff.2 ⟨plan.steps, clause, rfl, rfl⟩
    refine ⟨clause', ?_⟩
    rw [List.foldlM_cons, hfirst]
    exact h

/-- The sort keys of a request can always be added to a plan, and come to steps that sort. -/
theorem sortPlan_eq (plan : Plan) (keys : List SortKey) :
    ∃ clauses : List String, sortPlan plan keys = .ok (plan.andThen (clauses.map .orderBy)) := by
  cases keys with
  | nil => exact ⟨[], congrArg Except.ok plan.andThen_nil.symm⟩
  | cons first rest =>
    obtain ⟨clause, h⟩ :=
      foldlM_thenBy_eq plan rest (sortClause first.selector first.descending)
    exact ⟨[clause], h⟩

/-! ## The plan with the filter -/

/-- A plan starts with a request for related data, if any is requested, and with nothing else. -/
theorem plan_cases (store : Store) (request : LoadRequest) :
    let start : Plan :=
      { source := store.sourceOf request, countTotal := request.countTotal,
        escalation := store.escalation }
    (request.expand = [] ∧ store.plan request = start) ∨
      (request.expand ≠ [] ∧ store.plan request = start.expand request.expand) := by
  intro start
  by_cases hnone : request.expand = []
  · refine .inl ⟨hnone, ?_⟩
    unfold plan
    rw [hnone]
    rfl
  · exact .inr ⟨hnone, if_neg fun h => hnone (List.isEmpty_iff.1 h)⟩

theorem source_plan (store : Store) (request : LoadRequest) :
    (store.plan request).source = store.sourceOf request := by
  obtain ⟨-, h⟩ | ⟨-, h⟩ := store.plan_cases request <;>
    exact congrArg Plan.source h

theorem countTotal_plan (store : Store) (request : LoadRequest) :
    (store.plan request).countTotal = request.countTotal := by
  obtain ⟨-, h⟩ | ⟨-, h⟩ := store.plan_cases request <;>
    exact congrArg Plan.countTotal h

theorem escalation_plan (store : Store) (request : LoadRequest) :
    (store.plan request).escalation = store.escalation := by
  obtain ⟨-, h⟩ | ⟨-, h⟩ := store.plan_cases request <;>
    exact congrArg Plan.escalation h

theorem arranges_plan (store : Store) (request : LoadRequest) :
    ∀ step ∈ (store.plan request).steps, step.arranges = true := by
  obtain ⟨-, h⟩ | ⟨-, h⟩ := store.plan_cases request
  · rw [h]
    exact fun step hstep => absurd hstep List.not_mem_nil
  · rw [h]
    intro step hstep
    cases List.mem_singleton.1 hstep
    rfl

/-- The filter of a request comes after the related data. -/
theorem prepare_eq (store : Store) (request : LoadRequest) :
    store.prepare request =
      request.conditions.map fun conditions =>
        (store.plan request).andThen (conditions.map .restrict) := by
  unfold prepare LoadRequest.conditions Plan.filter
  cases request.filter with
  | none => exact congrArg Except.ok (by simp [Plan.andThen])
  | some criteria =>
    dsimp only
    cases Predicate.ofCriteria criteria <;> rfl

theorem prepare_eq_ok_iff {plan : Plan} :
    store.prepare request = .ok plan ↔ ∃ conditions, request.conditions = .ok conditions ∧
      plan = (store.plan request).andThen (conditions.map .restrict) := by
  rw [prepare_eq]
  cases request.conditions with
  | error e => exact ⟨nofun, fun ⟨_, h, _⟩ => nomatch h⟩
  | ok conditions =>
    constructor
    · rintro ⟨rfl⟩
      exact ⟨conditions, rfl, rfl⟩
    · rintro ⟨_, ⟨rfl⟩, rfl⟩
      rfl

theorem escalation_of_prepare {plan : Plan} (h : store.prepare request = .ok plan) :
    plan.escalation = store.escalation := by
  obtain ⟨conditions, -, rfl⟩ := prepare_eq_ok_iff.1 h
  exact escalation_plan store request

/-- A filter that cannot be understood is at fault as a criterion. -/
theorem aboutCriterion_of_conditions {e : Error} (h : request.conditions = .error e) :
    e.AboutCriterion := by
  unfold LoadRequest.conditions at h
  split at h
  · cases h
  · rename_i criteria _
    cases hcriteria : Predicate.ofCriteria criteria with
    | ok p =>
      rw [hcriteria] at h
      cases h
    | error err =>
      rw [hcriteria] at h
      cases h
      exact Predicate.aboutCriterion_of_ofCriteria hcriteria

/-- A request that leads to no plan has a filter that is at fault. -/
theorem aboutCriterion_of_prepare {e : Error} (h : store.prepare request = .error e) :
    e.AboutCriterion := by
  rw [prepare_eq] at h
  cases hconditions : request.conditions with
  | ok conditions =>
    rw [hconditions] at h
    cases h
  | error err =>
    rw [hconditions] at h
    cases h
    exact aboutCriterion_of_conditions hconditions

/-! ## The plan for the rows -/

/-- Once the filter is understood nothing can go wrong: the steps for sorting and selecting
arrange the rows, and the cut comes last. -/
theorem loadPlan_eq {start : Plan} (h : store.prepare request = .ok start) :
    ∃ arranging, store.loadPlan request =
        .ok (start.andThen (arranging ++ Plan.cut request.skip request.take)) ∧
      ∀ step ∈ arranging, step.arranges = true := by
  obtain ⟨clauses, hsort⟩ := sortPlan_eq start request.sort
  let sorting := clauses.map Step.orderBy
  have hsorting : ∀ step ∈ sorting, step.arranges = true := by
    intro step hstep
    obtain ⟨clause, -, rfl⟩ := List.mem_map.1 hstep
    rfl
  unfold loadPlan
  rw [h]
  dsimp only
  rw [hsort]
  dsimp only
  by_cases hselect : request.select.isEmpty = true
  · refine ⟨sorting, ?_, hsorting⟩
    rw [if_pos hselect, Plan.slice_eq, Plan.andThen_andThen]
  · obtain ⟨selecting, hplan, hselecting⟩ :=
      Plan.select_eq (start.andThen sorting) request.select
    refine ⟨sorting ++ selecting, ?_, ?_⟩
    · rw [if_neg hselect, hplan, Plan.slice_eq, Plan.andThen_andThen, Plan.andThen_andThen,
        List.append_assoc]
    · exact fun step hstep => (List.mem_append.1 hstep).elim (hsorting step) (hselecting step)

theorem escalation_of_loadPlan {plan : Plan} (h : store.loadPlan request = .ok plan) :
    plan.escalation = store.escalation := by
  cases hprepare : store.prepare request with
  | error e =>
    unfold loadPlan at h
    rw [hprepare] at h
    cases h
  | ok start =>
    obtain ⟨arranging, hplan, -⟩ := loadPlan_eq hprepare
    rw [hplan] at h
    cases h
    show start.escalation = store.escalation
    exact escalation_of_prepare hprepare

/-- A request that cannot be loaded has a filter that is at fault. -/
theorem aboutCriterion_of_loadPlan {e : Error} (h : store.loadPlan request = .error e) :
    e.AboutCriterion := by
  cases hprepare : store.prepare request with
  | error e' =>
    unfold loadPlan at h
    rw [hprepare] at h
    cases h
    exact aboutCriterion_of_prepare hprepare
  | ok start =>
    obtain ⟨arranging, hplan, -⟩ := loadPlan_eq hprepare
    rw [hplan] at h
    cases h

end Store

end DataAccess
