import DataAccess.Proofs.Plan.Expansion
import DataAccess.Proofs.Session.Saving
import DataAccess.Proofs.Store.Calls
import DataAccess.Proofs.Store.Planning

/-!
# Which related data loading delivers

Related data can be asked for in three ways: the query that loading starts from delivers some, the
request names some, and a selected part of related data needs that data. The request writes its
list first and the selection writes another one after it. Each list goes together with what the
query delivers from the start, but the second one takes the place of the first.

- `Store.expansions_loadPlan`: the lists that the plan for a request writes.
- `Store.mem_expanded_of_loadPlan`: what the query for the rows delivers.
- `Store.load_delivers_iff`: when everything asked for is delivered.
-/

namespace DataAccess

namespace Store

variable {store : Store} {request : LoadRequest} {plan plan' : Plan}

/-! ## The plan for a request -/

theorem expansions_plan (store : Store) (request : LoadRequest) :
    (store.plan request).expansions =
      Plan.expansionFor (store.sourceOf request).expanded request.expand := by
  obtain ⟨hnone, hplan⟩ | ⟨hsome, hplan⟩ := store.plan_cases request
  · rw [hplan, hnone]
    rfl
  · rw [hplan]
    exact Plan.expansions_expand _ hsome

theorem expansions_prepare (h : store.prepare request = .ok plan) :
    plan.source = store.sourceOf request ∧
      plan.expansions =
        Plan.expansionFor (store.sourceOf request).expanded request.expand := by
  obtain ⟨conditions, -, rfl⟩ := prepare_eq_ok_iff.1 h
  exact ⟨source_plan store request,
    (Plan.expansions_restricted _ conditions).trans (expansions_plan store request)⟩

/-- A request writes up to two lists: one for what it names, one for what its selection needs. -/
theorem expansions_loadPlan (h : store.loadPlan request = .ok plan) :
    plan.source = store.sourceOf request ∧
      plan.expansions =
        Plan.expansionFor (store.sourceOf request).expanded request.expand ++
          Plan.expansionFor (store.sourceOf request).expanded
            (request.select.filterMap parentPath?) := by
  unfold loadPlan at h
  cases hprepare : store.prepare request with
  | error e =>
    rw [hprepare] at h
    cases h
  | ok start =>
    obtain ⟨clauses, hsort⟩ := sortPlan_eq start request.sort
    obtain ⟨hsource, hlists⟩ := expansions_prepare hprepare
    let sorted := start.andThen (clauses.map .orderBy)
    -- sorting has nothing to do with related data
    have hsorted : sorted.expansions = start.expansions := Plan.expansions_sorted start clauses
    rw [hprepare] at h
    dsimp only at h
    rw [hsort] at h
    cases h
    refine ⟨?_, (Plan.expansions_slice _ _ _).trans ?_⟩
    · rw [← hsource]
      show (if request.select.isEmpty then sorted else sorted.select request.select).source = _
      split
      · rfl
      · exact Plan.source_select _ _
    · split
      · rename_i hnone
        rw [List.isEmpty_iff.1 hnone, hsorted, hlists]
        exact (List.append_nil _).symm
      · rw [Plan.expansions_select, hsorted, hlists, Plan.source_andThen, hsource]

/-- A request whose filter is sound can be planned. -/
theorem loadPlan_ok (hfilter : ∀ criteria, request.filter = some criteria →
    ∃ p, Predicate.ofCriteria criteria = .ok p) : ∃ plan, store.loadPlan request = .ok plan := by
  have hconditions : ∃ conditions, request.conditions = .ok conditions := by
    unfold LoadRequest.conditions
    cases hcriteria : request.filter with
    | none => exact ⟨_, rfl⟩
    | some criteria =>
      obtain ⟨p, hp⟩ := hfilter criteria hcriteria
      dsimp only
      rw [hp]
      exact ⟨_, rfl⟩
  obtain ⟨conditions, hconditions⟩ := hconditions
  obtain ⟨arranging, hplan, -⟩ := loadPlan_eq (prepare_eq_ok_iff.2 ⟨conditions, hconditions, rfl⟩)
  exact ⟨_, hplan⟩

/-! ## The query for the rows -/

/-- What is delivered from the start is delivered. Of what else is asked for, it is what the
selection needs, or what the request names where the selection needs nothing. -/
theorem mem_expanded_of_loadPlan (h : store.loadPlan request = .ok plan)
    (hclean : ∀ path, path ∈ (store.sourceOf request).expanded ∨ path ∈ request.expand ∨
      path ∈ request.select.filterMap parentPath? → Text.Clean path.toList) {path : String} :
    path ∈ plan.toQuery.expanded ↔
      path ∈ (store.sourceOf request).expanded ∨ path ∈ request.select.filterMap parentPath? ∨
        request.select.filterMap parentPath? = [] ∧ path ∈ request.expand := by
  obtain ⟨hsource, hlists⟩ := expansions_loadPlan h
  rw [Plan.expanded_toQuery, hsource, hlists]
  by_cases hparents : request.select.filterMap parentPath? = []
  · rw [hparents, Plan.expansionFor_nil, List.append_nil]
    by_cases hexpand : request.expand = []
    · simp [hexpand, Plan.expansionFor_nil]
    · rw [← List.nil_append (Plan.expansionFor _ _),
        Plan.mem_getLast?_append_expansionFor hexpand fun path hpath =>
          hclean path (hpath.elim (fun h => .inr (.inl h)) .inl)]
      simp [or_comm]
  · rw [Plan.mem_getLast?_append_expansionFor hparents fun path hpath =>
      hclean path (hpath.elim (fun h => .inr (.inr h)) .inl)]
    -- what the request names is written before, so that it does not count
    exact or_comm.trans (or_congr_right (or_iff_left fun h => hparents h.1).symm)

/-- **When loading delivers everything that is asked for.** Let the filter of a request be sound,
and all paths be free of commas and of blanks at their ends. Loading asks one query, and that query
delivers all that the query it starts from delivers, and every path that a selected field is a part
of. It delivers all that the request names as well if no selected field is a part of related data,
or if the request names nothing beyond that: the list for the selection takes the place of the
list that was requested. -/
theorem load_delivers_iff (store : Store) (request : LoadRequest) (c : Context Session)
    (hfilter : ∀ criteria, request.filter = some criteria →
      ∃ p, Predicate.ofCriteria criteria = .ok p)
    (hclean : ∀ path, path ∈ (store.sourceOf request).expanded ∨ path ∈ request.expand ∨
      path ∈ request.select.filterMap parentPath? → Text.Clean path.toList) :
    ∃ q, ((store.load request).perform c).2.service.sent = c.service.sent ++ [q] ∧
      (∀ path ∈ (store.sourceOf request).expanded, path ∈ q.expanded) ∧
      (∀ path ∈ request.select.filterMap parentPath?, path ∈ q.expanded) ∧
      ((∀ path ∈ request.expand, path ∈ q.expanded) ↔
        request.select.filterMap parentPath? = [] ∨
          ∀ path ∈ request.expand, path ∈ (store.sourceOf request).expanded ∨
            path ∈ request.select.filterMap parentPath?) := by
  obtain ⟨plan, hplan⟩ : ∃ plan, store.loadPlan request = .ok plan := loadPlan_ok hfilter
  have hmem : ∀ path, path ∈ plan.toQuery.expanded ↔ _ :=
    fun _ => mem_expanded_of_loadPlan hplan hclean
  refine ⟨plan.toQuery, ?_, fun path h => (hmem path).2 (.inl h),
    fun path h => (hmem path).2 (.inr (.inl h)), ?_⟩
  · rw [service_load_ok hplan]
  · -- only a named path can be lost
    constructor
    · intro hall
      by_cases hparents : request.select.filterMap parentPath? = []
      · exact .inl hparents
      · refine .inr fun path hpath => ?_
        rcases (hmem path).1 (hall path hpath) with h | h | ⟨h, -⟩
        · exact .inl h
        · exact .inr h
        · exact absurd h hparents
    · rintro (hparents | hnamed) path hpath
      · exact (hmem path).2 (.inr (.inr ⟨hparents, hpath⟩))
      · exact (hmem path).2 ((hnamed path hpath).imp id .inl)

theorem load_delivers_iff_orders :
    let store : Store := { resource := "customers", query := some { expand := some ["manager"] } }
    let request : LoadRequest :=
      { filter := some (.array [.string "city", .string "=", .string "Oslo"])
        select := ["city", "address.street", "orders.lines.price"], expand := ["orders.lines"] }
    (∀ criteria, request.filter = some criteria → ∃ p, Predicate.ofCriteria criteria = .ok p) ∧
      (∀ path, path ∈ (store.sourceOf request).expanded ∨ path ∈ request.expand ∨
        path ∈ request.select.filterMap parentPath? → Text.Clean path.toList) ∧
      ∃ q, ((store.load request).perform { service := Session.shop }).2.service.sent = [q] ∧
        "manager" ∈ q.expanded ∧ "address" ∈ q.expanded ∧ "orders.lines" ∈ q.expanded := by
  intro store request
  have hfilter : ∀ criteria, request.filter = some criteria →
      ∃ p, Predicate.ofCriteria criteria = .ok p := by
    rintro criteria ⟨rfl⟩
    exact ⟨.comparison "city" .eq (.string "Oslo"), rfl⟩
  have hclean : ∀ path, path ∈ (store.sourceOf request).expanded ∨ path ∈ request.expand ∨
      path ∈ request.select.filterMap parentPath? → Text.Clean path.toList := by
    have hall : ∀ path ∈ (store.sourceOf request).expanded ++ (request.expand ++
        request.select.filterMap parentPath?), Text.Clean path.toList := by
      decide
    intro path h
    exact hall path (by rwa [List.mem_append, List.mem_append])
  obtain ⟨q, hsent, hbase, hparents, hnamed⟩ := load_delivers_iff store request
    { service := Session.shop } hfilter hclean
  exact ⟨hfilter, hclean, q, hsent, hbase "manager" (by decide), hparents "address" (by decide),
    hnamed.2 (.inr (by decide)) "orders.lines" (by decide)⟩

/-- The request names the orders and selects a part of the address. The query delivers the address
and no orders. -/
theorem load_loses_orders :
    let store : Store := { resource := "customers" }
    let request : LoadRequest := { select := ["address.city"], expand := ["orders"] }
    (∀ path ∈ request.expand ++ request.select ++ request.select.filterMap parentPath?,
      Text.Clean path.toList) ∧
    ((store.load request).perform { service := Session.shop }).2.service.sent.map Query.expanded =
      [["address"]] := by
  decide +kernel

end Store

end DataAccess
