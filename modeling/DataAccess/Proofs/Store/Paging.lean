import DataAccess.Proofs.Session.Saving
import DataAccess.Proofs.Store.Calls
import DataAccess.Proofs.Store.Counting

/-!
# Loading page by page

A request can be loaded at once, or page by page: one request after the other, each cut to the next
stretch of the rows. Together the pages are what is loaded at once, provided that the query that
the request starts from is not cut itself. A page replaces the cut of that query and does not add
to it, and the first page leaves no rows out, which counts as no cut at all.

- `Plan.toQuery_slice`, `Query.answer_cut`: what a cut changes in a query, and in its answer.
- `LoadRequest.uncut`, `LoadRequest.page`, `Store.loadPages`: all rows, one page, several pages.
- `Store.load_cut`: a request that is cut is answered with a stretch of the rows.
- `Store.perform_loadPages`: what several pages are together.
- `Store.loadPages_eq_load`: enough pages are all rows.
-/

namespace DataAccess

/-! ## Cutting an answer -/

/-- A cut that leaves no rows out at the start is the same as one that says nothing about it. -/
theorem window_given {size : Nat} (hsize : 1 ≤ size) (start : Nat) (rows : List Value) :
    window (Plan.given (some start)) (Plan.given (some size)) rows =
      (rows.drop start).take size := by
  have hstart : (Plan.given (some start)).getD 0 = start := by
    cases start <;> rfl
  have hgiven : Plan.given (some size) = some size := Option.filter_some_pos (decide_eq_true hsize)
  rw [hgiven, window_some, hstart]

namespace Query

/-- What a query delivers with a cut is cut out of what it delivers without one. -/
theorem answer_cut {q : Query} (hskip : q.skip = none) (htake : q.take = none)
    (skip take : Option Nat) (sorter : Sorter Value) (rows : List Value) :
    { q with skip, take }.answer sorter rows =
      (q.answer sorter rows).map fun response =>
        { response with rows := window skip take response.rows } := by
  show ((q.sorted sorter (q.matching rows)).map fun sorted =>
    Response.mk ((window skip take sorted).map q.shape) (q.total (q.matching rows))) = _
  unfold answer
  rw [hskip, htake]
  cases q.sorted sorter (q.matching rows) with
  | error e => rfl
  | ok sorted =>
    refine congrArg (fun rows => Except.ok (Response.mk rows (q.total (q.matching _)))) ?_
    exact window_map skip take sorted q.shape

end Query

namespace Plan

/-- A cut replaces the counts of the query and nothing else. -/
theorem toQuery_slice (plan : Plan) (skip take : Option Nat) :
    (plan.slice skip take).toQuery =
      { plan.toQuery with
        skip := (given skip).or plan.toQuery.skip, take := (given take).or plan.toQuery.take } := by
  have hbuild : (plan.slice skip take).build (plan.slice skip take).steps =
      { plan.build plan.steps with
        skip := (given skip).or (plan.build plan.steps).skip
        take := (given take).or (plan.build plan.steps).take } := by
    rw [slice_eq, steps_andThen, build_append]
    unfold cut
    cases given skip <;> cases given take <;> rfl
  rw [toQuery_eq, toQuery_eq, hbuild]
  rfl

end Plan

/-! ## Requests for pages -/

namespace LoadRequest

/-- The request for all rows. -/
def uncut (request : LoadRequest) : LoadRequest := { request with skip := none, take := none }

/-- The request for one of the pages into which the rows are cut. Pages are counted from zero. -/
def page (request : LoadRequest) (size n : Nat) : LoadRequest :=
  { request with skip := some (n * size), take := some size }

end LoadRequest

namespace Store

/-- Loads the first pages, one after the other, and gives the rows of all of them. -/
def loadPages (store : Store) (request : LoadRequest) (size : Nat) :
    Nat → Action Session (List Value)
  | 0 => return []
  | count + 1 => do
    let before ← store.loadPages request size count
    let last ← store.load (request.page size count)
    return before ++ last.rows

variable {store : Store} {request : LoadRequest} {c c' : Context Session}

/-- The cut is the last thing that is planned. -/
theorem loadPlan_eq_slice (store : Store) (request : LoadRequest) :
    store.loadPlan request =
      (store.loadPlan request.uncut).map (·.slice request.skip request.take) := by
  have hprepare : store.prepare request.uncut = store.prepare request := rfl
  unfold loadPlan
  rw [hprepare]
  cases store.prepare request with
  | error e => rfl
  | ok start =>
    dsimp only [LoadRequest.uncut]
    cases sortPlan start request.sort with
    | error e => rfl
    | ok plan =>
      -- without counts a cut adds no step
      refine congrArg (fun plan : Plan => Except.ok (plan.slice request.skip request.take)) ?_
      exact (Plan.andThen_nil _).symm

/-- All rows are asked for with the cut of the query that the request starts from. -/
theorem cut_of_loadPlan {plan : Plan} (h : store.loadPlan request.uncut = .ok plan) :
    plan.toQuery.skip = (store.baseQuery request).skip ∧
      plan.toQuery.take = (store.baseQuery request).take := by
  cases hconditions : request.uncut.conditions with
  | error e =>
    unfold loadPlan at h
    rw [prepare_eq, hconditions] at h
    cases h
  | ok conditions =>
    obtain ⟨_, hplan, hasks⟩ := asks_of_loadPlan store hconditions
    rw [hplan] at h
    cases h
    exact ⟨hasks.skip, hasks.take⟩

/-- A request that leads to a plan is answered with what its query asks for of the saved rows. -/
theorem load_of_loadPlan {plan : Plan} (h : store.loadPlan request = .ok plan)
    (c : Context Session) :
    ((store.load request).perform c).1 =
      (c.service.execute plan.toQuery).1.map Response.toLoaded := by
  unfold load
  rw [h, Action.perform_bind_ok (Action.perform_ofExcept _ _), Plan.load_fst]

/-- A request that leads to no plan fails for the reason of that. -/
theorem load_of_loadPlan_error {e : Error} (h : store.loadPlan request = .error e)
    (c : Context Session) : ((store.load request).perform c).1 = .error e := by
  unfold load
  rw [h, Action.perform_bind_error (Action.perform_ofExcept _ _)]

/-- Which queries were asked before has no influence on what is loaded. -/
theorem load_congr {sent : List Query} (hservice : c'.service = { c.service with sent })
    (request : LoadRequest) :
    ((store.load request).perform c').1 = ((store.load request).perform c).1 := by
  cases hplan : store.loadPlan request with
  | error e => rw [load_of_loadPlan_error hplan, load_of_loadPlan_error hplan]
  | ok plan =>
    rw [load_of_loadPlan hplan, load_of_loadPlan hplan, Session.execute_fst, Session.execute_fst,
      hservice]
    rfl

section

variable (hskip : (store.baseQuery request).skip = none)
  (htake : (store.baseQuery request).take = none)

include hskip htake

/-- **A request that is cut** is answered with a stretch of the rows, or fails as it would without
the cut. -/
theorem load_cut (c : Context Session) :
    ((store.load request).perform c).1 =
      ((store.load request.uncut).perform c).1.map fun loaded =>
        { loaded with
          rows := window (Plan.given request.skip) (Plan.given request.take) loaded.rows } := by
  have hslice := loadPlan_eq_slice store request
  cases hplan : store.loadPlan request.uncut with
  | error e =>
    rw [hplan] at hslice
    rw [load_of_loadPlan_error hslice, load_of_loadPlan_error hplan]
    rfl
  | ok plan =>
    obtain ⟨hplanSkip, hplanTake⟩ := cut_of_loadPlan hplan
    rw [hskip] at hplanSkip
    rw [htake] at hplanTake
    rw [hplan] at hslice
    rw [load_of_loadPlan hslice, load_of_loadPlan hplan, Session.execute_fst, Session.execute_fst,
      Plan.toQuery_slice, hplanSkip, hplanTake, Option.or_none, Option.or_none]
    cases c.service.reach (plan.toQuery.resource.getD "") with
    | error e => rfl
    | ok table =>
      dsimp only [Except.bind]
      rw [Query.answer_cut hplanSkip hplanTake]
      cases plan.toQuery.answer c.service.sorter (table.map .object) <;> rfl

/-- One page is the next stretch of the rows. -/
theorem load_page {size : Nat} (hsize : 1 ≤ size) {loaded : Loaded}
    (hload : ((store.load request.uncut).perform c).1 = .ok loaded) (n : Nat) :
    ((store.load (request.page size n)).perform c).1 =
      .ok { loaded with rows := (loaded.rows.drop (n * size)).take size } := by
  have huncut : (request.page size n).uncut = request.uncut := rfl
  rw [@load_cut store (request.page size n) hskip htake, huncut, hload, ← window_given hsize]
  rfl

/-- **The first pages** are the first rows. Loading them leaves the saved rows alone. -/
theorem perform_loadPages {size : Nat} (hsize : 1 ≤ size) {loaded : Loaded}
    (hload : ((store.load request.uncut).perform c).1 = .ok loaded) (count : Nat) :
    ∃ c', (store.loadPages request size count).perform c =
        (.ok (loaded.rows.take (count * size)), c') ∧
      ∃ sent, c'.service = { c.service with sent } := by
  induction count with
  | zero => exact ⟨c, by rw [Nat.zero_mul]; rfl, c.service.sent, rfl⟩
  | succ count ih =>
    obtain ⟨before, hbefore, sent, hservice⟩ := ih
    -- the pages so far have changed nothing that the answer depends on
    have hall : ((store.load request.uncut).perform before).1 = .ok loaded := by
      rw [load_congr hservice, hload]
    have hpage := load_page hskip htake hsize hall count
    obtain ⟨sent', hservice'⟩ := service_load store (request.page size count) before
    cases hlast : (store.load (request.page size count)).perform before with
    | mk r after =>
      rw [hlast] at hpage hservice'
      cases hpage
      refine ⟨after, ?_, sent', hservice'.trans (by rw [hservice])⟩
      unfold loadPages
      rw [Action.perform_bind_ok hbefore, Action.perform_bind_ok hlast, Action.perform_pure,
        Nat.succ_mul, List.take_add]

/-- **Enough pages are all rows**: no row is lost, none is repeated and none changes its place. -/
theorem loadPages_eq_load {size count : Nat} (hsize : 1 ≤ size) {loaded : Loaded}
    (hload : ((store.load request.uncut).perform c).1 = .ok loaded)
    (hcount : loaded.rows.length ≤ count * size) :
    ((store.loadPages request size count).perform c).1 = .ok loaded.rows := by
  obtain ⟨c', hpages, -⟩ := perform_loadPages hskip htake hsize hload count
  rw [hpages, List.take_of_length_le hcount]

end

/-- Five customers come on two full pages and one that is not full. Customers of the same city stay
in their sequence, also where a page ends between them. -/
theorem loadPages_eq_load_shop :
    let customer (id : Nat) (city : String) : Record := [("city", .string city), ("id", .nat id)]
    let s : Session :=
      { Session.shop with
        tables := Keyed.empty.insert "Customer"
          [customer 1 "Rome", customer 2 "Oslo", customer 3 "Rome", customer 4 "Rome",
            customer 5 "Bergen", customer 6 "Lima"] }
    let c : Context Session := { service := s }
    let store : Store :=
      { resource := "customers"
        query := some { filter := some (.comparison "city" .ne (.string "Lima")) } }
    let request : LoadRequest := { sort := [⟨"city", true⟩], select := ["id"] }
    let loaded : Loaded :=
      { rows := [.object [("id", .nat 1)], .object [("id", .nat 3)], .object [("id", .nat 4)],
          .object [("id", .nat 2)], .object [("id", .nat 5)]] }
    (store.baseQuery request).skip = none ∧ (store.baseQuery request).take = none ∧
      ((store.load request.uncut).perform c).1 = .ok loaded ∧ loaded.rows.length ≤ 3 * 2 ∧
      ((store.loadPages request 2 3).perform c).1 = .ok loaded.rows := by
  intro customer s c store request loaded
  have hoption : ((store.load request.uncut).perform c).1.toOption = some loaded := by
    decide +kernel
  have hload : ((store.load request.uncut).perform c).1 = .ok loaded := by
    cases h : ((store.load request.uncut).perform c).1 with
    | error e =>
      rw [h] at hoption
      cases hoption
    | ok rows =>
      rw [h] at hoption
      exact congrArg Except.ok (Option.some.inj hoption)
  have hcount : loaded.rows.length ≤ 3 * 2 := by decide
  exact ⟨rfl, rfl, hload, hcount, loadPages_eq_load rfl rfl (by decide) hload hcount⟩

/-- A prepared query that leaves out one row gives all rows but the first. Page by page the second
customer comes twice: on the first page, which does not replace the cut of the query, and on the
second page, which does. -/
theorem loadPages_repeats_row :
    let c : Context Session := { service := Session.shop }
    let store : Store := { resource := "customers" }
    let request : LoadRequest := { prepared := some { skip := some 1 } }
    let rome : Value := .object [("city", .string "Rome"), ("id", .string "c2")]
    c.service.outage = none ∧ store.ownQuery.skip = none ∧ store.ownQuery.take = none ∧
      ((store.load request.uncut).perform c).1 = .ok { rows := [rome] } ∧
      [rome].length ≤ 2 * 1 ∧
      ((store.loadPages request 1 2).perform c).1 = .ok [rome, rome] := by
  intro c store request rome
  exact ⟨rfl, rfl, rfl, rfl, by decide, rfl⟩

end Store

end DataAccess
