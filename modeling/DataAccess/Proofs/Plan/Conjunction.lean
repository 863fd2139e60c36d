import DataAccess.Proofs.Plan.Additions

/-!
# Conditions add up

Every call that filters adds a condition to a plan, whatever other calls stand between. A row is let
through if it meets the condition of the source and each of those that were added. So the calls that
filter may change places with each other: they succeed as before, and both queries of the plan find
the same rows.

- `Plan.filter_of_addAll`: the filter of a plan after several calls.
- `Addition.SamePlace`: calls that are the same, or that both filter.
- `Plan.EndsAlike`: plans whose last steps sort both, or neither. Beyond the criteria themselves
  this is all that decides whether calls succeed: `Plan.endsAlike_add`, `Plan.addAll_of_places`.
- `Query.FindsAlike`: queries that find the same rows and tell the same number of them.
- `Plan.admits_of_addAll`: which rows a plan lets through after several calls.
-/

namespace DataAccess

/-- Calls that are the same, or that both filter. -/
def Addition.SamePlace (a b : Addition) : Prop :=
  a = b ∨ a.topic = .filtering ∧ b.topic = .filtering

/-- Queries that find the same rows and tell the same number of them. -/
def Query.FindsAlike (q r : Query) : Prop :=
  ∀ rows, q.matching rows = r.matching rows ∧
    q.total (q.matching rows) = r.total (r.matching rows)

theorem Query.findsAlike_of_admits {q r : Query} (h : ∀ row, q.admits row = r.admits row)
    (htotal : q.countTotal = r.countTotal) : q.FindsAlike r := by
  intro rows
  have hmatching : q.matching rows = r.matching rows := List.filter_congr fun row _ => h row
  refine ⟨hmatching, ?_⟩
  unfold total
  rw [hmatching, htotal]

/-- The conditions of several calls are those of the calls that filter. -/
theorem Addition.conditions_perm {additions others : List Addition}
    (h : (additions.filter fun a => a.topic = .filtering).Perm
      (others.filter fun a => a.topic = .filtering)) :
    (additions.filterMap condition?).Perm (others.filterMap condition?) := by
  rw [← writes_conditions.filterMap_filter additions, ← writes_conditions.filterMap_filter others]
  exact h.filterMap condition?

namespace Plan

variable {start plan plan' next other : Plan} {a b : Addition} {additions others : List Addition}

/-! ## The filter after several calls -/

theorem filter_of_addAll (hstart : start.steps = []) (h : start.addAll additions = .ok plan) :
    plan.toQuery.filter =
      (start.source.toQuery.restrictAll (additions.filterMap Addition.condition?)).filter := by
  have hextends := extends_addAll h
  -- calls that filter need no particular text
  have hclean : ∀ a ∈ additions, a.topic = .filtering → a.IsClean := by
    intro a _ ha
    cases a with
    | filter criteria | filterBy c => trivial
    | _ => cases ha
  rw [toQuery_eq]
  show (plan.build plan.steps).filter = _
  rw [build_of_extends hstart hextends, filter_build,
    Addition.writes_conditions.filterMap_flatMap_steps (by decide) _ hclean]

theorem countTotal_of_addAll (h : start.addAll additions = .ok plan) :
    plan.toQuery.countTotal = (start.countTotal || start.source.toQuery.countTotal) := by
  have hextends := extends_addAll h
  rw [toQuery_eq]
  show (plan.countTotal || (plan.build plan.steps).countTotal) = _
  rw [countTotal_build, hextends.source, hextends.countTotal]

theorem isSome_condition?_of_addAll (h : start.addAll additions = .ok plan) :
    ∀ a ∈ additions, a.topic = .filtering → a.condition?.isSome = true := by
  induction additions generalizing start with
  | nil => exact fun a ha => absurd ha List.not_mem_nil
  | cons first rest ih =>
    obtain ⟨next, hadd, hrest⟩ := addAll_cons_eq_ok_iff.1 h
    exact List.forall_mem_cons.2 ⟨isSome_condition?_of_add hadd, ih hrest⟩

/-! ## Calls that change places -/

/-- The last step of a plan sorts, so that a further key can go into it. -/
def endsSorting (plan : Plan) : Bool := plan.steps.getLast?.any fun step => step.topic = .sorting

/-- Plans from one source whose last steps sort both, or neither. -/
structure EndsAlike (plan other : Plan) : Prop where
  source : other.source = plan.source
  endsSorting : plan.endsSorting = other.endsSorting

theorem EndsAlike.andThen (h : plan.EndsAlike other) {steps others : List Step}
    (hlast : steps.getLast?.map Step.topic = others.getLast?.map Step.topic) :
    (plan.andThen steps).EndsAlike (other.andThen others) where
  source := h.source
  endsSorting := by
    have hends : ∀ (plan : Plan) (steps : List Step), (plan.andThen steps).endsSorting =
        (steps.getLast?.map Step.topic).elim plan.endsSorting (fun topic => topic = .sorting) := by
      intro plan steps
      unfold Plan.endsSorting
      rw [steps_andThen, List.getLast?_append]
      cases steps.getLast? <;> rfl
    rw [hends, hends, hlast, h.endsSorting]

/-- A further key is taken by a plan whose last step sorts. -/
theorem thenBy_ok (h : plan.endsSorting = true) (field : String) (descending : Bool) :
    ∃ plan', plan.thenBy field descending = .ok plan' := by
  unfold endsSorting at h
  cases hlast : plan.steps.getLast? with
  | none => rw [hlast] at h; cases h
  | some step =>
    rw [hlast] at h
    obtain ⟨before, hsteps⟩ := List.getLast?_eq_some_iff.1 hlast
    cases step with
    | orderBy clause => exact ⟨_, thenBy_eq_ok_iff.2 ⟨before, clause, hsteps, rfl⟩⟩
    | _ => cases h

/-- No other plan takes one. It goes into the last step, which still sorts. -/
theorem endsSorting_of_thenBy {field : String} {descending : Bool}
    (h : plan.thenBy field descending = .ok next) :
    plan.endsSorting = true ∧ next.source = plan.source ∧ next.endsSorting = true := by
  obtain ⟨before, clause, hsteps, rfl⟩ := thenBy_eq_ok_iff.1 h
  have hsorting : ∀ clause : String, (before ++ [Step.orderBy clause]).getLast?.any
      (fun step => step.topic = .sorting) = true := by
    intro clause
    rw [List.getLast?_concat]
    rfl
  refine ⟨?_, rfl, hsorting _⟩
  unfold endsSorting
  rw [hsteps]
  exact hsorting clause

theorem topic_last_of_filtering (ha : a.topic = .filtering) (h : a.condition?.isSome = true)
    (source : Source) : (a.steps source).getLast?.map Step.topic = some .filtering := by
  have hone : ∀ {p? : Option Predicate}, p?.isSome = true →
      (p?.toList.map Step.restrict).getLast?.map Step.topic = some .filtering := by
    rintro (_ | p) h <;> first | rfl | cases h
  cases a with
  | filter criteria | filterBy c => exact hone h
  | _ => cases ha

/-- **One call on each of two plans.** Where the first succeeds the second does so too. -/
theorem endsAlike_add (halike : plan.EndsAlike other) (hplace : a.SamePlace b)
    (hcondition : b.topic = .filtering → b.condition?.isSome = true)
    (h : plan.add a = .ok next) :
    ∃ next', other.add b = .ok next' ∧ next.EndsAlike next' := by
  by_cases hthen : ∃ field descending, a = .thenBy field descending
  · obtain ⟨field, descending, rfl⟩ := hthen
    obtain ⟨hends, hsource, hlast⟩ := endsSorting_of_thenBy h
    obtain rfl : Addition.thenBy field descending = b :=
      hplace.resolve_right fun hfilter => nomatch hfilter.1
    obtain ⟨next', h'⟩ := thenBy_ok (halike.endsSorting ▸ hends) field descending
    obtain ⟨-, hsource', hlast'⟩ := endsSorting_of_thenBy h'
    exact ⟨next', h', by rw [hsource', hsource, halike.source], hlast.trans hlast'.symm⟩
  · -- both calls add the steps that they stand for
    have hsome := isSome_condition?_of_add h
    rw [plan.add_eq_andThen (fun field descending ha => hthen ⟨field, descending, ha⟩) hsome] at h
    cases h
    have hother : ∀ field descending, b ≠ .thenBy field descending := by
      rintro field descending rfl
      exact hplace.elim (fun ha => hthen ⟨field, descending, ha⟩) fun hfilter => nomatch hfilter.2
    refine ⟨_, other.add_eq_andThen hother hcondition, halike.andThen ?_⟩
    rw [halike.source]
    rcases hplace with rfl | ⟨ha, hb⟩
    · rfl
    · rw [topic_last_of_filtering ha (hsome ha), topic_last_of_filtering hb (hcondition hb)]

/-- **Several calls on each of two plans.** -/
theorem addAll_of_places (halike : plan.EndsAlike other)
    (hplaces : List.Forall₂ Addition.SamePlace additions others)
    (hconditions : ∀ b ∈ others, b.topic = .filtering → b.condition?.isSome = true)
    (h : plan.addAll additions = .ok plan') : ∃ other', other.addAll others = .ok other' := by
  induction hplaces generalizing plan other with
  | nil => exact ⟨other, rfl⟩
  | cons hplace _ ih =>
    obtain ⟨hfirst, hrest⟩ := List.forall_mem_cons.1 hconditions
    obtain ⟨next, hadd, hothers⟩ := addAll_cons_eq_ok_iff.1 h
    obtain ⟨next', hadd', halike'⟩ := endsAlike_add halike hplace hfirst hadd
    obtain ⟨other', hothers'⟩ := ih halike' hrest hothers
    exact ⟨other', addAll_cons_eq_ok_iff.2 ⟨next', hadd', hothers'⟩⟩

/-! ## The rows that are let through -/

/-- **Conditions add up.** Let a plan be made from its source by calls that succeed. Every call that
filters adds a condition, and a row is let through by the query for the rows if the source lets it
through and it meets all these conditions. The query for the number of rows lets the same rows
through.

If the calls that filter change places with each other, all calls succeed again. Whenever calls
succeed among which the same ones filter, in whatever sequence, both queries find the same rows as
before and tell the same number of them. -/
theorem admits_of_addAll (hstart : start.steps = []) (h : start.addAll additions = .ok plan) :
    (∀ a ∈ additions, a.topic = .filtering → a.condition?.isSome = true) ∧
    (∀ row, (plan.toQuery.admits row = true ↔
      start.source.toQuery.admits row = true ∧
        ∀ p ∈ additions.filterMap Addition.condition?, p.holds row = true) ∧
      plan.toCountQuery.admits row = plan.toQuery.admits row) ∧
    ∀ others : List Addition,
      (additions.filter fun a => a.topic = .filtering).Perm
        (others.filter fun a => a.topic = .filtering) →
      (List.Forall₂ Addition.SamePlace additions others →
        ∃ plan', start.addAll others = .ok plan') ∧
      ∀ plan', start.addAll others = .ok plan' →
        plan'.toQuery.FindsAlike plan.toQuery ∧
          plan'.toCountQuery.FindsAlike plan.toCountQuery := by
  have hadmits : ∀ {additions plan}, start.addAll additions = .ok plan → ∀ row,
      (plan.toQuery.admits row = true ↔ start.source.toQuery.admits row = true ∧
        ∀ p ∈ additions.filterMap Addition.condition?, p.holds row = true) := by
    intro additions plan h row
    rw [Query.admits_congr (filter_of_addAll hstart h), Query.admits_restrictAll, Bool.and_eq_true,
      List.all_eq_true]
  have hcount : ∀ (plan : Plan) (row : Value),
      plan.toCountQuery.admits row = plan.toQuery.admits row :=
    fun plan row => Query.admits_congr plan.filter_toCountQuery row
  refine ⟨isSome_condition?_of_addAll h, fun row => ⟨hadmits h row, hcount plan row⟩, ?_⟩
  intro others hperm
  refine ⟨fun hplaces => addAll_of_places ⟨rfl, rfl⟩ hplaces ?_ h, fun plan' h' => ?_⟩
  · intro b hb hfilter
    have hmem : b ∈ additions.filter fun a => a.topic = .filtering :=
      hperm.mem_iff.2 (List.mem_filter.2 ⟨hb, decide_eq_true hfilter⟩)
    exact isSome_condition?_of_addAll h b (List.mem_filter.1 hmem).1 hfilter
  · have hsame : ∀ row, plan'.toQuery.admits row = plan.toQuery.admits row := by
      intro row
      rw [Bool.eq_iff_iff, hadmits h', hadmits h]
      simp only [(Addition.conditions_perm hperm).mem_iff]
    refine ⟨Query.findsAlike_of_admits hsame ?_, Query.findsAlike_of_admits (fun row => ?_) rfl⟩
    · rw [countTotal_of_addAll h', countTotal_of_addAll h]
    · rw [hcount, hcount, hsame]

/-- The query asks for open orders to begin with. Of the two calls that filter, one brings two
conditions together and the other one condition; in either sequence all of them have to be met,
those of the query too. -/
theorem admits_of_addAll_orders :
    let start : Plan :=
      { source := .query
          { resource := some "orders", filter := some (.comparison "open" .eq (.bool true)) } }
    let both : Addition := .filter (.array
      [.array [.string "city", .string "=", .string "Oslo"],
        .array [.string "paid", .string "=", .bool false]])
    let one : Addition := .filterBy (.leaf "rush" "=" (.bool true))
    let additions : List Addition := [.sortBy "date" false, both, .slice none (some 2), one]
    let others : List Addition := [.sortBy "date" false, one, .slice none (some 2), both]
    let row (isOpen : Bool) : Value := .object
      [("city", .string "Oslo"), ("open", .bool isOpen), ("paid", .bool false),
        ("rush", .bool true)]
    ∃ plan plan', start.steps = [] ∧ start.addAll additions = .ok plan ∧
      (additions.filter fun a => a.topic = .filtering).Perm
        (others.filter fun a => a.topic = .filtering) ∧
      List.Forall₂ Addition.SamePlace additions others ∧ start.addAll others = .ok plan' ∧
      plan.toQuery.admits (row true) = true ∧ plan.toQuery.admits (row false) = false ∧
      plan'.toQuery.FindsAlike plan.toQuery ∧
      plan'.toCountQuery.FindsAlike plan.toCountQuery := by
  intro start both one additions others row
  obtain ⟨plan, hplan⟩ : ∃ plan, start.addAll additions = .ok plan := ⟨_, rfl⟩
  have hperm : (additions.filter fun a => a.topic = .filtering).Perm
      (others.filter fun a => a.topic = .filtering) := List.Perm.swap one both []
  have hplaces : List.Forall₂ Addition.SamePlace additions others :=
    .cons (.inl rfl) (.cons (.inr ⟨rfl, rfl⟩) (.cons (.inl rfl) (.cons (.inr ⟨rfl, rfl⟩) .nil)))
  obtain ⟨-, hrows, hothers⟩ := admits_of_addAll rfl hplan
  obtain ⟨hsucceeds, halike⟩ := hothers others hperm
  obtain ⟨plan', hplan'⟩ := hsucceeds hplaces
  have hconditions : ∀ p ∈ additions.filterMap Addition.condition?, p.holds (row true) = true := by
    decide
  refine ⟨plan, plan', rfl, hplan, hperm, hplaces, hplan',
    (hrows (row true)).1.2 ⟨by decide, hconditions⟩, ?_, halike plan' hplan'⟩
  refine Bool.eq_false_iff.2 fun hadmits => ?_
  obtain ⟨hopen, -⟩ := (hrows (row false)).1.1 hadmits
  cases hopen

end Plan

end DataAccess
