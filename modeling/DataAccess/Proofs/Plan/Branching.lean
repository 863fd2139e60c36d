import DataAccess.Proofs.Filter.Branching
import DataAccess.Proofs.Plan.Conjunction
import DataAccess.Proofs.Query.Writing

/-!
# The groups in the filters of a plan

The filter of a plan is put together from the filter of the source and from what the criteria of the
calls mean. If every group in the source's filter has at least two parts, this stays so, whatever is
called. A resource has no filter to start from, so plans on a resource never ask for rows with
a group of one part or of none, and their requests never contain one.

- `Query.Branches`: queries without such a group in their filter.
- `Query.Branches.restrict`, `Query.Branches.restrictAll`: one more condition, and several of them.
- `Plan.branches_of_addAll`: the two queries of a plan after several calls.
- `Plan.branching_of_addAll`: what criteria compile to, and what plans on a resource ask for.
-/

namespace DataAccess

namespace Query

/-- Every group in the filter, if there is a filter, has at least two parts. -/
def Branches (q : Query) : Prop := ∀ p ∈ q.filter, p.IsBranching

variable {q : Query}

theorem branches_ofResource (name : String) : (ofResource name).Branches := by
  rintro p ⟨⟩

theorem Branches.congr {r : Query} (hq : q.Branches) (h : r.filter = q.filter) : r.Branches := by
  unfold Branches
  rwa [h]

/-- A further condition is joined to the filter, or becomes the filter. -/
theorem Branches.restrict (hq : q.Branches) {p : Predicate} (hp : p.IsBranching) :
    (q.restrict p).Branches := by
  rintro new ⟨⟩
  cases hfilter : q.filter with
  | none => exact hp
  | some old => exact (hq old hfilter).and hp

theorem Branches.restrictAll {conditions : List Predicate} (hq : q.Branches)
    (h : ∀ p ∈ conditions, p.IsBranching) : (q.restrictAll conditions).Branches := by
  induction conditions generalizing q with
  | nil => exact hq
  | cons p rest ih =>
    obtain ⟨hp, hrest⟩ := List.forall_mem_cons.1 h
    exact ih (hq.restrict hp) hrest

/-- The option of the filter holds the text of a filter. -/
theorem Branches.filterText {dialect : Dialect} {body : List Char} (hq : q.Branches)
    (h : "$filter=".toList ++ body ∈ q.optionParts dialect) :
    Predicate.FilterText dialect body := by
  obtain ⟨p, hp, rfl⟩ := filter_mem_optionParts_iff.1 h
  exact Predicate.filterText_chars (hq p hp) dialect

end Query

theorem Addition.isBranching_of_condition? {a : Addition} {p : Predicate}
    (h : a.condition? = some p) : p.IsBranching := by
  have hok : ∀ {r : Except Error Predicate}, r.toOption = some p → r = .ok p := by
    rintro (_ | _) ⟨⟩
    rfl
  cases a with
  | filter criteria => exact Predicate.isBranching_of_ofCriteria (hok h)
  | filterBy c => exact c.isBranching_of_compile (hok h)
  | _ => cases h

namespace Plan

variable {start plan : Plan} {additions : List Addition}

/-- No call makes a group of fewer than two parts. -/
theorem branches_of_addAll (hsource : start.source.toQuery.Branches) (hstart : start.steps = [])
    (h : start.addAll additions = .ok plan) :
    plan.toQuery.Branches ∧ plan.toCountQuery.Branches := by
  have hconditions : ∀ p ∈ additions.filterMap Addition.condition?, p.IsBranching := by
    intro p hp
    obtain ⟨a, -, ha⟩ := List.mem_filterMap.1 hp
    exact Addition.isBranching_of_condition? ha
  have hrows : plan.toQuery.Branches :=
    (hsource.restrictAll hconditions).congr (filter_of_addAll hstart h)
  exact ⟨hrows, hrows.congr plan.filter_toCountQuery⟩

/-- **No degenerate groups.** What criteria compile to, whether they are built or written as arrays,
are exactly the predicates in which every group, at any depth, has at least two parts. Their texts
are exactly those of filters.

Let a plan be made from a resource by calls that succeed. Every group in the filter of its query for
the rows, if there is a filter, has at least two parts, and so it is with its query for the number
of rows. In either dialect the option of the filter then holds a text in which groups have at least
two parts, and neither the text nor anything in parentheses in it is empty. -/
theorem branching_of_addAll :
    (∀ p : Predicate,
      ((∃ c : Criterion, c.compile = .ok p) ↔ p.IsBranching) ∧
        ((∃ v : Value, Predicate.ofCriteria v = .ok p) ↔ p.IsBranching)) ∧
      (∀ dialect text, Predicate.FilterText dialect text ↔
        ∃ p : Predicate, p.IsBranching ∧ p.chars dialect = text) ∧
      ∀ (start plan : Plan) (name : String) (additions : List Addition),
        start.source = .resource name → start.steps = [] →
        start.addAll additions = .ok plan →
        ∀ q ∈ [plan.toQuery, plan.toCountQuery],
          (∀ p, q.filter = some p → p.IsBranching) ∧
            ∀ dialect body, "$filter=".toList ++ body ∈ q.optionParts dialect →
              Predicate.FilterText dialect body ∧ body ≠ [] := by
  refine ⟨fun p => ⟨⟨?_, ?_⟩, ⟨?_, ?_⟩⟩, fun dialect text => Predicate.filterText_iff, ?_⟩
  · rintro ⟨c, hc⟩
    exact c.isBranching_of_compile hc
  · intro hp
    exact ⟨p.toCriterion, Predicate.compile_toCriterion hp⟩
  · rintro ⟨v, hv⟩
    exact Predicate.isBranching_of_ofCriteria hv
  · intro hp
    exact ⟨p.toCriterion.toValue, Predicate.ofCriteria_toCriterion hp⟩
  · intro start plan name additions hsource hstart h q hq
    have hresource : start.source.toQuery.Branches := by
      rw [hsource]
      exact Query.branches_ofResource name
    have hplan := branches_of_addAll hresource hstart h
    have hbranches : q.Branches := by
      rcases List.mem_pair.1 hq with rfl | rfl
      · exact hplan.1
      · exact hplan.2
    refine ⟨hbranches, fun dialect body hbody => ?_⟩
    have htext := hbranches.filterText hbody
    exact ⟨htext, htext.ne_nil⟩

/-- Two criteria, one with groups of one operand inside each other, the other with connectives that
join nothing, are called for among other things. -/
theorem branching_of_addAll_orders :
    let start : Plan := { source := .resource "orders", countTotal := true }
    let nested : Value := .array [.array [.array [.string "city", .string "Oslo"]], .string "or"]
    let loose : Criterion := .group
      [.connective .and, .operand (.leaf "total" ">" (.nat 5)), .connective .and,
        .connective .or, .operand (.negation (.group [.operand (.leaf "paid" "=" (.bool true))]))]
    let additions : List Addition :=
      [.sortBy "date" false, .filter nested, .select ["id"], .filterBy loose, .slice none (some 2)]
    let p : Predicate := .all
      [.comparison "city" .eq (.string "Oslo"),
        .any [.comparison "total" .gt (.nat 5), .negation (.comparison "paid" .eq (.bool true))]]
    ∃ plan, start.source = .resource "orders" ∧ start.steps = [] ∧
      start.addAll additions = .ok plan ∧
      plan.toQuery.filter = some p ∧ plan.toCountQuery.filter = some p ∧ p.IsBranching ∧
      (∃ c : Criterion, c.compile = .ok p) ∧
      Predicate.FilterText .v4
        "(city eq 'Oslo') and ((total gt 5) or (not (paid eq true)))".toList := by
  intro start nested loose additions p
  obtain ⟨plan, hplan, hrows, hcount⟩ : ∃ plan, start.addAll additions = .ok plan ∧
    plan.toQuery.filter = some p ∧ plan.toCountQuery.filter = some p := ⟨_, rfl, rfl, rfl⟩
  obtain ⟨hcompiled, -, hplans⟩ := branching_of_addAll
  obtain ⟨hbranching, htext⟩ := hplans start plan "orders" additions rfl rfl hplan plan.toQuery
    List.mem_cons_self
  have hp := hbranching p hrows
  have hchars : "(city eq 'Oslo') and ((total gt 5) or (not (paid eq true)))".toList =
      p.chars .v4 := by decide +kernel
  refine ⟨plan, rfl, rfl, hplan, hrows, hcount, hp, (hcompiled p).1.2 hp, ?_⟩
  exact (htext .v4 _ (Query.filter_mem_optionParts_iff.2 ⟨p, hrows, hchars⟩)).1

end Plan

end DataAccess
