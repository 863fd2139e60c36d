import DataAccess.Proofs.Plan.Expansion
import DataAccess.Proofs.Plan.SortClauses
import Mathlib.Data.List.Basic

/-!
# What a sequence of calls makes of a plan

A plan is made by a sequence of calls, each of which sorts, restricts, selects, expands or cuts.
The calls of one kind write one clause of the query, in the sequence in which they are made, and no
call disturbs what those of another kind wrote. The number of rows is asked with the filter and the
related data of the same calls, and with nothing else that they wrote.

- `Addition`, `Plan.add`, `Plan.addAll`: the calls and what they do.
- `Addition.steps`: the steps that a call stands for.
- `Step.Alike`: steps that make the same queries. A key that is written into the last step acts as
  a step of its own would.
- `Plan.extends_add`, `Plan.extends_addAll`: after one call, and after a sequence of them, a plan is
  as if each had added the steps it stands for.
- `Addition.Writes`: what the steps about one topic write, told by the calls about it.
- `Plan.toCountQuery_eq`: the query for the number of rows.
- `Query.extended`, `Plan.toQuery_of_addAll`: the clauses of both queries after several calls.
-/

namespace DataAccess

attribute [ext] Query

/-! ## Calls -/

/-- What a call, or a step, is about. -/
inductive Topic where
  | sorting | filtering | selecting | expanding | slicing
  deriving DecidableEq

/-- A call that adds to a plan. A single comparison is filtered by as a criterion of its own. -/
inductive Addition where
  | sortBy (field : String) (descending : Bool)
  | thenBy (field : String) (descending : Bool)
  | filter (criteria : Value)
  | filterBy (c : Criterion)
  | select (fields : List String)
  | expand (paths : List String)
  | slice (skip take : Option Nat)

namespace Addition

def topic : Addition → Topic
  | sortBy _ _ | thenBy _ _ => .sorting
  | filter _ | filterBy _ => .filtering
  | select _ => .selecting
  | expand _ => .expanding
  | slice _ _ => .slicing

/-- Whether the fields and paths of a call can be written as text: fields to sort by without commas
and blanks, other entries without commas and without blanks around them, and none of them empty. -/
def IsClean : Addition → Prop
  | sortBy field _ | thenBy field _ => IsFieldName field
  | select entries | expand entries => ∀ entry ∈ entries, Text.Clean entry.toList
  | filter _ | filterBy _ | slice _ _ => True

instance : DecidablePred IsClean
  | sortBy field _ | thenBy field _ => inferInstanceAs (Decidable (IsFieldName field))
  | select entries | expand entries =>
    inferInstanceAs (Decidable (∀ entry ∈ entries, Text.Clean entry.toList))
  | filter _ | filterBy _ | slice _ _ => instDecidableTrue

/-- The sort key that a call adds. -/
def sortItem? : Addition → Option SortItem
  | sortBy field descending | thenBy field descending => some ⟨field, descending⟩
  | filter _ | filterBy _ | select _ | expand _ | slice _ _ => none

/-- The condition on rows that a call adds. -/
def condition? : Addition → Option Predicate
  | filter criteria => (Predicate.ofCriteria criteria).toOption
  | filterBy c => c.compile.toOption
  | sortBy _ _ | thenBy _ _ | select _ | expand _ | slice _ _ => none

/-- The parts of a row that a call selects. -/
def selection? : Addition → Option (List String)
  | select fields => some fields
  | sortBy _ _ | thenBy _ _ | filter _ | filterBy _ | expand _ | slice _ _ => none

/-- How many rows a call wants left out; zero stands for no wish. -/
def skip? : Addition → Option Nat
  | slice skip _ => Plan.given skip
  | sortBy _ _ | thenBy _ _ | filter _ | filterBy _ | select _ | expand _ => none

/-- How many rows a call wants at most; zero stands for no wish. -/
def take? : Addition → Option Nat
  | slice _ take => Plan.given take
  | sortBy _ _ | thenBy _ _ | filter _ | filterBy _ | select _ | expand _ => none

/-- The step that requests related data of a source. -/
def expandStep (source : Source) (paths : List String) : Step :=
  .expand (listText (mergePaths source.expanded paths))

/-- The steps that request what selected parts belong to, if they belong to related data. -/
def parentSteps (source : Source) (fields : List String) : List Step :=
  match fields.filterMap parentPath? with
  | [] => []
  | parents => [expandStep source parents]

/-- The steps that a call stands for. -/
def steps (source : Source) : Addition → List Step
  | sortBy field descending | thenBy field descending => [.orderBy (sortClause field descending)]
  | filter criteria => (Predicate.ofCriteria criteria).toOption.toList.map .restrict
  | filterBy c => c.compile.toOption.toList.map .restrict
  | select fields => .select (listText fields) :: parentSteps source fields
  | expand paths => [expandStep source paths]
  | slice skip take => Plan.cut skip take

end Addition

namespace Plan

/-- Makes a call. -/
def add (plan : Plan) : Addition → Except Error Plan
  | .sortBy field descending => .ok (plan.sortBy field descending)
  | .thenBy field descending => plan.thenBy field descending
  | .filter criteria => plan.filter criteria
  | .filterBy c => plan.filterBy c
  | .select fields => .ok (plan.select fields)
  | .expand paths => .ok (plan.expand paths)
  | .slice skip take => .ok (plan.slice skip take)

/-- Makes one call after the other, each on what the last one gave. -/
def addAll (plan : Plan) (additions : List Addition) : Except Error Plan :=
  additions.foldlM add plan

end Plan

/-! ## Steps that make the same queries -/

namespace Step

/-- Steps that make the same of every query. -/
def Alike (steps others : List Step) : Prop :=
  ∀ q : Query, steps.foldl (fun q step => step.apply q) q =
    others.foldl (fun q step => step.apply q) q

namespace Alike

variable {steps others third : List Step}

theorem refl (steps : List Step) : Alike steps steps := fun _ => rfl

theorem trans (h : Alike steps others) (h' : Alike others third) : Alike steps third :=
  fun q => (h q).trans (h' q)

theorem append_right (h : Alike steps others) (more : List Step) :
    Alike (steps ++ more) (others ++ more) := by
  intro q
  rw [List.foldl_append, List.foldl_append, h q]

/-- A sort key that is written behind others acts as a step of its own would. -/
theorem orderBy_append (before : List Step) (clause more : String) :
    Alike (before ++ [.orderBy (clause ++ "," ++ more)])
      (before ++ [.orderBy clause] ++ [.orderBy more]) := by
  intro q
  simp only [List.foldl_append, List.foldl_cons, List.foldl_nil, apply, Query.orderBy,
    SortItem.listOfText_append, List.append_assoc]

end Alike

end Step

namespace Plan

variable {plan plan' : Plan} {a : Addition}

/-! ## The steps of a plan after several calls -/

/-- A plan after a call: the same source, and steps like those before and the call's own. -/
structure Extends (plan plan' : Plan) (steps : List Step) : Prop where
  source : plan'.source = plan.source
  countTotal : plan'.countTotal = plan.countTotal
  alike : Step.Alike plan'.steps (plan.steps ++ steps)

theorem extends_andThen (plan : Plan) (steps : List Step) :
    plan.Extends (plan.andThen steps) steps :=
  ⟨rfl, rfl, .refl _⟩

theorem select_eq_andThen (plan : Plan) (fields : List String) :
    plan.select fields = plan.andThen (Addition.steps plan.source (.select fields)) := by
  cases hparents : fields.filterMap parentPath? with
  | nil => simp only [select, Addition.steps, Addition.parentSteps, hparents]
  | cons parent parents =>
    simp only [select, Addition.steps, Addition.parentSteps, hparents, expand, andThen_andThen]
    rfl

theorem filter_eq (plan : Plan) (criteria : Value) :
    plan.filter criteria = (Predicate.ofCriteria criteria).map plan.restrict := by
  unfold filter
  cases Predicate.ofCriteria criteria <;> rfl

theorem filterBy_eq (plan : Plan) (c : Criterion) :
    plan.filterBy c = c.compile.map plan.restrict := by
  unfold filterBy
  cases c.compile <;> rfl

/-- A call that filters succeeds only if its criterion can be understood. -/
theorem isSome_condition?_of_add (h : plan.add a = .ok plan') (ha : a.topic = .filtering) :
    a.condition?.isSome = true := by
  have hcompiled : ∀ {r : Except Error Predicate}, r.map plan.restrict = .ok plan' →
      r.toOption.isSome = true := by
    rintro (_ | _) h <;> first | rfl | cases h
  cases a with
  | filter criteria => exact hcompiled ((plan.filter_eq criteria).symm.trans h)
  | filterBy c => exact hcompiled ((plan.filterBy_eq c).symm.trans h)
  | _ => cases ha

/-- Then it adds its condition, and every other call the steps that it stands for, but for a further
key, which goes into the last step. -/
theorem add_eq_andThen (plan : Plan)
    (hthen : ∀ field descending, a ≠ .thenBy field descending)
    (hcondition : a.topic = .filtering → a.condition?.isSome = true) :
    plan.add a = .ok (plan.andThen (a.steps plan.source)) := by
  have hcompiled : ∀ {r : Except Error Predicate}, r.toOption.isSome = true →
      r.map plan.restrict = .ok (plan.andThen (r.toOption.toList.map .restrict)) := by
    rintro (_ | _) h <;> first | rfl | cases h
  cases a with
  | thenBy field descending => exact absurd rfl (hthen field descending)
  | filter criteria => exact (plan.filter_eq criteria).trans (hcompiled (hcondition rfl))
  | filterBy c => exact (plan.filterBy_eq c).trans (hcompiled (hcondition rfl))
  | select fields => exact congrArg Except.ok (plan.select_eq_andThen fields)
  | sortBy | expand | slice => rfl

/-- A key that goes into the last step acts as a step of its own would. -/
theorem extends_thenBy {field : String} {descending : Bool}
    (h : plan.thenBy field descending = .ok plan') :
    plan.Extends plan' [.orderBy (sortClause field descending)] := by
  obtain ⟨before, clause, hsteps, rfl⟩ := thenBy_eq_ok_iff.1 h
  refine ⟨rfl, rfl, ?_⟩
  rw [hsteps]
  exact Step.Alike.orderBy_append before clause _

/-- A call adds the steps it stands for, or what makes the same queries. -/
theorem extends_add (h : plan.add a = .ok plan') :
    plan.Extends plan' (a.steps plan.source) := by
  by_cases hthen : ∃ field descending, a = .thenBy field descending
  · obtain ⟨field, descending, rfl⟩ := hthen
    exact extends_thenBy h
  · rw [add_eq_andThen plan (fun field descending ha => hthen ⟨field, descending, ha⟩)
      (isSome_condition?_of_add h)] at h
    cases h
    exact plan.extends_andThen _

/-- Of several calls the first is made on the plan, and the others on what it gave. -/
theorem addAll_cons_eq_ok_iff {rest : List Addition} :
    plan.addAll (a :: rest) = .ok plan' ↔
      ∃ next, plan.add a = .ok next ∧ next.addAll rest = .ok plan' := by
  unfold addAll
  rw [List.foldlM_cons]
  cases plan.add a with
  | error e => exact ⟨nofun, fun ⟨_, h, _⟩ => nomatch h⟩
  | ok next => exact ⟨fun h => ⟨next, rfl, h⟩, fun ⟨_, rfl, h⟩ => h⟩

/-- After a sequence of calls a plan is as if each had added the steps it stands for. -/
theorem extends_addAll {additions : List Addition} (h : plan.addAll additions = .ok plan') :
    plan.Extends plan' (additions.flatMap (Addition.steps plan.source)) := by
  induction additions generalizing plan with
  | nil =>
    cases h
    refine ⟨rfl, rfl, ?_⟩
    rw [List.flatMap_nil, List.append_nil]
    exact .refl _
  | cons a rest ih =>
    obtain ⟨next, hadd, hrest⟩ := addAll_cons_eq_ok_iff.1 h
    have hfirst := extends_add hadd
    have hothers := ih hrest
    refine ⟨hothers.source.trans hfirst.source, hothers.countTotal.trans hfirst.countTotal, ?_⟩
    have halike := hothers.alike.trans (hfirst.alike.append_right _)
    rwa [hfirst.source, List.append_assoc] at halike

end Plan

/-! ## What the steps of a call write -/

namespace Step

def topic : Step → Topic
  | orderBy _ => .sorting
  | restrict _ => .filtering
  | select _ => .selecting
  | expand _ => .expanding
  | skip _ | take _ => .slicing

/-- The parts of a row that a step selects. -/
def selection? : Step → Option (List String)
  | select fields => some (pathsOfText fields)
  | orderBy _ | restrict _ | expand _ | skip _ | take _ => none

/-- The request for related data that a step writes, where no data is no request. -/
def expandClause? : Step → Option (Option (List String))
  | expand paths => some (({} : Query).expandText paths).expand
  | orderBy _ | restrict _ | select _ | skip _ | take _ => none

theorem select_apply (step : Step) (q : Query) :
    some (step.apply q).select = step.selection?.or (some q.select) := by
  cases step <;> rfl

theorem expand_apply (step : Step) (q : Query) :
    some (step.apply q).expand = step.expandClause?.or (some q.expand) := by
  cases step <;> rfl

end Step

namespace Plan

theorem select_build (plan : Plan) (steps : List Step) :
    (plan.build steps).select =
      (steps.filterMap Step.selection?).getLast?.getD plan.source.toQuery.select := by
  have hlast := @build_of_replaced _ (fun q => some q.select) _ Step.select_apply plan steps
  rw [Option.or_some] at hlast
  exact Option.some.inj hlast

theorem expand_build (plan : Plan) (steps : List Step) :
    (plan.build steps).expand =
      (steps.filterMap Step.expandClause?).getLast?.getD plan.source.toQuery.expand := by
  have hlast := @build_of_replaced _ (fun q => some q.expand) _ Step.expand_apply plan steps
  rw [Option.or_some] at hlast
  exact Option.some.inj hlast

/-- Rows are counted with the filter and the related data of the query for the rows. Everything
else is as it stands in the source, but that no row is delivered and the total is. -/
theorem toCountQuery_eq (plan : Plan) :
    plan.toCountQuery =
      { plan.source.toQuery with
        filter := plan.toQuery.filter
        expand := plan.toQuery.expand
        take := some 0
        countTotal := true } := by
  have hsilent : ∀ {α : Type} {part : Step → Option α},
      (∀ step : Step, step.countsFor = true → part step = none) →
      (plan.steps.filter Step.countsFor).filterMap part = [] := by
    intro α part hpart
    refine List.filterMap_eq_nil_iff.2 fun step hstep => ?_
    exact hpart step (List.mem_filter.1 hstep).2
  have hexpand : (plan.steps.filter Step.countsFor).filterMap Step.expandClause? =
      plan.steps.filterMap Step.expandClause? := by
    rw [List.filterMap_filter]
    refine List.filterMap_congr fun step _ => ?_
    cases step <;> rfl
  have hfilter := plan.filter_toCountQuery
  rw [toQuery_eq] at hfilter ⊢
  unfold toCountQuery at hfilter ⊢
  refine Query.ext (plan.resource_build _) hfilter ?_ ?_ ?_ ?_ rfl rfl
  · show (plan.build _).order = _
    exact plan.order_toCountQuery
  · show (plan.build _).expand = (plan.build _).expand
    rw [expand_build, expand_build, hexpand]
  · show (plan.build _).select = _
    rw [select_build, hsilent (by rintro (_ | _) h <;> first | rfl | cases h)]
    rfl
  · show (plan.build _).skip = _
    rw [skip_build, hsilent (by rintro (_ | _) h <;> first | rfl | cases h)]
    rfl

end Plan

namespace Addition

variable {α : Type} {part : Step → Option α} {own : Addition → Option α} {topic : Topic}
  {a : Addition} {additions others : List Addition} {source : Source}

/-- The steps of a call are about what the call is about, or they request related data. -/
theorem topic_of_mem_steps {step : Step} (h : step ∈ a.steps source) :
    step.topic = a.topic ∨ step.topic = .expanding := by
  cases a with
  | sortBy field descending | thenBy field descending =>
    cases List.mem_singleton.1 h
    exact .inl rfl
  | filter criteria | filterBy c =>
    obtain ⟨p, _, rfl⟩ := List.mem_map.1 h
    exact .inl rfl
  | select fields =>
    rcases List.mem_cons.1 h with rfl | h
    · exact .inl rfl
    · unfold parentSteps at h
      split at h
      · cases h
      · cases List.mem_singleton.1 h
        exact .inr rfl
  | expand paths =>
    cases List.mem_singleton.1 h
    exact .inl rfl
  | slice skip take =>
    rcases List.mem_append.1 h with h | h <;>
    · obtain ⟨n, _, rfl⟩ := List.mem_map.1 h
      exact .inl rfl

/-- What the steps about a topic write, told by the calls about that topic. -/
structure Writes (topic : Topic) (part : Step → Option α) (own : Addition → Option α) : Prop where
  part_eq_none : ∀ step : Step, step.topic ≠ topic → part step = none
  own_eq_none : ∀ a : Addition, a.topic ≠ topic → own a = none
  of_topic : ∀ (source : Source) (a : Addition), a.IsClean → a.topic = topic →
    (a.steps source).filterMap part = (own a).toList

namespace Writes

/-- A call about something else writes nothing, not even where it requests related data too. -/
theorem filterMap_steps (h : Writes topic part own) (htopic : topic ≠ .expanding)
    (source : Source) (ha : a.topic = topic → a.IsClean) :
    (a.steps source).filterMap part = (own a).toList := by
  by_cases hsame : a.topic = topic
  · exact h.of_topic source a (ha hsame) hsame
  · rw [h.own_eq_none a hsame]
    refine List.filterMap_eq_nil_iff.2 fun step hstep => h.part_eq_none step ?_
    rcases topic_of_mem_steps hstep with hstep | hstep
    · rwa [hstep]
    · rw [hstep]
      exact htopic.symm

/-- What several calls write is put together from what each writes. -/
theorem filterMap_flatMap_steps (h : Writes topic part own) (htopic : topic ≠ .expanding)
    (source : Source) (hclean : ∀ a ∈ additions, a.topic = topic → a.IsClean) :
    (additions.flatMap (steps source)).filterMap part = additions.filterMap own := by
  rw [List.filterMap_flatMap, List.filterMap_eq_flatMap_toList]
  exact List.flatMap_congr fun a ha => h.filterMap_steps htopic source (hclean a ha)

theorem filterMap_filter (h : Writes topic part own) (additions : List Addition) :
    (additions.filter (fun a => a.topic = topic)).filterMap own = additions.filterMap own := by
  rw [List.filterMap_filter]
  refine List.filterMap_congr fun a _ => ?_
  by_cases ha : a.topic = topic
  · simp [ha]
  · simp [ha, h.own_eq_none a ha]

/-- What calls write depends only on those of them that are about the topic. -/
theorem congr (h : Writes topic part own)
    (hsame : additions.filter (fun a => a.topic = topic) =
      others.filter (fun a => a.topic = topic)) :
    additions.filterMap own = others.filterMap own := by
  rw [← h.filterMap_filter additions, hsame, h.filterMap_filter]

end Writes

theorem writes_sortKeys :
    Writes .sorting Step.sortKeys? fun a => a.sortItem?.map fun item => [item] where
  part_eq_none := by rintro (_ | _) h <;> first | rfl | exact absurd rfl h
  own_eq_none := by rintro (_ | _) h <;> first | rfl | exact absurd rfl h
  of_topic := by
    intro source a hclean ha
    cases a with
    | sortBy field descending | thenBy field descending =>
      show [SortItem.listOfText (sortClause field descending)] = _
      rw [SortItem.listOfText_sortClause hclean]
      rfl
    | _ => cases ha

theorem flatten_sortKeys (additions : List Addition) :
    (additions.filterMap fun a => a.sortItem?.map fun item => [item]).flatten =
      additions.filterMap sortItem? := by
  rw [← List.map_filterMap]
  exact List.flatMap_singleton' _

theorem writes_conditions : Writes .filtering Step.condition? condition? where
  part_eq_none := by rintro (_ | _) h <;> first | rfl | exact absurd rfl h
  own_eq_none := by rintro (_ | _) h <;> first | rfl | exact absurd rfl h
  of_topic := by
    intro source a _ ha
    cases a with
    | filter criteria | filterBy c => exact (Step.filterMap_map_restrict _).1
    | _ => cases ha

theorem writes_selections : Writes .selecting Step.selection? selection? where
  part_eq_none := by rintro (_ | _) h <;> first | rfl | exact absurd rfl h
  own_eq_none := by rintro (_ | _) h <;> first | rfl | exact absurd rfl h
  of_topic := by
    intro source a hclean ha
    cases a with
    | select fields =>
      have hparents : (parentSteps source fields).filterMap Step.selection? = [] := by
        unfold parentSteps
        split <;> rfl
      show pathsOfText (listText fields) :: (parentSteps source fields).filterMap _ = [fields]
      rw [hparents, pathsOfText_listText hclean]
    | _ => cases ha

theorem writes_skips : Writes .slicing Step.skip? skip? where
  part_eq_none := by rintro (_ | _) h <;> first | rfl | exact absurd rfl h
  own_eq_none := by rintro (_ | _) h <;> first | rfl | exact absurd rfl h
  of_topic := by
    intro source a _ ha
    cases a with
    | slice skip take => exact Plan.skip?_cut skip take
    | _ => cases ha

theorem writes_takes : Writes .slicing Step.take? take? where
  part_eq_none := by rintro (_ | _) h <;> first | rfl | exact absurd rfl h
  own_eq_none := by rintro (_ | _) h <;> first | rfl | exact absurd rfl h
  of_topic := by
    intro source a _ ha
    cases a with
    | slice skip take => exact Plan.take?_cut skip take
    | _ => cases ha

end Addition

/-! ## The queries of a plan after several calls -/

/-- What calls make of a query, related data and the total apart. -/
def Query.extended (base : Query) (additions : List Addition) : Query :=
  { base with
    filter := (base.restrictAll (additions.filterMap Addition.condition?)).filter
    order := base.order ++ additions.filterMap Addition.sortItem?
    select := (additions.filterMap Addition.selection?).getLast?.getD base.select
    skip := (additions.filterMap Addition.skip?).getLast?.or base.skip
    take := (additions.filterMap Addition.take?).getLast?.or base.take }

/-- Only the sequence of the calls about each topic matters. -/
theorem Query.extended_congr (base : Query) {additions others : List Addition}
    (h : ∀ topic, topic ≠ .expanding →
      additions.filter (fun a => a.topic = topic) = others.filter (fun a => a.topic = topic)) :
    base.extended additions = base.extended others := by
  have hsort := congrArg List.flatten (Addition.writes_sortKeys.congr (h .sorting (by decide)))
  rw [Addition.flatten_sortKeys, Addition.flatten_sortKeys] at hsort
  unfold extended
  rw [hsort, Addition.writes_conditions.congr (h .filtering (by decide)),
    Addition.writes_selections.congr (h .selecting (by decide)),
    Addition.writes_skips.congr (h .slicing (by decide)),
    Addition.writes_takes.congr (h .slicing (by decide))]

namespace Plan

/-- The steps of several calls make what they would make of the source one after the other. -/
theorem build_of_extends {start plan : Plan} {additions : List Addition}
    (hstart : start.steps = [])
    (h : start.Extends plan (additions.flatMap (Addition.steps start.source))) :
    plan.build plan.steps =
      start.build (additions.flatMap (Addition.steps start.source)) := by
  have hmade := h.alike start.source.toQuery
  rw [hstart, List.nil_append] at hmade
  unfold build
  rw [h.source]
  exact hmade

/-- The query for the rows after several calls. -/
theorem toQuery_of_extends {start plan : Plan} {additions : List Addition}
    (hstart : start.steps = []) (hclean : ∀ a ∈ additions, a.IsClean)
    (h : start.Extends plan (additions.flatMap (Addition.steps start.source))) :
    plan.toQuery =
      { start.source.toQuery.extended additions with
        expand := plan.toQuery.expand
        countTotal := start.countTotal || start.source.toQuery.countTotal } := by
  have hown : ∀ {topic : Topic}, ∀ a ∈ additions, a.topic = topic → a.IsClean :=
    fun a ha _ => hclean a ha
  rw [toQuery_eq, build_of_extends hstart h, h.countTotal]
  refine Query.ext (resource_build _ _) ?_ ?_ rfl ?_ ?_ ?_ ?_
  · show (start.build _).filter = _
    rw [filter_build, Addition.writes_conditions.filterMap_flatMap_steps (by decide) _ hown]
    rfl
  · show (start.build _).order = _
    rw [order_build, Addition.writes_sortKeys.filterMap_flatMap_steps (by decide) _ hown,
      Addition.flatten_sortKeys]
    rfl
  · show (start.build _).select = _
    rw [select_build, Addition.writes_selections.filterMap_flatMap_steps (by decide) _ hown]
    rfl
  · show (start.build _).skip = _
    rw [skip_build, Addition.writes_skips.filterMap_flatMap_steps (by decide) _ hown]
    rfl
  · show (start.build _).take = _
    rw [take_build, Addition.writes_takes.filterMap_flatMap_steps (by decide) _ hown]
    rfl
  · show (start.countTotal || (start.build _).countTotal) = _
    rw [countTotal_build]

/-- **The clauses of a plan after any calls.** Let a plan be made from its source by calls that
succeed, with fields and paths that can be written as text. Its query for the rows keeps the
resource of the source. The keys that were sorted by come after those of the source, the conditions
are joined to its filter, each in the sequence of the calls. The last selection counts, and so do
the last positive counts of a cut, and where there are none those of the source. The total is asked
for if the source or the plan asks for it.

The query for the number of rows has the same filter and the same related data, delivers no rows,
asks for the total and is the query of the source in everything else.

So calls that succeed too, and of which those about each topic are the same in the same sequence,
make the same query for the rows up to the related data. -/
theorem toQuery_of_addAll {start plan : Plan} {additions : List Addition}
    (hstart : start.steps = []) (hclean : ∀ a ∈ additions, a.IsClean)
    (h : start.addAll additions = .ok plan) :
    plan.toQuery =
        { start.source.toQuery.extended additions with
          expand := plan.toQuery.expand
          countTotal := start.countTotal || start.source.toQuery.countTotal } ∧
      plan.toCountQuery =
        { start.source.toQuery with
          filter := plan.toQuery.filter
          expand := plan.toQuery.expand
          take := some 0
          countTotal := true } ∧
      ∀ (others : List Addition) (plan' : Plan), (∀ a ∈ others, a.IsClean) →
        start.addAll others = .ok plan' →
        (∀ topic, topic ≠ .expanding →
          additions.filter (fun a => a.topic = topic) =
            others.filter (fun a => a.topic = topic)) →
        plan'.toQuery = { plan.toQuery with expand := plan'.toQuery.expand } := by
  have hextends := extends_addAll h
  have hquery := toQuery_of_extends hstart hclean hextends
  refine ⟨hquery, ?_, ?_⟩
  · have hcount := plan.toCountQuery_eq
    rwa [hextends.source] at hcount
  · intro others plan' hclean' h' hsame
    have hquery' := toQuery_of_extends hstart hclean' (extends_addAll h')
    rw [← Query.extended_congr _ hsame] at hquery'
    rw [hquery', hquery]

/-- Orders of the second half of the list, with what is sorted by, selected and delivered already,
are narrowed down by calls of every kind. The calls are made in another sequence too, with another
request for related data. -/
theorem toQuery_of_addAll_orders :
    let base : Query :=
      { resource := some "orders", order := [⟨"id", false⟩], expand := some ["lines"]
        filter := some (.comparison "open" .eq (.bool true)), skip := some 10 }
    let start : Plan := { source := .query base, countTotal := true }
    let additions : List Addition :=
      [.sortBy "customer.name" true, .thenBy "date" false,
        .filterBy (.leaf "total" ">" (.string "5")), .select ["id", "customer.name"],
        .slice (some 0) (some 3), .filter (.array [.string "paid", .string "=", .bool false]),
        .expand ["lines"]]
    let others : List Addition :=
      [.filterBy (.leaf "total" ">" (.string "5")),
        .filter (.array [.string "paid", .string "=", .bool false]), .slice (some 0) (some 3),
        .expand ["customer"], .sortBy "customer.name" true, .thenBy "date" false,
        .select ["id", "customer.name"]]
    let conditions : Predicate :=
      .all [.comparison "open" .eq (.bool true), .comparison "total" .gt (.string "5"),
        .comparison "paid" .eq (.bool false)]
    ∃ plan plan', start.addAll additions = .ok plan ∧ start.addAll others = .ok plan' ∧
      plan.toQuery.filter = some conditions ∧ plan.toCountQuery.filter = some conditions ∧
      plan.toQuery.order = [⟨"id", false⟩, ⟨"customer.name", true⟩, ⟨"date", false⟩] ∧
      plan.toQuery.select = ["id", "customer.name"] ∧
      plan.toQuery.skip = some 10 ∧ plan.toQuery.take = some 3 ∧
      plan.toQuery.countTotal = true ∧
      plan.toCountQuery.order = [⟨"id", false⟩] ∧ plan.toCountQuery.take = some 0 ∧
      plan'.toQuery = { plan.toQuery with expand := plan'.toQuery.expand } := by
  intro base start additions others conditions
  obtain ⟨plan, hplan⟩ : ∃ plan, start.addAll additions = .ok plan := ⟨_, rfl⟩
  obtain ⟨plan', hplan'⟩ : ∃ plan', start.addAll others = .ok plan' := ⟨_, rfl⟩
  have hstart : start.steps = [] := rfl
  have hclean : ∀ a ∈ additions, a.IsClean := by decide
  have hclean' : ∀ a ∈ others, a.IsClean := by decide
  obtain ⟨hquery, hcount, hothers⟩ := toQuery_of_addAll hstart hclean hplan
  have hfilter : plan.toQuery.filter = some conditions := by
    rw [hquery]
    rfl
  refine ⟨plan, plan', hplan, hplan', hfilter, ?_, ?_, ?_, ?_, ?_, ?_, ?_, ?_, ?_⟩
  · rw [hcount]
    exact hfilter
  · rw [hquery]
    rfl
  · rw [hquery]
    rfl
  · rw [hquery]
    rfl
  · rw [hquery]
    rfl
  · rw [hquery]
    rfl
  · rw [hcount]
    rfl
  · rw [hcount]
  · refine hothers others plan' hclean' hplan' ?_
    rintro (_ | _) htopic <;> first | rfl | exact absurd rfl htopic

end Plan

end DataAccess
