import DataAccess.Proofs.Plan.Clauses

/-!
# Which related data a plan delivers

A query has one list of paths to related data, and every step that expands writes that list anew.
So it is the last such step that counts. A step that expands merges what is requested with what the
source of the plan delivers, but not with what steps before it requested.

- `Plan.expansions`: the lists of paths that the steps of a plan write, one after the other.
- `Plan.expanded_toQuery`: the last of these lists is what the query delivers.
- `mergePaths_eq`, `mem_mergePaths`: merging loses no path; `pathsOfText_listText`: neither does
  writing.
- `parentPath?_eq_some_iff`: the parent of a path.
- `Plan.expansions_expand`, `Plan.expansions_select`: what the steps add to the lists.
-/

namespace DataAccess

/-! ## Lists of paths -/

theorem foldl_mergePaths (existing requested merged : List String) :
    requested.foldl (fun merged path =>
        if path ∈ merged ∨ path ∈ existing then merged else merged ++ [path]) merged =
      merged ++ (requested.filter fun path => ¬(path ∈ merged ∨ path ∈ existing)).eraseDups := by
  induction requested generalizing merged with
  | nil => exact (List.append_nil merged).symm
  | cons head rest ih =>
    rw [List.foldl_cons, ih]
    by_cases hhead : head ∈ merged ∨ head ∈ existing
    · rw [if_pos hhead, List.filter_cons_of_neg (by simpa using hhead.resolve_left)]
    · rw [if_neg hhead, List.filter_cons_of_pos (by simpa using hhead), List.eraseDups_cons,
        List.filter_filter, List.append_assoc, List.singleton_append]
      -- further requests for the same path are passed over
      congr 3
      refine List.filter_congr fun path _ => Bool.eq_iff_iff.2 ?_
      simp [and_left_comm, and_comm]

/-- Merging takes the requested paths that are not among the existing ones, each once in order of
first occurrence, and then the existing ones. -/
theorem mergePaths_eq (existing requested : List String) :
    mergePaths existing requested =
      (requested.filter (· ∉ existing)).eraseDups ++ existing := by
  unfold mergePaths
  rw [foldl_mergePaths, List.nil_append]
  simp

/-- Merging keeps every path, requested or existing, and adds none. -/
theorem mem_mergePaths {existing requested : List String} {path : String} :
    path ∈ mergePaths existing requested ↔ path ∈ requested ∨ path ∈ existing := by
  rw [mergePaths_eq, List.mem_append, List.mem_eraseDups, List.mem_filter, decide_eq_true_iff]
  by_cases h : path ∈ existing <;> simp [h]

/-- A written list of clean paths is read back. -/
theorem pathsOfText_listText {paths : List String}
    (h : ∀ path ∈ paths, Text.Clean path.toList) : pathsOfText (listText paths) = paths := by
  have hclean : ∀ piece ∈ paths.map String.toList, Text.Clean piece := by
    intro piece hpiece
    obtain ⟨path, hpath, rfl⟩ := List.mem_map.1 hpiece
    exact h path hpath
  unfold pathsOfText listText
  rw [String.toList_ofList, Text.items_join hclean, List.map_map]
  exact List.map_id'' (fun path => String.ofList_toList) paths

/-- The parent of a path is what stands before its last dot. -/
theorem parentPath?_eq_some_iff {path parent : String} :
    parentPath? path = some parent ↔
      ∃ last, '.' ∉ last ∧ path.toList = parent.toList ++ '.' :: last := by
  unfold parentPath?
  constructor
  · intro h
    split at h
    · cases h
    · rename_i dot before hdrop
      cases h
      have hdot : dot = '.' := by
        have hstop := List.head?_dropWhile_not (· ≠ '.') path.toList.reverse
        rw [hdrop] at hstop
        simpa using hstop
      have hcut := List.takeWhile_append_dropWhile (p := (· ≠ '.')) (l := path.toList.reverse)
      rw [hdrop, hdot] at hcut
      refine ⟨(path.toList.reverse.takeWhile (· ≠ '.')).reverse, ?_, ?_⟩
      · intro hmem
        simpa using List.all_eq_true.1 List.all_takeWhile '.' (List.mem_reverse.1 hmem)
      · have hback := congrArg List.reverse hcut
        rw [List.reverse_append, List.reverse_cons, List.reverse_reverse,
          List.append_assoc] at hback
        rw [String.toList_ofList]
        exact hback.symm
  · rintro ⟨last, hlast, hpath⟩
    have hskip : ∀ ch ∈ last.reverse, decide (ch ≠ '.') = true := by
      intro ch hch
      refine decide_eq_true ?_
      rintro rfl
      exact hlast (List.mem_reverse.1 hch)
    rw [hpath, List.reverse_append, List.reverse_cons, List.append_assoc,
      List.dropWhile_append_of_pos hskip]
    simp

/-! ## Steps -/

theorem Query.expanded_expandText (q : Query) (list : String) :
    (q.expandText list).expanded = pathsOfText list := by
  unfold expandText expanded
  cases pathsOfText list <;> rfl

/-- The list of paths that a step writes, if it expands. -/
def Step.expansion? : Step → Option (List String)
  | expand paths => some (pathsOfText paths)
  | orderBy _ | restrict _ | select _ | skip _ | take _ => none

theorem Step.expanded_apply (step : Step) (q : Query) :
    some (step.apply q).expanded = step.expansion?.or (some q.expanded) := by
  cases step with
  | expand paths => exact congrArg some (q.expanded_expandText paths)
  | _ => rfl

theorem Source.expanded_toQuery (source : Source) :
    source.toQuery.expanded = source.expanded := by
  cases source <;> rfl

namespace Plan

variable {plan plan' : Plan}

/-- The lists of paths that the steps of a plan write, the first one first. -/
def expansions (plan : Plan) : List (List String) := plan.steps.filterMap Step.expansion?

/-- The query for the rows delivers the last list, or else what the source delivers. -/
theorem expanded_toQuery (plan : Plan) :
    plan.toQuery.expanded = plan.expansions.getLast?.getD plan.source.expanded := by
  have hbuild : (plan.build plan.steps).expanded =
      plan.expansions.getLast?.getD plan.source.expanded := by
    have hlast := @build_of_replaced _ (fun q => some q.expanded) _ Step.expanded_apply plan
      plan.steps
    rw [Option.or_some, Source.expanded_toQuery] at hlast
    exact Option.some.inj hlast
  unfold toQuery
  dsimp only
  split <;> exact hbuild

/-! ## What each addition to a plan writes -/

@[simp] theorem expansions_andThen (plan : Plan) (steps : List Step) :
    (plan.andThen steps).expansions = plan.expansions ++ steps.filterMap Step.expansion? :=
  List.filterMap_append

theorem expansions_restricted (plan : Plan) (conditions : List Predicate) :
    (plan.andThen (conditions.map .restrict)).expansions = plan.expansions := by
  rw [expansions_andThen, List.filterMap_map]
  simp [Function.comp_def, Step.expansion?]

theorem expansions_sorted (plan : Plan) (clauses : List String) :
    (plan.andThen (clauses.map .orderBy)).expansions = plan.expansions := by
  rw [expansions_andThen, List.filterMap_map]
  simp [Function.comp_def, Step.expansion?]

@[simp] theorem expansions_slice (plan : Plan) (skip take : Option Nat) :
    (plan.slice skip take).expansions = plan.expansions := by
  unfold slice
  rw [expansions_andThen, List.filterMap_append, List.filterMap_map, List.filterMap_map]
  simp [Function.comp_def, Step.expansion?]

/-- The list that a request for paths writes: none if nothing is requested. -/
def expansionFor (existing requested : List String) : List (List String) :=
  if requested = [] then [] else [pathsOfText (listText (mergePaths existing requested))]

theorem expansionFor_nil (existing : List String) : expansionFor existing [] = [] := rfl

/-- A list that is written last is what counts. -/
theorem mem_getLast?_append_expansionFor {existing requested : List String}
    (hsome : requested ≠ [])
    (hclean : ∀ path, path ∈ requested ∨ path ∈ existing → Text.Clean path.toList)
    (before : List (List String)) (other : List String) {path : String} :
    path ∈ (before ++ expansionFor existing requested).getLast?.getD other ↔
      path ∈ requested ∨ path ∈ existing := by
  have hread : expansionFor existing requested = [mergePaths existing requested] := by
    unfold expansionFor
    rw [if_neg hsome, pathsOfText_listText fun path h => hclean path (mem_mergePaths.1 h)]
  rw [hread, List.getLast?_concat, Option.getD_some, mem_mergePaths]

theorem expansions_expand (plan : Plan) {paths : List String} (h : paths ≠ []) :
    (plan.expand paths).expansions =
      plan.expansions ++ expansionFor plan.source.expanded paths := by
  unfold expansionFor
  rw [if_neg h]
  exact plan.expansions_andThen _

/-- Selecting requests the parents of what is selected. -/
theorem expansions_select (plan : Plan) (fields : List String) :
    (plan.select fields).expansions =
      plan.expansions ++ expansionFor plan.source.expanded (fields.filterMap parentPath?) := by
  have hselected : (plan.andThen [.select (listText fields)]).expansions = plan.expansions :=
    (plan.expansions_andThen _).trans (List.append_nil _)
  obtain ⟨hnone, hselect⟩ | ⟨hsome, hselect⟩ := plan.select_cases fields
  · rw [hselect, hnone, hselected]
    exact (List.append_nil _).symm
  · rw [hselect, expansions_expand _ hsome, hselected]
    rfl

@[simp] theorem source_select (plan : Plan) (fields : List String) :
    (plan.select fields).source = plan.source := by
  obtain ⟨-, hselect⟩ | ⟨-, hselect⟩ := plan.select_cases fields
  · rw [hselect]
    rfl
  · rw [hselect]
    rfl

end Plan

end DataAccess
