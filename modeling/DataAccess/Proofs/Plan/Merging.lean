import DataAccess.Proofs.Plan.Additions
import Mathlib.Data.List.TakeWhile

/-!
# Requests for related data

A plan that is asked for related data delivers what was requested and what its source delivers,
each path once. Selecting parts of related data requests that data in the same way.

- `nodup_mergePaths`: merging repeats no path.
- `parentPath?_eq_none_iff`: what has no parent that selecting it could request.
- `Plan.expanded_expand`: what a plan delivers after a request.
- `Plan.toQuery_expand_expand`, `Plan.toCountQuery_expand_expand`: a second request for the same
  paths changes neither query.
- `Plan.Merges`, `Plan.merges_requests`: all of this, of requests of both kinds.
-/

namespace DataAccess

theorem nodup_eraseDups : (l : List String) → l.eraseDups.Nodup
  | [] => List.nodup_nil
  | head :: rest => by
    rw [List.eraseDups_cons, List.nodup_cons]
    refine ⟨fun hmem => ?_, nodup_eraseDups _⟩
    simpa using (List.mem_filter.1 (List.mem_eraseDups.1 hmem)).2
termination_by l => l.length
decreasing_by exact Nat.lt_succ_of_le (List.length_filter_le _ _)

/-- Merging repeats no path, unless the existing paths do. -/
theorem nodup_mergePaths {existing : List String} (h : existing.Nodup) (requested : List String) :
    (mergePaths existing requested).Nodup := by
  rw [mergePaths_eq]
  refine List.nodup_append.2 ⟨nodup_eraseDups _, h, ?_⟩
  rintro path hrequested _ hexisting rfl
  have hnew := (List.mem_filter.1 (List.mem_eraseDups.1 hrequested)).2
  exact of_decide_eq_true hnew hexisting

/-- Only a path of one name has no parent. -/
theorem parentPath?_eq_none_iff {path : String} :
    parentPath? path = none ↔ '.' ∉ path.toList := by
  have hdrop : path.toList.reverse.dropWhile (· ≠ '.') = [] ↔ '.' ∉ path.toList := by
    rw [List.dropWhile_eq_nil_iff]
    constructor
    · intro h hdot
      cases of_decide_eq_true (h '.' (List.mem_reverse.2 hdot)) rfl
    · intro h ch hch
      refine decide_eq_true ?_
      rintro rfl
      exact h (List.mem_reverse.1 hch)
  rw [← hdrop]
  unfold parentPath?
  split
  · rename_i hnone
    exact ⟨fun _ => hnone, fun _ => rfl⟩
  · rename_i hsome
    rw [hsome]
    exact ⟨nofun, nofun⟩

/-- The same paths put in a second time change nothing. -/
theorem Query.expandText_expandText (q : Query) (list : String) :
    (q.expandText list).expandText list = q.expandText list := rfl

namespace Plan

/-- After a request a plan delivers the merged paths, if these can be written as text. -/
theorem expanded_expand (plan : Plan) {requested : List String}
    (hclean : ∀ path, path ∈ requested ∨ path ∈ plan.source.expanded → Text.Clean path.toList) :
    (plan.expand requested).toQuery.expanded = mergePaths plan.source.expanded requested := by
  let merged := mergePaths plan.source.expanded requested
  have hlists : (plan.expand requested).expansions =
      plan.expansions ++ [pathsOfText (listText merged)] := plan.expansions_andThen _
  rw [expanded_toQuery, hlists, List.getLast?_concat, Option.getD_some,
    pathsOfText_listText fun path hpath => hclean path (mem_mergePaths.1 hpath)]

/-- A request replaces the paths that the query delivers. -/
theorem build_expand (plan : Plan) (requested : List String) :
    (plan.expand requested).build (plan.expand requested).steps =
      (plan.build plan.steps).expandText (listText (mergePaths plan.source.expanded requested)) :=
  plan.build_append plan.steps [Addition.expandStep plan.source requested]

/-- A second request for the same paths changes nothing in the query for the rows. -/
theorem toQuery_expand_expand (plan : Plan) (requested : List String) :
    ((plan.expand requested).expand requested).toQuery = (plan.expand requested).toQuery := by
  have hsource : (plan.expand requested).source = plan.source := rfl
  have hcount : ((plan.expand requested).expand requested).countTotal =
      (plan.expand requested).countTotal := rfl
  have hbuild : ((plan.expand requested).expand requested).build
      ((plan.expand requested).expand requested).steps =
        (plan.expand requested).build (plan.expand requested).steps := by
    rw [build_expand, build_expand, hsource, Query.expandText_expandText]
  rw [toQuery_eq, toQuery_eq, hbuild, hcount]

/-- Nor does it change anything in the query for their number. -/
theorem toCountQuery_expand_expand (plan : Plan) (requested : List String) :
    ((plan.expand requested).expand requested).toCountQuery =
      (plan.expand requested).toCountQuery := by
  rw [toCountQuery_eq, toCountQuery_eq, toQuery_expand_expand]
  rfl

/-- What a plan is to deliver when paths were requested beside some that are delivered anyway. -/
structure Merges (plan : Plan) (existing requested : List String) : Prop where
  /-- the new paths, each once in order of first occurrence, and then the existing ones -/
  expanded : plan.toQuery.expanded = (requested.filter (· ∉ existing)).eraseDups ++ existing
  /-- no path is repeated -/
  nodup : plan.toQuery.expanded.Nodup
  /-- no path is lost, and none is added -/
  mem_iff : ∀ path, path ∈ plan.toQuery.expanded ↔ path ∈ requested ∨ path ∈ existing
  /-- a further request for the same paths changes nothing -/
  toQuery_expand : (plan.expand requested).toQuery = plan.toQuery
  toCountQuery_expand : (plan.expand requested).toCountQuery = plan.toCountQuery

theorem merges_expand (plan : Plan) {requested : List String}
    (hnodup : plan.source.expanded.Nodup)
    (hclean : ∀ path, path ∈ requested ∨ path ∈ plan.source.expanded → Text.Clean path.toList) :
    (plan.expand requested).Merges plan.source.expanded requested where
  expanded := (plan.expanded_expand hclean).trans (mergePaths_eq _ _)
  nodup := by
    rw [plan.expanded_expand hclean]
    exact nodup_mergePaths hnodup requested
  mem_iff := by
    intro path
    rw [plan.expanded_expand hclean, mem_mergePaths]
  toQuery_expand := plan.toQuery_expand_expand requested
  toCountQuery_expand := plan.toCountQuery_expand_expand requested

/-- **Requests lose no path and repeat none.** Let the paths that the source of a plan delivers be
different from each other, and let all paths be such as can be written in a list. A plan that is
asked for further paths then delivers those of them that are new, each once in order of first
occurrence, and after them those of its source. The same holds of a plan of which parts are selected
that belong to related data, with the parents of these parts as the paths that are asked for. -/
theorem merges_requests (plan : Plan) (hnodup : plan.source.expanded.Nodup)
    (hbase : ∀ path ∈ plan.source.expanded, Text.Clean path.toList) :
    (∀ requested : List String, (∀ path ∈ requested, Text.Clean path.toList) →
      (plan.expand requested).Merges plan.source.expanded requested) ∧
    ∀ fields : List String, (∃ field ∈ fields, '.' ∈ field.toList) →
      (∀ parent ∈ fields.filterMap parentPath?, Text.Clean parent.toList) →
      (plan.select fields).Merges plan.source.expanded (fields.filterMap parentPath?) := by
  have hboth : ∀ {requested : List String}, (∀ path ∈ requested, Text.Clean path.toList) →
      ∀ path, path ∈ requested ∨ path ∈ plan.source.expanded → Text.Clean path.toList :=
    fun hrequested path hpath => hpath.elim (hrequested path) (hbase path)
  refine ⟨fun requested hclean => plan.merges_expand hnodup (hboth hclean), ?_⟩
  intro fields hdots hclean
  obtain ⟨hnone, -⟩ | ⟨-, hselect⟩ := plan.select_cases fields
  · obtain ⟨field, hfield, hdot⟩ := hdots
    have hparent := List.filterMap_eq_nil_iff.1 hnone field hfield
    exact absurd hdot (parentPath?_eq_none_iff.1 hparent)
  · rw [hselect]
    exact (plan.andThen [.select (listText fields)]).merges_expand hnodup (hboth hclean)

/-- A plan that has requested something else before is asked for the lines twice, for the customer,
which its source delivers, and for the region of the customer. Then parts of two of these are
selected. -/
theorem merges_requests_orders :
    let base : Query := { resource := some "orders", expand := some ["customer", "notes"] }
    let plan := ({ source := .query base } : Plan).expand ["invoices"]
    let requested := ["lines", "customer", "customer.region", "lines"]
    let fields := ["lines.price", "id", "customer.region.name", "lines.amount"]
    plan.source.expanded.Nodup ∧ (∀ path ∈ plan.source.expanded, Text.Clean path.toList) ∧
      (∀ path ∈ requested, Text.Clean path.toList) ∧
      (∃ field ∈ fields, '.' ∈ field.toList) ∧
      (∀ parent ∈ fields.filterMap parentPath?, Text.Clean parent.toList) ∧
      (plan.expand requested).toQuery.expanded =
        ["lines", "customer.region", "customer", "notes"] ∧
      (plan.select fields).toQuery.expanded =
        ["lines", "customer.region", "customer", "notes"] := by
  intro base plan requested fields
  have hnodup : plan.source.expanded.Nodup := by decide
  have hbase : ∀ path ∈ plan.source.expanded, Text.Clean path.toList := by decide
  have hrequested : ∀ path ∈ requested, Text.Clean path.toList := by decide
  have hdots : ∃ field ∈ fields, '.' ∈ field.toList := ⟨"lines.price", by decide, by decide⟩
  have hparents : ∀ parent ∈ fields.filterMap parentPath?, Text.Clean parent.toList := by decide
  obtain ⟨hexpand, hselect⟩ := merges_requests plan hnodup hbase
  exact ⟨hnodup, hbase, hrequested, hdots, hparents, (hexpand requested hrequested).expanded,
    (hselect fields hdots hparents).expanded⟩

end Plan

end DataAccess
