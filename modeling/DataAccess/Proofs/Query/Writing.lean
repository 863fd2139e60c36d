import DataAccess.Proofs.Filter.Writing
import DataAccess.Query.OData

/-!
# What the text of a query determines

The options of a query are the options of no other query, apart from the resource that is asked.
The filter comes first and ends where its predicate ends, even if a literal in it looks like a
further option. The other options hold no `&` and no two of their labels start alike.

- `Query.eq_of_listBody?_eq`: the items of a list are found in its text.
- `Query.eq_of_flatMap_labelled_eq`: options are told apart by their labels.
- `Query.clauses`, `Query.optionParts_eq`: the options after the filter, by their labels.
- `Query.filter_mem_optionParts_iff`: the option of the filter.
- `Query.WellFormed`: the queries that the text is made for.
- `Query.eq_of_optionChars_eq`: the filter and the further options are found in the text.
- `Query.options_eq_iff`: two queries with the same options differ in the resource at most.
-/

namespace DataAccess

/-! ## Sort keys and lists of paths -/

theorem SortItem.chars_eq (item : SortItem) :
    item.chars = pathChars item.path ++ if item.descending then " desc".toList else [] := by
  unfold chars
  split
  · rfl
  · exact (List.append_nil _).symm

/-- Sort keys are told apart by their texts. -/
theorem SortItem.chars_injective {item other : SortItem} (h : isPath item.path = true)
    (h' : isPath other.path = true) (heq : item.chars = other.chars) : item = other := by
  have hstop : ∀ descending : Bool,
      ∀ c ∈ (if descending then " desc".toList else ([] : List Char)).head?,
        isWordChar c = false := by
    have hblank : " desc".toList = ' ' :: "desc".toList := by decide
    intro descending
    cases descending with
    | true =>
      rw [if_pos rfl, hblank]
      exact head_not_word ' ' rfl _
    | false => nofun
  rw [chars_eq, chars_eq] at heq
  -- the path ends at the blank before the direction, or with the text
  obtain ⟨hpath, hdirection⟩ := eq_of_pathChars_append_eq h h' (hstop _) (hstop _) heq
  have hflag : ∀ d d' : Bool,
      (if d then " desc".toList else ([] : List Char)) = (if d' then " desc".toList else []) →
        d = d' := by
    decide
  have hdescending : item.descending = other.descending := hflag _ _ hdirection
  obtain ⟨path, descending⟩ := item
  cases hpath
  cases hdescending
  rfl

/-- Paths are written with the characters of words only. -/
theorem notMem_pathChars {path : String} (h : isPath path = true) {c : Char}
    (hc : isWordChar c = false) : c ∉ pathChars path := by
  intro hmem
  rw [isWordChar_of_mem_pathChars h c hmem] at hc
  cases hc

/-- Sort keys are written with the characters of words and blanks. -/
theorem SortItem.notMem_chars {item : SortItem} (h : isPath item.path = true) {c : Char}
    (hc : (isWordChar c || c = ' ') = false) : c ∉ item.chars := by
  have hdirection : " desc".toList.all (fun c => isWordChar c || c = ' ') = true := by decide
  intro hmem
  rw [chars_eq, List.mem_append] at hmem
  rcases hmem with hmem | hmem
  · exact notMem_pathChars h (Bool.or_eq_false_iff.1 hc).1 hmem
  · split at hmem
    · rw [List.all_eq_true.1 hdirection c hmem] at hc
      cases hc
    · cases hmem

namespace Query

/-- A list as the body of an option; an empty list calls for no option. -/
def listBody? {α : Type} (chars : α → List Char) (items : List α) : Option (List Char) :=
  if items.isEmpty then none else some (Text.join [','] (items.map chars))

/-- Lists of things that are told apart by their texts are told apart by the options that they
call for, if no text is empty or holds a comma. -/
theorem eq_of_listBody?_eq {α : Type} {chars : α → List Char} {kind : α → Prop}
    (hinj : ∀ a b, kind a → kind b → chars a = chars b → a = b)
    (hchars : ∀ a, kind a → ',' ∉ chars a ∧ chars a ≠ []) {items others : List α}
    (h : ∀ a ∈ items, kind a) (h' : ∀ a ∈ others, kind a)
    (heq : listBody? chars items = listBody? chars others) : items = others := by
  have hpieces : ∀ {items : List α}, (∀ a ∈ items, kind a) →
      ∀ piece ∈ items.map chars, ',' ∉ piece ∧ piece ≠ [] := by
    intro items hitems piece hpiece
    obtain ⟨a, ha, rfl⟩ := List.mem_map.1 hpiece
    exact hchars a (hitems a ha)
  -- only empty lists call for no option; other ones are split at the commas
  have hmap : items.map chars = others.map chars := by
    unfold listBody? at heq
    cases items with
    | nil =>
      cases others with
      | nil => rfl
      | cons b others => cases heq
    | cons a items =>
      cases others with
      | nil => cases heq
      | cons b others =>
        exact Text.eq_of_join_eq (hpieces h) (hpieces h') (Option.some.inj heq)
  clear heq
  induction items generalizing others with
  | nil => exact (List.map_eq_nil_iff.1 hmap.symm).symm
  | cons a items ih =>
    cases others with
    | nil => cases hmap
    | cons b others =>
      rw [List.map_cons, List.map_cons, List.cons.injEq] at hmap
      have hhead := hinj a b (h a List.mem_cons_self) (h' b List.mem_cons_self) hmap.1
      have htail := ih (fun c hc => h c (List.mem_cons_of_mem _ hc))
        (fun c hc => h' c (List.mem_cons_of_mem _ hc)) hmap.2
      rw [hhead, htail]

/-! ## Options by their labels -/

/-- An option that some text calls for, or none. -/
def labelled (option : String × Option (List Char)) : List (List Char) :=
  (option.2.map (option.1.toList ++ ·)).toList

/-- Neither label is the start of the other. -/
def Clash (label other : String) : Prop :=
  ¬ label.toList <+: other.toList ∧ ¬ other.toList <+: label.toList

instance (label other : String) : Decidable (Clash label other) :=
  inferInstanceAs (Decidable (¬ label.toList <+: other.toList ∧ ¬ other.toList <+: label.toList))

/-- Texts with labels of which neither is the start of the other differ, whatever comes after the
labels. -/
theorem Clash.append_ne {label other : String} (h : Clash label other) (x y : List Char) :
    label.toList ++ x ≠ other.toList ++ y := by
  intro heq
  have hprefix : label.toList <+: other.toList ++ y := ⟨x, heq⟩
  rcases List.prefix_or_prefix_of_prefix hprefix (List.prefix_append _ _) with hl | hl
  · exact h.1 hl
  · exact h.2 hl

theorem mem_labelled {label : String} {body : Option (List Char)} {part : List Char}
    (h : part ∈ labelled (label, body)) :
    ∃ text, body = some text ∧ part = label.toList ++ text := by
  cases body with
  | none => cases h
  | some text => exact ⟨text, rfl, List.mem_singleton.1 h⟩

/-- No option has a label that clashes with all labels. -/
theorem notMem_flatMap_labelled {label : String} {options : List (String × Option (List Char))}
    (h : ∀ option ∈ options, Clash label option.1) (x : List Char) :
    label.toList ++ x ∉ options.flatMap labelled := by
  intro hmem
  obtain ⟨⟨other, body⟩, hoption, hpart⟩ := List.mem_flatMap.1 hmem
  obtain ⟨text, -, heq⟩ := mem_labelled hpart
  exact (h _ hoption).append_ne x text heq

/-- Options with labels that clash with each other are told apart by their labels. -/
theorem eq_of_flatMap_labelled_eq {options others : List (String × Option (List Char))}
    (hclash : (options.map Prod.fst).Pairwise Clash)
    (hlabels : options.map Prod.fst = others.map Prod.fst)
    (h : options.flatMap labelled = others.flatMap labelled) : options = others := by
  induction options generalizing others with
  | nil => exact (List.map_eq_nil_iff.1 hlabels.symm).symm
  | cons option options ih =>
    cases others with
    | nil => cases hlabels
    | cons other others =>
      obtain ⟨label, body⟩ := option
      obtain ⟨label', body'⟩ := other
      obtain ⟨rfl, htail⟩ : label = label' ∧ options.map Prod.fst = others.map Prod.fst :=
        List.cons.inj hlabels
      obtain ⟨hfirst, hrest⟩ := List.pairwise_cons.1 hclash
      have hoptions : ∀ option ∈ options, Clash label option.1 := fun option hoption =>
        hfirst option.1 (List.mem_map_of_mem hoption)
      have hothers : ∀ option ∈ others, Clash label option.1 := fun option hoption =>
        hfirst option.1 (htail ▸ List.mem_map_of_mem hoption)
      rw [List.flatMap_cons, List.flatMap_cons] at h
      cases body with
      | none =>
        cases body' with
        | none => rw [ih hrest htail h]
        | some text =>
          -- the label would come later
          have hmem : label.toList ++ text ∈ options.flatMap labelled := by
            rw [show options.flatMap labelled = _ from h]
            exact List.mem_cons_self
          exact absurd hmem (notMem_flatMap_labelled hoptions text)
      | some text =>
        cases body' with
        | none =>
          have hmem : label.toList ++ text ∈ others.flatMap labelled := by
            rw [show others.flatMap labelled = _ from h.symm]
            exact List.mem_cons_self
          exact absurd hmem (notMem_flatMap_labelled hothers text)
        | some text' =>
          obtain ⟨hpart, hparts⟩ := List.cons.inj h
          rw [List.append_cancel_left hpart, ih hrest htail hparts]

/-! ## The options of a query -/

/-- The label of the option that asks for the number of all rows. -/
def totalLabel : Dialect → String
  | .v2 => "$inlinecount=allpages"
  | .v4 => "$count=true"

/-- The options after the filter by their labels. -/
def clauses (dialect : Dialect) (q : Query) : List (String × Option (List Char)) :=
  [("$orderby=", listBody? SortItem.chars q.order),
    ("$expand=", listBody? pathChars q.expanded),
    ("$select=", listBody? pathChars q.select),
    ("$skip=", q.skip.map natChars),
    ("$top=", q.take.map natChars),
    (totalLabel dialect, if q.countTotal then some [] else none)]

theorem labelled_listBody? {α : Type} (label : String) (chars : α → List Char) (items : List α) :
    labelled (label, listBody? chars items) =
      if items.isEmpty then [] else [label.toList ++ Text.join [','] (items.map chars)] := by
  unfold labelled listBody?
  split <;> rfl

theorem optionParts_eq (dialect : Dialect) (q : Query) :
    q.optionParts dialect =
      labelled ("$filter=", q.filter.map (Predicate.chars dialect)) ++
        (q.clauses dialect).flatMap labelled := by
  unfold optionParts
  simp only [clauses, List.flatMap_cons, List.flatMap_nil, List.append_nil, ← List.append_assoc]
  congr 6
  · cases q.filter <;> rfl
  · exact (labelled_listBody? _ _ _).symm
  · exact (labelled_listBody? _ _ _).symm
  · exact (labelled_listBody? _ _ _).symm
  · cases q.skip <;> rfl
  · cases q.take <;> rfl
  · cases q.countTotal with
    | true => cases dialect <;> decide
    | false => rfl

/-- The labels after the filter, none of which starts like another one or like the filter. -/
theorem pairwise_clash (dialect : Dialect) (q : Query) :
    ("$filter=" :: (q.clauses dialect).map Prod.fst).Pairwise Clash := by
  have hlabels : ∀ dialect, ["$filter=", "$orderby=", "$expand=", "$select=", "$skip=", "$top=",
      totalLabel dialect].Pairwise Clash := by
    intro dialect
    cases dialect <;> decide
  exact hlabels dialect

/-- The option with the label of the filter holds the text of the filter, and no other option has
this label. -/
theorem filter_mem_optionParts_iff {dialect : Dialect} {q : Query} {body : List Char} :
    "$filter=".toList ++ body ∈ q.optionParts dialect ↔
      ∃ p, q.filter = some p ∧ body = p.chars dialect := by
  rw [optionParts_eq, List.mem_append]
  constructor
  · rintro (hfilter | hother)
    · obtain ⟨text, hchars, htext⟩ := mem_labelled hfilter
      obtain ⟨p, hp, rfl⟩ := Option.map_eq_some_iff.1 hchars
      exact ⟨p, hp, List.append_cancel_left htext⟩
    · have hclash := (List.pairwise_cons.1 (pairwise_clash dialect q)).1
      refine absurd hother (notMem_flatMap_labelled (fun option hoption => ?_) body)
      exact hclash option.1 (List.mem_map_of_mem hoption)
  · rintro ⟨p, hp, rfl⟩
    rw [hp]
    exact .inl List.mem_cons_self

/-! ## Well-formed queries -/

/-- The queries that the text of a query is made for: paths are paths, values are null, truth
values, integers or texts, groups have at least two parts, and related data is either not asked
for or some. -/
structure WellFormed (q : Query) : Prop where
  filter : ∀ p ∈ q.filter, p.isWellFormed = true
  order : ∀ item ∈ q.order, isPath item.path = true
  expanded : ∀ path ∈ q.expanded, isPath path = true
  expand_ne : q.expand ≠ some []
  select : ∀ path ∈ q.select, isPath path = true

variable {dialect : Dialect} {q r : Query}

theorem notMem_listBody? {α : Type} {chars : α → List Char} {items : List α} {text : List Char}
    (h : ∀ a ∈ items, '&' ∉ chars a) (htext : listBody? chars items = some text) :
    '&' ∉ text := by
  intro hmem
  unfold listBody? at htext
  split at htext
  · cases htext
  · cases htext
    rcases Text.mem_join hmem with heq | ⟨piece, hpiece, hmem⟩
    · cases heq
    · obtain ⟨a, ha, rfl⟩ := List.mem_map.1 hpiece
      exact h a ha hmem

/-- The bodies of the options after the filter are free of the sign between options. -/
theorem WellFormed.notMem_body (hq : q.WellFormed) {label : String} {text : List Char}
    (h : (label, some text) ∈ q.clauses dialect) : '&' ∉ text := by
  -- the number of rows to skip or to take is written in digits
  have hnumber : ∀ {count : Option Nat}, some text = count.map natChars → '&' ∉ text := by
    intro count hcount hmem
    obtain ⟨n, -, rfl⟩ := Option.map_eq_some_iff.1 hcount.symm
    exact absurd (isDigit_of_mem_natChars hmem) (by decide)
  simp only [clauses, List.mem_cons, Prod.mk.injEq, List.not_mem_nil, or_false] at h
  rcases h with ⟨-, h⟩ | ⟨-, h⟩ | ⟨-, h⟩ | ⟨-, h⟩ | ⟨-, h⟩ | ⟨-, h⟩
  · exact notMem_listBody?
      (fun item hitem => SortItem.notMem_chars (hq.order item hitem) rfl) h.symm
  · exact notMem_listBody? (fun path hpath => notMem_pathChars (hq.expanded path hpath) rfl) h.symm
  · exact notMem_listBody? (fun path hpath => notMem_pathChars (hq.select path hpath) rfl) h.symm
  · exact hnumber h
  · exact hnumber h
  · split at h
    · cases h
      exact List.not_mem_nil
    · cases h

/-- The options after the filter are free of the sign between options, and not empty. -/
theorem WellFormed.notMem_part (hq : q.WellFormed) :
    ∀ part ∈ (q.clauses dialect).flatMap labelled, '&' ∉ part ∧ part ≠ [] := by
  have hlabels : ∀ label ∈ (q.clauses dialect).map Prod.fst,
      '&' ∉ label.toList ∧ label.toList ≠ [] := by
    intro label hlabel
    have hall : ∀ dialect, ∀ label ∈ ["$orderby=", "$expand=", "$select=", "$skip=", "$top=",
        totalLabel dialect], '&' ∉ label.toList ∧ label.toList ≠ [] := by
      intro dialect
      cases dialect <;> decide
    exact hall dialect label hlabel
  intro part hpart
  obtain ⟨⟨label, body⟩, hclause, hpart⟩ := List.mem_flatMap.1 hpart
  obtain ⟨text, rfl, rfl⟩ := mem_labelled hpart
  obtain ⟨hlabel, hne⟩ := hlabels label (List.mem_map_of_mem hclause)
  constructor
  · intro hmem
    rcases List.mem_append.1 hmem with hmem | hmem
    · exact hlabel hmem
    · exact hq.notMem_body hclause hmem
  · intro hnil
    exact hne (List.append_eq_nil_iff.1 hnil).1

/-! ## Reading the options -/

theorem closes_flatMap (parts : List (List Char)) :
    Predicate.Closes (parts.flatMap ('&' :: ·)) := by
  intro c hc
  cases parts with
  | nil => cases hc
  | cons part parts => exact .inr (Option.some.inj hc).symm

/-- The text of a query with a filter. -/
theorem optionChars_of_filter {p : Predicate} (h : q.filter = some p) :
    q.optionChars dialect =
      "$filter=".toList ++
        (p.chars dialect ++ ((q.clauses dialect).flatMap labelled).flatMap ('&' :: ·)) := by
  unfold optionChars
  rw [optionParts_eq, h]
  show Text.join ['&'] (("$filter=".toList ++ p.chars dialect) :: _) = _
  rw [Text.join_cons, List.append_assoc]
  rfl

/-- The text of a query without a filter. -/
theorem optionChars_of_none (h : q.filter = none) :
    q.optionChars dialect = Text.join ['&'] ((q.clauses dialect).flatMap labelled) := by
  unfold optionChars
  rw [optionParts_eq, h]
  rfl

/-- No other option is taken for the filter. -/
theorem join_ne_filter (dialect : Dialect) (q : Query) (x : List Char) :
    Text.join ['&'] ((q.clauses dialect).flatMap labelled) ≠ "$filter=".toList ++ x := by
  have hclash := (List.pairwise_cons.1 (pairwise_clash dialect q)).1
  intro h
  cases hparts : (q.clauses dialect).flatMap labelled with
  | nil =>
    rw [hparts] at h
    exact absurd (List.append_eq_nil_iff.1 h.symm).1 (by decide)
  | cons part rest =>
    -- the text starts with the label of this part, which clashes with the label of the filter
    have hpart : part ∈ (q.clauses dialect).flatMap labelled := by
      rw [hparts]
      exact List.mem_cons_self
    obtain ⟨⟨label, body⟩, hclause, hpart⟩ := List.mem_flatMap.1 hpart
    obtain ⟨text, -, rfl⟩ := mem_labelled hpart
    rw [hparts, Text.join_cons, List.append_assoc] at h
    exact (hclash label (List.mem_map_of_mem hclause)).append_ne x _ h.symm

/-- The filter and the options after it are found in the text. -/
theorem eq_of_optionChars_eq (hq : q.WellFormed) (hr : r.WellFormed)
    (h : q.optionChars dialect = r.optionChars dialect) :
    q.filter = r.filter ∧ q.clauses dialect = r.clauses dialect := by
  have hclauses : (q.clauses dialect).flatMap labelled = (r.clauses dialect).flatMap labelled →
      q.clauses dialect = r.clauses dialect :=
    eq_of_flatMap_labelled_eq (List.pairwise_cons.1 (pairwise_clash dialect q)).2 rfl
  have hfree : ∀ {q : Query}, q.WellFormed →
      ∀ part ∈ (q.clauses dialect).flatMap labelled, '&' ∉ part := fun hq part hpart =>
    (hq.notMem_part part hpart).1
  cases hp : q.filter with
  | none =>
    cases hp' : r.filter with
    | none =>
      rw [optionChars_of_none hp, optionChars_of_none hp'] at h
      exact ⟨rfl, hclauses (Text.eq_of_join_eq hq.notMem_part hr.notMem_part h)⟩
    | some p' =>
      rw [optionChars_of_none hp, optionChars_of_filter hp'] at h
      exact absurd h (join_ne_filter dialect q _)
  | some p =>
    cases hp' : r.filter with
    | none =>
      rw [optionChars_of_filter hp, optionChars_of_none hp'] at h
      exact absurd h.symm (join_ne_filter dialect r _)
    | some p' =>
      rw [optionChars_of_filter hp, optionChars_of_filter hp'] at h
      -- the predicates end in the same place, so the same options follow them
      obtain ⟨rfl, hrest⟩ := Predicate.eq_of_chars_append_eq dialect p p' (hq.filter p hp)
        (hr.filter p' hp') (closes_flatMap _) (closes_flatMap _) (List.append_cancel_left h)
      exact ⟨rfl, hclauses (Text.eq_of_flatMap_sep_eq (hfree hq) (hfree hr) hrest)⟩

theorem eq_of_map_natChars_eq {m n : Option Nat} (h : m.map natChars = n.map natChars) :
    m = n := by
  cases m with
  | none =>
    cases n with
    | none => rfl
    | some n => cases h
  | some m =>
    cases n with
    | none => cases h
    | some n => rw [natChars_injective (Option.some.inj h)]

/-- Lists of paths are told apart by the options that they call for. -/
theorem eq_of_pathList_eq {paths others : List String} (h : ∀ path ∈ paths, isPath path = true)
    (h' : ∀ path ∈ others, isPath path = true)
    (heq : listBody? pathChars paths = listBody? pathChars others) : paths = others := by
  refine eq_of_listBody?_eq (fun _ _ => pathChars_injective) (fun path hpath => ?_) h h' heq
  obtain ⟨c, cs, hchars⟩ := exists_pathChars_eq_cons hpath
  refine ⟨notMem_pathChars hpath rfl, ?_⟩
  rw [hchars]
  exact List.cons_ne_nil c cs

/-- Orders are told apart by the options that they call for. -/
theorem eq_of_order_eq {items others : List SortItem}
    (h : ∀ item ∈ items, isPath item.path = true) (h' : ∀ item ∈ others, isPath item.path = true)
    (heq : listBody? SortItem.chars items = listBody? SortItem.chars others) : items = others := by
  refine eq_of_listBody?_eq (fun _ _ => SortItem.chars_injective) (fun item hitem => ?_) h h' heq
  obtain ⟨c, cs, hchars⟩ := exists_pathChars_eq_cons hitem
  refine ⟨SortItem.notMem_chars hitem rfl, ?_⟩
  rw [SortItem.chars_eq, hchars]
  exact List.cons_ne_nil c _

/-- Related data that is not asked for as an empty list is determined by its paths. -/
theorem expand_eq_of_expanded_eq (hq : q.expand ≠ some []) (hr : r.expand ≠ some [])
    (h : q.expanded = r.expanded) : q.expand = r.expand := by
  unfold expanded at h
  cases hqe : q.expand with
  | none =>
    cases hre : r.expand with
    | none => rfl
    | some paths =>
      rw [hqe, hre] at h
      have hnil : [] = paths := h
      exact absurd (hnil ▸ hre) hr
  | some paths =>
    cases hre : r.expand with
    | none =>
      rw [hqe, hre] at h
      have hnil : paths = [] := h
      exact absurd (hnil ▸ hqe) hq
    | some others =>
      rw [hqe, hre] at h
      exact congrArg some h

/-- **The options of a query are the options of no other query.** In either dialect two well-formed
queries have the same options only if they are equal in everything but the resource: no text
literal, whatever it holds, can be read as a part of the query around it. -/
theorem options_eq_iff (dialect : Dialect) (hq : q.WellFormed) (hr : r.WellFormed) :
    q.options dialect = r.options dialect ↔ q = { r with resource := q.resource } := by
  constructor
  · intro h
    obtain ⟨hfilter, hclauses⟩ := eq_of_optionChars_eq hq hr (String.ofList_injective h)
    simp only [clauses, List.cons.injEq, Prod.mk.injEq, true_and, and_true] at hclauses
    obtain ⟨horder, hexpand, hselect, hskip, htake, htotal⟩ := hclauses
    replace horder := eq_of_order_eq hq.order hr.order horder
    replace hexpand := expand_eq_of_expanded_eq hq.expand_ne hr.expand_ne
      (eq_of_pathList_eq hq.expanded hr.expanded hexpand)
    replace hselect := eq_of_pathList_eq hq.select hr.select hselect
    replace hskip := eq_of_map_natChars_eq hskip
    replace htake := eq_of_map_natChars_eq htake
    have hcount : q.countTotal = r.countTotal := by
      cases hqc : q.countTotal <;> cases hrc : r.countTotal <;> simp_all
    obtain ⟨resource, filter, order, expand, select, skip, take, countTotal⟩ := q
    cases hfilter
    cases horder
    cases hexpand
    cases hselect
    cases hskip
    cases htake
    cases hcount
    rfl
  · intro h
    rw [h]
    rfl

/-- A name that tries to end its literal, to add a condition and to ask for an order. -/
def hostile : Query where
  filter := some (.comparison "name" .eq (.string "x') and (age gt 1)&$orderby=age"))

/-- What the name above would mean if it were read as a part of the query. -/
def intruded : Query where
  filter := some (.all [.comparison "name" .eq (.string "x"), .comparison "age" .gt (.nat 1)])
  order := [⟨"age", false⟩]

theorem options_eq_iff_hostile :
    hostile.WellFormed ∧ intruded.WellFormed ∧
      ∀ dialect, hostile.options dialect ≠ intruded.options dialect := by
  have hhostile : hostile.WellFormed := by
    refine ⟨?_, nofun, nofun, nofun, nofun⟩
    rintro p hp
    cases hp
    decide
  have hintruded : intruded.WellFormed := by
    refine ⟨?_, by decide, nofun, nofun, nofun⟩
    rintro p hp
    cases hp
    decide
  refine ⟨hhostile, hintruded, fun dialect h => ?_⟩
  have heq := (options_eq_iff dialect hhostile hintruded).1 h
  exact absurd (congrArg Query.order heq) (by decide)

end Query

end DataAccess
