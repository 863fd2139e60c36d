import DataAccess.Filter.Criterion
import DataAccess.Proofs.Number.Quantity
import DataAccess.Proofs.Text.Lowercase
import Mathlib.Data.List.Infix

/-!
# What comparisons mean

A comparison in a criterion names a field by a path, and its operator by a token. What it says about
a record can be told without the operators of predicates: a token stands for a relation of values,
and the relations go back to two, equal values and values in ascending order, and to the ways in
which one text lies in another. Predicates say the same.

- `Criterion.equal`, `Criterion.less`, `Criterion.ofTexts`: the relations of values.
- `Criterion.comparison?`: the relation that a token stands for.
- `Criterion.valueAt`: the value that is compared.
- `Criterion.conjoins`: the tokens that join the parts of a group by `and`.
- `Criterion.test_eq`, `Criterion.test_gt` and so on: each operator tests its relation.
- `Criterion.comparison?_of_compileLeaf`: a comparison that compiles says what its token stands for.
-/

namespace DataAccess

theorem Text.split_eq_splitOn (sep : Char) (cs : List Char) : split sep cs = cs.splitOn sep := by
  induction cs with
  | nil => rfl
  | cons c rest ih =>
    unfold List.splitOn at ih ⊢
    unfold Text.split
    rw [List.splitOnP_cons_eq_if_modifyHead, ← ih]
    by_cases hc : c = sep
    · rw [if_pos hc, if_pos (beq_iff_eq.2 hc)]
    · rw [if_neg hc, if_neg (mt beq_iff_eq.1 hc)]
      cases hrest : Text.split sep rest with
      | nil => exact absurd hrest (Text.split_ne_nil sep rest)
      | cons piece pieces => rfl

theorem Record.get?_eq_lookup (fields : Record) (name : String) :
    fields.get? name = fields.lookup name := by
  induction fields with
  | nil => rfl
  | cons field rest ih =>
    obtain ⟨key, value⟩ := field
    rw [Record.get?_cons, ih, List.lookup_cons]
    by_cases hname : key = name
    · rw [if_pos hname, beq_iff_eq.2 hname.symm]
    · rw [if_neg hname, beq_eq_false_iff_ne.2 (Ne.symm hname)]

namespace Criterion

/-! ## Reading comparisons -/

/-- Equal values. Numbers are equal in quantity, and no value is equal to one of another kind.
Arrays and objects are equal to nothing. -/
def equal : Value → Value → Bool
  | .null, .null => true
  | .bool x, .bool y => x = y
  | .number m, .number n => m.units = n.units
  | .string s, .string t => s = t
  | _, _ => false

/-- Values in ascending order, which are both numbers, both texts or both truth values. Texts are
ordered like the words of a dictionary, and false comes before true. -/
def less : Value → Value → Bool
  | .bool x, .bool y => !x && y
  | .number m, .number n => m.units < n.units
  | .string s, .string t => s < t
  | _, _ => false

/-- A relation of texts, in which no other values stand. -/
def ofTexts (related : List Char → List Char → Prop) [DecidableRel related] : Value → Value → Bool
  | .string s, .string t => related s.toList t.toList
  | _, _ => false

/-- The relation of a value found to the value given that a token in lower case stands for. -/
def relation? : String → Option (Value → Value → Bool)
  | "=" | "==" | "eq" => some fun found given => equal found given
  | "<>" | "!=" | "ne" => some fun found given => !equal found given
  | "<" | "lt" => some fun found given => less found given
  | ">" | "gt" => some fun found given => less given found
  | "<=" | "le" => some fun found given => less found given || equal found given
  | ">=" | "ge" => some fun found given => less given found || equal found given
  | "startswith" => some fun found given => ofTexts (· <+: ·) given found
  | "endswith" => some fun found given => ofTexts (· <:+ ·) given found
  | "contains" | "substringof" => some fun found given => ofTexts (· <:+: ·) given found
  | "notcontains" => some fun found given => !ofTexts (· <:+: ·) given found
  | _ => none

/-- The relation that a token stands for, in whatever case its letters are. -/
def comparison? (token : String) : Option (Value → Value → Bool) :=
  relation? (String.ofList (token.toList.map Char.toLower))

/-- The value of a field, null where there is none. -/
def part (name : String) : Value → Value
  | .object fields => (fields.lookup name).getD .null
  | _ => .null

/-- The value at a path, which names one field after the other. -/
def valueAt (record : Value) (path : String) : Value :=
  (path.toList.splitOn '.').foldl (fun v name => part (String.ofList name) v) record

/-- Whether a token between the parts of a group joins them by `and`. -/
def conjoins (token : String) : Bool :=
  let lower := Text.lowercase token.toList
  ['a', 'n', 'd'] <:+: lower ∨ '&' ∈ lower

/-! ## Paths -/

theorem part_eq (name : String) (v : Value) : part name v = (v.field? name).getD .null := by
  cases v with
  | object fields => exact congrArg (Option.getD · .null) (Record.get?_eq_lookup fields name).symm
  | _ => rfl

/-- There is nothing but null inside of null. -/
theorem foldl_part_null (names : List String) :
    names.foldl (fun v name => part name v) Value.null = .null := by
  induction names with
  | nil => rfl
  | cons name rest ih => exact ih

theorem follow_getD (names : List String) (v : Value) :
    (v.follow names).getD .null = names.foldl (fun v name => part name v) v := by
  induction names generalizing v with
  | nil => rfl
  | cons name rest ih =>
    rw [Value.follow_cons, List.foldl_cons, part_eq]
    cases v.field? name with
    | none => exact (foldl_part_null rest).symm
    | some next => exact ih next

/-- A predicate looks for a value at the same place. -/
theorem atPath_eq_valueAt (record : Value) (path : String) :
    record.atPath path = valueAt record path := by
  unfold Value.atPath Path.ofText valueAt
  rw [follow_getD, Text.split_eq_splitOn, List.foldl_map]

/-! ## Relations of values -/

theorem equal_iff {a b : Value} : equal a b = true ↔ a.compare? b = some .eq := by
  have hnumber {m n : Number} : m.units = n.units ↔ m.compare n = .eq := by
    rw [← Number.rank_eq_rank_iff]
    exact Std.compare_eq_iff_eq.symm
  cases a <;> cases b <;> simp [equal, Value.compare?, hnumber]

theorem less_iff {a b : Value} : less a b = true ↔ a.compare? b = some .lt := by
  have hnumber {m n : Number} : m.units < n.units ↔ m.compare n = .lt := by
    rw [← Number.rank_lt_rank_iff]
    exact compareOfLessAndEq_eq_lt.symm
  have htext {s t : String} : s < t ↔ compare s t = .lt := compareOfLessAndEq_eq_lt.symm
  have htruth {x y : Bool} : (x = false ∧ y = true) ↔ compare x y = .lt := by
    cases x <;> cases y <;> decide
  cases a <;> cases b <;> simp [less, Value.compare?, hnumber, htext, htruth]

theorem less_swap_iff {a b : Value} : less b a = true ↔ a.compare? b = some .gt := by
  rw [less_iff]
  have hswap : b.compare? a = (a.compare? b).map Ordering.swap := by
    cases a <;> cases b <;>
      simp [Value.compare?, Number.compare, ← Std.OrientedCmp.eq_swap]
  rw [hswap]
  cases a.compare? b with
  | none => simp
  | some o => cases o <;> simp

theorem textTest_eq {test : List Char → List Char → Bool} {related : List Char → List Char → Prop}
    [DecidableRel related] (h : ∀ s t, test s t = true ↔ related t s) :
    Value.textTest test = fun found given => ofTexts related given found := by
  have htest (s t : List Char) : test s t = decide (related t s) :=
    Bool.eq_iff_iff.2 ((h s t).trans decide_eq_true_iff.symm)
  funext found given
  cases found <;> cases given <;> simp [Value.textTest, ofTexts, htest]

/-! ## Operators -/

theorem test_eq : Operator.eq.test = fun found given => equal found given :=
  funext₂ fun _ _ => Bool.eq_iff_iff.2 (beq_iff_eq.trans equal_iff.symm)

theorem test_lt : Operator.lt.test = fun found given => less found given :=
  funext₂ fun _ _ => Bool.eq_iff_iff.2 (beq_iff_eq.trans less_iff.symm)

theorem test_gt : Operator.gt.test = fun found given => less given found :=
  funext₂ fun _ _ => Bool.eq_iff_iff.2 (beq_iff_eq.trans less_swap_iff.symm)

theorem test_ne : Operator.ne.test = fun found given => !equal found given :=
  funext₂ fun found given => congrArg (!·) (congrFun₂ test_eq found given)

theorem test_le :
    Operator.le.test = fun found given => less found given || equal found given :=
  funext₂ fun found given =>
    congrArg₂ (· || ·) (congrFun₂ test_lt found given) (congrFun₂ test_eq found given)

theorem test_ge :
    Operator.ge.test = fun found given => less given found || equal found given :=
  funext₂ fun found given =>
    congrArg₂ (· || ·) (congrFun₂ test_gt found given) (congrFun₂ test_eq found given)

theorem test_startsWith :
    Operator.startsWith.test = fun found given => ofTexts (· <+: ·) given found := by
  show Value.textTest (fun s t => t.isPrefixOf s) = _
  exact textTest_eq fun _ _ => List.isPrefixOf_iff_prefix

theorem test_endsWith :
    Operator.endsWith.test = fun found given => ofTexts (· <:+ ·) given found := by
  show Value.textTest (fun s t => t.isSuffixOf s) = _
  exact textTest_eq fun _ _ => List.isSuffixOf_iff_suffix

theorem test_contains :
    Operator.contains.test = fun found given => ofTexts (· <:+: ·) given found := by
  show Value.textTest (fun s t => Text.occurs t s) = _
  exact textTest_eq fun _ _ => Text.occurs_iff

/-! ## Tokens -/

/-- The tokens that name an operator in criteria, which know two more signs. -/
def spellings : List (String × Operator) := ("=", .eq) :: ("<>", .ne) :: Operator.tokens

/-- A character that is the lower-case form of basic characters only: any basic one but `k`. -/
def isPlain (d : Char) : Bool := d.toNat < 0x80 && d != 'k'

theorem spellings_plain : ∀ spelling ∈ spellings, spelling.1.toList.all isPlain = true := by
  decide

theorem basic_of_plain {token : List Char} (h : token.all isPlain = true) :
    (∀ d ∈ token, d.toNat < 0x80) ∧ 'k' ∉ token := by
  have hplain : ∀ d ∈ token, d.toNat < 0x80 ∧ d ≠ 'k' := by
    simpa [isPlain] using h
  exact ⟨fun d hd => (hplain d hd).1, fun hk => (hplain 'k' hk).2 rfl⟩

/-- Lower case of that kind is taken character by character. -/
theorem map_toLower_of_lowercase {cs token : List Char} (h : Text.lowercase cs = token)
    (hplain : token.all isPlain = true) : cs.map Char.toLower = token := by
  obtain ⟨hbasic, hk⟩ := basic_of_plain hplain
  subst h
  exact (Text.lowercase_of_basic (Text.basic_of_lowercaseAfter [] hbasic hk)).symm

/-- An operator that is found is named by one of the tokens. -/
theorem exists_spelling {cs : List Char} {op : Operator}
    (h : Operator.ofToken (operatorToken (Text.lowercase cs)) = .ok op) :
    ∃ spelling, (spelling, op) ∈ spellings ∧ Text.lowercase cs = spelling.toList := by
  unfold operatorToken at h
  by_cases heq : Text.lowercase cs = ['=']
  · rw [if_pos heq, show "eq" = Operator.eq.name from rfl, Operator.ofToken_name] at h
    cases h
    exact ⟨"=", by decide, heq⟩
  by_cases hne : Text.lowercase cs = ['<', '>']
  · rw [if_neg heq, if_pos hne, show "ne" = Operator.ne.name from rfl, Operator.ofToken_name] at h
    cases h
    exact ⟨"<>", by decide, hne⟩
  rw [if_neg heq, if_neg hne] at h
  unfold Operator.ofToken at h
  split at h
  · rename_i op' hop
    cases h
    rw [String.toList_ofList] at hop
    obtain ⟨⟨spelling, op''⟩, hmem, hfound⟩ := List.exists_of_findSome?_eq_some hop
    dsimp only at hfound
    split at hfound
    · rename_i hspelling
      cases hfound
      have hmem : (spelling, op) ∈ spellings := List.mem_cons_of_mem _ (List.mem_cons_of_mem _ hmem)
      obtain ⟨hbasic, hk⟩ := basic_of_plain (spellings_plain _ hmem)
      -- the token went through lower case once more
      exact ⟨spelling, hmem, Text.lowercase_of_lowercase_eq hbasic hk hspelling.symm⟩
    · cases hfound
  · cases h

theorem relation?_of_mem : ∀ spelling ∈ spellings, relation? spelling.1 = some spelling.2.test := by
  simp [spellings, Operator.tokens, relation?, test_eq, test_ne, test_lt, test_gt, test_le, test_ge,
    test_startsWith, test_endsWith, test_contains]

theorem comparison?_of_lowercase {token spelling : String}
    (h : Text.lowercase token.toList = spelling.toList)
    (hplain : spelling.toList.all isPlain = true) : comparison? token = relation? spelling := by
  unfold comparison?
  rw [map_toLower_of_lowercase h hplain, String.ofList_toList]

/-- **A comparison that compiles** says what its token stands for. -/
theorem comparison?_of_compileLeaf {field token : String} {value : Value} {p : Predicate}
    (h : compileLeaf field token value = .ok p) :
    ∃ related, comparison? token = some related ∧
      ∀ record, p.holds record = related (valueAt record field) value := by
  unfold compileLeaf at h
  dsimp only at h
  split at h
  · rename_i hnot
    cases h
    refine ⟨_, comparison?_of_lowercase hnot (by decide), fun record => ?_⟩
    rw [Predicate.holds_negation, Predicate.holds_comparison, test_contains, atPath_eq_valueAt]
  · split at h
    · rename_i op hop
      cases h
      obtain ⟨spelling, hmem, hspelling⟩ := exists_spelling hop
      refine ⟨op.test, ?_, fun record => ?_⟩
      · rw [comparison?_of_lowercase hspelling (spellings_plain _ hmem)]
        exact relation?_of_mem _ hmem
      · rw [Predicate.holds_comparison, atPath_eq_valueAt]
    · cases h

/-! ## Connectives -/

theorem ofToken_eq (token : String) :
    Connective.ofToken token = if conjoins token then .and else .or := by
  have hconjoins : conjoins token = (Text.occurs ['a', 'n', 'd'] (Text.lowercase token.toList) ||
      Text.occurs ['&'] (Text.lowercase token.toList)) := by
    refine Bool.eq_iff_iff.2 ?_
    rw [Bool.or_eq_true, Text.occurs_iff, Text.occurs_iff, List.singleton_infix_iff]
    exact decide_eq_true_iff
  rw [hconjoins]
  rfl

end Criterion

end DataAccess
