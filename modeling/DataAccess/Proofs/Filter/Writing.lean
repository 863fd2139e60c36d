import DataAccess.Filter.OData
import DataAccess.Proofs.Value.Writing

/-!
# What the text of a predicate determines

The text of a predicate is the text of no other predicate, whatever the text literals in it hold.
A literal ends at the first apostrophe that is not doubled, a part of a group at the parenthesis
that closes it, and a path at the first character that no path holds.

- `isPath`, `Value.isSimple`, `Predicate.isWellFormed`: the paths, values and predicates that the
  text of a query is made for.
- `Value.eq_of_literalChars_append_eq`: where a literal ends.
- `Predicate.Form`: the four forms of predicates; `Predicate.ofText_chars` reads them off the
  texts.
- `Predicate.eq_of_chars_append_eq`: where a predicate ends, by induction along the tree.
-/

namespace DataAccess

/-! ## Paths -/

/-- The characters of a path. -/
def isPathChar (c : Char) : Bool := c.isAlphanum || c = '_' || c = '.'

/-- Whether a text is a path: some letters, digits, underscores and points. -/
def isPath (path : String) : Bool := !path.toList.isEmpty && path.toList.all isPathChar

/-- The characters of words in the text of a query, which has slashes in its paths. -/
def isWordChar (c : Char) : Bool := c.isAlphanum || c = '_' || c = '/'

theorem head_not_word (d : Char) (h : isWordChar d = false) (cs : List Char) :
    ∀ c ∈ (d :: cs).head?, isWordChar c = false := by
  intro c hc
  rw [← Option.some.inj hc]
  exact h

theorem exists_pathChars_eq_cons {path : String} (h : isPath path = true) :
    ∃ c cs, pathChars path = c :: cs := by
  unfold isPath at h
  unfold pathChars
  cases hp : path.toList with
  | nil => simp [hp] at h
  | cons c cs =>
    unfold Text.replace
    split <;> exact ⟨_, _, rfl⟩

theorem isPathChar_of_mem {path : String} (h : isPath path = true) {c : Char}
    (hc : c ∈ path.toList) : isPathChar c = true := by
  unfold isPath at h
  rw [Bool.and_eq_true, List.all_eq_true] at h
  exact h.2 c hc

theorem slash_notMem {path : String} (h : isPath path = true) : '/' ∉ path.toList := by
  intro hmem
  have hslash := isPathChar_of_mem h hmem
  exact absurd hslash (by decide)

/-- A path is written with the characters of words. -/
theorem isWordChar_of_mem_pathChars {path : String} (h : isPath path = true) :
    ∀ c ∈ pathChars path, isWordChar c = true := by
  intro c hc
  have hpath : c = '/' ∨ c ∈ path.toList ∧ c ≠ '.' := by
    simpa using Text.mem_replace hc
  rcases hpath with rfl | ⟨hmem, hpoint⟩
  · decide
  · have hchar := isPathChar_of_mem h hmem
    simp only [isPathChar, Bool.or_eq_true, decide_eq_true_eq] at hchar
    unfold isWordChar
    rcases hchar with (h | h) | h
    · simp [h]
    · simp [h]
    · exact absurd h hpoint

/-- Paths are told apart by their texts. -/
theorem pathChars_injective {path other : String} (h : isPath path = true)
    (h' : isPath other = true) (heq : pathChars path = pathChars other) : path = other := by
  have hback : Text.replace '/' ['.'] (pathChars path) = path.toList :=
    Text.replace_replace (slash_notMem h)
  have hback' : Text.replace '/' ['.'] (pathChars other) = other.toList :=
    Text.replace_replace (slash_notMem h')
  rw [heq, hback'] at hback
  exact (String.toList_inj.1 hback).symm

/-- A path ends where no character of a word follows. -/
theorem eq_of_pathChars_append_eq {path other : String} {x y : List Char}
    (h : isPath path = true) (h' : isPath other = true)
    (hx : ∀ c ∈ x.head?, isWordChar c = false) (hy : ∀ c ∈ y.head?, isWordChar c = false)
    (heq : pathChars path ++ x = pathChars other ++ y) : path = other ∧ x = y := by
  obtain ⟨hchars, hxy⟩ := append_inj_of_stop (isWordChar_of_mem_pathChars h)
    (isWordChar_of_mem_pathChars h') hx hy heq
  exact ⟨pathChars_injective h h' hchars, hxy⟩

/-! ## Literals -/

/-- A text between apostrophes ends at the first apostrophe that is not doubled. -/
theorem eq_of_apostrophed_append_eq {as bs x y : List Char} (hx : '\'' ∉ x.head?)
    (hy : '\'' ∉ y.head?) (h : apostrophed as ++ x = apostrophed bs ++ y) :
    as = bs ∧ x = y := by
  have hbody : Text.replace '\'' ['\'', '\''] as ++ '\'' :: x =
      Text.replace '\'' ['\'', '\''] bs ++ '\'' :: y := by
    simpa [apostrophed] using h
  clear h
  induction as generalizing bs with
  | nil =>
    cases bs with
    | nil => exact ⟨rfl, List.tail_eq_of_cons_eq hbody⟩
    | cons b bs =>
      -- the first text is over, and the second goes on with an apostrophe or another character
      by_cases hb : b = '\''
      · simp [Text.replace, hb] at hbody
        simp [hbody] at hx
      · simp [Text.replace, hb, Ne.symm hb] at hbody
  | cons a as ih =>
    cases bs with
    | nil =>
      by_cases ha : a = '\''
      · simp [Text.replace, ha] at hbody
        simp [← hbody] at hy
      · simp [Text.replace, ha] at hbody
    | cons b bs =>
      by_cases ha : a = '\''
      · by_cases hb : b = '\''
        · simp only [Text.replace, ha, hb, if_true, List.cons_append, List.nil_append,
            List.cons.injEq, true_and] at hbody
          obtain ⟨rfl, hxy⟩ := ih hbody
          exact ⟨by rw [ha, hb], hxy⟩
        · simp [Text.replace, ha, hb, Ne.symm hb] at hbody
      · by_cases hb : b = '\''
        · simp [Text.replace, ha, hb] at hbody
        · simp only [Text.replace, ha, hb, if_false, List.cons_append, List.cons.injEq] at hbody
          obtain ⟨rfl, hxy⟩ := ih hbody.2
          exact ⟨by rw [hbody.1], hxy⟩

namespace Value

/-- Whether a value is null, a truth value, an integer or a text. -/
def isSimple : Value → Bool
  | null | bool _ | number (.int _) | string _ => true
  | number (.double _) | array _ | object _ => false

/-- What can follow a literal in the text of a query: nothing more, or one of the characters that
end a part of it. -/
def Ends (x : List Char) : Prop := ∀ c ∈ x.head?, c = ')' ∨ c = ',' ∨ c = '&'

theorem Ends.isNumeric_eq_false {x : List Char} (h : Ends x) :
    ∀ c ∈ x.head?, isNumeric c = false := by
  intro c hc
  rcases h c hc with rfl | rfl | rfl <;> decide

theorem Ends.notMem {x : List Char} (h : Ends x) : '\'' ∉ x.head? := by
  intro hmem
  rcases h _ hmem with h | h | h <;> cases h

/-- The kind that the first character of a literal shows; it shows none for texts. -/
def shownKind? (v : Value) : Option Kind :=
  match v with
  | string _ => none
  | v => some v.kind

theorem exists_literalChars_eq_cons {v : Value} (h : v.isSimple = true) :
    ∃ c cs, v.literalChars = c :: cs ∧ Kind.ofChar? c = v.shownKind? := by
  cases v with
  | null => exact ⟨'n', _, rfl, rfl⟩
  | bool b => cases b <;> exact ⟨_, _, rfl, rfl⟩
  | number n => exact exists_number_chars_eq_cons n
  | string s => exact ⟨'\'', _, rfl, show Kind.ofChar? '\'' = none by decide⟩
  | array items => cases h
  | object fields => cases h

/-- A literal is followed by no further character of it. -/
theorem eq_of_literalChars_append_eq {v w : Value} {x y : List Char} (hv : v.isSimple = true)
    (hw : w.isSimple = true) (hx : Ends x) (hy : Ends y)
    (h : v.literalChars ++ x = w.literalChars ++ y) : v = w ∧ x = y := by
  have hkind : v.shownKind? = w.shownKind? := by
    obtain ⟨c, cs, hc, hvc⟩ := exists_literalChars_eq_cons hv
    obtain ⟨d, ds, hd, hwd⟩ := exists_literalChars_eq_cons hw
    rw [hc, hd, List.cons_append, List.cons_append, List.cons.injEq] at h
    rw [← hvc, ← hwd, h.1]
  cases v with
  | null =>
    cases w with
    | null => exact ⟨rfl, List.append_cancel_left h⟩
    | _ => cases hkind
  | bool p =>
    cases w with
    | bool q =>
      cases hkind
      exact ⟨rfl, List.append_cancel_left h⟩
    | _ => cases hkind
  | number m =>
    cases w with
    | number n =>
      cases m with
      | int m =>
        obtain ⟨rfl, hxy⟩ :=
          Number.eq_of_chars_append_eq hx.isNumeric_eq_false hy.isNumeric_eq_false h
        exact ⟨rfl, hxy⟩
      | double m => cases hv
    | _ => cases hkind
  | string s =>
    cases w with
    | string t =>
      obtain ⟨htext, hxy⟩ := eq_of_apostrophed_append_eq hx.notMem hy.notMem h
      exact ⟨by rw [String.toList_inj.1 htext], hxy⟩
    | array items => cases hw
    | object fields => cases hw
    | _ => cases hkind
  | array items => cases hv
  | object fields => cases hv

end Value

/-! ## Comparisons -/

theorem isWordChar_of_mem_name (op : Operator) : ∀ c ∈ op.name.toList, isWordChar c = true := by
  have hall : op.name.toList.all isWordChar = true := by
    cases op <;> decide
  exact List.all_eq_true.1 hall

theorem Operator.name_injective {op op' : Operator} (h : op.name.toList = op'.name.toList) :
    op = op' := by
  have hread := ofToken_name op
  rw [String.toList_inj.1 h, ofToken_name] at hread
  exact (Except.ok.inj hread).symm

namespace Predicate

/-- The function that stands for an operator on texts. -/
def callName (dialect : Dialect) (op : Operator) : String :=
  if dialect = .v2 ∧ op = .contains then "substringof" else op.name

/-- What the function is called with. -/
def callArguments (dialect : Dialect) (field : String) (op : Operator) (value : Value) :
    List Char :=
  if dialect = .v2 ∧ op = .contains then value.literalChars ++ ',' :: pathChars field
  else pathChars field ++ ',' :: value.literalChars

variable {dialect : Dialect} {x y : List Char}

theorem isWordChar_of_mem_callName (dialect : Dialect) (op : Operator) :
    ∀ c ∈ (callName dialect op).toList, isWordChar c = true := by
  unfold callName
  split
  · have hall : "substringof".toList.all isWordChar = true := by decide
    exact List.all_eq_true.1 hall
  · exact isWordChar_of_mem_name op

theorem callName_injective {op op' : Operator}
    (h : (callName dialect op).toList = (callName dialect op').toList) : op = op' := by
  -- the old name of `contains` is the name of no other operator
  have hother : ∀ op : Operator, op.name.toList ≠ "substringof".toList := by
    intro op
    cases op <;> decide +kernel
  unfold callName at h
  split at h
  · rename_i hold
    split at h
    · rename_i hold'
      rw [hold.2, hold'.2]
    · exact absurd h.symm (hother op')
  · split at h
    · exact absurd h (hother op)
    · exact Operator.name_injective h

theorem comparisonChars_of_call {field : String} {op : Operator} {value : Value}
    (h : op.isFunction = true) :
    comparisonChars dialect field op value =
      (callName dialect op).toList ++
        '(' :: (callArguments dialect field op value ++ ')' :: " eq true".toList) := by
  have hend : ") eq true".toList = ')' :: " eq true".toList := by decide
  unfold comparisonChars callName callArguments
  rw [hend]
  by_cases hold : dialect = .v2 ∧ op = .contains
  · simp [hold]
  · simp [hold, h]

theorem comparisonChars_of_relation {field : String} {op : Operator} {value : Value}
    (h : op.isFunction = false) :
    comparisonChars dialect field op value =
      pathChars field ++ ' ' :: (op.name.toList ++ ' ' :: value.literalChars) := by
  have hold : ¬ (dialect = .v2 ∧ op = .contains) := by
    rintro ⟨-, rfl⟩
    cases h
  unfold comparisonChars
  simp [hold, h]

/-- What can follow a predicate in the text of a query: nothing more, the parenthesis that closes
the predicate, or a further option. -/
def Closes (x : List Char) : Prop := ∀ c ∈ x.head?, c = ')' ∨ c = '&'

theorem Closes.ends (h : Closes x) : Value.Ends x := by
  intro c hc
  rcases h c hc with rfl | rfl
  · exact .inl rfl
  · exact .inr (.inr rfl)

theorem closes_cons (x : List Char) : Closes (')' :: x) := by
  intro c hc
  exact .inl (Option.some.inj hc).symm

/-- A comparison between a path and a literal. -/
theorem eq_of_relation {field field' : String} {op op' : Operator} {value value' : Value}
    (hfield : isPath field = true) (hfield' : isPath field' = true)
    (hvalue : value.isSimple = true) (hvalue' : value'.isSimple = true)
    (hop : op.isFunction = false) (hop' : op'.isFunction = false) (hx : Closes x) (hy : Closes y)
    (h : comparisonChars dialect field op value ++ x =
      comparisonChars dialect field' op' value' ++ y) :
    comparison field op value = comparison field' op' value' ∧ x = y := by
  have hblank : ∀ cs, ∀ c ∈ (' ' :: cs).head?, isWordChar c = false := head_not_word ' ' rfl
  rw [comparisonChars_of_relation hop, comparisonChars_of_relation hop'] at h
  simp only [List.append_assoc, List.cons_append] at h
  -- the path and the operator end at the blanks after them, the literal where the predicate closes
  obtain ⟨rfl, hrest⟩ := eq_of_pathChars_append_eq hfield hfield' (hblank _) (hblank _) h
  obtain ⟨hname, hliteral⟩ := append_inj_of_stop (isWordChar_of_mem_name op)
    (isWordChar_of_mem_name op') (hblank _) (hblank _) (List.tail_eq_of_cons_eq hrest)
  obtain ⟨rfl, hxy⟩ := Value.eq_of_literalChars_append_eq hvalue hvalue' hx.ends hy.ends
    (List.tail_eq_of_cons_eq hliteral)
  rw [Operator.name_injective hname]
  exact ⟨rfl, hxy⟩

/-- A comparison by a function, with the path and the literal in either order. -/
theorem eq_of_call {field field' : String} {op op' : Operator} {value value' : Value}
    (hfield : isPath field = true) (hfield' : isPath field' = true)
    (hvalue : value.isSimple = true) (hvalue' : value'.isSimple = true)
    (hop : op.isFunction = true) (hop' : op'.isFunction = true)
    (h : comparisonChars dialect field op value ++ x =
      comparisonChars dialect field' op' value' ++ y) :
    comparison field op value = comparison field' op' value' ∧ x = y := by
  have hends : ∀ d, d = ')' ∨ d = ',' → ∀ cs, Value.Ends (d :: cs) := by
    intro d hd cs c hc
    rw [← Option.some.inj hc]
    exact hd.imp id .inl
  rw [comparisonChars_of_call hop, comparisonChars_of_call hop'] at h
  simp only [List.append_assoc, List.cons_append] at h
  obtain ⟨hname, harguments⟩ := append_inj_of_stop (isWordChar_of_mem_callName dialect op)
    (isWordChar_of_mem_callName dialect op') (head_not_word '(' rfl _) (head_not_word '(' rfl _) h
  obtain rfl := callName_injective hname
  replace harguments := List.tail_eq_of_cons_eq harguments
  unfold callArguments at harguments
  split at harguments
  · -- the literal comes first and ends at the comma
    simp only [List.append_assoc, List.cons_append] at harguments
    obtain ⟨rfl, hpath⟩ := Value.eq_of_literalChars_append_eq hvalue hvalue'
      (hends ',' (.inr rfl) _) (hends ',' (.inr rfl) _) harguments
    obtain ⟨rfl, hrest⟩ := eq_of_pathChars_append_eq hfield hfield' (head_not_word ')' rfl _)
      (head_not_word ')' rfl _) (List.tail_eq_of_cons_eq hpath)
    exact ⟨rfl, List.append_cancel_left (List.tail_eq_of_cons_eq hrest)⟩
  · -- the path comes first
    simp only [List.append_assoc, List.cons_append] at harguments
    obtain ⟨rfl, hliteral⟩ := eq_of_pathChars_append_eq hfield hfield' (head_not_word ',' rfl _)
      (head_not_word ',' rfl _) harguments
    obtain ⟨rfl, hrest⟩ := Value.eq_of_literalChars_append_eq hvalue hvalue'
      (hends ')' (.inl rfl) _) (hends ')' (.inl rfl) _) (List.tail_eq_of_cons_eq hliteral)
    exact ⟨rfl, List.append_cancel_left (List.tail_eq_of_cons_eq hrest)⟩

/-! ## Groups -/

/-- The further parts of a group, each after the word between two parts. -/
def furtherChars (dialect : Dialect) (word : List Char) (parts : List Predicate) : List Char :=
  parts.flatMap fun part => word ++ '(' :: (chars dialect part ++ [')'])

/-- A group is its first part in parentheses and then the further parts. -/
theorem partChars_cons (dialect : Dialect) (word : List Char) (part : Predicate)
    (rest : List Predicate) :
    partChars dialect word (part :: rest) =
      '(' :: (chars dialect part ++ ')' :: furtherChars dialect word rest) := by
  induction rest generalizing part with
  | nil => simp [partChars, furtherChars]
  | cons next rest ih => simp [partChars, ih, furtherChars]

/-- The word between two parts of a group, with a blank on either side. -/
def word : Connective → List Char
  | .and => [' ', 'a', 'n', 'd', ' ']
  | .or => [' ', 'o', 'r', ' ']

theorem chars_all (dialect : Dialect) (parts : List Predicate) :
    chars dialect (all parts) = partChars dialect (word .and) parts := by
  have hword : " and ".toList = word .and := by decide
  show partChars dialect " and ".toList parts = _
  rw [hword]

theorem chars_any (dialect : Dialect) (parts : List Predicate) :
    chars dialect (any parts) = partChars dialect (word .or) parts := by
  have hword : " or ".toList = word .or := by decide
  show partChars dialect " or ".toList parts = _
  rw [hword]

theorem chars_negation (dialect : Dialect) (part : Predicate) :
    chars dialect (negation part) =
      ['n', 'o', 't'] ++ ' ' :: '(' :: (chars dialect part ++ [')']) := by
  have hnot : "not (".toList = ['n', 'o', 't', ' ', '('] := by decide
  show "not (".toList ++ chars dialect part ++ [')'] = _
  rw [hnot]
  rfl

theorem eq_of_word_append_eq {k k' : Connective} (h : word k ++ x = word k' ++ y) :
    k = k' ∧ x = y := by
  cases k <;> cases k'
  · exact ⟨rfl, List.append_cancel_left h⟩
  · simp [word] at h
  · simp [word] at h
  · exact ⟨rfl, List.append_cancel_left h⟩

/-- After the last part there is no further part. -/
theorem Closes.ne_word_append (h : Closes x) (k : Connective) (cs : List Char) :
    x ≠ word k ++ cs := by
  rintro rfl
  cases k <;> exact absurd (h ' ' rfl) (by decide)

/-! ## Forms -/

/-- The forms of predicates, each of which starts its texts in a way of its own. -/
inductive Form where
  /-- a comparison with the operator between its sides -/
  | relation
  /-- a comparison by a function -/
  | call
  | group
  | negation
  deriving DecidableEq

/-- The form of a predicate. -/
def form : Predicate → Form
  | comparison _ op _ => if op.isFunction then .call else .relation
  | all _ | any _ => .group
  | negation _ => .negation

/-- The form of the predicates whose texts start with a word and go on like this. -/
def Form.ofParts : List Char → List Char → Form
  | [], _ => .group
  | _, '(' :: _ => .call
  | _, _ :: '(' :: _ => .negation
  | _, _ => .relation

/-- The form of the predicates whose texts start like this. -/
def Form.ofText (cs : List Char) : Form :=
  .ofParts (cs.takeWhile isWordChar) (cs.dropWhile isWordChar)

mutual

/-- Whether the paths and values of a predicate are such that its text can be read, and each group
has at least two parts. -/
def isWellFormed : Predicate → Bool
  | comparison field _ value => isPath field && value.isSimple
  | all parts | any parts => decide (2 ≤ parts.length) && areWellFormed parts
  | negation part => part.isWellFormed

/-- Whether every predicate of a list is such. -/
def areWellFormed : List Predicate → Bool
  | [] => true
  | part :: rest => part.isWellFormed && areWellFormed rest

end

theorem ofText_append {word rest : List Char} (hword : ∀ c ∈ word, isWordChar c = true)
    (hrest : ∀ c ∈ rest.head?, isWordChar c = false) :
    Form.ofText (word ++ rest) = .ofParts word rest := by
  have htake : rest.takeWhile isWordChar = [] ∧ rest.dropWhile isWordChar = rest := by
    cases rest with
    | nil => exact ⟨rfl, rfl⟩
    | cons c rest => simp [hrest c rfl]
  unfold Form.ofText
  rw [List.takeWhile_append_of_pos hword, List.dropWhile_append_of_pos hword, htake.1, htake.2,
    List.append_nil]

theorem ofText_comparisonChars {field : String} {op : Operator} {value : Value}
    (h : isPath field = true) (x : List Char) :
    Form.ofText (comparisonChars dialect field op value ++ x) =
      (comparison field op value).form := by
  by_cases hop : op.isFunction = true
  · obtain ⟨c, cs, hname⟩ : ∃ c cs, (callName dialect op).toList = c :: cs := by
      refine List.exists_cons_of_ne_nil ?_
      cases dialect <;> cases op <;> decide +kernel
    rw [comparisonChars_of_call hop, List.append_assoc, List.cons_append,
      ofText_append (isWordChar_of_mem_callName dialect op) (head_not_word '(' rfl _), hname]
    show Form.call = if op.isFunction then Form.call else Form.relation
    rw [if_pos hop]
  · -- after the path comes a blank and then the operator, not a parenthesis as in a negation
    obtain ⟨d, ds, hpath⟩ := exists_pathChars_eq_cons h
    obtain ⟨c, cs, hname⟩ : ∃ c cs, op.name.toList = c :: cs := by
      refine List.exists_cons_of_ne_nil ?_
      cases op <;> decide +kernel
    have hc : c ≠ '(' := by
      rintro rfl
      have hword := isWordChar_of_mem_name op '(' (by rw [hname]; exact List.mem_cons_self)
      exact absurd hword (by decide)
    rw [comparisonChars_of_relation (Bool.eq_false_iff.2 hop), List.append_assoc,
      List.cons_append, ofText_append (isWordChar_of_mem_pathChars h) (head_not_word ' ' rfl _),
      hpath, hname]
    show Form.ofParts (d :: ds) (' ' :: c :: _) = if op.isFunction then Form.call else Form.relation
    rw [if_neg hop]
    simp [Form.ofParts, hc]

/-- The form of a predicate is read off its text. -/
theorem ofText_chars {p : Predicate} (h : p.isWellFormed = true) (x : List Char) :
    Form.ofText (p.chars dialect ++ x) = p.form := by
  have hgroup : ∀ word parts, 2 ≤ parts.length →
      Form.ofText (partChars dialect word parts ++ x) = .group := by
    intro word parts hlength
    cases parts with
    | nil => cases hlength
    | cons part rest =>
      rw [partChars_cons, List.cons_append, ← List.nil_append ('(' :: _),
        ofText_append (fun c hc => absurd hc List.not_mem_nil) (head_not_word '(' rfl _)]
      rfl
  cases p with
  | comparison field op value =>
    unfold isWellFormed at h
    rw [Bool.and_eq_true] at h
    exact ofText_comparisonChars h.1 x
  | all parts =>
    unfold isWellFormed at h
    rw [Bool.and_eq_true, decide_eq_true_eq] at h
    rw [chars_all]
    exact hgroup _ parts h.1
  | any parts =>
    unfold isWellFormed at h
    rw [Bool.and_eq_true, decide_eq_true_eq] at h
    rw [chars_any]
    exact hgroup _ parts h.1
  | negation part =>
    have hnot : ['n', 'o', 't'].all isWordChar = true := by decide
    rw [chars_negation, List.append_assoc]
    exact ofText_append (List.all_eq_true.1 hnot) (head_not_word ' ' rfl _)

/-! ## Predicates -/

theorem form_eq_of_chars_append_eq {p q : Predicate} (hp : p.isWellFormed = true)
    (hq : q.isWellFormed = true) (h : p.chars dialect ++ x = q.chars dialect ++ y) :
    p.form = q.form := by
  rw [← ofText_chars hp x, h, ofText_chars hq y]

theorem form_comparison_ne (field : String) (op : Operator) (value : Value) :
    (comparison field op value).form ≠ .group ∧ (comparison field op value).form ≠ .negation := by
  show (if op.isFunction then Form.call else Form.relation) ≠ .group ∧
    (if op.isFunction then Form.call else Form.relation) ≠ .negation
  cases op.isFunction <;> decide

mutual

/-- A predicate ends in the same place of a longer text as any other one that starts it. -/
theorem eq_of_chars_append_eq (dialect : Dialect) : (p q : Predicate) → p.isWellFormed = true →
    q.isWellFormed = true → {x y : List Char} → Closes x → Closes y →
    p.chars dialect ++ x = q.chars dialect ++ y → p = q ∧ x = y
  -- along the first predicate; the form that the text shows leaves few choices for the second
  | comparison field op value, q => by
    intro hp hq x y hx hy h
    have hform := form_eq_of_chars_append_eq hp hq h
    obtain ⟨hgroup, hnegation⟩ := form_comparison_ne field op value
    cases q with
    | comparison field' op' value' =>
      simp only [isWellFormed, Bool.and_eq_true] at hp hq
      have hfunction : op.isFunction = op'.isFunction := by
        unfold form at hform
        cases hop : op.isFunction <;> cases hop' : op'.isFunction <;> simp_all
      cases hop : op.isFunction with
      | true => exact eq_of_call hp.1 hq.1 hp.2 hq.2 hop (hfunction ▸ hop) h
      | false => exact eq_of_relation hp.1 hq.1 hp.2 hq.2 hop (hfunction ▸ hop) hx hy h
    | all parts => exact absurd hform hgroup
    | any parts => exact absurd hform hgroup
    | negation part => exact absurd hform hnegation
  | all parts, q => by
    intro hp hq x y hx hy h
    have hform := form_eq_of_chars_append_eq hp hq h
    cases q with
    | comparison field op value => exact absurd hform.symm (form_comparison_ne field op value).1
    | all parts' =>
      rw [chars_all, chars_all] at h
      obtain ⟨-, rfl, hxy⟩ := eq_of_partChars_append_eq dialect parts parts' hp hq .and .and hx hy h
      exact ⟨rfl, hxy⟩
    | any parts' =>
      rw [chars_all, chars_any] at h
      obtain ⟨hword, -⟩ := eq_of_partChars_append_eq dialect parts parts' hp hq .and .or hx hy h
      cases hword
    | negation part => cases hform
  | any parts, q => by
    intro hp hq x y hx hy h
    have hform := form_eq_of_chars_append_eq hp hq h
    cases q with
    | comparison field op value => exact absurd hform.symm (form_comparison_ne field op value).1
    | all parts' =>
      rw [chars_any, chars_all] at h
      obtain ⟨hword, -⟩ := eq_of_partChars_append_eq dialect parts parts' hp hq .or .and hx hy h
      cases hword
    | any parts' =>
      rw [chars_any, chars_any] at h
      obtain ⟨-, rfl, hxy⟩ := eq_of_partChars_append_eq dialect parts parts' hp hq .or .or hx hy h
      exact ⟨rfl, hxy⟩
    | negation part => cases hform
  | negation part, q => by
    intro hp hq x y hx hy h
    have hform := form_eq_of_chars_append_eq hp hq h
    cases q with
    | comparison field op value => exact absurd hform.symm (form_comparison_ne field op value).2
    | all parts => cases hform
    | any parts => cases hform
    | negation part' =>
      simp only [chars_negation, List.append_assoc, List.cons_append, List.nil_append,
        List.cons.injEq, true_and] at h
      obtain ⟨rfl, hrest⟩ :=
        eq_of_chars_append_eq dialect part part' hp hq (closes_cons x) (closes_cons y) h
      exact ⟨rfl, List.tail_eq_of_cons_eq hrest⟩

/-- Groups with the same text have the same parts and the same word between them. -/
theorem eq_of_partChars_append_eq (dialect : Dialect) : (ps qs : List Predicate) →
    (decide (2 ≤ ps.length) && areWellFormed ps) = true →
    (decide (2 ≤ qs.length) && areWellFormed qs) = true → (k k' : Connective) →
    {x y : List Char} → Closes x → Closes y →
    partChars dialect (word k) ps ++ x = partChars dialect (word k') qs ++ y →
    k = k' ∧ ps = qs ∧ x = y
  | [], _ => by
    intro hp
    cases hp
  | _ :: _, [] => by
    intro _ hq
    cases hq
  | p :: ps, q :: qs => by
    intro hp hq k k' x y hx hy h
    simp only [areWellFormed, Bool.and_eq_true, decide_eq_true_eq] at hp hq
    rw [partChars_cons, partChars_cons] at h
    simp only [List.cons_append, List.append_assoc, List.cons.injEq, true_and] at h
    obtain ⟨rfl, hrest⟩ := eq_of_chars_append_eq dialect p q hp.2.1 hq.2.1 (closes_cons _)
      (closes_cons _) h
    obtain ⟨rfl, hxy, hword⟩ := eq_of_furtherChars_append_eq dialect ps qs hp.2.2 hq.2.2 k k' hx hy
      (List.tail_eq_of_cons_eq hrest)
    -- there is a further part, so the word stands in the text
    refine ⟨hword ?_, rfl, hxy⟩
    rintro rfl
    exact absurd hp.1 (by simp)

/-- Further parts with the same text are the same, and so is the word before each. -/
theorem eq_of_furtherChars_append_eq (dialect : Dialect) : (ps qs : List Predicate) →
    areWellFormed ps = true → areWellFormed qs = true → (k k' : Connective) →
    {x y : List Char} → Closes x → Closes y →
    furtherChars dialect (word k) ps ++ x = furtherChars dialect (word k') qs ++ y →
    ps = qs ∧ x = y ∧ (ps ≠ [] → k = k')
  | [], [] => by
    intro _ _ k k' x y _ _ h
    exact ⟨rfl, h, fun hne => absurd rfl hne⟩
  -- a text that closes a predicate does not go on with a word and a further part
  | [], q :: qs => by
    intro _ _ k k' x y hx _ h
    simp only [furtherChars, List.flatMap_cons, List.append_assoc] at h
    exact absurd h (hx.ne_word_append k' _)
  | p :: ps, [] => by
    intro _ _ k k' x y _ hy h
    simp only [furtherChars, List.flatMap_cons, List.append_assoc] at h
    exact absurd h.symm (hy.ne_word_append k _)
  | p :: ps, q :: qs => by
    intro hp hq k k' x y hx hy h
    simp only [areWellFormed, Bool.and_eq_true] at hp hq
    simp only [furtherChars, List.flatMap_cons, List.append_assoc, List.cons_append,
      List.nil_append] at h
    obtain ⟨rfl, hpart⟩ := eq_of_word_append_eq h
    obtain ⟨rfl, hrest⟩ := eq_of_chars_append_eq dialect p q hp.1 hq.1 (closes_cons _)
      (closes_cons _) (List.tail_eq_of_cons_eq hpart)
    obtain ⟨rfl, hxy, -⟩ := eq_of_furtherChars_append_eq dialect ps qs hp.2 hq.2 k k hx hy
      (List.tail_eq_of_cons_eq hrest)
    exact ⟨rfl, hxy, fun _ => rfl⟩

end

end Predicate

end DataAccess
