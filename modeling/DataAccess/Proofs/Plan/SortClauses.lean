import DataAccess.Plan.Basic

/-!
# Sort keys are read back from what was written for them

A step that sorts keeps its keys as text: the fields with a comma between them, and the word `desc`
behind those of which the greatest value comes first. A field that holds neither commas nor blanks
is found again in such a text.

- `Text.split_append`: pieces of a text that goes on after a separator.
- `Text.words_of_not_blank`, `Text.words_append_blank`: the words of a text whose first word is
  known.
- `IsFieldName`: fields that can be written as sort keys.
- `SortItem.listOfText_sortClause`, `SortItem.listOfText_append`: one sort key is read back, and
  so is another one behind others.
-/

namespace DataAccess

namespace Text

variable {sep b : Char} {cs : List Char}

/-! ## Pieces and words -/

/-- A text that goes on after a separator has the pieces of both parts. -/
theorem split_append (sep : Char) (cs rest : List Char) :
    split sep (cs ++ sep :: rest) = split sep cs ++ split sep rest := by
  induction cs with
  | nil => simp [split]
  | cons c cs ih =>
    rw [List.cons_append, split, split]
    by_cases hc : c = sep
    · rw [if_pos hc, if_pos hc, ih]
      rfl
    · rw [if_neg hc, if_neg hc, ih]
      cases hcs : split sep cs with
      | nil => exact absurd hcs (split_ne_nil sep cs)
      | cons piece pieces => rfl

theorem words_go_of_not_blank (h : ∀ c ∈ cs, isBlank c = false) : words.go cs = [cs] := by
  induction cs with
  | nil => rfl
  | cons c cs ih =>
    obtain ⟨hc, hcs⟩ := List.forall_mem_cons.1 h
    simp [words.go, hc, ih hcs]

theorem words_go_append_blank (h : ∀ c ∈ cs, isBlank c = false) (hb : isBlank b = true)
    (rest : List Char) : words.go (cs ++ b :: rest) = cs :: words.go rest := by
  induction cs with
  | nil => simp [words.go, hb]
  | cons c cs ih =>
    obtain ⟨hc, hcs⟩ := List.forall_mem_cons.1 h
    simp [words.go, hc, ih hcs]

/-- A text without blanks is one word. -/
theorem words_of_not_blank (hne : cs ≠ []) (h : ∀ c ∈ cs, isBlank c = false) :
    words cs = [cs] := by
  unfold words
  rw [words_go_of_not_blank h]
  simp [hne]

/-- A word ends at the first blank. -/
theorem words_append_blank (hne : cs ≠ []) (h : ∀ c ∈ cs, isBlank c = false)
    (hb : isBlank b = true) (rest : List Char) : words (cs ++ b :: rest) = cs :: words rest := by
  unfold words
  rw [words_go_append_blank h hb]
  simp [hne]

end Text

/-! ## Sort keys -/

/-- A field that can be written as a sort key: some characters, and neither a comma nor a blank
among them. -/
def IsFieldName (field : String) : Prop :=
  field.toList ≠ [] ∧ ∀ c ∈ field.toList, c ≠ ',' ∧ Text.isBlank c = false

-- the characters of the field are looked at, not all characters that there are
instance : DecidablePred IsFieldName := fun field =>
  have : Decidable (∀ c ∈ field.toList, c ≠ ',' ∧ Text.isBlank c = false) :=
    List.decidableBAll _ field.toList
  inferInstanceAs (Decidable (_ ∧ _))

namespace SortItem

variable {field : String}

theorem ofText?_field (h : IsFieldName field) :
    ofText? field.toList = some ⟨field, false⟩ := by
  have hwords := Text.words_of_not_blank h.1 fun c hc => (h.2 c hc).2
  unfold ofText?
  rw [hwords]
  simp

theorem ofText?_descending (h : IsFieldName field) :
    ofText? (field.toList ++ ' ' :: "desc".toList) = some ⟨field, true⟩ := by
  have hwords := Text.words_append_blank h.1 (fun c hc => (h.2 c hc).2)
    (show Text.isBlank ' ' = true by decide) "desc".toList
  have hdesc : Text.words "desc".toList = ["desc".toList] := by decide
  unfold ofText?
  rw [hwords, hdesc]
  show some (SortItem.mk (String.ofList field.toList) (Text.sameBasic _ "desc".toList)) = _
  rw [String.ofList_toList]
  rfl

/-- A sort key that was written is read back. -/
theorem listOfText_sortClause (h : IsFieldName field) (descending : Bool) :
    listOfText (sortClause field descending) = [⟨field, descending⟩] := by
  have hfield : ',' ∉ field.toList := fun hc => (h.2 ',' hc).1 rfl
  unfold listOfText sortClause
  cases descending with
  | false =>
    rw [if_neg Bool.false_ne_true, Text.split_of_notMem hfield, List.filterMap_cons,
      ofText?_field h]
    rfl
  | true =>
    have htext : (field ++ " desc").toList = field.toList ++ ' ' :: "desc".toList := by
      rw [String.toList_append]
      rfl
    have hcomma : ',' ∉ field.toList ++ ' ' :: "desc".toList := by
      rw [List.mem_append]
      rintro (hc | hc)
      · exact hfield hc
      · exact absurd hc (by decide)
    rw [if_pos rfl, htext, Text.split_of_notMem hcomma, List.filterMap_cons,
      ofText?_descending h]
    rfl

/-- Sort keys that are written behind others come after them. -/
theorem listOfText_append (clause more : String) :
    listOfText (clause ++ "," ++ more) = listOfText clause ++ listOfText more := by
  have htext : (clause ++ "," ++ more).toList = clause.toList ++ ',' :: more.toList := by
    rw [String.toList_append, String.toList_append, List.append_assoc]
    rfl
  unfold listOfText
  rw [htext, Text.split_append, List.filterMap_append]

end SortItem

end DataAccess
