/-!
# Cutting, joining and searching text

Texts are read as lists of characters here, so that every function is a plain recursion.

- `Text.split`: the pieces between separators, one more than there are separators.
- `Text.join`: the pieces written one after the other with a separator between them.
- `Text.replace`: every occurrence of one character written as a given text.
- `Text.occurs`: whether a text occurs somewhere inside another.
- `Text.split_join`: cutting what was joined gives the pieces back, when there is a piece and
  none of them holds the separator; `Text.eq_of_join_eq`: so joined pieces are told apart.
- `Text.replace_replace`: a replaced character is found again.
-/

namespace DataAccess

namespace Text

/-- The pieces of a text between the occurrences of a separator. There is always at least one
piece, and pieces may be empty. -/
def split (sep : Char) : List Char → List (List Char)
  | [] => [[]]
  | c :: rest =>
    if c = sep then [] :: split sep rest
    else match split sep rest with
      | [] => [[c]]
      | piece :: pieces => (c :: piece) :: pieces

/-- The pieces one after the other, with the separator between two neighbours. -/
def join (sep : List Char) : List (List Char) → List Char
  | [] => []
  | [piece] => piece
  | piece :: next :: pieces => piece ++ sep ++ join sep (next :: pieces)

/-- Every occurrence of `old` written as `new`, all other characters kept. -/
def replace (old : Char) (new : List Char) : List Char → List Char
  | [] => []
  | c :: rest => if c = old then new ++ replace old new rest else c :: replace old new rest

/-- Whether `part` occurs in the text, at any place. -/
def occurs (part : List Char) : List Char → Bool
  | [] => part.isEmpty
  | c :: rest => part.isPrefixOf (c :: rest) || occurs part rest

/-! ## Lemmas -/

theorem occurs_iff {part cs : List Char} : occurs part cs = true ↔ part <:+: cs := by
  induction cs with
  | nil => rw [occurs, List.isEmpty_iff, List.infix_nil]
  | cons c rest ih =>
    rw [occurs, Bool.or_eq_true, List.isPrefixOf_iff_prefix, ih, List.infix_cons_iff]

theorem split_ne_nil (sep : Char) (cs : List Char) : split sep cs ≠ [] := by
  cases cs with
  | nil => exact List.cons_ne_nil _ _
  | cons c rest =>
    unfold split
    split
    · exact List.cons_ne_nil _ _
    · split <;> exact List.cons_ne_nil _ _

theorem split_of_notMem {sep : Char} {cs : List Char} (h : sep ∉ cs) : split sep cs = [cs] := by
  induction cs with
  | nil => rfl
  | cons c rest ih =>
    have hc : c ≠ sep := fun e => h (by simp [e])
    have hr : sep ∉ rest := fun m => h (List.mem_cons_of_mem _ m)
    simp [split, hc, ih hr]

theorem split_append_sep {sep : Char} {piece : List Char} (h : sep ∉ piece) (rest : List Char) :
    split sep (piece ++ sep :: rest) = piece :: split sep rest := by
  induction piece with
  | nil => simp [split]
  | cons c piece ih =>
    have hc : c ≠ sep := fun e => h (by simp [e])
    have hp : sep ∉ piece := fun m => h (List.mem_cons_of_mem _ m)
    simp [split, hc, ih hp]

/-- Joined pieces that are free of the separator are found again. -/
theorem split_join {sep : Char} {pieces : List (List Char)} (hne : pieces ≠ [])
    (h : ∀ piece ∈ pieces, sep ∉ piece) : split sep (join [sep] pieces) = pieces := by
  induction pieces with
  | nil => exact absurd rfl hne
  | cons piece rest ih =>
    cases rest with
    | nil => exact split_of_notMem (h piece (by simp))
    | cons next rest =>
      have hp : sep ∉ piece := h piece (by simp)
      have hr := ih (by simp) (fun q hq => h q (List.mem_cons_of_mem _ hq))
      simp only [join, List.append_assoc, List.singleton_append, split_append_sep hp, hr]

/-- Joined pieces are the first piece and then every other piece after a separator. -/
theorem join_cons (sep : Char) (piece : List Char) (rest : List (List Char)) :
    join [sep] (piece :: rest) = piece ++ rest.flatMap (sep :: ·) := by
  induction rest generalizing piece with
  | nil => simp [join]
  | cons next rest ih => simp [join, ih]

theorem mem_join {sep c : Char} {pieces : List (List Char)} (h : c ∈ join [sep] pieces) :
    c = sep ∨ ∃ piece ∈ pieces, c ∈ piece := by
  cases pieces with
  | nil => cases h
  | cons piece rest =>
    rw [join_cons, List.mem_append, List.mem_flatMap] at h
    rcases h with h | ⟨other, hother, h⟩
    · exact .inr ⟨piece, List.mem_cons_self, h⟩
    · rcases List.mem_cons.1 h with h | h
      · exact .inl h
      · exact .inr ⟨other, List.mem_cons_of_mem _ hother, h⟩

/-- Pieces that each follow a separator are found again. -/
theorem eq_of_flatMap_sep_eq {sep : Char} {pieces others : List (List Char)}
    (h : ∀ piece ∈ pieces, sep ∉ piece)
    (h' : ∀ piece ∈ others, sep ∉ piece)
    (heq : pieces.flatMap (sep :: ·) = others.flatMap (sep :: ·)) : pieces = others := by
  have hsplit : ∀ {pieces : List (List Char)}, (∀ piece ∈ pieces, sep ∉ piece) →
      split sep (pieces.flatMap (sep :: ·)) = [] :: pieces := by
    intro pieces hpieces
    have hjoin := join_cons sep [] pieces
    rw [List.nil_append] at hjoin
    rw [← hjoin]
    refine split_join (by simp) fun piece hpiece => ?_
    rcases List.mem_cons.1 hpiece with rfl | hpiece
    · exact List.not_mem_nil
    · exact hpieces piece hpiece
  have hboth := hsplit h
  rw [heq, hsplit h'] at hboth
  exact (List.tail_eq_of_cons_eq hboth).symm

/-- Pieces that are not empty are found again where they are joined. -/
theorem eq_of_join_eq {sep : Char} {pieces others : List (List Char)}
    (h : ∀ piece ∈ pieces, sep ∉ piece ∧ piece ≠ [])
    (h' : ∀ piece ∈ others, sep ∉ piece ∧ piece ≠ [])
    (heq : join [sep] pieces = join [sep] others) : pieces = others := by
  have hnil : ∀ {piece : List Char} {rest : List (List Char)}, piece ≠ [] →
      join [sep] (piece :: rest) ≠ [] := by
    intro piece rest hne hjoin
    rw [join_cons] at hjoin
    exact hne (List.append_eq_nil_iff.1 hjoin).1
  cases pieces with
  | nil =>
    cases others with
    | nil => rfl
    | cons other others => exact absurd heq.symm (hnil (h' other List.mem_cons_self).2)
  | cons piece pieces =>
    cases others with
    | nil => exact absurd heq (hnil (h piece List.mem_cons_self).2)
    | cons other others =>
      have hsplit := split_join (List.cons_ne_nil piece pieces) fun p hp => (h p hp).1
      rw [heq, split_join (List.cons_ne_nil other others) fun p hp => (h' p hp).1] at hsplit
      exact hsplit.symm

/-- A character that was replaced by one that the text did not hold is found again. -/
theorem replace_replace {old new : Char} {cs : List Char} (h : new ∉ cs) :
    replace new [old] (replace old [new] cs) = cs := by
  induction cs with
  | nil => rfl
  | cons c rest ih =>
    obtain ⟨hc, hrest⟩ := not_or.1 (mt List.mem_cons.2 h)
    by_cases hold : c = old
    · simp [replace, hold, ih hrest]
    · simp [replace, hold, Ne.symm hc, ih hrest]

theorem mem_replace {old c : Char} {new cs : List Char} (h : c ∈ replace old new cs) :
    c ∈ new ∨ c ∈ cs ∧ c ≠ old := by
  induction cs with
  | nil => cases h
  | cons d rest ih =>
    have hrest : c ∈ replace old new rest → c ∈ new ∨ c ∈ d :: rest ∧ c ≠ old := fun h =>
      (ih h).imp id fun h => ⟨List.mem_cons_of_mem _ h.1, h.2⟩
    unfold replace at h
    split at h
    · rcases List.mem_append.1 h with h | h
      · exact .inl h
      · exact hrest h
    · rename_i hold
      rcases List.mem_cons.1 h with rfl | h
      · exact .inr ⟨List.mem_cons_self, hold⟩
      · exact hrest h

end Text

end DataAccess
