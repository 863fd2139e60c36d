import DataAccess.Text.Pieces

/-!
# White space

Blank characters are the twenty-five code points with the Unicode property `White_Space`.

- `Text.isBlank`: whether a character is blank.
- `Text.trim`: a text without the blanks around it.
- `Text.words`: the maximal runs of characters that are not blank.
- `Text.items`: the entries of a comma separated list, trimmed, empty ones dropped.
- `Text.items_join`: a list of clean entries, joined by commas, is read back.
-/

namespace DataAccess

namespace Text

/-- The ranges of code points with the property `White_Space`, in ascending order. -/
def blankRanges : List (Nat × Nat) :=
  [(0x09, 0x0D), (0x20, 0x20), (0x85, 0x85), (0xA0, 0xA0), (0x1680, 0x1680), (0x2000, 0x200A),
   (0x2028, 0x2029), (0x202F, 0x202F), (0x205F, 0x205F), (0x3000, 0x3000)]

/-- Whether a character is white space. -/
def isBlank (c : Char) : Bool :=
  blankRanges.any fun (first, last) => first ≤ c.toNat && c.toNat ≤ last

/-- A text without the blanks at its start and at its end. -/
def trim (cs : List Char) : List Char :=
  ((cs.dropWhile isBlank).reverse.dropWhile isBlank).reverse

/-- The words of a text: its maximal runs of characters that are not blank. -/
def words (cs : List Char) : List (List Char) :=
  (go cs).filter (fun word => !word.isEmpty)
where
  /-- The runs between single blanks, empty ones included. -/
  go : List Char → List (List Char)
    | [] => [[]]
    | c :: rest =>
      if isBlank c then [] :: go rest
      else match go rest with
        | [] => [[c]]
        | word :: rest => (c :: word) :: rest

/-- The entries of a comma separated list, without the blanks around each; empty entries do not
count. -/
def items (cs : List Char) : List (List Char) :=
  ((split ',' cs).map trim).filter (fun item => !item.isEmpty)

/-- An entry that a comma separated list can hold: some characters, no comma, and no blank at
either end. -/
def Clean (cs : List Char) : Prop :=
  cs ≠ [] ∧ ',' ∉ cs ∧ trim cs = cs

instance (cs : List Char) : Decidable (Clean cs) :=
  inferInstanceAs (Decidable (_ ∧ _))

/-! ## Lemmas -/

/-- Clean entries, joined by commas, are read back one by one. -/
theorem items_join {pieces : List (List Char)} (h : ∀ piece ∈ pieces, Clean piece) :
    items (join [','] pieces) = pieces := by
  cases pieces with
  | nil => rfl
  | cons piece rest =>
    have hs : split ',' (join [','] (piece :: rest)) = piece :: rest :=
      split_join (by simp) fun p hp => (h p hp).2.1
    have hm : (piece :: rest).map trim = piece :: rest := by
      rw [List.map_congr_left (g := id) fun p hp => (h p hp).2.2, List.map_id]
    have hf : (piece :: rest).filter (fun item => !item.isEmpty) = piece :: rest :=
      List.filter_eq_self.2 fun p hp => by
        have := (h p hp).1
        cases p <;> simp_all
    rw [items, hs, hm, hf]

end Text

end DataAccess
