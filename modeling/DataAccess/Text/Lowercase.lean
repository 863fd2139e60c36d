import DataAccess.Text.Lowercase.Table

/-!
# Lower case

Tokens are compared without regard to case by their lower-case form in the sense of the Unicode
standard, which is defined on whole texts: a capital sigma becomes a final sigma at the end of a
word, and one capital letter has a lower-case form of two code points.

- `Text.lowercase`: the lower-case form of a text.
- `Text.lowercase_of_basic`: on a text of basic Latin characters it acts character by character.
-/

namespace DataAccess

namespace Text

/-- Whether a code point lies in one of the ranges. -/
def inRanges (ranges : List (Nat × Nat)) (n : Nat) : Bool :=
  ranges.any fun (first, last) => first ≤ n && n ≤ last

/-- Passed over when the neighbour of a sigma is looked for. -/
def isCaseIgnorable (c : Char) : Bool := inRanges caseIgnorableRanges c.toNat

/-- A letter with case. -/
def isCased (c : Char) : Bool := inRanges casedRanges c.toNat

/-- The partner of a code point in a run, if the run holds it. -/
def LowerRun.partner? (run : LowerRun) (n : Nat) : Option Nat :=
  if run.first ≤ n ∧ n ≤ run.last ∧ (n - run.first) % run.step = 0 then
    some (run.target + (n - run.first))
  else none

/-- The lower-case form of one character, taken by itself. -/
def lowercaseChar (c : Char) : List Char :=
  if c.toNat < 0x80 then [c.toLower]
  else if c.toNat = 0x130 then ['i', Char.ofNat 0x307]
  else match lowerRuns.findSome? (·.partner? c.toNat) with
    | some n => [Char.ofNat n]
    | none => [c]

/-- Whether the first character that is not passed over is a letter with case. -/
def startsCased (cs : List Char) : Bool :=
  match cs.dropWhile isCaseIgnorable with
  | [] => false
  | c :: _ => isCased c

/-- The lower-case form of a text that follows the characters `before`, the nearest of them
first. A capital sigma is final when a letter stands before it and none after it. -/
def lowercaseAfter (before : List Char) : List Char → List Char
  | [] => []
  | c :: rest =>
    let here :=
      if c.toNat = 0x3A3 then
        [Char.ofNat (if startsCased before && !startsCased rest then 0x3C2 else 0x3C3)]
      else lowercaseChar c
    here ++ lowercaseAfter (c :: before) rest

/-- The lower-case form of a text. -/
def lowercase (cs : List Char) : List Char := lowercaseAfter [] cs

/-- Whether two texts agree up to the case of basic Latin letters. -/
def sameBasic (as bs : List Char) : Bool := as.map Char.toLower == bs.map Char.toLower

/-! ## Lemmas -/

theorem lowercaseAfter_of_basic {cs : List Char} (before : List Char)
    (h : ∀ c ∈ cs, c.toNat < 0x80) : lowercaseAfter before cs = cs.map Char.toLower := by
  induction cs generalizing before with
  | nil => rfl
  | cons c rest ih =>
    have hc : c.toNat < 0x80 := h c (by simp)
    have hs : c.toNat ≠ 0x3A3 := by omega
    have hr := ih (c :: before) (fun d hd => h d (List.mem_cons_of_mem _ hd))
    simp [lowercaseAfter, hs, lowercaseChar, hc, hr]

/-- On basic Latin characters the lower-case form is taken character by character. -/
theorem lowercase_of_basic {cs : List Char} (h : ∀ c ∈ cs, c.toNat < 0x80) :
    lowercase cs = cs.map Char.toLower :=
  lowercaseAfter_of_basic [] h

end Text

end DataAccess
