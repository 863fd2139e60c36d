import DataAccess.Number.Basic
import DataAccess.Number.Text

/-!
# What the text of a number determines

- `isNumeric`: the characters that numbers are written with.
- `Number.eq_of_chars_eq`: the text of an integer is the text of no other number. Integers have
  different digits, and a double precision number is written with a point or an exponent.
- `append_inj_of_stop`, `Number.eq_of_chars_append_eq`: where a number ends in a longer text.
-/

namespace DataAccess

/-- The characters that a number is written with. -/
def isNumeric (c : Char) : Bool := c.isDigit || c = '-' || c = '+' || c = '.' || c = 'e'

/-- Two texts in one class of characters that are followed by characters outside of it end at the
same place. -/
theorem append_inj_of_stop {p : Char → Bool} {as bs x y : List Char}
    (ha : ∀ c ∈ as, p c = true) (hb : ∀ c ∈ bs, p c = true)
    (hx : ∀ c ∈ x.head?, p c = false) (hy : ∀ c ∈ y.head?, p c = false)
    (h : as ++ x = bs ++ y) : as = bs ∧ x = y := by
  induction as generalizing bs with
  | nil =>
    cases bs with
    | nil => exact ⟨rfl, h⟩
    | cons b bs =>
      have hstop := hx b (by simp at h; simp [h])
      rw [hb b List.mem_cons_self] at hstop
      cases hstop
  | cons a as ih =>
    cases bs with
    | nil =>
      have hstop := hy a (by simp at h; simp [← h])
      rw [ha a List.mem_cons_self] at hstop
      cases hstop
    | cons b bs =>
      rw [List.cons_append, List.cons_append, List.cons.injEq] at h
      obtain ⟨rfl, h⟩ := h
      obtain ⟨rfl, hxy⟩ := ih (fun c hc => ha c (List.mem_cons_of_mem _ hc))
        (fun c hc => hb c (List.mem_cons_of_mem _ hc)) h
      exact ⟨rfl, hxy⟩

theorem isDigit_of_mem_natChars {n : Nat} {c : Char} (h : c ∈ natChars n) : c.isDigit = true :=
  Nat.isDigit_of_mem_toDigits (by decide) (by decide) h

theorem natChars_injective {m n : Nat} (h : natChars m = natChars n) : m = n := by
  have hm : Nat.ofDigitChars 10 (natChars m) 0 = m := Nat.ofDigitChars_ten_toDigits
  have hn : Nat.ofDigitChars 10 (natChars n) 0 = n := Nat.ofDigitChars_ten_toDigits
  rw [← hm, h, hn]

theorem exists_natChars_eq_cons (n : Nat) :
    ∃ c cs, natChars n = c :: cs ∧ c.isDigit = true := by
  have hne : natChars n ≠ [] := Nat.toDigits_ne_nil
  obtain ⟨c, cs, h⟩ := List.exists_cons_of_ne_nil hne
  have hmem : c ∈ natChars n := by simp [h]
  exact ⟨c, cs, h, isDigit_of_mem_natChars hmem⟩

theorem natChars_ne_minus {n : Nat} {cs : List Char} : natChars n ≠ '-' :: cs := by
  intro h
  have hmem : '-' ∈ natChars n := by simp [h]
  exact absurd (isDigit_of_mem_natChars hmem) (by decide)

theorem intChars_injective {m n : Int} (h : intChars m = intChars n) : m = n := by
  cases m with
  | ofNat m =>
    cases n with
    | ofNat n => rw [natChars_injective h]
    | negSucc n => exact absurd h natChars_ne_minus
  | negSucc m =>
    cases n with
    | ofNat n => exact absurd h.symm natChars_ne_minus
    | negSucc n =>
      have htail : natChars (m + 1) = natChars (n + 1) := List.tail_eq_of_cons_eq h
      rw [Nat.succ.inj (natChars_injective htail)]

theorem isNumeric_of_isDigit {c : Char} (h : c.isDigit = true) : isNumeric c = true := by
  simp [isNumeric, h]

theorem isNumeric_of_mem_natChars {n : Nat} {c : Char} (h : c ∈ natChars n) :
    isNumeric c = true := isNumeric_of_isDigit (isDigit_of_mem_natChars h)

/-- An integer is written with digits and at most a sign, which no other number is. -/
theorem isDigit_or_minus_of_mem_intChars {n : Int} {c : Char} (h : c ∈ intChars n) :
    c.isDigit = true ∨ c = '-' := by
  cases n with
  | ofNat n => exact .inl (isDigit_of_mem_natChars h)
  | negSucc n =>
    rcases List.mem_cons.1 h with rfl | h
    · exact .inr rfl
    · exact .inl (isDigit_of_mem_natChars h)

theorem isNumeric_of_mem_intChars {n : Int} {c : Char} (h : c ∈ intChars n) :
    isNumeric c = true := by
  rcases isDigit_or_minus_of_mem_intChars h with h | rfl
  · exact isNumeric_of_isDigit h
  · decide

namespace Double

theorem isNumeric_of_mem_layout {d : Decimal} {c : Char} (h : c ∈ layout d) :
    isNumeric c = true := by
  have hdigits : c ∈ natChars d.digits → isNumeric c = true := isNumeric_of_mem_natChars
  have hzeros : ∀ {k}, c ∈ List.replicate k '0' → isNumeric c = true := fun hc => by
    rw [List.eq_of_mem_replicate hc]
    decide
  have hsign : ∀ e : Int, isNumeric (if e < 0 then '-' else '+') = true := fun e => by
    split <;> decide
  have hpoint : isNumeric '.' = true ∧ isNumeric '0' = true ∧ isNumeric 'e' = true := by decide
  dsimp only [layout] at h
  split at h
  · split at h
    · simp only [List.mem_append, List.mem_cons, List.not_mem_nil, or_false] at h
      rcases h with (h | h) | rfl | rfl
      · exact hdigits h
      · exact hzeros h
      · exact hpoint.1
      · exact hpoint.2.1
    · split at h
      · simp only [List.mem_append, List.mem_cons] at h
        rcases h with h | rfl | h
        · exact hdigits (List.mem_of_mem_take h)
        · exact hpoint.1
        · exact hdigits (List.mem_of_mem_drop h)
      · simp only [List.mem_append, List.mem_cons] at h
        rcases h with (rfl | rfl | h) | h
        · exact hpoint.2.1
        · exact hpoint.1
        · exact hzeros h
        · exact hdigits h
  · simp only [List.mem_append, List.mem_cons] at h
    rcases h with h | rfl | rfl | h
    · -- the digits again, with a point after the first one if there are more
      split at h
      · cases h
      · exact hdigits (by simp_all)
      · rename_i hd
        rcases List.mem_cons.1 h with rfl | h
        · exact hdigits (by simp [hd])
        · rcases List.mem_cons.1 h with rfl | h
          · exact hpoint.1
          · exact hdigits (by simp [hd, h])
    · exact hpoint.2.2
    · exact hsign _
    · exact isNumeric_of_mem_natChars h

/-- A double precision number is written with a point or an exponent. -/
theorem exists_mem_layout (d : Decimal) : ∃ c ∈ layout d, c = '.' ∨ c = 'e' := by
  dsimp only [layout]
  split
  · refine ⟨'.', ?_, .inl rfl⟩
    split
    · simp
    · split <;> simp
  · exact ⟨'e', by simp, .inr rfl⟩

/-- The text of a decimal starts with a digit. -/
theorem exists_layout_eq_cons (d : Decimal) : ∃ c cs, layout d = c :: cs ∧ c.isDigit = true := by
  obtain ⟨c, cs, hdigits, hc⟩ := exists_natChars_eq_cons d.digits
  dsimp only [layout]
  rw [hdigits]
  split
  · split
    · exact ⟨c, _, rfl, hc⟩
    · split
      · -- at least one digit stands before the point
        rename_i hlead
        obtain ⟨k, hk⟩ : ∃ k, (d.exponent + (c :: cs).length - 1 + 1).toNat = k + 1 :=
          ⟨(d.exponent + (c :: cs).length - 1).toNat, by omega⟩
        rw [hk, List.take_succ_cons]
        exact ⟨c, _, rfl, hc⟩
      · exact ⟨'0', _, rfl, by decide⟩
  · split
    · rename_i h
      cases h
    · rename_i h
      cases h
      exact ⟨c, _, rfl, hc⟩
    · rename_i h
      cases h
      exact ⟨c, _, rfl, hc⟩

theorem isNumeric_of_mem_chars {x : Double} {c : Char} (h : c ∈ x.chars) :
    isNumeric c = true := by
  unfold chars at h
  split at h
  · rcases List.mem_cons.1 h with rfl | h
    · decide
    · exact isNumeric_of_mem_layout h
  · exact isNumeric_of_mem_layout h

theorem intChars_ne_chars (n : Int) (x : Double) : intChars n ≠ x.chars := by
  intro h
  obtain ⟨c, hc, hpoint⟩ := exists_mem_layout x.shortest
  have hx : c ∈ x.chars := by
    unfold chars
    split
    · exact List.mem_cons_of_mem _ hc
    · exact hc
  rcases isDigit_or_minus_of_mem_intChars (h ▸ hx) with hd | rfl
  · rcases hpoint with rfl | rfl <;> exact absurd hd (by decide)
  · exact absurd hpoint (by decide)

end Double

namespace Number

theorem isNumeric_of_mem_chars {n : Number} {c : Char} (h : c ∈ n.chars) :
    isNumeric c = true := by
  cases n with
  | int n => exact isNumeric_of_mem_intChars h
  | double x => exact Double.isNumeric_of_mem_chars h

/-- The text of an integer is the text of no other number. -/
theorem eq_of_chars_eq {n : Int} {b : Number} (h : (int n).chars = b.chars) : int n = b := by
  cases b with
  | int m => rw [intChars_injective h]
  | double x => exact absurd h (Double.intChars_ne_chars n x)

/-- The text of an integer is found in a longer text where no further character of a number
follows. -/
theorem eq_of_chars_append_eq {n : Int} {b : Number} {x y : List Char}
    (hx : ∀ c ∈ x.head?, isNumeric c = false) (hy : ∀ c ∈ y.head?, isNumeric c = false)
    (h : (int n).chars ++ x = b.chars ++ y) : int n = b ∧ x = y := by
  obtain ⟨hchars, hxy⟩ := append_inj_of_stop (fun _ => isNumeric_of_mem_chars)
    (fun _ => isNumeric_of_mem_chars) hx hy h
  exact ⟨eq_of_chars_eq hchars, hxy⟩

end Number

end DataAccess
