import DataAccess.Proofs.Number.Writing
import DataAccess.Value.Equality
import DataAccess.Value.Reader
import DataAccess.Value.Text

/-!
# What the text of a value determines

Entities are tracked by the text of their key value. Two keys are tracked in one place only if
they have the same text, so the texts have to tell keys apart.

- `Value.readText_flatMap_escapeChar`: a quoted text is read back as it was.
- `Value.exists_chars_eq_cons`: the first character of a text shows the kind of the value.
- `Value.eq_of_render_eq`: the text of a value without double precision numbers is the text of no
  other value.

The induction behind the last one needs to know where a part of a text ends. After a value the
text of an array or object goes on with a comma, a bracket or a brace, or it is over
(`Value.Stops`), and none of these can stand inside a number.
-/

namespace DataAccess

namespace Value

/-! ## Quoted texts are read back -/

theorem hexDigit?_hexChar : ∀ n < 16, hexDigit? (hexChar n) = some n := by decide

theorem readCode_hexChar {n : Nat} (h : n < 32) (rest : List Char) :
    readCode ('0' :: '0' :: hexChar (n / 16) :: hexChar (n % 16) :: rest) =
      some (Char.ofNat n, rest) := by
  have hzero : hexDigit? '0' = some 0 := by decide
  have hhigh : hexDigit? (hexChar (n / 16)) = some (n / 16) := hexDigit?_hexChar _ (by omega)
  have hlow : hexDigit? (hexChar (n % 16)) = some (n % 16) := hexDigit?_hexChar _ (by omega)
  have hn : n / 16 * 16 + n % 16 = n := by omega
  have hfirst : ¬ (0xD800 ≤ n ∧ n < 0xDC00) := by omega
  have hsecond : ¬ (0xDC00 ≤ n ∧ n < 0xE000) := by omega
  simp [readCode, readUnit, hzero, hhigh, hlow, hn, hfirst, hsecond]

theorem readText_letter {letter c : Char} (fuel : Nat) (rest : List Char) (hu : letter ≠ 'u')
    (h : escaped? letter = some c) :
    readText (fuel + 1) ('\\' :: letter :: rest) =
      (readText fuel rest).map fun (text, rest) => (c :: text, rest) := by
  simp [readText, h]
  cases readText fuel rest <;> rfl

/-- A character is read back from its escaped form. -/
theorem readText_escapeChar (fuel : Nat) (c : Char) (rest : List Char) :
    readText (fuel + 1) (escapeChar c ++ rest) =
      (readText fuel rest).map fun (text, rest) => (c :: text, rest) := by
  have hc : ∀ {n}, c.toNat = n → some (Char.ofNat n) = some c := fun h => by
    rw [← h, Char.ofNat_toNat]
  unfold escapeChar
  split
  · subst c
    exact readText_letter fuel rest (by decide) rfl
  split
  · subst c
    exact readText_letter fuel rest (by decide) rfl
  split
  · exact readText_letter fuel rest (by decide) (hc ‹_›)
  split
  · exact readText_letter fuel rest (by decide) (hc ‹_›)
  split
  · exact readText_letter fuel rest (by decide) (hc ‹_›)
  split
  · exact readText_letter fuel rest (by decide) (hc ‹_›)
  split
  · exact readText_letter fuel rest (by decide) (hc ‹_›)
  split
  · rename_i h
    simp [readText, readCode_hexChar h]
    cases readText fuel rest <;> rfl
  · rename_i hquote hback _ _ _ _ _ hlow
    simp [readText, hback, hlow]
    cases readText fuel rest <;> rfl

/-- A text is read back from its quoted form, and so is where it ended. -/
theorem readText_flatMap_escapeChar {fuel : Nat} {cs : List Char} (h : cs.length < fuel)
    (rest : List Char) :
    readText fuel (cs.flatMap escapeChar ++ '"' :: rest) = some (cs, rest) := by
  induction cs generalizing fuel with
  | nil =>
    obtain ⟨fuel, rfl⟩ := Nat.exists_eq_add_of_lt h
    simp [readText]
  | cons c cs ih =>
    cases fuel with
    | zero => exact absurd h (Nat.not_lt_zero _)
    | succ fuel =>
      rw [List.flatMap_cons, List.append_assoc, readText_escapeChar,
        ih (Nat.lt_of_succ_lt_succ h)]
      rfl

theorem eq_of_quoteChars_append_eq {m n : String} {x y : List Char}
    (h : quoteChars m ++ x = quoteChars n ++ y) : m = n ∧ x = y := by
  have hbody : m.toList.flatMap escapeChar ++ '"' :: x =
      n.toList.flatMap escapeChar ++ '"' :: y := by
    simpa [quoteChars] using h
  -- enough fuel for both texts
  have hm : m.toList.length < m.toList.length + n.toList.length + 1 := by omega
  have hn : n.toList.length < m.toList.length + n.toList.length + 1 := by omega
  have hread := readText_flatMap_escapeChar hm x
  rw [hbody, readText_flatMap_escapeChar hn y, Option.some.injEq, Prod.mk.injEq,
    String.toList_inj] at hread
  exact ⟨hread.1.symm, hread.2.symm⟩

/-! ## Values -/

/-- What can follow a value in the text of an array or object: nothing more, or one of the
characters that end a part. -/
def Stops (x : List Char) : Prop := ∀ c ∈ x.head?, c = ',' ∨ c = ']' ∨ c = '\x7d'

theorem stops_nil : Stops [] := nofun

theorem stops_itemChars (items : List Value) (x : List Char) :
    Stops (itemChars items ++ ']' :: x) := by
  cases items <;> simp [Stops, itemChars]

theorem stops_fieldChars (fields : List (String × Value)) (x : List Char) :
    Stops (fieldChars fields ++ '\x7d' :: x) := by
  cases fields <;> simp [Stops, fieldChars]

theorem Stops.isNumeric_eq_false {x : List Char} (h : Stops x) :
    ∀ c ∈ x.head?, isNumeric c = false := by
  intro c hc
  rcases h c hc with rfl | rfl | rfl <;> decide

/-- The kinds of values, each of which starts its texts in a way of its own. -/
inductive Kind where
  | null
  | bool (b : Bool)
  | number
  | string
  | array
  | object
  deriving DecidableEq

/-- The kind of a value. -/
def kind : Value → Kind
  | null => .null
  | bool b => .bool b
  | number _ => .number
  | string _ => .string
  | array _ => .array
  | object _ => .object

/-- The kind of the values whose texts start with a character. -/
def Kind.ofChar? (c : Char) : Option Kind :=
  if c = 'n' then some .null
  else if c = 't' then some (.bool true)
  else if c = 'f' then some (.bool false)
  else if c = '"' then some .string
  else if c = '[' then some .array
  else if c = '\x7b' then some .object
  else if c.isDigit ∨ c = '-' then some .number
  else none

theorem ofChar?_of_isDigit {c : Char} (h : c.isDigit = true) :
    Kind.ofChar? c = some .number := by
  have hne : ∀ d : Char, d.isDigit = false → c ≠ d := by
    rintro d hd rfl
    rw [h] at hd
    cases hd
  simp [Kind.ofChar?, h, hne 'n' rfl, hne 't' rfl, hne 'f' rfl, hne '"' rfl, hne '[' rfl,
    hne '\x7b' rfl]

theorem exists_number_chars_eq_cons (n : Number) :
    ∃ c cs, n.chars = c :: cs ∧ Kind.ofChar? c = some .number := by
  have hminus : Kind.ofChar? '-' = some .number := by decide
  cases n with
  | int n =>
    cases n with
    | ofNat n =>
      obtain ⟨c, cs, h, hc⟩ := exists_natChars_eq_cons n
      exact ⟨c, cs, h, ofChar?_of_isDigit hc⟩
    | negSucc n => exact ⟨'-', _, rfl, hminus⟩
  | double x =>
    obtain ⟨c, cs, h, hc⟩ := Double.exists_layout_eq_cons x.shortest
    cases hn : x.negative with
    | true => exact ⟨'-', _, by rw [Number.chars, Double.chars, if_pos hn], hminus⟩
    | false =>
      refine ⟨c, cs, ?_, ofChar?_of_isDigit hc⟩
      rw [Number.chars, Double.chars, if_neg (by simp [hn]), h]

/-- The first character of a text shows the kind of its value. -/
theorem exists_chars_eq_cons (v : Value) :
    ∃ c cs, v.chars = c :: cs ∧ Kind.ofChar? c = some v.kind := by
  cases v with
  | null => exact ⟨'n', _, rfl, rfl⟩
  | bool b => cases b <;> exact ⟨_, _, rfl, rfl⟩
  | number n => exact exists_number_chars_eq_cons n
  | string s => exact ⟨'"', _, rfl, rfl⟩
  | array items => cases items <;> exact ⟨'[', _, rfl, rfl⟩
  | object fields =>
    rcases fields with _ | ⟨⟨name, value⟩, rest⟩ <;> exact ⟨'\x7b', _, rfl, rfl⟩

theorem kind_eq_of_chars_append_eq {a b : Value} {x y : List Char}
    (h : a.chars ++ x = b.chars ++ y) : a.kind = b.kind := by
  obtain ⟨c, cs, ha, hac⟩ := exists_chars_eq_cons a
  obtain ⟨d, ds, hb, hbd⟩ := exists_chars_eq_cons b
  rw [ha, hb, List.cons_append, List.cons_append, List.cons.injEq] at h
  rw [h.1, hbd, Option.some.injEq] at hac
  exact hac.symm

/-- No value is written as the end of an array or object. -/
theorem chars_append_ne_cons {v : Value} {c : Char} {x y : List Char}
    (hc : Kind.ofChar? c = none) : v.chars ++ x ≠ c :: y := by
  intro h
  obtain ⟨d, ds, hv, hd⟩ := exists_chars_eq_cons v
  rw [hv, List.cons_append, List.cons.injEq] at h
  rw [h.1, hc] at hd
  cases hd

mutual

/-- Two values whose texts go on in the same way are equal, if one of them is exact. -/
theorem eq_of_chars_append_eq : (a b : Value) → a.isExact = true → {x y : List Char} →
    Stops x → Stops y → a.chars ++ x = b.chars ++ y → a = b ∧ x = y
  | null, b => by
    intro _ x y _ _ h
    have hk := kind_eq_of_chars_append_eq h
    cases b with
    | null => exact ⟨rfl, List.append_cancel_left h⟩
    | _ => cases hk
  | bool p, b => by
    intro _ x y _ _ h
    have hk := kind_eq_of_chars_append_eq h
    cases b with
    | bool q =>
      cases hk
      exact ⟨rfl, List.append_cancel_left h⟩
    | _ => cases hk
  | number (.double _), _ => by
    intro he
    cases he
  | number (.int m), b => by
    intro _ x y hx hy h
    have hk := kind_eq_of_chars_append_eq h
    cases b with
    | number n =>
      obtain ⟨rfl, hxy⟩ :=
        Number.eq_of_chars_append_eq hx.isNumeric_eq_false hy.isNumeric_eq_false h
      exact ⟨rfl, hxy⟩
    | _ => cases hk
  | string s, b => by
    intro _ x y _ _ h
    have hk := kind_eq_of_chars_append_eq h
    cases b with
    | string t =>
      obtain ⟨rfl, hxy⟩ := eq_of_quoteChars_append_eq h
      exact ⟨rfl, hxy⟩
    | _ => cases hk
  | array [], b => by
    intro _ x y _ _ h
    have hk := kind_eq_of_chars_append_eq h
    cases b with
    | array items =>
      cases items with
      | nil => exact ⟨rfl, List.append_cancel_left h⟩
      | cons item rest =>
        simp [chars] at h
        exact absurd h.symm (chars_append_ne_cons (by decide))
    | _ => cases hk
  | array (a :: as), b => by
    intro he x y _ _ h
    have hk := kind_eq_of_chars_append_eq h
    cases b with
    | array items =>
      cases items with
      | nil =>
        simp [chars] at h
        exact absurd h (chars_append_ne_cons (by decide))
      | cons b bs =>
        simp only [isExact, isExactItems, Bool.and_eq_true] at he
        simp only [chars, List.cons_append, List.append_assoc, List.cons.injEq, true_and,
          List.nil_append] at h
        obtain ⟨rfl, hrest⟩ := eq_of_chars_append_eq a b he.1 (stops_itemChars as x)
          (stops_itemChars bs y) h
        obtain ⟨rfl, hxy⟩ := eq_of_itemChars_append_eq as bs he.2 hrest
        exact ⟨rfl, hxy⟩
    | _ => cases hk
  | object [], b => by
    intro _ x y _ _ h
    have hk := kind_eq_of_chars_append_eq h
    cases b with
    | object fields =>
      cases fields with
      | nil => exact ⟨rfl, List.append_cancel_left h⟩
      | cons field rest => simp [chars, quoteChars] at h
    | _ => cases hk
  | object ((m, a) :: as), b => by
    intro he x y _ _ h
    have hk := kind_eq_of_chars_append_eq h
    cases b with
    | object fields =>
      cases fields with
      | nil => simp [chars, quoteChars] at h
      | cons field bs =>
        obtain ⟨n, b⟩ := field
        simp only [isExact, isExactFields, Bool.and_eq_true] at he
        simp only [chars, List.cons_append, List.append_assoc, List.cons.injEq, true_and,
          List.nil_append] at h
        obtain ⟨rfl, hvalue⟩ := eq_of_quoteChars_append_eq h
        obtain ⟨rfl, hrest⟩ := eq_of_chars_append_eq a b he.1 (stops_fieldChars as x)
          (stops_fieldChars bs y) (List.tail_eq_of_cons_eq hvalue)
        obtain ⟨rfl, hxy⟩ := eq_of_fieldChars_append_eq as bs he.2 hrest
        exact ⟨rfl, hxy⟩
    | _ => cases hk

theorem eq_of_itemChars_append_eq : (as bs : List Value) → isExactItems as = true →
    {x y : List Char} → itemChars as ++ ']' :: x = itemChars bs ++ ']' :: y → as = bs ∧ x = y
  | [], [] => by simp [itemChars]
  | [], _ :: _ => by simp [itemChars]
  | _ :: _, [] => by simp [itemChars]
  | a :: as, b :: bs => by
    intro he x y h
    simp only [isExactItems, Bool.and_eq_true] at he
    simp only [itemChars, List.cons_append, List.append_assoc, List.cons.injEq, true_and] at h
    obtain ⟨rfl, hrest⟩ := eq_of_chars_append_eq a b he.1 (stops_itemChars as x)
      (stops_itemChars bs y) h
    obtain ⟨rfl, hxy⟩ := eq_of_itemChars_append_eq as bs he.2 hrest
    exact ⟨rfl, hxy⟩

theorem eq_of_fieldChars_append_eq : (as bs : List (String × Value)) → isExactFields as = true →
    {x y : List Char} → fieldChars as ++ '\x7d' :: x = fieldChars bs ++ '\x7d' :: y →
    as = bs ∧ x = y
  | [], [] => by simp [fieldChars]
  | [], _ :: _ => by simp [fieldChars]
  | _ :: _, [] => by simp [fieldChars]
  | (m, a) :: as, (n, b) :: bs => by
    intro he x y h
    simp only [isExactFields, Bool.and_eq_true] at he
    simp only [fieldChars, List.cons_append, List.append_assoc, List.cons.injEq, true_and] at h
    obtain ⟨rfl, hvalue⟩ := eq_of_quoteChars_append_eq h
    obtain ⟨rfl, hrest⟩ := eq_of_chars_append_eq a b he.1 (stops_fieldChars as x)
      (stops_fieldChars bs y) (List.tail_eq_of_cons_eq hvalue)
    obtain ⟨rfl, hxy⟩ := eq_of_fieldChars_append_eq as bs he.2 hrest
    exact ⟨rfl, hxy⟩

end

/-- The text of an exact value is the text of no other value. -/
theorem eq_of_render_eq {a b : Value} (he : a.isExact = true) (h : a.render = b.render) :
    a = b := by
  have hchars : a.chars = b.chars := by rw [← toList_render, h, toList_render]
  have happ : a.chars ++ [] = b.chars ++ [] := by rw [hchars]
  exact (eq_of_chars_append_eq a b he stops_nil stops_nil happ).1

end Value

end DataAccess
