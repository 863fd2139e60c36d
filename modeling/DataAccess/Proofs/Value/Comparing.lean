import DataAccess.Proofs.Value.Sameness
import DataAccess.Value.Order

/-!
# Comparing values and telling keys apart

Rows are found in two ways: a query compares values by `Value.compare?`, and a table tells key
values apart by `Value.same`. The two notions differ in two places. Lists and objects can be the
same and cannot be compared; numbers of different kinds, and integers that no double precision
number tells apart, can compare equal and are not the same.

- `Value.isScalar`: the values that can be compared with themselves.
- `Value.compare?_eq_none`, `Value.compare?_of_same`: what comparing does to each kind.
- `Value.same_of_compare?`: apart from numbers, values that compare equal are the same.
- `Record.get?_overlay_map`: the fields of a record that was made from a list of names.
- `Record.sameFields_iff`: sorted records are the same where they hold the same under every name.
-/

namespace DataAccess

namespace Value

/-- Neither a list nor an object. -/
def isScalar : Value → Bool
  | null | bool _ | number _ | string _ => true
  | array _ | object _ => false

/-- Lists and objects cannot be compared with anything. -/
theorem compare?_eq_none {b : Value} (h : b.isScalar = false) (a : Value) :
    a.compare? b = none := by
  cases b with
  | array items => cases a <;> rfl
  | object fields => cases a <;> rfl
  | _ => cases h

/-- Other values compare equal where they are the same. -/
theorem compare?_of_same {a b : Value} (hscalar : b.isScalar = true) (h : a.same b = true) :
    a.compare? b = some .eq := by
  cases a <;> cases b <;> first | cases h | skip
  · rfl
  · exact congrArg some (Std.compare_eq_iff_eq.2 (eq_of_beq h))
  · exact congrArg some (Number.compare_eq_of_same h)
  · exact congrArg some (Std.compare_eq_iff_eq.2 (eq_of_beq h))
  · cases hscalar
  · cases hscalar

/-- Values that compare equal are the same, unless they are numbers. -/
theorem same_of_compare? {a b : Value} (h : a.compare? b = some .eq)
    (hnumber : ∀ m n, a = number m → b = number n → m.same n = true) : a.same b = true := by
  cases a <;> cases b <;> first | cases h | skip
  · rfl
  · exact beq_iff_eq.2 (Std.compare_eq_iff_eq.1 (Option.some.inj h))
  · exact hnumber _ _ rfl rfl
  · exact beq_iff_eq.2 (Std.compare_eq_iff_eq.1 (Option.some.inj h))

end Value

namespace Record

/-! ## Records as functions of names -/

/-- In a sorted record no name before the first one has a value. -/
theorem get?_eq_none_of_lt {r : Record} {name : String} (h : ∀ field ∈ r, name < field.1) :
    r.get? name = none := by
  induction r with
  | nil => rfl
  | cons field rest ih =>
    rw [get?_cons, if_neg fun heq => String.lt_irrefl name (by simpa [heq] using h field (by simp))]
    exact ih fun field hfield => h field (List.mem_cons_of_mem _ hfield)

theorem isSome_get?_iff {r : Record} {name : String} :
    (r.get? name).isSome = true ↔ name ∈ r.names := by
  induction r with
  | nil => simp [names]
  | cons field rest ih =>
    rw [get?_cons]
    split
    · rename_i h
      exact ⟨fun _ => List.mem_cons.2 (.inl h.symm), fun _ => rfl⟩
    · rename_i h
      rw [ih]
      exact ⟨List.mem_cons_of_mem _, fun hmem => (List.mem_cons.1 hmem).resolve_left (Ne.symm h)⟩

/-- Laying a value for each of some names over a record. -/
theorem get?_overlay_map (f : String → Value) (wanted : List String) (r : Record)
    (name : String) :
    (r.overlay (wanted.map fun name => (name, f name))).get? name =
      if name ∈ wanted then some (f name) else r.get? name := by
  induction wanted generalizing r with
  | nil => rfl
  | cons first rest ih =>
    rw [List.map_cons, overlay_cons, ih, get?_insert]
    by_cases hfirst : name = first
    · simp [hfirst]
    · simp [hfirst]

/-- Whether two fields are both missing, or hold the same value. -/
def sameAt : Option Value → Option Value → Bool
  | none, none => true
  | some a, some b => a.same b
  | none, some _ => false
  | some _, none => false

theorem isSome_of_sameAt {x y : Option Value} (h : sameAt x y = true) : x.isSome = y.isSome := by
  cases x <;> cases y <;> first | rfl | cases h

/-- No name with a value comes before the first name of a sorted record. -/
theorem not_lt_of_isSome {n m : String} {b : Value} {rest : Record}
    (hs : Sorted ((n, b) :: rest)) (h : (get? ((n, b) :: rest) m).isSome = true) : ¬m < n := by
  intro hlt
  have hbefore : ∀ field ∈ (n, b) :: rest, m < field.1 := by
    intro field hfield
    rcases List.mem_cons.1 hfield with rfl | hfield
    · exact hlt
    · exact String.lt_trans hlt ((List.pairwise_cons.1 hs).1 field hfield)
  rw [get?_eq_none_of_lt hbefore] at h
  cases h

/-- Sorted records start with the same name if the same names have values in them. -/
theorem first_eq_of_sameAt {m n : String} {a b : Value} {rest others : Record}
    (hr : Sorted ((m, a) :: rest)) (hs : Sorted ((n, b) :: others))
    (h : ∀ name, sameAt (get? ((m, a) :: rest) name) (get? ((n, b) :: others) name) = true) :
    m = n := by
  have hm : (get? ((n, b) :: others) m).isSome = true := by
    rw [← isSome_of_sameAt (h m), get?_cons, if_pos rfl]
    rfl
  have hn : (get? ((m, a) :: rest) n).isSome = true := by
    rw [isSome_of_sameAt (h n), get?_cons, if_pos rfl]
    rfl
  rcases Std.lt_trichotomy m n with hlt | heq | hgt
  · exact absurd hlt (not_lt_of_isSome hs hm)
  · exact heq
  · exact absurd hgt (not_lt_of_isSome hr hn)

/-- Sorted records are the same where they hold the same under every name. -/
theorem sameFields_iff {r s : Record} (hr : r.Sorted) (hs : s.Sorted) :
    Value.sameFields r s = true ↔ ∀ name, sameAt (r.get? name) (s.get? name) = true := by
  induction r generalizing s with
  | nil =>
    cases s with
    | nil => exact ⟨fun _ _ => rfl, fun _ => rfl⟩
    | cons other others =>
      refine ⟨nofun, fun h => ?_⟩
      have hfirst := h other.1
      rw [get?_cons, if_pos rfl] at hfirst
      cases hfirst
  | cons first rest ih =>
    obtain ⟨m, a⟩ := first
    obtain ⟨hm, hrest⟩ := List.pairwise_cons.1 hr
    cases s with
    | nil =>
      refine ⟨nofun, fun h => ?_⟩
      have hfirst := h m
      rw [get?_cons, if_pos rfl] at hfirst
      cases hfirst
    | cons other others =>
      obtain ⟨n, b⟩ := other
      obtain ⟨hn, hothers⟩ := List.pairwise_cons.1 hs
      rw [Value.sameFields, Bool.and_eq_true, Bool.and_eq_true, beq_iff_eq, ih hrest hothers]
      constructor
      · rintro ⟨⟨rfl, hab⟩, hall⟩ name
        rw [get?_cons, get?_cons]
        split
        · exact hab
        · exact hall name
      · intro h
        obtain rfl := first_eq_of_sameAt hr hs h
        refine ⟨⟨rfl, ?_⟩, fun name => ?_⟩
        · have hfirst := h m
          rwa [get?_cons, get?_cons, if_pos rfl, if_pos rfl] at hfirst
        · by_cases hname : m = name
          · subst hname
            rw [get?_eq_none_of_lt hm, get?_eq_none_of_lt hn]
            rfl
          · have hother := h name
            rwa [get?_cons, get?_cons, if_neg hname, if_neg hname] at hother

end Record

end DataAccess
