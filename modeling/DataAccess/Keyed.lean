/-!
# Tables of keyed entries

A finite map, held as a list of entries with pairwise different keys in the order in which the
keys first came.

- `Keyed`: the map.
- `Keyed.get?`, `Keyed.insert`, `Keyed.erase`: look-up, writing, removal.
- `Keyed.get?_insert`, `Keyed.get?_erase`: what a write and a removal change, and that they change
  nothing else.
- `Keyed.mem_entries_iff`: the entries are what look-up finds.
- `Keyed.values_insert_perm`: the values after a write.
- `Keyed.filter_values_insert`: a write of a value that does not count is a removal, seen from the
  values that count.
-/

namespace DataAccess

/-- A finite map from `κ` to `ν`. -/
structure Keyed (κ ν : Type) where
  /-- the entries, in the order in which their keys first came -/
  entries : List (κ × ν)
  /-- no key occurs twice -/
  distinct : (entries.map Prod.fst).Nodup

namespace Keyed

variable {κ ν : Type}

/-- The map without entries. -/
def empty : Keyed κ ν := ⟨[], by simp⟩

instance : Inhabited (Keyed κ ν) := ⟨empty⟩

/-- The values of all entries. -/
def values (t : Keyed κ ν) : List ν := t.entries.map Prod.snd

/-- Whether there are no entries. -/
def isEmpty (t : Keyed κ ν) : Bool := t.entries.isEmpty

variable [DecidableEq κ]

/-- The value that a list of entries gives a key. -/
def find : List (κ × ν) → κ → Option ν
  | [], _ => none
  | (k, v) :: rest, wanted => if k = wanted then some v else find rest wanted

/-- Writes an entry: in the place of the entry with its key, or after all others. -/
def put (wanted : κ) (value : ν) : List (κ × ν) → List (κ × ν)
  | [] => [(wanted, value)]
  | (k, v) :: rest =>
    if k = wanted then (wanted, value) :: rest else (k, v) :: put wanted value rest

theorem map_fst_put (wanted : κ) (value : ν) (es : List (κ × ν)) :
    (put wanted value es).map Prod.fst =
      if wanted ∈ es.map Prod.fst then es.map Prod.fst else es.map Prod.fst ++ [wanted] := by
  induction es with
  | nil => simp [put]
  | cons e rest ih =>
    obtain ⟨k, v⟩ := e
    unfold put
    by_cases h : k = wanted
    · simp [h]
    · have h' : ¬wanted = k := fun e => h e.symm
      simp only [h, if_false, List.map_cons, ih, List.mem_cons, h', false_or]
      split <;> simp

/-- The value of a key. -/
def get? (t : Keyed κ ν) (key : κ) : Option ν := find t.entries key

/-- Gives a key a value. -/
def insert (t : Keyed κ ν) (key : κ) (value : ν) : Keyed κ ν where
  entries := put key value t.entries
  distinct := by
    rw [map_fst_put]
    split
    · exact t.distinct
    · rename_i h
      exact List.nodup_append.2 ⟨t.distinct, by simp, by
        intro a ha b hb hab
        rw [List.mem_singleton.1 hb] at hab
        exact h (hab ▸ ha)⟩

/-- Takes the value of a key away. -/
def erase (t : Keyed κ ν) (key : κ) : Keyed κ ν where
  entries := t.entries.filter fun e => !decide (e.1 = key)
  distinct := t.distinct.sublist (List.filter_sublist.map _)

/-! ## Lemmas -/

@[simp] theorem get?_empty (key : κ) : (empty : Keyed κ ν).get? key = none := rfl

theorem find_put (wanted : κ) (value : ν) (es : List (κ × ν)) (key : κ) :
    find (put wanted value es) key = if key = wanted then some value else find es key := by
  induction es with
  | nil => by_cases h : wanted = key <;> simp [put, find, h, eq_comm]
  | cons e rest ih =>
    obtain ⟨k, v⟩ := e
    unfold put
    by_cases h : k = wanted
    · subst h
      by_cases hk : key = k
      · simp [find, hk]
      · simp [find, hk, Ne.symm hk]
    · simp only [h, if_false, find, ih]
      by_cases hk : key = wanted
      · subst hk
        simp [h]
      · simp [hk]

/-- A write gives its key the value and keeps all other values. -/
theorem get?_insert (t : Keyed κ ν) (wanted : κ) (value : ν) (key : κ) :
    (t.insert wanted value).get? key = if key = wanted then some value else t.get? key :=
  find_put wanted value t.entries key

@[simp] theorem get?_insert_self (t : Keyed κ ν) (key : κ) (value : ν) :
    (t.insert key value).get? key = some value := by simp [get?_insert]

theorem get?_insert_of_ne (t : Keyed κ ν) {wanted key : κ} (value : ν) (h : key ≠ wanted) :
    (t.insert wanted value).get? key = t.get? key := by simp [get?_insert, h]

theorem find_filter_ne (es : List (κ × ν)) (gone key : κ) :
    find (es.filter fun e => !decide (e.1 = gone)) key =
      if key = gone then none else find es key := by
  induction es with
  | nil => simp [find]
  | cons e rest ih =>
    obtain ⟨k, v⟩ := e
    by_cases h : k = gone
    · subst h
      by_cases hk : key = k
      · simp_all
      · simp_all [find, Ne.symm hk]
    · by_cases hk : k = key
      · subst hk
        simp [h, find]
      · simp [h, hk, find, ih]

/-- A removal takes away the value of its key and keeps all other values. -/
theorem get?_erase (t : Keyed κ ν) (gone key : κ) :
    (t.erase gone).get? key = if key = gone then none else t.get? key :=
  find_filter_ne t.entries gone key

theorem mem_of_find {es : List (κ × ν)} {key : κ} {value : ν} (h : find es key = some value) :
    (key, value) ∈ es := by
  induction es with
  | nil => simp [find] at h
  | cons e rest ih =>
    obtain ⟨k, v⟩ := e
    unfold find at h
    split at h
    · rename_i hk
      cases h
      simp [hk]
    · exact List.mem_cons_of_mem _ (ih h)

theorem find_of_mem {es : List (κ × ν)} (hd : (es.map Prod.fst).Nodup) {key : κ} {value : ν}
    (h : (key, value) ∈ es) : find es key = some value := by
  induction es with
  | nil => simp at h
  | cons e rest ih =>
    obtain ⟨k, v⟩ := e
    rw [List.map_cons, List.nodup_cons] at hd
    rcases List.mem_cons.1 h with h | h
    · cases h
      simp [find]
    · have hne : k ≠ key := fun e => hd.1 (e ▸ List.mem_map.2 ⟨(key, value), h, rfl⟩)
      simp [find, hne, ih hd.2 h]

/-- The entries are what look-up finds. -/
theorem mem_entries_iff {t : Keyed κ ν} {key : κ} {value : ν} :
    (key, value) ∈ t.entries ↔ t.get? key = some value :=
  ⟨find_of_mem t.distinct, mem_of_find⟩

theorem mem_values_iff {t : Keyed κ ν} {value : ν} :
    value ∈ t.values ↔ ∃ key, t.get? key = some value := by
  simp only [values, List.mem_map, Prod.exists, exists_eq_right, mem_entries_iff]

theorem filter_ne_eq_self {es : List (κ × ν)} {key : κ} (h : ∀ e ∈ es, e.1 ≠ key) :
    (es.filter fun e => !decide (e.1 = key)) = es :=
  List.filter_eq_self.2 fun e he => by simp [h e he]

/-- There is nothing to take away under a key without a value. -/
theorem values_erase_of_get?_eq_none {t : Keyed κ ν} {key : κ} (h : t.get? key = none) :
    (t.erase key).values = t.values := by
  have hkept : (t.entries.filter fun e => !decide (e.1 = key)) = t.entries := by
    refine filter_ne_eq_self fun e he => ?_
    rintro rfl
    rw [mem_entries_iff.1 he] at h
    cases h
  show (t.entries.filter _).map Prod.snd = t.entries.map Prod.snd
  rw [hkept]

theorem filter_map_snd_put {p : ν → Bool} {key : κ} {value : ν} (hp : p value = false)
    {es : List (κ × ν)} (hd : (es.map Prod.fst).Nodup) :
    ((put key value es).map Prod.snd).filter p =
      ((es.filter fun e => !decide (e.1 = key)).map Prod.snd).filter p := by
  induction es with
  | nil => simp [put, hp]
  | cons e rest ih =>
    obtain ⟨k, v⟩ := e
    obtain ⟨hk, hrest⟩ := List.nodup_cons.1 hd
    unfold put
    by_cases h : k = key
    · -- the entry gives way, and no further entry has its key
      have hkept : (rest.filter fun e => !decide (e.1 = key)) = rest :=
        filter_ne_eq_self fun e he he' => hk (List.mem_map.2 ⟨e, he, he'.trans h.symm⟩)
      simp [h, hp, hkept]
    · simp only [h, if_false, List.map_cons, decide_false, Bool.not_false,
        List.filter_cons_of_pos, List.filter_cons, ih hrest]

theorem map_snd_put_perm {key : κ} {value : ν} {es : List (κ × ν)}
    (hd : (es.map Prod.fst).Nodup) :
    ((put key value es).map Prod.snd).Perm
      (value :: (es.filter fun e => !decide (e.1 = key)).map Prod.snd) := by
  induction es with
  | nil => exact List.Perm.refl _
  | cons e rest ih =>
    obtain ⟨k, v⟩ := e
    obtain ⟨hk, hrest⟩ := List.nodup_cons.1 hd
    unfold put
    by_cases h : k = key
    · -- the entry gives way, and no further entry has its key
      have hkept : (rest.filter fun e => !decide (e.1 = key)) = rest :=
        filter_ne_eq_self fun e he he' => hk (List.mem_map.2 ⟨e, he, he'.trans h.symm⟩)
      simp [h, hkept]
    · have hswap := ((ih hrest).cons v).trans (List.Perm.swap value v _)
      simpa [h] using hswap

/-- After a write there is the new value beside what a removal would have left. -/
theorem values_insert_perm (t : Keyed κ ν) (key : κ) (value : ν) :
    (t.insert key value).values.Perm (value :: (t.erase key).values) :=
  map_snd_put_perm t.distinct

/-- Among the values of a class to which a new value does not belong, a write is the removal of
the old value. -/
theorem filter_values_insert (t : Keyed κ ν) {p : ν → Bool} {value : ν} (hp : p value = false)
    (key : κ) : (t.insert key value).values.filter p = (t.erase key).values.filter p :=
  filter_map_snd_put hp t.distinct

end Keyed

end DataAccess
