import DataAccess.Number.Basic

/-!
# Values and records

The data that queries select and entities hold: a tree of null, truth values, numbers, texts,
arrays and objects. The fields of an object form a record. Records are kept in ascending order of
their names, which makes equal records equal as lists; the look-up laws below hold of any list of
fields, ordered or not.

- `Value`: the tree.
- `Record`: the fields of an object.
- `Record.get?`, `Record.insert`, `Record.ofFields`: look-up, one write, many writes.
- `Record.get?_insert`: what a write changes, and that it changes nothing else.
- `Record.Sorted`: the order that `Record.insert` keeps.
-/

namespace DataAccess

/-- A piece of data. -/
inductive Value where
  | null
  | bool (b : Bool)
  | number (n : Number)
  | string (s : String)
  | array (items : List Value)
  | object (fields : List (String × Value))
  deriving Inhabited

/-- Named values. -/
abbrev Record := List (String × Value)

namespace Record

/-- The value of a field. -/
def get? : Record → String → Option Value
  | [], _ => none
  | (name, value) :: rest, wanted => if name = wanted then some value else get? rest wanted

/-- Sets a field, in the place that the order of names gives it. -/
def insert (wanted : String) (value : Value) : Record → Record
  | [] => [(wanted, value)]
  | (name, old) :: rest =>
    if name = wanted then (wanted, value) :: rest
    else if wanted < name then (wanted, value) :: (name, old) :: rest
    else (name, old) :: insert wanted value rest

/-- Sets several fields, one after the other. -/
def overlay (r : Record) (fields : List (String × Value)) : Record :=
  fields.foldl (fun r field => r.insert field.1 field.2) r

/-- The record of a list of fields. Of fields with one name the last counts. -/
def ofFields (fields : List (String × Value)) : Record := overlay [] fields

/-- The names of the fields. -/
def names (r : Record) : List String := r.map Prod.fst

/-- The names stand in strictly ascending order. -/
def Sorted (r : Record) : Prop := r.Pairwise fun a b => a.1 < b.1

/-- The value of a field, null where there is none. -/
def value (r : Record) (name : String) : Value := (r.get? name).getD .null

end Record

namespace Value

/-- The value is null. -/
def isNull : Value → Bool
  | null => true
  | _ => false

/-- The value of a field of an object. -/
def field? : Value → String → Option Value
  | object fields, name => Record.get? fields name
  | _, _ => none

/-- The natural that a value is. -/
def nat (n : Nat) : Value := number (.int n)

end Value

/-! ## Lemmas -/

namespace Record

@[simp] theorem get?_nil (name : String) : get? [] name = none := rfl

theorem get?_cons (name : String) (value : Value) (r : Record) (wanted : String) :
    get? ((name, value) :: r) wanted = if name = wanted then some value else get? r wanted := rfl

/-- A write sets its field and keeps all others. -/
theorem get?_insert (r : Record) (wanted : String) (value : Value) (name : String) :
    get? (insert wanted value r) name = if name = wanted then some value else get? r name := by
  induction r with
  | nil => by_cases h : wanted = name <;> simp [insert, get?_cons, h, eq_comm]
  | cons head rest ih =>
    obtain ⟨key, old⟩ := head
    unfold insert
    split
    · rename_i h
      subst h
      by_cases hn : key = name
      · simp [get?_cons, hn]
      · simp [get?_cons, hn, Ne.symm hn]
    · split
      · by_cases hn : name = wanted
        · simp [get?_cons, hn]
        · simp [get?_cons, hn, Ne.symm hn]
      · rename_i hk _
        simp only [get?_cons, ih]
        by_cases hn : name = wanted
        · subst hn
          simp [hk]
        · simp [hn]

@[simp] theorem get?_insert_self (r : Record) (name : String) (value : Value) :
    get? (insert name value r) name = some value := by simp [get?_insert]

theorem get?_insert_of_ne (r : Record) {wanted name : String} (value : Value) (h : name ≠ wanted) :
    get? (insert wanted value r) name = get? r name := by simp [get?_insert, h]

@[simp] theorem overlay_nil (r : Record) : r.overlay [] = r := rfl

@[simp] theorem overlay_cons (r : Record) (name : String) (value : Value)
    (fields : List (String × Value)) :
    r.overlay ((name, value) :: fields) = (r.insert name value).overlay fields := rfl

/-- Laying fields over a record keeps all other fields. -/
theorem get?_overlay_of_notMem {fields : Record} {name : String} (h : name ∉ fields.names)
    (r : Record) : (r.overlay fields).get? name = r.get? name := by
  induction fields generalizing r with
  | nil => rfl
  | cons field fields ih =>
    obtain ⟨hne, hrest⟩ := not_or.1 (mt List.mem_cons.2 h)
    rw [overlay_cons, ih hrest]
    exact get?_insert_of_ne _ _ hne

theorem mem_insert {r : Record} {wanted : String} {value : Value} {field : String × Value}
    (h : field ∈ insert wanted value r) : field = (wanted, value) ∨ field ∈ r := by
  induction r with
  | nil => simpa [insert] using h
  | cons head rest ih =>
    obtain ⟨key, old⟩ := head
    unfold insert at h
    split at h
    · rcases List.mem_cons.1 h with h | h
      · exact .inl h
      · exact .inr (List.mem_cons_of_mem _ h)
    · split at h
      · exact List.mem_cons.1 h
      · rcases List.mem_cons.1 h with h | h
        · exact .inr (by simp [h])
        · rcases ih h with h | h
          · exact .inl h
          · exact .inr (List.mem_cons_of_mem _ h)

@[simp] theorem sorted_nil : Sorted [] := List.Pairwise.nil

/-- A write keeps the names in order. -/
theorem Sorted.insert {r : Record} (h : r.Sorted) (wanted : String) (value : Value) :
    (insert wanted value r).Sorted := by
  induction r with
  | nil => exact List.pairwise_singleton _ _
  | cons head rest ih =>
    obtain ⟨key, old⟩ := head
    have hr := List.pairwise_cons.1 h
    unfold Record.insert
    split
    · rename_i hk
      subst hk
      exact List.pairwise_cons.2 ⟨hr.1, hr.2⟩
    · split
      · rename_i hlt
        refine List.pairwise_cons.2 ⟨fun field hf => ?_, h⟩
        rcases List.mem_cons.1 hf with hf | hf
        · rw [hf]
          exact hlt
        · exact String.lt_trans hlt (hr.1 field hf)
      · rename_i hne hnlt
        refine List.pairwise_cons.2 ⟨fun field hf => ?_, ih hr.2⟩
        rcases mem_insert hf with hf | hf
        · rw [hf]
          show key < wanted
          rcases Std.lt_trichotomy key wanted with hlt | heq | hgt
          · exact hlt
          · exact absurd heq hne
          · exact absurd hgt hnlt
        · exact hr.1 field hf

/-- Any number of writes keep the names in order. -/
theorem Sorted.overlay {r : Record} (h : r.Sorted) (fields : List (String × Value)) :
    (r.overlay fields).Sorted := by
  induction fields generalizing r with
  | nil => exact h
  | cons field fields ih => exact ih (h.insert field.1 field.2)

/-- A record made of fields has its names in order. -/
theorem sorted_ofFields (fields : List (String × Value)) : (ofFields fields).Sorted :=
  sorted_nil.overlay fields

end Record

end DataAccess
