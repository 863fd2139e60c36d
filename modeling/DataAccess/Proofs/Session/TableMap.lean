import DataAccess.Proofs.Value.Sameness
import DataAccess.Session.Table

/-!
# Tables as maps

A table whose rows have pairwise different key values is a map from key values to rows, and saving
an entity is a write to that map or a removal from it.

- `Table.Distinct`: no two rows have the same key value; `Table.Distinct.save` says that saving
  keeps this, and `Table.Distinct.perm` that such tables are given by their maps up to order.
- `KeyMap`, `KeyMap.apply`: maps from key values to rows, and what an entity does to one.
- `Entity.remains`: what is left under the key of an entity that was saved;
  `KeyMap.foldl_apply_of_mem` says so of an entity in a batch.
- `afterBatch`: what a batch makes of a place, whatever its order; `KeyMap.foldl_apply_of_held`
  says this of the place under a key.
- `Table.find?_save`: looking up after saving is looking up in the map that the entity was applied
  to.
- `Table.filter_save`: saving an entity leaves the other rows as they are, in their order.
- `Table.saveAll`: saving several entities, with the same three facts.
-/

namespace DataAccess

/-- A map from key values to rows. Key values that are the same are one key. -/
abbrev KeyMap := Value → Option Record

/-- What saving an entity does to a map: a new or changed entity is written under its key, a
deleted one takes its key out, and one that is unchanged or no longer looked after does nothing. -/
def KeyMap.apply (key : Key) (m : KeyMap) (e : Entity) : KeyMap :=
  match e.state with
  | .added | .modified => fun k => if (key.valueOf e.values).same k then some e.values else m k
  | .deleted => fun k => if (key.valueOf e.values).same k then none else m k
  | .unchanged | .detached => m

/-- An entity concerns its own key only. -/
theorem KeyMap.apply_of_not_same {key : Key} {e : Entity} {k : Value} (m : KeyMap)
    (h : (key.valueOf e.values).same k = false) : m.apply key e k = m k := by
  unfold apply
  cases e.state <;> simp [h]

/-- What is left under the key of an entity once its changes are saved. -/
def Entity.remains (e : Entity) : Option Record :=
  match e.state with
  | .unchanged | .added | .modified => some e.values
  | .deleted | .detached => none

/-- What counts as unchanged after saving was saved as it is. -/
theorem Entity.remains_of_accepted {e : Entity} (h : e.accepted.state = .unchanged) :
    e.remains = some e.values := by
  unfold Entity.accepted at h
  unfold remains
  revert h
  cases e.state <;> simp [Entity.State.afterSave]

/-- What a pending entity leaves under its key does not depend on what was there. -/
theorem KeyMap.apply_of_pending {key : Key} {e : Entity} {k : Value} (m : KeyMap)
    (hp : e.isPending = true) (h : (key.valueOf e.values).same k = true) :
    m.apply key e k = e.remains := by
  unfold Entity.isPending at hp
  unfold apply Entity.remains
  cases hs : e.state <;> simp_all [Entity.State.isPending]

/-- A key that no entity of a batch has is left alone. -/
theorem KeyMap.foldl_apply_of_forall {key : Key} {es : List Entity} {k : Value} (m : KeyMap)
    (h : ∀ e ∈ es, (key.valueOf e.values).same k = false) :
    es.foldl (KeyMap.apply key) m k = m k := by
  induction es generalizing m with
  | nil => rfl
  | cons e es ih =>
    rw [List.foldl_cons, ih _ fun e' he' => h e' (List.mem_cons_of_mem _ he')]
    exact apply_of_not_same m (h e List.mem_cons_self)

/-- If only one pending entity of a batch has a key, that entity decides what is left there. -/
theorem KeyMap.foldl_apply_of_mem {key : Key} {es : List Entity} {e : Entity} {k : Value}
    (m : KeyMap) (he : e ∈ es) (hp : e.isPending = true)
    (hk : (key.valueOf e.values).same k = true)
    (honly : ∀ e' ∈ es, (key.valueOf e'.values).same k = true → e' = e) :
    es.foldl (KeyMap.apply key) m k = e.remains := by
  induction es generalizing m with
  | nil => cases he
  | cons head es ih =>
    have hrest : ∀ e' ∈ es, (key.valueOf e'.values).same k = true → e' = e :=
      fun e' he' => honly e' (List.mem_cons_of_mem _ he')
    rw [List.foldl_cons]
    by_cases hmem : e ∈ es
    · exact ih _ hmem hrest
    · -- the entity stands at the head, and nothing after it has its key
      have hhead : e = head := (List.mem_cons.1 he).resolve_right hmem
      have hafter : ∀ e' ∈ es, (key.valueOf e'.values).same k = false := fun e' he' =>
        Bool.eq_false_iff.2 fun hs => hmem (hrest e' he' hs ▸ he')
      rw [foldl_apply_of_forall _ hafter, ← hhead]
      exact apply_of_pending m hp hk

/-- What a batch makes of a place that holds an entity, or none: what comes of that entity, if it
is in the batch, and else what was there before. -/
def afterBatch {α : Type} (es : List Entity) (held : Option Entity) (outcome : Entity → α)
    (before : α) : α :=
  match held with
  | some e => if e ∈ es then outcome e else before
  | none => before

section

variable {α : Type} {es es' : List Entity} {e : Entity}

@[simp] theorem afterBatch_some (es : List Entity) (e : Entity) (outcome : Entity → α)
    (before : α) :
    afterBatch es (some e) outcome before = if e ∈ es then outcome e else before := rfl

/-- What a batch makes of a place does not depend on its order. -/
theorem afterBatch_perm (h : es.Perm es') (held : Option Entity) (outcome : Entity → α)
    (before : α) : afterBatch es held outcome before = afterBatch es' held outcome before := by
  cases held with
  | none => rfl
  | some e => simp only [afterBatch_some, h.mem_iff]

end

/-- If only the entity that is held under a key has that key, a batch of pending entities leaves
there what remains of that entity. -/
theorem KeyMap.foldl_apply_of_held {key : Key} {es : List Entity} {k : Value} {m : KeyMap}
    {held : Option Entity} (hpending : ∀ e ∈ es, e.isPending = true)
    (hheld : ∀ e ∈ es, (key.valueOf e.values).same k = true ↔ held = some e) :
    es.foldl (KeyMap.apply key) m k = afterBatch es held Entity.remains (m k) := by
  have hother : (∀ e ∈ es, held ≠ some e) → es.foldl (KeyMap.apply key) m k = m k :=
    fun hnone => foldl_apply_of_forall m fun e he =>
      Bool.eq_false_iff.2 fun hs => hnone e he ((hheld e he).1 hs)
  cases held with
  | none => exact hother fun _ _ => nofun
  | some e =>
    rw [afterBatch_some]
    by_cases he : e ∈ es
    · rw [if_pos he]
      refine foldl_apply_of_mem m he (hpending e he) ((hheld e he).2 rfl) fun e' he' hs => ?_
      exact (Option.some.inj ((hheld e' he').1 hs)).symm
    · rw [if_neg he]
      refine hother fun e' he' hsome => he ?_
      rwa [Option.some.inj hsome]

namespace Table

variable {key : Key} {table : Table}

/-! ## Looking up -/

/-- A row that is found is a row of the table and has the key value. -/
theorem mem_of_find? {wanted : Value} {row : Record} (h : find? key wanted table = some row) :
    row ∈ table ∧ (key.valueOf row).same wanted = true := by
  induction table with
  | nil => cases h
  | cons head rest ih =>
    unfold find? at h
    split at h
    · rename_i hs
      cases h
      exact ⟨List.mem_cons_self, hs⟩
    · obtain ⟨hm, hs⟩ := ih h
      exact ⟨List.mem_cons_of_mem _ hm, hs⟩

/-- Among rows of exact keys, a row that is found has the very key that was looked for. -/
theorem eq_of_find? {k : Value} {row : Record}
    (hexact : ∀ row ∈ table, (key.valueOf row).isExact = true)
    (h : find? key k table = some row) : key.valueOf row = k ∧ k.isExact = true := by
  obtain ⟨hmem, hsame⟩ := mem_of_find? h
  have hrow := hexact row hmem
  have hk := (Value.same_iff_eq hrow k).1 hsame
  exact ⟨hk, hk ▸ hrow⟩

theorem find?_eq_none {wanted : Value} :
    find? key wanted table = none ↔ ∀ row ∈ table, (key.valueOf row).same wanted = false := by
  induction table with
  | nil => simp
  | cons head rest ih =>
    unfold find?
    by_cases h : (key.valueOf head).same wanted = true
    · simp [h]
    · simp [h, ih]

/-- Looking up key values that are the same finds the same row. -/
theorem find?_congr {k k' : Value} (table : Table) (h : k.same k' = true) :
    find? key k table = find? key k' table := by
  induction table with
  | nil => rfl
  | cons head rest ih =>
    rw [find?, find?, Value.same_congr_right (key.valueOf head) h, ih]

theorem find?_put (new : Record) (table : Table) (k : Value) :
    find? key k (put key new table) =
      if (key.valueOf new).same k then some new else find? key k table := by
  by_cases hk : (key.valueOf new).same k = true
  · rw [if_pos hk, ← find?_congr _ hk, find?_put_self]
  · rw [if_neg hk]
    induction table with
    | nil => simp [put, find?, hk]
    | cons head rest ih =>
      unfold put
      by_cases hh : (key.valueOf head).same (key.valueOf new) = true
      · -- the row that gives way has the key of the new one, so it was not looked for either
        have hhk : ¬ (key.valueOf head).same k = true := by
          rwa [Value.same_congr _ _ k hh]
        rw [if_pos hh, find?, find?, if_neg hk, if_neg hhk]
      · rw [if_neg hh, find?, find?, ih]

/-! ## Pairwise different keys -/

/-- No two rows have the same key value. -/
def Distinct (key : Key) (table : Table) : Prop :=
  table.Pairwise fun a b => (key.valueOf a).same (key.valueOf b) = false

/-- In a table of pairwise different keys every row is found under its own key. -/
theorem Distinct.find?_eq_some_iff (h : table.Distinct key) {row : Record} :
    find? key (key.valueOf row) table = some row ↔ row ∈ table := by
  refine ⟨fun hfind => (mem_of_find? hfind).1, fun hrow => ?_⟩
  induction table with
  | nil => cases hrow
  | cons head rest ih =>
    obtain ⟨hhead, hrest⟩ := List.pairwise_cons.1 h
    unfold find?
    rcases List.mem_cons.1 hrow with rfl | hrow
    · rw [if_pos (Value.same_self _)]
    · rw [hhead row hrow]
      exact ih hrest hrow

theorem Distinct.nodup (h : table.Distinct key) : table.Nodup := by
  refine List.Pairwise.imp (fun hdiffer heq => ?_) h
  rw [heq, Value.same_self] at hdiffer
  cases hdiffer

/-- Tables of pairwise different keys that are the same map have the same rows. -/
theorem Distinct.perm {other : Table} (h : table.Distinct key) (h' : other.Distinct key)
    (hfind : ∀ k, find? key k table = find? key k other) : table.Perm other := by
  refine (List.perm_ext_iff_of_nodup h.nodup h'.nodup).2 fun row => ?_
  rw [← h.find?_eq_some_iff, ← h'.find?_eq_some_iff, hfind]

theorem find?_remove (h : table.Distinct key) (gone k : Value) :
    find? key k (remove key gone table) =
      if gone.same k then none else find? key k table := by
  induction table with
  | nil => simp [remove]
  | cons head rest ih =>
    obtain ⟨hhead, hrest⟩ := List.pairwise_cons.1 h
    unfold remove
    by_cases hg : (key.valueOf head).same gone = true
    · rw [if_pos hg]
      have hk : (key.valueOf head).same k = gone.same k := Value.same_congr _ _ k hg
      rw [find?, hk]
      split
      · -- no further row has the key of the row that was taken out
        rename_i hgk
        refine find?_eq_none.2 fun row hrow => ?_
        have hrk : (key.valueOf row).same k = (key.valueOf row).same (key.valueOf head) := by
          rw [← Value.same_congr_right _ hgk, ← Value.same_congr_right _ hg]
        rw [hrk, Value.same_comm]
        exact hhead row hrow
      · rfl
    · rw [if_neg hg, find?, find?, ih hrest]
      by_cases hgk : gone.same k = true
      · have hhk : ¬ (key.valueOf head).same k = true := by
          rwa [← Value.same_congr_right _ hgk]
        simp [hhk, hgk]
      · simp [hgk]

theorem mem_put {new row : Record} (h : row ∈ put key new table) : row = new ∨ row ∈ table := by
  induction table with
  | nil => exact .inl (List.mem_singleton.1 h)
  | cons head rest ih =>
    unfold put at h
    split at h
    · rcases List.mem_cons.1 h with h | h
      · exact .inl h
      · exact .inr (List.mem_cons_of_mem _ h)
    · rcases List.mem_cons.1 h with h | h
      · exact .inr (h ▸ List.mem_cons_self)
      · exact (ih h).imp id (List.mem_cons_of_mem _)

theorem remove_sublist (gone : Value) (table : Table) : (remove key gone table).Sublist table := by
  induction table with
  | nil => exact List.Sublist.refl _
  | cons head rest ih =>
    unfold remove
    split
    · exact List.sublist_cons_self head rest
    · exact ih.cons_cons head

theorem Distinct.put (h : table.Distinct key) (new : Record) :
    (put key new table).Distinct key := by
  induction table with
  | nil => exact List.pairwise_singleton _ _
  | cons head rest ih =>
    obtain ⟨hhead, hrest⟩ := List.pairwise_cons.1 h
    unfold Table.put
    split
    · rename_i hs
      refine List.pairwise_cons.2 ⟨fun row hrow => ?_, hrest⟩
      rw [← Value.same_congr _ _ _ hs]
      exact hhead row hrow
    · rename_i hs
      refine List.pairwise_cons.2 ⟨fun row hrow => ?_, ih hrest⟩
      rcases mem_put hrow with rfl | hrow
      · exact Bool.eq_false_iff.2 hs
      · exact hhead row hrow

theorem Distinct.remove (h : table.Distinct key) (gone : Value) :
    (remove key gone table).Distinct key := h.sublist (remove_sublist gone table)

/-! ## Saving -/

/-- Looking up after saving is looking up in the map that the entity was applied to. -/
theorem find?_save (h : table.Distinct key) (e : Entity) :
    (fun k => find? key k (save key e table)) =
      KeyMap.apply key (fun k => find? key k table) e := by
  unfold save KeyMap.apply
  cases e.state with
  | added => exact funext fun k => find?_put e.values table k
  | modified => exact funext fun k => find?_put e.values table k
  | deleted => exact funext fun k => find?_remove h (key.valueOf e.values) k
  | unchanged => rfl
  | detached => rfl

/-- Saving keeps the keys pairwise different. -/
theorem Distinct.save (h : table.Distinct key) (e : Entity) : (save key e table).Distinct key := by
  unfold Table.save
  cases e.state with
  | added => exact h.put e.values
  | modified => exact h.put e.values
  | deleted => exact h.remove _
  | unchanged => exact h
  | detached => exact h

/-- The rows after saving are rows from before, or the values that were saved. -/
theorem mem_save {e : Entity} {row : Record} (h : row ∈ save key e table) :
    row = e.values ∨ row ∈ table := by
  unfold save at h
  split at h
  · exact mem_put h
  · exact mem_put h
  · exact .inr ((remove_sublist _ table).subset h)
  · exact .inr h
  · exact .inr h

theorem filter_put {p : Record → Bool} {new : Record} (hnew : p new = false)
    (h : ∀ row ∈ table, (key.valueOf row).same (key.valueOf new) = true → p row = false) :
    (put key new table).filter p = table.filter p := by
  induction table with
  | nil => simp [put, hnew]
  | cons head rest ih =>
    obtain ⟨hhead, hrest⟩ := List.forall_mem_cons.1 h
    unfold put
    split
    · rename_i hs
      simp [hnew, hhead hs]
    · rw [List.filter_cons, List.filter_cons, ih hrest]

theorem filter_remove {p : Record → Bool} {gone : Value}
    (h : ∀ row ∈ table, (key.valueOf row).same gone = true → p row = false) :
    (remove key gone table).filter p = table.filter p := by
  induction table with
  | nil => rfl
  | cons head rest ih =>
    obtain ⟨hhead, hrest⟩ := List.forall_mem_cons.1 h
    unfold remove
    split
    · rename_i hs
      simp [hhead hs]
    · rw [List.filter_cons, List.filter_cons, ih hrest]

/-- Saving an entity leaves the rows with other keys as they are, in their order. -/
theorem filter_save {p : Record → Bool} {e : Entity} (hnew : p e.values = false)
    (h : ∀ row ∈ table, (key.valueOf row).same (key.valueOf e.values) = true → p row = false) :
    (save key e table).filter p = table.filter p := by
  unfold save
  cases e.state with
  | added => exact filter_put hnew h
  | modified => exact filter_put hnew h
  | deleted => exact filter_remove h
  | unchanged => rfl
  | detached => rfl

/-! ## Saving several entities -/

/-- What saving several entities of its type, one after the other, does to a table. -/
def saveAll (key : Key) (es : List Entity) (table : Table) : Table :=
  es.foldl (fun table e => save key e table) table

@[simp] theorem saveAll_nil (key : Key) (table : Table) : saveAll key [] table = table := rfl

@[simp] theorem saveAll_cons (key : Key) (e : Entity) (es : List Entity) (table : Table) :
    saveAll key (e :: es) table = saveAll key es (save key e table) := rfl

theorem Distinct.saveAll (h : table.Distinct key) (es : List Entity) :
    (saveAll key es table).Distinct key := by
  induction es generalizing table with
  | nil => exact h
  | cons e es ih => exact ih (h.save e)

/-- Looking up after saving is looking up in the map that the entities were applied to, the first
one first. -/
theorem find?_saveAll (h : table.Distinct key) (es : List Entity) :
    (fun k => find? key k (saveAll key es table)) =
      es.foldl (KeyMap.apply key) (fun k => find? key k table) := by
  induction es generalizing table with
  | nil => rfl
  | cons e es ih =>
    rw [saveAll_cons, ih (h.save e), find?_save h e]
    rfl

/-- Whether no entity of a batch has the key of a row. -/
def isUntouched (key : Key) (es : List Entity) (row : Record) : Bool :=
  es.all fun e => !(key.valueOf row).same (key.valueOf e.values)

theorem isUntouched_eq_false {es : List Entity} {e : Entity} {row : Record} (he : e ∈ es)
    (h : (key.valueOf row).same (key.valueOf e.values) = true) :
    isUntouched key es row = false := by
  unfold isUntouched
  rw [List.all_eq_false]
  exact ⟨e, he, by simp [h]⟩

/-- Saving a batch leaves the rows that no entity of it names as they are, in their order. -/
theorem filter_saveAll (es : List Entity) (table : Table) :
    (saveAll key es table).filter (isUntouched key es) = table.filter (isUntouched key es) := by
  have hgen : ∀ (part : List Entity) (table : Table), (∀ e ∈ part, e ∈ es) →
      (saveAll key part table).filter (isUntouched key es) =
        table.filter (isUntouched key es) := by
    intro part
    induction part with
    | nil => exact fun _ _ => rfl
    | cons e part ih =>
      intro table hpart
      rw [saveAll_cons, ih _ fun e' he' => hpart e' (List.mem_cons_of_mem _ he')]
      have he := hpart e List.mem_cons_self
      exact filter_save (isUntouched_eq_false he (Value.same_self _)) fun row _ hs =>
        isUntouched_eq_false he hs
  exact hgen es table fun _ he => he

end Table

end DataAccess
