import DataAccess.Proofs.Session.Interruption
import DataAccess.Proofs.Session.Requests

/-!
# The order in which pending entities are saved

The unit of work hands out its pending entities in some order. They may be saved in any other: each
of them is kept in the place of its own type and key value, so that no two of them concern the same
row or the same place.

- `Session.ExactPending`: the key values of pending entities are exact.
- `Session.tracked_iff_of_mem_pending`: a pending entity is kept in its own place and nowhere else.
- `Session.find?_saveAll_of_pending`, `Session.get?_tracked_saveEach`: the rows and the tracked
  entities after some of the pending entities were saved, told without their order.
- `Session.save_perm`: two orders give the same answer, rows and tracked entities.
-/

namespace DataAccess

/-- What the unit of work keeps of an entity once it was saved. -/
def Entity.kept? (e : Entity) : Option Entity :=
  if e.accepted.state = .detached then none else some e.accepted

namespace Session

variable {s : Session} {e : Entity} {es es' : List Entity} {type : String} {key : Key}

/-! ## The places of pending entities -/

/-- The key values of the entities with something to save are exact. -/
def ExactPending (s : Session) : Prop :=
  ∀ e ∈ s.pending, ∀ key ∈ s.schema.keyOf? e.type, (key.valueOf e.values).isExact = true

-- the order of the pending entities need not be worked out for this
instance : DecidablePred ExactPending := fun s =>
  decidable_of_iff (∀ e ∈ s.tracked.values.filter Entity.isPending,
      ∀ key ∈ s.schema.keyOf? e.type, (key.valueOf e.values).isExact = true) (by
    unfold ExactPending
    simp only [s.pending_perm.mem_iff])

theorem belongsAt_iff (hkey : s.schema.keyOf? e.type = some key) {place : String × String} :
    s.BelongsAt place e ↔ place = trackingKey e.type (key.valueOf e.values) := by
  constructor
  · rintro ⟨key', hkey', hplace⟩
    rw [hkey, Option.some.injEq] at hkey'
    rwa [← hkey'] at hplace
  · exact fun hplace => ⟨key, hkey, hplace⟩

/-- Where an entity belongs depends on the schema alone. -/
theorem belongsAt_saveOne (s : Session) (e other : Entity) (place : String × String) :
    (s.saveOne e).2.BelongsAt place other ↔ s.BelongsAt place other := by
  unfold BelongsAt
  rw [schema_saveOne]

theorem changed_of_isPending (h : e.isPending = true) : e.state ≠ .unchanged := by
  intro hunchanged
  unfold Entity.isPending at h
  rw [hunchanged] at h
  cases h

/-- A pending entity is kept where it belongs, and nowhere else. -/
theorem tracked_iff_of_mem_pending (hfiled : s.ChangesFiled) (he : e ∈ s.pending)
    (place : String × String) : s.tracked.get? place = some e ↔ s.BelongsAt place e := by
  obtain ⟨hpending, own, hown⟩ := mem_pending.1 he
  have hchanged := changed_of_isPending hpending
  obtain ⟨key, hkey, hplace⟩ := hfiled own e hown hchanged
  refine ⟨fun h => hfiled place e h hchanged, fun h => ?_⟩
  rw [(belongsAt_iff hkey).1 h, ← hplace]
  exact hown

/-- The type of a pending entity has a key. -/
theorem keyOf?_of_mem_pending (hfiled : s.ChangesFiled) (he : e ∈ s.pending) :
    ∃ key, s.schema.keyOf? e.type = some key := by
  obtain ⟨hpending, place, hplace⟩ := mem_pending.1 he
  obtain ⟨key, hkey, -⟩ := hfiled place e hplace (changed_of_isPending hpending)
  exact ⟨key, hkey⟩

/-- A pending entity with an exact key value is found under the values that are the same. -/
theorem same_iff_of_mem_pending (hfiled : s.ChangesFiled) (hexact : s.ExactPending)
    (he : e ∈ s.pending) (hkey : s.schema.keyOf? e.type = some key) {k : Value} :
    (key.valueOf e.values).same k = true ↔
      s.tracked.get? (trackingKey e.type k) = some e := by
  have hown := hexact e he key hkey
  rw [Value.same_iff_eq hown, tracked_iff_of_mem_pending hfiled he, belongsAt_iff hkey]
  constructor
  · rintro rfl
    rfl
  · exact fun hplace => (trackingKey_inj hown hplace.symm).2

/-! ## What saving them leaves -/

/-- The rows of a type after some of the pending entities were saved: under the key of one of these
there is what remains of it, and under any other key the row from before. -/
theorem find?_saveAll_of_pending (hfiled : s.ChangesFiled) (hexact : s.ExactPending)
    (hes : ∀ e ∈ es, e ∈ s.pending) (hkey : s.schema.keyOf? type = some key)
    (hdistinct : (s.rows type).Distinct key) (k : Value) :
    ((s.rows type).saveAll key (es.filter (·.type = type))).find? key k =
      afterBatch (es.filter (·.type = type)) (s.tracked.get? (trackingKey type k)) Entity.remains
        ((s.rows type).find? key k) := by
  have hmem : ∀ e ∈ es.filter (·.type = type), e ∈ s.pending ∧ e.type = type := fun e he =>
    ⟨hes e (List.mem_filter.1 he).1, of_decide_eq_true (List.mem_filter.1 he).2⟩
  refine (congrFun (Table.find?_saveAll hdistinct _) k).trans ?_
  refine KeyMap.foldl_apply_of_held (fun e he => (mem_pending.1 (hmem e he).1).1) ?_
  intro e he
  obtain ⟨hpending, rfl⟩ := hmem e he
  exact same_iff_of_mem_pending hfiled hexact hpending hkey

/-- The tracked entities after some entities were saved, if only the entity that is held in a place
belongs there: that entity decides what is kept in the place, if it was saved. -/
theorem get?_tracked_saveEach {place : String × String} {held : Option Entity}
    (hkeyed : ∀ e ∈ es, ∃ key, s.schema.keyOf? e.type = some key)
    (hheld : ∀ e ∈ es, held = some e ↔ s.BelongsAt place e) :
    (saveEach es s).2.tracked.get? place =
      afterBatch es held Entity.kept? (s.tracked.get? place) := by
  induction es generalizing s with
  | nil => cases held <;> rfl
  | cons e es ih =>
    obtain ⟨key, hkey⟩ := hkeyed e List.mem_cons_self
    have hown : held = some e ↔ place = trackingKey e.type (key.valueOf e.values) :=
      (hheld e List.mem_cons_self).trans (belongsAt_iff hkey)
    have hrest : (saveEach es (s.saveOne e).2).2.tracked.get? place =
        afterBatch es held Entity.kept? ((s.saveOne e).2.tracked.get? place) := by
      refine ih (fun e' he' => ?_) fun e' he' => ?_
      · rw [schema_saveOne]
        exact hkeyed e' (List.mem_cons_of_mem _ he')
      · rw [belongsAt_saveOne]
        exact hheld e' (List.mem_cons_of_mem _ he')
    rw [snd_saveEach_cons, saveOne_ok hkey]
    dsimp only
    rw [hrest, get?_tracked_saveOne hkey]
    by_cases hfirst : held = some e
    · -- whether or not it comes again, the first entity is the one that is held in the place
      rw [if_pos (hown.1 hfirst), hfirst, afterBatch_some, afterBatch_some,
        if_pos List.mem_cons_self]
      exact ite_self _
    · rw [if_neg fun h => hfirst (hown.2 h)]
      cases held with
      | none => rfl
      | some e' =>
        have hne : e' ≠ e := fun h => hfirst (h ▸ rfl)
        simp only [afterBatch_some, List.mem_cons, hne, false_or]

/-- A batch of everything pending, in some order, is saved as it is given. -/
theorem batch_of_perm_pending (hes : es.Perm s.pending) : s.batch es = es := by
  unfold batch
  split
  · rename_i hnone
    rw [List.isEmpty_iff.1 hnone] at hes ⊢
    exact hes.nil_eq.symm
  · rfl

/-- The tracked entities after everything pending was saved, in some order. -/
theorem tracked_saveEach_of_perm_pending (hfiled : s.ChangesFiled) (hes : es.Perm s.pending)
    (place : String × String) :
    (saveEach es s).2.tracked.get? place =
      afterBatch es (s.tracked.get? place) Entity.kept? (s.tracked.get? place) := by
  have hmem : ∀ e ∈ es, e ∈ s.pending := fun e he => hes.mem_iff.1 he
  exact get?_tracked_saveEach (fun e he => keyOf?_of_mem_pending hfiled (hmem e he))
    fun e he => tracked_iff_of_mem_pending hfiled (hmem e he) place

/-- Saving the pending entities in some order: the answer, and what is kept and saved afterwards,
place by place. -/
theorem save_of_perm_pending (hout : s.outage = none) (hdistinct : s.KeysDistinct)
    (hfiled : s.ChangesFiled) (hexact : s.ExactPending) (hes : es.Perm s.pending) :
    ∃ s', s.save es = (.ok (es.map Entity.accepted), s') ∧
      (∀ place, s'.tracked.get? place =
        afterBatch es (s.tracked.get? place) Entity.kept? (s.tracked.get? place)) ∧
      (∀ type key, s.schema.keyOf? type = some key →
        (s'.rows type).Distinct key ∧
        ∀ k, (s'.rows type).find? key k =
          afterBatch (es.filter (·.type = type)) (s.tracked.get? (trackingKey type k))
            Entity.remains ((s.rows type).find? key k)) ∧
      ∀ type, s.schema.keyOf? type = none → s'.rows type = s.rows type := by
  have hmem : ∀ e ∈ es, e ∈ s.pending := fun e he => hes.mem_iff.1 he
  have hkeyed : ∀ e ∈ es, ∃ key, s.schema.keyOf? e.type = some key :=
    fun e he => keyOf?_of_mem_pending hfiled (hmem e he)
  obtain ⟨s', hsave, -, -, htables, hothers⟩ := saveEach_ok hkeyed
  refine ⟨s', ?_, fun place => ?_, fun type key hkey => ⟨?_, fun k => ?_⟩, fun type hnone => ?_⟩
  · rw [save_of_reachable hout, batch_of_perm_pending hes, hsave]
  · have htracked := tracked_saveEach_of_perm_pending hfiled hes place
    rwa [hsave] at htracked
  · rw [htables type key hkey]
    exact (hdistinct type key hkey).saveAll _
  · rw [htables type key hkey]
    exact find?_saveAll_of_pending hfiled hexact hmem hkey (hdistinct type key hkey) k
  · refine hothers type fun e he htype => ?_
    obtain ⟨key, hkey⟩ := hkeyed e he
    rw [htype, hnone] at hkey
    cases hkey

/-- **The order in which pending entities are saved does not matter.** Start where nothing is
tracked, the rows of every type have pairwise different keys and the service can be reached, and
make, attach, fetch and save entities in any way. As long as the key values of the pending entities
are exact, saving these in one order and saving them in another both succeed, and answer with the
same entities up to order. Afterwards every place of the unit of work holds the same, and there are
the same rows of every type up to order. -/
theorem save_perm (requests : List Request) (hempty : s.tracked = .empty)
    (hdistinct : s.KeysDistinct) (hout : s.outage = none)
    (hexact : (s.askAll requests).ExactPending) (hes : es.Perm (s.askAll requests).pending)
    (hes' : es'.Perm (s.askAll requests).pending) :
    ∃ saved saved' s₁ s₂, (s.askAll requests).save es = (.ok saved, s₁) ∧
      (s.askAll requests).save es' = (.ok saved', s₂) ∧ saved.Perm saved' ∧
      (∀ place, s₁.tracked.get? place = s₂.tracked.get? place) ∧
      ∀ type, (s₁.rows type).Perm (s₂.rows type) := by
  have hfiled : (s.askAll requests).ChangesFiled :=
    invariant_changesFiled.askAll (fun place e he => by rw [hempty] at he; cases he) requests
  have hdistinct' := invariant_keysDistinct.askAll hdistinct requests
  have hout' : (s.askAll requests).outage = none := (outage_askAll s requests).trans hout
  have horder : es.Perm es' := hes.trans hes'.symm
  obtain ⟨s₁, hsave, htracked, hrows, hothers⟩ :=
    save_of_perm_pending hout' hdistinct' hfiled hexact hes
  obtain ⟨s₂, hsave', htracked', hrows', hothers'⟩ :=
    save_of_perm_pending hout' hdistinct' hfiled hexact hes'
  refine ⟨_, _, s₁, s₂, hsave, hsave', horder.map _, fun place => ?_, fun type => ?_⟩
  · rw [htracked, htracked']
    exact afterBatch_perm horder _ _ _
  · cases hkey : (s.askAll requests).schema.keyOf? type with
    | none => rw [hothers type hkey, hothers' type hkey]
    | some key =>
      obtain ⟨hdiffer, hfind⟩ := hrows type key hkey
      obtain ⟨hdiffer', hfind'⟩ := hrows' type key hkey
      refine hdiffer.perm hdiffer' fun k => ?_
      rw [hfind, hfind']
      exact afterBatch_perm (horder.filter _) _ _ _

/-- Customers and a line come into care in all ways there are, and some of them are saved. -/
def shopRequests : List Request :=
  [.create "Customer" [("city", .string "Paris")],
    .attach { type := "Line", values := [("order", .nat 7), ("position", .nat 1)],
              state := .deleted },
    .fetch "Customer" (.string "c2") true,
    .save [{ type := "Customer", values := [("city", .string "Quito"), ("id", .string "c4")],
             state := .added }],
    .attach { type := "Customer", values := [("city", .string "Bergen"), ("id", .string "c1")],
              state := .modified },
    .attach { type := "Customer", values := [("id", .string "c4")], state := .deleted }]

/-- Four entities are pending, and they are saved forwards and backwards. -/
theorem save_perm_shop :
    let s := shop.askAll shopRequests
    let es := s.pending
    shop.tracked = .empty ∧ shop.KeysDistinct ∧ shop.outage = none ∧ s.ExactPending ∧
      es.length = 4 ∧ es.Perm s.pending ∧ es.reverse.Perm s.pending ∧
      ∃ saved saved' s₁ s₂, s.save es = (.ok saved, s₁) ∧ s.save es.reverse = (.ok saved', s₂) ∧
        saved.Perm saved' ∧ (∀ place, s₁.tracked.get? place = s₂.tracked.get? place) ∧
        ∀ type, (s₁.rows type).Perm (s₂.rows type) := by
  intro s es
  have hexact : s.ExactPending := by decide +kernel
  have hlength : es.length = 4 := s.pending_perm.length_eq.trans (by decide +kernel)
  have hback : es.reverse.Perm s.pending := es.reverse_perm
  exact ⟨rfl, keysDistinct_shop, rfl, hexact, hlength, .refl _, hback,
    save_perm shopRequests rfl keysDistinct_shop rfl hexact (.refl _) hback⟩

end Session

end DataAccess
