import DataAccess.Proofs.Session.Lookup
import DataAccess.Proofs.Store.Service

/-!
# Saving later equals saving at once

A store saves every change at once, or keeps it until everything is committed. We follow the two
ways side by side through the same changes: `later` is the session in which the changes wait and
`now` the one in which they are saved as they come.

- `Change`, `Store.applyAll`: changes asked of a store, one after the other.
- `Admissible`: new entities have new keys, and updates leave the keys alone.
- `AgreeAt`, `InStep`: what the two sessions have in common, under one key and altogether.
- `Edit`: what matters of an update or a removal; the two are treated alike.
- `InStep.enter`, `InStep.edit`: one change keeps the sessions in step; `InStep.applyAll` carries
  this through all changes.
- `Store.commit_eq_saveAtOnce`: after the commit both have the same rows.
-/

namespace DataAccess

/-! ## Changes -/

/-- A change asked of a store. -/
inductive Change where
  | insert (values : Record)
  | update (wanted : Value) (values : Record)
  | remove (wanted : Value)

namespace Store

/-- The state after a store was asked for a change, whatever it answered. -/
def apply (store : Store) (c : Context Session) : Change → Context Session
  | .insert values => ((store.insert values).perform c).2
  | .update wanted values => ((store.update wanted values).perform c).2
  | .remove wanted => ((store.remove wanted).perform c).2

/-- The state after a store was asked for several changes, the first one first. -/
def applyAll (store : Store) (changes : List Change) (c : Context Session) : Context Session :=
  changes.foldl store.apply c

/-- A store that works as before, except that it saves changes at once, or later. -/
def saving (store : Store) (atOnce : Bool) : Store :=
  { store with policy := { store.policy with saveAtOnce := atOnce } }

end Store

/-- Setting these fields of an entity with this key gives its key no other value. -/
def KeepsKey (key : Key) (wanted : Value) (fields : Record) : Prop :=
  ∀ r : Record, key.valueOf r = wanted → key.valueOf (r.overlay fields) = wanted

/-- Changes in which every new entity states a key that is exact and not known yet, and no update
gives a key another value. -/
def Admissible (key : Key) : List Value → List Change → Prop
  | _, [] => True
  | known, .insert values :: rest =>
    (∀ name ∈ key.fields, (values.value name).isNull = false) ∧
      (key.valueOf values).isExact = true ∧ key.valueOf values ∉ known ∧
      Admissible key (key.valueOf values :: known) rest
  | known, .update wanted values :: rest => KeepsKey key wanted values ∧ Admissible key known rest
  | known, .remove _ :: rest => Admissible key known rest

/-! ## Edits

An update and a removal do the same to a session, except for what they do to the entity that is
found. What matters of that is this. -/

/-- A change to the entity with a key. It keeps type and key, and what remains of the entity
depends on what would have remained before. An entity that counts as unchanged is the same as
before, and none becomes new that was not. -/
structure Edit (key : Key) (wanted : Value) (edit : Entity → Entity)
    (row : Record → Option Record) : Prop where
  type : ∀ e, (edit e).type = e.type
  keeps : ∀ e, key.valueOf e.values = wanted → key.valueOf (edit e).values = wanted
  remains : ∀ e, (edit e).remains = e.remains.bind row
  idle : ∀ e, (edit e).state = .unchanged → edit e = e
  fresh : ∀ e, (edit e).state = .added ∨ (edit e).state = .detached →
    e.state = .added ∨ e.state = .detached

theorem edit_setFields {key : Key} {wanted : Value} {fields : Record}
    (h : KeepsKey key wanted fields) :
    Edit key wanted (·.setFields fields) fun r => some (r.overlay fields) := by
  by_cases hfields : fields = []
  · subst hfields
    refine { type := fun _ => rfl, keeps := fun _ hk => hk, remains := fun e => ?_,
             idle := fun _ _ => rfl, fresh := fun _ hs => hs }
    show e.remains = e.remains.bind some
    rw [Option.bind_fun_some]
  · have hstate : ∀ e : Entity, (e.setFields fields).state = e.state.afterWrite :=
      fun e => e.state_setFields hfields
    refine { type := fun e => e.type_setFields fields, keeps := fun e hk => ?_,
             remains := fun e => ?_, idle := fun _ => Entity.setFields_eq_self,
             fresh := fun e hs => ?_ }
    · rw [Entity.values_setFields]
      exact h e.values hk
    · -- what was to remain does so with the fields, and what was gone stays gone
      unfold Entity.remains
      rw [hstate, Entity.values_setFields]
      cases e.state <;> rfl
    · rw [hstate] at hs
      revert hs
      cases e.state <;> simp [Entity.State.afterWrite]

theorem edit_markDeleted (key : Key) (wanted : Value) :
    Edit key wanted Entity.markDeleted fun _ => none := by
  have hstate : ∀ e : Entity, e.markDeleted.state = e.state.afterRemoval := fun _ => rfl
  refine { type := fun _ => rfl, keeps := fun _ hk => hk, remains := fun e => ?_,
           idle := fun e hs => absurd hs e.state_markDeleted_ne, fresh := fun e hs => ?_ }
  · unfold Entity.remains
    rw [hstate]
    cases e.state <;> rfl
  · -- only a new entity is forgotten by its removal
    rw [hstate] at hs
    revert hs
    cases e.state <;> simp [Entity.State.afterRemoval]

/-! ## Sessions side by side -/

/-- A session in order that can be reached and has a given schema. -/
structure Steady (schema : Schema) (type : String) (key : Key) (s : Session) : Prop where
  orderly : s.Orderly type key
  reachable : s.outage = none
  schema : s.schema = schema

/-- What the sessions have in common under a key. -/
structure AgreeAt (type : String) (key : Key) (later now : Session) (k : Value) : Prop where
  /-- what is to remain in the one is saved in the other -/
  remains : (later.entityAt type key k).bind Entity.remains = (now.rows type).find? key k
  /-- where changes are saved at once, there is nothing left to save -/
  settled : now.entityAt type key k =
    ((now.rows type).find? key k).map fun values => { type, values }
  /-- where changes wait, an unchanged entity is as it was saved -/
  unchanged : ∀ e, later.entityAt type key k = some e → e.state = .unchanged →
    (later.rows type).find? key k = some e.values
  /-- where changes wait, an entity that is new, or was forgotten when new, was never saved -/
  fresh : ∀ e, later.entityAt type key k = some e → e.state = .added ∨ e.state = .detached →
    (later.rows type).find? key k = none

/-- The sessions after the same changes; `known` are the keys that occurred so far. -/
structure InStep (schema : Schema) (type : String) (key : Key) (known : List Value)
    (later now : Session) : Prop where
  steadyLater : Steady schema type key later
  steadyNow : Steady schema type key now
  agree : ∀ k, AgreeAt type key later now k
  known : ∀ k, k ∉ known → later.entityAt type key k = none

variable {schema : Schema} {type : String} {key : Key} {known : List Value}
  {later now later' now' : Session}

/-- The sessions agree under a key if they agreed there before and nothing has changed there. -/
theorem AgreeAt.congr {k : Value} (h : AgreeAt type key later now k)
    (hlater : later'.entityAt type key k = later.entityAt type key k)
    (hlaterRow : (later'.rows type).find? key k = (later.rows type).find? key k)
    (hnow : now'.entityAt type key k = now.entityAt type key k)
    (hnowRow : (now'.rows type).find? key k = (now.rows type).find? key k) :
    AgreeAt type key later' now' k := by
  constructor
  · rw [hlater, hnowRow]
    exact h.remains
  · rw [hnow, hnowRow]
    exact h.settled
  · rw [hlater, hlaterRow]
    exact h.unchanged
  · rw [hlater, hlaterRow]
    exact h.fresh

/-- Before any change the sessions are the same, with nothing tracked. -/
theorem InStep.refl {s : Session} (hs : Steady schema type key s) (hempty : s.tracked = .empty) :
    InStep schema type key ((s.rows type).map key.valueOf) s s := by
  have hat : ∀ k, s.entityAt type key k =
      ((s.rows type).find? key k).map fun values => { type, values } := by
    intro k
    refine Session.entityAt_of_not_tracked ?_
    rw [hempty]
    rfl
  refine { steadyLater := hs, steadyNow := hs, agree := fun k => ?_, known := fun k hk => ?_ }
  · constructor
    · rw [hat k]
      cases (s.rows type).find? key k <;> rfl
    · exact hat k
    · intro e he _
      rw [hat k, Option.map_eq_some_iff] at he
      obtain ⟨row, hrow, rfl⟩ := he
      exact hrow
    · -- what comes from the rows is unchanged, so it is not new
      intro e he hstate
      rw [hat k, Option.map_eq_some_iff] at he
      obtain ⟨row, -, rfl⟩ := he
      rcases hstate with hstate | hstate <;> cases hstate
  · rw [hat k, Option.map_eq_none_iff, Table.find?_eq_none]
    intro row hrow
    refine Bool.eq_false_iff.2 fun hsame => hk ?_
    rw [← (Value.same_iff_eq (hs.orderly.exact_rows row hrow) k).1 hsame]
    exact List.mem_map_of_mem hrow

/-! ## One change -/

theorem Steady.fetch (h : Steady schema type key now) (wanted : Value) :
    Steady schema type key (now.fetch type wanted true).2 := by
  obtain ⟨horderly, hout, -, -⟩ := h.orderly.fetch h.reachable wanted
  refine { orderly := horderly, reachable := hout, schema := ?_ }
  obtain ⟨-, hs | ⟨row, -, -, hs⟩⟩ := Session.fetch_eq h.orderly.keyOf? h.reachable wanted
  · rw [hs]
    exact h.schema
  · rw [hs, Session.schema_track]
    exact h.schema

theorem Steady.track (h : Steady schema type key now) {e : Entity} (htype : e.type = type)
    (hexact : (key.valueOf e.values).isExact = true) :
    Steady schema type key (now.track (key.valueOf e.values) e) where
  orderly := h.orderly.track htype hexact
  reachable := h.reachable
  schema := h.schema

theorem Steady.saveOne (h : Steady schema type key now) {e : Entity} (htype : e.type = type)
    (hexact : (key.valueOf e.values).isExact = true) :
    Steady schema type key (now.saveOne e).2 := by
  refine { orderly := h.orderly.saveOne htype hexact, reachable := ?_, schema := ?_ }
  · rw [Session.outage_saveOne]
    exact h.reachable
  · rw [Session.schema_saveOne]
    exact h.schema

theorem Steady.save_singleton (h : Steady schema type key now) {e : Entity}
    (htype : e.type = type) : (now.save [e]).2 = (now.saveOne e).2 := by
  have hkey : now.schema.keyOf? e.type = some key := htype ▸ h.orderly.keyOf?
  rw [Session.save_singleton h.reachable hkey]

/-- Fetching keeps the sessions in step. -/
theorem InStep.fetch (h : InStep schema type key known later now) (wanted : Value) :
    InStep schema type key known (later.fetch type wanted true).2
      (now.fetch type wanted true).2 := by
  obtain ⟨-, -, hlaterRows, hlaterAt⟩ := h.steadyLater.orderly.fetch h.steadyLater.reachable wanted
  obtain ⟨-, -, hnowRows, hnowAt⟩ := h.steadyNow.orderly.fetch h.steadyNow.reachable wanted
  refine { steadyLater := h.steadyLater.fetch wanted, steadyNow := h.steadyNow.fetch wanted,
           agree := fun k => ?_, known := fun k hk => ?_ }
  · refine (h.agree k).congr (hlaterAt k) ?_ (hnowAt k) ?_
    · rw [hlaterRows]
    · rw [hnowRows]
  · rw [hlaterAt k]
    exact h.known k hk

/-- Sessions that stay as they are under all keys but one are in step if they agree under that
one. -/
theorem InStep.of_agreeAt (h : InStep schema type key known later now)
    (hlater : Steady schema type key later') (hnow : Steady schema type key now') {k₀ : Value}
    (hlaterAt : ∀ k, k ≠ k₀ → later'.entityAt type key k = later.entityAt type key k ∧
      (later'.rows type).find? key k = (later.rows type).find? key k)
    (hnowAt : ∀ k, k ≠ k₀ → now'.entityAt type key k = now.entityAt type key k ∧
      (now'.rows type).find? key k = (now.rows type).find? key k)
    (hk₀ : AgreeAt type key later' now' k₀) :
    InStep schema type key (k₀ :: known) later' now' := by
  refine { steadyLater := hlater, steadyNow := hnow, agree := fun k => ?_,
           known := fun k hk => ?_ }
  · by_cases hk : k = k₀
    · rw [hk]
      exact hk₀
    · obtain ⟨hat, hrow⟩ := hlaterAt k hk
      obtain ⟨hat', hrow'⟩ := hnowAt k hk
      exact (h.agree k).congr hat hrow hat' hrow'
  · obtain ⟨hne, hk⟩ := not_or.1 (mt List.mem_cons.2 hk)
    rw [(hlaterAt k hne).1]
    exact h.known k hk

/-- A key that leads to an entity counts as known anyway. -/
theorem InStep.of_cons {k : Value} (h : InStep schema type key (k :: known) later now)
    (hk : k ∈ known) : InStep schema type key known later now := by
  refine { steadyLater := h.steadyLater, steadyNow := h.steadyNow, agree := h.agree,
           known := fun k' hk' => h.known k' ?_ }
  intro hmem
  apply hk'
  rcases List.mem_cons.1 hmem with rfl | hmem
  · exact hk
  · exact hmem

section Step

variable {policy policy' : Policy}

/-- Taking an entity into care changes nothing under other keys. -/
theorem entityAt_track_of_ne {e : Entity} (htype : e.type = type)
    (hexact : (key.valueOf e.values).isExact = true) {k : Value} (hk : k ≠ key.valueOf e.values) :
    (later.track (key.valueOf e.values) e).entityAt type key k = later.entityAt type key k := by
  rw [Session.entityAt_track hexact htype, if_neg hk]

/-- A new entity with a new key keeps the sessions in step. -/
theorem InStep.enter (h : InStep schema type key known later now) {values : Record}
    (hgiven : ∀ name ∈ key.fields, (values.value name).isNull = false)
    (hexact : (key.valueOf values).isExact = true) (hnew : key.valueOf values ∉ known)
    (hwaits : policy.saveAtOnce = false) (hsaves : policy'.saveAtOnce = true) :
    InStep schema type key (key.valueOf values :: known)
      (later.enter policy type values) (now.enter policy' type values) := by
  let e : Entity := { type, values, state := .added }
  have hlater : later.enter policy type values = later.track (key.valueOf e.values) e := by
    unfold Session.enter
    rw [Session.create_eq h.steadyLater.orderly.keyOf? hgiven]
    dsimp only
    rw [hwaits]
    rfl
  have htracked : Steady schema type key (now.track (key.valueOf e.values) e) :=
    h.steadyNow.track rfl hexact
  have hnow : now.enter policy' type values =
      ((now.track (key.valueOf e.values) e).saveOne e).2 := by
    unfold Session.enter
    rw [Session.create_eq h.steadyNow.orderly.keyOf? hgiven]
    dsimp only
    rw [hsaves]
    exact htracked.save_singleton rfl
  have hnone := h.known _ hnew
  have hsaved := htracked.orderly.saveOne_at (e := e) rfl hexact (fun hs => nomatch hs)
    (fun hs => nomatch hs)
  rw [hlater, hnow]
  refine h.of_agreeAt (h.steadyLater.track (e := e) rfl hexact) (htracked.saveOne rfl hexact)
    (fun k hk => ⟨entityAt_track_of_ne (e := e) rfl hexact hk, rfl⟩) (fun k hk => ?_) ?_
  · obtain ⟨hrow, hat⟩ := hsaved k
    rw [if_neg hk] at hrow hat
    exact ⟨hat.trans (entityAt_track_of_ne (e := e) rfl hexact hk), hrow⟩
  · obtain ⟨hrow, hat⟩ := hsaved (key.valueOf values)
    rw [if_pos rfl] at hrow hat
    have hlaterAt : (later.track (key.valueOf e.values) e).entityAt type key (key.valueOf values) =
        some e := by
      rw [Session.entityAt_track (e := e) hexact rfl, if_pos rfl]
    constructor
    · rw [hlaterAt, hrow]
      rfl
    · rw [hat, hrow]
    · -- the new entity does not count as unchanged
      intro e' he' hs
      rw [hlaterAt, Option.some.injEq] at he'
      subst he'
      cases hs
    · -- nothing was found under the new key, so there was no row either
      intro e' he' hs
      show (later.rows type).find? key (key.valueOf values) = none
      unfold Session.entityAt at hnone
      split at hnone
      · cases hnone
      · exact Option.map_eq_none_iff.1 hnone

/-- A change that waits, of an entity that was found, keeps the sessions in step if the other
session comes to hold what remains of the entity. -/
theorem InStep.attach (h : InStep schema type key known later now) {wanted : Value}
    {change : Entity → Entity} {row : Record → Option Record}
    (hchange : Edit key wanted change row) {e : Entity}
    (he : later.entityAt type key wanted = some e) (hnow' : Steady schema type key now')
    (hnowRow : ∀ k, (now'.rows type).find? key k =
      if k = wanted then (change e).remains else (now.rows type).find? key k)
    (hnowAt : ∀ k, now'.entityAt type key k =
      if k = wanted then (change e).remains.map fun values => { type, values }
      else now.entityAt type key k) :
    InStep schema type key known (later.attach (change e)).2 now' := by
  obtain ⟨htype, hkey, hexact⟩ := h.steadyLater.orderly.eq_of_entityAt he
  have htype' : (change e).type = type := (hchange.type e).trans htype
  have hkey' : key.valueOf (change e).values = wanted := hchange.keeps e hkey
  have hexact' : (key.valueOf (change e).values).isExact = true := hkey' ▸ hexact
  have hattach : (later.attach (change e)).2 =
      later.track (key.valueOf (change e).values) (change e) := by
    rw [Session.attach_eq (htype' ▸ h.steadyLater.orderly.keyOf?)]
  have hlaterAt : ∀ k, (later.attach (change e)).2.entityAt type key k =
      if k = wanted then some (change e) else later.entityAt type key k := by
    intro k
    rw [hattach, Session.entityAt_track hexact' htype', hkey']
  have hlaterRows : (later.attach (change e)).2.rows type = later.rows type := by
    rw [hattach]
    rfl
  have hknown : wanted ∈ known := by
    by_cases hmem : wanted ∈ known
    · exact hmem
    · rw [h.known wanted hmem] at he
      cases he
  have hsteady : Steady schema type key (later.attach (change e)).2 := by
    rw [hattach]
    exact h.steadyLater.track htype' hexact'
  have hwanted : AgreeAt type key (later.attach (change e)).2 now' wanted := by
    constructor
    · rw [hlaterAt, if_pos rfl, hnowRow, if_pos rfl]
      rfl
    · rw [hnowAt, if_pos rfl, hnowRow, if_pos rfl]
    · -- an entity that still counts as unchanged was not touched by the change
      intro e' he' hs
      rw [hlaterAt, if_pos rfl, Option.some.injEq] at he'
      subst he'
      rw [hlaterRows, hchange.idle e hs]
      rw [hchange.idle e hs] at hs
      exact (h.agree wanted).unchanged e he hs
    · -- an entity that is new now was new before
      intro e' he' hs
      rw [hlaterAt, if_pos rfl, Option.some.injEq] at he'
      subst he'
      rw [hlaterRows]
      exact (h.agree wanted).fresh e he (hchange.fresh e hs)
  refine InStep.of_cons (h.of_agreeAt hsteady hnow' ?_ ?_ hwanted) hknown
  · intro k hk
    rw [hlaterAt, if_neg hk, hlaterRows]
    exact ⟨rfl, rfl⟩
  · intro k hk
    rw [hnowAt, if_neg hk, hnowRow, if_neg hk]
    exact ⟨rfl, rfl⟩

/-- What is found where changes are saved at once is what remains where they wait. -/
theorem InStep.now_eq (h : InStep schema type key known later now) {wanted : Value} {e : Entity}
    (he : later.entityAt type key wanted = some e) :
    (now.rows type).find? key wanted = e.remains ∧
      now.entityAt type key wanted = e.remains.map fun values => { type, values } := by
  have hrow : (now.rows type).find? key wanted = e.remains := by
    rw [← (h.agree wanted).remains, he]
    rfl
  refine ⟨hrow, ?_⟩
  rw [(h.agree wanted).settled, hrow]

/-- A change to an entity that was removed before waits in vain, and where changes are saved at
once the entity is not found. -/
theorem InStep.attach_gone (h : InStep schema type key known later now) {wanted : Value}
    {change : Entity → Entity} {row : Record → Option Record}
    (hchange : Edit key wanted change row) {e : Entity}
    (he : later.entityAt type key wanted = some e) (hgone : e.remains = none) :
    InStep schema type key known (later.attach (change e)).2 now := by
  obtain ⟨hrow, hat⟩ := h.now_eq he
  have hremains : (change e).remains = none := by
    rw [hchange.remains, hgone]
    rfl
  rw [hgone] at hrow hat
  refine h.attach hchange he h.steadyNow ?_ ?_
  · intro k
    by_cases hk : k = wanted
    · rw [if_pos hk, hk, hrow, hremains]
    · rw [if_neg hk]
  · intro k
    by_cases hk : k = wanted
    · rw [if_pos hk, hk, hat, hremains]
    · rw [if_neg hk]

/-- A change to an entity that is still there waits in the one session and is saved in the
other. -/
theorem InStep.attach_saved (h : InStep schema type key known later now) {wanted : Value}
    {change : Entity → Entity} {row : Record → Option Record}
    (hchange : Edit key wanted change row) {e : Entity}
    (he : later.entityAt type key wanted = some e) {values : Record}
    (hvalues : e.remains = some values) :
    InStep schema type key known (later.attach (change e)).2
      (now.save [change { type, values }]).2 := by
  let saved : Entity := { type, values }
  obtain ⟨hrow, hat⟩ := h.now_eq he
  rw [hvalues] at hrow hat
  obtain ⟨-, hkey, hexact⟩ :=
    h.steadyNow.orderly.eq_of_entityAt (show now.entityAt type key wanted = some saved from hat)
  have hkey' : key.valueOf (change saved).values = wanted := hchange.keeps saved hkey
  have hexact' : (key.valueOf (change saved).values).isExact = true := hkey' ▸ hexact
  have htype' : (change saved).type = type := hchange.type saved
  have hremains : (change saved).remains = (change e).remains := by
    rw [hchange.remains, hchange.remains, hvalues]
    rfl
  have hcared : (change saved).state ≠ .detached := by
    -- an entity that was saved is not new, and none becomes so
    intro hs
    rcases hchange.fresh saved (.inr hs) with hs | hs <;> cases hs
  have hidle : (change saved).state = .unchanged →
      (now.rows type).find? key (key.valueOf (change saved).values) =
        some (change saved).values := by
    intro hs
    rw [hkey', hchange.idle saved hs]
    exact hrow
  have hafter := h.steadyNow.orderly.saveOne_at htype' hexact' hcared hidle
  rw [hkey', hremains] at hafter
  show InStep schema type key known (later.attach (change e)).2 (now.save [change saved]).2
  rw [h.steadyNow.save_singleton htype']
  exact h.attach hchange he (h.steadyNow.saveOne htype' hexact')
    (fun k => (hafter k).1) (fun k => (hafter k).2)

/-- A change to the entity with a key begins with fetching it. -/
theorem Steady.edit_eq (h : Steady schema type key now) (hprefer : policy.preferTracked = true)
    (wanted : Value) (change : Entity → Entity) :
    now.edit policy type wanted change =
      match now.entityAt type key wanted with
      | some e =>
        if policy.saveAtOnce then ((now.fetch type wanted true).2.save [change e]).2
        else ((now.fetch type wanted true).2.attach (change e)).2
      | none => (now.fetch type wanted true).2 := by
  obtain ⟨hfetch, -⟩ := Session.fetch_eq h.orderly.keyOf? h.reachable wanted
  have hpair : now.fetch type wanted policy.preferTracked =
      (.ok (now.entityAt type key wanted), (now.fetch type wanted true).2) := by
    rw [hprefer, ← hfetch]
  unfold Session.edit
  rw [hpair]
  cases now.entityAt type key wanted <;> rfl

/-- Changing the entity with a key keeps the sessions in step. -/
theorem InStep.edit (h : InStep schema type key known later now) {wanted : Value}
    {change : Entity → Entity} {row : Record → Option Record}
    (hchange : Edit key wanted change row)
    (hprefer : policy.preferTracked = true) (hwaits : policy.saveAtOnce = false)
    (hprefer' : policy'.preferTracked = true) (hsaves : policy'.saveAtOnce = true) :
    InStep schema type key known (later.edit policy type wanted change)
      (now.edit policy' type wanted change) := by
  have hfetched := h.fetch wanted
  obtain ⟨-, -, -, hlaterAt⟩ := h.steadyLater.orderly.fetch h.steadyLater.reachable wanted
  rw [h.steadyLater.edit_eq hprefer, h.steadyNow.edit_eq hprefer']
  cases he : later.entityAt type key wanted with
  | none =>
    -- nothing is to remain under the key, so nothing is saved there and both do not find it
    have hnow : now.entityAt type key wanted = none := by
      rw [(h.agree wanted).settled, ← (h.agree wanted).remains, he]
      rfl
    rw [hnow]
    exact hfetched
  | some e =>
    obtain ⟨-, hnow⟩ := h.now_eq he
    rw [← hlaterAt wanted] at he
    rw [hnow, hwaits, hsaves]
    cases hr : e.remains with
    | none => exact hfetched.attach_gone hchange he hr
    | some values => exact hfetched.attach_saved hchange he hr

end Step

/-! ## All changes and the commit -/

/-- Admissible changes keep the sessions in step. -/
theorem InStep.applyAll {store : Store} (hprefer : store.policy.preferTracked = true)
    (htype : store.typeName? schema = some type) {changes : List Change}
    (hadmissible : Admissible key known changes) {c c' : Context Session}
    (h : InStep schema type key known c.service c'.service) :
    ∃ known', InStep schema type key known' ((store.saving false).applyAll changes c).service
      ((store.saving true).applyAll changes c').service := by
  induction changes generalizing known c c' with
  | nil => exact ⟨known, h⟩
  | cons change rest ih =>
    have htypeLater : (store.saving false).typeName? c.service.schema = some type := by
      rw [h.steadyLater.schema]
      exact htype
    have htypeNow : (store.saving true).typeName? c'.service.schema = some type := by
      rw [h.steadyNow.schema]
      exact htype
    cases change with
    | insert values =>
      obtain ⟨hgiven, hexact, hnew, hrest⟩ := hadmissible
      have hstep : InStep schema type key (key.valueOf values :: known)
          ((store.saving false).apply c (.insert values)).service
          ((store.saving true).apply c' (.insert values)).service := by
        unfold Store.apply
        rw [Store.service_insert htypeLater, Store.service_insert htypeNow]
        exact h.enter hgiven hexact hnew rfl rfl
      exact ih hrest hstep
    | update wanted values =>
      obtain ⟨hkeeps, hrest⟩ := hadmissible
      have hstep : InStep schema type key known
          ((store.saving false).apply c (.update wanted values)).service
          ((store.saving true).apply c' (.update wanted values)).service := by
        unfold Store.apply
        rw [Store.service_update htypeLater, Store.service_update htypeNow]
        exact h.edit (edit_setFields hkeeps) hprefer rfl hprefer rfl
      exact ih hrest hstep
    | remove wanted =>
      have hstep : InStep schema type key known
          ((store.saving false).apply c (.remove wanted)).service
          ((store.saving true).apply c' (.remove wanted)).service := by
        unfold Store.apply
        rw [Store.service_remove htypeLater, Store.service_remove htypeNow]
        exact h.edit (edit_markDeleted key wanted) hprefer rfl hprefer rfl
      exact ih hadmissible hstep

/-- Sessions that are in step hold the same rows once everything that waits is saved. -/
theorem InStep.save_pending (h : InStep schema type key known later now) :
    ∃ saved later', later.save [] = (.ok saved, later') ∧ (later'.rows type).Distinct key ∧
      ∀ k, (later'.rows type).find? key k = (now.rows type).find? key k := by
  obtain ⟨later', hsave, hdistinct, hrows⟩ :=
    h.steadyLater.orderly.save_pending h.steadyLater.reachable
  refine ⟨_, later', hsave, hdistinct, fun k => ?_⟩
  obtain ⟨hremains, -, hunchanged, hfresh⟩ := h.agree k
  rw [hrows k, ← hremains]
  cases ht : later.tracked.get? (trackingKey type k) with
  | none =>
    -- what is not tracked is found as it was saved
    rw [Session.entityAt_of_not_tracked ht]
    cases (later.rows type).find? key k <;> rfl
  | some e =>
    have he : later.entityAt type key k = some e := Session.entityAt_of_tracked ht
    rw [he]
    dsimp only [Option.bind_some]
    unfold Entity.isPending Entity.remains
    cases hstate : e.state with
    | unchanged => exact hunchanged e he hstate
    | detached => exact hfresh e he (.inr hstate)
    | _ => rfl

/-- **Saving later equals saving at once.** Take a store that prefers tracked entities, and a
session that can be reached and tracks nothing, in which the saved rows of the type of the store
have pairwise different exact keys. Whatever admissible changes the store is asked for: if they
wait and are committed in the end, the commit succeeds and the table is the same map from keys to
rows as if every change had been saved at once. -/
theorem Store.commit_eq_saveAtOnce (store : Store) (hprefer : store.policy.preferTracked = true)
    (c : Context Session) (hempty : c.service.tracked = .empty) (hout : c.service.outage = none)
    (htype : store.typeName? c.service.schema = some type)
    (hkey : c.service.schema.keyOf? type = some key)
    (hdistinct : (c.service.rows type).Distinct key)
    (hexact : ∀ row ∈ c.service.rows type, (key.valueOf row).isExact = true)
    (changes : List Change)
    (hadmissible : Admissible key ((c.service.rows type).map key.valueOf) changes) :
    ∃ saved later,
      ((store.saving false).commit []).perform ((store.saving false).applyAll changes c) =
        (.ok saved, later) ∧
      (later.service.rows type).Distinct key ∧
      (((store.saving true).applyAll changes c).service.rows type).Distinct key ∧
      ∀ k, (later.service.rows type).find? key k =
        (((store.saving true).applyAll changes c).service.rows type).find? key k := by
  have horderly : c.service.Orderly type key := by
    refine { keyOf? := hkey, distinct := hdistinct, exact_rows := hexact,
             filed := fun place e he => ?_ }
    rw [hempty] at he
    cases he
  have hstart := InStep.refl ⟨horderly, hout, rfl⟩ hempty
  obtain ⟨known, hstep⟩ := hstart.applyAll hprefer htype hadmissible
  obtain ⟨saved, later, hsave, hlater, hrows⟩ := hstep.save_pending
  exact ⟨saved, _, Store.commit_ok hsave, hlater, hstep.steadyNow.orderly.distinct, hrows⟩

/-! ## A customer that comes and goes -/

theorem value_overlay_of_not_mem {fields : List (String × Value)} {name : String}
    (h : ∀ field ∈ fields, field.1 ≠ name) (r : Record) :
    (r.overlay fields).value name = r.value name := by
  have hname : name ∉ Record.names fields := fun hmem =>
    let ⟨field, hfield, heq⟩ := List.mem_map.1 hmem
    h field hfield heq
  unfold Record.value
  rw [Record.get?_overlay_of_notMem hname]

/-- Fields that are not part of the key may be set to anything. -/
theorem keepsKey_of_not_mem {key : Key} {fields : Record}
    (h : ∀ name ∈ key.fields, ∀ field ∈ fields, field.1 ≠ name) (wanted : Value) :
    KeepsKey key wanted fields := by
  intro r hr
  rw [key.valueOf_congr fun name hname => value_overlay_of_not_mem (h name hname) r]
  exact hr

/-- Customers of the shop are entered, changed and removed, one of them twice. -/
def shopChanges : List Change :=
  [.insert [("city", .string "Lima"), ("id", .string "c3")],
    .update (.string "c1") [("city", .string "Bergen")],
    .remove (.string "c2"),
    .remove (.string "c3"),
    .remove (.string "c3"),
    .update (.string "c2") [("city", .string "Paris")],
    .insert [("id", .string "c4")],
    .update (.string "c4") [("city", .string "Quito")]]

theorem admissible_shopChanges :
    Admissible (.single "id") [.string "c1", .string "c2"] shopChanges := by
  have hcity : ∀ (wanted : Value) (city : String),
      KeepsKey (.single "id") wanted [("city", .string city)] := fun wanted city =>
    keepsKey_of_not_mem (by simp [Key.fields]) wanted
  refine ⟨?_, rfl, by decide, hcity _ _, hcity _ _, ?_, rfl, by decide, hcity _ _, trivial⟩
  · decide
  · decide

theorem Store.commit_eq_saveAtOnce_shop :
    (Session.shop.rows "Customer").Distinct (.single "id") ∧
      Admissible (.single "id") ((Session.shop.rows "Customer").map (Key.single "id").valueOf)
        shopChanges ∧
      ∃ saved later,
        (({ resource := "customers" } : Store).commit []).perform
            (({ resource := "customers" } : Store).applyAll shopChanges
              { service := Session.shop }) = (.ok saved, later) ∧
        (later.service.rows "Customer").find? (.single "id") (.string "c1") =
          some [("city", .string "Bergen"), ("id", .string "c1")] ∧
        (later.service.rows "Customer").find? (.single "id") (.string "c2") = none ∧
        (later.service.rows "Customer").find? (.single "id") (.string "c3") = none ∧
        (later.service.rows "Customer").find? (.single "id") (.string "c4") =
          some [("city", .string "Quito"), ("id", .string "c4")] := by
  have hdistinct : (Session.shop.rows "Customer").Distinct (.single "id") := by
    unfold Table.Distinct
    decide
  obtain ⟨saved, later, hcommit, -, -, hrows⟩ :=
    Store.commit_eq_saveAtOnce { resource := "customers" } rfl { service := Session.shop } rfl rfl
      (show _ = some "Customer" from rfl) (show _ = some (.single "id") from rfl) hdistinct
      (by decide) shopChanges admissible_shopChanges
  refine ⟨hdistinct, admissible_shopChanges, saved, later, hcommit, ?_, ?_, ?_, ?_⟩
  all_goals
    rw [hrows]
    decide

end DataAccess
