import DataAccess.Value.Path

/-!
# What picking keeps of a value

The parts of a value are picked by writing one after the other into an empty record, each at the
path at which it stands in the value. A write makes the objects on its way and passes over any other
value that it meets there. It cannot meet one if no path that is picked leads on from the end of
another, since then all that stands on the way of a path was made for that purpose.

- `Path.Apart`: paths of which neither leads on from the end of the other.
- `Record.within?`: the record to which a write goes on below a name.
- `Record.follow_setPath_of_apart`: a write leaves alone what stands at paths apart from its own.
- `Record.Admits`: only objects stand on the way of a path; `Record.follow_setPath`: then a write
  gets to its place, and `Record.admits_setPath`: it leaves the way to other places free.
- `Record.writeAll`, `Record.follow_writeAll`, `Record.follow_writeAll_of_apart`: several writes.
- `Record.atPath_pick`: what is picked is kept, and nothing else is.
-/

namespace DataAccess

/-- Neither path leads on from the end of the other. -/
def Path.Apart (p q : Path) : Prop := ¬p <+: q ∧ ¬q <+: p

instance (p q : Path) : Decidable (p.Apart q) :=
  inferInstanceAs (Decidable (¬p <+: q ∧ ¬q <+: p))

theorem Path.apart_of_cons {name : String} {p q : Path} (h : Apart (name :: p) (name :: q)) :
    p.Apart q :=
  h.imp (mt (List.prefix_cons_inj name).2) (mt (List.prefix_cons_inj name).2)

/-- What stands at a written path depends on the names alone. -/
theorem Value.atPath_congr {path other : String} (h : Path.ofText path = Path.ofText other)
    (v : Value) : v.atPath path = v.atPath other := by
  unfold atPath
  rw [h]

namespace Record

variable {r fields : Record} {name other : String} {p q : Path} {v : Value}

/-! ## One write -/

/-- The record below a name, to which a write at a longer path goes on. Where nothing stands it is
empty; where another value stands there is none. -/
def within? (r : Record) (name : String) : Option Record :=
  match r.get? name with
  | none => some []
  | some (.object fields) => some fields
  | some _ => none

theorem setPath_cons_cons (r : Record) (name next : String) (rest : Path) (v : Value) :
    r.setPath (name :: next :: rest) v =
      match r.within? name with
      | some fields => r.insert name (.object (fields.setPath (next :: rest) v))
      | none => r := by
  rw [setPath]
  unfold within?
  cases r.get? name with
  | none => rfl
  | some value => cases value <;> rfl

theorem follow_object_cons (r : Record) (name : String) (p : Path) :
    (Value.object r).follow (name :: p) = (r.get? name).bind (·.follow p) :=
  Value.follow_cons _ _ _

/-- What stands further below a name stands in the record there. -/
theorem follow_of_within? (h : r.within? name = some fields) (hp : p ≠ []) :
    (Value.object r).follow (name :: p) = (Value.object fields).follow p := by
  rw [follow_object_cons]
  unfold within? at h
  split at h
  · -- in an empty record nothing stands either
    rename_i hnone
    cases h
    rw [hnone]
    cases p with
    | nil => exact absurd rfl hp
    | cons next rest => rfl
  · rename_i hsome
    cases h
    rw [hsome]
    rfl
  · cases h

/-- A write leaves all names alone but the first of its path. -/
theorem get?_setPath_of_ne (h : other ≠ name) (r : Record) (p : Path) (v : Value) :
    (r.setPath (name :: p) v).get? other = r.get? other := by
  cases p with
  | nil => exact get?_insert_of_ne r v h
  | cons next rest =>
    rw [setPath_cons_cons]
    cases r.within? name with
    | none => rfl
    | some fields => exact get?_insert_of_ne r _ h

/-- A write leaves alone what stands at paths apart from its own. -/
theorem follow_setPath_of_apart (h : p.Apart q) (r : Record) (v : Value) :
    (Value.object (r.setPath p v)).follow q = (Value.object r).follow q := by
  induction p generalizing r q with
  | nil => exact absurd List.nil_prefix h.1
  | cons name p ih =>
    cases q with
    | nil => exact absurd List.nil_prefix h.2
    | cons other q =>
      by_cases hname : other = name
      · subst hname
        have hrest : Path.Apart p q := Path.apart_of_cons h
        cases p with
        | nil => exact absurd List.nil_prefix hrest.1
        | cons next p =>
          have hq : q ≠ [] := fun hq => hrest.2 (hq ▸ List.nil_prefix)
          rw [setPath_cons_cons]
          cases hwithin : r.within? other with
          | none => rfl
          | some fields =>
            dsimp only
            rw [follow_object_cons, get?_insert_self, Option.bind_some, ih hrest,
              follow_of_within? hwithin hq]
      · rw [follow_object_cons, follow_object_cons, get?_setPath_of_ne hname]

/-- Nothing but objects stands on the way of a path. -/
def Admits : Record → Path → Prop
  | _, [] | _, [_] => True
  | r, name :: next :: rest => ∃ fields, r.within? name = some fields ∧ Admits fields (next :: rest)

theorem admits_nil : (p : Path) → Admits [] p
  | [] | [_] => trivial
  | _ :: next :: rest => ⟨[], rfl, admits_nil (next :: rest)⟩

/-- A write gets to its place if the way is free. -/
theorem follow_setPath (hp : p ≠ []) (h : r.Admits p) (v : Value) :
    (Value.object (r.setPath p v)).follow p = some v := by
  induction p generalizing r with
  | nil => exact absurd rfl hp
  | cons name p ih =>
    cases p with
    | nil => rw [setPath, follow_object_cons, get?_insert_self]; rfl
    | cons next rest =>
      obtain ⟨fields, hwithin, hfields⟩ := h
      rw [setPath_cons_cons, hwithin]
      dsimp only
      rw [follow_object_cons, get?_insert_self, Option.bind_some,
        ih (List.cons_ne_nil next rest) hfields]

/-- A write leaves the way of every path free that does not lead on from its end. -/
theorem admits_setPath (h : r.Admits q) (hends : p <+: q → p = q) (v : Value) :
    (r.setPath p v).Admits q := by
  induction p generalizing r q with
  | nil => exact h
  | cons name p ih =>
    match q, h with
    | [], _ | [_], _ => trivial
    | other :: next' :: q, h =>
      obtain ⟨fields, hwithin, hfields⟩ := h
      by_cases hname : other = name
      · subst hname
        cases p with
        | nil => cases hends ⟨next' :: q, rfl⟩
        | cons next p =>
          have hrest : next :: p <+: next' :: q → next :: p = next' :: q := fun hprefix =>
            List.tail_eq_of_cons_eq (hends ((List.prefix_cons_inj other).2 hprefix))
          refine ⟨fields.setPath (next :: p) v, ?_, ih hfields hrest⟩
          rw [setPath_cons_cons, hwithin]
          dsimp only
          unfold within?
          rw [get?_insert_self]
      · refine ⟨fields, ?_, hfields⟩
        unfold within? at hwithin ⊢
        rwa [get?_setPath_of_ne hname]

/-! ## Several writes -/

/-- Writes what stands in a value at each of several paths, at the same path. -/
def writeAll (r : Record) (v : Value) (paths : List String) : Record :=
  paths.foldl (fun r path => r.setPath (Path.ofText path) (v.atPath path)) r

theorem pick_eq_writeAll (v : Value) (paths : List String) : pick v paths = writeAll [] v paths :=
  rfl

theorem writeAll_cons (r : Record) (v : Value) (path : String) (rest : List String) :
    r.writeAll v (path :: rest) =
      (r.setPath (Path.ofText path) (v.atPath path)).writeAll v rest := rfl

/-- Writes leave alone what stands at a path apart from all of theirs. -/
theorem follow_writeAll_of_apart {paths : List String}
    (h : ∀ path ∈ paths, (Path.ofText path).Apart q) (r : Record) (v : Value) :
    (Value.object (r.writeAll v paths)).follow q = (Value.object r).follow q := by
  induction paths generalizing r with
  | nil => rfl
  | cons path rest ih =>
    obtain ⟨hpath, hrest⟩ := List.forall_mem_cons.1 h
    rw [writeAll_cons, ih hrest, follow_setPath_of_apart hpath]

/-- What was written at a path, or stood there before, stands there after several writes, if each
of them is at that same path or apart from it. -/
theorem follow_writeAll {paths : List String} {path : String} (hway : r.Admits (Path.ofText path))
    (hpaths : ∀ other ∈ paths,
      Path.ofText other = Path.ofText path ∨ (Path.ofText other).Apart (Path.ofText path))
    (h : path ∈ paths ∨ (Value.object r).follow (Path.ofText path) = some (v.atPath path)) :
    (Value.object (r.writeAll v paths)).follow (Path.ofText path) = some (v.atPath path) := by
  induction paths generalizing r with
  | nil => exact h.resolve_left List.not_mem_nil
  | cons first rest ih =>
    obtain ⟨hfirst, hrest⟩ := List.forall_mem_cons.1 hpaths
    rw [writeAll_cons]
    rcases hfirst with hsame | hapart
    · rw [Value.atPath_congr hsame, hsame]
      refine ih (admits_setPath hway (fun _ => rfl) _) hrest (.inr ?_)
      exact follow_setPath (Path.ofText_ne_nil path) hway _
    · refine ih (admits_setPath hway (fun hprefix => absurd hprefix hapart.1) _) hrest ?_
      rw [follow_setPath_of_apart hapart]
      refine h.imp (fun hmem => (List.mem_cons.1 hmem).resolve_left ?_) id
      rintro rfl
      exact hapart.1 List.prefix_rfl

/-! ## Picking -/

/-- **What picking keeps.** Let none of some paths lead on from the end of another. Then the record
that is picked holds at each of these paths what the value holds there, or null where the value
holds nothing. It holds nothing at any path that is apart from all of them. -/
theorem atPath_pick (v : Value) (paths : List String)
    (hends : ∀ path ∈ paths, ∀ other ∈ paths,
      Path.ofText path <+: Path.ofText other → Path.ofText path = Path.ofText other) :
    (∀ path ∈ paths, (Value.object (pick v paths)).atPath path = v.atPath path) ∧
      ∀ other : String, (∀ path ∈ paths, (Path.ofText path).Apart (Path.ofText other)) →
        (Value.object (pick v paths)).atPath other = .null := by
  rw [pick_eq_writeAll]
  constructor
  · intro path hpath
    have hpaths : ∀ other ∈ paths,
        Path.ofText other = Path.ofText path ∨ (Path.ofText other).Apart (Path.ofText path) := by
      intro other hother
      by_cases hsame : Path.ofText other = Path.ofText path
      · exact .inl hsame
      · exact .inr ⟨fun h => hsame (hends other hother path hpath h),
          fun h => hsame (hends path hpath other hother h).symm⟩
    unfold Value.atPath
    rw [follow_writeAll (admits_nil _) hpaths (.inl hpath), Option.getD_some]
    rfl
  · intro other hother
    unfold Value.atPath
    rw [follow_writeAll_of_apart hother]
    cases h : Path.ofText other with
    | nil => exact absurd h (Path.ofText_ne_nil other)
    | cons name rest => rfl

/-- Of a customer the id and three other parts are picked. One of them is there, one is missing and
one would be a part of a list; the city is asked for twice. The zip code of the same address is left
out. -/
theorem atPath_pick_customer :
    let customer : Value := .object
      [("address", .object [("city", .string "Oslo"), ("zip", .nat 150)]), ("id", .nat 1),
        ("tags", .array [.string "new"])]
    let paths := ["address.city", "id", "address.geo.lat", "tags.first", "address.city"]
    (∀ path ∈ paths, ∀ other ∈ paths,
      Path.ofText path <+: Path.ofText other → Path.ofText path = Path.ofText other) ∧
      (Value.object (pick customer paths)).atPath "address.city" = .string "Oslo" ∧
      (Value.object (pick customer paths)).atPath "address.geo.lat" = .null ∧
      (Value.object (pick customer paths)).atPath "tags.first" = .null ∧
      customer.atPath "address.zip" = .nat 150 ∧
      (Value.object (pick customer paths)).atPath "address.zip" = .null := by
  intro customer paths
  have hends : ∀ path ∈ paths, ∀ other ∈ paths,
      Path.ofText path <+: Path.ofText other → Path.ofText path = Path.ofText other := by decide
  obtain ⟨hpicked, hother⟩ := atPath_pick customer paths hends
  exact ⟨hends, hpicked "address.city" (by decide), hpicked "address.geo.lat" (by decide),
    hpicked "tags.first" (by decide), rfl, hother "address.zip" (by decide)⟩

end Record

end DataAccess
