import DataAccess.Proofs.Plan.Answering
import DataAccess.Proofs.Session.Saving
import DataAccess.Proofs.Value.Comparing

/-!
# Two ways of finding a row by its key

A store finds a row by asking a query, which compares the key fields one by one. A change finds its
entity by the key value as a whole. Both take the first row that fits, so they agree as far as the
two notions of equality do.

- `Key.Fits`, `Key.part`: values of the form of a key value, and what they say about each field.
- `Key.same_valueOf_iff`: a key value is told apart field by field.
- `Store.holds_keyPredicate_iff`: the query compares field by field.
- `Store.findRow_eq_head?`: finding a row asks for all rows that fit, and gives the first one.
- `Session.fetch_fst`, `Store.findRow_fst`: both answer with the first row that fits.
- `Store.findRow_eq_fetch`: when they answer with the same row. `Store.findRow_ne_fetch` shows both
  ways in which they can differ.
-/

namespace DataAccess

/-! ## Key values field by field -/

namespace Key

variable {key : Key} {k : Value}

/-- A value has the form of a key value: of a key of several fields, it is an object with exactly
these fields. -/
def Fits : Key → Value → Prop
  | single _, _ => True
  | composite names, k =>
    ∃ fields : Record, k = .object fields ∧ fields.Sorted ∧
      ∀ name, name ∈ fields.names ↔ name ∈ names

/-- What a key value says about a field of the key. -/
def part : Key → Value → String → Value
  | single _, k, _ => k
  | composite _, k, name => (k.field? name).getD .null

/-- The key value of a row has the form of a key value. -/
theorem fits_valueOf (key : Key) (row : Record) : key.Fits (key.valueOf row) := by
  cases key with
  | single field => trivial
  | composite names =>
    refine ⟨_, rfl, Record.sorted_ofFields _, fun name => ?_⟩
    rw [← Record.isSome_get?_iff]
    unfold Record.ofFields
    rw [Record.get?_overlay_map]
    split <;> simp [*]

/-- A row has a key value if each of its key fields holds what the key value says about it. -/
theorem same_valueOf_iff (hfits : key.Fits k) (row : Record) :
    (key.valueOf row).same k = true ↔
      ∀ name ∈ key.fields, (row.value name).same (key.part k name) = true := by
  cases key with
  | single field => simp [valueOf, fields, part]
  | composite names =>
    obtain ⟨values, rfl, hsorted, hnames⟩ := hfits
    -- what stands under each name in the two objects
    have hat : ∀ name, Record.sameAt
        (Record.get? (Record.ofFields (names.map fun name => (name, row.value name))) name)
        (values.get? name) = true ↔
          (name ∈ names →
            (row.value name).same ((composite names).part (.object values) name) = true) := by
      intro name
      unfold Record.ofFields
      rw [Record.get?_overlay_map]
      by_cases hname : name ∈ names
      · obtain ⟨v, hv⟩ :=
          Option.isSome_iff_exists.1 (Record.isSome_get?_iff.2 ((hnames name).2 hname))
        have hpart : (composite names).part (.object values) name = v := by
          show (values.get? name).getD .null = v
          rw [hv]
          rfl
        rw [if_pos hname, hv, hpart]
        exact ⟨fun h _ => h, fun h => h hname⟩
      · have hv : values.get? name = none :=
          Option.not_isSome_iff_eq_none.1 fun h =>
            hname ((hnames name).1 (Record.isSome_get?_iff.1 h))
        rw [if_neg hname, hv]
        exact ⟨fun _ h => absurd h hname, fun _ => rfl⟩
    show Value.sameFields _ values = true ↔ _
    rw [Record.sameFields_iff (Record.sorted_ofFields _) hsorted]
    exact forall_congr' hat

/-- All parts of a key value can be compared. -/
def Comparable (key : Key) (k : Value) : Prop :=
  ∀ name ∈ key.fields, (key.part k name).isScalar = true

instance (key : Key) (k : Value) : Decidable (key.Comparable k) :=
  inferInstanceAs (Decidable (∀ name ∈ key.fields, (key.part k name).isScalar = true))

/-- Every key field of a row compares equal to what a key value says about it. -/
def Meets (key : Key) (k : Value) (row : Record) : Prop :=
  ∀ name ∈ key.fields, (row.value name).compare? (key.part k name) = some .eq

instance (key : Key) (k : Value) (row : Record) : Decidable (key.Meets k row) :=
  inferInstanceAs
    (Decidable (∀ name ∈ key.fields, (row.value name).compare? (key.part k name) = some .eq))

/-- A row that compares equal in all key fields holds the very numbers that the key value gives. -/
def Exact (key : Key) (k : Value) (row : Record) : Prop :=
  key.Meets k row → ∀ name ∈ key.fields, ∀ m n,
    row.value name = .number m → key.part k name = .number n → m.same n = true

/-- A row with a key value compares equal, if the key value can be compared. -/
theorem meets_of_same (hfits : key.Fits k) (hcomparable : key.Comparable k) {row : Record}
    (h : (key.valueOf row).same k = true) : key.Meets k row := fun name hname =>
  Value.compare?_of_same (hcomparable name hname) ((same_valueOf_iff hfits row).1 h name hname)

/-- In other words, a row that compares equal has the key value. -/
theorem exact_iff (hfits : key.Fits k) (row : Record) :
    key.Exact k row ↔ (key.Meets k row → (key.valueOf row).same k = true) := by
  rw [same_valueOf_iff hfits]
  constructor
  · intro hexact hmeets name hname
    exact Value.same_of_compare? (hmeets name hname) (hexact hmeets name hname)
  · intro h hmeets name hname m n hm hn
    have hsame := h hmeets name hname
    rw [hm, hn] at hsame
    exact hsame

/-- No row compares equal to a key value of which a part is a list or an object. -/
theorem not_meets (h : ¬key.Comparable k) (row : Record) : ¬key.Meets k row := by
  intro hmeets
  refine h fun name hname => ?_
  by_cases hscalar : (key.part k name).isScalar = true
  · exact hscalar
  · have hnone := Value.compare?_eq_none (Bool.eq_false_iff.2 hscalar) (row.value name)
    rw [hmeets name hname] at hnone
    cases hnone

end Key

/-! ## Both take the first row that fits -/

/-- A name without points is a path of one name. -/
theorem Value.atPath_object {name : String} (h : '.' ∉ name.toList) (row : Record) :
    (Value.object row).atPath name = row.value name := by
  have hpath : Path.ofText name = [name] := by
    unfold Path.ofText
    rw [Text.split_of_notMem h]
    simp
  unfold atPath
  rw [hpath, follow_cons]
  show ((row.get? name).bind _).getD .null = (row.get? name).getD .null
  cases row.get? name <;> rfl

theorem Table.find?_eq (key : Key) (k : Value) (table : Table) :
    Table.find? key k table = List.find? (fun row => (key.valueOf row).same k) table := by
  induction table with
  | nil => rfl
  | cons row rest ih =>
    rw [Table.find?, ih, List.find?_cons]
    cases (key.valueOf row).same k <;> rfl

namespace Session

variable {s : Session} {type : String} {key : Key}

/-- Where tracked entities are not preferred, fetching gives the first saved row with the key. -/
theorem fetch_fst (hup : s.outage = none) (hkey : s.schema.keyOf? type = some key) (k : Value) :
    (s.fetch type k false).1 =
      .ok (((s.rows type).find? key k).map fun values => { type, values }) := by
  have hpreferred : s.preferred? type k false = none := rfl
  unfold fetch
  rw [hpreferred, outageError?_of_none hup, keyOf_of_keyOf? hkey]
  dsimp only
  cases (s.rows type).find? key k <;> rfl

end Session

namespace Store

variable {store : Store} {type : String} {key : Key} {k : Value}

/-- The query for a key compares field by field. -/
theorem holds_keyPredicate_iff (hdots : ∀ name ∈ key.fields, '.' ∉ name.toList) (k : Value)
    (row : Record) : (keyPredicate key k).holds (.object row) = true ↔ key.Meets k row := by
  have htest : ∀ name ∈ key.fields, Operator.eq.test ((Value.object row).atPath name)
      (key.part k name) = true ↔ (row.value name).compare? (key.part k name) = some .eq := by
    intro name hname
    rw [Value.atPath_object (hdots name hname)]
    exact beq_iff_eq
  cases key with
  | single field =>
    have hfield := htest field (List.mem_singleton.2 rfl)
    refine hfield.trans ⟨fun h name hname => ?_, fun h => h field (List.mem_singleton.2 rfl)⟩
    rw [List.mem_singleton.1 hname]
    exact h
  | composite names =>
    unfold keyPredicate
    rw [Predicate.holds_all, List.all_map, List.all_eq_true]
    exact forall₂_congr htest

/-- Whatever query a store starts from, its resource is asked. -/
theorem resource_ownQuery (store : Store) : store.ownQuery.resource = some store.resource := by
  unfold ownQuery
  cases store.query <;> rfl

/-- Finding a row asks for the rows that the query of a store lets through and that meet the
condition, and gives the first one. -/
theorem findRow_eq_head? {c : Context Session}
    (htype : store.typeName? c.service.schema = some type)
    (hkey : c.service.schema.keyOf? type = some key) (hup : c.service.outage = none) (k : Value) :
    ((store.findRow k).perform c).1 =
      ((store.ownQuery.restrict (keyPredicate key k)).answer c.service.sorter
        ((c.service.rows type).map .object)).map fun response => response.rows.head? := by
  let q := store.ownQuery.restrict (keyPredicate key k)
  have hresource : q.resource = some store.resource := resource_ownQuery store
  have hanswer : (c.service.execute q).1 =
      q.answer c.service.sorter ((c.service.rows type).map .object) :=
    Session.execute_served hup (by rw [hresource]; exact htype)
  unfold findRow
  rw [Action.perform_bind_ok (Action.perform_inspect _ _), keyOrError_of_typeName? htype hkey,
    Action.perform_bind_ok (Action.perform_ofExcept _ _),
    Action.fst_bind (r := fun response => .ok response.rows.head?) (fun _ _ => rfl),
    store.escalation.fst_guard_execute, hanswer]
  cases q.answer c.service.sorter _ <;> rfl

/-- A store that starts from no query of its own finds the first saved row that compares equal. -/
theorem findRow_fst {c : Context Session} (hquery : store.query = none)
    (htype : store.typeName? c.service.schema = some type)
    (hkey : c.service.schema.keyOf? type = some key) (hup : c.service.outage = none)
    (hdots : ∀ name ∈ key.fields, '.' ∉ name.toList) (k : Value) :
    ((store.findRow k).perform c).1 =
      .ok ((List.find? (fun row => decide (key.Meets k row)) (c.service.rows type)).map
        .object) := by
  let q := (Query.ofResource store.resource).restrict (keyPredicate key k)
  have hown : store.ownQuery.restrict (keyPredicate key k) = q := by
    unfold ownQuery
    rw [hquery]
  -- the two conditions are the same on the rows of the table
  have hholds : (fun row => (keyPredicate key k).holds (.object row)) =
      fun row => decide (key.Meets k row) :=
    funext fun row => Bool.eq_iff_iff.2
      ((holds_keyPredicate_iff hdots k row).trans decide_eq_true_iff.symm)
  -- without an order the rows stay as they are saved
  have hrows : ∀ rows, (q.answer c.service.sorter rows).map (fun response => response.rows.head?) =
      .ok (rows.filter (keyPredicate key k).holds).head? := by
    intro rows
    rw [Query.answer_of_select_nil rfl, Query.sorted_of_order_nil rfl]
    rfl
  rw [findRow_eq_head? htype hkey hup, hown, hrows, ← hholds, List.head?_filter, List.find?_map]
  rfl

/-- **When the two ways of finding a row agree.** Let a store start from no query of its own, let
no key field have a point in its name, and let `k` have the form of a key value. Finding a row and
fetching an entity both succeed. If no part of `k` is a list or an object, a row is found wherever
an entity is; and if every row that compares equal holds the very numbers that `k` gives, it is the
row of that entity. If a part of `k` is a list or an object, no row is found. -/
theorem findRow_eq_fetch (store : Store) (c : Context Session) (hquery : store.query = none)
    (htype : store.typeName? c.service.schema = some type)
    (hkey : c.service.schema.keyOf? type = some key) (hup : c.service.outage = none)
    (hdots : ∀ name ∈ key.fields, '.' ∉ name.toList) (hfits : key.Fits k) :
    ∃ row? found?, ((store.findRow k).perform c).1 = .ok row? ∧
      (c.service.fetch type k false).1 = .ok found? ∧
      (key.Comparable k → (found?.isSome = true → row?.isSome = true) ∧
        ((∀ row ∈ c.service.rows type, key.Exact k row) →
          row? = found?.map fun e => .object e.values)) ∧
      (¬key.Comparable k → row? = none) := by
  let table := c.service.rows type
  refine ⟨_, _, findRow_fst hquery htype hkey hup hdots k, Session.fetch_fst hup hkey k, ?_, ?_⟩
  · intro hcomparable
    rw [Table.find?_eq]
    refine ⟨fun h => ?_, fun hexact => ?_⟩
    · rw [Option.isSome_map, List.find?_isSome] at h ⊢
      obtain ⟨row, hrow, hsame⟩ := h
      exact ⟨row, hrow, decide_eq_true (Key.meets_of_same hfits hcomparable hsame)⟩
    · -- on the rows of the table the two tests agree
      have htest : ∀ row ∈ table, decide (key.Meets k row) = (key.valueOf row).same k := by
        intro row hrow
        refine Bool.eq_iff_iff.2 (decide_eq_true_iff.trans ⟨?_, ?_⟩)
        · exact (Key.exact_iff hfits row).1 (hexact row hrow)
        · exact Key.meets_of_same hfits hcomparable
      have hfind : List.find? (fun row => decide (key.Meets k row)) table =
          List.find? (fun row => (key.valueOf row).same k) table := by
        rw [← List.head?_filter, ← List.head?_filter, List.filter_congr htest]
      rw [hfind, Option.map_map]
      rfl
  · intro hcomparable
    have hnone : List.find? (fun row => decide (key.Meets k row)) table = none :=
      List.find?_eq_none.2 fun row _ h => Key.not_meets hcomparable row (of_decide_eq_true h)
    rw [hnone]
    rfl

theorem findRow_eq_fetch_shop :
    let store : Store := { resource := "lines" }
    let c : Context Session := { service := Session.shop }
    let key : Key := .composite ["order", "position"]
    let row : Record := [("order", .nat 7), ("position", .nat 1)]
    let k : Value := .object row
    store.typeName? c.service.schema = some "Line" ∧ c.service.schema.keyOf? "Line" = some key ∧
      (∀ name ∈ key.fields, '.' ∉ name.toList) ∧ key.Fits k ∧
      (c.service.fetch "Line" k false).1 = .ok (some { type := "Line", values := row }) ∧
      ((store.findRow k).perform c).1 = .ok (some (.object row)) := by
  intro store c key row k
  have hdots : ∀ name ∈ key.fields, '.' ∉ name.toList := by decide
  have hkey : key.valueOf row = k := by decide
  have hfits : key.Fits k := hkey ▸ key.fits_valueOf row
  have hcomparable : key.Comparable k := by decide
  have hexact : ∀ saved ∈ c.service.rows "Line", key.Exact k saved := by
    have hsame : ∀ saved ∈ c.service.rows "Line",
        key.Meets k saved → (key.valueOf saved).same k = true := by
      decide
    exact fun saved hsaved => (key.exact_iff hfits saved).2 (hsame saved hsaved)
  have hfetch : (c.service.fetch "Line" k false).1 =
      .ok (some { type := "Line", values := row }) := rfl
  obtain ⟨row?, found?, hrow, hfound, hagree, -⟩ :=
    findRow_eq_fetch store c rfl rfl rfl rfl hdots hfits
  rw [hfetch] at hfound
  cases hfound
  refine ⟨rfl, rfl, hdots, hfits, hfetch, hrow.trans (congrArg Except.ok ?_)⟩
  exact (hagree hcomparable).2 hexact

/-- A number that is given as a double precision number compares equal to the integer that is
saved, but is no key of that row. A list is the key of a row and compares equal to nothing. -/
theorem findRow_ne_fetch :
    let store : Store := { resource := "customers" }
    let one : Record := [("id", .nat 1)]
    let listed : Record := [("id", .array [.nat 1])]
    let s : Session := Session.seed
      { schema := ({} : Schema).add ⟨"Customer", ["id"]⟩ "customers" } "Customer"
      [.object one, .object listed]
    let double : Value := .number (.double ⟨false, 0x3FF0000000000000, by decide⟩)
    let list : Value := .array [.nat 1]
    ((store.findRow double).perform { service := s }).1 = .ok (some (.object one)) ∧
      (s.fetch "Customer" double false).1 = .ok none ∧
      ((store.findRow list).perform { service := s }).1 = .ok none ∧
      (s.fetch "Customer" list false).1 =
        .ok (some { type := "Customer", values := listed }) := by
  refine ⟨rfl, rfl, rfl, rfl⟩

end Store

end DataAccess
