import DataAccess.Error
import DataAccess.Query.Evaluation
import DataAccess.Schema
import DataAccess.Session.Table
import DataAccess.Sorting

/-!
# Sessions

A session is a service in memory together with the unit of work that tracks what is to be saved.
Queries see saved rows only; entities under way become visible when they are saved. Three things
are left to what the session runs on: how rows are sorted where their sort keys are no order, in
which sequence the tracked entities are listed, and which keys are generated.

- `Session`: the state.
- `Listing`: the sequence in which tracked entities are listed.
- `Session.execute`: answers a query.
- `Session.create`, `Session.attach`, `Session.fetch`: bring entities under the care of the unit
  of work.
- `Session.pending`: the entities with something to save.
- `Session.save`: saves entities one after the other and stops at the first that has no key.

While an outage lasts, every request that needs the service fails.
-/

namespace DataAccess

/-- A way of listing entities: in some sequence, none lost and none added. -/
structure Listing where
  arrange : List Entity → List Entity
  arrange_perm : ∀ es, (arrange es).Perm es

/-- Entities in the order of their texts. -/
def Listing.byText : Listing where
  arrange := stableSort fun a b => compare a.toValue.render b.toValue.render == .lt
  arrange_perm := stableSort_perm _

/-- A numbered key. It has at least three digits. -/
def numberedKey (n : Nat) : String :=
  let digits := natChars n
  "<uuid-" ++ String.ofList (List.replicate (3 - digits.length) '0' ++ digits) ++ ">"

/-- The state of a service in memory and of its unit of work. -/
structure Session where
  schema : Schema := {}
  /-- the name under which the service is known -/
  serviceName : Option String := none
  /-- the saved rows by the name of their type -/
  tables : Keyed String Table := .empty
  /-- the entities under the care of the unit of work, by type and text of the key value -/
  tracked : Keyed (String × String) Entity := .empty
  /-- every query asked so far, the oldest first -/
  sent : List Query := []
  /-- why the service cannot be reached at the moment -/
  outage : Option String := none
  /-- how many keys were generated -/
  issued : Nat := 0
  /-- the keys that are generated, one after the other -/
  generate : Nat → String := numberedKey
  /-- how the rows of an answer are sorted -/
  sorter : Sorter Value := .stable
  /-- how tracked entities are listed -/
  listing : Listing := .byText

/-- Where the unit of work keeps an entity. -/
def trackingKey (type : String) (key : Value) : String × String := (type, key.render)

namespace Session

/-- The saved rows of a type. -/
def rows (s : Session) (type : String) : Table := (s.tables.get? type).getD []

/-- Adds saved rows to a type. Values that are no objects are left out. -/
def seed (s : Session) (type : String) (values : List Value) : Session :=
  let new := values.filterMap fun
    | .object fields => some fields
    | _ => none
  { s with tables := s.tables.insert type (s.rows type ++ new) }

/-- The key of a type, which every request about entities needs. -/
def keyOf (s : Session) (type : String) : Except Error Key :=
  match s.schema.keyOf? type with
  | some key => .ok key
  | none => .error (.configuration (.unknownType type))

/-- Takes an entity into the care of the unit of work, under a key value. -/
def track (s : Session) (key : Value) (e : Entity) : Session :=
  { s with tracked := s.tracked.insert (trackingKey e.type key) e }

/-- Dismisses an entity from the care of the unit of work. -/
def forget (s : Session) (key : Value) (e : Entity) : Session :=
  { s with tracked := s.tracked.erase (trackingKey e.type key) }

/-- The failure of a request while an outage lasts. -/
def outageError? (s : Session) : Option Error := s.outage.map .remote

/-- Answers a query from the saved rows. The query counts as asked even if it fails. -/
def execute (q : Query) (s : Session) : Except Error Response × Session :=
  let s := { s with sent := s.sent ++ [q] }
  match s.outageError? with
  | some e => (.error e, s)
  | none =>
    let resource := q.resource.getD ""
    match s.schema.typeNameServedBy? resource with
    | none => (.error (.unknownResource resource), s)
    | some type => (q.answer s.sorter ((s.rows type).map .object), s)

/-- The values of a new entity: a key of one field that is missing or null is generated. -/
def withGeneratedKey (s : Session) (key : Key) (values : Record) : Record × Session :=
  match key with
  | .single name =>
    if (values.value name).isNull then
      let n := s.issued + 1
      (values.insert name (.string (s.generate n)), { s with issued := n })
    else (values, s)
  | .composite _ => (values, s)

/-- Makes a new entity and takes it into care. -/
def create (type : String) (values : Record) (s : Session) : Except Error Entity × Session :=
  match s.keyOf type with
  | .error e => (.error e, s)
  | .ok key =>
    let (values, s) := s.withGeneratedKey key values
    let e : Entity := { type, values, state := .added }
    (.ok e, s.track (key.valueOf values) e)

/-- Takes an entity into care as it is. -/
def attach (e : Entity) (s : Session) : Except Error Unit × Session :=
  match s.keyOf e.type with
  | .error err => (.error err, s)
  | .ok key => (.ok (), s.track (key.valueOf e.values) e)

/-- The tracked entity with a key value, if tracked entities are preferred to saved rows. -/
def preferred? (s : Session) (type : String) (key : Value) (preferTracked : Bool) :
    Option Entity :=
  if preferTracked then s.tracked.get? (trackingKey type key) else none

/-- Finds the entity with a key value: among the tracked ones, if they are preferred, and else
among the saved rows. A saved row is taken into care. -/
def fetch (type : String) (key : Value) (preferTracked : Bool) (s : Session) :
    Except Error (Option Entity) × Session :=
  match s.preferred? type key preferTracked with
  | some e => (.ok (some e), s)
  | none =>
    match s.outageError? with
    | some e => (.error e, s)
    | none =>
      match s.keyOf type with
      | .error e => (.error e, s)
      | .ok shape =>
        match (s.rows type).find? shape key with
        | none => (.ok none, s)
        | some values =>
          let e : Entity := { type, values }
          (.ok (some e), s.track key e)

/-- The entities with something to save, in the sequence in which they are listed. -/
def pending (s : Session) : List Entity :=
  s.listing.arrange (s.tracked.values.filter (·.isPending))

/-- Saves one entity. Afterwards it is unchanged, or dismissed if it was removed. -/
def saveOne (e : Entity) (s : Session) : Except Error Entity × Session :=
  match s.keyOf e.type with
  | .error err => (.error err, s)
  | .ok key =>
    let s := { s with tables := s.tables.insert e.type ((s.rows e.type).save key e) }
    let saved := e.accepted
    let value := key.valueOf e.values
    (.ok saved, if saved.state = .detached then s.forget value saved else s.track value saved)

/-- Saves entities one after the other. What was saved before a failure stays saved. -/
def saveEach : List Entity → Session → Except Error (List Entity) × Session
  | [], s => (.ok [], s)
  | e :: rest, s =>
    match s.saveOne e with
    | (.error err, s) => (.error err, s)
    | (.ok saved, s) =>
      match saveEach rest s with
      | (.error err, s) => (.error err, s)
      | (.ok others, s) => (.ok (saved :: others), s)

/-- Saves the given entities, or all pending ones if none are given. -/
def save (entities : List Entity) (s : Session) : Except Error (List Entity) × Session :=
  match s.outageError? with
  | some e => (.error e, s)
  | none => saveEach (if entities.isEmpty then s.pending else entities) s

end Session

end DataAccess
