import DataAccess.Notify
import DataAccess.Plan.Basic
import DataAccess.Store.Basic

/-!
# Diagnostic texts

Texts that show how a plan or a store is made up, for people who look into a running program.
They name every part and nest like the data they show.

- `Describe.plan`, `Describe.planOptions`, `Describe.store`: the texts of plans and stores.
- `Describe.escalation`, `Describe.slot`: the texts of the listeners of a store or query and of
  their slot.

The other functions write the parts. Texts are in quotation marks, lists in brackets, and the
named parts of a structure in braces.
-/

namespace DataAccess

namespace Describe

/-- Parts with a comma and a blank between them. -/
def commas (parts : List String) : String :=
  String.ofList (Text.join [',', ' '] (parts.map String.toList))

/-- A structure: its name and its named parts. -/
def structureText (name : String) (parts : List (String × String)) : String :=
  name ++ " \x7b " ++ commas (parts.map fun (part, text) => part ++ ": " ++ text) ++ " \x7d"

/-- A case with one part. -/
def caseText (name part : String) : String := name ++ "(" ++ part ++ ")"

/-- A list. -/
def list (parts : List String) : String := "[" ++ commas parts ++ "]"

/-- Something that may be absent. -/
def option (part : Option String) : String :=
  match part with
  | none => "None"
  | some text => caseText "Some" text

/-- A truth value. -/
def flag (b : Bool) : String := if b then "true" else "false"

/-- A natural. -/
def nat (n : Nat) : String := String.ofList (natChars n)

/-- A character inside quotation marks. -/
def textChar (c : Char) : List Char :=
  if c = '"' then ['\\', '"']
  else if c = '\\' then ['\\', '\\']
  else if c = '\n' then ['\\', 'n']
  else if c = '\r' then ['\\', 'r']
  else if c = '\t' then ['\\', 't']
  else if c.toNat = 0 then ['\\', '0']
  else if c.toNat < 0x20 ∨ c.toNat = 0x7F then
    '\\' :: 'u' :: '\x7b' :: Nat.toDigits 16 c.toNat ++ ['\x7d']
  else [c]

/-- A text. -/
def text (s : String) : String := String.ofList ('"' :: s.toList.flatMap textChar ++ ['"'])

mutual

/-- A value. -/
def value : Value → String
  | .null => "Null"
  | .bool b => caseText "Bool" (flag b)
  | .number n => caseText "Number" (String.ofList n.chars)
  | .string s => caseText "String" (text s)
  | .array items => "Array " ++ list (values items)
  | .object fields => "Object \x7b" ++ commas (fieldTexts fields) ++ "\x7d"

/-- The items of an array. -/
def values : List Value → List String
  | [] => []
  | item :: rest => value item :: values rest

/-- The fields of an object. -/
def fieldTexts : List (String × Value) → List String
  | [] => []
  | (name, v) :: rest => (text name ++ ": " ++ value v) :: fieldTexts rest

end

/-- The name of an operator. -/
def operator : Operator → String
  | .eq => "Eq"
  | .ne => "Ne"
  | .gt => "Gt"
  | .lt => "Lt"
  | .ge => "Ge"
  | .le => "Le"
  | .startsWith => "StartsWith"
  | .endsWith => "EndsWith"
  | .contains => "Contains"

mutual

/-- A predicate. -/
def predicate : Predicate → String
  | .comparison field op v =>
    structureText "Binary"
      [("field", text field), ("operator", operator op), ("value", value v)]
  | .all parts => caseText "And" (list (predicates parts))
  | .any parts => caseText "Or" (list (predicates parts))
  | .negation part => caseText "Not" (predicate part)

/-- The parts of a group. -/
def predicates : List Predicate → List String
  | [] => []
  | part :: rest => predicate part :: predicates rest

end

/-- A sort key of a query. -/
def sortItem (item : SortItem) : String :=
  structureText "OrderByItem" [("path", text item.path), ("descending", flag item.descending)]

/-- A query. -/
def query (q : Query) : String :=
  structureText "EntityQuery"
    [("resource_name", option (q.resource.map text)),
     ("where_clause", option (q.filter.map predicate)),
     ("order_by", list (q.order.map sortItem)),
     ("expand_clause", option (q.expand.map fun paths =>
       structureText "ExpandClause" [("property_paths", list (paths.map text))])),
     ("select", list (q.select.map text)),
     ("skip", option (q.skip.map nat)),
     ("take", option (q.take.map nat)),
     ("inline_count", flag q.countTotal)]

/-- A step of a plan. -/
def step : Step → String
  | .orderBy clause => caseText "OrderBy" (text clause)
  | .restrict p => caseText "Where" (predicate p)
  | .select fields => caseText "Select" (text fields)
  | .expand paths => caseText "Expand" (text paths)
  | .skip count => caseText "Skip" (nat count)
  | .take count => caseText "Take" (nat count)

/-- Where a plan starts. -/
def source : Source → String
  | .resource name => caseText "Resource" (text name)
  | .query q => caseText "Query" (query q)

/-- The slot of the shared listener. -/
def slot (installed : Option Listener) : String :=
  structureText "ErrorHook" [("installed", flag installed.isSome)]

/-- The listeners of a store or query, while the shared slot holds `installed`. -/
def escalation (e : Escalation) (installed : Option Listener) : String :=
  structureText "ErrorChain"
    [("handler", flag e.own.isSome), ("hook", slot (e.installed installed))]

/-- How a plan is to be asked, while the shared slot holds `installed`. -/
def planOptions (plan : Plan) (installed : Option Listener) : String :=
  let e := plan.escalation
  structureText "QueryOptions"
    [("error_handler", flag e.own.isSome), ("error_hook", slot (e.installed installed)),
     ("require_total_count", flag plan.countTotal)]

/-- A plan, while the shared slot holds `installed`. -/
def plan (p : Plan) (installed : Option Listener) : String :=
  structureText "QueryHandle"
    [("base", source p.source), ("options", planOptions p installed),
     ("tasks", list (p.steps.map step))]

/-- A key. -/
def key : Key → String
  | .single name => caseText "Single" (text name)
  | .composite names => caseText "Composite" (list (names.map text))

/-- A policy. -/
def policy (p : Policy) : String :=
  structureText "StoreOptions"
    [("auto_commit", flag p.saveAtOnce), ("prefer_local", flag p.preferTracked)]

/-- A store. -/
def store (s : Store) : String :=
  structureText "Store"
    [("resource_name", text s.resource), ("user_query", option (s.query.map query)),
     ("key", option (s.key.map key)), ("options", policy s.policy)]

end Describe

end DataAccess
