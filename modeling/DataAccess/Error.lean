import DataAccess.Value.Equality
import DataAccess.Value.Text

/-!
# What can go wrong

- `Error`: the causes of failure.
- `Misconfiguration`, `Malformed`: what is wrong with a configuration or with a criterion.
- `Error.message`: the text of an error.
- `Error.isStructural`: the errors that describe a misuse of the library. They concern the caller
  alone and are never reported to listeners.
- `Error.toRemote`: the form in which a failure of the service is reported;
  `Error.toRemote_toRemote` says that reporting it again changes nothing.
-/

namespace DataAccess

/-- What is wrong with a configuration. -/
inductive Misconfiguration where
  /-- a required argument was not given -/
  | missingArgument (name : String)
  /-- nothing says which fields are the key -/
  | keyRequired
  /-- the schema has no entity type for the resource of a store -/
  | resourceWithoutType (resource : String)
  /-- the schema has no key for an entity type -/
  | unknownType (name : String)
  /-- a fault stated by someone else -/
  | stated (text : String)
  deriving DecidableEq

/-- What is wrong with a criterion. -/
inductive Malformed where
  /-- a criterion is written as an array -/
  | notAnArray (found : Value)
  /-- a comparison names a field and a value -/
  | tooShort (count : Nat)
  /-- the field of a comparison is a text -/
  | fieldNotText (found : Value)
  /-- the operator of a comparison is a text -/
  | operatorNotText (found : Value)
  /-- a group holds criteria and connectives -/
  | strayElement (found : Value)
  /-- a group holds at least one criterion -/
  | emptyGroup
  /-- a fault stated by someone else -/
  | stated (text : String)
  deriving DecidableEq

/-- The causes of failure. -/
inductive Error where
  /-- a store cannot work as configured -/
  | configuration (fault : Misconfiguration)
  /-- a further sort key was given where no sort key precedes it -/
  | noSortBefore
  /-- one group joins its criteria by both connectives -/
  | mixedConnectives
  /-- a criterion is not written as the grammar demands -/
  | malformed (fault : Malformed)
  /-- no comparison has this name -/
  | unknownOperator (token : String)
  /-- the operation is offered by name only -/
  | notSupported (operation : String)
  /-- no entity has the key -/
  | notFound
  /-- the service failed -/
  | remote (text : String)
  /-- the sort keys put the rows into no order, and sorting them was given up: the request is
  broken off, without an answer and without a word to anyone -/
  | unsortable
  deriving DecidableEq

/-- The text of a fault in a configuration. -/
def Misconfiguration.describe : Misconfiguration → String
  | missingArgument name => "Missing required argument: " ++ name
  | keyRequired => "Key expression is required"
  | resourceWithoutType resource => "No entity type for resource: " ++ resource
  | unknownType name => "Unknown entity type: " ++ name
  | stated text => text

/-- The text of a fault in a criterion. -/
def Malformed.describe : Malformed → String
  | notAnArray found => "expected an array, got " ++ found.render
  | tooShort count =>
    "a comparison needs at least a field and a value, got "
      ++ String.ofList (natChars count) ++ " element(s)"
  | fieldNotText found => "field must be a string, got " ++ found.render
  | operatorNotText found => "operator must be a string, got " ++ found.render
  | strayElement found => "unexpected group element " ++ found.render
  | emptyGroup => "empty group"
  | stated text => text

namespace Error

/-- The text of an error. -/
def message : Error → String
  | configuration fault => "Configuration error: " ++ fault.describe
  | noSortBefore => "then_by can't be called before sort_by"
  | mixedConnectives => "Mixing of and/or is not allowed inside a single group"
  | malformed fault => "Invalid criterion: " ++ fault.describe
  | unknownOperator token => "Unknown filter operator: " ++ token
  | notSupported operation => "Operation not supported: " ++ operation
  | notFound => "Not found"
  | remote text => "Remote error: " ++ text
  | unsortable => "comparison does not implement a total order"

/-- Whether the error describes a misuse of the library. -/
def isStructural : Error → Bool
  | noSortBefore | mixedConnectives | malformed _ | unknownOperator _ | notSupported _ => true
  | configuration _ | notFound | remote _ | unsortable => false

/-- The error as a failure of the service. What was broken off stays so. -/
def toRemote : Error → Error
  | remote text => remote text
  | unsortable => unsortable
  | other => remote other.message

/-- The service knows no such resource. -/
def unknownResource (resource : String) : Error := remote ("Unknown resource: " ++ resource)

/-- The service answered a request for the total without one. -/
def totalMissing : Error := remote "response carries no inline count"

/-- A failure of the service is reported as it is. -/
@[simp] theorem toRemote_toRemote (e : Error) : e.toRemote.toRemote = e.toRemote := by
  cases e <;> rfl

/-- What is reported to listeners is never structural. -/
@[simp] theorem isStructural_toRemote (e : Error) : e.toRemote.isStructural = false := by
  cases e <;> rfl

end Error

end DataAccess
