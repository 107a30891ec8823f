import CelTyping.Source

/-!
# Check errors

What the checker finds wrong with an expression.  Finding something never stops the check: every
error is attached to the node it was found at, and the check goes on with a stand-in type.  The
types in an error are kept as the texts they had when the error was found, since what a type
variable stands for may change later.
-/

namespace CelTyping

/-- What can be wrong with a node. -/
inductive Fault where
  /-- A name that means nothing in the container. -/
  | undeclaredReference (name container : String)
  /-- No overload of the function takes arguments of these types. -/
  | noMatchingOverload (function signature : String)
  /-- Two types that had to go together do not. -/
  | typeMismatch (expected actual : String)
  /-- An initializer does not go with the type of its field. -/
  | fieldTypeMismatch (field expected actual : String)
  /-- A node was given two different types. -/
  | conflictingTypes (expr old new : String)
  /-- A node was resolved to two different references. -/
  | conflictingReferences (expr old new : String)
  /-- A message literal is named after something that is not a type. -/
  | notAType (name : String)
  /-- A message literal is named after a type that is not a message type. -/
  | notAMessageType (name : String)
  /-- A message type has no field of the name. -/
  | undefinedField (field : String)
  /-- A comprehension ranges over a value that has no members. -/
  | notARange (ty : String)
  /-- A field is selected from a value that has no fields. -/
  | fieldsUnsupported (ty : String)
  /-- The field of an optional selection is not a text literal. -/
  | notAFieldName (field : String)
  /-- The provider does not know a message type that a value has. -/
  | unresolvedMessage (name : String)
  /-- The tree is not one that a parser builds. -/
  | internal (message : String)
  deriving DecidableEq

/-- A fault and the node it was found at. -/
structure CheckError where
  /-- The node. -/
  id : NodeId
  /-- What is wrong with it. -/
  fault : Fault
  deriving DecidableEq

namespace CheckError

/-- A node in messages about conflicts: its description and its id. -/
def nodeText (expr : String) (id : NodeId) : String := expr ++ "(" ++ toString id.toInt ++ ")"

/-- What an error says. -/
def message (e : CheckError) : String :=
  match e.fault with
  | .undeclaredReference name container =>
    "undeclared reference to '" ++ name ++ "' (in container '" ++ container ++ "')"
  | .noMatchingOverload function signature =>
    "found no matching overload for '" ++ function ++ "' applied to '" ++ signature ++ "'"
  | .typeMismatch expected actual =>
    "expected type '" ++ expected ++ "' but found '" ++ actual ++ "'"
  | .fieldTypeMismatch field expected actual =>
    "expected type of field '" ++ field ++ "' is '" ++ expected ++ "' but provided type is '" ++
      actual ++ "'"
  | .conflictingTypes expr old new =>
    "incompatible type already exists for expression: " ++ nodeText expr e.id ++ " old:" ++ old ++
      ", new:" ++ new
  | .conflictingReferences expr old new =>
    "reference already exists for expression: " ++ nodeText expr e.id ++ " old:" ++ old ++
      ", new:" ++ new
  | .notAType name => "'" ++ name ++ "' is not a type"
  | .notAMessageType name => "'" ++ name ++ "' is not a message type"
  | .undefinedField field => "undefined field '" ++ field ++ "'"
  | .notARange ty =>
    "expression of type '" ++ ty ++
      "' cannot be range of a comprehension (must be list, map, or dynamic)"
  | .fieldsUnsupported ty => "type '" ++ ty ++ "' does not support field selection"
  | .notAFieldName field => "unsupported optional field selection: " ++ field
  | .unresolvedMessage name => "unexpected failed resolution of '" ++ name ++ "'"
  | .internal message => "internal error: " ++ message

end CheckError

/-! ## Reports -/

/-- An error and the place in the source it was found at. -/
structure Reported where
  /-- The error. -/
  error : CheckError
  /-- Where its node stands. -/
  location : Location
  deriving DecidableEq

/-- The errors of one check.  Only so many are kept; the rest are counted. -/
structure Report where
  /-- The errors that were kept, in the order in which they were found. -/
  kept : List Reported
  /-- The number of errors that were not kept. -/
  dropped : Nat
  deriving DecidableEq

namespace Report

/-- The number of errors that are kept. -/
def limit : Nat := 100

/-- The report of a check that found nothing. -/
def empty : Report := ⟨[], 0⟩

instance : Inhabited Report := ⟨empty⟩

/-- The report on errors in a source. -/
def ofErrors (source : Source) (errors : List CheckError) : Report :=
  ⟨(errors.take limit).map fun e => ⟨e, source.location e.id⟩, errors.length - limit⟩

/-- Whether nothing was found. -/
def isEmpty (r : Report) : Bool := r.kept.isEmpty

/-- One line for every error that was kept, and one for the number of the others. -/
def text (description : String) (r : Report) : String :=
  "\n".intercalate (r.kept.map fun e =>
    "ERROR: " ++ description ++ ":" ++ toString e.location.line ++ ":" ++
      toString e.location.column ++ ": " ++ e.error.message) ++
    if r.dropped = 0 then "" else "\n" ++ toString r.dropped ++ " more errors were truncated"

end Report
end CelTyping
