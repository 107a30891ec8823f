import CelTyping.Table
import CelTyping.Ty.WellKnown

/-!
# Message types

The checker knows message types, enumerations and further identifiers only through a provider,
which answers questions about them.  A registry is a provider that is filled by hand.
-/

namespace CelTyping

/-- What is known about message types, enumerations and identifiers. -/
structure Provider where
  /-- The type of a message, by its full name. -/
  messageType? : String → Option Ty
  /-- The type of a field of a message. -/
  fieldType? : String → String → Option Ty
  /-- The type of an identifier, for instance the name of an enumeration. -/
  identType? : String → Option Ty
  /-- The value of an enumeration constant, by its full name. -/
  enumValue? : String → Option Int64

/-- A message type that was registered. -/
structure MessageDef where
  /-- The type. -/
  ty : Ty
  /-- The fields and their types, in order. -/
  fields : List (String × Ty)

/-- Message types, enumerations and identifiers that were registered. -/
structure Registry where
  /-- The message types. -/
  messages : Table String MessageDef
  /-- The values of the enumeration constants. -/
  enumValues : Table String Int64
  /-- The types of the identifiers. -/
  idents : Table String Ty

namespace Registry

/-- The registry that knows nothing. -/
def empty : Registry := ⟨.empty, .empty, .empty⟩

/-- Register a message type with its fields. -/
def addMessage (r : Registry) (name : String) (fields : List (String × Ty)) : Registry :=
  { r with messages :=
      r.messages.insert name ⟨Ty.object name, fields.map fun f => (f.1, f.2.sanitize)⟩ }

/-- Register an enumeration; each constant is known by its name after that of the enumeration. -/
def addEnum (r : Registry) (name : String) (values : List (String × Int64)) : Registry :=
  { r with
    enumValues := values.foldl (fun t v => t.insert (name ++ "." ++ v.1) v.2) r.enumValues
    idents := r.idents.insert name (Ty.typeOf .int) }

/-- Register an identifier. -/
def addIdent (r : Registry) (name : String) (ty : Ty) : Registry :=
  { r with idents := r.idents.insert name ty }

/-- The type of a message. -/
def messageType? (r : Registry) (name : String) : Option Ty :=
  (r.messages.find? name).map MessageDef.ty

/-- The type of a field of a message. -/
def fieldType? (r : Registry) (name field : String) : Option Ty :=
  (r.messages.find? name).bind fun m => m.fields.lookup field

/-- The provider that answers from a registry. -/
def toProvider (r : Registry) : Provider :=
  ⟨r.messageType?, r.fieldType?, r.idents.find?, r.enumValues.find?⟩

end Registry
end CelTyping
