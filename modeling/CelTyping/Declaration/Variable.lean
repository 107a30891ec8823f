import CelTyping.Constant
import CelTyping.Ty.WellKnown

/-!
# Variables

A variable is a name with a type, and for a constant also a value.
-/

namespace CelTyping

/-- A declared identifier. -/
structure Variable where
  /-- The full name. -/
  name : String
  /-- The type. -/
  ty : Ty
  /-- The value of a constant. -/
  value : Option Constant

namespace Variable

/-- A variable without a known value. -/
def ofType (name : String) (ty : Ty) : Variable := ⟨name, ty, none⟩

/-- A constant. -/
def ofConstant (name : String) (ty : Ty) (value : Constant) : Variable := ⟨name, ty, some value⟩

/-- The identifier that names a type. -/
def ofTypeName (t : Ty) : Variable := ofType t.name (Ty.typeOf t)

/-- Whether two declarations have the same name and equivalent types. -/
def isEquivalent (a b : Variable) : Bool := a.name == b.name && a.ty.isEquivalent b.ty

/-- Whether two declarations have the same name, type and value. -/
def same (a b : Variable) : Bool :=
  a.name == b.name && a.ty.isExact b.ty &&
    match a.value, b.value with
    | none, none => true
    | some v, some w => v.same w
    | _, _ => false

/-- The declaration with well-known message types replaced by what they stand for. -/
def sanitized (v : Variable) : Variable := { v with ty := v.ty.sanitize }

end Variable
end CelTyping
