import CelTyping.Table
import CelTyping.Ty.Printing

/-!
# Substitution mappings

A mapping records what type stands for a type parameter.  The type that a parameter is bound to
may mention further parameters, bound or not, so a mapping is in triangular form: resolving a
type means following bindings until none applies.

Bindings are stored under the key of the parameter.  Looking up a type that is no parameter finds
the binding of a parameter with the same key.
-/

namespace CelTyping

/-- The types that stand for type parameters. -/
structure Mapping where
  /-- The bound types, by the key of the parameter. -/
  bindings : Table String Ty

namespace Mapping

/-- The mapping that binds nothing. -/
def empty : Mapping := ⟨.empty⟩

instance : Inhabited Mapping := ⟨empty⟩

/-- Bind one type to another. -/
def add (m : Mapping) (t bound : Ty) : Mapping := ⟨m.bindings.insert t.key bound⟩

/-- The type that a type is bound to. -/
def find? (m : Mapping) (t : Ty) : Option Ty := m.bindings.find? t.key

/-- The number of bindings. -/
def size (m : Mapping) : Nat := m.bindings.size

/-- Whether nothing is bound. -/
def isEmpty (m : Mapping) : Bool := m.bindings.isEmpty

/-- The number of nodes of all bound types. -/
def weight (m : Mapping) : Nat := Ty.sizes m.bindings.values

@[simp] theorem find?_empty (t : Ty) : empty.find? t = none := rfl

theorem find?_add (m : Mapping) (t bound u : Ty) :
    (m.add t bound).find? u = if u.key = t.key then some bound else m.find? u :=
  Table.find?_insert _ _ _ _

end Mapping
end CelTyping
