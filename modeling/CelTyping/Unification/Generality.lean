import CelTyping.Ty.Compare

/-!
# Generality

One type is at least as general as another when it says no more: a dynamic type or a type
parameter is at least as general as every type, and apart from that the two have the same
structure down to places where the first is dynamic.  The type of a type is as general as every
other such type, whatever they are the types of.
-/

namespace CelTyping
namespace Ty

mutual

/-- Whether the first type is equal to or less specific than the second. -/
def isGeneral : Ty → Ty → Bool
  | ⟨kind, name, params, traits, acceptance⟩, other =>
    if kind.isDyn then true
    else if other.isDyn then false
    else if kind != other.kind then false
    else
      match kind with
      | .abstract | .list | .map => name == other.name && areGeneral params other.params
      | .type => true
      | kind => (Ty.mk kind name params traits acceptance).isExact other

/-- Whether two lists of types are equally long and the first is pairwise as general. -/
def areGeneral : List Ty → List Ty → Bool
  | [], [] => true
  | a :: as, b :: bs => a.isGeneral b && areGeneral as bs
  | _, _ => false

end

/-- The more general of two types: the first if it is as general as the second, else the second. -/
def mostGeneral (a b : Ty) : Ty := if a.isGeneral b then a else b

end Ty
end CelTyping
