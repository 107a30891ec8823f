import CelTyping.Unification.Mapping

/-!
# Resolving types through a mapping

`substitute` replaces every bound type parameter in a type by what it is bound to, again and
again until nothing bound is left.  `isAbsent` asks whether a type occurs nowhere in another one
when bindings are followed; unification uses it to keep mappings free of cycles.

Following bindings ends when the mapping has no cycle: on the way down from the root of a type no
binding is then followed twice, so the number of nodes of the type and of all bound types bounds
the depth.  The functions ending in `Within` take the depth as a bound and give no answer beyond
it; the functions without take that number of nodes.
-/

namespace CelTyping
namespace Mapping

/-- The depth that is enough for a type under a mapping without cycles. -/
def depthBound (m : Mapping) (t : Ty) : Nat := m.weight + t.size

/-- Resolve a type to a bounded depth; with `toDyn` unbound type parameters become `dyn`. -/
def substituteWithin (m : Mapping) (toDyn : Bool) : (depth : Nat) → Ty → Option Ty
  | 0, _ => none
  | depth + 1, t =>
    match m.find? t with
    | some bound => m.substituteWithin toDyn depth bound
    | none =>
      if toDyn && t.isParam then some .dyn
      else if t.kind.isParameterized && !t.params.isEmpty then
        (t.params.mapM (m.substituteWithin toDyn depth)).map t.withParams
      else some t

/-- Resolve a type; nothing if following bindings comes back to where it was. -/
def substitute? (m : Mapping) (toDyn : Bool) (t : Ty) : Option Ty :=
  m.substituteWithin toDyn (m.depthBound t) t

/-- Resolve a type.  With `toDyn` unbound type parameters become `dyn`. -/
def substitute (m : Mapping) (toDyn : Bool) (t : Ty) : Ty := (m.substitute? toDyn t).getD t

/-- Whether a type occurs nowhere in another, to a bounded depth, following bindings. -/
def isAbsentWithin (m : Mapping) (t : Ty) : (depth : Nat) → Ty → Option Bool
  | 0, _ => none
  | depth + 1, within =>
    if t.isExact within then some false
    else
      match within.kind with
      | .typeParam =>
        match m.find? within with
        | some bound => m.isAbsentWithin t depth bound
        | none => some true
      | .abstract | .list | .map | .type => within.params.allM (m.isAbsentWithin t depth)
      | _ => some true

/-- Whether a type occurs nowhere in another, following bindings; nothing if following bindings
comes back to where it was. -/
def isAbsent? (m : Mapping) (t within : Ty) : Option Bool :=
  m.isAbsentWithin t (m.depthBound within) within

/-- Whether a type occurs nowhere in another, following bindings. -/
def isAbsent (m : Mapping) (t within : Ty) : Bool := (m.isAbsent? t within).getD true

end Mapping
end CelTyping
