import CelTyping.Unification.Generality
import CelTyping.Unification.Substitute

/-!
# Unification

Two types go together under a mapping when they can be made alike by binding type parameters,
where the dynamic types and `error` are alike to everything and `null` is alike to the types that
admit it.  Unification extends the mapping as it goes; a failed attempt may have bound parameters
on the way, so the callers that must not see these start from the mapping they had.

## Binding a parameter

A type is made to stand for a parameter as follows.  An unbound parameter is bound to the type,
unless the parameter occurs in it.  A bound parameter keeps its binding if the type unifies with
it, and is bound anew to the more general of the two.  The three outcomes are told apart because
a parameter on the right that occurs in the type on the left leaves the matter to the left side.

## Why it ends

Each step down either enters the parameters of both types or follows a binding.  Under a mapping
without cycles, fewer types can be reached from the parameters of two types than from the two
types, whatever was bound meanwhile, and following a binding leaves fewer types to reach from one
side and no more from both.  The types to reach are nodes of the two types and of the bound types,
so their number bounds the depth of the recursion.  As before, `unifyWithin` takes the bound and
the functions after it supply one.
-/

namespace CelTyping
namespace Mapping

/-- What became of the attempt to let a type stand for a parameter. -/
inductive Binding where
  /-- The parameter stands for the type, or for something that unifies with it. -/
  | agrees
  /-- The parameter is bound to something else. -/
  | clashes
  /-- The parameter is unbound and occurs in the type. -/
  | occurs
  deriving DecidableEq

/-- Let a type stand for a parameter, with a way to unify two types. -/
def bind (unify : Mapping → Ty → Ty → Option (Bool × Mapping)) (m : Mapping) (t parameter : Ty) :
    Option (Binding × Mapping) :=
  if t.isExact parameter then some (.agrees, m)
  else
    match m.find? parameter with
    | some bound =>
      if t.isExact bound then some (.agrees, m)
      else do
        let (unified, m) ← unify m t bound
        if unified then
          let general := t.mostGeneral bound
          let free ← m.isAbsent? parameter general
          return (.agrees, if free then m.add parameter general else m)
        else return (.clashes, m)
    | none => do
      let free ← m.isAbsent? parameter t
      return if free then (.agrees, m.add parameter t) else (.occurs, m)

/-- Unify two lists pairwise from the left, stopping at the first pair that does not unify. -/
def unifyPairs (unify : Mapping → Ty → Ty → Option (Bool × Mapping)) :
    Mapping → List Ty → List Ty → Option (Bool × Mapping)
  | m, a :: as, b :: bs => do
    let (unified, m) ← unify m a b
    if unified then unifyPairs unify m as bs else return (false, m)
  | m, _, _ => some (true, m)

/-- Unify two lists; lists of different length do not unify. -/
def unifyLists (unify : Mapping → Ty → Ty → Option (Bool × Mapping)) (m : Mapping)
    (as bs : List Ty) : Option (Bool × Mapping) :=
  if as.length = bs.length then unifyPairs unify m as bs else some (false, m)

end Mapping

namespace Ty

/-- Whether the type goes together with every type. -/
def isWildcard (t : Ty) : Bool := t.kind == .dyn || t.kind == .error || t.kind == .any

/-- Whether `null` goes together with the type. -/
def admitsNull (t : Ty) : Bool :=
  match t.kind with
  | .abstract | .struct | .any | .duration | .timestamp | .null => true
  | _ => t.acceptsNull

end Ty

namespace Mapping

/-- Unify two types of which the first is no parameter and the second is none that could be
bound. -/
def unifyConcrete (unify : Mapping → Ty → Ty → Option (Bool × Mapping)) (m : Mapping)
    (a b : Ty) : Option (Bool × Mapping) :=
  if a.isWildcard || b.isWildcard then some (true, m)
  else if a.kind = .null then some (b.admitsNull, m)
  else if b.kind = .null then some (a.admitsNull, m)
  else
    match a.kind with
    | .bool | .bytes | .double | .int | .string | .uint | .duration | .timestamp | .struct =>
      some (b.accepts a, m)
    | .type => some (b.kind == .type, m)
    | .list | .map | .abstract =>
      if a.kind = b.kind ∧ a.name = b.name then unifyLists unify m a.params b.params
      else some (false, m)
    | _ => some (false, m)

/-- Unify two types once a parameter on the right has been dealt with. -/
def unifyLeft (unify : Mapping → Ty → Ty → Option (Bool × Mapping)) (m : Mapping) (a b : Ty) :
    Option (Bool × Mapping) :=
  if a.isParam then do
    let (outcome, m) ← m.bind unify b a
    return (outcome == .agrees, m)
  else m.unifyConcrete unify a b

/-- Unify two types to a bounded depth, extending the mapping. -/
def unifyWithin : (depth : Nat) → Mapping → Ty → Ty → Option (Bool × Mapping)
  | 0, _, _, _ => none
  | depth + 1, m, a, b =>
    if a.isExact b then some (true, m)
    else if b.isParam then do
      let (outcome, m) ← m.bind (unifyWithin depth) a b
      match outcome with
      | .agrees => return (true, m)
      | .clashes => return (false, m)
      | .occurs => m.unifyLeft (unifyWithin depth) a b
    else m.unifyLeft (unifyWithin depth) a b

/-- The depth that is enough to unify types with the given number of nodes. -/
def unifyBound (m : Mapping) (nodes : Nat) : Nat := Nat.pow (2 * (m.weight + nodes) + 1) 5

/-- Unify two types, extending the mapping; nothing if the mapping has a cycle in the way. -/
def unify? (m : Mapping) (a b : Ty) : Option (Bool × Mapping) :=
  unifyWithin (m.unifyBound (a.size + b.size)) m a b

/-- Unify two lists of types, extending the mapping. -/
def unifyAll? (m : Mapping) (as bs : List Ty) : Option (Bool × Mapping) :=
  unifyLists (unifyWithin (m.unifyBound (Ty.sizes as + Ty.sizes bs))) m as bs

/-- Unify two types in place: whether they unify, and the mapping with what was bound. -/
def unifyInPlace (m : Mapping) (a b : Ty) : Bool × Mapping := (m.unify? a b).getD (false, m)

/-- Keep the mapping of a successful attempt. -/
def onSuccess : Option (Bool × Mapping) → Option Mapping
  | some (true, m) => some m
  | _ => none

/-- The extended mapping under which two types go together. -/
def unify (m : Mapping) (a b : Ty) : Option Mapping := onSuccess (m.unify? a b)

/-- The extended mapping under which two equally long lists of types go together pairwise. -/
def unifyAll (m : Mapping) (as bs : List Ty) : Option Mapping := onSuccess (m.unifyAll? as bs)

end Mapping
end CelTyping
