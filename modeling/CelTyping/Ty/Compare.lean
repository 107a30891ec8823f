import CelTyping.Ty.Basic

/-!
# Comparing types

Three comparisons, none of which looks at substitutions:

* `isExact`: same kind, name and parameters at every node, that is, the same shape;
* `isEquivalent`: the same, except that the names of type parameters do not matter;
* `accepts`: whether the second type may be used in place of the first, by the rule of
  acceptance of each node of the first.

Only `accepts` may give a type and itself as not going together, namely where a custom rule refuses
the type it belongs to.  A node is asked whether or not the type it is given is stored in the same
place: where types are stored is no part of them.  Unification takes types that are exactly equal
to go together before it asks what they accept, so this can show below the root only, where a type
is compared with one that shares some of its parameters.
-/

namespace CelTyping
namespace Ty

mutual

/-- Whether two types agree in kind, name and parameters at every node; with `exact` off the
names of type parameters are not compared. -/
def agrees (exact : Bool) : Ty → Ty → Bool
  | ⟨kind, name, params, _, _⟩, other =>
    kind == other.kind && ((!exact && kind == .typeParam) || name == other.name) &&
      agreeAll exact params other.params

/-- Whether two lists of types are equally long and agree pairwise. -/
def agreeAll (exact : Bool) : List Ty → List Ty → Bool
  | [], [] => true
  | a :: as, b :: bs => a.agrees exact b && agreeAll exact as bs
  | _, _ => false

end

/-- Whether two types have the same shape. -/
def isExact (a b : Ty) : Bool := a.agrees true b

/-- Whether two types have the same shape up to the names of type parameters. -/
def isEquivalent (a b : Ty) : Bool := a.agrees false b

mutual

/-- Whether a value of the second type may be used where the first type is expected. -/
def accepts : Ty → Ty → Bool
  | ⟨kind, name, params, traits, acceptance⟩, given =>
    match acceptance with
    | .custom rule => rule (.node kind name (views params) traits .custom) given.view
    | acceptance =>
      (acceptance.takesNull && given.kind == .null) || kind.isDyn ||
        (kind == given.kind && name == given.name && acceptAll params given.params)

/-- Whether two lists of types are equally long and the first accepts the second pairwise. -/
def acceptAll : List Ty → List Ty → Bool
  | [], [] => true
  | a :: as, b :: bs => a.accepts b && acceptAll as bs
  | _, _ => false

end

/-- Whether a `null` may be used where the type is expected. -/
def acceptsNull (t : Ty) : Bool := t.accepts null

end Ty
end CelTyping
