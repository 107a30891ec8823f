import CelTyping.Declaration.FunctionDecl

/-!
# Entry points

The implementations of a function as an evaluator sees them: named operations, each with a guard
that looks at the types of the arguments first.

* A shared implementation is the one entry, under the name of the function.
* One implemented overload is found under its id and under the name of the function.
* Several are found under their ids, and under the name of the function stands a dispatcher that
  tries, in the order of declaration, the overloads whose types fit the arguments.

A guard is left out where every argument type accepts everything, or where the function asks for
no guards.
-/

namespace CelTyping

/-- A named operation. -/
structure EntryPoint where
  /-- The id of an overload or the name of a function. -/
  name : String
  /-- What it computes. -/
  operation : Operation
  /-- Whether it takes errors and unknown values as arguments. -/
  nonStrict : Bool

namespace Overload

/-- The operation of an overload behind a guard on the types of its arguments. -/
def guarded (o : Overload) (guardsDisabled : Bool) : Option Operation :=
  o.implementation.map fun i =>
    if guardsDisabled || o.args.all Ty.isDyn then i.operation
    else .variadic fun args => if o.fits args then i.operation.call args else none

/-- The entry point of an overload that has an implementation. -/
def entryPoint? (o : Overload) (guardsDisabled : Bool) : Option EntryPoint :=
  (o.guarded guardsDisabled).map fun operation => ⟨o.id, operation, o.nonStrict⟩

/-- The result of the first overload that fits the arguments and has a result for them. -/
def dispatch (os : List Overload) (args : List Constant) : Option Constant :=
  os.findSome? fun o =>
    if o.fits args then o.implementation.bind fun i => i.operation.call args else none

end Overload

namespace FunctionDecl

/-- Whether some overload takes errors and unknown values as arguments. -/
def anyNonStrict (f : FunctionDecl) : Bool := f.overloads.any Overload.nonStrict

/-- The entry points of the overloads that have an implementation. -/
def overloadEntries (f : FunctionDecl) : List EntryPoint :=
  f.overloads.filterMap fun o => o.entryPoint? f.guardsDisabled

/-- The entry points of a function. -/
def entryPoints (f : FunctionDecl) : Except DeclarationError (List EntryPoint) :=
  match f.singleton, f.overloadEntries with
  | some shared, [] => .ok [⟨f.name, shared.operation, f.anyNonStrict⟩]
  | some _, _ => .error (.singletonConflict f.name)
  | none, [] => .ok []
  | none, [only] =>
    .ok (if only.name = f.name then [only] else [only, { only with name := f.name }])
  | none, several =>
    .ok (several ++ [⟨f.name, .variadic (Overload.dispatch f.overloads), f.anyNonStrict⟩])

end FunctionDecl
end CelTyping
