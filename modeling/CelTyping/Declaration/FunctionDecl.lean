import CelTyping.Declaration.Error
import CelTyping.Declaration.Overload

/-!
# Functions

A function is a name with overloads in the order of their declaration.  No two of them overlap:
an overload that does is refused.  An overload may be declared again with the same signature; the
later declaration takes the place of the earlier one if it brings an implementation.

Declarations of one function in different places are merged: the overloads of the first come
first, and those of the second are added to them.

Some calls never reach the checker, because the parser expands them.  A function declared with
the name, arity and call style of such a macro could never be called.
-/

namespace CelTyping

/-- Whether a function takes part in checking. -/
inductive DeclarationState where
  /-- Nothing was said, and merging keeps what the other side says. -/
  | unspecified
  /-- The function is not found. -/
  | disabled
  /-- The function is found. -/
  | enabled
  deriving DecidableEq

/-- A function and its overloads. -/
structure FunctionDecl where
  /-- The full name. -/
  name : String
  /-- The overloads, in the order of their declaration. -/
  overloads : List Overload
  /-- The implementation that all overloads share. -/
  singleton : Option Implementation
  /-- Whether implementations run without a look at the types of their arguments. -/
  guardsDisabled : Bool
  /-- Whether the function takes part in checking. -/
  state : DeclarationState

namespace FunctionDecl

/-- A function without overloads. -/
def ofName (name : String) : FunctionDecl := ⟨name, [], none, false, .unspecified⟩

/-- The overload with an id. -/
def find? (f : FunctionDecl) (id : String) : Option Overload :=
  f.overloads.find? fun o => o.id == id

/-- The ids of the overloads. -/
def ids (f : FunctionDecl) : List String := f.overloads.map Overload.id

/-- Whether the function is not to be found. -/
def isDisabled (f : FunctionDecl) : Bool := f.state == .disabled

/-- Say whether the function is to be found. -/
def setDisabled (f : FunctionDecl) (disabled : Bool) : FunctionDecl :=
  { f with state := if disabled then .disabled else .enabled }

/-! ## Adding overloads -/

/-- Put an overload into a list of overloads of a function: at the end, or in the place of the
one with its id. -/
def place (function : String) (o : Overload) :
    List Overload → Except DeclarationError (List Overload)
  | [] => .ok [o]
  | existing :: rest =>
    if existing.id = o.id then
      if existing.sameSignature o && existing.nonStrict == o.nonStrict then
        .ok ((if o.hasImplementation then o else existing) :: rest)
      else .error (.overloadRedefinition function o.id)
    else if existing.overlaps o then .error (.overloadCollision function o.id existing.id)
    else (place function o rest).map fun rest => existing :: rest

/-- Add an overload to a function. -/
def addOverload (f : FunctionDecl) (o : Overload) : Except DeclarationError FunctionDecl :=
  (place f.name o f.overloads).map fun overloads => { f with overloads := overloads }

/-- Add overloads to a function, one after the other. -/
def addOverloads (f : FunctionDecl) (os : List Overload) :
    Except DeclarationError FunctionDecl :=
  os.foldlM addOverload f

/-- A function with the given overloads. -/
def ofOverloads (name : String) (os : List Overload) : Except DeclarationError FunctionDecl :=
  (ofName name).addOverloads os

/-! ## Merging -/

/-- The shared implementation of two merged functions. -/
def mergeSingleton (function : String) :
    Option Implementation → Option Implementation →
      Except DeclarationError (Option Implementation)
  | own, none => .ok own
  | none, some other => .ok (some other)
  | some own, some other =>
    if own.same other then .ok (some other) else .error (.singletonConflict function)

/-- Add what another declaration of the same function says. -/
def merge (f g : FunctionDecl) : Except DeclarationError FunctionDecl :=
  if f.name = g.name then do
    let merged ← f.addOverloads g.overloads
    let singleton ← mergeSingleton f.name f.singleton g.singleton
    return { merged with
      singleton := singleton
      guardsDisabled := f.guardsDisabled && g.guardsDisabled
      state := if g.state = .unspecified then f.state else g.state }
  else .error (.unrelatedMerge f.name g.name)

end FunctionDecl

/-- The calls that a macro takes. -/
structure MacroShape where
  /-- The name. -/
  name : String
  /-- The number of arguments besides the receiver. -/
  argCount : Nat
  /-- Whether it is called on a receiver. -/
  onReceiver : Bool
  deriving DecidableEq

namespace MacroShape

/-- The macros that every parser expands. -/
def standard : List MacroShape :=
  [⟨"has", 1, false⟩, ⟨"all", 2, true⟩, ⟨"all", 3, true⟩, ⟨"exists", 2, true⟩,
    ⟨"exists", 3, true⟩, ⟨"exists_one", 2, true⟩, ⟨"exists_one", 3, true⟩, ⟨"map", 2, true⟩,
    ⟨"map", 3, true⟩, ⟨"filter", 2, true⟩]

/-- The standard macro that takes calls of a given shape. -/
def find? (name : String) (argCount : Nat) (onReceiver : Bool) : Option MacroShape :=
  standard.find? fun m => m == ⟨name, argCount, onReceiver⟩

end MacroShape
end CelTyping
