import CelTyping.Check.Error
import CelTyping.Env.Standard
import CelTyping.Unification.Generality
import CelTyping.Unification.Unify

/-!
# The state of a check

A check goes through an expression once and keeps five things: the store of declarations, in
which looking up a name may record what the provider knows; what the type variables stand for so
far; a counter for new type variables; the types and references of the nodes; and the errors
found, in order.

The counter is a plain number.  It goes up by one for every variable that is made, so a counter of
64 bits would come to its end after more steps than a check can take, and would do the same until
then.

Everything the check does to this state is one of the small operations below.  They are written
for every monad that keeps such a state: a check runs in `Checking`, and a monad that also
remembers the states it went through runs the same check.
-/

namespace CelTyping

/-- What a check has found out so far. -/
structure CheckState where
  /-- The declarations. -/
  store : Store
  /-- What the type variables stand for. -/
  mapping : Mapping
  /-- The number of the next type variable. -/
  nextVar : Nat
  /-- The types of the nodes. -/
  types : Table NodeId Ty
  /-- The references of the nodes. -/
  references : Table NodeId Reference
  /-- The errors, in the order in which they were found. -/
  errors : List CheckError

/-- A step of a check. -/
abbrev Checking := StateM CheckState

/-- The type variable of a number. -/
def Ty.var (n : Nat) : Ty := Ty.param ("_var" ++ toString n)

namespace CheckState

/-- The state at the start of a check. -/
def start (store : Store) : CheckState := ⟨store, .empty, 0, .empty, .empty, []⟩

/-- The type of a node; a node without a type counts as erroneous. -/
def typeOf (s : CheckState) (id : NodeId) : Ty := (s.types.find? id).getD .error

/-- Record an error. -/
def report (s : CheckState) (id : NodeId) (fault : Fault) : CheckState :=
  { s with errors := s.errors ++ [⟨id, fault⟩] }

/-- Record the type of a node.  An earlier, different type is an error, and is replaced. -/
def setType (s : CheckState) (e : Expr) (t : Ty) : CheckState :=
  let s := match s.types.find? e.id with
    | some old =>
      if old.isExact t then s
      else s.report e.id (.conflictingTypes e.describe old.display t.display)
    | none => s
  { s with types := s.types.insert e.id t }

/-- Record the reference of a node.  An earlier, different reference is an error, and is
replaced. -/
def setReference (s : CheckState) (e : Expr) (r : Reference) : CheckState :=
  let s := match s.references.find? e.id with
    | some old =>
      if old.same r then s
      else s.report e.id (.conflictingReferences e.describe old.describe r.describe)
    | none => s
  { s with references := s.references.insert e.id r }

end CheckState

namespace Checking

variable {M : Type → Type} [Monad M] [MonadStateOf CheckState M]

/-! ## Changing the state -/

/-- Record an error. -/
def report (id : NodeId) (fault : Fault) : M Unit := modify fun s => s.report id fault

/-- Record the type of a node. -/
def setType (e : Expr) (t : Ty) : M Unit := modify fun s => s.setType e t

/-- Record the reference of a node. -/
def setReference (e : Expr) (r : Reference) : M Unit := modify fun s => s.setReference e r

/-- Set the number of the next type variable. -/
def setNextVar (n : Nat) : M Unit := modify fun s => { s with nextVar := n }

/-- Set what the type variables stand for. -/
def setMapping (m : Mapping) : M Unit := modify fun s => { s with mapping := m }

/-- Set the declarations. -/
def setStore (store : Store) : M Unit := modify fun s => { s with store := store }

/-! ## Operations -/

/-- Record that a name means nothing. -/
def reportUndeclared (env : Env) (id : NodeId) (name : String) : M Unit :=
  report id (.undeclaredReference name env.container.name)

/-- The type of a node. -/
def typeOf (id : NodeId) : M Ty := do return (← get).typeOf id

/-- A new type variable. -/
def freshVar : M Ty := do
  let n := (← get).nextVar
  setNextVar (n + 1)
  return Ty.var n

/-- Resolve a type as far as the type variables are known. -/
def resolve (t : Ty) : M Ty := do return (← get).mapping.substitute false t

/-- Resolve a type, unknown type variables being dynamic. -/
def resolveFully (t : Ty) : M Ty := do return (← get).mapping.substitute true t

/-- Keep the mapping of a successful unification. -/
def keep : Option Mapping → M Bool
  | some m => do
    setMapping m
    return true
  | none => return false

/-- Make two types go together, if they can. -/
def unify (a b : Ty) : M Bool := do keep ((← get).mapping.unify a b)

/-- Make two lists of types go together pairwise, if they can. -/
def unifyAll (as bs : List Ty) : M Bool := do keep ((← get).mapping.unifyAll as bs)

/-- Look up an identifier. -/
def lookupIdent (env : Env) (name : String) : M (Option Variable) := do
  let (v, store) := env.lookupIdent (← get).store name
  setStore store
  return v

/-- Look up a function. -/
def lookupFunction (env : Env) (name : String) : M (Option FunctionDecl) := do
  return env.lookupFunction (← get).store name

/-- Enter a new scope. -/
def enterScope (env : Env) : M Env := do
  let (env, store) := env.enterScope (← get).store
  setStore store
  return env

/-- Bind a local identifier in the innermost scope. -/
def declareLocal (env : Env) (name : String) (t : Ty) : M Unit := do
  setStore (env.declareLocal (← get).store (.ofType name t))

end Checking
end CelTyping
