import CelTyping.Check.State

/-!
# Overload resolution

A call is checked against every overload of its function that has the right call style and is not
disabled.  The type parameters of an overload are local to it: each attempt replaces them by new
type variables.  All overloads whose formal types go together with the types of the arguments
are recorded, and the type of the call is the type of their results if they agree, else `dyn`.

Chains of `&&` and of `||` may have any number of arguments, each of which has to be a truth
value.
-/

namespace CelTyping
namespace Overload

/-- The mapping that binds type parameters to the type variables from a number on. -/
def freshMapping : (params : List String) → (next : Nat) → Mapping → Mapping
  | [], _, m => m
  | p :: rest, next, m => freshMapping rest (next + 1) (m.add (Ty.param p) (Ty.var next))

/-- The formal types and the result type, with the type variables from a number on in place of
the type parameters, and the number of the next type variable. -/
def instantiate (o : Overload) (next : Nat) : List Ty × Ty × Nat :=
  let params := o.typeParams
  if params.isEmpty then (o.args, o.result, next)
  else
    let m := freshMapping params next .empty
    (o.args.map (m.substitute false), m.substitute false o.result, next + params.length)

end Overload

namespace Checking

variable {M : Type → Type} [Monad M] [MonadStateOf CheckState M]

/-- The types of the arguments of a call in messages, the type of a receiver in front. -/
def signatureText (types : List Ty) (isMember : Bool) : String :=
  match isMember, types with
  | true, receiver :: args =>
    receiver.display ++ ".(" ++ ", ".intercalate (args.map Ty.display) ++ ")"
  | _, _ => "(" ++ ", ".intercalate (types.map Ty.display) ++ ")"

/-- The overloads of a function that a call may use. -/
def usable (env : Env) (f : FunctionDecl) (isMember : Bool) : List Overload :=
  f.overloads.filter fun o => !env.isOverloadDisabled o.id && o.isMember == isMember

/-- The type of a call that several overloads match, given the type by those before. -/
def joinResults (current result : Ty) : Ty :=
  if !current.isDyn && !result.isExact current then .dyn else current

/-- Try one overload, given what the ones before it have led to. -/
def tryOverload (argTypes : List Ty) (found : Option (Ty × Reference)) (o : Overload) :
    M (Option (Ty × Reference)) := do
  let (formals, result, next) := o.instantiate (← get).nextVar
  setNextVar next
  if ← unifyAll argTypes formals then
    let result ← resolve result
    match found with
    | none => return some (result, .ofOverload o.id)
    | some (current, reference) =>
      return some (joinResults current result, reference.addOverload o.id)
  else return found

/-- Ask every argument to be a truth value. -/
def requireBools : List (NodeId × Ty) → M Bool
  | [] => return true
  | (id, t) :: rest => do
    let fits ← unify t .bool
    if !fits then report id (.typeMismatch Ty.bool.display t.display)
    let restFit ← requireBools rest
    return fits && restFit

/-- Record that no overload matches. -/
def reportNoMatch (id : NodeId) (f : FunctionDecl) (argTypes : List Ty) (isMember : Bool) :
    M Unit := do
  let types ← argTypes.mapM resolveFully
  report id (.noMatchingOverload f.name (signatureText types isMember))

/-- The type of a call of a function and the overloads that match it, given the nodes of the
receiver and of the arguments. -/
def resolveOverload (env : Env) (id : NodeId) (f : FunctionDecl) (target : Option NodeId)
    (args : List NodeId) : M (Option (Ty × Reference)) := do
  let argIds := target.toList ++ args
  let argTypes ← argIds.mapM typeOf
  let overloads := usable env f target.isSome
  if f.name = Standard.logicalAnd ∨ f.name = Standard.logicalOr then
    match overloads with
    | o :: _ =>
      if ← requireBools (argIds.zip argTypes) then return some (.bool, .ofOverload o.id)
      else return none
    | [] =>
      reportNoMatch id f argTypes target.isSome
      return none
  else
    match ← overloads.foldlM (tryOverload argTypes) none with
    | some found => return some found
    | none =>
      reportNoMatch id f argTypes target.isSome
      return none

end Checking
end CelTyping
