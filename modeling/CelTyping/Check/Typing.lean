import CelTyping.Check.State

/-!
# Typing rules

The rules that give nodes their types once the nodes below them have theirs: identifiers, field
selections, the elements of literals and the variables of comprehensions.
-/

namespace CelTyping
namespace Checking

variable {M : Type → Type} [Monad M] [MonadStateOf CheckState M]

/-! ## Identifiers -/

/-- Give a node the type of an identifier, and let it name the identifier in full. -/
def resolveIdent (e : Expr) (v : Variable) : M Expr := do
  setType e v.ty
  setReference e (.ofIdent v.name v.value)
  return .ident e.id v.name

/-- Look up the identifier that a node spells, if it spells one. -/
def lookupQualified (env : Env) (e : Expr) : M (Option Variable) :=
  match e.qualifiedName? with
  | some name => lookupIdent env name
  | none => return none

/-! ## Field selections -/

/-- The type of a field of a message type; failing to find it is an error at a node. -/
def fieldType (env : Env) (id : NodeId) (message field : String) : M (Option Ty) := do
  if (env.provider.messageType? message).isNone then
    report id (.unresolvedMessage message)
    return none
  else
    match env.provider.fieldType? message field with
    | some t => return some t
    | none =>
      report id (.undefinedField field)
      return none

/-- The type of a field of a value.  A type variable is made dynamic. -/
def selectFrom (env : Env) (id : NodeId) (target : Ty) (field : String) : M Ty :=
  match target.kind with
  | .map => return target.params[1]?.getD .dyn
  | .struct => do return (← fieldType env id target.name field).getD .error
  | .typeParam => do
    let _ ← unify .dyn target
    return .dyn
  | _ => do
    if !target.isDynOrError then report id (.fieldsUnsupported target.display)
    return .dyn

/-- The type of a field selection, given the node of the operand.  Selecting from an optional
value, or selecting optionally, gives an optional value. -/
def selectField (env : Env) (id operand : NodeId) (field : String) (optional : Bool) :
    M Ty := do
  let operandType ← resolve (← typeOf operand)
  let result ← selectFrom env id (operandType.optionalInner?.getD operandType) field
  return if operandType.isOptional || optional then .optional result else result

/-! ## Literals -/

/-- The type of the value of an optional entry; what is not dynamic has to be optional. -/
def unwrapOptional (id : NodeId) (t : Ty) : M Ty := do
  let t ← resolve t
  match t.optionalInner? with
  | some inner => return inner
  | none =>
    if !t.isDyn then report id (.typeMismatch (Ty.optional t).display t.display)
    return t

/-- The type of an entry of a literal at a node. -/
def entryType (id : NodeId) (optional : Bool) : M Ty := do
  let t ← typeOf id
  if optional then unwrapOptional id t else return t

/-- The type of the entries of a literal, given the type of those before and of one more. -/
def joinTypes (env : Env) (id : NodeId) (previous : Option Ty) (current : Ty) : M Ty :=
  match previous with
  | none => return current
  | some previous => do
    if ← unify previous current then return previous.mostGeneral current
    else if env.options.homogeneousLiterals then
      report id (.typeMismatch previous.display current.display)
      return .error
    else return .dyn

/-- What a message literal constructs: the name of its message type and the type of its value,
which is `error` if it constructs nothing. -/
def literalTarget (id : NodeId) (v : Variable) : M (String × Ty) :=
  match v.ty.kind, v.ty.params[0]? with
  | .error, _ => return (v.name, .error)
  | .type, some target =>
    if Ty.isWellKnown v.name then return (v.name, target)
    else if target.kind = .struct then return (target.declaredName, target)
    else do
      report id (.notAMessageType target.declaredName)
      return (v.name, .error)
  | _, _ => do
    report id (.notAType v.name)
    return (v.name, .error)

/-- Check the type of the value of an initializer against the type of the field. -/
def checkInit (env : Env) (f : FieldInit) (message : String) (target : Ty) : M Unit := do
  let declared ← if target.kind = .error then pure .error
    else do pure ((← fieldType env f.id message f.field).getD .error)
  let given ← entryType f.value.id f.optional
  if !(← unify declared given) then
    report f.id (.fieldTypeMismatch f.field declared.display given.display)

/-! ## Comprehensions -/

/-- The types of the variables that run over a range.  With two variables the first runs over
the indices of a list, or the keys of a map, and the second over the values. -/
def iterationTypes (id : NodeId) (range : Ty) (twoVars : Bool) : M (Ty × Ty) :=
  match range.kind with
  | .list =>
    let element := range.params[0]?.getD .dyn
    return if twoVars then (.int, element) else (element, .dyn)
  | .map => return (range.params[0]?.getD .dyn, range.params[1]?.getD .dyn)
  | .dyn | .error | .typeParam => do
    let _ ← unify .dyn range
    return (.dyn, .dyn)
  | _ => do
    report id (.notARange range.display)
    return (.error, .error)

/-- Ask a node to have a type. -/
def requireType (id : NodeId) (expected : Ty) : M Unit := do
  let actual ← typeOf id
  if !(← unify expected actual) then
    report id (.typeMismatch expected.display actual.display)

end Checking
end CelTyping
