import CelTyping.Check.Resolution
import CelTyping.Check.Typing

/-!
# Checking expressions

`check` goes through an expression once.  It gives every node it meets a type, resolves
identifiers and calls, and builds the resolved tree, in which identifiers, functions and message
types go by their full names.  Whatever is wrong is reported, and the check goes on with `error`
or `dyn` in place of the type, so that one check reports every independent error.

At the end every type is resolved through what the type variables were found to stand for;
variables about which nothing was found are dynamic.
-/

namespace CelTyping
namespace Checking

variable {M : Type → Type} [Monad M] [MonadStateOf CheckState M]

/-! ## Calls -/

/-- Record the outcome of resolving a call. -/
def finishCall (e : Expr) : Option (Ty × Reference) → M Unit
  | some (t, reference) => do
    setType e t
    setReference e reference
  | none => setType e .error

/-- Give a call of a known function a type, given the nodes of its receiver and arguments. -/
def typeCall (env : Env) (e : Expr) (f : FunctionDecl) (target : Option NodeId)
    (args : List NodeId) : M Expr := do
  finishCall e (← resolveOverload env e.id f target args)
  return e

/-- Record that the function of a call means nothing. -/
def undeclaredCall (env : Env) (e : Expr) (function : String) : M Expr := do
  setType e .error
  reportUndeclared env e.id function
  return e

/-- The function that a call names when its receiver is taken for a namespace. -/
def lookupNamespaced (env : Env) (target : Option Expr) (function : String) :
    M (Option FunctionDecl) :=
  match target.bind Expr.qualifiedName? with
  | some qualifier => lookupFunction env (qualifier ++ "." ++ function)
  | none => return none

/-- Record the outcome of checking an optional selection. -/
def finishOptionalSelect (e : Expr) : Except CheckError Ty → M Unit
  | .ok t => do
    setType e (← resolve t)
    setReference e (.ofOverload Standard.selectOptionalField)
  | .error err => do
    report err.id err.fault
    setType e .error

/-! ## The walk -/

mutual

/-- Check a node and the nodes below it, and resolve it. -/
def checkExpr (env : Env) : Expr → M Expr
  | .unset id => do
    report id (.internal "unrecognized expression kind")
    setType (.unset id) .error
    return .unset id
  | .const id value => do
    setType (.const id value) value.ty
    return .const id value
  | .ident id name => do
    match ← lookupIdent env name with
    | some v => resolveIdent (.ident id name) v
    | none =>
      setType (.ident id name) .error
      reportUndeclared env id name
      return .ident id name
  | .select id operand field testOnly optional => do
    -- A chain of selections may spell the name of an identifier.
    match ← lookupQualified env (.select id operand field testOnly optional) with
    | some v => resolveIdent (.select id operand field testOnly optional) v
    | none =>
      let operand ← checkExpr env operand
      let result ← selectField env id operand.id field optional
      let e := Expr.select id operand field testOnly optional
      setType e (← resolve (if testOnly then .bool else result))
      if optional then setReference e (.ofOverload Standard.selectOptionalField)
      return e
  | .call id function target args => do
    if function = Standard.optionalSelect then
      let (args, result) ← checkOptionalSelect env id args
      let e := Expr.call id function target args
      finishOptionalSelect e result
      return e
    else
      let args ← checkAll env args
      let ids := args.map Expr.id
      -- The receiver may be the namespace of a global function.
      match ← lookupNamespaced env target function with
      | some f => typeCall env (.call id f.name none args) f none ids
      | none =>
        match target with
        | some receiver =>
          let receiver ← checkExpr env receiver
          let e := Expr.call id function (some receiver) args
          match ← lookupFunction env function with
          | some f => typeCall env e f (some receiver.id) ids
          | none => undeclaredCall env e function
        | none =>
          match ← lookupFunction env function with
          | some f => typeCall env (.call id f.name none args) f none ids
          | none => undeclaredCall env (.call id function none args) function
  | .list id elements optionalIndices => do
    let (elements, element) ← checkElements env optionalIndices 0 none elements
    let element ← match element with
      | some t => pure t
      | none => freshVar
    let e := Expr.list id elements optionalIndices
    setType e (.list element)
    return e
  | .map id entries => do
    let (entries, types) ← checkEntries env none entries
    let (key, value) ← match types with
      | some types => pure types
      | none => do
        let key ← freshVar
        let value ← freshVar
        pure (key, value)
    let e := Expr.map id entries
    setType e (.map key value)
    return e
  | .struct id messageName fields => do
    match ← lookupIdent env messageName with
    | none =>
      let e := Expr.struct id messageName fields
      setType e .error
      reportUndeclared env id messageName
      return e
    | some v =>
      let (message, target) ← literalTarget id v
      let fields ← checkFields env message target fields
      let e := Expr.struct id message fields
      setType e target
      setReference e (.ofIdent v.name none)
      return e
  | .comprehension id iterRange iterVar iterVar2 accuVar accuInit loopCondition loopStep
      result => do
    let iterRange ← checkExpr env iterRange
    let accuInit ← checkExpr env accuInit
    let rangeType ← resolve (← typeOf iterRange.id)
    let accuType ← typeOf accuInit.id
    let outer ← enterScope env
    declareLocal outer accuVar accuType
    let (first, second) ← iterationTypes iterRange.id rangeType iterVar2.isSome
    let inner ← enterScope outer
    declareLocal inner iterVar first
    if let some iterVar2 := iterVar2 then declareLocal inner iterVar2 second
    let loopCondition ← checkExpr inner loopCondition
    requireType loopCondition.id .bool
    let loopStep ← checkExpr inner loopStep
    requireType loopStep.id accuType
    -- The result sees the accumulator but not the variables of the iteration.
    let result ← checkExpr outer result
    let resultType ← resolve (← typeOf result.id)
    let e := Expr.comprehension id iterRange iterVar iterVar2 accuVar accuInit loopCondition
      loopStep result
    setType e resultType
    return e

/-- Check the arguments of an optional selection at a node, an operand and the name of a field:
the resolved arguments, and the type of the selection or what is wrong with it. -/
def checkOptionalSelect (env : Env) (id : NodeId) :
    List Expr → M (List Expr × Except CheckError Ty)
  | [operand, .const fieldId (.string field)] => do
    let operand ← checkExpr env operand
    let result ← selectField env id operand.id field true
    return ([operand, .const fieldId (.string field)], .ok result)
  | [operand, field] =>
    return ([operand, field], .error ⟨field.id, .notAFieldName field.describe⟩)
  | args =>
    return (args, .error ⟨id, .internal (Standard.optionalSelect ++ " expects 2 arguments, got " ++
      toString args.length)⟩)

/-- Check nodes one after the other. -/
def checkAll (env : Env) : List Expr → M (List Expr)
  | [] => return []
  | e :: rest => do
    let e ← checkExpr env e
    let rest ← checkAll env rest
    return e :: rest

/-- Check the elements of a list literal from an index on, given the type of those before. -/
def checkElements (env : Env) (optionalIndices : List UInt64) (index : Nat)
    (element : Option Ty) : List Expr → M (List Expr × Option Ty)
  | [] => return ([], element)
  | e :: rest => do
    let e ← checkExpr env e
    let t ← entryType e.id (optionalIndices.any fun i => i.toNat == index)
    let element ← joinTypes env e.id element t
    let (rest, element) ← checkElements env optionalIndices (index + 1) (some element) rest
    return (e :: rest, element)

/-- Check the entries of a map literal, given the types of the keys and values before. -/
def checkEntries (env : Env) (types : Option (Ty × Ty)) :
    List MapEntry → M (List MapEntry × Option (Ty × Ty))
  | [] => return ([], types)
  | ⟨id, key, value, optional⟩ :: rest => do
    let key ← checkExpr env key
    let keyType ← joinTypes env key.id (types.map Prod.fst) (← typeOf key.id)
    let value ← checkExpr env value
    let valueType ← joinTypes env value.id (types.map Prod.snd) (← entryType value.id optional)
    let (rest, types) ← checkEntries env (some (keyType, valueType)) rest
    return (⟨id, key, value, optional⟩ :: rest, types)

/-- Check the initializers of a message literal of a message type, whose values have a type. -/
def checkFields (env : Env) (message : String) (target : Ty) :
    List FieldInit → M (List FieldInit)
  | [] => return []
  | ⟨id, field, value, optional⟩ :: rest => do
    let value ← checkExpr env value
    let f : FieldInit := ⟨id, field, value, optional⟩
    checkInit env f message target
    let rest ← checkFields env message target rest
    return f :: rest

end

end Checking

/-! ## Results -/

/-- What a check finds out about an expression. -/
structure CheckResult where
  /-- The expression, its names written in full. -/
  expr : Expr
  /-- The types of the nodes. -/
  types : Table NodeId Ty
  /-- What the identifiers, selections, calls and message literals refer to. -/
  references : Table NodeId Reference
  /-- What is wrong with it. -/
  report : Report

namespace CheckResult

/-- The type of the whole expression. -/
def resultType? (r : CheckResult) : Option Ty := r.types.find? r.expr.id

/-- Whether nothing is wrong. -/
def isOk (r : CheckResult) : Bool := r.report.isEmpty

end CheckResult

/-- Check an expression against an environment. -/
def check (env : Env) (store : Store) (source : Source) (e : Expr) : CheckResult × Store :=
  let (e, s) := (Checking.checkExpr env e : Checking Expr).run (.start store)
  (⟨e, s.types.mapValues (s.mapping.substitute true), s.references,
    .ofErrors source s.errors⟩, s.store)

end CelTyping
