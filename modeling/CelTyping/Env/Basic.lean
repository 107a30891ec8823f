import CelTyping.Container
import CelTyping.Declaration.Registry
import CelTyping.Scope.Store

/-!
# Environments

An environment is what an expression is checked against: a container, a provider of message
types, a chain of scopes and the options of the checker.  The declarations themselves are in the
store that the chain leads into.

Adding declarations first detaches the innermost scope, so it changes what this environment sees
and not what other environments see that shared the scope.  Whether it is shared depends on the
other environments that are in use, so their scopes are given.

## Looking up identifiers

An identifier is looked up under each of its candidate names: first in the scopes, then with the
provider, as a message type, an identifier or an enumeration constant.  What the provider knows
is added to the outermost scope, where the next lookup finds it.
-/

namespace CelTyping

/-! ## Options -/

/-- The options of the checker. -/
structure CheckerOptions where
  /-- Report list and map literals of mixed types, which otherwise have dynamic elements. -/
  homogeneousLiterals : Bool
  /-- Compare numbers of different types. -/
  crossTypeComparisons : Bool
  /-- The ids of overloads that are not to be used. -/
  disabledOverloads : List String
  deriving DecidableEq

namespace CheckerOptions

/-- The options that hold unless others are given. -/
def standard : CheckerOptions := ⟨false, false, []⟩

instance : Inhabited CheckerOptions := ⟨standard⟩

end CheckerOptions

/-- The names of the numeric types in the ids of overloads. -/
def numericNames : List String := ["int64", "uint64", "double"]

/-- The names of the comparisons in the ids of overloads. -/
def comparisonNames : List String := ["less", "less_equals", "greater", "greater_equals"]

/-- The ids of the overloads that compare numbers of different types. -/
def crossTypeComparisonIds : List String :=
  comparisonNames.flatMap fun op =>
    numericNames.flatMap fun left =>
      (numericNames.filter (· ≠ left)).map fun right => op ++ "_" ++ left ++ "_" ++ right

/-- Whether an overload compares numbers of different types. -/
def isCrossTypeComparison (id : String) : Bool := crossTypeComparisonIds.contains id

/-! ## Environments -/

/-- What an expression is checked against. -/
structure Env where
  /-- The namespace in which names are looked up. -/
  container : Container
  /-- What is known about message types. -/
  provider : Provider
  /-- The scopes of the declarations. -/
  scopes : Scopes
  /-- The options of the checker. -/
  options : CheckerOptions

namespace Env

/-- An environment with one empty scope. -/
def bare (store : Store) (container : Container) (provider : Provider)
    (options : CheckerOptions) : Env × Store :=
  let (scopes, store) := store.newScopes
  (⟨container, provider, scopes, options⟩, store)

/-- The environment with an innermost scope of its own. -/
def detach (env : Env) (store : Store) (others : List Scopes) : Env × Store :=
  let (scopes, store) := store.detach others env.scopes
  ({ env with scopes := scopes }, store)

/-! ## Adding declarations -/

/-- Declare an identifier in the innermost scope.  A name may be declared again with an
equivalent type, to no effect. -/
def addIdent (env : Env) (store : Store) (v : Variable) : Except DeclarationError Store :=
  let v := v.sanitized
  match store.findLocalIdent? env.scopes v.name with
  | some existing =>
    if existing.isEquivalent v then .ok store else .error (.overlappingIdentifier v.name)
  | none => .ok (store.addIdent env.scopes v)

/-- The first overload of a function whose calls a macro takes, as an error. -/
def macroClash? (f : FunctionDecl) : Option DeclarationError :=
  (f.overloads.find? fun o => (MacroShape.find? f.name o.argCount o.isMember).isSome).map fun o =>
    .overlappingMacro f.name o.argCount

/-- Declare a function in the innermost scope, merged with what is known of it. -/
def addFunction (env : Env) (store : Store) (f : FunctionDecl) :
    Except DeclarationError Store := do
  let merged ← match store.findFunction? env.scopes f.name with
    | some existing => existing.merge f
    | none => .ok f
  match macroClash? merged with
  | some e => .error e
  | none => return store.setFunction env.scopes merged

/-- Declare identifiers, up to the first that is refused. -/
def addIdents (env : Env) (store : Store) (others : List Scopes) (vs : List Variable) :
    Env × Store × Option DeclarationError :=
  let (env, store) := env.detach store others
  let (store, e) := runSteps (addIdent env) store vs
  (env, store, e)

/-- Declare functions, up to the first that is refused. -/
def addFunctions (env : Env) (store : Store) (others : List Scopes) (fs : List FunctionDecl) :
    Env × Store × Option DeclarationError :=
  let (env, store) := env.detach store others
  let (store, e) := runSteps (addFunction env) store fs
  (env, store, e)

/-! ## Scopes -/

/-- The environment with a new, empty scope inside. -/
def enterScope (env : Env) (store : Store) : Env × Store :=
  let (scopes, store) := store.push env.scopes
  ({ env with scopes := scopes }, store)

/-- The environment without its innermost scope; the outermost scope stays. -/
def exitScope (env : Env) : Env := { env with scopes := env.scopes.pop.getD env.scopes }

/-- Bind a local identifier in the innermost scope. -/
def declareLocal (env : Env) (store : Store) (v : Variable) : Store :=
  store.addIdent env.scopes v

/-- The number of scopes. -/
def scopeDepth (env : Env) : Nat := env.scopes.depth

/-! ## Looking up -/

/-- What the provider knows under a full name. -/
def provided? (env : Env) (name : String) : Option Variable :=
  match env.provider.messageType? name with
  | some t => some (.ofType name (Ty.typeOf t))
  | none =>
    match env.provider.identType? name with
    | some t => some (.ofType name t)
    | none => (env.provider.enumValue? name).map fun v => .ofConstant name .int (.int v)

/-- Look up an identifier under the first of some full names that means something. -/
def lookupFrom (env : Env) (store : Store) : List String → Option Variable × Store
  | [] => (none, store)
  | name :: rest =>
    match store.findIdent? env.scopes name with
    | some v => (some v, store)
    | none =>
      match env.provided? name with
      | some v => (some v, store.addGlobalIdent env.scopes v)
      | none => env.lookupFrom store rest

/-- Look up an identifier. -/
def lookupIdent (env : Env) (store : Store) (name : String) : Option Variable × Store :=
  env.lookupFrom store (env.container.candidates name)

/-- Look up a function; one that is disabled is passed over. -/
def lookupFunction (env : Env) (store : Store) (name : String) : Option FunctionDecl :=
  (env.container.candidates name).findSome? fun candidate =>
    (store.findFunction? env.scopes candidate).filter fun f => !f.isDisabled

/-- Whether the options keep an overload from being used. -/
def isOverloadDisabled (env : Env) (id : String) : Bool :=
  env.options.disabledOverloads.contains id ||
    (!env.options.crossTypeComparisons && isCrossTypeComparison id)

/-- The identifiers that can be seen, sorted by name. -/
def idents (env : Env) (store : Store) : List Variable := store.idents env.scopes

/-- The functions that can be seen, sorted by name. -/
def functions (env : Env) (store : Store) : List FunctionDecl := store.functions env.scopes

end Env
end CelTyping
