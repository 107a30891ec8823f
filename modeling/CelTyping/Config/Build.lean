import CelTyping.Config.Basic
import CelTyping.Env.Standard
import CelTyping.Ty.Parsing

/-!
# Building environments

The environment that a configuration describes is built in a fixed order: the container, its
aliases and abbreviations, the message types, the enumerations, the standard declarations, the
variables, the functions.  The first thing that does not hold ends the building.
-/

namespace CelTyping

/-- Why no environment can be built. -/
inductive ConfigError where
  /-- A type expression cannot be read. -/
  | invalidType (context ty : String) (cause : Ty.SyntaxError)
  /-- A declaration is refused. -/
  | invalidDeclaration (cause : DeclarationError)

namespace ConfigError

/-- What an error says. -/
def message : ConfigError → String
  | invalidType context ty cause =>
    "Invalid type '" ++ ty ++ "' for " ++ context ++ ": " ++ cause.message
  | invalidDeclaration cause => "Invalid declaration: " ++ cause.message

end ConfigError

/-- Read a type expression that stands in a context. -/
def typeIn (context ty : String) (typeParams : List String) : Except ConfigError Ty :=
  (Ty.parse ty typeParams).mapError (.invalidType context ty)

/-- A declaration, or the reason why it is refused. -/
def declared {α : Type} (outcome : Except DeclarationError α) : Except ConfigError α :=
  outcome.mapError .invalidDeclaration

namespace OverloadConfig

/-- The types of the arguments from an index on. -/
def argTypes (function : String) (o : OverloadConfig) :
    (index : Nat) → List String → Except ConfigError (List Ty)
  | _, [] => .ok []
  | index, ty :: rest => do
    let context := "argument " ++ toString index ++ " of overload '" ++ o.id ++ "' of '" ++
      function ++ "'"
    let t ← typeIn context ty o.typeParams
    let ts ← argTypes function o (index + 1) rest
    return t :: ts

/-- The overload of a function that a description stands for. -/
def toOverload (function : String) (o : OverloadConfig) : Except ConfigError Overload := do
  let args ← o.argTypes function 0 o.args
  let context := "result of overload '" ++ o.id ++ "' of '" ++ function ++ "'"
  let result ← typeIn context o.result o.typeParams
  return if o.isMember then .member o.id args result else .global o.id args result

end OverloadConfig

namespace FunctionConfig

/-- The function that a description stands for. -/
def toFunction (f : FunctionConfig) : Except ConfigError FunctionDecl := do
  let overloads ← f.overloads.mapM (OverloadConfig.toOverload f.name)
  declared (FunctionDecl.ofOverloads f.name overloads)

end FunctionConfig

namespace EnvConfig

/-- The container of a configuration. -/
def buildContainer (c : EnvConfig) : Except DeclarationError Container := do
  let container ← Container.ofName c.container
  let container ← c.aliases.entries.foldlM (fun k a => k.addAlias a.1 a.2) container
  let (container, refused) := container.addAbbreviations c.abbreviations
  match refused with
  | some e => .error e
  | none => .ok container

/-- Register a message type. -/
def addStruct (r : Registry) (struct : String × Table String String) :
    Except ConfigError Registry := do
  let fields ← struct.2.entries.mapM fun (field, ty) => do
    let t ← typeIn ("field '" ++ struct.1 ++ "." ++ field ++ "'") ty []
    return (field, t)
  return r.addMessage struct.1 fields

/-- The message types and enumerations of a configuration. -/
def buildRegistry (c : EnvConfig) : Except ConfigError Registry := do
  let r ← c.structs.entries.foldlM addStruct Registry.empty
  return c.enums.entries.foldl (fun r e => r.addEnum e.1 e.2.entries) r

/-- The variables of a configuration. -/
def buildVariables (c : EnvConfig) : Except ConfigError (List Variable) :=
  c.variableTypes.entries.mapM fun (name, ty) => do
    let t ← typeIn ("variable '" ++ name ++ "'") ty []
    return .ofType name t

/-- An environment to which declarations were added, unless one was refused. -/
def accepted : Env × Store × Option DeclarationError → Except ConfigError (Env × Store)
  | (_, _, some e) => .error (.invalidDeclaration e)
  | (env, store, none) => .ok (env, store)

/-- The environment that a configuration describes, and the store with its declarations. -/
def build (c : EnvConfig) : Except ConfigError (Env × Store) := do
  let container ← declared c.buildContainer
  let registry ← c.buildRegistry
  let (env, store) := Env.standard .empty container registry.toProvider c.options
  let vs ← c.buildVariables
  let (env, store) ← accepted (env.addIdents store [] vs)
  let functions ← c.functions.mapM FunctionConfig.toFunction
  accepted (env.addFunctions store [] functions)

end EnvConfig
end CelTyping
