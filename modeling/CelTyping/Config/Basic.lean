import CelTyping.Document.Toml.Statement
import CelTyping.Env.Basic

/-!
# Environment configurations

A configuration describes an environment on top of the standard declarations: the container with
its aliases and abbreviations, the options, and the variables, message types, enumerations and
functions to declare.  Types are written as type expressions.

Everything in a configuration may be left out, except the names and overloads of functions and
the ids and results of overloads.  Fields that are not known are ignored.  What is listed by name
is taken in the order of the names.

Decoding takes a flag `surplus`, which says whether a record that is written as a list may go on
after its last field: in TOML it may.
-/

namespace CelTyping

open Document (required defaulted listOf mapOf text? bool? int64?)

/-! ## Options -/

namespace CheckerOptions

/-- The names of the options. -/
def fieldNames : List String :=
  ["homogeneous_aggregate_literals", "cross_type_numeric_comparisons", "disabled_overloads"]

/-- The options that a document holds. -/
def decode (surplus : Bool) (d : Document) : Option CheckerOptions := do
  let entries ← d.record? surplus fieldNames
  let homogeneous ← defaulted bool? false entries "homogeneous_aggregate_literals"
  let crossType ← defaulted bool? false entries "cross_type_numeric_comparisons"
  let disabled ← defaulted (listOf text?) [] entries "disabled_overloads"
  return ⟨homogeneous, crossType, disabled⟩

/-- Options as a document. -/
def encode (o : CheckerOptions) : Document :=
  .fields [("homogeneous_aggregate_literals", .bool o.homogeneousLiterals),
    ("cross_type_numeric_comparisons", .bool o.crossTypeComparisons),
    ("disabled_overloads", .list (o.disabledOverloads.map .text))]

end CheckerOptions

/-! ## Functions -/

/-- The description of an overload. -/
structure OverloadConfig where
  /-- The id. -/
  id : String
  /-- The types of the arguments, the receiver first for a member. -/
  args : List String
  /-- The type of the result. -/
  result : String
  /-- Whether it is called on its first argument. -/
  isMember : Bool
  /-- The names that are type parameters in its types. -/
  typeParams : List String
  deriving DecidableEq

namespace OverloadConfig

/-- The overload that a document describes. -/
def decode (surplus : Bool) (d : Document) : Option OverloadConfig := do
  let entries ← d.record? surplus ["id", "args", "result", "member", "type_params"]
  let id ← required text? entries "id"
  let args ← defaulted (listOf text?) [] entries "args"
  let result ← required text? entries "result"
  let isMember ← defaulted bool? false entries "member"
  let typeParams ← defaulted (listOf text?) [] entries "type_params"
  return ⟨id, args, result, isMember, typeParams⟩

/-- The description of an overload as a document. -/
def encode (o : OverloadConfig) : Document :=
  .fields [("id", .text o.id), ("args", .list (o.args.map .text)), ("result", .text o.result),
    ("member", .bool o.isMember), ("type_params", .list (o.typeParams.map .text))]

end OverloadConfig

/-- The description of a function. -/
structure FunctionConfig where
  /-- The name. -/
  name : String
  /-- The overloads, in order. -/
  overloads : List OverloadConfig
  deriving DecidableEq

namespace FunctionConfig

/-- The function that a document describes. -/
def decode (surplus : Bool) (d : Document) : Option FunctionConfig := do
  let entries ← d.record? surplus ["name", "overloads"]
  let name ← required text? entries "name"
  let overloads ← required (listOf (OverloadConfig.decode surplus)) entries "overloads"
  return ⟨name, overloads⟩

/-- The description of a function as a document. -/
def encode (f : FunctionConfig) : Document :=
  .fields [("name", .text f.name), ("overloads", .list (f.overloads.map OverloadConfig.encode))]

end FunctionConfig

/-! ## Environments -/

/-- The description of an environment. -/
structure EnvConfig where
  /-- The namespace in which names are looked up. -/
  container : String
  /-- The short names and what they stand for. -/
  aliases : Table String String
  /-- The qualified names that go by their last part. -/
  abbreviations : List String
  /-- The options of the checker. -/
  options : CheckerOptions
  /-- The types of the variables. -/
  variableTypes : Table String String
  /-- The types of the fields of the message types. -/
  structs : Table String (Table String String)
  /-- The values of the enumerations. -/
  enums : Table String (Table String Int64)
  /-- The functions, in order. -/
  functions : List FunctionConfig

namespace EnvConfig

/-- The configuration that adds nothing. -/
def standard : EnvConfig := ⟨"", .empty, [], .standard, .empty, .empty, .empty, []⟩

instance : Inhabited EnvConfig := ⟨standard⟩

/-- Entries in the order of their names; of several with one name the last one counts. -/
def byName {α : Type} (entries : List (String × α)) : Table String α :=
  ⟨(entries.foldl (fun t e => t.insert e.1 e.2) Table.empty).entries.mergeSort
    fun a b => decide (a.1 ≤ b.1)⟩

/-- Decode entries listed by name. -/
def tableOf {α : Type} (decode : Document → Option α) (d : Document) : Option (Table String α) :=
  (mapOf decode d).map byName

/-- The names of the parts of a configuration. -/
def fieldNames : List String :=
  ["container", "aliases", "abbreviations", "options", "variables", "structs", "enums",
    "functions"]

/-- The configuration that a document holds. -/
def decode (surplus : Bool) (d : Document) : Option EnvConfig := do
  let entries ← d.record? surplus fieldNames
  let container ← defaulted text? "" entries "container"
  let aliases ← defaulted (tableOf text?) .empty entries "aliases"
  let abbreviations ← defaulted (listOf text?) [] entries "abbreviations"
  let options ← defaulted (CheckerOptions.decode surplus) .standard entries "options"
  let variableTypes ← defaulted (tableOf text?) .empty entries "variables"
  let structs ← defaulted (tableOf (tableOf text?)) .empty entries "structs"
  let enums ← defaulted (tableOf (tableOf int64?)) .empty entries "enums"
  let functions ← defaulted (listOf (FunctionConfig.decode surplus)) [] entries "functions"
  return ⟨container, aliases, abbreviations, options, variableTypes, structs, enums, functions⟩

/-- The configuration of a TOML text. -/
def parse (text : String) : Option EnvConfig := do
  let d ← Toml.parse text
  decode true d

/-- Entries listed by name as a document. -/
def encodeTable {α : Type} (encode : α → Document) (t : Table String α) : Document :=
  .fields (t.mapValues encode).entries

/-- A configuration as a document, with every part written out. -/
def encode (c : EnvConfig) : Document :=
  .fields [("container", .text c.container), ("aliases", encodeTable .text c.aliases),
    ("abbreviations", .list (c.abbreviations.map .text)), ("options", c.options.encode),
    ("variables", encodeTable .text c.variableTypes),
    ("structs", encodeTable (encodeTable .text) c.structs),
    ("enums", encodeTable (encodeTable fun v => .int v.toInt) c.enums),
    ("functions", .list (c.functions.map FunctionConfig.encode))]

end EnvConfig
end CelTyping
