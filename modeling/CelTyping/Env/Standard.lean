import CelTyping.Env.Basic

/-!
# The standard declarations

Every environment but a bare one starts with these identifiers and functions: the names of the
built-in types, the operators under the names that the parser gives them, conversions between the
built-in types, and the functions on texts, times and optional values.
-/

namespace CelTyping
namespace Standard

/-! ## Identifiers -/

/-- The identifiers that name the built-in types. -/
def idents : List Variable :=
  [("bool", Ty.bool), ("bytes", Ty.bytes), ("double", Ty.double), ("duration", Ty.duration),
    ("dyn", Ty.dyn), ("int", Ty.int), ("list", Ty.list Ty.dyn), ("map", Ty.map Ty.dyn Ty.dyn),
    ("null_type", Ty.null), ("string", Ty.string), ("timestamp", Ty.timestamp),
    ("type", Ty.typeType), ("uint", Ty.uint)].map fun (name, t) => .ofType name (Ty.typeOf t)

/-! ## Names of operators -/

/-- The choice between two values. -/
def conditional : String := "_?_:_"

/-- Conjunction. -/
def logicalAnd : String := "_&&_"

/-- Disjunction. -/
def logicalOr : String := "_||_"

/-- The selection of a field that may be absent. -/
def optionalSelect : String := "_?._"

/-- The id of the overload that selects a field that may be absent. -/
def selectOptionalField : String := "select_optional_field"

/-! ## Functions -/

/-- A function with the given overloads. -/
def function (name : String) (overloads : List Overload) : FunctionDecl :=
  { FunctionDecl.ofName name with overloads := overloads }

/-- The type parameters of the standard signatures. -/
def a : Ty := Ty.param "A"

/-- The second type parameter of a membership test. -/
def b : Ty := Ty.param "B"

/-- The key type of a map. -/
def k : Ty := Ty.param "K"

/-- The value type of a map, or of an optional value. -/
def v : Ty := Ty.param "V"

/-- An overload on two arguments of one type with a result of the same type. -/
def homogeneous (id : String) (t : Ty) : Overload := .global id [t, t] t

/-- Choice, logic and equality. -/
def logicFunctions : List FunctionDecl :=
  [function conditional [(Overload.global "conditional" [.bool, a, a] a).lenient],
    function logicalAnd [(homogeneous "logical_and" .bool).lenient],
    function logicalOr [(homogeneous "logical_or" .bool).lenient],
    function "!_"
      [(Overload.global "logical_not" [.bool] .bool).withTraits (TraitSet.of [.negater])],
    function "@not_strictly_false"
      [(Overload.global "not_strictly_false" [.bool] .bool).lenient],
    function "_==_" [.global "equals" [a, a] .bool],
    function "_!=_" [.global "not_equals" [a, a] .bool]]

/-- Arithmetic, and what is written like it. -/
def arithmeticFunctions : List FunctionDecl :=
  [function "_+_"
      [homogeneous "add_bytes" .bytes, homogeneous "add_double" .double,
        homogeneous "add_duration_duration" .duration,
        .global "add_duration_timestamp" [.duration, .timestamp] .timestamp,
        .global "add_timestamp_duration" [.timestamp, .duration] .timestamp,
        homogeneous "add_int64" .int, homogeneous "add_list" (.list a),
        homogeneous "add_string" .string, homogeneous "add_uint64" .uint],
    function "_-_"
      [homogeneous "subtract_double" .double,
        homogeneous "subtract_duration_duration" .duration,
        homogeneous "subtract_int64" .int,
        .global "subtract_timestamp_duration" [.timestamp, .duration] .timestamp,
        .global "subtract_timestamp_timestamp" [.timestamp, .timestamp] .duration,
        homogeneous "subtract_uint64" .uint],
    function "_*_"
      [homogeneous "multiply_double" .double, homogeneous "multiply_int64" .int,
        homogeneous "multiply_uint64" .uint],
    function "_/_"
      [homogeneous "divide_double" .double, homogeneous "divide_int64" .int,
        homogeneous "divide_uint64" .uint],
    function "_%_" [homogeneous "modulo_int64" .int, homogeneous "modulo_uint64" .uint],
    function "-_"
      [.global "negate_double" [.double] .double, .global "negate_int64" [.int] .int]]

/-- Indexing, membership and size. -/
def collectionFunctions : List FunctionDecl :=
  [function "_[_]"
      [.global "index_list" [.list a, .int] a, .global "index_map" [.map k v, k] v],
    function "@in"
      [.global "in_list" [a, .list a] .bool, .global "in_map" [a, .map a b] .bool],
    function "size"
      [.global "size_bytes" [.bytes] .int, .member "bytes_size" [.bytes] .int,
        .global "size_list" [.list a] .int, .member "list_size" [.list a] .int,
        .global "size_map" [.map k v] .int, .member "map_size" [.map k v] .int,
        .global "size_string" [.string] .int, .member "string_size" [.string] .int]]

/-- The types whose values have an order, with their names in the ids of overloads. -/
def orderedTypes : List (String × Ty) :=
  [("bool", .bool), ("int64", .int), ("uint64", .uint), ("double", .double),
    ("string", .string), ("bytes", .bytes), ("timestamp", .timestamp), ("duration", .duration)]

/-- The numeric types, with their names in the ids of overloads. -/
def numericTypes : List (String × Ty) := [("int64", .int), ("uint64", .uint), ("double", .double)]

/-- A comparison, within every ordered type and across the numeric types. -/
def comparison (operator name : String) : FunctionDecl :=
  let within := orderedTypes.map fun (suffix, t) =>
    (Overload.global (name ++ "_" ++ suffix) [t, t] .bool).withTraits (TraitSet.of [.comparer])
  let across := numericTypes.flatMap fun (left, s) =>
    (numericTypes.filter fun r => r.1 ≠ left).map fun (right, t) =>
      Overload.global (name ++ "_" ++ left ++ "_" ++ right) [s, t] .bool
  function operator (within ++ across)

/-- The comparisons. -/
def comparisonFunctions : List FunctionDecl :=
  [comparison "_<_" "less", comparison "_<=_" "less_equals", comparison "_>_" "greater",
    comparison "_>=_" "greater_equals"]

/-- The conversions to a type, from the types with the given names. -/
def conversions (target : Ty) (sources : List (String × Ty)) : List Overload :=
  sources.map fun (id, source) => .global id [source] target

/-- Conversions between the built-in types. -/
def conversionFunctions : List FunctionDecl :=
  [function "int" (conversions .int
      [("int64_to_int64", .int), ("uint64_to_int64", .uint), ("double_to_int64", .double),
        ("string_to_int64", .string), ("timestamp_to_int64", .timestamp)]),
    function "uint" (conversions .uint
      [("uint64_to_uint64", .uint), ("int64_to_uint64", .int), ("double_to_uint64", .double),
        ("string_to_uint64", .string)]),
    function "double" (conversions .double
      [("double_to_double", .double), ("int64_to_double", .int), ("uint64_to_double", .uint),
        ("string_to_double", .string)]),
    function "string" (conversions .string
      [("string_to_string", .string), ("bool_to_string", .bool), ("int64_to_string", .int),
        ("uint64_to_string", .uint), ("double_to_string", .double), ("bytes_to_string", .bytes),
        ("timestamp_to_string", .timestamp), ("duration_to_string", .duration)]),
    function "bytes" (conversions .bytes
      [("bytes_to_bytes", .bytes), ("string_to_bytes", .string)]),
    function "bool" (conversions .bool [("bool_to_bool", .bool), ("string_to_bool", .string)]),
    function "duration" (conversions .duration
      [("duration_to_duration", .duration), ("string_to_duration", .string)]),
    function "timestamp" (conversions .timestamp
      [("timestamp_to_timestamp", .timestamp), ("string_to_timestamp", .string),
        ("int64_to_timestamp", .int)]),
    function "dyn" [.global "to_dyn" [a] .dyn],
    function "type" [.global "type" [a] (.typeOf a)]]

/-- Functions on texts. -/
def stringFunctions : List FunctionDecl :=
  [function "contains" [.member "contains_string" [.string, .string] .bool],
    function "startsWith" [.member "starts_with_string" [.string, .string] .bool],
    function "endsWith" [.member "ends_with_string" [.string, .string] .bool],
    function "matches"
      [.global "matches" [.string, .string] .bool,
        .member "matches_string" [.string, .string] .bool]]

/-- A part of a point in time, in universal time or in a time zone, and for some parts also of a
span of time. -/
def timePart (name part : String) (ofDuration : Bool) : FunctionDecl :=
  function name
    ([.member ("timestamp_to_" ++ part) [.timestamp] .int,
      .member ("timestamp_to_" ++ part ++ "_with_tz") [.timestamp, .string] .int] ++
      if ofDuration then [.member ("duration_to_" ++ part) [.duration] .int] else [])

/-- The parts of points in time and of spans of time. -/
def timeFunctions : List FunctionDecl :=
  [timePart "getFullYear" "year" false, timePart "getMonth" "month" false,
    timePart "getDayOfYear" "day_of_year" false, timePart "getDayOfMonth" "day_of_month" false,
    timePart "getDayOfWeek" "day_of_week" false, timePart "getHours" "hours" true,
    timePart "getMinutes" "minutes" true, timePart "getSeconds" "seconds" true,
    timePart "getMilliseconds" "milliseconds" true]

/-- Functions on optional values. -/
def optionalFunctions : List FunctionDecl :=
  [function "optional.of" [.global "optional_of" [v] (.optional v)],
    function "optional.none" [.global "optional_none" [] (.optional v)],
    function "hasValue" [.member "optional_hasValue" [.optional v] .bool],
    function "value" [.member "optional_value" [.optional v] v],
    function "_[?_]"
      [.global "list_optindex_optional_int" [.list v, .int] (.optional v),
        .global "map_optindex_optional_value" [.map k v, k] (.optional v)]]

/-- Every standard function. -/
def functions : List FunctionDecl :=
  logicFunctions ++ arithmeticFunctions ++ collectionFunctions ++ comparisonFunctions ++
    conversionFunctions ++ stringFunctions ++ timeFunctions ++ optionalFunctions

end Standard

namespace Env

/-- An environment with the standard declarations.  None of them is refused. -/
def standard (store : Store) (container : Container) (provider : Provider)
    (options : CheckerOptions) : Env × Store :=
  let (env, store) := bare store container provider options
  let (env, store, _) := env.addIdents store [] Standard.idents
  let (env, store, _) := env.addFunctions store [] Standard.functions
  (env, store)

end Env
end CelTyping
