import CelTyping.Ty.Kind

/-!
# Types

A type is a tree: every node has a kind, a name, parameters, traits, and a rule of acceptance
that says which other types may be used in its place.

The *shape* of a type is what is left when traits and acceptance are forgotten.  Two types are
exactly equal when they have the same shape, so `wrapper(int)`, which differs from `int` only in
that it also accepts `null`, equals `int`.

A custom rule of acceptance takes the place of the structural rule at its node only.  It is given
the two types and may read everything in them, with one restriction: a rule that asks another
custom rule would be a function of types that contain functions of types, and such types do not
exist.  So it is a relation on the *views* of types, which have kinds, names, parameters, traits and
the manner of acceptance of every node, but of a custom rule only that it is there.

Nothing here forces a tree to make sense: a node of kind `int` may be given parameters.  The
types that the constructors below build do make sense, and so do the types that are read from
text.
-/

namespace CelTyping

/-- A type without its traits and its rule of acceptance. -/
inductive Shape where
  | node (kind : Kind) (name : String) (params : List Shape)

namespace Shape

/-- The kind at the root. -/
def kind : Shape → Kind
  | node k _ _ => k

/-- The name at the root. -/
def name : Shape → String
  | node _ n _ => n

/-- The parameters of the root. -/
def params : Shape → List Shape
  | node _ _ ps => ps

end Shape

/-- The sort of rule by which a type decides which types may be used in its place. -/
inductive Manner where
  /-- Kind, name and parameters must agree. -/
  | structural
  /-- As `structural`, and `null` is accepted as well. -/
  | nullable
  /-- A rule of its own. -/
  | custom
  deriving DecidableEq

/-- The name of a manner of acceptance. -/
def Manner.name : Manner → String
  | structural => "Structural"
  | nullable => "Nullable"
  | custom => "Custom(..)"

/-- What can be read of a type. -/
inductive View where
  | node (kind : Kind) (name : String) (params : List View) (traits : TraitSet) (manner : Manner)

namespace View

/-- The kind at the root. -/
def kind : View → Kind
  | node k _ _ _ _ => k

/-- The name at the root. -/
def name : View → String
  | node _ n _ _ _ => n

/-- The parameters of the root. -/
def params : View → List View
  | node _ _ ps _ _ => ps

/-- The traits of the root. -/
def traits : View → TraitSet
  | node _ _ _ ts _ => ts

/-- The manner of acceptance at the root. -/
def manner : View → Manner
  | node _ _ _ _ m => m

end View

/-- How a type decides which types may be used in its place. -/
inductive Acceptance where
  /-- Kind, name and parameters must agree. -/
  | structural
  /-- As `structural`, and `null` is accepted as well. -/
  | nullable
  /-- A relation between what can be read of the type and of the type it is given. -/
  | custom (accepts : View → View → Bool)

namespace Acceptance

/-- The sort of rule. -/
def manner : Acceptance → Manner
  | structural => .structural
  | nullable => .nullable
  | custom _ => .custom

/-- Whether the rule makes an exception for `null`. -/
def takesNull : Acceptance → Bool
  | nullable => true
  | _ => false

end Acceptance

/-- A type. -/
structure Ty where
  /-- What sort of type it is. -/
  kind : Kind
  /-- The name of a built-in type, a message type or a type parameter. -/
  name : String
  /-- The types it is made of. -/
  params : List Ty
  /-- What its values can be used for. -/
  traits : TraitSet
  /-- Which types may be used in its place. -/
  acceptance : Acceptance

namespace Ty

/-! ## The built-in types -/

/-- A type without parameters, with the structural rule. -/
def plain (kind : Kind) (name : String) (traits : List Trait) : Ty :=
  ⟨kind, name, [], TraitSet.of traits, .structural⟩

/-- The type of messages of any type. -/
def any : Ty := plain .any "google.protobuf.Any" [.fieldTester, .indexer]

/-- The type of truth values. -/
def bool : Ty := plain .bool "bool" [.comparer, .negater]

/-- The type of byte strings. -/
def bytes : Ty := plain .bytes "bytes" [.adder, .comparer, .sizer]

/-- The type of double precision numbers. -/
def double : Ty :=
  plain .double "double" [.adder, .comparer, .divider, .multiplier, .negater, .subtractor]

/-- The type of spans of time. -/
def duration : Ty :=
  plain .duration "google.protobuf.Duration" [.adder, .comparer, .negater, .receiver, .subtractor]

/-- The dynamic type. -/
def dyn : Ty := plain .dyn "dyn" []

/-- The type of an expression that failed to check. -/
def error : Ty := plain .error "error" []

/-- The type of signed integers. -/
def int : Ty :=
  plain .int "int" [.adder, .comparer, .divider, .modder, .multiplier, .negater, .subtractor]

/-- The type of `null`. -/
def null : Ty := plain .null "null_type" []

/-- The type of texts. -/
def string : Ty := plain .string "string" [.adder, .comparer, .matcher, .receiver, .sizer]

/-- The type of points in time. -/
def timestamp : Ty :=
  plain .timestamp "google.protobuf.Timestamp" [.adder, .comparer, .receiver, .subtractor]

/-- The type of types, of which nothing more is known. -/
def typeType : Ty := plain .type "type" []

/-- The type of unsigned integers. -/
def uint : Ty :=
  plain .uint "uint" [.adder, .comparer, .divider, .modder, .multiplier, .subtractor]

/-- The type of an unknown value. -/
def unknown : Ty := plain .unknown "unknown" []

instance : Inhabited Ty := ⟨dyn⟩

/-! ## Building types -/

/-- The type of lists of an element type. -/
def list (elem : Ty) : Ty :=
  ⟨.list, "list", [elem],
    TraitSet.of [.adder, .container, .indexer, .iterable, .sizer], .structural⟩

/-- The type of maps from a key type to a value type. -/
def map (key value : Ty) : Ty :=
  ⟨.map, "map", [key, value],
    TraitSet.of [.container, .indexer, .iterable, .sizer], .structural⟩

/-- A named type with parameters and no further structure. -/
def abstract (name : String) (params : List Ty) : Ty :=
  ⟨.abstract, name, params, .none, .structural⟩

/-- The name of the type of optional values. -/
def optionalName : String := "optional_type"

/-- The type of optional values of a type. -/
def optional (inner : Ty) : Ty := abstract optionalName [inner]

/-- The type of a type. -/
def typeOf (t : Ty) : Ty := ⟨.type, "type", [t], .none, .structural⟩

/-- A type parameter. -/
def param (name : String) : Ty := ⟨.typeParam, name, [], .none, .structural⟩

/-- A message type. -/
def message (name : String) : Ty := plain .struct name [.fieldTester, .indexer]

/-- The type with `null` accepted besides what its structure accepts. -/
def nullable (t : Ty) : Ty := { t with acceptance := .nullable }

/-- The type with a custom rule of acceptance. -/
def withCustom (t : Ty) (accepts : View → View → Bool) : Ty :=
  { t with acceptance := .custom accepts }

/-- The type with other parameters. -/
def withParams (t : Ty) (params : List Ty) : Ty := { t with params := params }

/-! ## Asking about types -/

/-- Whether the type is `dyn`, the type of any message, or a type parameter. -/
def isDyn (t : Ty) : Bool := t.kind.isDyn

/-- Whether the type is `dyn` or `error`. -/
def isDynOrError (t : Ty) : Bool := t.kind == .dyn || t.kind == .error

/-- Whether the type is a type parameter. -/
def isParam (t : Ty) : Bool := t.kind == .typeParam

/-- Whether the type is the type of optional values of some type. -/
def isOptional (t : Ty) : Bool :=
  t.kind == .abstract && t.name == optionalName && t.params.length == 1

/-- The type of the value inside an optional type. -/
def optionalInner? (t : Ty) : Option Ty := if t.isOptional then t.params.head? else none

mutual

/-- What is left of a type without its traits and its rule of acceptance. -/
def shape : Ty → Shape
  | ⟨kind, name, params, _, _⟩ => .node kind name (shapes params)

/-- The shapes of a list of types. -/
def shapes : List Ty → List Shape
  | [] => []
  | t :: rest => t.shape :: shapes rest

end

mutual

/-- What can be read of a type. -/
def view : Ty → View
  | ⟨kind, name, params, traits, acceptance⟩ =>
    .node kind name (views params) traits acceptance.manner

/-- The views of a list of types. -/
def views : List Ty → List View
  | [] => []
  | t :: rest => t.view :: views rest

end

mutual

/-- The number of nodes of a type. -/
def size : Ty → Nat
  | ⟨_, _, params, _, _⟩ => 1 + sizes params

/-- The number of nodes of a list of types. -/
def sizes : List Ty → Nat
  | [] => 0
  | t :: rest => t.size + sizes rest

end

end Ty
end CelTyping
