/-!
# Kinds and traits

Every type has a kind, which says what sort of type it is, and a set of traits, which say what
its values can be used for.  Kinds decide how two types compare; traits are only reported.
-/

namespace CelTyping

/-- What sort of type a type is. -/
inductive Kind where
  /-- A message of any type. -/
  | any
  /-- Truth values. -/
  | bool
  /-- Byte strings. -/
  | bytes
  /-- Double precision numbers. -/
  | double
  /-- Spans of time. -/
  | duration
  /-- The dynamic type, which goes with every type. -/
  | dyn
  /-- The type of an expression that failed to check. -/
  | error
  /-- Signed integers. -/
  | int
  /-- Lists of one element type. -/
  | list
  /-- Maps from a key type to a value type. -/
  | map
  /-- The type of `null`. -/
  | null
  /-- Named types with parameters and no further structure. -/
  | abstract
  /-- Texts. -/
  | string
  /-- Message types. -/
  | struct
  /-- Points in time. -/
  | timestamp
  /-- The type of a type. -/
  | type
  /-- Type parameters. -/
  | typeParam
  /-- Unsigned integers. -/
  | uint
  /-- The type of an unknown value. -/
  | unknown
  /-- No kind was set. -/
  | unspecified
  deriving DecidableEq

namespace Kind

/-- The name of a kind in messages. -/
def name : Kind → String
  | any => "any"
  | bool => "bool"
  | bytes => "bytes"
  | double => "double"
  | duration => "duration"
  | dyn => "dyn"
  | error => "error"
  | int => "int"
  | list => "list"
  | map => "map"
  | null => "null"
  | abstract => "opaque"
  | string => "string"
  | struct => "struct"
  | timestamp => "timestamp"
  | type => "type"
  | typeParam => "type_param"
  | uint => "uint"
  | unknown => "unknown"
  | unspecified => "unspecified"

/-- The name of a kind as a tag in front of a type. -/
def tag : Kind → String
  | any => "Any"
  | bool => "Bool"
  | bytes => "Bytes"
  | double => "Double"
  | duration => "Duration"
  | dyn => "Dyn"
  | error => "Error"
  | int => "Int"
  | list => "List"
  | map => "Map"
  | null => "Null"
  | abstract => "Opaque"
  | string => "String"
  | struct => "Struct"
  | timestamp => "Timestamp"
  | type => "Type"
  | typeParam => "TypeParam"
  | uint => "Uint"
  | unknown => "Unknown"
  | unspecified => "Unspecified"

/-- Whether types of the kind carry type parameters. -/
def isParameterized : Kind → Bool
  | list | map | abstract | type => true
  | _ => false

/-- Whether types of the kind accept every type. -/
def isDyn : Kind → Bool
  | dyn | any | typeParam => true
  | _ => false

end Kind

/-- Something the values of a type can be used for. -/
inductive Trait where
  /-- Addition. -/
  | adder
  /-- Ordering. -/
  | comparer
  /-- Membership tests. -/
  | container
  /-- Division. -/
  | divider
  /-- Presence tests. -/
  | fieldTester
  /-- Indexing. -/
  | indexer
  /-- Being the range of a comprehension. -/
  | iterable
  /-- Being an iterator. -/
  | iterator
  /-- Pattern matching. -/
  | matcher
  /-- Remainders. -/
  | modder
  /-- Multiplication. -/
  | multiplier
  /-- Negation. -/
  | negater
  /-- Member functions. -/
  | receiver
  /-- Having a size. -/
  | sizer
  /-- Subtraction. -/
  | subtractor
  /-- Being folded over. -/
  | foldable
  deriving DecidableEq

namespace Trait

/-- Every trait, in the order of its bit. -/
def all : List Trait :=
  [adder, comparer, container, divider, fieldTester, indexer, iterable, iterator, matcher, modder,
    multiplier, negater, receiver, sizer, subtractor, foldable]

/-- The place of a trait in a set of traits. -/
def bit : Trait → Nat
  | adder => 0
  | comparer => 1
  | container => 2
  | divider => 3
  | fieldTester => 4
  | indexer => 5
  | iterable => 6
  | iterator => 7
  | matcher => 8
  | modder => 9
  | multiplier => 10
  | negater => 11
  | receiver => 12
  | sizer => 13
  | subtractor => 14
  | foldable => 15

/-- The name of a trait. -/
def name : Trait → String
  | adder => "Adder"
  | comparer => "Comparer"
  | container => "Container"
  | divider => "Divider"
  | fieldTester => "FieldTester"
  | indexer => "Indexer"
  | iterable => "Iterable"
  | iterator => "Iterator"
  | matcher => "Matcher"
  | modder => "Modder"
  | multiplier => "Multiplier"
  | negater => "Negater"
  | receiver => "Receiver"
  | sizer => "Sizer"
  | subtractor => "Subtractor"
  | foldable => "Foldable"

/-- The trait of a name. -/
def ofName? (name : String) : Option Trait := all.find? fun t => t.name == name

end Trait

/-- A set of traits, one bit for each. -/
structure TraitSet where
  /-- The number whose bits are the members. -/
  bits : Nat
  deriving DecidableEq

namespace TraitSet

/-- No traits. -/
def none : TraitSet := ⟨0⟩

/-- The set of the listed traits. -/
def of (traits : List Trait) : TraitSet :=
  ⟨traits.foldl (fun bits t => bits ||| (1 <<< t.bit)) 0⟩

/-- Whether a trait is a member. -/
def contains (s : TraitSet) (t : Trait) : Bool := s.bits.testBit t.bit

/-- The members, in the order of their bits. -/
def toList (s : TraitSet) : List Trait := Trait.all.filter s.contains

/-- Whether there is no member. -/
def isEmpty (s : TraitSet) : Bool := s.bits == 0

end TraitSet
end CelTyping
