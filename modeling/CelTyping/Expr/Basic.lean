import CelTyping.Constant

/-!
# Expression trees

An expression arrives as a tree whose nodes carry ids given by whoever parsed it.  Checking may
replace the contents of a node, for instance a chain of selections by the identifier it names,
but never its id.  Ids need not be distinct, though a well-behaved parser makes them so.
-/

namespace CelTyping

/-- The id of a node of an expression tree. -/
abbrev NodeId := Int64

mutual

/-- One entry of a map literal. -/
structure MapEntry where
  /-- The id of the entry. -/
  id : NodeId
  /-- The key. -/
  key : Expr
  /-- The value. -/
  value : Expr
  /-- Whether the value is optional, and the entry left out when it is absent. -/
  optional : Bool

/-- One initializer of a message literal. -/
structure FieldInit where
  /-- The id of the initializer. -/
  id : NodeId
  /-- The name of the field. -/
  field : String
  /-- The value. -/
  value : Expr
  /-- Whether the value is optional, and the field left unset when it is absent. -/
  optional : Bool

/-- A node of an expression tree. -/
inductive Expr where
  /-- A node whose contents were never set. -/
  | unset (id : NodeId)
  /-- A literal. -/
  | const (id : NodeId) (value : Constant)
  /-- An identifier, dotted once it is resolved. -/
  | ident (id : NodeId) (name : String)
  /-- A field selection; a presence test when `testOnly`, an optional selection when
  `optional`. -/
  | select (id : NodeId) (operand : Expr) (field : String) (testOnly optional : Bool)
  /-- A call, with or without a receiver. -/
  | call (id : NodeId) (function : String) (target : Option Expr) (args : List Expr)
  /-- A list literal; the elements at the optional indices are optional values. -/
  | list (id : NodeId) (elements : List Expr) (optionalIndices : List UInt64)
  /-- A map literal. -/
  | map (id : NodeId) (entries : List MapEntry)
  /-- A message literal. -/
  | struct (id : NodeId) (messageName : String) (fields : List FieldInit)
  /-- A fold over a range: `accuVar` starts at `accuInit`, is replaced by `loopStep` for every
  member of the range while `loopCondition` holds, and `result` is computed from its last
  value. -/
  | comprehension (id : NodeId) (iterRange : Expr) (iterVar : String) (iterVar2 : Option String)
      (accuVar : String) (accuInit loopCondition loopStep result : Expr)

end

namespace Expr

/-- The id of a node. -/
def id : Expr → NodeId
  | unset id => id
  | const id _ => id
  | ident id _ => id
  | select id _ _ _ _ => id
  | call id _ _ _ => id
  | list id _ _ => id
  | map id _ => id
  | struct id _ _ => id
  | comprehension id _ _ _ _ _ _ _ _ => id

/-- A short text that stands for a node in messages. -/
def describe : Expr → String
  | unset _ => "<unset>"
  | const _ value => value.describe
  | ident _ name => name
  | select _ _ field _ _ => "_." ++ field
  | call _ function _ _ => function ++ "(..)"
  | list _ _ _ => "[..]"
  | map _ _ => "\x7b..\x7d"
  | struct _ name _ => name ++ "\x7b..\x7d"
  | comprehension _ _ _ _ _ _ _ _ _ => "<comprehension>"

/-- The dotted name that a chain of plain selections from an identifier spells. -/
def qualifiedName? : Expr → Option String
  | ident _ name => some name
  | select _ operand field false false => operand.qualifiedName?.map fun q => q ++ "." ++ field
  | _ => none

/-- The type of a node that is a literal. -/
def constantType? : Expr → Option Ty
  | const _ value => some value.ty
  | _ => none

end Expr

/-- What an identifier or a call was resolved to. -/
structure Reference where
  /-- The full name of an identifier; empty for a call. -/
  name : String
  /-- The ids of the overloads that match a call, in the order of their declaration. -/
  overloads : List String
  /-- The value of an identifier that names a constant. -/
  value : Option Constant

namespace Reference

/-- The reference to an identifier. -/
def ofIdent (name : String) (value : Option Constant) : Reference := ⟨name, [], value⟩

/-- The reference to one overload. -/
def ofOverload (overload : String) : Reference := ⟨"", [overload], none⟩

/-- Add an overload that is not there yet. -/
def addOverload (r : Reference) (overload : String) : Reference :=
  if overload ∈ r.overloads then r else { r with overloads := r.overloads ++ [overload] }

/-- Whether two references are equal, their values compared as values. -/
def same (a b : Reference) : Bool :=
  a.name == b.name && a.overloads == b.overloads &&
    match a.value, b.value with
    | none, none => true
    | some v, some w => v.same w
    | _, _ => false

/-- A reference in messages. -/
def describe (r : Reference) : String :=
  if r.name.isEmpty then "[" ++ ", ".intercalate r.overloads ++ "]" else r.name

end Reference
end CelTyping
