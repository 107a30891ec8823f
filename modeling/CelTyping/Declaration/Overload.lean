import CelTyping.Constant
import CelTyping.Ty.Compare

/-!
# Overloads

An overload is one signature of a function: the types of its arguments, the receiver first for a
member, and the type of its result.  It may carry an implementation on constants, which the
checker never runs but which declarations of one function must agree on.
-/

namespace CelTyping

/-! ## Implementations -/

/-- A partial function on constants; no result means that the arguments do not suit it. -/
inductive Operation where
  /-- A function of one argument. -/
  | unary (run : Constant → Option Constant)
  /-- A function of two arguments. -/
  | binary (run : Constant → Constant → Option Constant)
  /-- A function of any number of arguments. -/
  | variadic (run : List Constant → Option Constant)

namespace Operation

/-- Apply an operation to a list of arguments; the wrong number of them has no result. -/
def call : Operation → List Constant → Option Constant
  | unary run, [a] => run a
  | binary run, [a, b] => run a b
  | variadic run, args => run args
  | _, _ => none

/-- The name of the form of an operation. -/
def form : Operation → String
  | unary _ => "Unary(..)"
  | binary _ => "Binary(..)"
  | variadic _ => "Function(..)"

end Operation

/-- An operation with an identity: two implementations are the same when form and identity
agree, whatever they compute. -/
structure Implementation where
  /-- What tells this implementation from others. -/
  identity : String
  /-- What it computes. -/
  operation : Operation

namespace Implementation

/-- Whether two implementations are the same. -/
def same (a b : Implementation) : Bool :=
  a.operation.form == b.operation.form && a.identity == b.identity

end Implementation

/-! ## Type parameters -/

namespace Ty

/-- Append a name that is not there yet. -/
def appendNew (names : List String) (name : String) : List String :=
  if name ∈ names then names else names ++ [name]

mutual

/-- Append the type parameters of a type that are not there yet, from left to right. -/
def collectParams (names : List String) : Ty → List String
  | ⟨kind, name, params, _, _⟩ =>
    if kind = .typeParam then appendNew names name else collectAllParams names params

/-- Append the type parameters of a list of types that are not there yet. -/
def collectAllParams (names : List String) : List Ty → List String
  | [] => names
  | t :: rest => collectAllParams (t.collectParams names) rest

end

end Ty

/-! ## Overloads -/

/-- One signature of a function. -/
structure Overload where
  /-- The id, unique within the function. -/
  id : String
  /-- The types of the arguments, the receiver first for a member. -/
  args : List Ty
  /-- The type of the result. -/
  result : Ty
  /-- Whether it is called on a receiver. -/
  isMember : Bool
  /-- Whether it takes errors and unknown values as arguments. -/
  nonStrict : Bool
  /-- The traits that its operands must have. -/
  operandTraits : TraitSet
  /-- The implementation. -/
  implementation : Option Implementation

namespace Overload

/-- An overload that is called without a receiver. -/
def global (id : String) (args : List Ty) (result : Ty) : Overload :=
  ⟨id, args, result, false, false, .none, none⟩

/-- An overload that is called on its first argument. -/
def member (id : String) (args : List Ty) (result : Ty) : Overload :=
  { global id args result with isMember := true }

/-- The overload, taking errors and unknown values as arguments. -/
def lenient (o : Overload) : Overload := { o with nonStrict := true }

/-- The overload, asking its operands for traits. -/
def withTraits (o : Overload) (traits : TraitSet) : Overload := { o with operandTraits := traits }

/-- The overload with an implementation. -/
def implementedBy (o : Overload) (i : Implementation) : Overload :=
  { o with implementation := some i }

/-- Whether there is an implementation. -/
def hasImplementation (o : Overload) : Bool := o.implementation.isSome

/-- The number of arguments besides the receiver. -/
def argCount (o : Overload) : Nat := if o.isMember then o.args.length - 1 else o.args.length

/-- The names of the type parameters of the signature, in the order in which they appear. -/
def typeParams (o : Overload) : List String := Ty.collectAllParams [] (o.args ++ [o.result])

/-- Whether two overloads have the same id, call style and arity, and equivalent types. -/
def sameSignature (a b : Overload) : Bool :=
  a.id == b.id && a.isMember == b.isMember && Ty.agreeAll false a.args b.args &&
    a.result.isEquivalent b.result

/-- Whether two lists of types are equally long and each pair accepts one another one way or the
other. -/
def eitherAccepts : List Ty → List Ty → Bool
  | [], [] => true
  | a :: as, b :: bs => (a.accepts b || b.accepts a) && eitherAccepts as bs
  | _, _ => false

/-- Whether two overloads have the same call style and arity, and every argument of one is
accepted by the other one way or the other. -/
def overlaps (a b : Overload) : Bool := a.isMember == b.isMember && eitherAccepts a.args b.args

/-- Whether constants fit the types of the arguments. -/
def fits (o : Overload) (args : List Constant) : Bool := Ty.acceptAll o.args (args.map Constant.ty)

end Overload
end CelTyping
