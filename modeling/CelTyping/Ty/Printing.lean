import CelTyping.Ty.Compare

/-!
# The text of a type

A type is shown by its name, with its parameters in parentheses; the built-in types whose names
are those of message types are shown by a short name instead, and a type without parameters that
also accepts `null` is shown as a `wrapper`.

The *key* of a type is the plain text of its names.  Substitutions are looked up by key, so two
types with the same key are the same thing to a substitution, whatever their kinds.
-/

namespace CelTyping
namespace Ty

/-- A name with its arguments in parentheses, or the bare name without arguments. -/
def applied (name : String) : List String → String
  | [] => name
  | args => name ++ "(" ++ ", ".intercalate args ++ ")"

/-- The name as written in declarations: a type that also accepts `null` is a wrapper. -/
def declaredName (t : Ty) : String :=
  if t.kind != .null && !t.isDyn && t.acceptsNull then "wrapper(" ++ t.name ++ ")" else t.name

mutual

/-- The text that stands for a type in a substitution. -/
def key : Ty → String
  | ⟨_, name, params, _, _⟩ => applied name (keys params)

/-- The keys of a list of types. -/
def keys : List Ty → List String
  | [] => []
  | t :: rest => t.key :: keys rest

end

mutual

/-- The text of a type in messages. -/
def display : Ty → String
  | ⟨kind, name, params, traits, acceptance⟩ =>
    match kind with
    | .null => "null"
    | .timestamp => "timestamp"
    | .duration => "duration"
    | .any => "any"
    | kind =>
      match params with
      | [] => (Ty.mk kind name [] traits acceptance).declaredName
      | p :: ps => applied name (p.display :: displays ps)

/-- The texts of a list of types. -/
def displays : List Ty → List String
  | [] => []
  | t :: rest => t.display :: displays rest

end

/-- The text of a type with its kind in front. -/
def debug (t : Ty) : String := "Type(" ++ t.kind.tag ++ ", " ++ t.display ++ ")"

end Ty
end CelTyping
