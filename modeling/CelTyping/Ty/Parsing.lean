import CelTyping.Text.Alphanumeric
import CelTyping.Text.Characters
import CelTyping.Ty.WellKnown

/-!
# Written types

A type is written the way it is shown: a name, and for a type with parameters a list of types in
parentheses.  White space may stand before a name, an opening parenthesis, a comma or a closing
parenthesis, and after the whole type.

    type   ::=  blank* name (blank* '(' type (blank* ',' type)* blank* ')')?
    name   ::=  (letter | digit | '_' | '.')+

The names `list`, `map`, `type`, `optional`, `optional_type` and `wrapper` ask for a fixed number
of parameters.  Any other name with parameters is an abstract type.  Without parameters it is one
of the simple built-in types, a type parameter if the caller lists it as one, and otherwise a
message type.

The reader walks over the characters with a cursor that counts bytes, so that an error names the
byte where it arose.  Every nested type consumes at least one character, and so does every further
parameter; the number of characters therefore bounds both recursions.
-/

namespace CelTyping
namespace Ty

/-- Why a text is not a type. -/
inductive SyntaxError where
  /-- A character that cannot start or continue a type. -/
  | unexpectedChar (ch : Char) (offset : Nat)
  /-- The text ended early. -/
  | unexpectedEnd (expected : String)
  /-- Something follows a complete type. -/
  | trailingInput (offset : Nat)
  /-- A built-in type with the wrong number of parameters. -/
  | parameterCount (name : String) (expected actual : Nat)
  deriving DecidableEq

/-- The wording of an error. -/
def SyntaxError.message : SyntaxError → String
  | unexpectedChar ch offset =>
    "unexpected character '" ++ String.singleton ch ++ "' at offset " ++ toString offset
  | unexpectedEnd expected => "unexpected end of type expression, expected " ++ expected
  | trailingInput offset => "trailing input at offset " ++ toString offset
  | parameterCount name expected actual =>
    "type '" ++ name ++ "' expects " ++ toString expected ++ " parameter(s), got " ++
      toString actual

namespace Parsing

/-! ## The cursor -/

/-- A place in a text: the number of bytes before it and the characters after it. -/
structure Cursor where
  /-- The number of bytes before the place. -/
  offset : Nat
  /-- The characters after the place. -/
  rest : List Char

/-- Move over the characters that satisfy a predicate. -/
def skipFrom (p : Char → Bool) : Nat → List Char → Cursor
  | offset, [] => ⟨offset, []⟩
  | offset, ch :: rest =>
    if p ch then skipFrom p (offset + ch.utf8Size) rest else ⟨offset, ch :: rest⟩

/-- Move over the characters that satisfy a predicate. -/
def Cursor.skip (p : Char → Bool) (c : Cursor) : Cursor := skipFrom p c.offset c.rest

/-- Move over one character that takes one byte. -/
def Cursor.step (c : Cursor) : Cursor := ⟨c.offset + 1, c.rest.tail⟩

/-- Whether a character may stand in a name. -/
def isNameChar (ch : Char) : Bool := Text.isAlphanumeric ch || ch == '_' || ch == '.'

/-- Read a name after white space. -/
def readName (c : Cursor) : Except SyntaxError (String × Cursor) :=
  let start := c.skip Text.isBlank
  match start.rest.takeWhile isNameChar with
  | [] =>
    match start.rest with
    | ch :: _ => .error (.unexpectedChar ch start.offset)
    | [] => .error (.unexpectedEnd "type name")
  | name => .ok (String.ofList name, start.skip isNameChar)

/-! ## Types by name -/

/-- The types that are written as a bare name. -/
def simpleTypes : List (String × Ty) :=
  [("bool", bool), ("bytes", bytes), ("double", double), ("int", int), ("uint", uint),
    ("string", string), ("dyn", dyn), ("any", any), ("error", error), ("null", null),
    ("null_type", null), ("duration", duration), ("timestamp", timestamp)]

/-- The type with a name and parameters. -/
def build (typeParams : List String) (name : String) (params : List Ty) : Except SyntaxError Ty :=
  if name = "list" then
    match params with
    | [elem] => .ok (list elem)
    | _ => .error (.parameterCount name 1 params.length)
  else if name = "map" then
    match params with
    | [key, value] => .ok (map key value)
    | _ => .error (.parameterCount name 2 params.length)
  else if name = "type" then
    match params with
    | [] => .ok typeType
    | [t] => .ok (typeOf t)
    | _ => .error (.parameterCount name 1 params.length)
  else if name = "optional_type" ∨ name = "optional" then
    match params with
    | [inner] => .ok (optional inner)
    | _ => .error (.parameterCount name 1 params.length)
  else if name = "wrapper" then
    match params with
    | [inner] => .ok (nullable inner)
    | _ => .error (.parameterCount name 1 params.length)
  else
    match params with
    | [] =>
      match simpleTypes.lookup name with
      | some t => .ok t
      | none => .ok (if name ∈ typeParams then param name else object name)
    | _ => .ok (abstract name params)

/-! ## The reader -/

/-- Read the parameters after the first one, up to the closing parenthesis. -/
def readMore (read : Cursor → Except SyntaxError (Ty × Cursor)) :
    (fuel : Nat) → Cursor → Except SyntaxError (List Ty × Cursor)
  | 0, _ => .error (.unexpectedEnd "')'")
  | fuel + 1, c =>
    let c := c.skip Text.isBlank
    match c.rest with
    | [] => .error (.unexpectedEnd "')'")
    | ch :: _ =>
      if ch = ')' then .ok ([], c.step)
      else if ch = ',' then do
        let (t, c) ← read c.step
        let (ts, c) ← readMore read fuel c
        return (t :: ts, c)
      else .error (.unexpectedChar ch c.offset)

/-- Read the parameters of a type, if an opening parenthesis follows. -/
def readParams (read : Cursor → Except SyntaxError (Ty × Cursor)) (c : Cursor) :
    Except SyntaxError (List Ty × Cursor) :=
  let c := c.skip Text.isBlank
  if c.rest.head? = some '(' then do
    let (t, c) ← read c.step
    let (ts, c) ← readMore read (c.rest.length + 1) c
    return (t :: ts, c)
  else .ok ([], c)

/-- Read a type whose parameters are nested less deep than the given bound. -/
def readType (typeParams : List String) : (fuel : Nat) → Cursor →
    Except SyntaxError (Ty × Cursor)
  | 0, _ => .error (.unexpectedEnd "type name")
  | fuel + 1, c => do
    let (name, c) ← readName c
    let (params, c) ← readParams (readType typeParams fuel) c
    let t ← build typeParams name params
    return (t, c)

end Parsing

open Parsing in
/-- The type that a text stands for; the listed names are type parameters. -/
def parse (text : String) (typeParams : List String) : Except SyntaxError Ty := do
  let chars := text.toList
  let (t, c) ← readType typeParams (chars.length + 1) ⟨0, chars⟩
  let c := c.skip Text.isBlank
  match c.rest with
  | [] => return t
  | _ => .error (.trailingInput c.offset)

end Ty
end CelTyping
