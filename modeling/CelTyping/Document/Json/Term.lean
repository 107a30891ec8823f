import CelTyping.Text.Characters

/-!
# JSON terms

The grammar of JSON, apart from the question what its words stand for.

A term is a piece of JSON as it is written: a number by its digits and a text by its escapes.  A
term can be well formed and yet stand for nothing, as a number that is too large does, or a text
with one half of a pair of surrogates.  A reader of a term may pass over such a part as long as it
has no use for it, so the grammar accepts it, and nests lists and fields as deep as they come.

Reading goes from the characters that are left to a term and the characters after it.  Nesting is
bounded by the number of characters, and so is the number of items of a list.
-/

namespace CelTyping
namespace Json

open Text (isDigit hexValue?)

/-! ## Terms -/

/-- A number by its digits. -/
structure Numeral where
  /-- Whether it begins with a minus. -/
  isNegative : Bool
  /-- The digits before the point. -/
  whole : List Char
  /-- The digits after the point; none if there is no point. -/
  fraction : List Char
  /-- Whether the exponent goes down, and its digits, if there is an exponent. -/
  exponent : Option (Bool × List Char)

/-- A piece of a text. -/
inductive Piece where
  /-- A character that stands for itself. -/
  | plain (c : Char)
  /-- A character written by a letter after a backslash. -/
  | escaped (c : Char)
  /-- A unit of sixteen bits, written by its four hexadecimal digits. -/
  | unit (code : Nat)

/-- A piece of JSON as it is written. -/
inductive Term where
  /-- The word `null`. -/
  | null
  /-- A truth value. -/
  | bool (value : Bool)
  /-- A number. -/
  | number (numeral : Numeral)
  /-- A text. -/
  | text (pieces : List Piece)
  /-- A list. -/
  | list (items : List Term)
  /-- Named fields. -/
  | fields (entries : List (List Piece × Term))

/-! ## White space -/

/-- Whether a character may stand between the parts of a term. -/
def isSpace (c : Char) : Bool := c == ' ' || c == '\n' || c == '\t' || c == '\r'

/-- The characters after white space. -/
def skip (cs : List Char) : List Char := cs.dropWhile isSpace

/-! ## Numbers -/

/-- Read digits, of which there is at least one. -/
def readDigits (cs : List Char) : Option (List Char × List Char) :=
  if (cs.takeWhile isDigit).isEmpty then none
  else some (cs.takeWhile isDigit, cs.dropWhile isDigit)

/-- Read the digits before the point: a zero is the only one. -/
def readWhole (cs : List Char) : Option (List Char × List Char) :=
  match readDigits cs with
  | some ('0' :: _ :: _, _) => none
  | result => result

/-- Read the point and the digits after it, if there is a point. -/
def readFraction (cs : List Char) : Option (List Char × List Char) :=
  match cs with
  | '.' :: rest => readDigits rest
  | rest => some ([], rest)

/-- Read an exponent, if there is one. -/
def readExponent (cs : List Char) : Option (Option (Bool × List Char) × List Char) :=
  match cs with
  | c :: rest =>
    if c == 'e' || c == 'E' then
      let (down, rest) := match rest with
        | '+' :: rest => (false, rest)
        | '-' :: rest => (true, rest)
        | rest => (false, rest)
      (readDigits rest).map fun (digits, rest) => (some (down, digits), rest)
    else some (none, c :: rest)
  | [] => some (none, [])

/-- Read a number. -/
def readNumeral (cs : List Char) : Option (Numeral × List Char) := do
  let (isNegative, cs) := match cs with
    | '-' :: rest => (true, rest)
    | rest => (false, rest)
  let (whole, cs) ← readWhole cs
  let (fraction, cs) ← readFraction cs
  let (exponent, cs) ← readExponent cs
  return (⟨isNegative, whole, fraction, exponent⟩, cs)

/-! ## Texts -/

/-- The character that a letter after a backslash stands for. -/
def escapeOf? (c : Char) : Option Char :=
  if c == '\x22' || c == '\\' || c == '/' then some c
  else if c == 'b' then some '\x08'
  else if c == 'f' then some '\x0c'
  else if c == 'n' then some '\n'
  else if c == 'r' then some '\r'
  else if c == 't' then some '\t'
  else none

/-- The unit that four hexadecimal digits spell. -/
def unit? (a b c d : Char) : Option Nat := do
  let a ← hexValue? a
  let b ← hexValue? b
  let c ← hexValue? c
  let d ← hexValue? d
  return ((a * 16 + b) * 16 + c) * 16 + d

/-- Put a piece before the pieces that were read. -/
def before (p : Piece) (result : Option (List Piece × List Char)) :
    Option (List Piece × List Char) :=
  result.map fun (ps, rest) => (p :: ps, rest)

/-- Read a text after its opening quote. -/
def readPieces : List Char → Option (List Piece × List Char)
  | [] => none
  | '\x22' :: rest => some ([], rest)
  | '\\' :: 'u' :: a :: b :: c :: d :: rest =>
    match unit? a b c d with
    | some code => before (.unit code) (readPieces rest)
    | none => none
  | '\\' :: c :: rest =>
    match escapeOf? c with
    | some c => before (.escaped c) (readPieces rest)
    | none => none
  | c :: rest =>
    if c == '\\' || c.toNat < 32 then none else before (.plain c) (readPieces rest)

/-! ## Terms as they are written -/

/-- The characters after a given beginning. -/
def expect : List Char → List Char → Option (List Char)
  | [], cs => some cs
  | e :: es, c :: cs => if e = c then expect es cs else none
  | _ :: _, [] => none

/-- Read a term that has no parts. -/
def readScalar (cs : List Char) : Option (Term × List Char) :=
  match cs with
  | 'n' :: _ => (expect ['n', 'u', 'l', 'l'] cs).map fun rest => (.null, rest)
  | 't' :: _ => (expect ['t', 'r', 'u', 'e'] cs).map fun rest => (.bool true, rest)
  | 'f' :: _ => (expect ['f', 'a', 'l', 's', 'e'] cs).map fun rest => (.bool false, rest)
  | '\x22' :: cs => (readPieces cs).map fun (pieces, rest) => (.text pieces, rest)
  | cs => (readNumeral cs).map fun (numeral, rest) => (.number numeral, rest)

/-- Read the items of a list, of which there is at least one, and the closing bracket. -/
def readItems (read : List Char → Option (Term × List Char)) :
    (fuel : Nat) → List Char → Option (List Term × List Char)
  | 0, _ => none
  | fuel + 1, cs => do
    let (item, cs) ← read (skip cs)
    match skip cs with
    | ',' :: cs => do
      let (items, rest) ← readItems read fuel cs
      return (item :: items, rest)
    | ']' :: rest => return ([item], rest)
    | _ => none

/-- Read fields, of which there is at least one, and the closing brace. -/
def readFields (read : List Char → Option (Term × List Char)) :
    (fuel : Nat) → List Char → Option (List (List Piece × Term) × List Char)
  | 0, _ => none
  | fuel + 1, cs => do
    let cs ← expect ['\x22'] (skip cs)
    let (name, cs) ← readPieces cs
    let cs ← expect [':'] (skip cs)
    let (value, cs) ← read (skip cs)
    match skip cs with
    | ',' :: cs => do
      let (entries, rest) ← readFields read fuel cs
      return ((name, value) :: entries, rest)
    | '\x7d' :: rest => return ([(name, value)], rest)
    | _ => none

/-- Read a term in which lists and fields are nested at most so deep. -/
def readTerm : (nesting : Nat) → List Char → Option (Term × List Char)
  | 0, cs => readScalar cs
  | nesting + 1, cs =>
    match cs with
    | '[' :: cs =>
      match skip cs with
      | ']' :: rest => some (.list [], rest)
      | cs =>
        (readItems (readTerm nesting) (cs.length + 1) cs).map fun (items, rest) =>
          (.list items, rest)
    | '\x7b' :: cs =>
      match skip cs with
      | '\x7d' :: rest => some (.fields [], rest)
      | cs =>
        (readFields (readTerm nesting) (cs.length + 1) cs).map fun (entries, rest) =>
          (.fields entries, rest)
    | cs => readScalar cs

/-- The term that a text is. -/
def parseTerm (text : String) : Option Term := do
  let cs := text.toList
  let (term, rest) ← readTerm cs.length (skip cs)
  if (skip rest).isEmpty then some term else none

end Json
end CelTyping
