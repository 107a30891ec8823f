import CelTyping.Text.Characters

/-!
# TOML lines, texts and keys

The parts of a TOML text that are the same everywhere: blanks, comments and line ends, texts
between quotes, and keys.

A text stands between double quotes, in which a backslash escapes, or between single quotes, in
which nothing does.  Three quotes instead of one begin a text that may go over several lines; a
line end right after them does not count, and one or two quotes may stand before the closing ones.

As for JSON, reading goes from the characters that are left to a result and the characters after
it.
-/

namespace CelTyping
namespace Toml

open Text (valueToBase?)

/-! ## Lines -/

/-- Whether a character is a blank. -/
def isBlank (c : Char) : Bool := c == ' ' || c == '\t'

/-- The characters after the blanks of a line. -/
def skipBlanks (cs : List Char) : List Char := cs.dropWhile isBlank

/-- Whether a character may stand in a comment or a text. -/
def isPlain (c : Char) : Bool := c == '\t' || (' ' ≤ c && c != '\x7f')

/-- The characters after blanks and a comment. -/
def skipComment (cs : List Char) : List Char :=
  match skipBlanks cs with
  | '#' :: rest => rest.dropWhile isPlain
  | rest => rest

/-- The characters after a line end, if there is one. -/
def newline? : List Char → Option (List Char)
  | '\n' :: rest => some rest
  | '\r' :: '\n' :: rest => some rest
  | _ => none

/-- The characters of the next lines, if nothing but a comment is left of this one. -/
def endLine (cs : List Char) : Option (List Char) :=
  match skipComment cs with
  | [] => some []
  | rest => newline? rest

/-- The characters after blanks, comments and line ends. -/
def skipLines : (fuel : Nat) → List Char → List Char
  | 0, cs => cs
  | fuel + 1, cs =>
    match newline? (skipComment cs) with
    | some rest => skipLines fuel rest
    | none => skipComment cs

/-- The characters after blanks and line ends. -/
def skipBreaks : (fuel : Nat) → List Char → List Char
  | 0, cs => cs
  | fuel + 1, cs =>
    match newline? (skipBlanks cs) with
    | some rest => skipBreaks fuel rest
    | none => skipBlanks cs

/-! ## Texts -/

/-- Read so many hexadecimal digits of a character. -/
def readCode (digits : Nat) (cs : List Char) : Option (Char × List Char) :=
  let code := cs.take digits
  if code.length = digits then do
    let n ← valueToBase? 16 code
    if n.isValidChar then some (Char.ofNat n, cs.drop digits) else none
  else none

/-- Read what a backslash stands before. -/
def readEscape : List Char → Option (Char × List Char)
  | 'b' :: rest => some ('\x08', rest)
  | 't' :: rest => some ('\t', rest)
  | 'n' :: rest => some ('\n', rest)
  | 'f' :: rest => some ('\x0c', rest)
  | 'r' :: rest => some ('\r', rest)
  | '"' :: rest => some ('"', rest)
  | '\\' :: rest => some ('\\', rest)
  | 'u' :: rest => readCode 4 rest
  | 'U' :: rest => readCode 8 rest
  | _ => none

/-- Put a character before the characters that were read. -/
def prepend (c : Char) (result : Option (List Char × List Char)) :
    Option (List Char × List Char) :=
  result.map fun (cs, rest) => (c :: cs, rest)

/-- Read a text of one line after its opening quote; `escapes` tells whether a backslash
escapes. -/
def readShort (quote : Char) (escapes : Bool) :
    (fuel : Nat) → List Char → Option (List Char × List Char)
  | 0, _ => none
  | _, [] => none
  | fuel + 1, c :: rest =>
    if c = quote then some ([], rest)
    else if c = '\\' ∧ escapes then do
      let (c, rest) ← readEscape rest
      prepend c (readShort quote escapes fuel rest)
    else if isPlain c then prepend c (readShort quote escapes fuel rest)
    else none

/-- The text before the closing quotes of a text of several lines, given what follows three
quotes: up to two quotes more belong to it. -/
def closeLong (quote : Char) : List Char → List Char × List Char
  | a :: b :: rest =>
    if a = quote ∧ b = quote then ([quote, quote], rest)
    else if a = quote then ([quote], b :: rest)
    else ([], a :: b :: rest)
  | [a] => if a = quote then ([quote], []) else ([], [a])
  | [] => ([], [])

/-- Read a text of several lines after its opening quotes.  A backslash at the end of a line takes
away all blanks and line ends up to the next character. -/
def readLong (quote : Char) (escapes : Bool) :
    (fuel : Nat) → List Char → Option (List Char × List Char)
  | 0, _ => none
  | _, [] => none
  | fuel + 1, c :: rest =>
    if [quote, quote, quote].isPrefixOf (c :: rest) then
      some (closeLong quote (rest.drop 2))
    else if c = '\\' ∧ escapes then
      match newline? (skipBlanks rest) with
      | some next => readLong quote escapes fuel (skipBreaks (next.length + 1) next)
      | none => do
        let (c, rest) ← readEscape rest
        prepend c (readLong quote escapes fuel rest)
    else
      match newline? (c :: rest) with
      | some next => prepend '\n' (readLong quote escapes fuel next)
      | none => if isPlain c then prepend c (readLong quote escapes fuel rest) else none

/-- Read a text of one line after its opening quote. -/
def readLine (quote : Char) (cs : List Char) : Option (String × List Char) :=
  (readShort quote (quote = '"') (cs.length + 1) cs).map fun (cs, rest) => (String.ofList cs, rest)

/-- Read a text after its opening quote. -/
def readQuoted (quote : Char) (cs : List Char) : Option (String × List Char) :=
  if [quote, quote].isPrefixOf cs then
    let body := cs.drop 2
    let body := (newline? body).getD body
    (readLong quote (quote = '"') (body.length + 1) body).map fun (cs, rest) =>
      (String.ofList cs, rest)
  else readLine quote cs

/-! ## Keys -/

/-- Whether a character may stand in a key without quotes. -/
def isBare (c : Char) : Bool := c.isAlphanum || c == '_' || c == '-'

/-- Read one part of a key. -/
def readPart (cs : List Char) : Option (String × List Char) :=
  match cs with
  | '"' :: rest => readLine '"' rest
  | '\'' :: rest => readLine '\'' rest
  | cs =>
    if (cs.takeWhile isBare).isEmpty then none
    else some (String.ofList (cs.takeWhile isBare), cs.dropWhile isBare)

/-- Read the parts of a key, which have dots between them. -/
def readParts : (fuel : Nat) → List Char → Option (List String × List Char)
  | 0, _ => none
  | fuel + 1, cs => do
    let (part, rest) ← readPart (skipBlanks cs)
    match skipBlanks rest with
    | '.' :: rest =>
      let (parts, rest) ← readParts fuel rest
      return (part :: parts, rest)
    | rest => return ([part], rest)

/-- The number of parts that is too many for a key, and of levels that is too many for a value. -/
def tooDeep : Nat := 80

/-- Read a key. -/
def readKey (cs : List Char) : Option (List String × List Char) := do
  let (parts, rest) ← readParts (cs.length + 1) cs
  if parts.length < tooDeep then some (parts, rest) else none

end Toml
end CelTyping
