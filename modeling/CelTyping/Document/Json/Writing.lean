import CelTyping.Document.Basic
import CelTyping.Decimal.Shortest

/-!
# Writing JSON

The JSON form of documents as text, on one line or with one item or field a line.  Only the quote,
the backslash and the control characters are escaped, and numbers that are not integers have the
fewest digits that read back.
-/

namespace CelTyping
namespace Json

/-- A character as it stands in a text. -/
def escape (c : Char) : List Char :=
  if c == '\x22' then ['\\', '\x22']
  else if c == '\\' then ['\\', '\\']
  else if c == '\x08' then ['\\', 'b']
  else if c == '\x0c' then ['\\', 'f']
  else if c == '\n' then ['\\', 'n']
  else if c == '\r' then ['\\', 'r']
  else if c == '\t' then ['\\', 't']
  else if c.toNat < 32 then
    ['\\', 'u', '0', '0', Nat.digitChar (c.toNat / 16), Nat.digitChar (c.toNat % 16)]
  else [c]

/-- A text with its quotes. -/
def quote (s : String) : String :=
  String.ofList ('\x22' :: s.toList.flatMap escape ++ ['\x22'])

/-- A number that is no integer; one that is not finite has no JSON form. -/
def number (d : Double) : String :=
  if d.isNaN || d.isInfinite then "null" else Decimal.render Decimal.documentLayout d

mutual

/-- A document as text without white space. -/
def compact : Document → String
  | .null => "null"
  | .bool true => "true"
  | .bool false => "false"
  | .int i => toString i
  | .double d => number d
  | .text s => quote s
  | .list items => "[" ++ ",".intercalate (compactItems items) ++ "]"
  | .fields entries => "\x7b" ++ ",".intercalate (compactFields entries) ++ "\x7d"

/-- The items of a list as texts without white space. -/
def compactItems : List Document → List String
  | [] => []
  | d :: rest => compact d :: compactItems rest

/-- Fields as texts without white space. -/
def compactFields : List (String × Document) → List String
  | [] => []
  | (name, d) :: rest => (quote name ++ ":" ++ compact d) :: compactFields rest

end

/-- The lines between two brackets, each two places further in. -/
def block (opening closing : String) (indent : String) (lines : List String) : String :=
  match lines with
  | [] => opening ++ closing
  | lines =>
    opening ++ "\n" ++ ",\n".intercalate (lines.map fun l => indent ++ "  " ++ l) ++ "\n" ++
      indent ++ closing

mutual

/-- A document as text with one item or field a line, after a given indentation. -/
def pretty (indent : String) : Document → String
  | .null => "null"
  | .bool true => "true"
  | .bool false => "false"
  | .int i => toString i
  | .double d => number d
  | .text s => quote s
  | .list items => block "[" "]" indent (prettyItems (indent ++ "  ") items)
  | .fields entries => block "\x7b" "\x7d" indent (prettyFields (indent ++ "  ") entries)

/-- The items of a list as indented texts. -/
def prettyItems (indent : String) : List Document → List String
  | [] => []
  | d :: rest => pretty indent d :: prettyItems indent rest

/-- Fields as indented texts. -/
def prettyFields (indent : String) : List (String × Document) → List String
  | [] => []
  | (name, d) :: rest => (quote name ++ ": " ++ pretty indent d) :: prettyFields indent rest

end

end Json
end CelTyping
