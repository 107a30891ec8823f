import CelTyping.Document.Toml.Scalar
import CelTyping.Document.Toml.Table
import CelTyping.Document.Toml.Text

/-!
# TOML values

A value is a text, a number, a date, a truth value, an array or a table within a line.  An array
may go over several lines and have a comma after its last item; a table within a line may have
neither, and nothing can be added to it later.  Values are nested less than 80 levels deep.
-/

namespace CelTyping
namespace Toml

/-- Read the items of an array after its opening bracket, with a way to read values. -/
def readItems (read : List Char → Option (Document × List Char)) :
    (fuel : Nat) → List Char → Option (List Document × List Char)
  | 0, _ => none
  | fuel + 1, cs =>
    match skipLines (cs.length + 1) cs with
    | ']' :: rest => some ([], rest)
    | cs => do
      let (d, rest) ← read cs
      match skipLines (rest.length + 1) rest with
      | ',' :: rest =>
        let (ds, rest) ← readItems read fuel rest
        return (d :: ds, rest)
      | ']' :: rest => return ([d], rest)
      | _ => none

/-- Read a key, the equals sign and a value, with a way to read values. -/
def readAssignment (read : List Char → Option (Document × List Char)) (cs : List Char) :
    Option (List String × Document × List Char) := do
  let (path, rest) ← readKey cs
  let rest ← readMark '=' (skipBlanks rest)
  let (d, rest) ← read (skipBlanks rest)
  return (path, d, rest)

/-- Read the assignments of a table within a line, of which there is at least one, into what it
holds so far. -/
def readEntries (read : List Char → Option (Document × List Char)) :
    (fuel : Nat) → Entries → List Char → Option (Entries × List Char)
  | 0, _, _ => none
  | fuel + 1, entries, cs => do
    let (path, d, rest) ← readAssignment read cs
    let entries ← assignPath d path entries
    match skipBlanks rest with
    | ',' :: rest => readEntries read fuel entries rest
    | '\x7d' :: rest => return (entries, rest)
    | _ => none

/-- Read a value in which arrays and tables are nested at most so deep. -/
def readValue : (depth : Nat) → List Char → Option (Document × List Char)
  | _, '"' :: rest => (readQuoted '"' rest).map fun (s, rest) => (.text s, rest)
  | _, '\'' :: rest => (readQuoted '\'' rest).map fun (s, rest) => (.text s, rest)
  | 0, '[' :: _ => none
  | depth + 1, '[' :: rest =>
    (readItems (readValue depth) (rest.length + 1) rest).map fun (ds, rest) => (.list ds, rest)
  | 0, '\x7b' :: _ => none
  | depth + 1, '\x7b' :: rest =>
    match skipBlanks rest with
    | '\x7d' :: rest => some (.fields [], rest)
    | rest =>
      (readEntries (readValue depth) (rest.length + 1) [] rest).map fun (entries, rest) =>
        (.fields (fieldsOf entries), rest)
  | _, cs => readScalar cs

end Toml
end CelTyping
