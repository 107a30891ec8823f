import CelTyping.Document.Toml.Value

/-!
# TOML texts

A TOML text is a list of statements, one a line: headers of tables, headers of items of arrays of
tables, and assignments of values to keys.  Carried out one after the other they build the
document that the text stands for.
-/

namespace CelTyping
namespace Toml

/-- A line that says something. -/
inductive Statement where
  /-- `[path]` -/
  | table (path : List String)
  /-- `[[path]]` -/
  | item (path : List String)
  /-- `path = value` -/
  | assign (path : List String) (value : Document)

/-! ## Reading -/

/-- Read the path of a header after its opening brackets, up to its closing brackets. -/
def readHeader (closing : List Char) (cs : List Char) : Option (List String × List Char) := do
  let (path, rest) ← readKey cs
  let rest := skipBlanks rest
  if closing.isPrefixOf rest then some (path, rest.drop closing.length) else none

/-- Read one statement, up to the end of its line. -/
def readStatement (cs : List Char) : Option (Statement × List Char) := do
  let (statement, rest) ← match cs with
    | '[' :: '[' :: rest => (readHeader [']', ']'] rest).map fun (p, rest) => (.item p, rest)
    | '[' :: rest => (readHeader [']'] rest).map fun (p, rest) => (.table p, rest)
    | cs =>
      (readAssignment (readValue (tooDeep - 1)) cs).map fun (p, d, rest) => (.assign p d, rest)
  let rest ← endLine rest
  return (statement, rest)

/-- Read all statements. -/
def readStatements : (fuel : Nat) → List Char → Option (List Statement)
  | 0, _ => none
  | fuel + 1, cs =>
    match skipLines (cs.length + 1) cs with
    | [] => some []
    | cs => do
      let (s, rest) ← readStatement cs
      let ss ← readStatements fuel rest
      return s :: ss

/-! ## Carrying out -/

/-- Carry out a statement: the table built so far and the path of the header above go to those
after it. -/
def step (state : Entries × List String) : Statement → Option (Entries × List String)
  | .table path => (changeHeader openTable path state.1).map fun root => (root, path)
  | .item path => (changeHeader openItem path state.1).map fun root => (root, path)
  | .assign path value =>
    (changeAt (assignPath value path) state.2 state.1).map fun root => (root, state.2)

/-- The characters after a byte order mark, if there is one. -/
def skipMark : List Char → List Char
  | c :: rest => if c = Char.ofNat 0xFEFF then rest else c :: rest
  | [] => []

/-- The document that a TOML text stands for. -/
def parse (text : String) : Option Document := do
  let statements ← readStatements (text.length + 1) (skipMark text.toList)
  let (root, _) ← statements.foldlM step ([], [])
  return .fields (fieldsOf root)

end Toml
end CelTyping
