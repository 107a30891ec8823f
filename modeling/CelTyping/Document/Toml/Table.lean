import CelTyping.Document.Basic

/-!
# TOML tables

The tables that a TOML text builds up.  A header opens a table, or a new item of an array of
tables, and the assignments below it go there.  Nothing may be said twice: a key has one value, a
table one header, and a table that came into being by the parts of a key has none.  A path that
goes through an array of tables goes through its last item.

An assignment whose key has several parts goes through tables without a header, and the one that
the last part belongs to must have come into being by the parts of a key as well.
-/

namespace CelTyping
namespace Toml

/-- How a table came into being. -/
inductive Origin where
  /-- A header of a table within it. -/
  | implied
  /-- The parts of a key. -/
  | dotted
  /-- A header of its own. -/
  | header
  deriving DecidableEq

/-- What stands under a key. -/
inductive Node where
  /-- A value. -/
  | value (d : Document)
  /-- A table. -/
  | table (origin : Origin) (entries : List (String × Node))
  /-- An array of tables. -/
  | tables (items : List (List (String × Node)))

/-- What stands under the keys of a table. -/
abbrev Entries := List (String × Node)

/-- Change what stands under a key, if it may be changed. -/
def change (key : String) (f : Option Node → Option Node) : Entries → Option Entries
  | [] => (f none).map fun n => [(key, n)]
  | (k, n) :: rest =>
    if k = key then (f (some n)).map fun n => (k, n) :: rest
    else (change key f rest).map fun rest => (k, n) :: rest

/-- Change the last table of an array. -/
def changeLast (f : Entries → Option Entries) (items : List Entries) : Option Node :=
  match items.getLast? with
  | some last => (f last).map fun last => .tables (items.dropLast ++ [last])
  | none => none

/-! ## Assignments -/

/-- Give a key its value. -/
def assignValue (d : Document) : Option Node → Option Node
  | none => some (.value d)
  | some _ => none

/-- Whether an assignment may go on in a table; `isLast` tells that the table is the one the value
goes to. -/
def admits (isLast : Bool) (origin : Origin) : Bool :=
  if isLast then origin = .dotted else origin ≠ .header

/-- Assign a value to a key with several parts, the last of which is given apart. -/
def assign (d : Document) (key : String) : (parents : List String) → Entries → Option Entries
  | [], entries => change key (assignValue d) entries
  | parent :: rest, entries =>
    change parent (fun
      | none => (assign d key rest []).map (.table .dotted)
      | some (.table origin entries) =>
        if admits rest.isEmpty origin then (assign d key rest entries).map (.table origin) else none
      | some (.tables items) => if rest.isEmpty then none else changeLast (assign d key rest) items
      | some (.value _) => none) entries

/-- Assign a value to a key with several parts. -/
def assignPath (d : Document) (path : List String) : Entries → Option Entries :=
  assign d (path.getLastD "") path.dropLast

/-! ## Headers -/

/-- Change the table at a path of headers; tables that are missing on the way are implied. -/
def changeAt (f : Entries → Option Entries) : (path : List String) → Entries → Option Entries
  | [], entries => f entries
  | key :: rest, entries =>
    change key (fun
      | none => (changeAt f rest []).map (.table .implied)
      | some (.table origin entries) => (changeAt f rest entries).map (.table origin)
      | some (.tables items) => changeLast (changeAt f rest) items
      | some (.value _) => none) entries

/-- Open the table of a header. -/
def openTable : Option Node → Option Node
  | none => some (.table .header [])
  | some (.table .implied entries) => some (.table .header entries)
  | some _ => none

/-- Open a new item of the array of a header. -/
def openItem : Option Node → Option Node
  | none => some (.tables [[]])
  | some (.tables items) => some (.tables (items ++ [[]]))
  | some _ => none

/-- Change what stands under the last part of a header. -/
def changeHeader (f : Option Node → Option Node) (path : List String) : Entries → Option Entries :=
  changeAt (change (path.getLastD "") f) path.dropLast

/-! ## Documents -/

mutual

/-- What stands under a key as a document. -/
def Node.toDocument : Node → Document
  | .value d => d
  | .table _ entries => .fields (fieldsOf entries)
  | .tables items => .list (itemsOf items)

/-- The entries of a table as fields. -/
def fieldsOf : List (String × Node) → List (String × Document)
  | [] => []
  | (k, n) :: rest => (k, n.toDocument) :: fieldsOf rest

/-- The items of an array of tables as documents. -/
def itemsOf : List (List (String × Node)) → List Document
  | [] => []
  | entries :: rest => .fields (fieldsOf entries) :: itemsOf rest

end

end Toml
end CelTyping
