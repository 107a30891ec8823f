import CelTyping.Document.Basic
import CelTyping.Expr.Basic

/-!
# Expression trees as documents

A node is written as fields: its `id`, and one field named for the sort of node whose value holds
the contents.  Writing puts down every part of the contents.  Reading takes flags, lists, the
receiver and the second variable of a comprehension to be absent when their fields are missing,
and ignores fields it does not know; a field it knows must not be repeated.

A node that was never set cannot be read back, unless the caller says that such nodes may occur.

Reading goes down into a document, so the height of the document bounds its depth.
-/

namespace CelTyping

namespace Document

mutual

/-- The number of levels of a document. -/
def height : Document → Nat
  | .list items => 1 + heights items
  | .fields entries => 1 + fieldHeights entries
  | _ => 1

/-- The greatest number of levels of a list of documents. -/
def heights : List Document → Nat
  | [] => 0
  | d :: rest => max d.height (heights rest)

/-- The greatest number of levels of a list of fields. -/
def fieldHeights : List (String × Document) → Nat
  | [] => 0
  | (_, d) :: rest => max d.height (fieldHeights rest)

end

end Document

open Document (required defaulted listOf orNull int64? int32? uint64? byte? text? bool?)

/-! ## Constants -/

namespace Constant

/-- A span of time or a point in time as a document. -/
def encodeTime (seconds : Int64) (nanos : Int32) : Document :=
  .fields [("seconds", .int seconds.toInt), ("nanos", .int nanos.toInt)]

/-- A constant as a document. -/
def encode : Constant → Document
  | null => .text "null"
  | bool b => .fields [("bool", .bool b)]
  | int i => .fields [("int", .int i.toInt)]
  | uint u => .fields [("uint", .int u.toNat)]
  | double d => .fields [("double", .double d)]
  | string s => .fields [("string", .text s)]
  | bytes bs => .fields [("bytes", .list (bs.map fun b => .int b.toNat))]
  | duration seconds nanos => .fields [("duration", encodeTime seconds nanos)]
  | timestamp seconds nanos => .fields [("timestamp", encodeTime seconds nanos)]

/-- The seconds and nanoseconds that a document holds; read loosely, they may stand in a list. -/
def decodeTime (loose : Bool) (d : Document) : Option (Int64 × Int32) := do
  let entries ← if loose then d.record? false ["seconds", "nanos"] else d.fields?
  let seconds ← required int64? entries "seconds"
  let nanos ← required int32? entries "nanos"
  return (seconds, nanos)

/-- Whether a document says nothing; read loosely, a record without fields says nothing. -/
def isNothing (loose : Bool) : Document → Bool
  | .null => true
  | .fields [] => loose
  | _ => false

/-- The constant that a document stands for.  Inside a tree constants are read loosely. -/
def decode (loose : Bool) : Document → Option Constant
  | .text "null" => some null
  | .fields [(name, d)] =>
    if name = "null" then if isNothing loose d then some null else none
    else if name = "bool" then d.bool?.map bool
    else if name = "int" then d.int64?.map int
    else if name = "uint" then d.uint64?.map uint
    else if name = "double" then d.double?.map double
    else if name = "string" then d.text?.map string
    else if name = "bytes" then (listOf byte? d).map bytes
    else if name = "duration" then (decodeTime loose d).map fun t => duration t.1 t.2
    else if name = "timestamp" then (decodeTime loose d).map fun t => timestamp t.1 t.2
    else none
  | _ => none

end Constant

/-! ## Writing trees -/

namespace Expr

/-- A text, or nothing. -/
def encodeName? : Option String → Document
  | none => .null
  | some name => .text name

mutual

/-- A tree as a document. -/
def encode : Expr → Document
  | unset id => .fields [("id", .int id.toInt), ("not_set", .null)]
  | const id value => .fields [("id", .int id.toInt), ("const", value.encode)]
  | ident id name => .fields [("id", .int id.toInt), ("ident", .fields [("name", .text name)])]
  | select id operand field testOnly optional =>
    .fields [("id", .int id.toInt),
      ("select", .fields [("operand", operand.encode), ("field", .text field),
        ("test_only", .bool testOnly), ("optional", .bool optional)])]
  | call id function target args =>
    .fields [("id", .int id.toInt),
      ("call", .fields [("function", .text function), ("target", encodeTarget target),
        ("args", .list (encodeAll args))])]
  | list id elements optionalIndices =>
    .fields [("id", .int id.toInt),
      ("list", .fields [("elements", .list (encodeAll elements)),
        ("optional_indices", .list (optionalIndices.map fun i => .int i.toNat))])]
  | map id entries =>
    .fields [("id", .int id.toInt), ("map", .fields [("entries", .list (encodeEntries entries))])]
  | struct id messageName fields =>
    .fields [("id", .int id.toInt),
      ("struct", .fields [("message_name", .text messageName),
        ("fields", .list (encodeFields fields))])]
  | comprehension id iterRange iterVar iterVar2 accuVar accuInit loopCondition loopStep result =>
    .fields [("id", .int id.toInt),
      ("comprehension", .fields [("iter_range", iterRange.encode), ("iter_var", .text iterVar),
        ("iter_var2", encodeName? iterVar2), ("accu_var", .text accuVar),
        ("accu_init", accuInit.encode), ("loop_condition", loopCondition.encode),
        ("loop_step", loopStep.encode), ("result", result.encode)])]

/-- A receiver, or nothing. -/
def encodeTarget : Option Expr → Document
  | none => .null
  | some e => e.encode

/-- Trees as documents. -/
def encodeAll : List Expr → List Document
  | [] => []
  | e :: rest => e.encode :: encodeAll rest

/-- Entries of a map literal as documents. -/
def encodeEntries : List MapEntry → List Document
  | [] => []
  | ⟨id, key, value, optional⟩ :: rest =>
    .fields [("id", .int id.toInt), ("key", key.encode), ("value", value.encode),
      ("optional", .bool optional)] :: encodeEntries rest

/-- Initializers of a message literal as documents. -/
def encodeFields : List FieldInit → List Document
  | [] => []
  | ⟨id, field, value, optional⟩ :: rest =>
    .fields [("id", .int id.toInt), ("field", .text field), ("value", value.encode),
      ("optional", .bool optional)] :: encodeFields rest

end

/-! ## Reading trees -/

/-- The names of the fields that hold the contents of a node. -/
def contentNames : List String :=
  ["const", "ident", "select", "call", "list", "map", "struct", "comprehension"]

/-- The names of the fields of the contents of a node other than a literal. -/
def bodyNames (name : String) : List String :=
  if name = "ident" then ["name"]
  else if name = "select" then ["operand", "field", "test_only", "optional"]
  else if name = "call" then ["function", "target", "args"]
  else if name = "list" then ["elements", "optional_indices"]
  else if name = "map" then ["entries"]
  else if name = "struct" then ["message_name", "fields"]
  else
    ["iter_range", "iter_var", "iter_var2", "accu_var", "accu_init", "loop_condition", "loop_step",
      "result"]

/-- Read an entry of a map literal, with a way to read trees. -/
def decodeEntry (read : Document → Option Expr) (d : Document) : Option MapEntry := do
  let entries ← d.record? false ["id", "key", "value", "optional"]
  let id ← required int64? entries "id"
  let key ← required read entries "key"
  let value ← required read entries "value"
  let optional ← defaulted bool? false entries "optional"
  return ⟨id, key, value, optional⟩

/-- Read an initializer of a message literal, with a way to read trees. -/
def decodeField (read : Document → Option Expr) (d : Document) : Option FieldInit := do
  let entries ← d.record? false ["id", "field", "value", "optional"]
  let id ← required int64? entries "id"
  let field ← required text? entries "field"
  let value ← required read entries "value"
  let optional ← defaulted bool? false entries "optional"
  return ⟨id, field, value, optional⟩

/-- Read the contents of a node other than a literal, with a way to read trees. -/
def decodeContents (read : Document → Option Expr) (id : NodeId) (name : String)
    (body : List (String × Document)) : Option Expr :=
  if name = "ident" then do
    let name ← required text? body "name"
    return ident id name
  else if name = "select" then do
    let operand ← required read body "operand"
    let field ← required text? body "field"
    let testOnly ← defaulted bool? false body "test_only"
    let optional ← defaulted bool? false body "optional"
    return select id operand field testOnly optional
  else if name = "call" then do
    let function ← required text? body "function"
    let target ← defaulted (orNull read) none body "target"
    let args ← defaulted (listOf read) [] body "args"
    return call id function target args
  else if name = "list" then do
    let elements ← defaulted (listOf read) [] body "elements"
    let optionalIndices ← defaulted (listOf uint64?) [] body "optional_indices"
    return list id elements optionalIndices
  else if name = "map" then do
    let entries ← defaulted (listOf (decodeEntry read)) [] body "entries"
    return map id entries
  else if name = "struct" then do
    let messageName ← required text? body "message_name"
    let fields ← defaulted (listOf (decodeField read)) [] body "fields"
    return struct id messageName fields
  else if name = "comprehension" then do
    let iterRange ← required read body "iter_range"
    let iterVar ← required text? body "iter_var"
    let iterVar2 ← defaulted (orNull text?) none body "iter_var2"
    let accuVar ← required text? body "accu_var"
    let accuInit ← required read body "accu_init"
    let loopCondition ← required read body "loop_condition"
    let loopStep ← required read body "loop_step"
    let result ← required read body "result"
    return comprehension id iterRange iterVar iterVar2 accuVar accuInit loopCondition loopStep
      result
  else none

/-- Read a tree of bounded depth.  The first field with the name of some contents decides what
the node is; with `allowUnset` a node may also say that it was never set. -/
def decodeWithin (allowUnset : Bool) : (depth : Nat) → Document → Option Expr
  | 0, _ => none
  | depth + 1, d => do
    let entries ← d.fields?
    let id ← required int64? entries "id"
    let isContents (e : String × Document) : Bool :=
      contentNames.contains e.1 || (allowUnset && e.1 == "not_set")
    let (name, body) ← entries.find? isContents
    if name = "not_set" then
      match body with
      | .null => return unset id
      | _ => none
    else if name = "const" then
      let value ← Constant.decode true body
      return const id value
    else
      let body ← body.record? false (bodyNames name)
      decodeContents (decodeWithin allowUnset depth) id name body

/-- The tree that a document stands for. -/
def decode (allowUnset : Bool) (d : Document) : Option Expr := decodeWithin allowUnset d.height d

end Expr
end CelTyping
