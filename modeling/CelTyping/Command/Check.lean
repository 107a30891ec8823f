import CelTyping.Check.Walk
import CelTyping.Command.Input
import CelTyping.Command.Styled
import CelTyping.Diagnostic.Rendering
import CelTyping.Document.Json.Writing

/-!
# The check command

Checks a parsed expression against the environment of a configuration and says what was found:
as diagnostics and a summary for people, or as one document for tools.
-/

namespace CelTyping

/-- What a command printed, and whether all was well. -/
structure Outcome where
  /-- Whether all was well. -/
  isOk : Bool
  /-- What it printed. -/
  output : String
  /-- What it printed about errors. -/
  errors : String
  deriving DecidableEq

/-- How a check is reported. -/
inductive ReportFormat where
  /-- For people; with `showTypes` the types of all nodes come first. -/
  | human (showTypes coloured : Bool)
  /-- For tools. -/
  | document
  deriving DecidableEq

namespace Reference

/-- A reference as a document; parts that are empty are left out. -/
def encode (r : Reference) : Document :=
  .fields ((if r.name.isEmpty then [] else [("name", .text r.name)]) ++
    (if r.overloads.isEmpty then [] else [("overload_ids", .list (r.overloads.map .text))]) ++
    (r.value.map fun v => ("value", v.encode)).toList)

/-- A reference in the list of types. -/
def brief (r : Reference) : String :=
  if r.name.isEmpty then " | ".intercalate r.overloads else r.name

end Reference

namespace CheckResult

/-- The entries of a table in the order of their nodes. -/
def byNode {α : Type} (t : Table NodeId α) : List (NodeId × α) :=
  t.entries.mergeSort fun a b => decide (a.1.toInt ≤ b.1.toInt)

/-- A text on the right of so many places. -/
def alignRight (width : Nat) (text : String) : String :=
  String.ofList (List.replicate (width - text.length) ' ') ++ text

/-- The line of a node in the list of types. -/
def typeLine (r : CheckResult) (id : NodeId) (t : Ty) : List Piece :=
  [.dim (alignRight 6 (toString id.toInt)), .plain ("  " ++ t.display)] ++
    ((r.references.find? id).map fun ref => Piece.info ("  -> " ++ ref.brief)).toList ++
    [.newline]

/-- The last line: the type of the expression, or the number of errors in it. -/
def summary (r : CheckResult) (name : String) : List Piece :=
  if r.isOk then
    [.success "ok", .plain ": ", .bold ((r.resultType?.map Ty.display).getD "<untyped>"), .newline]
  else
    [.error "error",
      .plain (": " ++ toString (r.report.kept.length + r.report.dropped) ++ " diagnostic(s) in " ++
        name), .newline]

/-- What is printed for people. -/
def pieces (r : CheckResult) (name : String) (showTypes : Bool) : List Piece :=
  (if showTypes then (byNode r.types).flatMap fun (id, t) => r.typeLine id t else []) ++
    r.summary name

/-- The diagnostics of a check of a file. -/
def diagnostics (r : CheckResult) (file : SourceFile) : List Diagnostic :=
  Diagnostic.ofReport 0 file.text.utf8ByteSize r.report

/-- What is printed for tools. -/
def toDocument (r : CheckResult) (file : SourceFile) : Document :=
  .fields [("ok", .bool r.isOk),
    ("result_type", (r.resultType?.map fun t => .text t.display).getD .null),
    ("types", .fields ((byNode r.types).map fun (id, t) => (toString id.toInt, .text t.display))),
    ("references", .fields ((byNode r.references).map fun (id, ref) =>
      (toString id.toInt, ref.encode))),
    ("diagnostics",
      .list ((r.diagnostics file).map (Diagnostic.toDocument SourceFile.locate? [file]))),
    ("truncated", .int r.report.dropped)]

/-- What a check prints. -/
def outcome (r : CheckResult) (file : SourceFile) : ReportFormat → Outcome
  | .human showTypes coloured =>
    ⟨r.isOk, Piece.renderAll coloured (r.pieces file.name showTypes),
      (Diagnostic.renderAll? [file] (r.diagnostics file)).getD ""⟩
  | .document => ⟨r.isOk, Json.pretty "" (r.toDocument file) ++ "\n", ""⟩

end CheckResult

/-- Check the expression of a file against the environment of a configuration. -/
def checkCommand (config : Option GivenFile) (input : GivenFile) (format : ReportFormat) :
    Except CommandError Outcome := do
  let (env, store) ← loadEnv config
  let parsed ← ParsedInput.load input
  let source := ParsedInput.sourceOf input.path parsed.source parsed.positions
  let (result, _) := check env store source parsed.expr
  return result.outcome ⟨input.path, parsed.source⟩ format

end CelTyping
