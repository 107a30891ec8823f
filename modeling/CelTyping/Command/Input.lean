import CelTyping.Config.Build
import CelTyping.Document.Json.Meaning
import CelTyping.Expr.Codec
import CelTyping.Source

/-!
# The input of commands

Commands read two files: an environment configuration in TOML, which may be left out, and a
parsed expression in JSON, which holds the tree, the text it was parsed from and the positions of
the nodes in that text.  Other fields beside these three are passed over as they are written,
whether they stand for anything or not.
-/

namespace CelTyping

open Document (required defaulted mapOf text? uint64?)

/-- A file that a command was given, with its contents if it could be read. -/
structure GivenFile where
  /-- The path. -/
  path : String
  /-- The contents. -/
  contents : Option String

/-- Why a command cannot do its work. -/
inductive CommandError where
  /-- The configuration cannot be read or makes no sense. -/
  | unusableConfig (path : String)
  /-- The configuration describes no environment. -/
  | invalidConfig (cause : ConfigError)
  /-- The expression cannot be read. -/
  | unreadableInput (path : String)
  /-- The expression makes no sense. -/
  | malformedInput (path : String)

/-- What an error says. -/
def CommandError.message : CommandError → String
  | .unusableConfig path => "Failed to load config " ++ path
  | .invalidConfig cause => cause.message
  | .unreadableInput path => "Failed to read " ++ path
  | .malformedInput path => "Failed to parse expression tree in " ++ path

/-! ## Configurations -/

/-- The environment that a configuration file describes; without one, the standard one. -/
def loadEnv (config : Option GivenFile) : Except CommandError (Env × Store) := do
  let c ← match config with
    | none => .ok EnvConfig.standard
    | some file =>
      match file.contents.bind EnvConfig.parse with
      | some c => .ok c
      | none => .error (.unusableConfig file.path)
  c.build.mapError .invalidConfig

/-! ## Expressions -/

/-- A parsed expression. -/
structure ParsedInput where
  /-- The text it was parsed from. -/
  source : String
  /-- The offsets of the nodes in the text. -/
  positions : List (NodeId × UInt64)
  /-- The tree. -/
  expr : Expr

namespace ParsedInput

/-- The node id that a decimal number spells. -/
def nodeId? (text : String) : Option NodeId :=
  match Json.readNumeral text.toList with
  | some (n, []) => n.toDocument?.bind Document.int64?
  | _ => none

/-- The offsets of nodes that a document lists by their ids. -/
def decodePositions (d : Document) : Option (List (NodeId × UInt64)) := do
  let entries ← mapOf uint64? d
  entries.mapM fun (name, offset) => (nodeId? name).map fun id => (id, offset)

/-- Decode a field of the outermost record. -/
def fieldValue {α : Type} (decode : Document → Option α) (t : Json.Term) : Option α :=
  (t.toDocument? (Json.greatestDepth - 1)).bind decode

/-- The offsets of nodes that fields list by their ids, which are written without escapes. -/
def readPositions : Json.Term → Option (List (NodeId × UInt64))
  | .fields entries => entries.mapM fun (name, t) => do
    let id ← (Json.plainTextOf? name).bind nodeId?
    let offset ← fieldValue uint64? t
    return (id, offset)
  | _ => none

/-- The parsed expression that a term holds. -/
def ofTerm (t : Json.Term) : Option ParsedInput := do
  let entries ← t.record? ["source", "positions", "expr"]
  let source ← defaulted (fieldValue text?) "" entries "source"
  let positions ← defaulted readPositions [] entries "positions"
  let expr ← required (fieldValue (Expr.decode false)) entries "expr"
  return ⟨source, positions, expr⟩

/-- The source of a text in which nodes have positions. -/
def sourceOf (name text : String) (positions : List (NodeId × UInt64)) : Source :=
  positions.foldl (fun s p => s.setPosition p.1 p.2) (.ofText name text)

/-- Read a parsed expression from a file. -/
def load (file : GivenFile) : Except CommandError ParsedInput :=
  match file.contents with
  | none => .error (.unreadableInput file.path)
  | some text =>
    match (Json.parseTerm text).bind ofTerm with
    | some input => .ok input
    | none => .error (.malformedInput file.path)

end ParsedInput
end CelTyping
