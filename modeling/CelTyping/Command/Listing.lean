import CelTyping.Command.Input
import CelTyping.Command.Styled
import CelTyping.Ty.Printing

/-!
# The listing command

Lists the identifiers and functions that can be seen in the environment of a configuration, or
only the functions whose names contain a text.
-/

namespace CelTyping

namespace Overload

/-- The types of the arguments of an overload, that of a receiver in front. -/
def signature (o : Overload) : String :=
  match o.isMember, o.args with
  | true, [] => "()"
  | true, receiver :: rest =>
    receiver.display ++ ".(" ++ ", ".intercalate (rest.map Ty.display) ++ ")"
  | false, args => "(" ++ ", ".intercalate (args.map Ty.display) ++ ")"

end Overload

namespace Env

/-- The line of an identifier. -/
def identLine (v : Variable) : List Piece :=
  [.plain ("  " ++ v.name), .dim (": " ++ v.ty.display), .newline]

/-- The line of an overload. -/
def overloadLine (env : Env) (o : Overload) : List Piece :=
  [.plain ("    " ++ o.id ++ " " ++ o.signature ++ " -> " ++ o.result.display)] ++
    (if env.isOverloadDisabled o.id then [.warning " (disabled)"] else []) ++ [.newline]

/-- The lines of a function. -/
def functionLines (env : Env) (f : FunctionDecl) : List Piece :=
  [.info ("  " ++ f.name), .newline] ++ f.overloads.flatMap env.overloadLine

/-- Whether a text occurs in another one. -/
def occursIn (part : List Char) : List Char → Bool
  | [] => part.isEmpty
  | c :: rest => part.isPrefixOf (c :: rest) || occursIn part rest

/-- The list of the declarations of an environment. -/
def listing (env : Env) (store : Store) (filter : Option String) : List Piece :=
  let heading (text : String) : List Piece := [.bold text, .newline]
  let functions : List FunctionDecl := match filter with
    | some part => (env.functions store).filter fun f => occursIn part.toList f.name.toList
    | none => env.functions store
  (if filter.isSome then []
    else heading "Identifiers" ++ (env.idents store).flatMap identLine ++ [.newline]) ++
    heading "Functions" ++ functions.flatMap env.functionLines

end Env

/-- List the declarations of the environment of a configuration. -/
def listCommand (config : Option GivenFile) (filter : Option String) (coloured : Bool) :
    Except CommandError String := do
  let (env, store) ← loadEnv config
  return Piece.renderAll coloured (env.listing store filter)

end CelTyping
