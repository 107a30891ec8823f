import CelTyping.Command.Check
import CelTyping.Command.Listing

/-!
# The command line

`check INPUT [--config FILE] [--format human|json] [--show-types]` checks a parsed expression, and
`env [--config FILE] [FILTER]` lists the declarations of an environment.  With either, `--color`
is `always`, `never` or `auto`.  A check that finds errors ends with status 1.
-/

namespace CelTyping
namespace CommandLine

/-- When to use colours. -/
inductive ColourChoice where
  /-- On terminals only. -/
  | auto
  | always
  | never

/-- What the words of a command line ask for. -/
structure Request where
  /-- The words that are not options. -/
  words : List String
  /-- The path of the configuration. -/
  config : Option String
  /-- Whether the report is for tools. -/
  asDocument : Bool
  /-- Whether to print the types of all nodes. -/
  showTypes : Bool
  /-- When to use colours. -/
  colour : ColourChoice

namespace Request

/-- The request of no words. -/
def empty : Request := ⟨[], none, false, false, .auto⟩

/-- Whether a word is an option. -/
def isOption (word : String) : Bool := word.toList.head? == some '-'

/-- Read the words of a command line. -/
def parse : Request → List String → Option Request
  | r, [] => some { r with words := r.words.reverse }
  | r, "--show-types" :: rest => parse { r with showTypes := true } rest
  | r, "-c" :: path :: rest => parse { r with config := some path } rest
  | r, "--config" :: path :: rest => parse { r with config := some path } rest
  | r, "-f" :: "json" :: rest => parse { r with asDocument := true } rest
  | r, "--format" :: "json" :: rest => parse { r with asDocument := true } rest
  | r, "-f" :: "human" :: rest => parse { r with asDocument := false } rest
  | r, "--format" :: "human" :: rest => parse { r with asDocument := false } rest
  | r, "--color" :: "always" :: rest => parse { r with colour := .always } rest
  | r, "--color" :: "never" :: rest => parse { r with colour := .never } rest
  | r, "--color" :: _ :: rest => parse { r with colour := .auto } rest
  | r, word :: rest =>
    if isOption word then none else parse { r with words := word :: r.words } rest

end Request

/-- How to use the program. -/
def usage : String :=
  "usage: check INPUT [--config FILE] [--format human|json] [--show-types] [--color WHEN]\n" ++
    "       env [--config FILE] [--color WHEN] [FILTER]"

/-- Read a file that a command was given. -/
def readGiven (path : String) : IO GivenFile := do
  try
    let contents ← IO.FS.readFile path
    return ⟨path, some contents⟩
  catch _ => return ⟨path, none⟩

/-- Whether to print colours. -/
def isColoured (choice : ColourChoice) : IO Bool := do
  if (← IO.getEnv "NO_COLOR").isSome then return false
  match choice with
  | .always => return true
  | .never => return false
  | .auto => (← IO.getStdout).isTty

/-- Say why a command cannot do its work. -/
def failWith (e : CommandError) : IO UInt32 := do
  IO.eprintln ("Error: " ++ e.message)
  return 1

/-- Carry out a request. -/
def run (r : Request) : IO UInt32 := do
  let config ← r.config.mapM readGiven
  let coloured ← isColoured r.colour
  match r.words with
  | ["check", path] =>
    let input ← readGiven path
    let format := if r.asDocument then .document else .human r.showTypes coloured
    match checkCommand config input format with
    | .ok outcome =>
      IO.eprint outcome.errors
      IO.print outcome.output
      return if outcome.isOk then 0 else 1
    | .error e => failWith e
  | "env" :: filter =>
    if filter.length ≤ 1 then
      match listCommand config filter.head? coloured with
      | .ok text =>
        IO.print text
        return 0
      | .error e => failWith e
    else
      IO.eprintln usage
      return 2
  | _ =>
    IO.eprintln usage
    return 2

end CommandLine
end CelTyping

/-- The program. -/
def main (args : List String) : IO UInt32 :=
  match CelTyping.CommandLine.Request.empty.parse args with
  | some r => CelTyping.CommandLine.run r
  | none => do
    IO.eprintln CelTyping.CommandLine.usage
    return 2
