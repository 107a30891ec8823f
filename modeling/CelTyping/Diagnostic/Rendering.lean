import CelTyping.Diagnostic.Basic
import CelTyping.Document.Basic

/-!
# Showing diagnostics

A diagnostic is shown together with the source lines of its labels, either as a document for
tools or as text for people.  How the place of an offset in a file is told is left open in the
document form (`Locator`).  Files are read with `SourceFile.locate?`: lines are cut after every
newline and count from one, and a column counts the characters of its line that end at or before
the offset, plus one.

The text form begins with the severity, the code and the message.  Below stands for every label a
snippet: the place, the source line behind a margin that is as wide as the line number, and the
label under the piece it marks.  The notes come last.  A control character takes no room on the
line, and a tab goes to the next multiple of four columns.
-/

namespace CelTyping

/-! ## Source files -/

/-- A line of a file, with its newline. -/
structure FileLine where
  /-- The number, counted from one. -/
  number : Nat
  /-- The offset at which the line starts. -/
  start : Nat
  /-- The characters of the line. -/
  chars : List Char

/-- A line and a column, both counted from one. -/
structure Place where
  /-- The line. -/
  line : Nat
  /-- The column. -/
  column : Nat
  deriving DecidableEq

/-- A source file. -/
structure SourceFile where
  /-- The name. -/
  name : String
  /-- The text. -/
  text : String

/-- A way to tell the place of an offset in a file, where there is one. -/
abbrev Locator := SourceFile → Nat → Option Place

namespace SourceFile

/-- Cut a text after every newline. -/
def splitLines : List Char → List (List Char)
  | [] => [[]]
  | c :: rest =>
    if c = '\n' then [c] :: splitLines rest
    else
      match splitLines rest with
      | [] => [[c]]
      | line :: lines => (c :: line) :: lines

/-- The number of bytes of a text. -/
def byteLength : List Char → Nat
  | [] => 0
  | c :: rest => c.utf8Size + byteLength rest

/-- Number lines from a number on, the first of which starts at an offset. -/
def numberLines : (number start : Nat) → List (List Char) → List FileLine
  | _, _, [] => []
  | number, start, line :: rest =>
    ⟨number, start, line⟩ :: numberLines (number + 1) (start + byteLength line) rest

/-- The lines of a file; there is always at least one. -/
def lines (f : SourceFile) : List FileLine := numberLines 1 0 (splitLines f.text.toList)

/-- The last line that starts at or before an offset. -/
def lineAt (f : SourceFile) (offset : Nat) : FileLine :=
  ((f.lines.takeWhile fun l => l.start ≤ offset).getLast?).getD ⟨1, 0, []⟩

/-- The number of characters of a text starting at one offset that end at or before another. -/
def charsUpTo (offset : Nat) : (start : Nat) → List Char → Nat
  | _, [] => 0
  | start, c :: rest =>
    let next := start + c.utf8Size
    if next ≤ offset then charsUpTo offset next rest + 1 else 0

/-- The line and column of an offset. -/
def locate (f : SourceFile) (offset : Nat) : Place :=
  let line := f.lineAt offset
  ⟨line.number, charsUpTo offset line.start line.chars + 1⟩

/-- The line and column of an offset, which every offset has. -/
def locate? : Locator := fun f offset => some (f.locate offset)

end SourceFile

/-! ## The document form -/

namespace Label

/-- A label as a document, with the name of its file and the places at which it starts and ends. -/
def document (l : Label) (file : String) (start stop : Place) : Document :=
  .fields [("file", .text file), ("start_line", .int start.line),
    ("start_column", .int start.column), ("end_line", .int stop.line),
    ("end_column", .int stop.column), ("message", .text l.message),
    ("style", .text l.style.name)]

/-- A label as a document, if its file is there and has the places. -/
def toDocument? (locator : Locator) (files : List SourceFile) (l : Label) : Option Document := do
  let f ← files[l.file]?
  return l.document f.name (← locator f l.start) (← locator f l.stop)

end Label

namespace Diagnostic

/-- A diagnostic as a document; labels on files or places that are not there are left out. -/
def toDocument (locator : Locator) (files : List SourceFile) (d : Diagnostic) : Document :=
  .fields [("code", (d.code.map Document.text).getD .null), ("severity", .text d.severity.name),
    ("message", .text d.message),
    ("labels", .list (d.labels.filterMap (Label.toDocument? locator files))),
    ("notes", .list (d.notes.map .text))]

end Diagnostic

/-! ## The text form -/

namespace Label

/-- The mark under a piece that a label covers. -/
def mark (l : Label) : Char :=
  match l.style with
  | .primary => '^'
  | .secondary => '-'

/-- Whether a character only controls and takes no room. -/
def isControl (c : Char) : Bool := c.toNat < 32 || (127 ≤ c.toNat && c.toNat < 160)

/-- The number of columns that a character takes at a column. -/
def charWidth (column : Nat) (c : Char) : Nat :=
  if c = '\t' then 4 - column % 4 else if isControl c then 0 else 1

/-- The marks under a line: the label covers the bytes from `start` up to `stop`, and there is one
mark for every column of a character and one after the last character. -/
def underline (mark : Char) (start stop : Nat) : (place column : Nat) → List Char → List Char
  | place, _, [] =>
    if start ≤ place ∧ place < stop then [mark] else if place < stop then [' '] else []
  | place, column, c :: rest =>
    let next := place + c.utf8Size
    let taken := charWidth column c
    let marks :=
      if start < next ∧ place < stop then List.replicate taken mark
      else if place < stop then List.replicate taken ' '
      else []
    marks ++ underline mark start stop next (column + taken) rest

/-- A line with blanks in place of its tabs, from a column on. -/
def expandTabs : (column : Nat) → List Char → List Char
  | _, [] => []
  | column, c :: rest =>
    let taken := charWidth column c
    (if c = '\t' then List.replicate taken ' ' else [c]) ++ expandTabs (column + taken) rest

/-- A line without the line end. -/
def visible (line : List Char) : List Char :=
  (line.reverse.dropWhile fun c => c = '\n' ∨ c = '\r' ∨ c = '\x00').reverse

/-- So many blanks. -/
def blanks (n : Nat) : String := String.ofList (List.replicate n ' ')

/-- The width of the margin that a label needs. -/
def margin (f : SourceFile) (l : Label) : Nat :=
  max (toString (f.lineAt l.start).number).length (toString (f.lineAt l.stop).number).length

/-- The snippet of a label behind a margin. -/
def snippet (width : Nat) (f : SourceFile) (l : Label) : List String :=
  let line := f.lineAt l.start
  let start := l.start - line.start
  let stop := max (l.stop - line.start) (start + 1)
  let place := f.locate l.start
  let gutter := blanks (width + 1)
  let number := toString line.number
  let marks := String.ofList (underline l.mark start stop 0 0 (visible line.chars))
  let shown := String.ofList (expandTabs 0 (visible line.chars))
  [gutter ++ "┌─ " ++ f.name ++ ":" ++ toString place.line ++ ":" ++ toString place.column,
    gutter ++ "│",
    blanks (width - number.length) ++ number ++ " │ " ++ shown,
    gutter ++ "│ " ++ marks ++ if l.message.isEmpty then "" else " " ++ l.message]

end Label

namespace Diagnostic

/-- The lines of a note, without their line ends; a newline at the end adds no line. -/
def noteLines (note : String) : List String :=
  let cut := (SourceFile.splitLines note.toList).filter fun l => !l.isEmpty
  cut.map fun l =>
    match l.reverse with
    | '\n' :: '\r' :: rest => String.ofList rest.reverse
    | '\n' :: rest => String.ofList rest.reverse
    | _ => String.ofList l

/-- A note behind a margin. -/
def noteText (width : Nat) (note : String) : List String :=
  match noteLines note with
  | [] => []
  | first :: rest =>
    (Label.blanks (width + 1) ++ "= " ++ first) ::
      rest.map fun line => Label.blanks (width + 1) ++ "  " ++ line

/-- The first line of a diagnostic. -/
def header (d : Diagnostic) : String :=
  let code := match d.code with
    | some code => if code.isEmpty then "" else "[" ++ code ++ "]"
    | none => ""
  d.severity.name ++ code ++ ": " ++ d.message

/-- A diagnostic as text, if the files of its labels are there. -/
def render? (files : List SourceFile) (d : Diagnostic) : Option String := do
  let labels ← d.labels.mapM fun l => files[l.file]?.map fun f => (f, l)
  let width := (labels.map fun (f, l) => l.margin f).foldl max 0
  let border := if labels.isEmpty || d.notes.isEmpty then [] else [Label.blanks (width + 1) ++ "│"]
  let lines := d.header :: labels.flatMap (fun (f, l) => l.snippet width f) ++ border ++
    d.notes.flatMap (noteText width) ++ [""]
  return String.join (lines.map (· ++ "\n"))

/-- Diagnostics as text, one after the other. -/
def renderAll? (files : List SourceFile) (ds : List Diagnostic) : Option String :=
  (ds.mapM (render? files)).map String.join

end Diagnostic
end CelTyping
