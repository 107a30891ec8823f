import CelTyping.Expr.Basic
import CelTyping.Table

/-!
# Source positions

The positions of the nodes of a tree in the text it was parsed from, counted in bytes, and the
lines and columns they stand for.  Lines and columns count from one; a column counts bytes from
the start of its line.  A node whose position is not known stands at the start of the text.

Offsets come with the tree and need not be within the text.  They take 64 bits, and so does a
column, which is computed from an offset; past the greatest number of 64 bits it would begin again
with zero.  The starts of lines and the lines are counted along the text, and there are no texts of
so many bytes, so they are plain numbers.
-/

namespace CelTyping

/-- A place in a text. -/
structure Location where
  /-- The number of bytes before the place. -/
  offset : UInt64
  /-- The line, counted from one. -/
  line : Nat
  /-- The column, counted from one. -/
  column : UInt64
  deriving DecidableEq

/-- Where the nodes of a tree stand in the text it was parsed from. -/
structure Source where
  /-- The name of the text in messages. -/
  description : String
  /-- The offsets at which the lines after the first begin, increasing. -/
  lineOffsets : List Nat
  /-- The offsets of the nodes. -/
  positions : Table NodeId UInt64

namespace Source

/-- The offsets just after every newline of a text that begins at an offset. -/
def lineOffsetsFrom : Nat → List Char → List Nat
  | _, [] => []
  | offset, c :: rest =>
    let next := offset + c.utf8Size
    if c = '\n' then next :: lineOffsetsFrom next rest else lineOffsetsFrom next rest

/-- The source of a text, in which no node has a position yet. -/
def ofText (description text : String) : Source :=
  ⟨description, lineOffsetsFrom 0 text.toList, .empty⟩

/-- Record the offset of a node. -/
def setPosition (s : Source) (id : NodeId) (offset : UInt64) : Source :=
  { s with positions := s.positions.insert id offset }

/-- The line of an offset and the offset at which it begins, given the line before it. -/
def lineFrom (offset : Nat) : (line start : Nat) → List Nat → Nat × Nat
  | line, start, [] => (line, start)
  | line, start, next :: rest =>
    if offset < next then (line, start) else lineFrom offset (line + 1) next rest

/-- The line and column of an offset. -/
def locate (s : Source) (offset : UInt64) : Location :=
  let (line, start) := lineFrom offset.toNat 1 0 s.lineOffsets
  ⟨offset, line, offset - .ofNat start + 1⟩

/-- The location of a node. -/
def location (s : Source) (id : NodeId) : Location := s.locate ((s.positions.find? id).getD 0)

end Source
end CelTyping
