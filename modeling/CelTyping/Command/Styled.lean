/-!
# Styled text

The text that commands print is a list of pieces, some of which have a style.  On a terminal a
style is switched on before its piece and off after it; elsewhere only the pieces are printed.
-/

namespace CelTyping

/-- The colours in use. -/
inductive Colour where
  | red
  | green
  | yellow
  | cyan
  | white
  deriving DecidableEq

/-- The number of a colour on a terminal. -/
def Colour.number : Colour → Nat
  | .red => 1
  | .green => 2
  | .yellow => 3
  | .cyan => 6
  | .white => 7

/-- How a piece of text looks. -/
structure Style where
  /-- The colour, if it is not the usual one. -/
  colour : Option Colour
  /-- Whether it is bold. -/
  isBold : Bool
  deriving DecidableEq

/-- A piece of text. -/
structure Piece where
  /-- The style, if it has one. -/
  style : Option Style
  /-- The text. -/
  text : String
  deriving DecidableEq

namespace Piece

/-- A piece without a style. -/
def plain (text : String) : Piece := ⟨none, text⟩

/-- A line end. -/
def newline : Piece := plain "\n"

/-- A piece in a style. -/
def styled (colour : Option Colour) (isBold : Bool) (text : String) : Piece :=
  ⟨some ⟨colour, isBold⟩, text⟩

/-- What went well. -/
def success (text : String) : Piece := styled (some .green) true text

/-- What went wrong. -/
def error (text : String) : Piece := styled (some .red) true text

/-- What deserves attention. -/
def warning (text : String) : Piece := styled (some .yellow) true text

/-- What stands out. -/
def info (text : String) : Piece := styled (some .cyan) false text

/-- What stands back. -/
def dim (text : String) : Piece := styled (some .white) false text

/-- A heading. -/
def bold (text : String) : Piece := styled none true text

/-- The characters that switch everything off. -/
def reset : String := "\x1b[0m"

/-- A piece as it is printed. -/
def render (coloured : Bool) (p : Piece) : String :=
  match p.style with
  | some style =>
    if coloured then
      reset ++ (if style.isBold then "\x1b[1m" else "") ++
        (match style.colour with
          | some c => "\x1b[3" ++ toString c.number ++ "m"
          | none => "") ++ p.text ++ reset
    else p.text
  | none => p.text

/-- Pieces as they are printed. -/
def renderAll (coloured : Bool) (ps : List Piece) : String :=
  String.join (ps.map (render coloured))

end Piece
end CelTyping
