import CelTyping.Document.Basic
import CelTyping.Document.Json.Term

/-!
# What JSON stands for

The document that a JSON term stands for, if it stands for one.

The distinction between integers and other numbers is kept: a number without a fraction and
without an exponent is an integer if it fits in 64 bits, signed or unsigned, and every other
number is a double; a negative zero is a double as well.  A significand of more than 64 bits is
cut off, with the power of ten making up for the digits lost before the point.  A number beyond
the largest double stands for nothing, and neither does a text in which a surrogate is not half of
a pair.  Lists and fields may be nested 127 deep.
-/

namespace CelTyping
namespace Json

open Text (digitValue decimalValue)

/-! ## Numbers -/

/-- The greatest unsigned 64-bit integer. -/
def greatestWord : Nat := UInt64.size - 1

/-- Append decimal digits to a significand for as long as it fits in 64 bits; the result is the
significand and the digits that did not fit. -/
def accumulate : Nat → List Char → Nat × List Char
  | n, [] => (n, [])
  | n, c :: cs =>
    if n * 10 + digitValue c ≤ greatestWord then accumulate (n * 10 + digitValue c) cs
    else (n, c :: cs)

/-- The greatest exponent that is told apart from one that is too large. -/
def greatestExponent : Nat := Nat.pow 2 31 - 1

/-- An integer of at most 64 bits, or the double nearest to it. -/
def integer (isNegative : Bool) (n : Nat) : Document :=
  if !isNegative then .int n
  else if n = 0 ∨ Nat.pow 2 63 < n then .double (Double.ofNat n).neg
  else .int (-(n : Int))

/-- The double with a significand, a power of ten, and a written exponent on top of that. -/
def scaled (isNegative : Bool) (significand : Nat) (power : Int) :
    Option (Bool × List Char) → Option Double
  | none => Double.ofDecimal? isNegative significand power
  | some (down, digits) =>
    let value := decimalValue digits
    if greatestExponent < value then
      if significand ≠ 0 ∧ !down then none
      else some (if isNegative then (Double.ofNat 0).neg else Double.ofNat 0)
    else
      Double.ofDecimal? isNegative significand (power + if down then -(value : Int) else value)

/-- The number that a numeral stands for. -/
def Numeral.toDocument? (n : Numeral) : Option Document :=
  let (significand, unused) := accumulate 0 n.whole
  if unused.isEmpty && n.fraction.isEmpty && n.exponent.isNone then
    some (integer n.isNegative significand)
  else
    let (significand, cut) := accumulate significand n.fraction
    let power : Int := unused.length - (n.fraction.length - cut.length : Nat)
    (scaled n.isNegative significand power n.exponent).map .double

/-! ## Texts -/

/-- Whether a unit is the first half of a pair of surrogates. -/
def isHighSurrogate (code : Nat) : Bool := 0xD800 ≤ code && code < 0xDC00

/-- Whether a unit is the second half of a pair of surrogates. -/
def isLowSurrogate (code : Nat) : Bool := 0xDC00 ≤ code && code < 0xE000

/-- The characters that pieces spell, after the first half of a pair of surrogates if there is
one. -/
def spell : (high : Option Nat) → List Piece → Option (List Char)
  | none, [] => some []
  | some _, [] => none
  | none, .plain c :: rest => (spell none rest).map (c :: ·)
  | none, .escaped c :: rest => (spell none rest).map (c :: ·)
  | none, .unit code :: rest =>
    if isHighSurrogate code then spell (some code) rest
    else if isLowSurrogate code then none
    else (spell none rest).map (Char.ofNat code :: ·)
  | some high, .unit code :: rest =>
    if isLowSurrogate code then
      (spell none rest).map
        (Char.ofNat (0x10000 + (high - 0xD800) * 0x400 + (code - 0xDC00)) :: ·)
    else none
  | some _, _ :: _ => none

/-- The text that pieces spell. -/
def textOf? (pieces : List Piece) : Option String := (spell none pieces).map String.ofList

/-- The character of a piece that stands for itself. -/
def Piece.plain? : Piece → Option Char
  | .plain c => some c
  | _ => none

/-- The text of pieces that all stand for themselves. -/
def plainTextOf? (pieces : List Piece) : Option String :=
  (pieces.mapM Piece.plain?).map String.ofList

/-! ## Terms -/

/-- How deep lists and fields may be nested. -/
def greatestDepth : Nat := 127

namespace Term

mutual

/-- The document that a term stands for, with lists and fields nested at most so deep. -/
def toDocument? : (depth : Nat) → Term → Option Document
  | _, .null => some .null
  | _, .bool b => some (.bool b)
  | _, .number n => n.toDocument?
  | _, .text pieces => (textOf? pieces).map .text
  | 0, .list _ => none
  | depth + 1, .list items => (itemsToDocuments? depth items).map .list
  | 0, .fields _ => none
  | depth + 1, .fields entries => (entriesToDocuments? depth entries).map .fields

/-- The documents that the items of a list stand for. -/
def itemsToDocuments? : (depth : Nat) → List Term → Option (List Document)
  | _, [] => some []
  | depth, t :: rest => do
    let d ← toDocument? depth t
    let ds ← itemsToDocuments? depth rest
    return d :: ds

/-- The fields that entries stand for. -/
def entriesToDocuments? :
    (depth : Nat) → List (List Piece × Term) → Option (List (String × Document))
  | _, [] => some []
  | depth, (name, t) :: rest => do
    let name ← textOf? name
    let d ← toDocument? depth t
    let ds ← entriesToDocuments? depth rest
    return (name, d) :: ds

end

/-- The fields of a record, written with their names or as the list of their values.  Every name
is read, but what stands under it is left as it is written. -/
def record? (names : List String) : Term → Option (List (String × Term))
  | .fields entries => entries.mapM fun e => (textOf? e.1).map fun name => (name, e.2)
  | .list items => if items.length ≤ names.length then some (names.zip items) else none
  | _ => none

end Term

/-- The document that a text stands for. -/
def parse (text : String) : Option Document := do
  let term ← parseTerm text
  term.toDocument? greatestDepth

end Json
end CelTyping
