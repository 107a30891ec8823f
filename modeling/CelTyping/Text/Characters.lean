/-!
# Classes of characters

A set of code points is written as its list of boundaries: the increasing list of the numbers at
which membership changes, starting from "not a member".  A number belongs to the set exactly when
an odd number of boundaries lie at or below it.

White space, which may stand between the parts of a written type and is trimmed from the ends of a
name, are the code points with the Unicode property of white space.  Digits are decimal or
hexadecimal, and spell numbers.
-/

namespace CelTyping
namespace Text

/-! ## Sets of code points -/

/-- Whether a number belongs to the set with the given increasing boundaries. -/
def withinBoundaries : List Nat → Nat → Bool
  | [], _ => false
  | b :: rest, n => if n < b then false else !withinBoundaries rest n

/-! ## White space -/

/-- The boundaries of the white space code points. -/
def blankBoundaries : List Nat := [
  0x9, 0xE, 0x20, 0x21, 0x85, 0x86, 0xA0, 0xA1, 0x1680, 0x1681, 0x2000, 0x200B, 0x2028, 0x202A,
  0x202F, 0x2030, 0x205F, 0x2060, 0x3000, 0x3001]

/-- Whether a character is white space. -/
def isBlank (c : Char) : Bool := withinBoundaries blankBoundaries c.toNat

/-- A list of characters without the white space at its ends. -/
def trimBlanks (cs : List Char) : List Char :=
  (((cs.dropWhile isBlank).reverse).dropWhile isBlank).reverse

/-! ## Digits -/

/-- Whether a character is a decimal digit. -/
def isDigit (c : Char) : Bool := '0' ≤ c && c ≤ '9'

/-- The value of a decimal digit. -/
def digitValue (c : Char) : Nat := c.toNat - '0'.toNat

/-- The value of a hexadecimal digit. -/
def hexValue? (c : Char) : Option Nat :=
  if isDigit c then some (digitValue c)
  else if 'a' ≤ c && c ≤ 'f' then some (c.toNat - 'a'.toNat + 10)
  else if 'A' ≤ c && c ≤ 'F' then some (c.toNat - 'A'.toNat + 10)
  else none

/-- The value of a list of decimal digits. -/
def decimalValue (cs : List Char) : Nat := cs.foldl (fun n c => n * 10 + digitValue c) 0

/-- The value of a list of digits to a base of at most sixteen. -/
def valueToBase? (base : Nat) (cs : List Char) : Option Nat :=
  cs.foldlM (fun n c =>
    match hexValue? c with
    | some d => if d < base then some (n * base + d) else none
    | none => none) 0

end Text
end CelTyping
