import CelTyping.Decimal.Double

/-!
# The shortest decimal of a double

The text of a double has the fewest significant digits that still read back as the same number,
and of the decimals with that many digits the one nearest to the number.  Two can be equally near;
then the greater is taken, or the one whose last digit is even, as the format has it.

The reals that round to a double with significand `m` form an interval around it that reaches
half way to each neighbour, and its ends belong to it exactly when `m` is even.  For one digit,
two digits and so on, the decimals with that many digits form a grid; if any grid point lies in
the interval then one of the two grid points around the number does, so it is enough to test
those two.  Seventeen digits always succeed.  All tests are comparisons of natural numbers.

Which of two equally near decimals is taken and which numbers are written with an exponent are
choices of the format, kept in a `Layout`.
-/

namespace CelTyping
namespace Decimal

/-- A positive decimal `0.d₁d₂… * 10 ^ point`, given by its digits, of which the first and the
last are not zero. -/
structure Digits where
  /-- The digits, most significant first. -/
  digits : List Char
  /-- The power of ten that the digits after the point are scaled by. -/
  point : Int

/-- Which of two decimals that are equally near is taken. -/
inductive Tie where
  /-- The greater. -/
  | upward
  /-- The one whose last digit is even. -/
  | toEven

/-- Whether the tie between a decimal with the last place `n` and the next one goes to the next
one. -/
def Tie.goesUp (tie : Tie) (n : Nat) : Bool :=
  match tie with
  | .upward => true
  | .toEven => n % 2 == 1

/-- `n * 10 ^ k` as a quotient of natural numbers. -/
def decimalRatio (n : Nat) (k : Int) : Nat × Nat :=
  if 0 ≤ k then (n * Nat.pow 10 k.toNat, 1) else (n, Nat.pow 10 (-k).toNat)

/-- The first `j` at or after the given one with `den ≤ num * 10 ^ j`. -/
def firstPower (num den : Nat) : (fuel j : Nat) → Nat
  | 0, j => j
  | fuel + 1, j => if den ≤ num * Nat.pow 10 j then j else firstPower num den fuel (j + 1)

/-- The exponent of the leading decimal digit of `num / den`, a positive double. -/
def leadingExponent (num den : Nat) : Int :=
  if den ≤ num then ((Nat.toDigits 10 (num / den)).length : Int) - 1
  else -(firstPower num den 330 1 : Int)

/-- The better of the two decimals of a grid around the number that read back as the number. -/
def onGrid? (tie : Tie) (d : Double) (exponent : Int) : Option Nat :=
  let m := d.significand
  -- All distances are counted in quarters of the last binary place.
  let below := if m = Nat.pow 2 52 ∧ 1 < d.exponentField then 1 else 2
  let (unit, unitDen) := Double.dyadic 1 (d.scale - 2)
  let (grid, gridDen) := decimalRatio 1 exponent
  let step := grid * unitDen
  let place := unit * gridDen
  let value := 4 * m * place
  let lower := value / step
  let upper := lower + 1
  let closed := m % 2 == 0
  let least := (4 * m - below) * place
  let greatest := (4 * m + 2) * place
  let lowerFits := if closed then least ≤ lower * step else least < lower * step
  let upperFits := if closed then upper * step ≤ greatest else upper * step < greatest
  let up := upper * step - value
  let down := value - lower * step
  if lowerFits then
    if upperFits && (up < down || (up == down && tie.goesUp lower)) then some upper else some lower
  else if upperFits then some upper
  else none

/-- The first grid with `places` digits or more on which the number can be told apart. -/
def shortestFrom (tie : Tie) (d : Double) (leading : Int) : (fuel places : Nat) → Nat × Int
  | 0, places =>
    let exponent := leading - places + 1
    ((onGrid? tie d exponent).getD 0, exponent)
  | fuel + 1, places =>
    let exponent := leading - places + 1
    match onGrid? tie d exponent with
    | some n => (n, exponent)
    | none => shortestFrom tie d leading fuel (places + 1)

/-- The digits of a number `n * 10 ^ exponent`, without the zeros at its end. -/
def digitsOf (n : Nat) (exponent : Int) : Digits :=
  let all := Nat.toDigits 10 n
  ⟨(all.reverse.dropWhile (· == '0')).reverse, exponent + all.length⟩

/-- The shortest digits of a positive double. -/
def shortest (tie : Tie) (d : Double) : Digits :=
  let (num, den) := Double.dyadic d.significand d.scale
  let (n, exponent) := shortestFrom tie d (leadingExponent num den) 16 1
  digitsOf n exponent

/-- The choices of a format: how it decides a tie, and which numbers it writes without an exponent,
namely those whose point lies between the two bounds. -/
structure Layout where
  /-- Which of two equally near decimals is written. -/
  tie : Tie
  /-- The least point that is written in place. -/
  leastPoint : Int
  /-- The greatest point that is written in place. -/
  greatestPoint : Int

/-- A decimal as a format writes it, always with a point or an exponent. -/
def Digits.render (layout : Layout) (d : Digits) : String :=
  let zeros (n : Nat) : List Char := List.replicate n '0'
  let text : List Char :=
    if layout.leastPoint ≤ d.point ∧ d.point ≤ layout.greatestPoint then
      if d.point ≤ 0 then '0' :: '.' :: (zeros (-d.point).toNat ++ d.digits)
      else
        let whole := d.point.toNat
        if d.digits.length ≤ whole then
          d.digits ++ zeros (whole - d.digits.length) ++ ['.', '0']
        else d.digits.take whole ++ '.' :: d.digits.drop whole
    else
      let mantissa := match d.digits with
        | [] => ['0']
        | [c] => [c]
        | c :: rest => c :: '.' :: rest
      mantissa ++ 'e' :: (toString (d.point - 1)).toList
  String.ofList text

/-- A double as a format writes it. -/
def render (layout : Layout) (d : Double) : String :=
  if d.isNaN then "NaN"
  else
    let sign := if d.negative then "-" else ""
    let magnitude :=
      if d.isInfinite then "inf"
      else if d.isZero then "0.0"
      else (shortest layout.tie d).render layout
    sign ++ magnitude

/-- The layout of literals in diagnostics: ties go up, and there is an exponent below `0.0001` and
from `10 ^ 16` on. -/
def literalLayout : Layout := ⟨.upward, -3, 16⟩

/-- The layout of numbers in documents: ties go to the even digit, and there is an exponent below
`0.00001` and from `10 ^ 16` on. -/
def documentLayout : Layout := ⟨.toEven, -4, 16⟩

end Decimal
end CelTyping
