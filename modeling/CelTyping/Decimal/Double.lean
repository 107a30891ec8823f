/-!
# Double precision numbers

A double precision number is kept as its 64 bits: a sign, eleven bits of exponent and fifty-two
bits of fraction.  All arithmetic on it is exact arithmetic on natural numbers followed by one
rounding, so nothing here depends on the processor.

The magnitude of a finite number is `significand * 2 ^ scale`.  `nearest` goes the other way: it
finds the bits of the double nearest to a quotient of two natural numbers, a tie going to the
even neighbour.

## Reading a decimal

A written decimal has an integer significand and a power of ten.  It is read in two roundings:
the significand is rounded to a double, and that double is multiplied or divided by the double
nearest to the power of ten.  For significands below `2 ^ 53` and powers up to `10 ^ 22` both
factors are exact and the result is the nearest double.  A power below `10 ^ (-308)` is split
off in steps of `10 ^ 308`, and a result beyond the largest double is refused.

`nearestDecimal` reads a decimal in one rounding and gives an infinity for what is too large.
-/

namespace CelTyping

/-- A double precision number, by its bits. -/
structure Double where
  /-- Sign, exponent and fraction, from the highest bit down. -/
  bits : UInt64
  deriving DecidableEq

namespace Double

/-! ## The parts of a number -/

/-- Whether the sign bit is set. -/
def negative (d : Double) : Bool := Nat.pow 2 63 ≤ d.bits.toNat

/-- The eleven bits of the exponent. -/
def exponentField (d : Double) : Nat := d.bits.toNat / Nat.pow 2 52 % Nat.pow 2 11

/-- The fifty-two bits of the fraction. -/
def fraction (d : Double) : Nat := d.bits.toNat % Nat.pow 2 52

/-- Whether the number is zero, of either sign. -/
def isZero (d : Double) : Bool := d.bits.toNat % Nat.pow 2 63 == 0

/-- Whether the bits stand for no number. -/
def isNaN (d : Double) : Bool := d.exponentField == 2047 && d.fraction != 0

/-- Whether the number is an infinity. -/
def isInfinite (d : Double) : Bool := d.exponentField == 2047 && d.fraction == 0

/-- The integer significand of a finite number, with the leading bit of a normal one. -/
def significand (d : Double) : Nat :=
  if d.exponentField = 0 then d.fraction else d.fraction + Nat.pow 2 52

/-- The power of two that the significand of a finite number is scaled by. -/
def scale (d : Double) : Int :=
  if d.exponentField = 0 then -1074 else (d.exponentField : Int) - 1075

/-- Equality of numbers: the two zeros are equal, and no number equals one that is none. -/
def sameNumber (a b : Double) : Bool :=
  !a.isNaN && !b.isNaN && (a == b || (a.isZero && b.isZero))

/-! ## Rounding -/

/-- `m * 2 ^ q` as a quotient of natural numbers. -/
def dyadic (m : Nat) (q : Int) : Nat × Nat :=
  if 0 ≤ q then (m * Nat.pow 2 q.toNat, 1) else (m, Nat.pow 2 (-q).toNat)

/-- The bits of positive infinity. -/
def infinityBits : Nat := 2047 * Nat.pow 2 52

/-- The bits of the double nearest to `num / den`, a tie going to the even neighbour.  With the
exponent `e` chosen so that the rounded quotient of `num / den` by `2 ^ e` has fifty-three bits
(or `e` least possible), a quotient that rounds up to `2 ^ 53` carries into the exponent by
itself. -/
def nearest (num den : Nat) : Nat :=
  if num = 0 ∨ den = 0 then 0
  else
    let d : Int := (num.log2 : Int) - (den.log2 : Int)
    let (n₀, d₀) := if 0 ≤ d then (num, den * Nat.pow 2 d.toNat)
      else (num * Nat.pow 2 (-d).toNat, den)
    let e : Int := max (if n₀ < d₀ then d - 53 else d - 52) (-1074)
    let (n, m) := if 0 ≤ e then (num, den * Nat.pow 2 e.toNat)
      else (num * Nat.pow 2 (-e).toNat, den)
    let q := n / m
    let r := n % m
    let q := if m < 2 * r ∨ (2 * r = m ∧ q % 2 = 1) then q + 1 else q
    min ((e + 1074).toNat * Nat.pow 2 52 + q) infinityBits

/-- The double nearest to `num / den`. -/
def ofRatio (num den : Nat) : Double := ⟨UInt64.ofNat (nearest num den)⟩

/-- The double nearest to a natural number. -/
def ofNat (n : Nat) : Double := ofRatio n 1

/-- The number of the opposite sign. -/
def neg (d : Double) : Double := ⟨d.bits ^^^ UInt64.ofNat (Nat.pow 2 63)⟩

/-- The double nearest to an integer. -/
def ofInt (i : Int) : Double := if i < 0 then (ofNat i.natAbs).neg else ofNat i.natAbs

/-- The rounded product of two magnitudes. -/
def times (a b : Double) : Double :=
  let (n, d) := dyadic (a.significand * b.significand) (a.scale + b.scale)
  ofRatio n d

/-- The rounded quotient of two magnitudes. -/
def quotient (a b : Double) : Double :=
  let (n, d) := dyadic 1 (a.scale - b.scale)
  ofRatio (a.significand * n) (b.significand * d)

/-- Positive infinity. -/
def infinity : Double := ⟨UInt64.ofNat infinityBits⟩

/-- The bits that stand for no number, in their plainest form. -/
def notANumber : Double := ⟨UInt64.ofNat (infinityBits + Nat.pow 2 51)⟩

/-! ## Reading a decimal -/

/-- The double nearest to a power of ten. -/
def tenTo (k : Nat) : Double := ofNat (Nat.pow 10 k)

/-- The greatest power of ten that is a double. -/
def greatestPower : Nat := 308

/-- A magnitude times a power of ten, in at most `fuel` divisions by `10 ^ 308` and one last
product or quotient; nothing if the result is beyond the largest double.  The magnitude has
vanished after two divisions, so three steps are enough. -/
def timesTenTo : (fuel : Nat) → Double → Int → Option Double
  | 0, d, _ => some d
  | fuel + 1, d, e =>
    if e.natAbs ≤ greatestPower then
      if 0 ≤ e then
        let r := times d (tenTo e.toNat)
        if r.isInfinite then none else some r
      else some (quotient d (tenTo (-e).toNat))
    else if d.isZero then some d
    else if 0 ≤ e then none
    else timesTenTo fuel (quotient d (tenTo greatestPower)) (e + greatestPower)

/-- The number with an integer significand and a power of ten; nothing if it is too large. -/
def ofDecimal? (isNegative : Bool) (significand : Nat) (exponent : Int) : Option Double :=
  (timesTenTo 3 (ofNat significand) exponent).map fun d => if isNegative then d.neg else d

/-- The double nearest to the number with an integer significand and a power of ten.  A number with
its first digit beyond `10 ^ 400` or below `10 ^ (-400)` need not be worked out. -/
def nearestDecimal (isNegative : Bool) (significand : Nat) (exponent : Int) : Double :=
  let point := ((Nat.toDigits 10 significand).length : Int) + exponent
  let d :=
    if significand = 0 ∨ point < -400 then ofNat 0
    else if 400 < point then infinity
    else if 0 ≤ exponent then ofNat (significand * Nat.pow 10 exponent.toNat)
    else ofRatio significand (Nat.pow 10 (-exponent).toNat)
  if isNegative then d.neg else d

end Double
end CelTyping
