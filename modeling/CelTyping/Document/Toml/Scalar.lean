import CelTyping.Document.Basic
import CelTyping.Text.Characters

/-!
# TOML numbers and dates

A number is an integer of 64 bits with a sign, decimal or without a sign to one of the bases 16, 8
and 2, or it has a fraction or an exponent.  Underscores may stand between digits.  A number that
is too large for a double is refused, unless it is negative.

A date, a time of day, or both with an offset or without one, is a value of its own.  As a document
it is a record of one field that holds its text in a normal form.
-/

namespace CelTyping
namespace Toml

open Text (isDigit decimalValue valueToBase?)

/-! ## Numbers -/

/-- Take out the underscores between digits; `after` tells that a digit stands before. -/
def ungroup (after : Bool) : List Char → Option (List Char)
  | [] => if after then some [] else none
  | '_' :: rest => if after then ungroup false rest else none
  | c :: rest => (ungroup true rest).map (c :: ·)

/-- The value of digits to a base, with underscores between them. -/
def toBase? (base : Nat) (cs : List Char) : Option Nat :=
  (ungroup false cs).bind (valueToBase? base)

/-- The value of decimal digits that do not begin with an idle zero. -/
def decimal? : List Char → Option Nat
  | '0' :: _ :: _ => none
  | cs => toBase? 10 cs

/-- A sign, if there is one, and the characters after it. -/
def splitSign : List Char → Bool × List Char
  | '-' :: rest => (true, rest)
  | '+' :: rest => (false, rest)
  | cs => (false, cs)

/-- An integer; only a decimal one has a sign. -/
def integer? : List Char → Option Int
  | '0' :: 'x' :: rest => (toBase? 16 rest).map Int.ofNat
  | '0' :: 'o' :: rest => (toBase? 8 rest).map Int.ofNat
  | '0' :: 'b' :: rest => (toBase? 2 rest).map Int.ofNat
  | cs =>
    let (isNegative, cs) := splitSign cs
    (decimal? cs).map fun n => if isNegative then -(n : Int) else n

/-- The digits at the start of a number, without underscores, and the characters after them. -/
def digits? (cs : List Char) : Option (List Char × List Char) := do
  let digits ← ungroup false (cs.takeWhile fun c => isDigit c || c == '_')
  return (digits, cs.dropWhile fun c => isDigit c || c == '_')

/-- The value of an exponent that ends a number. -/
def exponent? : List Char → Option Int
  | [] => some 0
  | c :: cs =>
    if c == 'e' || c == 'E' then
      let (down, cs) := splitSign cs
      match digits? cs with
      | some (digits, []) =>
        some (if down then -(decimalValue digits : Int) else decimalValue digits)
      | _ => none
    else none

/-- A number with a fraction or an exponent. -/
def fractional? (cs : List Char) : Option Double := do
  let (isNegative, cs) := splitSign cs
  let (whole, rest) ← digits? cs
  let (part, rest) ← match rest with
    | '.' :: rest => digits? rest
    | rest => some ([], rest)
  let exponent ← exponent? rest
  if whole.length > 1 ∧ whole.head? = some '0' then none
  else
    let d := Double.nearestDecimal isNegative (decimalValue (whole ++ part))
      (exponent - part.length)
    if d = Double.infinity then none else some d

/-- A number that is spelt by a word. -/
def special? (cs : List Char) : Option Double :=
  let (isNegative, cs) := splitSign cs
  let d :=
    if cs = ['i', 'n', 'f'] then some Double.infinity
    else if cs = ['n', 'a', 'n'] then some Double.notANumber
    else none
  d.map fun d => if isNegative then d.neg else d

/-- A number. -/
def number? (cs : List Char) : Option Document :=
  match integer? cs with
  | some i => if Int64.minValue.toInt ≤ i ∧ i ≤ Int64.maxValue.toInt then some (.int i) else none
  | none => ((fractional? cs).or (special? cs)).map .double

/-! ## Dates -/

/-- Read a number of so many digits that lies between two bounds. -/
def readCount (digits least greatest : Nat) (cs : List Char) : Option (List Char × List Char) :=
  let text := cs.take digits
  if text.length = digits ∧ text.all isDigit ∧ least ≤ decimalValue text ∧
      decimalValue text ≤ greatest then
    some (text, cs.drop digits)
  else none

/-- Read a given character. -/
def readMark (mark : Char) : List Char → Option (List Char)
  | c :: rest => if c = mark then some rest else none
  | [] => none

/-- The number of days of a month. -/
def daysOf (year month : Nat) : Nat :=
  if month = 2 then
    if year % 4 = 0 ∧ (year % 100 ≠ 0 ∨ year % 400 = 0) then 29 else 28
  else if month = 4 ∨ month = 6 ∨ month = 9 ∨ month = 11 then 30
  else 31

/-- Read a day of the calendar. -/
def readDay (cs : List Char) : Option (List Char × List Char) := do
  let (year, cs) ← readCount 4 0 9999 cs
  let cs ← readMark '-' cs
  let (month, cs) ← readCount 2 1 12 cs
  let cs ← readMark '-' cs
  let (day, cs) ← readCount 2 1 (daysOf (decimalValue year) (decimalValue month)) cs
  return (year ++ '-' :: month ++ '-' :: day, cs)

/-- Read the fraction of a second, if there is one: nine digits of it count, and zeros at the end
are not written. -/
def readSecondFraction (cs : List Char) : List Char × List Char :=
  match cs with
  | '.' :: rest =>
    let digits := rest.takeWhile isDigit
    if digits.isEmpty then ([], cs)
    else
      let kept := ((digits.take 9).reverse.dropWhile (· == '0')).reverse
      (if kept.isEmpty then [] else '.' :: kept, rest.dropWhile isDigit)
  | _ => ([], cs)

/-- Read a time of day. -/
def readTime (cs : List Char) : Option (List Char × List Char) := do
  let (hour, cs) ← readCount 2 0 23 cs
  let cs ← readMark ':' cs
  let (minute, cs) ← readCount 2 0 59 cs
  let cs ← readMark ':' cs
  let (second, cs) ← readCount 2 0 60 cs
  let (fraction, cs) := readSecondFraction cs
  return (hour ++ ':' :: minute ++ ':' :: second ++ fraction, cs)

/-- Read an offset, if there is one; the offset of no time has a plus. -/
def readOffset (cs : List Char) : Option (List Char × List Char) :=
  match cs with
  | c :: rest =>
    if c = 'Z' ∨ c = 'z' then some (['Z'], rest)
    else if c = '+' ∨ c = '-' then do
      let (hour, rest) ← readCount 2 0 23 rest
      let rest ← readMark ':' rest
      let (minute, rest) ← readCount 2 0 59 rest
      let isZero := decimalValue hour = 0 ∧ decimalValue minute = 0
      return ((if isZero then '+' else c) :: hour ++ ':' :: minute, rest)
    else some ([], cs)
  | [] => some ([], [])

/-- Read a time of day with its offset after the mark that divides it from the day. -/
def readTimeOfDay : List Char → Option (List Char × List Char)
  | c :: rest =>
    if c = 'T' ∨ c = 't' ∨ c = ' ' then do
      let (time, rest) ← readTime rest
      let (offset, rest) ← readOffset rest
      return ('T' :: time ++ offset, rest)
    else none
  | [] => none

/-- Read a date, a time, or both. -/
def readMoment (cs : List Char) : Option (List Char × List Char) :=
  match readDay cs with
  | some (day, rest) =>
    match readTimeOfDay rest with
    | some (time, rest) => some (day ++ time, rest)
    | none => some (day, rest)
  | none => readTime cs

/-- The name of the field of a date. -/
def dateField : String := "$__toml_private_datetime"

/-! ## Values without parts -/

/-- Whether a character may stand in a number or a word. -/
def isWord (c : Char) : Bool := c.isAlphanum || c == '_' || c == '+' || c == '-' || c == '.'

/-- Read a number, a date or a truth value. -/
def readScalar (cs : List Char) : Option (Document × List Char) :=
  match readMoment cs with
  | some (date, rest) => some (.fields [(dateField, .text (String.ofList date))], rest)
  | none =>
    let rest := cs.dropWhile isWord
    match String.ofList (cs.takeWhile isWord) with
    | "true" => some (.bool true, rest)
    | "false" => some (.bool false, rest)
    | word => (number? word.toList).map fun d => (d, rest)

end Toml
end CelTyping
