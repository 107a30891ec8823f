import CelTyping.Decimal.Shortest
import CelTyping.Text.Quoted
import CelTyping.Ty.Basic

/-!
# Constants

The literal values of expressions, each with its static type.
-/

namespace CelTyping

/-- A literal value. -/
inductive Constant where
  /-- The literal `null`. -/
  | null
  /-- A truth value. -/
  | bool (value : Bool)
  /-- A signed integer. -/
  | int (value : Int64)
  /-- An unsigned integer. -/
  | uint (value : UInt64)
  /-- A double precision number. -/
  | double (value : Double)
  /-- A text. -/
  | string (value : String)
  /-- A byte string. -/
  | bytes (value : List UInt8)
  /-- A span of time. -/
  | duration (seconds : Int64) (nanos : Int32)
  /-- A point in time, counted from the epoch. -/
  | timestamp (seconds : Int64) (nanos : Int32)
  deriving DecidableEq

namespace Constant

/-- The static type of a literal. -/
def ty : Constant → Ty
  | null => .null
  | bool _ => .bool
  | int _ => .int
  | uint _ => .uint
  | double _ => .double
  | string _ => .string
  | bytes _ => .bytes
  | duration _ _ => .duration
  | timestamp _ _ => .timestamp

/-- Whether two literals are equal as values: doubles are compared as numbers. -/
def same : Constant → Constant → Bool
  | double a, double b => a.sameNumber b
  | a, b => a == b

/-- The text of a span of time or a point in time. -/
def timeText (name : String) (seconds : Int64) (nanos : Int32) : String :=
  name ++ " \x7b seconds: " ++ toString seconds.toInt ++ ", nanos: " ++ toString nanos.toInt ++
    " \x7d"

/-- The text of a literal in messages. -/
def describe : Constant → String
  | null => "Null"
  | bool b => "Bool(" ++ (if b then "true" else "false") ++ ")"
  | int i => "Int(" ++ toString i.toInt ++ ")"
  | uint u => "Uint(" ++ toString u.toNat ++ ")"
  | double d => "Double(" ++ Decimal.render Decimal.literalLayout d ++ ")"
  | string s => "String(" ++ Text.quoted s ++ ")"
  | bytes bs => "Bytes([" ++ ", ".intercalate (bs.map fun b => toString b.toNat) ++ "])"
  | duration seconds nanos => timeText "Duration" seconds nanos
  | timestamp seconds nanos => timeText "Timestamp" seconds nanos

end Constant
end CelTyping
