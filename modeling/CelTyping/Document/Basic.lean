import CelTyping.Decimal.Double

/-!
# Documents

A document is a tree of plain data: what a data format such as JSON or TOML can say.  Fields keep
their order, and a name may occur more than once, because reading a format does not decide what a
repeated name means.

Decoding a document asks for fields by name.  A field that occurs twice is an error for a reader
that knows the field and of no consequence for one that does not.
-/

namespace CelTyping

/-- A tree of plain data. -/
inductive Document where
  /-- Nothing. -/
  | null
  /-- A truth value. -/
  | bool (value : Bool)
  /-- An integer. -/
  | int (value : Int)
  /-- A number that is not written as an integer. -/
  | double (value : Double)
  /-- A text. -/
  | text (value : String)
  /-- A list. -/
  | list (items : List Document)
  /-- Named fields. -/
  | fields (entries : List (String × Document))

namespace Document

instance : Inhabited Document := ⟨null⟩

/-- What decoding finds under a name. -/
inductive Field (β : Type) where
  /-- The name does not occur. -/
  | missing
  /-- The name occurs once. -/
  | found (value : β)
  /-- The name occurs more than once. -/
  | repeated

/-- What a list of fields holds under a name. -/
def fieldOf {β : Type} (entries : List (String × β)) (name : String) : Field β :=
  match entries.filter fun e => e.1 == name with
  | [] => .missing
  | [e] => .found e.2
  | _ => .repeated

/-- The fields of a document. -/
def fields? : Document → Option (List (String × Document))
  | fields entries => some entries
  | _ => none

/-- The fields of a record: written with their names, or as the list of their values in the order
of the names, from which fields at the end may be left out.  With `surplus`, values after the last
name are passed over. -/
def record? (surplus : Bool) (names : List String) : Document → Option (List (String × Document))
  | fields entries => some entries
  | list items =>
    if surplus || items.length ≤ names.length then some (names.zip items) else none
  | _ => none

/-- The text of a document that is one. -/
def text? : Document → Option String
  | text value => some value
  | _ => none

/-- The truth value of a document that is one. -/
def bool? : Document → Option Bool
  | bool value => some value
  | _ => none

/-- The items of a document that is a list. -/
def list? : Document → Option (List Document)
  | list items => some items
  | _ => none

/-- The integer of a document that is one, if it lies in a range. -/
def intBetween? (least greatest : Int) : Document → Option Int
  | int value => if least ≤ value ∧ value ≤ greatest then some value else none
  | _ => none

/-- A signed 64-bit integer. -/
def int64? (d : Document) : Option Int64 :=
  (d.intBetween? Int64.minValue.toInt Int64.maxValue.toInt).map Int64.ofInt

/-- A signed 32-bit integer. -/
def int32? (d : Document) : Option Int32 :=
  (d.intBetween? Int32.minValue.toInt Int32.maxValue.toInt).map Int32.ofInt

/-- An unsigned 64-bit integer. -/
def uint64? (d : Document) : Option UInt64 :=
  (d.intBetween? 0 (UInt64.size - 1)).map fun i => UInt64.ofNat i.toNat

/-- A byte. -/
def byte? (d : Document) : Option UInt8 :=
  (d.intBetween? 0 255).map fun i => UInt8.ofNat i.toNat

/-- A number; an integer stands for the double nearest to it. -/
def double? : Document → Option Double
  | double value => some value
  | int value => some (Double.ofInt value)
  | _ => none

/-- Decode a field that must be there. -/
def required {α β : Type} (decode : β → Option α) (entries : List (String × β))
    (name : String) : Option α :=
  match fieldOf entries name with
  | .found value => decode value
  | _ => none

/-- Decode a field that has a default. -/
def defaulted {α β : Type} (decode : β → Option α) (default : α)
    (entries : List (String × β)) (name : String) : Option α :=
  match fieldOf entries name with
  | .found value => decode value
  | .missing => some default
  | .repeated => none

/-- Decode a list of values. -/
def listOf {α : Type} (decode : Document → Option α) (d : Document) : Option (List α) := do
  let items ← d.list?
  items.mapM decode

/-- Decode a value that may be nothing. -/
def orNull {α : Type} (decode : Document → Option α) : Document → Option (Option α)
  | null => some none
  | d => (decode d).map some

/-- Decode fields whose names are data. -/
def mapOf {α : Type} (decode : Document → Option α) (d : Document) :
    Option (List (String × α)) := do
  let entries ← d.fields?
  entries.mapM fun e => (decode e.2).map fun v => (e.1, v)

end Document
end CelTyping
