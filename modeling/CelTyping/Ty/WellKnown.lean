import CelTyping.Ty.Compare

/-!
# Well-known message types

Some message types are not treated as messages: the wrappers of single values become those
values with `null` accepted, and the messages that stand for dynamic data become the dynamic
type, lists and maps of it.  `object` is the type that a message name stands for; `sanitize`
replaces well-known message types everywhere in a type.
-/

namespace CelTyping
namespace Ty

/-- The well-known message names and the types they stand for. -/
def wellKnownTypes : List (String × Ty) :=
  [("google.protobuf.BoolValue", nullable bool),
    ("google.protobuf.BytesValue", nullable bytes),
    ("google.protobuf.DoubleValue", nullable double),
    ("google.protobuf.FloatValue", nullable double),
    ("google.protobuf.Int32Value", nullable int),
    ("google.protobuf.Int64Value", nullable int),
    ("google.protobuf.StringValue", nullable string),
    ("google.protobuf.UInt32Value", nullable uint),
    ("google.protobuf.UInt64Value", nullable uint),
    ("google.protobuf.Any", any),
    ("google.protobuf.Duration", duration),
    ("google.protobuf.Timestamp", timestamp),
    ("google.protobuf.ListValue", list dyn),
    ("google.protobuf.NullValue", null),
    ("google.protobuf.Struct", map string dyn),
    ("google.protobuf.Value", dyn)]

/-- The type that a well-known message name stands for. -/
def wellKnown? (name : String) : Option Ty := wellKnownTypes.lookup name

/-- Whether a name is that of a well-known message type. -/
def isWellKnown (name : String) : Bool := (wellKnown? name).isSome

/-- The type that a message name stands for. -/
def object (name : String) : Ty := (wellKnown? name).getD (message name)

mutual

/-- The type with every well-known message type replaced by what it stands for. -/
def sanitize : Ty → Ty
  | ⟨kind, name, params, traits, acceptance⟩ =>
    if kind = .struct then (wellKnown? name).getD ⟨kind, name, params, traits, acceptance⟩
    else ⟨kind, name, sanitizeAll params, traits, acceptance⟩

/-- `sanitize` on every type of a list. -/
def sanitizeAll : List Ty → List Ty
  | [] => []
  | t :: rest => t.sanitize :: sanitizeAll rest

end

end Ty
end CelTyping
