import CelTyping.Check.Error
import CelTyping.Declaration.Error

/-!
# Diagnostics

A diagnostic is a message for whoever wrote an expression or a declaration: a severity, a code, a
text, labels on pieces of source, and notes.  Every check error and every declaration error has
its diagnostic; those of declarations have no labels, since declarations have no source.
-/

namespace CelTyping

/-- How serious a diagnostic is. -/
inductive Severity where
  /-- Something that should never happen. -/
  | bug
  /-- Something that has to be mended. -/
  | error
  /-- Something that may have to be mended. -/
  | warning
  /-- Something worth knowing. -/
  | note
  /-- A suggestion. -/
  | help
  deriving DecidableEq

/-- The name of a severity. -/
def Severity.name : Severity → String
  | .bug => "bug"
  | .error => "error"
  | .warning => "warning"
  | .note => "note"
  | .help => "help"

/-- Whether a label marks what the diagnostic is about or something related to it. -/
inductive LabelStyle where
  /-- What the diagnostic is about. -/
  | primary
  /-- Something related to it. -/
  | secondary
  deriving DecidableEq

/-- The name of a label style. -/
def LabelStyle.name : LabelStyle → String
  | .primary => "primary"
  | .secondary => "secondary"

/-- A labelled piece of a source file. -/
structure Label where
  /-- What the label marks. -/
  style : LabelStyle
  /-- The place of the file among the files. -/
  file : Nat
  /-- The offset at which the piece starts. -/
  start : Nat
  /-- The offset just after the piece. -/
  stop : Nat
  /-- The text of the label; may be empty. -/
  message : String
  deriving DecidableEq

/-- A message with its context. -/
structure Diagnostic where
  /-- How serious it is. -/
  severity : Severity
  /-- The code. -/
  code : Option String
  /-- The text. -/
  message : String
  /-- The labels. -/
  labels : List Label
  /-- The notes. -/
  notes : List String
  deriving DecidableEq

namespace Diagnostic

/-- A diagnostic without context. -/
def ofMessage (severity : Severity) (message : String) : Diagnostic :=
  ⟨severity, none, message, [], []⟩

/-- The diagnostic with a code. -/
def withCode (d : Diagnostic) (code : String) : Diagnostic := { d with code := some code }

/-- The diagnostic with one more label. -/
def withLabel (d : Diagnostic) (label : Label) : Diagnostic :=
  { d with labels := d.labels ++ [label] }

/-- The diagnostic with one more note. -/
def withNote (d : Diagnostic) (note : String) : Diagnostic := { d with notes := d.notes ++ [note] }

/-- The diagnostic with a suggestion among its notes. -/
def withHelp (d : Diagnostic) (help : String) : Diagnostic := d.withNote ("help: " ++ help)

end Diagnostic

/-! ## Check errors -/

namespace Fault

/-- The code of a fault. -/
def code : Fault → String
  | undeclaredReference _ _ => "E1001"
  | noMatchingOverload _ _ => "E1002"
  | typeMismatch _ _ => "E1003"
  | fieldTypeMismatch _ _ _ => "E1004"
  | conflictingTypes _ _ _ => "E1005"
  | conflictingReferences _ _ _ => "E1006"
  | notAType _ => "E1007"
  | notAMessageType _ => "E1008"
  | undefinedField _ => "E1009"
  | notARange _ => "E1010"
  | fieldsUnsupported _ => "E1011"
  | notAFieldName _ => "E1012"
  | unresolvedMessage _ => "E1013"
  | internal _ => "E1014"

/-- The text of the label of a fault. -/
def label : Fault → String
  | undeclaredReference _ _ => "not found in this scope"
  | noMatchingOverload _ _ => "no overload accepts these arguments"
  | typeMismatch expected actual => "expected '" ++ expected ++ "', found '" ++ actual ++ "'"
  | fieldTypeMismatch field _ _ => "initializer for '" ++ field ++ "'"
  | conflictingTypes _ _ _ => "node checked twice"
  | conflictingReferences _ _ _ => "node checked twice"
  | notAType _ => "not a type"
  | notAMessageType _ => "not a message type"
  | undefinedField _ => "field not found"
  | notARange _ => "not iterable"
  | fieldsUnsupported _ => "field selection not supported"
  | notAFieldName _ => "expected a field name"
  | unresolvedMessage _ => "type provider lookup failed"
  | internal _ => "internal error"

/-- Add what there is to say about a fault besides its message. -/
def annotate (d : Diagnostic) : Fault → Diagnostic
  | undeclaredReference name container =>
    if container.isEmpty then d
    else d.withNote
      ("'" ++ name ++ "' was also looked up relative to container '" ++ container ++ "'")
  | noMatchingOverload function _ =>
    d.withHelp ("check the declared overloads of '" ++ function ++ "'")
  | conflictingTypes _ _ _ => d.withNote "expression ids are expected to be unique"
  | conflictingReferences _ _ _ => d.withNote "expression ids are expected to be unique"
  | notAMessageType _ =>
    d.withHelp "only message types can be constructed with `Name\x7bfield: value\x7d`"
  | notAFieldName _ => d.withHelp "optional selection takes the form `operand.?field`"
  | unresolvedMessage _ =>
    d.withNote "the type provider reported this type earlier but no longer resolves it"
  | _ => d

end Fault

namespace Diagnostic

/-- The diagnostic of a check error in a file of so many bytes.  Its label covers one byte at the
place of the error, as far as the file has one there. -/
def ofReported (file length : Nat) (r : Reported) : Diagnostic :=
  let start := min r.location.offset.toNat length
  let label : Label := ⟨.primary, file, start, min (start + 1) length, r.error.fault.label⟩
  r.error.fault.annotate
    (((ofMessage .error r.error.message).withCode r.error.fault.code).withLabel label)

/-- The diagnostics of the errors that a report kept. -/
def ofReport (file length : Nat) (r : Report) : List Diagnostic :=
  r.kept.map (ofReported file length)

end Diagnostic

/-! ## Declaration errors -/

/-- The code of a declaration error. -/
def DeclarationError.code : DeclarationError → String
  | overloadCollision .. => "E2001"
  | overloadRedefinition .. => "E2002"
  | singletonConflict .. => "E2003"
  | unrelatedMerge .. => "E2004"
  | overlappingIdentifier .. => "E2005"
  | overlappingMacro .. => "E2006"
  | invalidQualifiedName .. => "E2007"
  | aliasCollision .. => "E2008"

/-- The diagnostic of a declaration error. -/
def Diagnostic.ofDeclarationError (e : DeclarationError) : Diagnostic :=
  let d := (ofMessage .error e.message).withCode e.code
  match e with
  | .overlappingMacro .. =>
    d.withNote "macros are expanded before checking, so this function could never be called"
  | _ => d

end CelTyping
