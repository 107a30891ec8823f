import CelTyping.Declaration.Error
import CelTyping.Table
import CelTyping.Text.Alphanumeric
import CelTyping.Text.Characters

/-!
# Containers

A container is the namespace in which names are looked up.  In the container `a.b` the name `c`
may mean `a.b.c`, `a.c` or `c`, and is tried in that order.  A name with a leading dot is
absolute.  An alias lets a simple name stand for a qualified one; a name whose first segment is
an alias means only that.
-/

namespace CelTyping

/-! ## Dotted names -/

namespace DottedName

/-- The part of a name before its first dot. -/
def firstSegment (cs : List Char) : List Char := cs.takeWhile (· ≠ '.')

/-- The part of a name from its first dot on. -/
def afterFirst (cs : List Char) : List Char := cs.dropWhile (· ≠ '.')

/-- The parts of a name before and after its last dot. -/
def splitLast? (cs : List Char) : Option (List Char × List Char) :=
  match cs.reverse.dropWhile (· ≠ '.') with
  | [] => none
  | _ :: before => some (before.reverse, (cs.reverse.takeWhile (· ≠ '.')).reverse)

/-- The part of a qualified name after its last dot; a qualified name has something on both sides
of it. -/
def lastSegment? (cs : List Char) : Option (List Char) :=
  match splitLast? cs with
  | some (_ :: _, c :: rest) => some (c :: rest)
  | _ => none

/-- The prefixes of a name that end right before a dot, longest first, given the characters
already read. -/
def beforeDots (read : List Char) : List Char → List (List Char)
  | [] => []
  | c :: rest =>
    beforeDots (read ++ [c]) rest ++ if c = '.' then [read] else []

/-- The namespaces around a name: the name itself and its prefixes that end before a dot, longest
first. -/
def enclosing (cs : List Char) : List (List Char) := cs :: beforeDots [] cs

end DottedName

open DottedName

/-- A namespace in which names are looked up. -/
structure Container where
  /-- The dotted name, empty for the outermost namespace. -/
  name : String
  /-- The qualified names that simple names stand for. -/
  aliases : Table String String

namespace Container

/-- The outermost namespace. -/
def root : Container := ⟨"", .empty⟩

instance : Inhabited Container := ⟨root⟩

/-- The container with a dotted name. -/
def ofName (name : String) : Except DeclarationError Container :=
  if name.toList.head? = some '.' then
    .error (.invalidQualifiedName name .containerLeadingDot)
  else .ok ⟨name, .empty⟩

/-! ## Short names -/

/-- Let a simple name stand for a qualified one. -/
def addShortName (c : Container) (kind : AliasKind) (short name : String) :
    Except DeclarationError Container :=
  if short.isEmpty ∨ '.' ∈ short.toList then
    .error (.invalidQualifiedName short .aliasNotSimple)
  else if name.toList.head? = some '.' then
    .error (.invalidQualifiedName name .leadingDot)
  else if (lastSegment? name.toList).isNone then
    .error (.invalidQualifiedName name .aliasTarget)
  else
    match c.aliases.find? short with
    | some existing => .error (.aliasCollision kind name short existing)
    | none =>
      if firstSegment c.name.toList = short.toList then
        .error (.invalidQualifiedName short .collidesWithContainer)
      else .ok { c with aliases := c.aliases.insert short name }

/-- Let an alias stand for a qualified name. -/
def addAlias (c : Container) (short name : String) : Except DeclarationError Container :=
  c.addShortName .alias short name

/-- Let the last segment of a qualified name stand for it. -/
def addAbbreviation (c : Container) (name : String) : Except DeclarationError Container :=
  let cs := Text.trimBlanks name.toList
  let trimmed := String.ofList cs
  if cs.all (fun ch => Text.isAlphanumeric ch || ch == '_' || ch == '.') then
    match lastSegment? cs with
    | some last => c.addShortName .abbreviation (String.ofList last) trimmed
    | none => .error (.invalidQualifiedName trimmed .notQualified)
  else .error (.invalidQualifiedName trimmed .notQualified)

/-- Let the last segment of every listed name stand for it, up to the first that is refused. -/
def addAbbreviations (c : Container) (names : List String) :
    Container × Option DeclarationError :=
  runSteps addAbbreviation c names

/-! ## Candidates -/

/-- What a name means if its first segment is an alias. -/
def findAlias? (c : Container) (cs : List Char) : Option String :=
  (c.aliases.find? (String.ofList (firstSegment cs))).map fun name =>
    name ++ String.ofList (afterFirst cs)

/-- The full names that a name may stand for, in the order in which they are tried. -/
def candidates (c : Container) (name : String) : List String :=
  match name.toList with
  | '.' :: absolute => [(c.findAlias? absolute).getD (String.ofList absolute)]
  | cs =>
    match c.findAlias? cs with
    | some meant => [meant]
    | none =>
      if c.name.isEmpty then [name]
      else (enclosing c.name.toList).map (fun p => String.ofList p ++ "." ++ name) ++ [name]

end Container
end CelTyping
