import CelTyping.Declaration.FunctionDecl
import CelTyping.Declaration.Variable
import CelTyping.Table

/-!
# Scopes

Declarations live in groups, one group for every scope.  A chain of scopes is a handle: the place
of the group of its innermost scope, and the links to the scopes around it.  Several handles may
lead to the same group, and a declaration added through one of them is seen through all of them;
what they share is therefore kept in a store, apart from the handles.

* Pushing makes a new, empty group, and a link to the scope around it.
* Popping forgets the innermost group.
* Detaching gives a handle a group of its own, with the declarations of the one it had, so that
  what is added through this handle from then on is not seen through others.

Looking up a name goes outward along the chain and takes the first declaration found.

## References

A group is referred to by every handle that has it as its innermost scope, and by every link to it.
A link is made once, by a push, and the handles that come from the one it was made for share it, so
it counts once and as long as one of the handles in use leads through it.  Detaching goes by the
number of references (`Scopes.references`): a group with no other reference than that of the handle
is its own already, and only a group with more of them is copied.
-/

namespace CelTyping

/-- The declarations of one scope. -/
structure Group where
  /-- The identifiers, by name. -/
  idents : Table String Variable
  /-- The functions, by name. -/
  functions : Table String FunctionDecl

namespace Group

/-- A scope without declarations. -/
def empty : Group := ⟨.empty, .empty⟩

instance : Inhabited Group := ⟨empty⟩

/-- Declare an identifier, in place of one with the same name. -/
def addIdent (g : Group) (v : Variable) : Group := { g with idents := g.idents.insert v.name v }

/-- Declare a function, in place of one with the same name. -/
def setFunction (g : Group) (f : FunctionDecl) : Group :=
  { g with functions := g.functions.insert f.name f }

end Group

/-- The place of a group in a store. -/
abbrev GroupId := Nat

/-- A link from a scope to the one around it. -/
structure Link where
  /-- The group that was made by the push that made the link; it tells the link from others. -/
  made : GroupId
  /-- The group of the scope around. -/
  group : GroupId
  deriving DecidableEq

/-- A chain of scopes. -/
structure Scopes where
  /-- The innermost scope. -/
  innermost : GroupId
  /-- The links to the scopes around it, from the inside out. -/
  links : List Link
  deriving DecidableEq

namespace Scopes

/-- The scopes around the innermost one, from the inside out. -/
def around (h : Scopes) : List GroupId := h.links.map Link.group

/-- All scopes of a chain, from the inside out. -/
def chain (h : Scopes) : List GroupId := h.innermost :: h.around

/-- The number of scopes of a chain. -/
def depth (h : Scopes) : Nat := h.chain.length

/-- The outermost scope of a chain. -/
def outermost (h : Scopes) : GroupId := h.around.getLastD h.innermost

/-- The chain without its innermost scope, if it has another. -/
def pop (h : Scopes) : Option Scopes :=
  match h.links with
  | [] => none
  | l :: rest => some ⟨l.group, rest⟩

/-- The links that the chains in use lead through, each once. -/
def liveLinks (live : List Scopes) : List Link := (live.flatMap links).eraseDups

/-- The number of references to a group, given the chains in use. -/
def references (live : List Scopes) (id : GroupId) : Nat :=
  live.countP (fun h => h.innermost == id) + (liveLinks live).countP fun l => l.group == id

end Scopes

/-- The groups of all scopes. -/
structure Store where
  /-- The groups, each at its place. -/
  groups : Array Group

namespace Store

/-- The store without groups. -/
def empty : Store := ⟨#[]⟩

instance : Inhabited Store := ⟨empty⟩

/-- The group at a place. -/
def group (s : Store) (id : GroupId) : Group := s.groups[id]?.getD .empty

/-- Put a group at a new place. -/
def alloc (s : Store) (g : Group) : GroupId × Store := (s.groups.size, ⟨s.groups.push g⟩)

/-- Change the group at a place. -/
def modify (s : Store) (id : GroupId) (f : Group → Group) : Store := ⟨s.groups.modify id f⟩

/-! ## Chains -/

/-- A chain of one empty scope. -/
def newScopes (s : Store) : Scopes × Store :=
  let (id, s) := s.alloc .empty
  (⟨id, []⟩, s)

/-- The chain with a new, empty scope inside. -/
def push (s : Store) (h : Scopes) : Scopes × Store :=
  let (id, s) := s.alloc .empty
  (⟨id, ⟨id, h.innermost⟩ :: h.links⟩, s)

/-- The chain with a copy in place of its innermost scope. -/
def copyInnermost (s : Store) (h : Scopes) : Scopes × Store :=
  let (id, s) := s.alloc (s.group h.innermost)
  ({ h with innermost := id }, s)

/-- The chain with an innermost scope of its own, given the other chains in use: a copy, if there
are more references to the scope than that of the chain. -/
def detach (s : Store) (others : List Scopes) (h : Scopes) : Scopes × Store :=
  if 1 < Scopes.references (h :: others) h.innermost then s.copyInnermost h else (h, s)

/-! ## Declarations -/

/-- Declare an identifier in the innermost scope. -/
def addIdent (s : Store) (h : Scopes) (v : Variable) : Store :=
  s.modify h.innermost fun g => g.addIdent v

/-- Declare an identifier in the outermost scope. -/
def addGlobalIdent (s : Store) (h : Scopes) (v : Variable) : Store :=
  s.modify h.outermost fun g => g.addIdent v

/-- Declare a function in the innermost scope. -/
def setFunction (s : Store) (h : Scopes) (f : FunctionDecl) : Store :=
  s.modify h.innermost fun g => g.setFunction f

/-- The identifier of a name in the innermost scope. -/
def findLocalIdent? (s : Store) (h : Scopes) (name : String) : Option Variable :=
  (s.group h.innermost).idents.find? name

/-- The innermost identifier of a name. -/
def findIdent? (s : Store) (h : Scopes) (name : String) : Option Variable :=
  h.chain.findSome? fun id => (s.group id).idents.find? name

/-- The innermost function of a name. -/
def findFunction? (s : Store) (h : Scopes) (name : String) : Option FunctionDecl :=
  h.chain.findSome? fun id => (s.group id).functions.find? name

/-! ## Listings -/

/-- The first entry of every key, in order. -/
def firstByKey {α : Type} (entries : List (String × α)) : List (String × α) :=
  entries.foldl (fun seen e => if seen.any (fun b => b.1 == e.1) then seen else seen ++ [e]) []

/-- The values of the first entries of every key, sorted by name. -/
def sortedByName {α : Type} (name : α → String) (entries : List (String × α)) : List α :=
  ((firstByKey entries).map Prod.snd).mergeSort fun a b => decide (name a ≤ name b)

/-- The identifiers that can be seen, sorted by name. -/
def idents (s : Store) (h : Scopes) : List Variable :=
  sortedByName Variable.name (h.chain.flatMap fun id => (s.group id).idents.entries)

/-- The functions that can be seen, sorted by name. -/
def functions (s : Store) (h : Scopes) : List FunctionDecl :=
  sortedByName FunctionDecl.name (h.chain.flatMap fun id => (s.group id).functions.entries)

end Store
end CelTyping
